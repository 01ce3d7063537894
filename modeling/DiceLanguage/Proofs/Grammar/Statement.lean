import DiceLanguage.Grammar.Statement
import DiceLanguage.Proofs.Grammar.Sound
import DiceLanguage.Proofs.Node.Arithmetic
import DiceLanguage.Proofs.Token.Spelling

namespace DiceLanguage.Grammar

inductive Checks : Option Comparison → List Token → Prop where
  | none : Checks none []
  | some {sign : Token} {tokens : List Token} {relation : Relation} {target : Node}
    (compares : sign.kind = .relation relation) (derives : Derives .sum tokens target) :
    Checks (some ⟨relation, target⟩) (sign :: tokens)

inductive Marks : Bool → List Token → Prop where
  | none : Marks false []
  | secret {mark : Token} (letter : mark.kind = .letter .s) : Marks true [mark]

/-- The tokens of an expression behind an optional mark and before an optional comparison. -/
def Rolls (secret : Bool) (expr : Node) (check : Option Comparison) (tokens : List Token) : Prop :=
  ∃ marks used behind, tokens = marks ++ (used ++ behind) ∧ Marks secret marks ∧
    Derives .sum used expr ∧ Checks check behind

variable {last : Token} {tokens rest : List Token} {expr : Node} {check : Option Comparison}

theorem Derives.sum_read (context : Context) (derives : Derives .sum tokens expr)
    (constant : context.constantOnly = true → expr.isVariable = false)
    (closed : ∀ token ∈ rest.head?, Closes token.kind) {whole : List Token}
    (cut : whole = tokens ++ rest) :
    ∃ shorter, sum context whole = .ok ⟨expr, rest, shorter⟩ := by
  subst cut
  apply eq_of_outcome
  cases rest with
  | nil =>
    have stops : Rule.sum.Stops [] := ⟨nofun, nofun⟩
    exact (derives.read constant stops).trans (outcome_sumTail_nil context expr)
  | cons token rest =>
    have closes := closed token rfl
    exact (derives.read constant (sum_stops_of_closes closes)).trans (resume_sum_closes closes)

theorem expect_read (context : Context) {token : Token} {kind : TokenKind} (rest : List Token)
    (found : token.kind = kind) :
    ∃ shorter, expect context kind (token :: rest) = .ok ⟨token, rest, shorter⟩ :=
  eq_of_outcome (outcome_expect_found found)

theorem calculation_read {closing : Token} (derives : Derives .sum tokens expr)
    (constant : expr.isVariable = false) (closes : closing.kind = .rightParen) :
    calculation last (tokens ++ [closing]) = .ok (.calculation expr, []) := by
  have closed : ∀ token ∈ [closing].head?, Closes token.kind := by
    intro first same
    cases same
    exact .inl closes
  obtain ⟨_, read⟩ := derives.sum_read { last, constantOnly := true }
    (fun _ => constant) closed rfl
  obtain ⟨_, found⟩ := expect_read { last } [] closes
  rw [calculation, read]
  change (expect { last } .rightParen [closing] >>= _) = _
  rw [found]
  rfl

theorem comparison_read (checks : Checks check tokens) :
    comparison last tokens = .ok (check, []) := by
  cases checks with
  | none => rfl
  | @some sign tokens relation target compares derives =>
    have closed : ∀ token ∈ ([] : List Token).head?, Closes token.kind := nofun
    obtain ⟨_, read⟩ := derives.sum_read { last } nofun closed (List.append_nil tokens).symm
    obtain ⟨kind, literal, gap, column, offset⟩ := sign
    cases compares
    change (sum { last } tokens >>= _) = _
    rw [read]
    rfl

theorem Checks.closed (checks : Checks check tokens) : ∀ token ∈ tokens.head?, Closes token.kind := by
  cases checks with
  | none => nofun
  | some compares =>
    intro first same
    cases same
    exact .inr (.inr (.inr ⟨_, compares⟩))

theorem rollCommand_read {behind : List Token} {command : Command}
    (derives : Derives .sum tokens expr) (checks : Checks check behind)
    (accepted : Command.ofExpression expr check = .ok command) :
    rollCommand last (tokens ++ behind) = .ok (command, []) := by
  obtain ⟨_, read⟩ := derives.sum_read { last } nofun checks.closed rfl
  rw [rollCommand, read]
  change (comparison last behind >>= _) = _
  rw [comparison_read checks]
  change ((Command.ofExpression expr check).mapError _ >>= _) = _
  rw [accepted]
  rfl

def IsPlainToken (token : Token) : Prop :=
  token.kind ≠ .word ∧ ∀ letter, token.kind ≠ .letter letter

theorem Derives.begins_plain {rule : Rule} (derives : Derives rule tokens expr) :
    ∃ first rest, tokens = first :: rest ∧ IsPlainToken first := by
  obtain ⟨first, rest, same, starts⟩ := derives.begins
  have plain : IsPlainToken first := by
    constructor
    · intro word
      rw [word] at starts
      rcases starts with starts | ⟨starts, -⟩ <;> cases starts
    · intro letter isLetter
      rw [isLetter] at starts
      rcases starts with starts | ⟨starts, -⟩ <;> cases starts
  exact ⟨first, rest, same, plain⟩

theorem spells_of_kind {token : Token} (noWord : token.kind ≠ .word) (word : String) :
    ¬ token.spells word = true := by
  simp [Token.spells, noWord]

theorem ofCommand_rolls {first : Token} (plain : IsPlainToken first) (secret : Bool) :
    Lead.ofCommand secret (first :: rest) = ⟨secret, .rolls, first :: rest⟩ := by
  cases rest with
  | nil => rfl
  | cons second rest =>
    rw [Lead.ofCommand, if_neg fun both => plain.2 .c both.1,
      if_neg fun both => spells_of_kind plain.1 _ both.1]

theorem ofTokens_marked {first : Token} (noWord : first.kind ≠ .word) :
    Lead.ofTokens (first :: rest) = Lead.ofMarked (first :: rest) := by
  cases rest with
  | nil => rfl
  | cons second rest =>
    rw [Lead.ofTokens, if_neg fun both => spells_of_kind noWord _ both.1,
      if_neg fun both => spells_of_kind noWord _ both.1]

theorem lead_rolls {marks : List Token} {secret : Bool} (marked : Marks secret marks)
    (derives : Derives .sum tokens expr) :
    Lead.ofTokens (marks ++ (tokens ++ rest)) = ⟨secret, .rolls, tokens ++ rest⟩ := by
  obtain ⟨first, more, rfl, plain⟩ := derives.begins_plain
  simp only [List.cons_append]
  cases marked with
  | none =>
    rw [List.nil_append, ofTokens_marked plain.1, Lead.ofMarked, if_neg (plain.2 .s),
      ofCommand_rolls plain]
  | @secret mark letter =>
    rw [List.singleton_append, ofTokens_marked (by simp [letter]), Lead.ofMarked, if_pos letter,
      ofCommand_rolls plain]

theorem statement_rolls {secret : Bool} {command : Command} (rolls : Rolls secret expr check tokens)
    (accepted : Command.ofExpression expr check = .ok command) :
    statement ⟨tokens, last⟩ = .ok ⟨command, secret⟩ := by
  obtain ⟨marks, used, behind, rfl, marked, derives, checks⟩ := rolls
  rw [statement, lead_rolls marked derives]
  change (rollCommand last (used ++ behind) >>= _) = _
  rw [rollCommand_read derives checks accepted]
  rfl

theorem parse_rolls {text : String} {secret : Bool} {command : Command}
    (spells : Spells text.toList (Rolls secret expr check))
    (accepted : Command.ofExpression expr check = .ok command) :
    Statement.parse text = .ok ⟨command, secret⟩ :=
  statement_rolls spells.body_ofText accepted

def CalculationHead (secret : Bool) (head : Token) : Prop :=
  if secret then head.spells "sc" = true else head.kind = .letter .c

def Calculates (secret : Bool) (expr : Node) (tokens : List Token) : Prop :=
  ∃ head opening inner closing, tokens = head :: opening :: (inner ++ [closing]) ∧
    CalculationHead secret head ∧ opening.kind = .leftParen ∧ Derives .sum inner expr ∧
    closing.kind = .rightParen

theorem lead_calculation {secret : Bool} {head opening : Token}
    (heads : CalculationHead secret head) (opens : opening.kind = .leftParen) :
    Lead.ofTokens (head :: opening :: rest) = ⟨secret, .calculation, rest⟩ := by
  cases secret with
  | false =>
    have letter : head.kind = .letter .c := heads
    rw [ofTokens_marked (by simp [letter]), Lead.ofMarked, if_neg (by simp [letter]),
      Lead.ofCommand, if_pos ⟨letter, opens⟩]
  | true =>
    have spelled : head.spells "sc" = true := heads
    rw [Lead.ofTokens, if_neg (by simp [opens]), if_pos ⟨spelled, opens⟩]

theorem parse_calculation {text : String} {secret : Bool}
    (spells : Spells text.toList (Calculates secret expr)) (constant : expr.isVariable = false) :
    Statement.parse text = .ok ⟨.calculation expr, secret⟩ := by
  obtain ⟨head, opening, inner, closing, cut, heads, opens, derives, closes⟩ := spells.body_ofText
  rw [Statement.parse, statement, cut, lead_calculation heads opens]
  change (calculation (Tokens.ofText text).last (inner ++ [closing]) >>= _) = _
  rw [calculation_read derives constant closes]
  rfl

inductive Origin : Command → Prop where
  | calculation {tokens : List Token} {expr : Node} (derives : Derives .sum tokens expr)
    (constant : expr.isVariable = false) : Origin (.calculation expr)
  | choice (items : NonEmptyList String) : Origin (.choice items)
  | rolls {tokens behind : List Token} {expr : Node} {check : Option Comparison}
    {command : Command} (derives : Derives .sum tokens expr) (checks : Checks check behind)
    (accepted : Command.ofExpression expr check = .ok command) : Origin command

theorem expect_sound {context : Context} {kind : TokenKind} {step : Step Token tokens.length}
    (found : expect context kind tokens = .ok step) :
    tokens = step.value :: step.rest ∧ step.value.kind = kind := by
  have read : outcome (expect context kind tokens) = .ok (step.value, step.rest) := by
    rw [found]
    rfl
  exact expect_ok read

theorem calculation_sound {command : Command}
    (read : calculation last tokens = .ok (command, rest)) :
    ∃ inner closing expr, tokens = inner ++ closing :: rest ∧ Derives .sum inner expr ∧
      expr.isVariable = false ∧ closing.kind = .rightParen ∧ command = .calculation expr := by
  rw [calculation] at read
  obtain ⟨step, first, tail⟩ := bind_ok read
  obtain ⟨closing, found, last⟩ := bind_ok tail
  obtain ⟨inner, whole, derives, constant⟩ := sum_sound first
  obtain ⟨behind, closes⟩ := expect_sound found
  cases last
  exact ⟨inner, closing.value, step.value, whole.trans (congrArg (inner ++ ·) behind), derives,
    constant rfl, closes, rfl⟩

theorem relation?_some {relation : Relation} (found : relation? tokens = some (relation, rest)) :
    ∃ sign, tokens = sign :: rest ∧ sign.kind = .relation relation := by
  unfold relation? at found
  split at found
  · cases found
    exact ⟨_, rfl, rfl⟩
  · cases found

theorem comparison_sound (read : comparison last tokens = .ok (check, rest)) :
    ∃ behind, tokens = behind ++ rest ∧ Checks check behind := by
  rw [comparison] at read
  split at read
  · cases read
    exact ⟨[], rfl, .none⟩
  · obtain ⟨step, first, tail⟩ := bind_ok read
    obtain ⟨used, whole, derives, -⟩ := sum_sound first
    obtain ⟨sign, rfl, compares⟩ := relation?_some ‹_›
    simp only at tail
    split at tail
    · cases tail
    · cases tail
      exact ⟨sign :: used, congrArg (sign :: ·) whole, .some compares derives⟩

theorem choiceItems_none (cut : tokens.dropWhile (!endsItem ·) = []) :
    choiceItems last tokens =
      .error (Context.unexpected { last } [] [.comma, .rightBracket]) := by
  rw [choiceItems.eq_def]
  split
  · rfl
  · rename_i same
    rw [cut] at same
    cases same

theorem choiceItems_cut {delimiter : Token}
    (cut : tokens.dropWhile (!endsItem ·) = delimiter :: rest) :
    choiceItems last tokens =
      let item := tokens.takeWhile (!endsItem ·)
      if itemText item = "" then .error (.of (item.headD delimiter) .emptyChoiceItem)
      else if delimiter.kind = .comma then
        choiceItems last rest >>= fun (items, rest) => .ok (items.cons (itemText item), rest)
      else .ok (⟨itemText item, []⟩, rest) := by
  rw [choiceItems.eq_def]
  split
  · rename_i same
    rw [cut] at same
    cases same
  · rename_i same
    rw [cut] at same
    cases same
    rfl

theorem rollCommand_sound {command : Command}
    (read : rollCommand last tokens = .ok (command, rest)) :
    ∃ used behind expr check, tokens = used ++ (behind ++ rest) ∧ Derives .sum used expr ∧
      Checks check behind ∧ Command.ofExpression expr check = .ok command := by
  rw [rollCommand] at read
  obtain ⟨step, first, tail⟩ := bind_ok read
  obtain ⟨⟨check, later⟩, second, tail⟩ := bind_ok tail
  obtain ⟨made, accepted, last⟩ := bind_ok tail
  obtain ⟨used, whole, derives, -⟩ := sum_sound first
  obtain ⟨behind, cut, checks⟩ := comparison_sound second
  cases last
  refine ⟨used, behind, step.value, check, whole.trans (congrArg (used ++ ·) cut), derives, checks,
    ?_⟩
  cases classified : Command.ofExpression step.value check with
  | error => rw [classified] at accepted; cases accepted
  | ok => rw [classified] at accepted; cases accepted; rfl

theorem statement_ok {tokens : Tokens} {result : Statement} :
    statement tokens = .ok result ↔
      command tokens.last (Lead.ofTokens tokens.body).shape (Lead.ofTokens tokens.body).rest =
        .ok (result.command, []) ∧ result.secret = (Lead.ofTokens tokens.body).secret := by
  constructor
  · intro parsed
    rw [statement] at parsed
    obtain ⟨⟨made, rest⟩, read, tail⟩ := bind_ok parsed
    simp only at tail
    split at tail
    · cases tail
    · rename_i nothing
      cases tail
      exact ⟨by rw [read, Decidable.not_not.mp nothing], rfl⟩
  · intro reads
    obtain ⟨read, secret⟩ := reads
    rw [statement]
    simp only [read, ← secret]
    rfl

theorem calculation_origin {command : Command} (read : calculation last tokens = .ok (command, rest)) :
    Origin command := by
  obtain ⟨inner, closing, expr, -, derives, constant, -, rfl⟩ := calculation_sound read
  exact .calculation derives constant

theorem rollCommand_origin {command : Command}
    (read : rollCommand last tokens = .ok (command, rest)) : Origin command := by
  obtain ⟨used, behind, expr, check, -, derives, checks, accepted⟩ := rollCommand_sound read
  exact .rolls derives checks accepted

theorem parse_origin {text : String} {statement : Statement}
    (parsed : Statement.parse text = .ok statement) : Origin statement.command := by
  obtain ⟨read, -⟩ := statement_ok.mp parsed
  -- What the first tokens announce decides which of the readers has made the command.
  cases shape : (Lead.ofTokens (Tokens.ofText text).body).shape with
  | calculation => rw [shape] at read; exact calculation_origin read
  | rolls => rw [shape] at read; exact rollCommand_origin read
  | choice =>
    rw [shape] at read
    change choice _ _ = _ at read
    rw [choice] at read
    obtain ⟨_, -, last⟩ := bind_ok read
    simp only [pure, Except.pure, Except.ok.injEq, Prod.mk.injEq] at last
    rw [← last.1]
    exact .choice _

end DiceLanguage.Grammar
