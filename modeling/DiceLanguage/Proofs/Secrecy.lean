import DiceLanguage.Dice.Cycle
import DiceLanguage.Execute
import DiceLanguage.Proofs.Grammar.Language
import DiceLanguage.Proofs.Print.Choice
import DiceLanguage.Proofs.Token.Longest

namespace DiceLanguage

open Grammar

theorem Position.after_comm (start : Position) (left right : List Char) :
    (start.after left).after right = (start.after right).after left := by
  simp only [after, Position.mk.injEq]
  omega

def Token.movedBy (front : List Char) (token : Token) : Token :=
  { token with
    column := token.column + front.length
    offset := token.offset + byteLength front }

namespace Token

variable (front : List Char) (token : Token)

@[simp] theorem kind_movedBy : (token.movedBy front).kind = token.kind := rfl

@[simp] theorem literal_movedBy : (token.movedBy front).literal = token.literal := rfl

@[simp] theorem endsItem_movedBy : endsItem (token.movedBy front) = endsItem token := rfl

end Token

theorem Tokens.scan_after (front : List Char) (start : Position) (text : List Char) :
    (scan (start.after front) text).body = (scan start text).body.map (Token.movedBy front) := by
  fun_induction scan start text with
  | case1 start text gap place empty =>
    rw [scan.eq_def]
    split
    · rfl
    · rename_i same
      rw [empty] at same
      cases same
  | case2 start text gap place c rest behind lexeme token tokens ih =>
    have whole : text = gap ++ c :: rest := behind ▸ List.takeWhile_append_dropWhile.symm
    have blank : ∀ x ∈ gap, Text.isGap x = true := List.all_eq_true.mp List.all_takeWhile
    have noGap : Text.isGap c = false := by
      have stops := List.head?_dropWhile_not Text.isGap text
      rwa [behind] at stops
    rw [whole, scan_gap blank noGap, List.map_cons, ← ih, Position.after_comm start,
      Position.after_comm place]
    rfl

theorem Lexeme.first_alpha {c : Char} (alpha : c.isAlpha = true) (rest : List Char) :
    first c rest = ⟨wordKind (c :: rest.takeWhile Char.isAlpha), c :: rest.takeWhile Char.isAlpha,
      rest.dropWhile Char.isAlpha⟩ := by
  rw [first, if_neg (by simp [not_isDigit_of_isAlpha alpha]), if_pos alpha]

namespace Grammar

variable {tokens rest : List Token} {last last' : Token} {front : List Char}

section Map

variable {f : Token → Token} (kind : ∀ t, (f t).kind = t.kind)
  (digits : ∀ t, t.kind = .integer → (f t).literal = t.literal)

include kind

theorem Suffix.map {rounding : Rounding} (suffix : Suffix rounding tokens) :
    Suffix rounding (tokens.map f) := by
  cases suffix with
  | down => exact .down
  | nearest letter => exact .nearest ((kind _).trans letter)
  | up letter => exact .up ((kind _).trans letter)

include digits

theorem Derives.map {rule : Rule} {x : Node} (derives : Derives rule tokens x) :
    Derives rule (tokens.map f) x := by
  induction derives with
  | product term ih => exact .product ih
  | join earlier joins term ihx ihy =>
    rw [List.map_append, List.map_cons]
    exact .join ihx ((congrArg sumOp? (kind _)).trans joins) ihy
  | signed factor ih => exact .signed ih
  | multiply earlier times factor ihx ihy =>
    rw [List.map_append, List.map_cons]
    exact .multiply ihx ((kind _).trans times) ihy
  | divide earlier slash divisor suffix ihx ihy =>
    rw [List.map_append, List.map_cons, List.map_append]
    exact .divide ihx ((kind _).trans slash) ihy (suffix.map kind)
  | rolls unsigned ih => exact .rolls ih
  | neg minus negated ih => exact .neg ((kind _).trans minus) ih
  | operand single ih => exact .operand ih
  | roll count family sides ihx ihy =>
    rw [List.map_append, List.map_cons]
    exact .roll ihx ((kind _).trans family) ihy
  | thresholdRoll count family sides allowed opens limit closes ihx ihy ihz =>
    simp only [List.map_append, List.map_cons, List.map_nil]
    exact .thresholdRoll ihx ((kind _).trans family) ihy allowed ((kind _).trans opens) ihz
      ((kind _).trans closes)
  | @integer token isInteger fits =>
    have same := digits token isInteger
    rw [← same] at fits ⊢
    exact .integer ((kind token).trans isInteger) fits
  | enclosed opens whole closes ih =>
    simp only [List.map_append, List.map_cons, List.map_nil]
    exact .enclosed ((kind _).trans opens) ih ((kind _).trans closes)
  | random opens least between greatest closes ihx ihy =>
    simp only [List.map_append, List.map_cons, List.map_nil]
    exact .random ((kind _).trans opens) ihx ((kind _).trans between) ihy ((kind _).trans closes)

theorem Checks.map {check : Option Comparison} (checks : Checks check tokens) :
    Checks check (tokens.map f) := by
  cases checks with
  | none => exact .none
  | some compares derives => exact .some ((kind _).trans compares) (derives.map kind digits)

end Map

theorem Derives.moved {rule : Rule} {x : Node} (derives : Derives rule tokens x)
    (front : List Char) : Derives rule (tokens.map (Token.movedBy front)) x :=
  derives.map (Token.kind_movedBy front) fun token _ => token.literal_movedBy front

theorem Checks.moved {check : Option Comparison} (checks : Checks check tokens)
    (front : List Char) : Checks check (tokens.map (Token.movedBy front)) :=
  checks.map (Token.kind_movedBy front) fun token _ => token.literal_movedBy front

theorem itemText_moved (front : List Char) (tokens : List Token) :
    itemText (tokens.map (Token.movedBy front)) = itemText tokens := by
  rw [itemText, itemText, List.flatMap_map]
  rfl

theorem choiceItems_moved {items : NonEmptyList String}
    (read : choiceItems last tokens = .ok (items, rest)) :
    choiceItems last' (tokens.map (Token.movedBy front)) =
      .ok (items, rest.map (Token.movedBy front)) := by
  have noEnd (tokens : List Token) :
      ∀ t ∈ (tokens.takeWhile (!endsItem ·)).map (Token.movedBy front), endsItem t = false := by
    intro t member
    obtain ⟨token, within, rfl⟩ := List.mem_map.mp member
    simpa using List.all_eq_true.mp List.all_takeWhile token within
  have ends {tokens behind : List Token} {delimiter : Token}
      (cut : tokens.dropWhile (!endsItem ·) = delimiter :: behind) :
      endsItem (delimiter.movedBy front) = true := by
    have stops := List.head?_dropWhile_not (!endsItem ·) tokens
    rw [cut] at stops
    simpa using stops
  fun_induction choiceItems last tokens generalizing items rest with
  | case1 | case2 => cases read
  | case3 tokens item delimiter behind cut text nonempty =>
    rename_i comma ih
    obtain ⟨⟨later, rest'⟩, next, same⟩ := bind_ok read
    cases same
    have whole : tokens = item ++ delimiter :: behind := cut ▸ List.takeWhile_append_dropWhile.symm
    rw [whole, List.map_append, List.map_cons, choiceItems_step (noEnd tokens) (ends cut)
      (itemText_moved front item) nonempty, Token.kind_movedBy, if_pos comma, ih next]
    rfl
  | case4 tokens item delimiter behind cut text =>
    rename_i nonempty noComma
    cases read
    have whole : tokens = item ++ delimiter :: behind := cut ▸ List.takeWhile_append_dropWhile.symm
    rw [whole, List.map_append, List.map_cons, choiceItems_step (noEnd tokens) (ends cut)
      (itemText_moved front item) nonempty, Token.kind_movedBy, if_neg noComma]

theorem command_moved {shape : Shape} {made : Command}
    (read : command last shape tokens = .ok (made, [])) :
    command last' shape (tokens.map (Token.movedBy front)) = .ok (made, []) := by
  cases shape with
  | calculation =>
    obtain ⟨inner, closing, expr, rfl, derives, constant, closes, rfl⟩ := calculation_sound read
    rw [List.map_append]
    exact calculation_read (derives.moved front) constant closes
  | rolls =>
    obtain ⟨used, behind, expr, check, rfl, derives, checks, accepted⟩ := rollCommand_sound read
    rw [List.append_nil, List.map_append]
    exact rollCommand_read (derives.moved front) (checks.moved front) accepted
  | choice =>
    change choice last tokens = _ at read
    obtain ⟨⟨items, rest⟩, items, same⟩ := bind_ok read
    cases same
    change choice last' _ = _
    rw [choice, choiceItems_moved items]
    rfl

theorem ofCommand_secret (marked : Bool) (tokens : List Token) :
    (Lead.ofCommand marked tokens).secret = marked := by
  unfold Lead.ofCommand
  split
  · split
    · rfl
    · split <;> rfl
  · rfl

theorem ofTokens_public (isPublic : (Lead.ofTokens tokens).secret = false) :
    Lead.ofTokens tokens = Lead.ofCommand false tokens := by
  have unmarked (isPublic : (Lead.ofMarked tokens).secret = false) :
      Lead.ofMarked tokens = Lead.ofCommand false tokens := by
    unfold Lead.ofMarked at isPublic ⊢
    split at isPublic
    · split at isPublic
      · rw [ofCommand_secret] at isPublic
        cases isPublic
      · rw [if_neg ‹_›]
    · rfl
  unfold Lead.ofTokens at isPublic ⊢
  split at isPublic
  · split at isPublic
    · cases isPublic
    split at isPublic
    · cases isPublic
    · rw [if_neg ‹_›, if_neg ‹_›]
      exact unmarked isPublic
  · exact unmarked isPublic

theorem ofCommand_moved (front : List Char) (tokens : List Token) :
    Lead.ofCommand true (tokens.map (Token.movedBy front)) =
      ⟨true, (Lead.ofCommand false tokens).shape,
        (Lead.ofCommand false tokens).rest.map (Token.movedBy front)⟩ := by
  match tokens with
  | [] | [_] => rfl
  | first :: second :: rest =>
    rw [List.map_cons, List.map_cons, Lead.ofCommand, Lead.ofCommand]
    by_cases calculates : first.kind = .letter .c ∧ second.kind = .leftParen
    · have moved : (first.movedBy front).kind = .letter .c ∧
          (second.movedBy front).kind = .leftParen := calculates
      rw [if_pos moved, if_pos calculates]
    have moved : ¬ ((first.movedBy front).kind = .letter .c ∧
        (second.movedBy front).kind = .leftParen) := calculates
    rw [if_neg moved, if_neg calculates]
    by_cases chooses : first.spells "choice" ∧ second.kind = .leftBracket
    · have moved : (first.movedBy front).spells "choice" ∧
          (second.movedBy front).kind = .leftBracket := chooses
      rw [if_pos moved, if_pos chooses]
    · have moved : ¬ ((first.movedBy front).spells "choice" ∧
          (second.movedBy front).kind = .leftBracket) := chooses
      rw [if_neg moved, if_neg chooses]
      rfl

/-- What the tokens of a text become behind a mark. -/
inductive BehindMark (mark : Char) : List Token → List Token → Prop where
  | apart {token : Token} (letter : token.kind = .letter .s) (tokens : List Token) :
    BehindMark mark tokens (token :: tokens.map (Token.movedBy [mark]))
  | oneWord {first word : Token} {c : Char} {letters : List Char}
    (begins : first.literal.toList = c :: letters)
    (kind : first.kind = Lexeme.wordKind (c :: letters)) (isWord : word.kind = .word)
    (literal : word.literal.toList = mark :: c :: letters) (tokens : List Token) :
    BehindMark mark (first :: tokens) (word :: tokens.map (Token.movedBy [mark]))

theorem behindMark_scan {mark : Char} (isMark : Letter.ofChar? mark = some .s)
    (text : List Char) :
    BehindMark mark (Tokens.scan {} text).body (Tokens.scan {} (mark :: text)).body := by
  have alpha : mark.isAlpha = true := Lexeme.isAlpha_of_ofChar? isMark
  have marked : (Tokens.scan {} (mark :: text)).body = _ :=
    Tokens.scan_gap (List.forall_mem_nil _) (Lexeme.not_isGap_of_isAlpha alpha) {} text
  rw [Lexeme.first_alpha alpha] at marked
  rw [marked]
  cases run : text.takeWhile Char.isAlpha with
  | nil =>
    have whole : text.dropWhile Char.isAlpha = text := by
      have parts : text.takeWhile Char.isAlpha ++ text.dropWhile Char.isAlpha = text :=
        List.takeWhile_append_dropWhile
      rwa [run] at parts
    have letter : Lexeme.wordKind [mark] = .letter .s := by
      rw [Lexeme.wordKind, isMark]
      rfl
    rw [whole]
    change BehindMark mark _ (_ :: (Tokens.scan (Position.after {} [mark]) text).body)
    rw [Tokens.scan_after]
    exact .apart letter _
  | cons c letters =>
    have parts : text.takeWhile Char.isAlpha ++ text.dropWhile Char.isAlpha = text :=
      List.takeWhile_append_dropWhile
    obtain ⟨rest, rfl⟩ : ∃ rest, text = c :: rest := by
      rw [run] at parts
      exact ⟨_, parts.symm⟩
    have begins : c.isAlpha = true :=
      List.all_eq_true.mp List.all_takeWhile c (run ▸ List.mem_cons_self)
    have scanned : (Tokens.scan {} (c :: rest)).body = _ :=
      Tokens.scan_gap (List.forall_mem_nil _) (Lexeme.not_isGap_of_isAlpha begins) {} rest
    rw [List.takeWhile_cons_of_pos begins] at run
    rw [Lexeme.first_alpha begins, run] at scanned
    rw [scanned, List.dropWhile_cons_of_pos begins]
    have place : (Position.after {} []).after (mark :: c :: letters) =
        ((Position.after {} []).after (c :: letters)).after [mark] :=
      (Position.after_append {} [mark] (c :: letters)).symm.trans (Position.after_comm {} [mark] _)
    simp only [place, Tokens.scan_after]
    exact .oneWord (String.toList_ofList) rfl rfl (String.toList_ofList) _

theorem Letter.toLower_of_ofChar? {c : Char} {letter : Letter}
    (found : Letter.ofChar? c = some letter) :
    [c.toLower] = letter.symbol.toList.map Char.toLower := by
  unfold Letter.ofChar? at found
  split at found <;> cases found <;> rfl

theorem Lexeme.wordKind_letter {c : Char} {letters : List Char} {letter : Letter}
    (kind : Lexeme.wordKind (c :: letters) = .letter letter) :
    letters = [] ∧ Letter.ofChar? c = some letter := by
  cases letters with
  | nil =>
    rw [Lexeme.wordKind] at kind
    cases found : Letter.ofChar? c with
    | none => rw [found] at kind; cases kind
    | some letter' => rw [found] at kind; cases kind; exact ⟨rfl, rfl⟩
  | cons => cases kind

theorem lead_oneWord {mark c : Char} {letters : List Char} {first word : Token}
    (isMark : Letter.ofChar? mark = some .s) (begins : first.literal.toList = c :: letters)
    (kind : first.kind = Lexeme.wordKind (c :: letters)) (isWord : word.kind = .word)
    (literal : word.literal.toList = mark :: c :: letters)
    (worded : (Lead.ofCommand false (first :: tokens)).shape ≠ .rolls) :
    Lead.ofTokens (word :: tokens.map (Token.movedBy [mark])) =
      ⟨true, (Lead.ofCommand false (first :: tokens)).shape,
        (Lead.ofCommand false (first :: tokens)).rest.map (Token.movedBy [mark])⟩ := by
  have lower : mark.toLower = 's' := List.singleton_inj.mp (Letter.toLower_of_ofChar? isMark)
  cases tokens with
  | nil => exact absurd rfl worded
  | cons second rest =>
    rw [Lead.ofCommand] at worded ⊢
    rw [List.map_cons, Lead.ofTokens, Token.kind_movedBy]
    split at worded
    · rename_i calculates
      obtain ⟨isLetter, opens⟩ := calculates
      obtain ⟨rfl, found⟩ := Lexeme.wordKind_letter (kind.symm.trans isLetter)
      have lowerC : c.toLower = 'c' := List.singleton_inj.mp (Letter.toLower_of_ofChar? found)
      have spelled : word.spells "sc" = true := by
        simp [Token.spells, isWord, literal, lower, lowerC]
      rw [if_neg (by simp [opens]), if_pos ⟨spelled, opens⟩, if_pos ⟨isLetter, opens⟩]
    split at worded
    · rename_i other chooses
      obtain ⟨spelledFirst, opens⟩ := chooses
      have spelled : word.spells "schoice" = true := by
        simp only [Token.spells, Bool.and_eq_true, begins, beq_iff_eq] at spelledFirst
        simp [Token.spells, isWord, literal, lower, spelledFirst]
      rw [if_pos ⟨spelled, opens⟩, if_neg other, if_pos ⟨spelledFirst, opens⟩]
    · exact absurd rfl worded

theorem statement_behindMark {mark : Char} (isMark : Letter.ofChar? mark = some .s)
    {marked : List Token} (behind : BehindMark mark tokens marked) {made : Command}
    (read : statement ⟨tokens, last⟩ = .ok ⟨made, false⟩) :
    statement ⟨marked, last'⟩ = .ok ⟨made, true⟩ := by
  obtain ⟨read, isPublic⟩ := statement_ok.mp read
  have unmarked := ofTokens_public isPublic.symm
  simp only [unmarked] at read
  have lead : Lead.ofTokens marked = ⟨true, (Lead.ofCommand false tokens).shape,
      (Lead.ofCommand false tokens).rest.map (Token.movedBy [mark])⟩ := by
    cases behind with
    | apart letter =>
      rw [ofTokens_marked (by simp [letter]), Lead.ofMarked, if_pos letter, ofCommand_moved]
    | @oneWord first word c letters begins kind isWord literal tokens =>
      apply lead_oneWord isMark begins kind isWord literal
      intro rolls
      -- No expression begins with letters.
      rw [ofCommand_of_rolls rolls] at read
      obtain ⟨used, compared, expr, check, cut, derives, -⟩ := rollCommand_sound read
      obtain ⟨first', rest, rfl, plain⟩ := derives.begins_plain
      cases cut
      rcases Lexeme.wordKind_cases (c :: letters) with word | ⟨letter, isLetter⟩
      · exact plain.1 (kind.trans word)
      · exact plain.2 letter (kind.trans isLetter)
  rw [statement_ok, lead]
  exact ⟨command_moved read, rfl⟩

end Grammar

namespace Statement

variable {σ : Type} [DiceSource σ] {text : String} {command : Command}

theorem parse_mark (parsed : parse text = .ok ⟨command, false⟩) {mark : Char}
    (isMark : Letter.ofChar? mark = some .s) :
    parse (String.singleton mark ++ text) = .ok ⟨command, true⟩ := by
  have whole : (String.singleton mark ++ text).toList = mark :: text.toList := by simp
  have behind := behindMark_scan isMark text.toList
  rw [← whole] at behind
  exact statement_behindMark isMark behind parsed

theorem execute_secret (command : Command) (secret other : Bool) (settings : Settings)
    (roller : Roller σ) :
    execute ⟨command, secret⟩ settings roller =
      ((execute ⟨command, other⟩ settings roller).1.map fun report => { report with secret },
        (execute ⟨command, other⟩ settings roller).2) := by
  simp only [execute]
  rcases (command.play settings.maxRerolls).run { roller := roller.limitTo settings.maxDice } with
    ⟨error | outcome, table⟩ <;> rfl

theorem execute_of_parse {other : String} {secret secret' : Bool}
    (parsed : parse text = .ok ⟨command, secret⟩) (parsed' : parse other = .ok ⟨command, secret'⟩)
    (settings : Settings) (roller : Roller σ) :
    DiceLanguage.execute text settings roller =
      ((DiceLanguage.execute other settings roller).1.map fun report => { report with secret },
        (DiceLanguage.execute other settings roller).2) := by
  simp only [DiceLanguage.execute, parsed, parsed', execute_secret command secret secret']
  cases (execute ⟨command, secret'⟩ settings roller).1 <;> rfl

/-- A mark in front of a text that is not secret makes its answers secret. The command is the same,
and so are the answers in everything else, the errors and the rollers that are left. -/
theorem parse_secret (parsed : parse text = .ok ⟨command, false⟩) {mark : String}
    (isMark : mark ∈ ["S", "s"]) :
    parse (mark ++ text) = .ok ⟨command, true⟩ ∧
      ∀ (settings : Settings) (roller : Roller σ),
        let answer := DiceLanguage.execute text settings roller
        let answerSecret := DiceLanguage.execute (mark ++ text) settings roller
        answerSecret = (answer.1.map fun report => { report with secret := true }, answer.2) ∧
          answer = (answerSecret.1.map fun report => { report with secret := false },
            answerSecret.2) := by
  have marked : parse (mark ++ text) = .ok ⟨command, true⟩ := by
    simp only [List.mem_cons, List.not_mem_nil, or_false] at isMark
    rcases isMark with rfl | rfl
    · rw [show "S" = String.singleton 'S' by decide]
      exact parse_mark parsed rfl
    · rw [show "s" = String.singleton 's' by decide]
      exact parse_mark parsed rfl
  exact ⟨marked, fun settings roller => ⟨execute_of_parse marked parsed settings roller,
    execute_of_parse parsed marked settings roller⟩⟩

theorem parse_secret_choice :
    let command : Command := .choice ⟨"ü < 1", ["S x"]⟩
    let roller : Roller Cycle := { source := { faces := [2] } }
    parse "Choice[ü < 1, S x]" = .ok ⟨command, false⟩ ∧
      parse "sChoice[ü < 1, S x]" = .ok ⟨command, true⟩ ∧
      (DiceLanguage.execute "sChoice[ü < 1, S x]" {} roller).2 =
        (DiceLanguage.execute "Choice[ü < 1, S x]" {} roller).2 := by
  intro command roller
  have parsed : parse "Choice[ü < 1, S x]" = .ok ⟨command, false⟩ :=
    ok_of_toOption (by decide +kernel)
  have isMark : "s" ∈ ["S", "s"] := by decide
  have joined : "s" ++ "Choice[ü < 1, S x]" = "sChoice[ü < 1, S x]" := by decide
  obtain ⟨marked, answers⟩ := parse_secret (σ := Cycle) parsed isMark
  rw [joined] at marked answers
  exact ⟨parsed, marked, by rw [(answers {} roller).1]⟩

end Statement

end DiceLanguage
