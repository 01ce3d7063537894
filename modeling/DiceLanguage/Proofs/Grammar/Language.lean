import DiceLanguage.Proofs.Grammar.Command
import DiceLanguage.Proofs.Grammar.Statement

namespace DiceLanguage.Grammar

def Begins (first second : Token → Prop) (tokens : List Token) : Prop :=
  ∃ head next rest, tokens = head :: next :: rest ∧ first head ∧ second next

def OpensCalculation : List Token → Prop :=
  Begins (·.kind = .letter .c) (·.kind = .leftParen)

def OpensChoice : List Token → Prop :=
  Begins (·.spells "choice" = true) (·.kind = .leftBracket)

/-- The tokens announce a calculation or a choice, behind a secret mark or in one word with it. -/
inductive Announces : List Token → Prop where
  | calculation {secret : Bool} {marks tokens : List Token} (marked : Marks secret marks)
    (opens : OpensCalculation tokens) : Announces (marks ++ tokens)
  | choice {secret : Bool} {marks tokens : List Token} (marked : Marks secret marks)
    (opens : OpensChoice tokens) : Announces (marks ++ tokens)
  | secretCalculation {tokens : List Token}
    (opens : Begins (·.spells "sc" = true) (·.kind = .leftParen) tokens) : Announces tokens
  | secretChoice {tokens : List Token}
    (opens : Begins (·.spells "schoice" = true) (·.kind = .leftBracket) tokens) : Announces tokens

/-- The tokens up to the opening parenthesis of a calculation. -/
inductive CalculationLead : Bool → List Token → Prop where
  | plain {head opening : Token} (letter : head.kind = .letter .c)
    (opens : opening.kind = .leftParen) : CalculationLead false [head, opening]
  | marked {mark head opening : Token} (secret : mark.kind = .letter .s)
    (letter : head.kind = .letter .c) (opens : opening.kind = .leftParen) :
    CalculationLead true [mark, head, opening]
  | oneWord {head opening : Token} (spelled : head.spells "sc" = true)
    (opens : opening.kind = .leftParen) : CalculationLead true [head, opening]

def BeginsCommand (before : List Token) (token : Token) : Prop :=
  before = [] ∧ token.kind ≠ .letter .s ∨ ∃ mark, before = [mark] ∧ mark.kind = .letter .s

def BeginsItem (before : List Token) : Prop :=
  ∃ mark ∈ before.getLast?, mark.kind = .leftBracket ∨ mark.kind = .comma

/-- What the tokens before the rest of a text announce about it. -/
def Prepares (before rest : List Token) : Shape → Prop
  | .calculation => ∃ secret, CalculationLead secret before
  | .choice => BeginsItem before
  | .rolls => ∀ token ∈ rest.head?, BeginsCommand before token

variable {tokens rest : List Token} {secret : Bool} {expr : Node} {result : Statement}

theorem Derives.unique {x y : Node} (left : Derives .sum tokens x) (right : Derives .sum tokens y) :
    x = y := by
  -- The parser reads the tokens as either expression, and it reads them as one.
  let context : Context := { last := ⟨.endOfText, "", "", 0, 0⟩ }
  have closed : ∀ token ∈ ([] : List Token).head?, Closes token.kind := nofun
  have cut : tokens = tokens ++ [] := (List.append_nil tokens).symm
  obtain ⟨_, read⟩ := left.sum_read context nofun closed cut
  obtain ⟨_, again⟩ := right.sum_read context nofun closed cut
  rw [read] at again
  cases again
  rfl

theorem Rolls.unique {secret secret' : Bool} {expr expr' : Node} {check check' : Option Comparison}
    (left : Rolls secret expr check tokens) (right : Rolls secret' expr' check' tokens) :
    secret = secret' ∧ expr = expr' ∧ check = check' := by
  obtain ⟨marks, used, behind, cut, marked, derives, checks⟩ := left
  obtain ⟨marks', used', behind', cut', marked', derives', checks'⟩ := right
  let context : Context := { last := ⟨.endOfText, "", "", 0, 0⟩ }
  have lead : Lead.ofTokens (marks ++ (used ++ behind)) = _ := lead_rolls marked derives
  rw [← cut, cut', lead_rolls marked' derives'] at lead
  obtain ⟨rfl, -, same⟩ := Lead.mk.inj lead
  obtain ⟨_, read⟩ := derives.sum_read context nofun checks.closed same
  obtain ⟨_, again⟩ := derives'.sum_read context nofun checks'.closed rfl
  rw [again] at read
  obtain ⟨rfl, rfl⟩ := Step.mk.inj (Except.ok.inj read)
  have compared : comparison context.last behind' = _ := comparison_read checks
  rw [comparison_read checks'] at compared
  exact ⟨rfl, rfl, (Prod.mk.inj (Except.ok.inj compared)).1.symm⟩

theorem ofCommand_of_rolls {marked : Bool} (rolls : (Lead.ofCommand marked tokens).shape = .rolls) :
    Lead.ofCommand marked tokens = ⟨marked, .rolls, tokens⟩ := by
  unfold Lead.ofCommand at rolls ⊢
  split at rolls
  · split at rolls
    · cases rolls
    split at rolls
    · cases rolls
    · rw [if_neg ‹_›, if_neg ‹_›]
  · rfl

theorem ofMarked_of_rolls (rolls : (Lead.ofMarked tokens).shape = .rolls) :
    ∃ secret marks rest, Lead.ofMarked tokens = ⟨secret, .rolls, rest⟩ ∧ tokens = marks ++ rest ∧
      Marks secret marks := by
  unfold Lead.ofMarked at rolls ⊢
  split at rolls
  · rename_i first rest
    split at rolls
    · rw [if_pos ‹_›]
      exact ⟨true, [first], rest, ofCommand_of_rolls rolls, rfl, .secret ‹_›⟩
    · rw [if_neg ‹_›]
      exact ⟨false, [], first :: rest, ofCommand_of_rolls rolls, rfl, .none⟩
  · exact ⟨false, [], [], ofCommand_of_rolls rolls, rfl, .none⟩

theorem lead_of_rolls (rolls : (Lead.ofTokens tokens).shape = .rolls) :
    ∃ secret marks rest, Lead.ofTokens tokens = ⟨secret, .rolls, rest⟩ ∧ tokens = marks ++ rest ∧
      Marks secret marks := by
  unfold Lead.ofTokens at rolls ⊢
  split at rolls
  · split at rolls
    · cases rolls
    split at rolls
    · cases rolls
    · rw [if_neg ‹_›, if_neg ‹_›]
      exact ofMarked_of_rolls rolls
  · exact ofMarked_of_rolls rolls

theorem ofCommand_unannounced (noCalculation : ¬ OpensCalculation tokens)
    (noChoice : ¬ OpensChoice tokens) (secret : Bool) :
    Lead.ofCommand secret tokens = ⟨secret, .rolls, tokens⟩ := by
  unfold Lead.ofCommand
  split
  · rename_i first second rest
    rw [if_neg fun both => noCalculation ⟨first, second, rest, rfl, both⟩,
      if_neg fun both => noChoice ⟨first, second, rest, rfl, both⟩]
  · rfl

theorem ofMarked_unannounced (free : ¬ Announces tokens) :
    ∃ secret marks behind, tokens = marks ++ behind ∧ Marks secret marks ∧
      Lead.ofMarked tokens = ⟨secret, .rolls, behind⟩ := by
  have unannounced : ∀ {secret marks behind}, Marks secret marks → tokens = marks ++ behind →
      Lead.ofCommand secret behind = ⟨secret, .rolls, behind⟩ := by
    intro secret marks behind marked same
    subst same
    exact ofCommand_unannounced (fun opens => free (.calculation marked opens))
      (fun opens => free (.choice marked opens)) secret
  cases tokens with
  | nil => exact ⟨false, [], [], rfl, .none, rfl⟩
  | cons first rest =>
    rw [Lead.ofMarked]
    split
    · rename_i letter
      exact ⟨true, [first], rest, rfl, .secret letter, unannounced (.secret letter) rfl⟩
    · exact ⟨false, [], first :: rest, rfl, .none, unannounced .none rfl⟩

theorem lead_unannounced (free : ¬ Announces tokens) :
    ∃ secret marks behind, tokens = marks ++ behind ∧ Marks secret marks ∧
      Lead.ofTokens tokens = ⟨secret, .rolls, behind⟩ := by
  unfold Lead.ofTokens
  split
  · rename_i first second rest
    rw [if_neg fun both => free (.secretChoice ⟨first, second, rest, rfl, both⟩),
      if_neg fun both => free (.secretCalculation ⟨first, second, rest, rfl, both⟩)]
    exact ofMarked_unannounced free
  · exact ofMarked_unannounced free

theorem lead_of_calculationLead {lead : List Token} (leads : CalculationLead secret lead) :
    Lead.ofTokens (lead ++ rest) = ⟨secret, .calculation, rest⟩ := by
  cases leads with
  | plain letter opens =>
    have heads : CalculationHead false _ := letter
    exact lead_calculation heads opens
  | marked secret letter opens =>
    change Lead.ofTokens (_ :: _ :: _ :: rest) = _
    rw [ofTokens_marked (by simp [secret]), Lead.ofMarked, if_pos secret, Lead.ofCommand,
      if_pos ⟨letter, opens⟩]
  | oneWord spelled opens =>
    have heads : CalculationHead true _ := spelled
    exact lead_calculation heads opens

theorem beginsItem_of_bracket {opening : Token} (before : List Token)
    (opens : opening.kind = .leftBracket) : BeginsItem (before ++ [opening]) :=
  ⟨opening, List.getLast?_concat, .inl opens⟩

theorem ofCommand_prepares {secret : Bool} {marks : List Token} (marked : Marks secret marks)
    (begins : ∀ token ∈ tokens.head?, BeginsCommand marks token) :
    ∃ before, marks ++ tokens = before ++ (Lead.ofCommand secret tokens).rest ∧
      Prepares before (Lead.ofCommand secret tokens).rest (Lead.ofCommand secret tokens).shape := by
  unfold Lead.ofCommand
  split
  · rename_i first second rest
    have split : marks ++ first :: second :: rest = marks ++ [first, second] ++ rest := by simp
    split
    · rename_i both
      refine ⟨marks ++ [first, second], split, secret, ?_⟩
      cases marked with
      | none => exact .plain both.1 both.2
      | secret letter => exact .marked letter both.1 both.2
    split
    · rename_i both
      refine ⟨marks ++ [first, second], split, ?_⟩
      rw [show marks ++ [first, second] = marks ++ [first] ++ [second] by simp]
      exact beginsItem_of_bracket _ both.2
    · exact ⟨marks, rfl, begins⟩
  · exact ⟨marks, rfl, begins⟩

theorem ofMarked_prepares (tokens : List Token) :
    ∃ before, tokens = before ++ (Lead.ofMarked tokens).rest ∧
      Prepares before (Lead.ofMarked tokens).rest (Lead.ofMarked tokens).shape := by
  unfold Lead.ofMarked
  split
  · rename_i first rest
    split
    · rename_i letter
      exact ofCommand_prepares (.secret letter) fun _ _ => .inr ⟨first, rfl, letter⟩
    · rename_i other
      refine ofCommand_prepares .none fun token same => .inl ⟨rfl, ?_⟩
      cases same
      exact other
  · exact ofCommand_prepares .none nofun

theorem lead_prepares (tokens : List Token) :
    ∃ before, tokens = before ++ (Lead.ofTokens tokens).rest ∧
      Prepares before (Lead.ofTokens tokens).rest (Lead.ofTokens tokens).shape := by
  unfold Lead.ofTokens
  split
  · rename_i first second rest
    split
    · rename_i both
      exact ⟨[first, second], rfl, beginsItem_of_bracket [first] both.2⟩
    split
    · rename_i both
      exact ⟨[first, second], rfl, true, .oneWord both.1 both.2⟩
    · exact ofMarked_prepares _
  · exact ofMarked_prepares _

def Shape.of : Command → Shape
  | .calculation _ => .calculation
  | .choice _ => .choice
  | .sum _ | .sumCheck _ | .scatter .. | .reroll .. | .compound .. => .rolls

theorem shape_of_made {check : Option Comparison} {made : Command}
    (origin : Command.Made expr check made) : Shape.of made = .rolls := by
  cases origin <;> rfl

theorem shape_of_command {last : Token} {shape : Shape} {made : Command}
    (read : command last shape tokens = .ok (made, rest)) : Shape.of made = shape := by
  cases shape with
  | calculation =>
    obtain ⟨_, _, _, -, -, -, -, rfl⟩ := calculation_sound read
    rfl
  | choice =>
    change choice last tokens = _ at read
    obtain ⟨_, -, same⟩ := bind_ok read
    cases same
    rfl
  | rolls =>
    obtain ⟨_, _, _, _, -, -, -, accepted⟩ := rollCommand_sound read
    exact shape_of_made (Command.ofExpression_made accepted).2

theorem rolls_of_parse {text : String} (parsed : Statement.parse text = .ok result)
    (rolled : (Lead.ofTokens (Tokens.ofText text).body).shape = .rolls) :
    ∃ expr check, Rolls result.secret expr check (Tokens.ofText text).body ∧
      Command.ofExpression expr check = .ok result.command := by
  obtain ⟨read, marked⟩ := statement_ok.mp parsed
  obtain ⟨secret, marks, rest, lead, cut, isMark⟩ := lead_of_rolls rolled
  rw [lead] at read marked
  obtain ⟨used, compared, expr, check, whole, derives, checks, accepted⟩ := rollCommand_sound read
  have rest_eq : rest = used ++ compared := by rw [← List.append_nil compared]; exact whole
  rw [marked]
  rw [rest_eq] at cut
  exact ⟨expr, check, ⟨marks, used, compared, cut, isMark, derives, checks⟩, accepted⟩

theorem parse_rolls_iff {text : String} (free : ¬ Announces (Tokens.ofText text).body) :
    Statement.parse text = .ok result ↔
      ∃ expr check, Rolls result.secret expr check (Tokens.ofText text).body ∧
        Command.ofExpression expr check = .ok result.command := by
  constructor
  · intro parsed
    obtain ⟨secret, marks, behind, -, -, lead⟩ := lead_unannounced free
    exact rolls_of_parse parsed (by rw [lead])
  · intro derived
    obtain ⟨expr, check, rolls, accepted⟩ := derived
    exact statement_rolls rolls accepted

theorem parse_calculation_iff {text : String} {lead : List Token}
    (leads : CalculationLead secret lead) (begins : (Tokens.ofText text).body = lead ++ rest) :
    Statement.parse text = .ok result ↔
      ∃ inner closing expr, rest = inner ++ [closing] ∧ Derives .sum inner expr ∧
        closing.kind = .rightParen ∧ expr.IsDiceFree ∧ result = ⟨.calculation expr, secret⟩ := by
  have announced : Lead.ofTokens (Tokens.ofText text).body = ⟨secret, .calculation, rest⟩ := by
    rw [begins, lead_of_calculationLead leads]
  rw [Statement.parse, statement_ok, announced]
  obtain ⟨made, marked⟩ := result
  constructor
  · intro reads
    obtain ⟨read, same⟩ := reads
    obtain ⟨inner, closing, expr, cut, derives, constant, closes, rfl⟩ := calculation_sound read
    simp only at same
    subst same
    exact ⟨inner, closing, expr, cut, derives, closes, Node.isDiceFree_iff.mpr constant, rfl⟩
  · intro derived
    obtain ⟨inner, closing, expr, cut, derives, closes, free, same⟩ := derived
    cases same
    subst cut
    exact ⟨calculation_read derives (Node.isDiceFree_iff.mp free) closes, rfl⟩

/-- The texts that are read, apart from choices. A text that announces neither a calculation nor a
choice is read when its tokens are derived as an expression, or as two with a relation between them,
that make a command. Behind the beginning of a calculation an expression without dice and a closing
parenthesis are read, and nothing else. -/
theorem parse_iff_derives (text : String) (result : Statement) :
    (¬ Announces (Tokens.ofText text).body →
      (Statement.parse text = .ok result ↔
        ∃ expr check, Rolls result.secret expr check (Tokens.ofText text).body ∧
          Command.ofExpression expr check = .ok result.command)) ∧
    (∀ secret lead rest, CalculationLead secret lead → (Tokens.ofText text).body = lead ++ rest →
      (Statement.parse text = .ok result ↔
        ∃ inner closing expr, rest = inner ++ [closing] ∧ Derives .sum inner expr ∧
          closing.kind = .rightParen ∧ expr.IsDiceFree ∧
            result = ⟨.calculation expr, secret⟩)) ∧
    ∀ tokens x y, Derives .sum tokens x → Derives .sum tokens y → x = y :=
  ⟨parse_rolls_iff, fun _ _ _ => parse_calculation_iff, fun _ _ _ => Derives.unique⟩

theorem parse_iff_derives_secret :
    ¬ Announces (Tokens.ofText "S2D6").body ∧
      Statement.parse "S2D6" = .ok ⟨.sum (.roll .sum (.int 2) (.int 6)), true⟩ ∧
      (∃ lead rest, CalculationLead true lead ∧ (Tokens.ofText "SC(4)").body = lead ++ rest) ∧
      Statement.parse "SC(4)" = .ok ⟨.calculation (.int 4), true⟩ := by
  have rollBody : (Tokens.ofText "S2D6").body = [⟨.letter .s, "S", "", 1, 0⟩] ++
      (([⟨.integer, "2", "", 2, 1⟩] ++ ⟨.letter .d, "D", "", 3, 2⟩ :: [⟨.integer, "6", "", 4, 3⟩]) ++
        []) := by decide +kernel
  have calculationBody : (Tokens.ofText "SC(4)").body =
      [⟨.word, "SC", "", 1, 0⟩, ⟨.leftParen, "(", "", 3, 2⟩] ++
        ([⟨.integer, "4", "", 4, 3⟩] ++ [⟨.rightParen, ")", "", 5, 4⟩]) := by decide +kernel
  have two : Derives .rolls [⟨.integer, "2", "", 2, 1⟩] (.int 2) := .operand (.integer rfl (by decide))
  have six : Derives .operand [⟨.integer, "6", "", 4, 3⟩] (.int 6) := .integer rfl (by decide)
  have four : Derives .operand [⟨.integer, "4", "", 4, 3⟩] (.int 4) := .integer rfl (by decide)
  have letter : (⟨.letter .d, "D", "", 3, 2⟩ : Token).kind = .letter RollKind.sum.letter := rfl
  have dice : Derives .sum _ _ := .product (.signed (.rolls (.roll two letter six)))
  have number : Derives .sum _ _ := .product (.signed (.rolls (.operand four)))
  have lead : CalculationLead true [⟨.word, "SC", "", 1, 0⟩, ⟨.leftParen, "(", "", 3, 2⟩] :=
    .oneWord (by decide) rfl
  have free : ¬ Announces (Tokens.ofText "S2D6").body := by
    rw [rollBody]
    intro announces
    generalize same : (_ ++ _ : List Token) = tokens at announces
    cases announces with
    | calculation marked opens | choice marked opens =>
      obtain ⟨_, _, _, rfl, -, second⟩ := opens
      cases marked <;> cases same <;> cases second
    | secretCalculation opens | secretChoice opens =>
      obtain ⟨_, _, _, rfl, -, second⟩ := opens
      cases same
      cases second
  refine ⟨free, ((parse_iff_derives _ _).1 free).mpr ?_, ⟨_, _, lead, calculationBody⟩,
    ((parse_iff_derives _ _).2.1 true _ _ lead calculationBody).mpr ?_⟩
  · exact ⟨_, none, ⟨_, _, _, rollBody, .secret rfl, dice, .none⟩, rfl⟩
  · exact ⟨_, _, _, rfl, number, rfl, trivial, rfl⟩

end DiceLanguage.Grammar
