import DiceLanguage.Command.Print
import DiceLanguage.Proofs.Grammar.Command
import DiceLanguage.Proofs.Grammar.Statement
import DiceLanguage.Proofs.Node.Written

namespace DiceLanguage

open Grammar

def Comparison.normal (comparison : Comparison) : Comparison :=
  ⟨comparison.relation, comparison.target.normal⟩

def secretText (secret : Bool) : String := if secret then "S" else ""

theorem secretText_false (text : String) : secretText false ++ text = text := by
  simp [secretText]

theorem Statement.print_eq (statement : Statement) :
    statement.print = secretText statement.secret ++ statement.command.print := rfl

def Command.IsExpression : Command → Prop
  | calculation _ | sum _ | sumCheck _ => True
  | scatter .. | reroll .. | compound .. | choice _ => False

theorem Comparison.spells_print (comparison : Comparison)
    (arithmetic : comparison.target.IsArithmetic (-maxInt)) :
    Spells comparison.print.toList (Checks (some comparison.normal)) := by
  obtain ⟨relation, target⟩ := comparison
  let wrap := (BinaryOp.compare relation).encloses .right false target
  have written : Writes .sum _ _ :=
    Node.writes_enclosed wrap (Node.writes_printAt arithmetic wrap) fun _ => Nat.zero_le _
  have apart : Apart relation.symbol.toList (enclosed wrap (target.printAt wrap)).toList :=
    written.apart_before (by cases relation <;> decide)
  have whole := (Spells.relation relation).append written.spells apart written.nonempty
  rw [Comparison.print, String.toList_append]
  apply whole.weaken
  intro tokens formed
  obtain ⟨_, behind, rfl, ⟨sign, rfl, compares, -⟩, derives⟩ := formed
  exact .some compares derives

theorem apart_relation {rule : Rule} {text : List Char} {x : Node} (written : Writes rule text x)
    (relation : Relation) : Apart text relation.symbol.toList := by
  cases relation <;> exact written.apart_behind _ rfl (.inl rfl)

variable {text : String} {expr : Node} {secret : Bool}

theorem spells_checked (written : Writes .sum text.toList expr) (check : Option Comparison)
    (arithmetic : ∀ c ∈ check, c.target.IsArithmetic (-maxInt)) :
    Spells (text ++ Command.checkText check).toList
      (Rolls false expr (check.map Comparison.normal)) := by
  cases check with
  | none =>
    simp only [Command.checkText, String.append_empty]
    exact written.spells.weaken fun tokens derives =>
      ⟨[], tokens, [], by simp, .none, derives, .none⟩
  | some comparison =>
    have behind := comparison.spells_print (arithmetic comparison rfl)
    have apart : Apart text.toList (comparison.print).toList := by
      rw [Comparison.print, String.toList_append,
        apart_append_right (by cases comparison.relation <;> decide)]
      exact apart_relation written comparison.relation
    have nonempty : comparison.print.toList ≠ [] := by
      rw [Comparison.print, String.toList_append]
      cases comparison.relation <;> exact List.cons_ne_nil _ _
    have whole := written.spells.append behind apart nonempty
    rw [Command.checkText, String.toList_append]
    apply whole.weaken
    intro tokens formed
    obtain ⟨used, behind, rfl, derives, checks⟩ := formed
    exact ⟨[], used, behind, rfl, .none, derives, checks⟩

theorem spells_statement (written : Writes .sum text.toList expr) (secret : Bool)
    (check : Option Comparison) (arithmetic : ∀ c ∈ check, c.target.IsArithmetic (-maxInt)) :
    Spells (secretText secret ++ (text ++ Command.checkText check)).toList
      (Rolls secret expr (check.map Comparison.normal)) := by
  have behind := spells_checked written check arithmetic
  cases secret with
  | false =>
    rw [secretText_false]
    exact behind
  | true =>
    rw [secretText, if_pos rfl, String.toList_append]
    have nonempty : (text ++ Command.checkText check).toList ≠ [] := by
      rw [String.toList_append]
      exact List.append_ne_nil_of_left_ne_nil written.nonempty _
    have apart : Apart "S".toList (text ++ Command.checkText check).toList := by
      rw [String.toList_append]
      exact (apart_append_right written.nonempty).mpr (written.apart_before rfl)
    apply ((Spells.letter .s).append behind apart nonempty).weaken
    intro tokens formed
    obtain ⟨_, _, rfl, ⟨mark, rfl, letter, -⟩, _, used, behind, rfl, ⟨⟩, derives, checks⟩ := formed
    exact ⟨[mark], used, behind, rfl, .secret letter, derives, checks⟩

theorem spells_calculationHead (secret : Bool) :
    Spells (secretText secret ++ "C").toList
      (fun tokens => ∃ head, tokens = [head] ∧ CalculationHead secret head) := by
  cases secret with
  | false =>
    have same : (secretText false ++ "C").toList = Letter.c.symbol.toList := by
      simp [secretText, Letter.symbol]
    rw [same]
    apply (Spells.letter .c).weaken
    intro tokens single
    obtain ⟨head, same, letter, -⟩ := single
    exact ⟨head, same, letter⟩
  | true =>
    have word : Spells ['S', 'C'] (Single .word ['S', 'C']) := .letters rfl
    have same : (secretText true ++ "C").toList = ['S', 'C'] := by simp [secretText]
    rw [same]
    apply word.weaken
    intro tokens single
    obtain ⟨head, same, isWord, literal, -⟩ := single
    have spelled : head.spells "sc" = true := by simp [Token.spells, isWord, literal]
    exact ⟨head, same, spelled⟩

theorem spells_calculation (written : Writes .sum text.toList expr) (secret : Bool) :
    Spells (secretText secret ++ ("C(" ++ text ++ ")")).toList (Calculates secret expr) := by
  have inside : Spells ('(' :: (text.toList ++ [')'])) _ :=
    written.spells_between (.symbol rfl rfl rfl) (.symbol rfl rfl rfl) rfl rfl rfl
  have apart : Apart (secretText secret ++ "C").toList ('(' :: (text.toList ++ [')'])) := by
    rw [String.toList_append, apart_append_left (by decide)]
    intro last isLast first isFirst
    cases isLast
    cases isFirst
    rfl
  have whole := (spells_calculationHead secret).append inside apart (List.cons_ne_nil _ _)
  have same : (secretText secret ++ ("C(" ++ text ++ ")")).toList =
      (secretText secret ++ "C").toList ++ '(' :: (text.toList ++ [')']) := by
    simp
  rw [same]
  apply whole.weaken
  intro tokens formed
  obtain ⟨_, _, rfl, ⟨head, rfl, heads⟩, opening, inner, closing, rfl, opens, derives, closes⟩ :=
    formed
  exact ⟨head, opening, inner, closing, rfl, heads, opens, derives, closes⟩

namespace Statement

variable {node left right : Node}

theorem parse_print_calculation (arithmetic : node.IsArithmetic (-maxInt))
    (constant : node.isVariable = false) (secret : Bool) :
    parse (secretText secret ++ (Command.calculation node).print) =
      .ok ⟨.calculation node.normal, secret⟩ := by
  have written : Writes .sum node.print.toList node.normal :=
    (Node.writes_printAt arithmetic true).widen (Nat.zero_le _)
  exact parse_calculation (spells_calculation written secret) (by simpa using constant)

theorem ofExpression_arithmetic (arithmetic : node.IsArithmetic (-maxInt))
    (check : Option Comparison) (target : ∀ c ∈ check, c.target.IsArithmetic (-maxInt)) :
    Command.ofExpression node.normal (check.map Comparison.normal) =
      Command.ofSum node.normal (check.map Comparison.normal) := by
  apply Command.ofExpression_unlisted
  · rw [Node.contains_normal]
    exact Node.contains_of_arithmetic arithmetic rfl
  · cases check with
    | none => rfl
    | some comparison =>
      change comparison.target.normal.contains RollKind.listed = false
      rw [Node.contains_normal]
      exact Node.contains_of_arithmetic (target comparison rfl) rfl

theorem parse_print_sum (arithmetic : node.IsArithmetic (-maxInt)) (dice : node.isVariable = true)
    (secret : Bool) :
    parse (secretText secret ++ (Command.sum node).print) = .ok ⟨.sum node.normal, secret⟩ := by
  have written : Writes .sum node.print.toList node.normal :=
    (Node.writes_printAt arithmetic true).widen (Nat.zero_le _)
  have spells := spells_statement written secret none nofun
  have accepted : Command.ofExpression node.normal none = .ok (.sum node.normal) := by
    have made := ofExpression_arithmetic arithmetic none nofun
    simpa [Command.ofSum, dice] using made
  rw [Command.checkText, String.append_empty] at spells
  exact parse_rolls spells accepted

theorem parse_print_sumCheck (arithmetic : left.IsArithmetic (-maxInt))
    (arithmetic' : right.IsArithmetic (-maxInt)) (relation : Relation)
    (dice : (left.isVariable || right.isVariable) = true) (secret : Bool) :
    parse (secretText secret ++
        (Command.sumCheck (.binary (.compare relation) left right)).print) =
      .ok ⟨.sumCheck (.binary (.compare relation) left.normal right.normal), secret⟩ := by
  let wrap := (BinaryOp.compare relation).encloses .left true left
  have written : Writes .sum (enclosed wrap (left.printAt (wrap || true))).toList left.normal :=
    Node.writes_enclosed wrap (Node.writes_printAt arithmetic _) fun _ => Nat.zero_le _
  have targets : ∀ c ∈ some (Comparison.mk relation right), c.target.IsArithmetic (-maxInt) := by
    intro comparison same
    cases same
    exact arithmetic'
  have spells := spells_statement written secret (some ⟨relation, right⟩) targets
  have accepted := ofExpression_arithmetic arithmetic (some ⟨relation, right⟩) targets
  have same : (Command.sumCheck (.binary (.compare relation) left right)).print =
      enclosed wrap (left.printAt (wrap || true)) ++ Command.checkText (some ⟨relation, right⟩) := by
    simp [Command.print, Node.print, Node.printAt, Command.checkText, Comparison.print,
      BinaryOp.symbol, BinaryOp.suffix, String.append_assoc, wrap]
  rw [same]
  apply parse_rolls spells
  simpa [Comparison.normal, Command.ofSum, dice] using accepted

theorem reparse_calculation (secret : Bool) {tokens : List Token}
    (derives : Derives .sum tokens node) (constant : node.isVariable = false) :
    parse (Statement.mk (.calculation node) secret).print = .ok ⟨.calculation node, secret⟩ := by
  have plain : node.IsPlain :=
    derives.readable.plain (Node.contains_of_constant constant RollKind.listed)
  have same := parse_print_calculation (Node.isArithmetic_of_plain plain) constant secret
  rwa [Node.normal_of_plain plain] at same

theorem reparse_expression {statement : Statement} (parsed : parse text = .ok statement)
    (single : statement.command.IsExpression) : parse statement.print = .ok statement := by
  obtain ⟨command, secret⟩ := statement
  have origin : Origin command := parse_origin parsed
  cases origin with
  | calculation derives constant => exact reparse_calculation secret derives constant
  | choice => exact single.elim
  | @rolls tokens behind expr check command derives checks accepted =>
    obtain ⟨free, made⟩ := Command.ofExpression_made accepted
    cases made with
    | scatter | reroll | compound => exact single.elim
    | sum unlisted absent dice =>
      have plain := derives.readable.plain unlisted
      have same := parse_print_sum (Node.isArithmetic_of_plain plain) dice secret
      rwa [Node.normal_of_plain plain] at same
    | @sumCheck relation target unlisted present dice =>
      subst present
      cases checks with
      | some compares derives' =>
        have plain := derives.readable.plain unlisted
        have plain' := derives'.readable.plain free
        have same := parse_print_sumCheck (Node.isArithmetic_of_plain plain)
          (Node.isArithmetic_of_plain plain') relation dice secret
        rwa [Node.normal_of_plain plain, Node.normal_of_plain plain'] at same

/-- Printing and reading again changes arithmetic only in the signs of its integers, and nothing
in what has been read before. -/
theorem parse_print_expression :
    (∀ node : Node, node.IsArithmetic (-maxInt) → node.isVariable = false →
      parse ("C(" ++ node.print ++ ")") = .ok ⟨.calculation node.normal, false⟩) ∧
    (∀ node : Node, node.IsArithmetic (-maxInt) → node.isVariable = true →
      parse node.print = .ok ⟨.sum node.normal, false⟩) ∧
    (∀ (left right : Node) (relation : Relation), left.IsArithmetic (-maxInt) →
      right.IsArithmetic (-maxInt) → (left.isVariable || right.isVariable) = true →
      parse (Node.binary (.compare relation) left right).print =
        .ok ⟨.sumCheck (.binary (.compare relation) left.normal right.normal), false⟩) ∧
    ∀ (text : String) (statement : Statement), parse text = .ok statement →
      statement.command.IsExpression → parse statement.print = .ok statement := by
  refine ⟨?_, ?_, ?_, fun text statement parsed single => reparse_expression parsed single⟩
  · intro node arithmetic constant
    have read := parse_print_calculation arithmetic constant false
    rwa [secretText_false] at read
  · intro node arithmetic dice
    have read := parse_print_sum arithmetic dice false
    rwa [secretText_false] at read
  · intro left right relation arithmetic arithmetic' dice
    have read := parse_print_sumCheck arithmetic arithmetic' relation dice false
    rwa [secretText_false] at read

theorem parse_print_expression_signed :
    parse ("C(" ++ (Node.binary .multiply (.int (-2)) (.neg (.int 3))).print ++ ")") =
      .ok ⟨.calculation (.binary .multiply (.neg (.int 2)) (.neg (.int 3))), false⟩ ∧
    parse (Node.neg (.roll .sum (.int 2) (.int (-6)))).print =
      .ok ⟨.sum (.neg (.roll .sum (.int 2) (.neg (.int 6)))), false⟩ ∧
    parse (Node.binary (.compare .atLeast) (.roll .sum (.int 2) (.int 6)) (.int (-7))).print =
      .ok ⟨.sumCheck (.binary (.compare .atLeast) (.roll .sum (.int 2) (.int 6)) (.neg (.int 7))),
        false⟩ ∧
    parse (Statement.mk (.sum (.random (.int 1) (.int 6))) false).print =
      .ok ⟨.sum (.random (.int 1) (.int 6)), false⟩ := by
  obtain ⟨calculation, sum, sumCheck, again⟩ := parse_print_expression
  refine ⟨calculation _ (by decide) rfl, sum _ (by decide) rfl,
    sumCheck _ _ .atLeast (by decide) (by decide) rfl, ?_⟩
  exact again _ _ (sum (.random (.int 1) (.int 6)) (by decide) rfl) trivial

end Statement

end DiceLanguage
