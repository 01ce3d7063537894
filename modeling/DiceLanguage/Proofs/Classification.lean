import DiceLanguage.Proofs.Calculation
import DiceLanguage.Proofs.Evaluation.Stages
import DiceLanguage.Proofs.Grammar.Language
import DiceLanguage.Proofs.Print.Compound

namespace DiceLanguage

open Grammar (Rolls rolls_of_parse shape_of_command statement_ok ok_of_toOption)

namespace Node

/-- The operand that a chain of operators begins with, and those behind the operators. -/
def spine : Node → List Node
  | binary _ x y => x.spine ++ [y]
  | x => [x]

def withoutRolls (kind : RollKind) : Node → Node
  | int x => int x
  | rolled dice => rolled dice
  | neg x => neg (x.withoutRolls kind)
  | binary op x y => binary op (x.withoutRolls kind) (y.withoutRolls kind)
  | random x y => random (x.withoutRolls kind) (y.withoutRolls kind)
  | roll other x y =>
    if other = kind then int 0 else roll other (x.withoutRolls kind) (y.withoutRolls kind)
  | thresholdRoll other x y z =>
    if other = kind then int 0
    else thresholdRoll other (x.withoutRolls kind) (y.withoutRolls kind) (z.withoutRolls kind)

variable {node rest : Node} {kind : RollKind} {init : List Roll} {last : Roll}

theorem withoutRolls_constant (constant : node.isVariable = false) :
    node.withoutRolls kind = node := by
  induction node with
  | int | rolled => rfl
  | neg x ih => rw [withoutRolls, ih constant]
  | binary op x y ihx ihy =>
    obtain ⟨left, right⟩ := Bool.or_eq_false_iff.mp constant
    rw [withoutRolls, ihx left, ihy right]
  | random | roll | thresholdRoll => cases constant

theorem withoutRolls_rollOf? {roll : Roll} (single : node.rollOf? kind = some roll) :
    node.withoutRolls kind = int 0 := by
  obtain ⟨rfl, rfl⟩ := eq_of_rollOf? single
  obtain ⟨kind, count, sides, _ | limit⟩ := roll <;> simp [Roll.toNode, withoutRolls]

theorem toNode_concat (init : List Roll) (before last : Roll) :
    (NonEmptyList.ofInitLast (init ++ [before]) last).toNode =
      binary .add (NonEmptyList.ofInitLast init before).toNode last.toNode := by
  cases init <;> simp [NonEmptyList.ofInitLast, NonEmptyList.toNode]

theorem spine_rollOf? {roll : Roll} (single : node.rollOf? kind = some roll) :
    node.spine = [node] := by
  obtain ⟨rfl, -⟩ := eq_of_rollOf? single
  obtain ⟨kind, count, sides, _ | limit⟩ := roll <;> rfl

theorem rollTerms?_ok (terms : node.rollTerms? kind = some (init, last)) :
    node.spine.filterMap (rollOf? kind) = init ++ [last] ∧
      node = (NonEmptyList.ofInitLast init last).toNode ∧
      (node.withoutRolls kind).exact = some 0 := by
  fun_induction rollTerms? generalizing init last with
  | case1 left right ih =>
    obtain ⟨roll, single, more⟩ := Option.bind_eq_some_iff.mp terms
    obtain ⟨⟨init', before⟩, earlier, whole⟩ := Option.bind_eq_some_iff.mp more
    cases whole
    obtain ⟨along, sum, zero⟩ := ih earlier
    refine ⟨?_, ?_, ?_⟩
    · simp [spine, along, single]
    · rw [toNode_concat, ← sum, ← (eq_of_rollOf? single).1]
    · rw [withoutRolls, exact, zero, withoutRolls_rollOf? single]
      rfl
  | case2 node noSum =>
    obtain ⟨roll, single, whole⟩ := Option.bind_eq_some_iff.mp terms
    cases whole
    refine ⟨?_, (eq_of_rollOf? single).1, ?_⟩
    · simp [spine_rollOf? single, single]
    · rw [withoutRolls_rollOf? single]
      rfl

theorem detachModifier_spine (node : Node) :
    node.detachModifier.1.spine.filterMap (rollOf? .compound) =
      node.spine.filterMap (rollOf? .compound) := by
  fun_induction detachModifier with
  | case1 | case4 | case7 => rfl
  | case2 left right other rolls cut ih | case5 left right other rolls cut ih
  | case3 left right other rolls modifier cut ih | case6 left right other rolls modifier cut ih =>
    rw [cut] at ih
    simp [spine, ih, Option.not_isSome_iff_eq_none.mp other]

theorem detachModifier_exact (node : Node)
    (zero : (node.detachModifier.1.withoutRolls .compound).exact = some 0) :
    (node.withoutRolls .compound).exact =
      node.detachModifier.2.elim (some 0) fun modifier => (modifier.withoutRolls .compound).exact := by
  fun_induction detachModifier with
  | case1 | case4 | case7 => exact zero
  | case2 left right other rolls cut ih | case5 left right other rolls cut ih =>
    rw [cut] at ih
    have front : (left.withoutRolls .compound).exact = some 0 := ih zero
    simp [withoutRolls, exact, front, BinaryOp.ideal]
  | case3 left right other rolls modifier cut ih | case6 left right other rolls modifier cut ih =>
    rw [cut] at ih
    have front : (left.withoutRolls .compound).exact = (modifier.withoutRolls .compound).exact :=
      ih zero
    simp [withoutRolls, exact, front]

/-- How the parts of a list have come out of an expression with these rolls along its spine. Of
these only the last may have a threshold, which is that of the list. -/
structure Lists (kind : RollKind) (parts : ListParts) (init : List Roll) (last : Roll)
    (expr : Node) : Prop where
  along : expr.spine.filterMap (rollOf? kind) = init ++ [last]
  rolls : parts.rolls = init ++ [last.bare]
  threshold : parts.threshold = last.threshold
  unlimited : ∀ roll ∈ init, roll.threshold = none
  whole : kind ≠ .compound → expr = (NonEmptyList.ofInitLast init last).toNode
  modifier : kind = .compound →
    (expr.withoutRolls kind).exact = parts.modifier.elim (some 0) exact

end Node

def Command.listParts? : Command → Option (RollKind × ListParts)
  | scatter rolls check => some (.scatter, ⟨rolls.toList, none, none, check⟩)
  | reroll rolls threshold check => some (.reroll, ⟨rolls.toList, none, threshold, check⟩)
  | compound rolls threshold modifier check =>
    some (.compound, ⟨rolls.toList, modifier, threshold, check⟩)
  | calculation _ | sum _ | sumCheck _ | choice _ => none

variable {expr : Node} {check : Option Comparison} {command : Command} {kind : RollKind}
  {parts : ListParts} {rolls : NonEmptyList Roll} {threshold modifier : Option Node}

theorem Node.lists_of_rollList (unmodified : kind ≠ .compound)
    (list : Command.rollList kind expr = .ok (rolls, threshold)) :
    ∃ init last, expr.Lists kind ⟨rolls.toList, none, threshold, check⟩ init last := by
  obtain ⟨init, last, terms, rfl, rfl, unlimited, -⟩ := Command.rollList_ok list
  obtain ⟨along, sum, -⟩ := Node.rollTerms?_ok terms
  exact ⟨init, last, along, NonEmptyList.toList_ofInitLast .., rfl, unlimited, fun _ => sum,
    fun same => absurd same unmodified⟩

theorem Node.lists_of_detached {rest : Node} (detached : expr.detachModifier = (rest, modifier))
    (constant : modifier.any Node.isVariable = false)
    (list : Command.rollList .compound rest = .ok (rolls, threshold)) :
    ∃ init last, expr.Lists .compound ⟨rolls.toList, modifier, threshold, check⟩ init last := by
  obtain ⟨init, last, terms, rfl, rfl, unlimited, -⟩ := Command.rollList_ok list
  obtain ⟨along, -, zero⟩ := Node.rollTerms?_ok terms
  have same := expr.detachModifier_spine
  have value := expr.detachModifier_exact
  rw [detached] at same value
  refine ⟨init, last, same.symm.trans along, NonEmptyList.toList_ofInitLast .., rfl, unlimited,
    fun other => absurd rfl other, fun _ => (value zero).trans ?_⟩
  cases modifier with
  | none => rfl
  | some m => exact congrArg Node.exact (Node.withoutRolls_constant constant)

theorem Command.Made.lists (made : command.Made expr check)
    (listed : command.listParts? = some (kind, parts)) :
    parts.check = check ∧ ∃ init last, expr.Lists kind parts init last := by
  cases made with
  | scatter list =>
    cases listed
    exact ⟨rfl, Node.lists_of_rollList (by decide) list⟩
  | reroll list =>
    cases listed
    exact ⟨rfl, Node.lists_of_rollList (by decide) list⟩
  | compound detached constant list =>
    cases listed
    exact ⟨rfl, Node.lists_of_detached detached constant list⟩
  | sum | sumCheck => cases listed

namespace Statement

/-- A list that was read was made from the one expression that its text spells before the
comparison. No roll along the spine of that expression is lost, and neither is anything else. -/
theorem lists_of_parse {text : String} {statement : Statement} (parsed : parse text = .ok statement)
    (listed : statement.command.listParts? = some (kind, parts)) :
    ∃ expr, Rolls statement.secret expr parts.check (Tokens.ofText text).body ∧
      (∀ secret other check, Rolls secret other check (Tokens.ofText text).body →
        secret = statement.secret ∧ other = expr ∧ check = parts.check) ∧
      ∃ init last, expr.Lists kind parts init last := by
  obtain ⟨read, -⟩ := statement_ok.mp parsed
  have rolled : Grammar.Shape.of statement.command = .rolls := by
    cases same : statement.command with
    | calculation | choice | sum | sumCheck => rw [same] at listed; cases listed
    | scatter | reroll | compound => rfl
  obtain ⟨expr, check, rolls, accepted⟩ :=
    rolls_of_parse parsed ((shape_of_command read).symm.trans rolled)
  obtain ⟨rfl, lists⟩ := (Command.ofExpression_made accepted).2.lists listed
  exact ⟨expr, rolls, fun _ _ _ others => others.unique rolls, lists⟩

theorem lists_of_parse_modifier :
    let text := "s 2U6+(1+2)U8[5]-(1+2)*3+7/2u-1>=10"
    let rolls : NonEmptyList Roll := ⟨⟨.compound, .int 2, .int 6, none⟩,
      [⟨.compound, .binary .add (.int 1) (.int 2), .int 8, none⟩]⟩
    let modifier : Node := .binary .subtract (.binary .add
      (.neg (.binary .multiply (.binary .add (.int 1) (.int 2)) (.int 3)))
      (.binary (.divide .up) (.int 7) (.int 2))) (.int 1)
    let check : Option Comparison := some ⟨.atLeast, .int 10⟩
    parse text = .ok ⟨.compound rolls (some (.int 5)) (some modifier) check, true⟩ ∧
      ∃ expr, Rolls true expr check (Tokens.ofText text).body ∧
        (expr.withoutRolls .compound).exact = some (-6) := by
  intro text rolls modifier check
  have parsed : parse text = .ok ⟨.compound rolls (some (.int 5)) (some modifier) check, true⟩ :=
    ok_of_toOption (by decide +kernel)
  obtain ⟨expr, spelled, -, init, last, lists⟩ := lists_of_parse parsed rfl
  exact ⟨parsed, expr, spelled, (lists.modifier rfl).trans (by decide +kernel)⟩

end Statement

end DiceLanguage
