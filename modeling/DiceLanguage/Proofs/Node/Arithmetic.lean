import DiceLanguage.Proofs.Grammar.Derivation

namespace DiceLanguage

namespace Node

/-- Integers, none of them below `least`, minus signs, arithmetic, random numbers and `D` rolls. -/
def IsArithmetic (least : Int) : Node → Prop
  | int x => least ≤ x ∧ x ≤ maxInt
  | neg x => x.IsArithmetic least
  | binary op x y => op.precedence ≠ .compare ∧ x.IsArithmetic least ∧ y.IsArithmetic least
  | random x y => x.IsArithmetic least ∧ y.IsArithmetic least
  | roll kind x y => kind = .sum ∧ x.IsArithmetic least ∧ y.IsArithmetic least
  | thresholdRoll .. | rolled _ => False

instance decidableIsArithmetic (least : Int) : (node : Node) → Decidable (node.IsArithmetic least)
  | int _ => inferInstanceAs (Decidable (_ ∧ _))
  | neg x => decidableIsArithmetic least x
  | binary _ x y =>
    have := decidableIsArithmetic least x
    have := decidableIsArithmetic least y
    inferInstanceAs (Decidable (_ ∧ _ ∧ _))
  | random x y =>
    have := decidableIsArithmetic least x
    have := decidableIsArithmetic least y
    inferInstanceAs (Decidable (_ ∧ _))
  | roll _ x y =>
    have := decidableIsArithmetic least x
    have := decidableIsArithmetic least y
    inferInstanceAs (Decidable (_ ∧ _ ∧ _))
  | thresholdRoll .. | rolled _ => inferInstanceAs (Decidable False)

def IsPlain (node : Node) : Prop := node.IsArithmetic 0

instance (node : Node) : Decidable node.IsPlain := decidableIsArithmetic 0 node

/-- The trees that a text can stand for: dice have not fallen, comparisons stand in no expression,
and only rolls that take a threshold have one. -/
def IsReadable : Node → Prop
  | int x => 0 ≤ x ∧ x ≤ maxInt
  | neg x => x.IsReadable
  | binary op x y => op.precedence ≠ .compare ∧ x.IsReadable ∧ y.IsReadable
  | random x y | roll _ x y => x.IsReadable ∧ y.IsReadable
  | thresholdRoll kind x y z =>
    kind.takesThreshold = true ∧ x.IsReadable ∧ y.IsReadable ∧ z.IsReadable
  | rolled _ => False

def IsDiceFree : Node → Prop
  | int _ | rolled _ => True
  | neg x => x.IsDiceFree
  | binary _ x y => x.IsDiceFree ∧ y.IsDiceFree
  | random .. | roll .. | thresholdRoll .. => False

theorem isDiceFree_iff {node : Node} : node.IsDiceFree ↔ node.isVariable = false := by
  induction node with
  | int | rolled => simp [IsDiceFree, isVariable]
  | neg x ih => exact ih
  | binary op x y ihx ihy => rw [IsDiceFree, isVariable, Bool.or_eq_false_iff, ihx, ihy]
  | random | roll | thresholdRoll => simp [IsDiceFree, isVariable]

/-- The tree with a minus sign of its own before what was a negative integer. -/
def normal : Node → Node
  | int x => if x < 0 then neg (int (-x)) else int x
  | neg x => neg x.normal
  | binary op x y => binary op x.normal y.normal
  | random x y => random x.normal y.normal
  | roll kind x y => roll kind x.normal y.normal
  | thresholdRoll kind x y z => thresholdRoll kind x.normal y.normal z.normal
  | rolled dice => rolled dice

theorem normal_of_plain {node : Node} (plain : node.IsPlain) : node.normal = node := by
  unfold IsPlain at plain
  induction node with
  | int x => exact if_neg (Int.not_lt.mpr plain.1)
  | neg x ih => rw [normal, ih plain]
  | binary op x y ihx ihy => rw [normal, ihx plain.2.1, ihy plain.2.2]
  | random x y ihx ihy => rw [normal, ihx plain.1, ihy plain.2]
  | roll kind x y ihx ihy => rw [normal, ihx plain.2.1, ihy plain.2.2]
  | thresholdRoll | rolled => exact plain.elim

theorem isArithmetic_of_plain {node : Node} (plain : node.IsPlain) :
    node.IsArithmetic (-maxInt) := by
  unfold IsPlain at plain
  induction node with
  | int x => exact ⟨Int.le_trans (by decide) plain.1, plain.2⟩
  | neg x ih => exact ih plain
  | binary op x y ihx ihy => exact ⟨plain.1, ihx plain.2.1, ihy plain.2.2⟩
  | random x y ihx ihy => exact ⟨ihx plain.1, ihy plain.2⟩
  | roll kind x y ihx ihy => exact ⟨plain.1, ihx plain.2.1, ihy plain.2.2⟩
  | thresholdRoll | rolled => exact plain.elim

@[simp]
theorem isVariable_normal (node : Node) : node.normal.isVariable = node.isVariable := by
  induction node with
  | int x => unfold normal; split <;> rfl
  | neg x ih => exact ih
  | binary op x y ihx ihy => rw [normal, isVariable, isVariable, ihx, ihy]
  | random | roll | thresholdRoll | rolled => rfl

theorem constant_parts {op : BinaryOp} {x y : Node} (constant : (binary op x y).isVariable = false) :
    x.isVariable = false ∧ y.isVariable = false := Bool.or_eq_false_iff.mp constant

theorem contains_of_arithmetic {least : Int} {node : Node} (arithmetic : node.IsArithmetic least)
    {kinds : List RollKind} (noSum : kinds.contains .sum = false) : node.contains kinds = false := by
  induction node with
  | int x => rfl
  | neg x ih => exact ih arithmetic
  | binary op x y ihx ihy => rw [contains, ihx arithmetic.2.1, ihy arithmetic.2.2]; rfl
  | random x y ihx ihy => rw [contains, ihx arithmetic.1, ihy arithmetic.2]; rfl
  | roll kind x y ihx ihy =>
    obtain ⟨rfl, left, right⟩ := arithmetic
    rw [contains, ihx left, ihy right, noSum]; rfl
  | thresholdRoll | rolled => exact arithmetic.elim

theorem contains_normal (node : Node) (kinds : List RollKind) :
    node.normal.contains kinds = node.contains kinds := by
  induction node with
  | int x => unfold normal; split <;> rfl
  | neg x ih => exact ih
  | binary op x y ihx ihy => rw [normal, contains, contains, ihx, ihy]
  | random x y ihx ihy => rw [normal, contains, contains, ihx, ihy]
  | roll kind x y ihx ihy => rw [normal, contains, contains, ihx, ihy]
  | thresholdRoll kind x y z ihx ihy ihz => rw [normal, contains, contains, ihx, ihy, ihz]
  | rolled => rfl

theorem contains_of_constant {node : Node} (constant : node.isVariable = false)
    (kinds : List RollKind) : node.contains kinds = false := by
  induction node with
  | int | rolled => rfl
  | neg x ih => exact ih constant
  | binary op x y ihx ihy =>
    have parts := constant_parts constant
    rw [contains, ihx parts.1, ihy parts.2]; rfl
  | random | roll | thresholdRoll => cases constant

theorem contains_listed (node : Node) :
    node.contains RollKind.listed =
      (node.contains [.scatter] || node.contains [.reroll] || node.contains [.compound]) := by
  have families : ∀ kind : RollKind, RollKind.listed.contains kind =
      ([RollKind.scatter].contains kind || [RollKind.reroll].contains kind ||
        [RollKind.compound].contains kind) := by
    intro kind
    cases kind <;> rfl
  induction node with
  | int | rolled => rfl
  | neg x ih => exact ih
  | binary op x y ihx ihy => simp only [contains, ihx, ihy]; ac_rfl
  | random x y ihx ihy => simp only [contains, ihx, ihy]; ac_rfl
  | roll kind x y ihx ihy => simp only [contains, families, ihx, ihy]; ac_rfl
  | thresholdRoll kind x y z ihx ihy ihz => simp only [contains, families, ihx, ihy, ihz]; ac_rfl

theorem IsReadable.plain {node : Node} (readable : node.IsReadable)
    (unlisted : node.contains RollKind.listed = false) : node.IsPlain := by
  unfold IsPlain
  induction node with
  | int x => exact readable
  | neg x ih => exact ih readable unlisted
  | binary op x y ihx ihy =>
    rw [contains, Bool.or_eq_false_iff] at unlisted
    exact ⟨readable.1, ihx readable.2.1 unlisted.1, ihy readable.2.2 unlisted.2⟩
  | random x y ihx ihy =>
    rw [contains, Bool.or_eq_false_iff] at unlisted
    exact ⟨ihx readable.1 unlisted.1, ihy readable.2 unlisted.2⟩
  | roll kind x y ihx ihy =>
    simp only [contains, Bool.or_eq_false_iff] at unlisted
    refine ⟨?_, ihx readable.1 unlisted.1.2, ihy readable.2 unlisted.2⟩
    have family := unlisted.1.1
    revert family
    cases kind <;> decide
  | thresholdRoll kind x y z =>
    have family := readable.1
    simp only [contains, Bool.or_eq_false_iff] at unlisted
    have other := unlisted.1.1.1
    exfalso
    revert family other
    cases kind <;> decide
  | rolled => exact readable.elim

end Node

theorem Grammar.Derives.readable {rule : Rule} {tokens : List Token} {node : Node}
    (derives : Derives rule tokens node) : node.IsReadable := by
  induction derives with
  | product term ih => exact ih
  | @join left right sign op x y earlier joins term ihEarlier ihTerm =>
    refine ⟨?_, ihEarlier, ihTerm⟩
    rcases sumOp?_cases joins with ⟨-, rfl⟩ | ⟨-, rfl⟩ <;> decide
  | signed factor ih => exact ih
  | multiply earlier times factor ihEarlier ihFactor => exact ⟨by decide, ihEarlier, ihFactor⟩
  | divide earlier slash divisor suffix ihEarlier ihDivisor =>
    exact ⟨by simp [BinaryOp.precedence], ihEarlier, ihDivisor⟩
  | rolls unsigned ih => exact ih
  | neg minus negated ih => exact ih
  | operand single ih => exact ih
  | roll count family sides ihCount ihSides => exact ⟨ihCount, ihSides⟩
  | thresholdRoll count family sides allowed opens limit closes ihCount ihSides ihLimit =>
    exact ⟨allowed, ihCount, ihSides, ihLimit⟩
  | integer digits fits => exact ⟨Int.natCast_nonneg _, fits.2⟩
  | enclosed opens whole closes ih => exact ih
  | random opens least between greatest closes ihLeast ihGreatest => exact ⟨ihLeast, ihGreatest⟩

end DiceLanguage
