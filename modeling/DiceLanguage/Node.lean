import DiceLanguage.Dice.Die
import DiceLanguage.Number.Relation
import DiceLanguage.Number.Rounding
import DiceLanguage.Token

namespace DiceLanguage

inductive RollKind where
  /-- `D`: the dice are added up. -/
  | sum
  /-- `B`: every die is reported by itself. -/
  | scatter
  /-- `R`: dice at or above a threshold are rolled again in a further wave. -/
  | reroll
  /-- `U`: dice at or above a threshold are rolled again and added on. -/
  | compound
deriving DecidableEq, Repr

namespace RollKind

def letter : RollKind → Letter
  | sum => .d
  | scatter => .b
  | reroll => .r
  | compound => .u

def listed : List RollKind := [scatter, reroll, compound]

def takesThreshold : RollKind → Bool
  | reroll | compound => true
  | sum | scatter => false

end RollKind

inductive Side where
  | left
  | right
deriving DecidableEq, Repr

inductive Precedence where
  | compare
  | additive
  | multiplicative
  | roll
  | randomRange
  | unary
  | primary
deriving DecidableEq, Repr

def Precedence.rank : Precedence → Nat
  | compare => 0
  | additive => 1
  | multiplicative => 2
  | roll => 3
  | randomRange => 4
  | unary => 5
  | primary => 6

inductive BinaryOp where
  | add
  | subtract
  | multiply
  | divide (rounding : Rounding)
  | compare (relation : Relation)
deriving DecidableEq, Repr

namespace BinaryOp

def precedence : BinaryOp → Precedence
  | add | subtract => .additive
  | multiply | divide _ => .multiplicative
  | compare _ => .compare

/-- Chains of the operator are folded toward this side. All arithmetic folds to the left, and
comparisons form no chains. -/
def associates : BinaryOp → Side → Bool
  | compare _, _ | _, .right => false
  | _, .left => true

def symbol : BinaryOp → String
  | add => "+"
  | subtract => "-"
  | multiply => "*"
  | divide _ => "/"
  | compare relation => relation.symbol

def suffix : BinaryOp → String
  | divide rounding => rounding.suffix
  | _ => ""

end BinaryOp

inductive Node where
  | int (value : Int)
  | neg (operand : Node)
  | binary (op : BinaryOp) (left right : Node)
  | random (least greatest : Node)
  | roll (kind : RollKind) (count sides : Node)
  | thresholdRoll (kind : RollKind) (count sides threshold : Node)
  | rolled (dice : List Die)
deriving DecidableEq, Repr

namespace Node

def isPrimary : Node → Bool
  | int _ | random .. | roll .. | thresholdRoll .. | rolled _ => true
  | neg _ | binary .. => false

/-- The value still depends on dice that have not fallen. -/
def isVariable : Node → Bool
  | int _ | rolled _ => false
  | random .. | roll .. | thresholdRoll .. => true
  | neg x => x.isVariable
  | binary _ x y => x.isVariable || y.isVariable

def isNegative : Node → Bool
  | neg _ => true
  | int x => x < 0
  | _ => false

def precedence : Node → Precedence
  | int _ | rolled _ => .primary
  | neg _ => .unary
  | random .. => .randomRange
  | roll .. | thresholdRoll .. => .roll
  | binary op _ _ => op.precedence

def associates : Node → Side → Bool
  | binary op _ _, side => op.associates side
  | roll .., .left | thresholdRoll .., .left => true
  | _, _ => false

def contains (kinds : List RollKind) : Node → Bool
  | int _ | rolled _ => false
  | neg x => x.contains kinds
  | binary _ x y | random x y => x.contains kinds || y.contains kinds
  | roll kind count sides => kinds.contains kind || count.contains kinds || sides.contains kinds
  | thresholdRoll kind count sides threshold =>
    kinds.contains kind || count.contains kinds || sides.contains kinds ||
      threshold.contains kinds

end Node

structure Roll where
  kind : RollKind
  count : Node
  sides : Node
  threshold : Option Node := none
deriving DecidableEq, Repr

def Roll.toNode (roll : Roll) : Node :=
  match roll.threshold with
  | none => .roll roll.kind roll.count roll.sides
  | some threshold => .thresholdRoll roll.kind roll.count roll.sides threshold

def Node.toRoll? : Node → Option Roll
  | roll kind count sides => some { kind, count, sides }
  | thresholdRoll kind count sides threshold =>
    some { kind, count, sides, threshold := some threshold }
  | _ => none

theorem Roll.toRoll?_toNode (roll : Roll) : roll.toNode.toRoll? = some roll := by
  obtain ⟨kind, count, sides, _ | threshold⟩ := roll <;> rfl

end DiceLanguage
