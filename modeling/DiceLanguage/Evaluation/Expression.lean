import DiceLanguage.Evaluation
import DiceLanguage.Node
import DiceLanguage.Value

namespace DiceLanguage

open Evaluation (ofExcept ofThrow)

def BinaryOp.apply (op : BinaryOp) (x y : Int) : Except EvalError Value :=
  match op with
  | add => .integer <$> exactly (x + y)
  | subtract => .integer <$> exactly (x - y)
  | multiply => .integer <$> exactly (x * y)
  | divide rounding =>
    if y = 0 then .error .divisionByZero
    else match rounding.divide x y with
      | some quotient => .ok (.integer quotient)
      | none => .error .overflow
  | compare relation => .ok (.boolean (relation.holds x y))

def randomNumber (least greatest : Int) : Evaluation Int := do
  if greatest < least then .fail (.invalidRange least greatest)
  else
    let size ← ofExcept (exactly (greatest - least + 1))
    let die ← ofThrow (Throw.die size) fun die => [die]
    -- The subtraction is not checked, only the sum is.
    ofExcept (exactly (least + wrap (die.value - 1)))

namespace Node

def value : Node → Except EvalError Value
  | int x => .ok (.integer x)
  | rolled dice => .ok (.integer (Die.sum dice))
  | neg operand => do
    let x ← operand.value >>= Value.asInt
    .integer <$> exactly (-x)
  | binary op left right => do
    let x ← left.value >>= Value.asInt
    let y ← right.value >>= Value.asInt
    op.apply x y
  | roll .. | thresholdRoll .. => .error (.typeMismatch .integer .unrolledDice)
  | random .. => .error (.typeMismatch .integer .unresolvedRandomNumber)

def intValue (node : Node) : Except EvalError Int := node.value >>= Value.asInt

def rollSum (count sides : Node) : Evaluation Node := do
  let count ← ofExcept count.intValue
  let sides ← ofExcept sides.intValue
  let dice ← ofThrow (Throw.group ⟨count, sides⟩) id
  return rolled dice

/-- Makes the `D` rolls and picks the random numbers. -/
def rollDice : Node → Evaluation Node
  | roll .sum count sides | thresholdRoll .sum count sides _ => rollSum count sides
  | random least greatest => do
    let least ← ofExcept least.intValue
    let greatest ← ofExcept greatest.intValue
    let x ← randomNumber least greatest
    return int x
  | neg operand => do
    let operand ← operand.rollDice
    return neg operand
  | binary op left right => do
    let left ← left.rollDice
    let right ← right.rollDice
    return binary op left right
  | node => return node

def conclude (node : Node) : Evaluation Int := do
  let node ← node.rollDice
  ofExcept node.intValue

/-- An argument gives way to its value if it depends on dice. -/
def settle (argument : Node) (resolved : Evaluation Node) : Evaluation Node :=
  if argument.isVariable then do
    let node ← resolved
    let x ← node.conclude
    return int x
  else return argument

/-- Settles the arguments of rolls and random numbers. -/
def settleArguments : Node → Evaluation Node
  | int x => return int x
  | rolled dice => return rolled dice
  | neg operand => do
    let operand ← operand.settleArguments
    return neg operand
  | binary op left right => do
    let left ← left.settleArguments
    let right ← right.settleArguments
    return binary op left right
  | random least greatest => do
    let least ← settle least least.settleArguments
    let greatest ← settle greatest greatest.settleArguments
    return random least greatest
  | roll kind count sides => do
    let count ← settle count count.settleArguments
    let sides ← settle sides sides.settleArguments
    return roll kind count sides
  | thresholdRoll kind count sides threshold => do
    let count ← settle count count.settleArguments
    let sides ← settle sides sides.settleArguments
    let threshold ← settle threshold threshold.settleArguments
    return thresholdRoll kind count sides threshold

def resolve (node : Node) : Evaluation Node := do
  let node ← node.settleArguments
  node.rollDice

def evaluate (node : Node) : Evaluation Int := do
  let node ← node.settleArguments
  node.conclude

def settled (node : Node) : Evaluation Node := node.settle node.settleArguments

end Node

end DiceLanguage
