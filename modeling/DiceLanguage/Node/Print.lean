import DiceLanguage.Node

namespace DiceLanguage

def enclosed (wrap : Bool) (text : String) : String :=
  if wrap then "(" ++ text ++ ")" else text

/-- An operand of the operator has to be enclosed. `edge` says that it stands at the left edge of
the whole expression. -/
def BinaryOp.encloses (op : BinaryOp) (side : Side) (edge : Bool) (operand : Node) : Bool :=
  if operand.isNegative then !(edge && op.associates .left)
  else operand.precedence.rank < op.precedence.rank ||
    operand.precedence == op.precedence && !op.associates side

namespace Node

def negatesBare : Node → Bool
  | int x => 0 ≤ x
  | random .. | roll .. | thresholdRoll .. | rolled _ => true
  | neg _ | binary .. => false

/-- The number or the sides of a roll may stand as they are. Only the number may be a roll. -/
def rollsBare : Node → Side → Bool
  | int x, _ => 0 ≤ x
  | random .., _ | rolled _, _ => true
  | roll .., side | thresholdRoll .., side => side == .left
  | neg _, _ | binary .., _ => false

def printAt : Node → Bool → String
  | int x, _ => Text.decimal x
  | rolled dice, _ => Text.decimal (Die.sum dice) ++ "[" ++ Die.faces dice ++ "]"
  | random least greatest, _ =>
    "[" ++ least.printAt true ++ "..." ++ greatest.printAt true ++ "]"
  | neg x, _ => "-" ++ enclosed (!x.negatesBare) (x.printAt true)
  | binary op x y, edge =>
    let left := op.encloses .left edge x
    let right := op.encloses .right false y
    enclosed left (x.printAt (left || edge)) ++ op.symbol ++
      enclosed right (y.printAt right) ++ op.suffix
  | roll kind count sides, _ =>
    enclosed (!count.rollsBare .left) (count.printAt true) ++ kind.letter.symbol ++
      enclosed (!sides.rollsBare .right) (sides.printAt true)
  | thresholdRoll kind count sides threshold, _ =>
    enclosed (!count.rollsBare .left) (count.printAt true) ++ kind.letter.symbol ++
      enclosed (!sides.rollsBare .right) (sides.printAt true) ++
      "[" ++ threshold.printAt true ++ "]"

def print (node : Node) : String := node.printAt true

end Node

end DiceLanguage
