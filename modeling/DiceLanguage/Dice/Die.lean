import DiceLanguage.Text.Integer

namespace DiceLanguage

structure Die where
  value : Int
  sides : Int
deriving DecidableEq, Repr

structure DiceGroup where
  count : Int
  sides : Int
deriving DecidableEq, Repr

namespace Die

def text (die : Die) : String :=
  Text.decimal die.value ++ "/" ++ Text.decimal die.sides

def script (dice : List Die) : String :=
  ",".intercalate (dice.map text)

def faces (dice : List Die) : String :=
  ",".intercalate (dice.map fun die => Text.decimal die.value)

/-- The faces added from the left; each partial sum saturates. -/
def sum (dice : List Die) : Int :=
  dice.foldl (fun total die => saturate (total + die.value)) 0

end Die

end DiceLanguage
