import DiceLanguage.Text.Integer

namespace DiceLanguage

inductive RollError where
  | invalidSides (sides : Int)
  | invalidCount (count : Int)
  | exhausted
  | tooManyRolls (max : Nat)
  /-- The next scripted die has `found` sides where `expected` were asked for. -/
  | unexpectedSides (value found expected : Int)
deriving DecidableEq, Repr

namespace RollError

open Text (decimal)

def message : RollError → String
  | invalidSides sides => "dice must have at least 1 side, got " ++ decimal sides
  | invalidCount count => "at least 1 die must be rolled, got " ++ decimal count
  | exhausted => "no scripted dice left"
  | tooManyRolls max => "too many dice rolled (at most " ++ max.repr ++ " allowed)"
  | unexpectedSides value found expected =>
    "scripted die " ++ decimal value ++ "/" ++ decimal found ++ " cannot be used for a d" ++
      decimal expected

end RollError

end DiceLanguage
