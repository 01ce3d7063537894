import DiceLanguage.Dice.Error

namespace DiceLanguage

/-- What a value, or an expression in place of one, is called in messages. -/
inductive ValueKind where
  | integer
  | boolean
  | text
  | array
  | scatter
  | waves
  | chains
  | unrolledDice
  | unresolvedRandomNumber
  | comparison
  | expression
deriving DecidableEq, Repr

namespace ValueKind

def name : ValueKind → String
  | integer => "Integer"
  | boolean => "Boolean"
  | text => "String"
  | array => "Array"
  | scatter => "BRollResult"
  | waves => "RRollResult"
  | chains => "URollResult"
  | unrolledDice => "unrolled dice"
  | unresolvedRandomNumber => "unresolved random number"
  | comparison => "comparison"
  | expression => "expression"

end ValueKind

inductive ThresholdError where
  | missing
  | tooSmall (threshold : Int)
deriving DecidableEq, Repr

def ThresholdError.message : ThresholdError → String
  | missing => "specify a reroll target, e.g. 2R6>=5 or 2R6[5]"
  | tooSmall _ => "threshold must be 2 or more"

inductive EvalError where
  | divisionByZero
  | roll (error : RollError)
  | typeMismatch (expected found : ValueKind)
  | invalidRange (least greatest : Int)
  | overflow
  | threshold (error : ThresholdError)
deriving DecidableEq, Repr

namespace EvalError

open Text (decimal)

def message : EvalError → String
  | divisionByZero => "division by zero"
  | roll error => error.message
  | typeMismatch expected found =>
    "type mismatch: expected " ++ expected.name ++ ", found " ++ found.name
  | invalidRange least greatest =>
    "[" ++ decimal least ++ "..." ++ decimal greatest ++ "] is not a valid range"
  | overflow => "integer overflow"
  | threshold error => error.message

end EvalError

def exactly (x : Int) : Except EvalError Int :=
  match checked x with
  | some x => .ok x
  | none => .error .overflow

end DiceLanguage
