import DiceLanguage.Number

namespace DiceLanguage.Text

def decimal (x : Int) : String :=
  if x < 0 then "-" ++ x.natAbs.repr else x.natAbs.repr

/-- Like `decimal`, but with a plus sign before an integer that is not negative. -/
def signedDecimal (x : Int) : String :=
  if x < 0 then decimal x else "+" ++ decimal x

inductive IntegerError where
  | empty
  | invalidDigit
  | tooLarge
  | tooSmall
deriving DecidableEq, Repr

namespace IntegerError

def message : IntegerError → String
  | empty => "cannot parse integer from empty string"
  | invalidDigit => "invalid digit found in string"
  | tooLarge => "number too large to fit in target type"
  | tooSmall => "number too small to fit in target type"

end IntegerError

inductive Sign where
  | plus
  | minus
deriving DecidableEq, Repr

namespace Sign

def extend : Sign → Int → Nat → Int
  | plus, x, d => 10 * x + d
  | minus, x, d => 10 * x - d

def overflow : Sign → IntegerError
  | plus => .tooLarge
  | minus => .tooSmall

end Sign

def digit? (c : Char) : Option Nat :=
  if c.isDigit then some (c.toNat - '0'.toNat) else none

def readDigits (sign : Sign) : Int → List Char → Except IntegerError Int
  | x, [] => .ok x
  | x, c :: cs =>
    match digit? c with
    | none => .error .invalidDigit
    | some d =>
      match checked (sign.extend x d) with
      | none => .error sign.overflow
      | some y => readDigits sign y cs

def readInteger : List Char → Except IntegerError Int
  | [] => .error .empty
  | ['+'] | ['-'] => .error .invalidDigit
  | '+' :: cs => readDigits .plus 0 cs
  | '-' :: cs => readDigits .minus 0 cs
  | cs => readDigits .plus 0 cs

end DiceLanguage.Text
