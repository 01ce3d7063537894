import DiceLanguage.Number

namespace DiceLanguage

inductive Rounding where
  | down
  /-- To the nearest integer, halves away from zero. -/
  | nearest
  | up
deriving DecidableEq, Repr

namespace Rounding

def suffix : Rounding → String
  | down => ""
  | nearest => "R"
  | up => "U"

/-- The step from the quotient cut toward zero to the next integer away from zero. A remainder has
the sign of the dividend, so the exact quotient is positive when remainder and divisor agree. -/
def awayFromZero (remainder divisor : Int) : Int :=
  if 0 < remainder ↔ 0 < divisor then 1 else -1

def halfReached (remainder divisor : Int) : Prop :=
  divisor.natAbs - remainder.natAbs ≤ remainder.natAbs

instance (remainder divisor : Int) : Decidable (halfReached remainder divisor) :=
  inferInstanceAs (Decidable (_ ≤ _))

def adjustment (rounding : Rounding) (remainder divisor : Int) : Int :=
  if remainder = 0 then 0
  else match rounding with
    | down => 0
    | nearest => if halfReached remainder divisor then awayFromZero remainder divisor else 0
    | up => max 0 (awayFromZero remainder divisor)

def quotient (rounding : Rounding) (a b : Int) : Int :=
  a.tdiv b + rounding.adjustment (a.tmod b) b

def divide (rounding : Rounding) (a b : Int) : Option Int :=
  if b = 0 then none else checked (rounding.quotient a b)

end Rounding

end DiceLanguage
