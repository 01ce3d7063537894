import DiceLanguage.Dice.Die
import DiceLanguage.Evaluation.Error
import DiceLanguage.Number.Relation

namespace DiceLanguage

/-- The chains of a compounding roll, with a modifier that is added to each of them. -/
structure Chains where
  chains : List (List Die)
  modifier : Int
deriving DecidableEq, Repr

namespace Chains

def sums (result : Chains) : List Int := result.chains.map Die.sum

def highest (result : Chains) : Except EvalError Int :=
  exactly (result.sums.max?.getD 0 + result.modifier)

def total (result : Chains) : Except EvalError Int :=
  result.sums.foldlM (fun total sum => exactly (total + sum)) result.modifier

def successes (result : Chains) (relation : Relation) (target : Int) : Except EvalError Nat := do
  let values ← result.sums.mapM fun sum => exactly (sum + result.modifier)
  return relation.successes target values

/-- A single die as its face; more dice as their sum with the faces in brackets. -/
def chainText : List Die → String
  | [die] => Text.decimal die.value
  | dice => Text.decimal (Die.sum dice) ++ "[" ++ Die.faces dice ++ "]"

def text (result : Chains) : String :=
  ",".intercalate (result.chains.map chainText) ++
    if result.modifier = 0 then "" else Text.signedDecimal result.modifier

end Chains

def Die.successes (dice : List Die) (relation : Relation) (target : Int) : Nat :=
  relation.successes target (dice.map (·.value))

inductive Value where
  | integer (value : Int)
  | boolean (value : Bool)
  | text (value : String)
  | array (items : List Value)
  | scatter (dice : List Die)
  | waves (dice : List (List Die))
  | chains (result : Chains)

namespace Value

def kind : Value → ValueKind
  | integer _ => .integer
  | boolean _ => .boolean
  | text _ => .text
  | array _ => .array
  | scatter _ => .scatter
  | waves _ => .waves
  | chains _ => .chains

def wavesText (waves : List (List Die)) : String :=
  " + ".intercalate (waves.map Die.faces)

mutual

def inspect : Value → String
  | integer x => Text.decimal x
  | boolean b => if b then "true" else "false"
  | text s => s
  | array items => "[" ++ ",".intercalate (inspectAll items) ++ "]"
  | scatter dice => Die.faces dice
  | waves dice => wavesText dice
  | chains result => result.text

def inspectAll : List Value → List String
  | [] => []
  | value :: values => value.inspect :: inspectAll values

end

def asInt : Value → Except EvalError Int
  | integer x => .ok x
  | other => .error (.typeMismatch .integer other.kind)

def asBool : Value → Except EvalError Bool
  | boolean b => .ok b
  | other => .error (.typeMismatch .boolean other.kind)

end Value

/-- The item that a face picks, where faces count from one. -/
def pick? {α : Type} (items : List α) (face : Int) : Option α :=
  if 1 ≤ face then items[(face - 1).toNat]? else none

end DiceLanguage
