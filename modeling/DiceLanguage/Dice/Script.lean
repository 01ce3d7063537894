import DiceLanguage.Dice.Source
import DiceLanguage.Text.Blank
import DiceLanguage.Text.Quoted

namespace DiceLanguage

structure Script where
  dice : List Die := []
deriving DecidableEq, Repr

/-- A die with other sides than those asked for is taken from the script and then refused. -/
def Script.next (sides : Int) : Script → Except RollError Die × Script
  | ⟨[]⟩ => (.error .exhausted, ⟨[]⟩)
  | ⟨die :: rest⟩ =>
    if die.sides = sides then (.ok die, ⟨rest⟩)
    else (.error (.unexpectedSides die.value die.sides sides), ⟨rest⟩)

instance : DiceSource Script where
  next := Script.next
  predetermined := fun _ => true

inductive ScriptError where
  | noDelimiter (item : String)
  | invalidValue (error : Text.IntegerError)
  | invalidSides (error : Text.IntegerError)
  | outOfRange (value sides : Int)
deriving DecidableEq, Repr

def ScriptError.message : ScriptError → String
  | noDelimiter item => "cannot parse " ++ Text.quoted item ++ " as a die without '/' delimiter"
  | invalidValue error | invalidSides error => error.message
  | outOfRange value sides =>
    Text.decimal value ++ " is not a face of a d" ++ Text.decimal sides

namespace Script

def readDie (item : List Char) : Except ScriptError Die :=
  match item.dropWhile (· ≠ '/') with
  | [] => .error (.noDelimiter (String.ofList item))
  | _ :: afterSlash => do
    let value ← (Text.readInteger (Text.trim (item.takeWhile (· ≠ '/')))).mapError .invalidValue
    let sides ← (Text.readInteger (Text.trim afterSlash)).mapError .invalidSides
    if 1 ≤ sides ∧ 1 ≤ value ∧ value ≤ sides then .ok ⟨value, sides⟩
    else .error (.outOfRange value sides)

/-- The items between commas that are not blank, each trimmed. -/
def items (text : List Char) : List (List Char) :=
  ((text.splitOn ',').map Text.trim).filter (· ≠ [])

def parse (text : String) : Except ScriptError Script := do
  let dice ← (items text.toList).mapM readDie
  return ⟨dice⟩

end Script

end DiceLanguage
