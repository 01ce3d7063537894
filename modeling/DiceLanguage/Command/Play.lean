import DiceLanguage.Command.Print
import DiceLanguage.Evaluation.RollList
import DiceLanguage.Evaluation.Threshold
import DiceLanguage.Report

namespace DiceLanguage

open Evaluation (ofExcept ofThrow)
open Text (decimal)

namespace Command

/-- The trace of an expression: its text with the dice in it is left out where it is the value. -/
def trace (heading resolved value : String) : List String :=
  heading :: (if resolved = value then [] else [resolved]) ++ [value]

def playCalculation (text : String) (expr : Node) : Evaluation Outcome := do
  let value ← expr.evaluate
  return { fragments := [text, decimal value] }

def playSum (heading : String) (expr : Node) : Evaluation Outcome := do
  let resolved ← expr.resolve
  let value ← ofExcept resolved.intValue
  return { fragments := trace heading resolved.print (decimal value) }

def targetVaries : Node → Bool
  | .binary _ _ target => target.isVariable
  | _ => false

/-- Rolls a comparison. The right side is shown only if it has dice. -/
def playSumCheck (heading : String) (comparison : Node) : Evaluation Outcome := do
  let resolved ← comparison.resolve
  match resolved with
  | .binary (.compare relation) left right =>
    let x ← ofExcept left.intValue
    let y ← ofExcept right.intValue
    let holds ← ofExcept (resolved.value >>= Value.asBool)
    let verdict := Verdict.ofBool holds
    let fragments :=
      if targetVaries comparison then
        trace heading resolved.print (decimal x ++ relation.symbol ++ decimal y)
      else trace heading left.print (decimal x)
    return { fragments := fragments ++ verdict.word.toList, verdict }
  | _ => .fail (.typeMismatch .comparison .expression)

def evaluateTarget : Option Comparison → Evaluation (Option (Relation × Int))
  | none => return none
  | some comparison => do
    let target ← comparison.target.evaluate
    return some (comparison.relation, target)

def countedOutcome (heading dice : String) (successes : Nat) : Outcome :=
  { fragments := [heading, dice, "Successes: " ++ successes.repr]
    verdict := .ofBool (0 < successes) }

def playScatter (heading : String) (rolls : List Roll) (check : Option Comparison) :
    Evaluation Outcome := do
  let rolls ← Roll.settleAll rolls
  let target ← evaluateTarget check
  let dice ← Roll.rollScatter rolls
  match target with
  | none => return { fragments := [heading, Die.faces dice, decimal (Die.sum dice)] }
  | some (relation, target) =>
    return countedOutcome heading (Die.faces dice) (Die.successes dice relation target)

def playReroll (heading : String) (maxRerolls : Nat) (rolls : List Roll)
    (threshold : Option Node) (check : Option Comparison) : Evaluation Outcome := do
  let rolls ← Roll.settleAll rolls
  let target ← evaluateTarget check
  match ← findThreshold threshold (target.map (·.2)) with
  | .error error => return { fragments := [heading, error.message] }
  | .ok threshold =>
    let waves ← Roll.rollWaves rolls threshold maxRerolls
    match target with
    | none => return { fragments := [heading, Value.wavesText waves] }
    | some (relation, target) =>
      return countedOutcome heading (Value.wavesText waves)
        (Die.successes waves.flatten relation target)

def evaluateModifier : Option Node → Evaluation Int
  | none => return 0
  | some modifier => modifier.evaluate

def playCompound (heading : String) (maxRerolls : Nat) (rolls : List Roll)
    (threshold modifier : Option Node) (check : Option Comparison) : Evaluation Outcome := do
  let rolls ← Roll.settleAll rolls
  let modifier ← evaluateModifier modifier
  let target ← evaluateTarget check
  match ← findThreshold threshold (target.map (·.2)) with
  | .error error => return { fragments := [heading, error.message] }
  | .ok threshold =>
    let chains ← Roll.rollChains rolls threshold modifier maxRerolls
    match target with
    | none =>
      let highest ← ofExcept chains.highest
      let total ← ofExcept chains.total
      let summary := decimal highest ++ "/" ++ decimal total ++ " (max/total)"
      return { fragments := [heading, chains.text, summary] }
    | some (relation, target) =>
      let successes ← ofExcept (chains.successes relation target)
      return countedOutcome heading chains.text successes

def pickItem (items : List String) : Evaluation String := do
  let die ← ofThrow (Throw.die items.length) fun die => [die]
  match pick? items die.value with
  | some item => return item
  | none => .fail (.invalidRange 1 items.length)

def playChoice (heading : String) (items : List String) : Evaluation Outcome := do
  let item ← pickItem items
  return { fragments := [heading, item] }

def play (command : Command) (maxRerolls : Nat) : Evaluation Outcome :=
  let heading := "(" ++ command.print ++ ")"
  match command with
  | calculation expr => playCalculation command.print expr
  | sum expr => playSum heading expr
  | sumCheck comparison => playSumCheck heading comparison
  | scatter rolls check => playScatter heading rolls.toList check
  | reroll rolls threshold check => playReroll heading maxRerolls rolls.toList threshold check
  | compound rolls threshold modifier check =>
    playCompound heading maxRerolls rolls.toList threshold modifier check
  | choice items => playChoice heading items.toList

end Command

end DiceLanguage
