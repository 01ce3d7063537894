import DiceLanguage.Dice.Chain
import DiceLanguage.Dice.Wave
import DiceLanguage.Evaluation.Expression

namespace DiceLanguage

open Evaluation (ofExcept ofThrow)

namespace Roll

def settle (roll : Roll) : Evaluation Roll := do
  let count ← roll.count.settled
  let sides ← roll.sides.settled
  match roll.threshold with
  | none => return ⟨roll.kind, count, sides, none⟩
  | some threshold =>
    let threshold ← threshold.settled
    return ⟨roll.kind, count, sides, some threshold⟩

def group (roll : Roll) : Except EvalError DiceGroup := do
  let count ← roll.count.intValue
  let sides ← roll.sides.intValue
  return ⟨count, sides⟩

def settleAll (rolls : List Roll) : Evaluation (List Roll) := rolls.mapM settle

def rollScatter (rolls : List Roll) : Evaluation (List Die) := do
  let groups ← ofExcept (rolls.mapM group)
  let dice ← ofThrow (Throw.groups groups) List.flatten
  return dice.flatten

def rollWaves (rolls : List Roll) (threshold : Int) (maxRerolls : Nat) :
    Evaluation (List (List Die)) := do
  let groups ← ofExcept (rolls.mapM group)
  ofThrow (Throw.waves groups threshold maxRerolls) List.flatten

def rollChains (rolls : List Roll) (threshold modifier : Int) (maxRerolls : Nat) :
    Evaluation Chains := do
  let groups ← ofExcept (rolls.mapM group)
  let chains ← ofThrow (Throw.chains groups threshold maxRerolls) List.flatten
  return ⟨chains, modifier⟩

end Roll

end DiceLanguage
