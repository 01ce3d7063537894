import DiceLanguage.Dice.Throw

namespace DiceLanguage.Throw

/-- Goes on with a chain by at most `budget` dice. The dice before its latest one are given from the
last to the first. -/
def extendChain (threshold sides : Int) : Nat → Die → List Die → Throw (List Die)
  | 0, latest, before => return (latest :: before).reverse
  | budget + 1, latest, before =>
    if threshold ≤ latest.value then do
      let next ← die sides
      extendChain threshold sides budget next (latest :: before)
    else return (latest :: before).reverse

theorem extendChain_eq (threshold sides : Int) (budget : Nat) (latest : Die) (before : List Die) :
    extendChain threshold sides budget latest before =
      (before.reverse ++ ·) <$> extendChain threshold sides budget latest [] := by
  induction budget generalizing latest before with
  | zero => simp only [extendChain, map_pure, List.reverse_cons, List.reverse_nil, List.nil_append]
  | succ budget ih =>
    simp only [extendChain]
    split
    · simp only [map_bind]
      refine bind_congr fun next => ?_
      rw [ih next (latest :: before), ih next [latest], Functor.map_map]
      simp only [List.reverse_cons, List.reverse_nil, List.nil_append, List.append_assoc]
    · simp only [map_pure, List.reverse_cons, List.reverse_nil, List.nil_append]

def chain (threshold : Int) (limit : Nat) (sides : Int) : Throw (List Die) := do
  let first ← die sides
  extendChain threshold sides (limit - 1) first []

def groupChains (threshold : Int) (limit : Nat) (group : DiceGroup) : Throw (List (List Die)) :=
  if group.count < 1 then refuse (.invalidCount group.count)
  else (chain threshold limit group.sides).times group.count.toNat

def chains (dice : List DiceGroup) (threshold : Int) (limit : Nat) :
    Throw (List (List Die)) := do
  let parts ← dice.mapM (groupChains threshold limit)
  return parts.flatten

end DiceLanguage.Throw
