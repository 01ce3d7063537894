import DiceLanguage.Dice.Throw

namespace DiceLanguage.Throw

/-- The dice to roll again after a wave: one for each die that reached the threshold, grouped by
sides in the order in which the sides first appear. -/
def pending (threshold : Int) (wave : List Die) : List DiceGroup :=
  let sides := (wave.filter (threshold ≤ ·.value)).map (·.sides)
  sides.eraseDups.map fun s => ⟨sides.count s, s⟩

def extendWaves (threshold : Int) : Nat → List Die → List (List Die) → Throw (List (List Die))
  | 0, latest, before => return (latest :: before).reverse
  | budget + 1, latest, before =>
    match pending threshold latest with
    | [] => return (latest :: before).reverse
    | pending => do
      let parts ← groups pending
      extendWaves threshold budget parts.flatten (latest :: before)

theorem extendWaves_eq (threshold : Int) (budget : Nat) (latest : List Die)
    (before : List (List Die)) :
    extendWaves threshold budget latest before =
      (before.reverse ++ ·) <$> extendWaves threshold budget latest [] := by
  induction budget generalizing latest before with
  | zero => simp only [extendWaves, map_pure, List.reverse_cons, List.reverse_nil, List.nil_append]
  | succ budget ih =>
    simp only [extendWaves]
    split
    · simp only [map_pure, List.reverse_cons, List.reverse_nil, List.nil_append]
    · simp only [map_bind]
      refine bind_congr fun parts => ?_
      rw [ih _ (latest :: before), ih _ [latest], Functor.map_map]
      simp only [List.reverse_cons, List.reverse_nil, List.nil_append, List.append_assoc]

def waves (dice : List DiceGroup) (threshold : Int) (limit : Nat) : Throw (List (List Die)) := do
  let parts ← groups dice
  extendWaves threshold (limit - 1) parts.flatten []

end DiceLanguage.Throw
