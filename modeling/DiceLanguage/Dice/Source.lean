import DiceLanguage.Dice.Die
import DiceLanguage.Dice.Error

namespace DiceLanguage

/-- A supply of dice, one at a time. A source may change even when it refuses. -/
class DiceSource (σ : Type) where
  next : Int → σ → Except RollError Die × σ
  predetermined : σ → Bool := fun _ => false

namespace DiceSource

def draw {σ : Type} [DiceSource σ] (sides : Int) : Nat → σ → Except RollError (List Die) × σ
  | 0, source => (.ok [], source)
  | n + 1, source =>
    match next sides source with
    | (.error e, source) => (.error e, source)
    | (.ok die, source) =>
      match draw sides n source with
      | (.error e, source) => (.error e, source)
      | (.ok dice, source) => (.ok (die :: dice), source)

end DiceSource

end DiceLanguage
