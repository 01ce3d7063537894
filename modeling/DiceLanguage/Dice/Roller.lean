import DiceLanguage.Dice.Source

namespace DiceLanguage

structure Roller (σ : Type) where
  source : σ
  limit : Option Nat := none
  /-- The dice counted since the limit was set. -/
  rolled : Nat := 0
deriving DecidableEq, Repr

namespace Roller

variable {σ : Type}

def limitTo (max : Nat) (roller : Roller σ) : Roller σ :=
  { roller with limit := some max, rolled := 0 }

/-- Dice are counted before the first of them is drawn, so a request past the limit draws nothing. -/
def charge (count : Nat) (roller : Roller σ) : Except RollError (Roller σ) :=
  match roller.limit with
  | none => .ok roller
  | some max =>
    if roller.rolled + count ≤ max then .ok { roller with rolled := roller.rolled + count }
    else .error (.tooManyRolls max)

variable [DiceSource σ]

def rollDie (sides : Int) (roller : Roller σ) : Except RollError Die × Roller σ :=
  if sides < 1 then (.error (.invalidSides sides), roller)
  else
    match roller.charge 1 with
    | .error e => (.error e, roller)
    | .ok roller =>
      let (die, source) := DiceSource.next sides roller.source
      (die, { roller with source })

def roll (count sides : Int) (roller : Roller σ) : Except RollError (List Die) × Roller σ :=
  if count < 1 then (.error (.invalidCount count), roller)
  else if sides < 1 then (.error (.invalidSides sides), roller)
  else
    match roller.charge count.toNat with
    | .error e => (.error e, roller)
    | .ok roller =>
      let (dice, source) := DiceSource.draw sides count.toNat roller.source
      (dice, { roller with source })

end Roller

end DiceLanguage
