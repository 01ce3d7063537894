import DiceLanguage.Dice.Source

namespace DiceLanguage

structure RandomDice where
  generator : StdGen

namespace RandomDice

def ofSeed (seed : Nat) : RandomDice := ⟨mkStdGen seed⟩

def next (sides : Int) (dice : RandomDice) : Except RollError Die × RandomDice :=
  if sides < 1 then (.error (.invalidSides sides), dice)
  else
    let (face, generator) := randNat dice.generator 1 sides.toNat
    (.ok ⟨face, sides⟩, ⟨generator⟩)

instance : DiceSource RandomDice where
  next := next

end RandomDice

end DiceLanguage
