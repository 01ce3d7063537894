import DiceLanguage.Dice.Source

namespace DiceLanguage

structure Cycle where
  faces : List Int
  /-- A face above the sides of its die is lowered to them. -/
  clamp : Bool := false
  taken : Nat := 0
deriving DecidableEq, Repr

def Cycle.face (cycle : Cycle) : Int :=
  cycle.faces.getD (cycle.taken % cycle.faces.length) 0

def Cycle.next (sides : Int) (cycle : Cycle) : Except RollError Die × Cycle :=
  let value := if cycle.clamp then min cycle.face sides else cycle.face
  (.ok ⟨value, sides⟩, { cycle with taken := cycle.taken + 1 })

instance : DiceSource Cycle where
  next := Cycle.next

end DiceLanguage
