import DiceLanguage.Node

namespace DiceLanguage

structure NonEmptyList (α : Type) where
  head : α
  tail : List α
deriving DecidableEq, Repr

namespace NonEmptyList

variable {α : Type}

def toList (list : NonEmptyList α) : List α := list.head :: list.tail

def cons (a : α) (list : NonEmptyList α) : NonEmptyList α := ⟨a, list.toList⟩

end NonEmptyList

structure Comparison where
  relation : Relation
  target : Node
deriving DecidableEq, Repr

inductive Command where
  | calculation (expr : Node)
  | sum (expr : Node)
  /-- A comparison between two expressions, of which one has dice. -/
  | sumCheck (comparison : Node)
  | scatter (rolls : NonEmptyList Roll) (check : Option Comparison)
  /-- Dice rolled again in waves. The threshold is that of the whole list. -/
  | reroll (rolls : NonEmptyList Roll) (threshold : Option Node) (check : Option Comparison)
  /-- Dice rolled again in chains. The modifier is added to every chain. -/
  | compound (rolls : NonEmptyList Roll) (threshold modifier : Option Node)
      (check : Option Comparison)
  | choice (items : NonEmptyList String)
deriving DecidableEq, Repr

structure Statement where
  command : Command
  secret : Bool
deriving DecidableEq, Repr

end DiceLanguage
