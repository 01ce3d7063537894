namespace DiceLanguage

inductive Relation where
  | equal
  | notEqual
  | less
  | greater
  | atMost
  | atLeast
deriving DecidableEq, Repr

namespace Relation

def symbol : Relation → String
  | equal => "="
  | notEqual => "<>"
  | less => "<"
  | greater => ">"
  | atMost => "<="
  | atLeast => ">="

def holds : Relation → Int → Int → Bool
  | equal, x, y => x == y
  | notEqual, x, y => x != y
  | less, x, y => x < y
  | greater, x, y => x > y
  | atMost, x, y => x ≤ y
  | atLeast, x, y => x ≥ y

def successes (relation : Relation) (target : Int) (values : List Int) : Nat :=
  values.countP (relation.holds · target)

end Relation

end DiceLanguage
