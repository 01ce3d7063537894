import DiceLanguage.Text.Quoted
import DiceLanguage.Token

namespace DiceLanguage

inductive ParseErrorKind where
  | unexpectedToken (found : TokenKind) (expected : List TokenKind)
  | illegalToken
  | chainedComparison
  | randomNumberInCalculation
  | diceInCalculation
  | noDiceRoll
  | mixedRollFamilies
  | misplacedThreshold
  | invalidModifier
  | emptyChoiceItem
  | integerOverflow
deriving DecidableEq, Repr

structure ParseError where
  kind : ParseErrorKind
  column : Nat
  literal : String
deriving DecidableEq, Repr

/-- Alternatives as a phrase: "a", "a or b", "a, b, or c". -/
def alternatives : List String → String
  | [] => ""
  | [a] => a
  | [a, b] => a ++ " or " ++ b
  | a :: rest => a ++ ", " ++ enumeration rest
where
  enumeration : List String → String
    | [] => ""
    | [a] => "or " ++ a
    | a :: rest => a ++ ", " ++ enumeration rest

namespace ParseErrorKind

def message : ParseErrorKind → String
  | unexpectedToken found expected =>
    "unexpected token: found " ++ found.description ++ ", expected " ++
      alternatives (expected.map TokenKind.description)
  | illegalToken => "illegal character"
  | chainedComparison => "only one comparison is allowed per command"
  | randomNumberInCalculation => "random numbers cannot be used in C(...)"
  | diceInCalculation => "dice cannot be rolled in C(...)"
  | noDiceRoll => "a command needs at least one dice roll"
  | mixedRollFamilies =>
    "B, R and U rolls cannot be mixed with each other or used inside expressions"
  | misplacedThreshold => "a reroll threshold may only follow the last roll of a list"
  | invalidModifier => "the modifier of a U roll must be constant arithmetic"
  | emptyChoiceItem => "choice items cannot be empty"
  | integerOverflow => "integer literal is too large"

end ParseErrorKind

namespace ParseError

def of (token : Token) (kind : ParseErrorKind) : ParseError :=
  ⟨kind, token.column, token.literal⟩

def message (error : ParseError) : String :=
  "syntax error at column " ++ error.column.repr ++ " (" ++ Text.quoted error.literal ++ "): " ++
    error.kind.message

end ParseError

end DiceLanguage
