import DiceLanguage.Number.Relation

namespace DiceLanguage

/-- The letters that mean something by themselves. `R` and `U` have two meanings each: a roll when
an operand follows, and a rounded division otherwise. -/
inductive Letter where
  | d
  | b
  | r
  | u
  | s
  | c
deriving DecidableEq, Repr

inductive TokenKind where
  | illegal
  | endOfText
  | integer
  | word
  | plus
  | minus
  | times
  | slash
  | relation (relation : Relation)
  | leftParen
  | rightParen
  | leftBracket
  | rightBracket
  | comma
  | ellipsis
  | letter (letter : Letter)
deriving DecidableEq, Repr

namespace Letter

def symbol : Letter → String
  | d => "D"
  | b => "B"
  | r => "R"
  | u => "U"
  | s => "S"
  | c => "C"

def ofChar? : Char → Option Letter
  | 'D' | 'd' => some d
  | 'B' | 'b' => some b
  | 'R' | 'r' => some r
  | 'U' | 'u' => some u
  | 'S' | 's' => some s
  | 'C' | 'c' => some c
  | _ => none

end Letter

namespace TokenKind

def description : TokenKind → String
  | illegal => "<illegal>"
  | endOfText => "<end of text>"
  | integer => "<integer>"
  | word => "<identifier>"
  | plus => "'+'"
  | minus => "'-'"
  | times => "'*'"
  | slash => "'/'"
  | relation r => "'" ++ r.symbol ++ "'"
  | leftParen => "'('"
  | rightParen => "')'"
  | leftBracket => "'['"
  | rightBracket => "']'"
  | comma => "','"
  | ellipsis => "'...'"
  | letter l => "'" ++ l.symbol ++ "'"

def operandStarts : List TokenKind := [integer, leftParen, leftBracket]

def startsOperand (kind : TokenKind) : Bool := operandStarts.contains kind

end TokenKind

structure Token where
  kind : TokenKind
  literal : String
  /-- The blank text between the token before and this one. -/
  gap : String
  /-- The number of characters before the token, plus one. -/
  column : Nat
  /-- The number of bytes before the token. -/
  offset : Nat
deriving DecidableEq, Repr

namespace Token

def stop (token : Token) : Nat := token.offset + token.literal.utf8ByteSize

def spells (token : Token) (word : String) : Bool :=
  token.kind == .word && token.literal.toList.map Char.toLower == word.toList

def span (token : Token) : List Char := token.gap.toList ++ token.literal.toList

end Token

structure Tokens where
  body : List Token
  last : Token
deriving DecidableEq, Repr

def Tokens.toList (tokens : Tokens) : List Token := tokens.body ++ [tokens.last]

end DiceLanguage
