import DiceLanguage.Grammar.Command
import DiceLanguage.Grammar.Expression
import DiceLanguage.Token.Scan

namespace DiceLanguage

namespace Grammar

inductive Shape where
  | calculation
  | choice
  | rolls
deriving DecidableEq, Repr

/-- What the first tokens of a text announce, and the tokens behind them: behind the opening
bracket of a calculation or a choice, behind the secret mark of a roll command. -/
structure Lead where
  secret : Bool
  shape : Shape
  rest : List Token

def Lead.ofCommand (secret : Bool) : List Token → Lead
  | first :: second :: rest =>
    if first.kind = .letter .c ∧ second.kind = .leftParen then ⟨secret, .calculation, rest⟩
    else if first.spells "choice" ∧ second.kind = .leftBracket then ⟨secret, .choice, rest⟩
    else ⟨secret, .rolls, first :: second :: rest⟩
  | tokens => ⟨secret, .rolls, tokens⟩

def Lead.ofMarked : List Token → Lead
  | first :: rest =>
    if first.kind = .letter .s then Lead.ofCommand true rest
    else Lead.ofCommand false (first :: rest)
  | [] => Lead.ofCommand false []

def Lead.ofTokens : List Token → Lead
  | first :: second :: rest =>
    if first.spells "schoice" ∧ second.kind = .leftBracket then ⟨true, .choice, rest⟩
    else if first.spells "sc" ∧ second.kind = .leftParen then ⟨true, .calculation, rest⟩
    else Lead.ofMarked (first :: second :: rest)
  | tokens => Lead.ofMarked tokens

def calculation (last : Token) (tokens : List Token) :
    Except ParseError (Command × List Token) := do
  let ⟨expr, rest₁, _⟩ ← sum { last, constantOnly := true } tokens
  let ⟨_, rest₂, _⟩ ← expect { last } .rightParen rest₁
  return (.calculation expr, rest₂)

def endsItem (token : Token) : Bool :=
  token.kind == .comma || token.kind == .rightBracket

def itemText (tokens : List Token) : String :=
  String.ofList (Text.trim (tokens.flatMap Token.span))

def choiceItems (last : Token) (tokens : List Token) :
    Except ParseError (NonEmptyList String × List Token) :=
  let item := tokens.takeWhile (!endsItem ·)
  match _remaining : tokens.dropWhile (!endsItem ·) with
  | [] => throw (Context.unexpected { last } [] [.comma, .rightBracket])
  | delimiter :: rest =>
    let text := itemText item
    if text = "" then throw (.of (item.headD delimiter) .emptyChoiceItem)
    else if delimiter.kind = .comma then do
      let (items, rest) ← choiceItems last rest
      return (items.cons text, rest)
    else return (⟨text, []⟩, rest)
termination_by tokens.length
decreasing_by
  have shorter := (List.dropWhile_suffix (!endsItem ·) (l := tokens)).length_le
  rw [_remaining, List.length_cons] at shorter
  exact shorter

def choice (last : Token) (tokens : List Token) : Except ParseError (Command × List Token) := do
  let (items, rest) ← choiceItems last tokens
  return (.choice items, rest)

def relation? : List Token → Option (Relation × List Token)
  | ⟨.relation relation, _, _, _, _⟩ :: rest => some (relation, rest)
  | _ => none

def comparison (last : Token) (tokens : List Token) :
    Except ParseError (Option Comparison × List Token) :=
  match relation? tokens with
  | none => return (none, tokens)
  | some (relation, rest) => do
    let ⟨target, rest, _⟩ ← sum { last } rest
    if (relation? rest).isSome then throw (.of (rest.headD last) .chainedComparison)
    return (some ⟨relation, target⟩, rest)

/-- Reads a roll command. What is wrong with it as a whole shows at its first token. -/
def rollCommand (last : Token) (tokens : List Token) :
    Except ParseError (Command × List Token) := do
  let ⟨expr, rest, _⟩ ← sum { last } tokens
  let (check, rest) ← comparison last rest
  let command ← (Command.ofExpression expr check).mapError (.of (tokens.headD last))
  return (command, rest)

def command (last : Token) : Shape → List Token → Except ParseError (Command × List Token)
  | .calculation => calculation last
  | .choice => choice last
  | .rolls => rollCommand last

def statement (tokens : Tokens) : Except ParseError Statement := do
  let lead := Lead.ofTokens tokens.body
  let (command, rest) ← command tokens.last lead.shape lead.rest
  if rest ≠ [] then throw (Context.unexpected { last := tokens.last } rest [.endOfText])
  return ⟨command, lead.secret⟩

end Grammar

def Statement.parse (text : String) : Except ParseError Statement :=
  Grammar.statement (Tokens.ofText text)

end DiceLanguage
