import DiceLanguage.Grammar.Error
import DiceLanguage.Node

namespace DiceLanguage

/-- What a rule has read, with fewer than `n` tokens left to read. -/
structure Step (α : Type) (n : Nat) where
  value : α
  rest : List Token
  shorter : rest.length < n

namespace Grammar

structure Context where
  last : Token
  /-- Neither dice nor random numbers are allowed. -/
  constantOnly : Bool := false

def Context.unexpected (context : Context) (tokens : List Token) (expected : List TokenKind) :
    ParseError :=
  let found := tokens.headD context.last
  .of found (if found.kind = .illegal then .illegalToken
    else .unexpectedToken found.kind expected)

def expect (context : Context) (kind : TokenKind) :
    (tokens : List Token) → Except ParseError (Step Token tokens.length)
  | [] => .error (context.unexpected [] [kind])
  | token :: rest =>
    if token.kind = kind then .ok ⟨token, rest, Nat.lt_succ_self _⟩
    else .error (context.unexpected (token :: rest) [kind])

def integer (token : Token) : Except ParseError Node :=
  match checked (Nat.ofDigitChars 10 token.literal.toList 0) with
  | some x => .ok (.int x)
  | none => .error (.of token .integerOverflow)

def operandFollows (tokens : List Token) : Bool :=
  tokens.head?.any (·.kind.startsOperand)

/-- The family of the roll that a token calls for, given the tokens behind it. -/
def rollKind? (token : Token) (rest : List Token) : Option RollKind :=
  match token.kind with
  | .letter .d => some .sum
  | .letter .b => some .scatter
  | .letter .r => if operandFollows rest then some .reroll else none
  | .letter .u => if operandFollows rest then some .compound else none
  | _ => none

def rounding : (tokens : List Token) → Step Rounding (tokens.length + 1)
  | [] => ⟨.down, [], Nat.lt_succ_self _⟩
  | token :: rest =>
    match token.kind with
    | .letter .r => ⟨.nearest, rest, by simp only [List.length_cons]; omega⟩
    | .letter .u => ⟨.up, rest, by simp only [List.length_cons]; omega⟩
    | _ => ⟨.down, token :: rest, Nat.lt_succ_self _⟩

mutual

def sum (context : Context) (tokens : List Token) :
    Except ParseError (Step Node tokens.length) := do
  let ⟨first, rest₁, h₁⟩ ← product context tokens
  let ⟨node, rest₂, h₂⟩ ← sumTail context first rest₁
  return ⟨node, rest₂, by omega⟩
termination_by 8 * tokens.length + 6

def sumTail (context : Context) (left : Node) (tokens : List Token) :
    Except ParseError (Step Node (tokens.length + 1)) :=
  match tokens with
  | [] => return ⟨left, [], Nat.lt_succ_self _⟩
  | token :: rest =>
    match token.kind with
    | .plus => do
      let ⟨right, rest₁, h₁⟩ ← product context rest
      let ⟨node, rest₂, h₂⟩ ← sumTail context (.binary .add left right) rest₁
      return ⟨node, rest₂, by simp only [List.length_cons]; omega⟩
    | .minus => do
      let ⟨right, rest₁, h₁⟩ ← product context rest
      let ⟨node, rest₂, h₂⟩ ← sumTail context (.binary .subtract left right) rest₁
      return ⟨node, rest₂, by simp only [List.length_cons]; omega⟩
    | _ => return ⟨left, token :: rest, Nat.lt_succ_self _⟩
termination_by 8 * tokens.length

def product (context : Context) (tokens : List Token) :
    Except ParseError (Step Node tokens.length) := do
  let ⟨first, rest₁, h₁⟩ ← signed context tokens
  let ⟨node, rest₂, h₂⟩ ← productTail context first rest₁
  return ⟨node, rest₂, by omega⟩
termination_by 8 * tokens.length + 5

def productTail (context : Context) (left : Node) (tokens : List Token) :
    Except ParseError (Step Node (tokens.length + 1)) :=
  match tokens with
  | [] => return ⟨left, [], Nat.lt_succ_self _⟩
  | token :: rest =>
    match token.kind with
    | .times => do
      let ⟨right, rest₁, h₁⟩ ← signed context rest
      let ⟨node, rest₂, h₂⟩ ← productTail context (.binary .multiply left right) rest₁
      return ⟨node, rest₂, by simp only [List.length_cons]; omega⟩
    | .slash => do
      let ⟨right, rest₁, h₁⟩ ← signed context rest
      let ⟨method, rest₂, h₂⟩ := rounding rest₁
      let ⟨node, rest₃, h₃⟩ ←
        productTail context (.binary (.divide method) left right) rest₂
      return ⟨node, rest₃, by simp only [List.length_cons]; omega⟩
    | _ => return ⟨left, token :: rest, Nat.lt_succ_self _⟩
termination_by 8 * tokens.length

def signed (context : Context) (tokens : List Token) :
    Except ParseError (Step Node tokens.length) :=
  match tokens with
  | [] => rolls context []
  | token :: rest =>
    if token.kind = .minus then do
      let ⟨operand, rest₁, h₁⟩ ← signed context rest
      return ⟨.neg operand, rest₁, by simp only [List.length_cons]; omega⟩
    else rolls context (token :: rest)
termination_by 8 * tokens.length + 4

def rolls (context : Context) (tokens : List Token) :
    Except ParseError (Step Node tokens.length) := do
  let ⟨first, rest₁, h₁⟩ ← operand context tokens
  let ⟨node, rest₂, h₂⟩ ← rollsTail context first rest₁
  return ⟨node, rest₂, by omega⟩
termination_by 8 * tokens.length + 3

def rollsTail (context : Context) (count : Node) (tokens : List Token) :
    Except ParseError (Step Node (tokens.length + 1)) :=
  match tokens with
  | [] => return ⟨count, [], Nat.lt_succ_self _⟩
  | token :: rest =>
    match rollKind? token rest with
    | none => return ⟨count, token :: rest, Nat.lt_succ_self _⟩
    | some kind =>
      if context.constantOnly then throw (.of token .diceInCalculation)
      else do
        let ⟨sides, rest₁, h₁⟩ ← operand context rest
        let ⟨limit, rest₂, h₂⟩ ← threshold context kind rest₁
        let roll := Roll.toNode ⟨kind, count, sides, limit⟩
        let ⟨node, rest₃, h₃⟩ ← rollsTail context roll rest₂
        return ⟨node, rest₃, by simp only [List.length_cons]; omega⟩
termination_by 8 * tokens.length

def threshold (context : Context) (kind : RollKind) (tokens : List Token) :
    Except ParseError (Step (Option Node) (tokens.length + 1)) :=
  match tokens with
  | [] => return ⟨none, [], Nat.lt_succ_self _⟩
  | token :: rest =>
    if kind.takesThreshold && token.kind = .leftBracket then do
      let ⟨limit, rest₁, h₁⟩ ← sum context rest
      let ⟨_, rest₂, h₂⟩ ← expect context .rightBracket rest₁
      return ⟨some limit, rest₂, by simp only [List.length_cons]; omega⟩
    else return ⟨none, token :: rest, Nat.lt_succ_self _⟩
termination_by 8 * tokens.length

def operand (context : Context) (tokens : List Token) :
    Except ParseError (Step Node tokens.length) :=
  match tokens with
  | [] => throw (context.unexpected [] TokenKind.operandStarts)
  | token :: rest =>
    match token.kind with
    | .integer => do
      let value ← integer token
      return ⟨value, rest, Nat.lt_succ_self _⟩
    | .leftParen => do
      let ⟨inner, rest₁, h₁⟩ ← sum context rest
      let ⟨_, rest₂, h₂⟩ ← expect context .rightParen rest₁
      return ⟨inner, rest₂, by simp only [List.length_cons]; omega⟩
    | .leftBracket =>
      if context.constantOnly then throw (.of token .randomNumberInCalculation)
      else do
        let ⟨least, rest₁, h₁⟩ ← sum context rest
        let ⟨_, rest₂, h₂⟩ ← expect context .ellipsis rest₁
        let ⟨greatest, rest₃, h₃⟩ ← sum context rest₂
        let ⟨_, rest₄, h₄⟩ ← expect context .rightBracket rest₃
        return ⟨.random least greatest, rest₄, by simp only [List.length_cons]; omega⟩
    | _ => throw (context.unexpected (token :: rest) TokenKind.operandStarts)
termination_by 8 * tokens.length + 2

end

end Grammar

end DiceLanguage
