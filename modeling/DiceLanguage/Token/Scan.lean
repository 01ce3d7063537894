import DiceLanguage.Text.Blank
import DiceLanguage.Token

namespace DiceLanguage

def byteLength : List Char → Nat
  | [] => 0
  | c :: rest => c.utf8Size + byteLength rest

/-- A place in a text, in characters (from one) and in bytes (from zero). -/
structure Position where
  column : Nat := 1
  offset : Nat := 0
deriving DecidableEq, Repr

def Position.after (start : Position) (text : List Char) : Position :=
  ⟨start.column + text.length, start.offset + byteLength text⟩

structure Lexeme where
  kind : TokenKind
  text : List Char
  rest : List Char
deriving DecidableEq, Repr

namespace Lexeme

def wordKind : List Char → TokenKind
  | [c] => ((Letter.ofChar? c).map TokenKind.letter).getD .word
  | _ => .word

def symbolKind : Char → TokenKind
  | '+' => .plus
  | '-' => .minus
  | '*' => .times
  | '/' => .slash
  | '=' => .relation .equal
  | '<' => .relation .less
  | '>' => .relation .greater
  | '(' => .leftParen
  | ')' => .rightParen
  | '[' => .leftBracket
  | ']' => .rightBracket
  | ',' => .comma
  | _ => .illegal

def symbol : Char → List Char → Lexeme
  | '<', '>' :: rest => ⟨.relation .notEqual, ['<', '>'], rest⟩
  | '<', '=' :: rest => ⟨.relation .atMost, ['<', '='], rest⟩
  | '>', '=' :: rest => ⟨.relation .atLeast, ['>', '='], rest⟩
  | '.', '.' :: '.' :: rest => ⟨.ellipsis, ['.', '.', '.'], rest⟩
  | '.', '.' :: rest => ⟨.illegal, ['.', '.'], rest⟩
  | c, rest => ⟨symbolKind c, [c], rest⟩

def first (c : Char) (rest : List Char) : Lexeme :=
  if c.isDigit then ⟨.integer, c :: rest.takeWhile Char.isDigit, rest.dropWhile Char.isDigit⟩
  else if c.isAlpha then
    let letters := c :: rest.takeWhile Char.isAlpha
    ⟨wordKind letters, letters, rest.dropWhile Char.isAlpha⟩
  else symbol c rest

theorem symbol_text_append_rest (c : Char) (rest : List Char) :
    (symbol c rest).text ++ (symbol c rest).rest = c :: rest := by
  unfold symbol; split <;> rfl

theorem first_text_append_rest (c : Char) (rest : List Char) :
    (first c rest).text ++ (first c rest).rest = c :: rest := by
  unfold first
  split
  · simp [List.takeWhile_append_dropWhile]
  · split
    · simp [List.takeWhile_append_dropWhile]
    · exact symbol_text_append_rest c rest

theorem length_symbol_rest (c : Char) (rest : List Char) :
    (symbol c rest).rest.length ≤ rest.length := by
  unfold symbol; split <;> simp only [List.length_cons] <;> omega

theorem length_first_rest (c : Char) (rest : List Char) :
    (first c rest).rest.length ≤ rest.length := by
  unfold first
  split
  · exact (List.dropWhile_suffix _).length_le
  · split
    · exact (List.dropWhile_suffix _).length_le
    · exact length_symbol_rest c rest

end Lexeme

namespace Tokens

def scan (start : Position) (text : List Char) : Tokens :=
  let gap := text.takeWhile Text.isGap
  let place := start.after gap
  match _remaining : text.dropWhile Text.isGap with
  | [] => ⟨[], ⟨.endOfText, "", String.ofList gap, place.column, place.offset⟩⟩
  | c :: rest =>
    let lexeme := Lexeme.first c rest
    let token : Token :=
      ⟨lexeme.kind, String.ofList lexeme.text, String.ofList gap, place.column, place.offset⟩
    let tokens := scan (place.after lexeme.text) lexeme.rest
    ⟨token :: tokens.body, tokens.last⟩
termination_by text.length
decreasing_by
  have shorter := (List.dropWhile_suffix Text.isGap (l := text)).length_le
  rw [_remaining, List.length_cons] at shorter
  exact Nat.lt_of_lt_of_le (Nat.lt_succ_of_le (Lexeme.length_first_rest c rest)) shorter

def ofText (text : String) : Tokens := scan {} text.toList

end Tokens

end DiceLanguage
