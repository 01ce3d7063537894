import DiceLanguage.Proofs.Grammar.Statement
import DiceLanguage.Proofs.Node.Written
import DiceLanguage.Proofs.Token.Cover

namespace DiceLanguage

open Grammar

/-- A place for a part in the text of a tree: what is written before and behind it, whether the part
is enclosed, whether it is written as at the left edge, and the rule by which it is read there. -/
structure Slot where
  rule : Rule
  before : List Char
  wrap : Bool
  edge : Bool
  after : List Char

namespace Slot

def opening (slot : Slot) : List Char := if slot.wrap then ['('] else []

def closing (slot : Slot) : List Char := if slot.wrap then [')'] else []

end Slot

namespace Node

/-- The text of the tree has a place for the part. -/
inductive Holds : Node → Bool → Slot → Node → Prop
  | operand (x : Node) (edge : Bool) :
    Holds (neg x) edge ⟨.signed, ['-'], !x.negatesBare, true, []⟩ x
  | left (op : BinaryOp) (x y : Node) (edge : Bool) :
    Holds (binary op x y) edge ⟨op.sideRule .left, [], op.encloses .left edge x,
      op.encloses .left edge x || edge, op.symbol.toList ++
        ((enclosed (op.encloses .right false y) (y.printAt (op.encloses .right false y))).toList ++
          op.suffix.toList)⟩ x
  | right (op : BinaryOp) (x y : Node) (edge : Bool) :
    Holds (binary op x y) edge ⟨op.sideRule .right,
      (enclosed (op.encloses .left edge x) (x.printAt (op.encloses .left edge x || edge))).toList ++
        op.symbol.toList, op.encloses .right false y, op.encloses .right false y,
      op.suffix.toList⟩ y
  | least (x y : Node) (edge : Bool) :
    Holds (random x y) edge ⟨.sum, ['['], false, true, "...".toList ++ ((y.printAt true).toList ++
      [']'])⟩ x
  | greatest (x y : Node) (edge : Bool) :
    Holds (random x y) edge ⟨.sum, '[' :: ((x.printAt true).toList ++ "...".toList), false, true,
      [']']⟩ y
  | count (kind : RollKind) (x y : Node) (edge : Bool) :
    Holds (roll kind x y) edge ⟨.rolls, [], !x.rollsBare .left, true, kind.letter.symbol.toList ++
      (enclosed (!y.rollsBare .right) (y.printAt true)).toList⟩ x
  | sides (kind : RollKind) (x y : Node) (edge : Bool) :
    Holds (roll kind x y) edge ⟨.operand, (enclosed (!x.rollsBare .left) (x.printAt true)).toList ++
      kind.letter.symbol.toList, !y.rollsBare .right, true, []⟩ y

/-- A pair of parentheses around a part is written between the two texts. -/
inductive Encloses : Node → Bool → List Char → Node → List Char → Prop
  | here {node part : Node} {edge : Bool} {slot : Slot} (holds : node.Holds edge slot part)
    (wrap : slot.wrap = true) : Encloses node edge slot.before part slot.after
  | inside {node x part : Node} {edge : Bool} {slot : Slot} {before after : List Char}
    (holds : node.Holds edge slot x) (inner : Encloses x slot.edge before part after) :
    Encloses node edge (slot.before ++ (slot.opening ++ before)) part
      (after ++ (slot.closing ++ slot.after))

variable {node part x y : Node} {edge : Bool} {slot : Slot}

theorem Holds.plain (holds : node.Holds edge slot x) (plain : node.IsPlain) : x.IsPlain := by
  cases holds with
  | operand => exact plain
  | left => exact plain.2.1
  | right => exact plain.2.2
  | least => exact plain.1
  | greatest => exact plain.2
  | count => exact plain.2.1
  | sides => exact plain.2.2

theorem Holds.edge_of_wrap (holds : node.Holds edge slot x) (wrap : slot.wrap = true) :
    slot.edge = true := by
  cases holds with
  | left op x y => exact Bool.or_eq_true_iff.mpr (.inl wrap)
  | right => exact wrap
  | operand | least | greatest | count | sides => rfl

theorem Encloses.plain {before after : List Char} (encloses : node.Encloses edge before part after)
    (plain : node.IsPlain) : part.IsPlain := by
  induction encloses with
  | here holds => exact holds.plain plain
  | inside holds _ ih => exact ih (holds.plain plain)

theorem skip_free {text rest before behind : List Char} (free : '(' ∉ text)
    (same : text ++ rest = before ++ '(' :: behind) :
    ∃ front, before = text ++ front ∧ rest = front ++ '(' :: behind := by
  rcases append_eq_append_cons same with ⟨more, within, -⟩ | outside
  · exact absurd (by rw [within]; simp) free
  · exact outside

theorem Holds.of_paren {before behind : List Char} (holds : node.Holds edge slot x)
    (ih : ∀ {before behind}, (x.printAt slot.edge).toList = before ++ '(' :: behind →
      ∃ part after, x.Encloses slot.edge before part after ∧
        behind = (part.printAt true).toList ++ ')' :: after)
    (inside : (enclosed slot.wrap (x.printAt slot.edge)).toList = before ++ '(' :: behind) :
    ∃ part after, node.Encloses edge (slot.before ++ before) part after ∧
      behind ++ slot.after = (part.printAt true).toList ++ ')' :: after := by
  cases wrap : slot.wrap with
  | false =>
    rw [wrap] at inside
    obtain ⟨part, after, inner, rfl⟩ := ih inside
    have around := Encloses.inside holds inner
    simp only [Slot.opening, Slot.closing, wrap] at around
    exact ⟨part, after ++ slot.after, around, by simp⟩
  | true =>
    have whole : (enclosed slot.wrap (x.printAt slot.edge)).toList =
        '(' :: ((x.printAt slot.edge).toList ++ [')']) := by
      simp [wrap, enclosed]
    rw [whole] at inside
    cases before with
    | nil =>
      cases inside
      rw [holds.edge_of_wrap wrap, List.append_nil]
      exact ⟨x, slot.after, .here holds wrap, by simp⟩
    | cons c before =>
      obtain ⟨rfl, behindFirst⟩ := List.cons.inj inside
      rcases append_eq_append_cons behindFirst with ⟨more, within, rfl⟩ | ⟨front, -, last⟩
      · obtain ⟨part, after, inner, rfl⟩ := ih within
        have around := Encloses.inside holds inner
        simp only [Slot.opening, Slot.closing, wrap] at around
        exact ⟨part, after ++ ([')'] ++ slot.after), around, by simp⟩
      · have member : '(' ∈ [')'] := by rw [last]; simp
        simp at member

theorem encloses_of_paren {before behind : List Char} (plain : node.IsPlain)
    (same : (node.printAt edge).toList = before ++ '(' :: behind) :
    ∃ part after, node.Encloses edge before part after ∧
      behind = (part.printAt true).toList ++ ')' :: after := by
  induction node generalizing edge before behind with
  | int v =>
    have member : '(' ∈ ((int v).printAt edge).toList := by rw [same]; simp
    rw [printAt, Text.decimal, if_neg (Int.not_lt.mpr plain.1)] at member
    have digit := isDigit_of_mem_repr member
    cases digit
  | neg x ih =>
    rw [printAt, String.toList_append] at same
    obtain ⟨front, rfl, inside⟩ := skip_free (by simp) same
    obtain ⟨part, after, around, rest⟩ := (Holds.operand x edge).of_paren (ih plain) inside
    exact ⟨part, after, by simpa using around, by simpa using rest⟩
  | binary op x y ihx ihy =>
    have noSymbol : '(' ∉ op.symbol.toList := by
      cases op with
      | compare => exact absurd rfl plain.1
      | _ => simp [BinaryOp.symbol]
    have noSuffix : '(' ∉ op.suffix.toList := by
      cases op with
      | divide rounding => cases rounding <;> simp [BinaryOp.suffix, Rounding.suffix]
      | _ => simp [BinaryOp.suffix]
    simp only [printAt, String.toList_append, List.append_assoc] at same
    rcases append_eq_append_cons same with ⟨more, inLeft, rfl⟩ | ⟨front, rfl, behindLeft⟩
    · exact (Holds.left op x y edge).of_paren (ihx plain.2.1) inLeft
    obtain ⟨front, rfl, behindSymbol⟩ := skip_free noSymbol behindLeft
    rcases append_eq_append_cons behindSymbol with ⟨more, inRight, rfl⟩ | ⟨front, -, inSuffix⟩
    · obtain ⟨part, after, around, rest⟩ :=
        (Holds.right op x y edge).of_paren (ihy plain.2.2) inRight
      exact ⟨part, after, by simpa using around, rest⟩
    · exact absurd (by rw [inSuffix]; simp) noSuffix
  | random x y ihx ihy =>
    simp only [printAt, String.toList_append, List.append_assoc] at same
    obtain ⟨front, rfl, behindOpening⟩ := skip_free (by simp) same
    rcases append_eq_append_cons behindOpening with ⟨more, inLeast, rfl⟩ | ⟨front, rfl, behindLeast⟩
    · obtain ⟨part, after, around, rest⟩ := (Holds.least x y edge).of_paren (ihx plain.1) inLeast
      exact ⟨part, after, by simpa using around, by simpa using rest⟩
    obtain ⟨front, rfl, behindDots⟩ := skip_free (by simp) behindLeast
    rcases append_eq_append_cons behindDots with ⟨more, inGreatest, rfl⟩ | ⟨front, -, inClosing⟩
    · obtain ⟨part, after, around, rest⟩ :=
        (Holds.greatest x y edge).of_paren (ihy plain.2) inGreatest
      exact ⟨part, after, by simpa using around, by simpa using rest⟩
    · have member : '(' ∈ "]".toList := by rw [inClosing]; simp
      simp at member
  | roll kind x y ihx ihy =>
    have noLetter : '(' ∉ kind.letter.symbol.toList := by
      cases kind <;> simp [RollKind.letter, Letter.symbol]
    simp only [printAt, String.toList_append, List.append_assoc] at same
    rcases append_eq_append_cons same with ⟨more, inCount, rfl⟩ | ⟨front, rfl, behindCount⟩
    · exact (Holds.count kind x y edge).of_paren (ihx plain.2.1) inCount
    obtain ⟨front, rfl, inSides⟩ := skip_free noLetter behindCount
    obtain ⟨part, after, around, rest⟩ :=
      (Holds.sides kind x y edge).of_paren (ihy plain.2.2) inSides
    exact ⟨part, after, by simpa using around, by simpa using rest⟩
  | thresholdRoll | rolled => exact plain.elim

theorem eq_of_print_closed (plainLeft : x.IsPlain) (plainRight : y.IsPlain)
    {after after' : List Char}
    (same : x.print.toList ++ ')' :: after = y.print.toList ++ ')' :: after') : x = y := by
  -- The parser reads the text as either expression, and it reads it as one.
  let context : Context := { last := ⟨.endOfText, "", "", 0, 0⟩ }
  have reads {x : Node} (plain : x.IsPlain) (after : List Char) : ∃ rest,
      outcome (sum context (Tokens.scan {} (x.print.toList ++ ')' :: after)).body) =
        .ok (x, rest) := by
    have written : Writes .sum x.print.toList x := (writes_plain plain true).widen (Nat.zero_le _)
    obtain ⟨tokens, derives, cut⟩ := written.spells {} (')' :: after)
      (written.apart_behind after rfl (.inl rfl))
    have bracket : Spells [')'] (Single .rightParen [')']) := .symbol rfl rfl rfl
    obtain ⟨_, ⟨closing, rfl, closes, -⟩, behind⟩ := bracket (Position.after {} x.print.toList)
      after (apart_behind_bracket (.inr (.inl rfl)) [] after)
    rw [List.singleton_append] at behind
    rw [behind] at cut
    generalize (Tokens.scan _ after).body = others at cut
    have closed : ∀ token ∈ (closing :: others).head?, Closes token.kind := by
      intro token first
      cases first
      exact .inl closes
    obtain ⟨_, read⟩ := derives.sum_read context nofun closed cut
    exact ⟨_, by rw [read]; rfl⟩
  obtain ⟨_, read⟩ := reads plainLeft after
  obtain ⟨_, read'⟩ := reads plainRight after'
  rw [same, read'] at read
  cases read
  rfl

end Node

end DiceLanguage
