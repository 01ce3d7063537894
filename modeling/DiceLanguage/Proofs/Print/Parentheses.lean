import DiceLanguage.Proofs.Node.Written
import DiceLanguage.Proofs.Token.Cover
import Mathlib.Data.List.Forall2

namespace DiceLanguage

open Grammar

/-- The numbers of opening parentheses before the signs from some place on and at the end, if so
many have been opened there since the last sign. -/
abbrev Tally := Nat → List Nat

def isSign (c : Char) : Bool := !(c == '(' || c == ')' || c.isDigit || Text.isGap c)

namespace Tally

def last : Tally := fun k => [k]

def opened (n : Nat) (rest : Tally) : Tally := fun k => rest (k + n)

def sign (rest : Tally) : Tally := fun k => k :: rest 0

def ofChar (c : Char) (rest : Tally) : Tally :=
  if c = '(' then opened 1 rest else if isSign c then sign rest else rest

def ofText (text : List Char) (rest : Tally) : Tally := text.foldr ofChar rest

def ofTokens (tokens : List Token) (rest : Tally) : Tally :=
  tokens.foldr (fun token => ofText token.literal.toList) rest

abbrev AtMost (counts others : List Nat) : Prop := List.Forall₂ (· ≤ ·) counts others

def Below (f g : Tally) : Prop := ∀ j k, j ≤ k → AtMost (f j) (g k)

variable {f g rest : Tally} {m n : Nat} {text : List Char}

@[simp] theorem ofText_nil : ofText [] rest = rest := rfl

@[simp] theorem ofText_cons (c : Char) :
    ofText (c :: text) rest = ofChar c (ofText text rest) := rfl

@[simp] theorem ofText_append (left right : List Char) :
    ofText (left ++ right) rest = ofText left (ofText right rest) := List.foldr_append

@[simp] theorem ofTokens_nil : ofTokens [] rest = rest := rfl

@[simp] theorem ofTokens_cons (token : Token) (tokens : List Token) :
    ofTokens (token :: tokens) rest = ofText token.literal.toList (ofTokens tokens rest) := rfl

@[simp] theorem ofTokens_append (left right : List Token) :
    ofTokens (left ++ right) rest = ofTokens left (ofTokens right rest) := List.foldr_append

theorem ofChar_sign {c : Char} (isSign : isSign c = true) : ofChar c rest = sign rest := by
  have other : c ≠ '(' := by
    intro same
    rw [same] at isSign
    cases isSign
  rw [ofChar, if_neg other, if_pos isSign]

theorem ofText_silent (silent : ∀ c ∈ text, c ≠ '(' ∧ isSign c = false) :
    ofText text rest = rest := by
  induction text with
  | nil => rfl
  | cons c text ih =>
    obtain ⟨first, others⟩ := List.forall_mem_cons.mp silent
    rw [ofText_cons, ih others, ofChar, if_neg first.1, if_neg (by simp [first.2])]

theorem ofText_gap (blank : ∀ c ∈ text, Text.isGap c = true) : ofText text rest = rest := by
  apply ofText_silent
  intro c member
  refine ⟨?_, by simp [isSign, blank c member]⟩
  intro same
  have gap := blank c member
  rw [same] at gap
  cases gap

theorem ofText_digits (digits : ∀ c ∈ text, c.isDigit = true) : ofText text rest = rest := by
  apply ofText_silent
  intro c member
  refine ⟨?_, by simp [isSign, digits c member]⟩
  intro same
  have digit := digits c member
  rw [same] at digit
  cases digit

theorem isSign_of_isAlpha {c : Char} (alpha : c.isAlpha = true) : isSign c = true := by
  have noOpen : c ≠ '(' := by rintro rfl; cases alpha
  have noClose : c ≠ ')' := by rintro rfl; cases alpha
  simp [isSign, noOpen, noClose, Lexeme.not_isDigit_of_isAlpha alpha,
    Lexeme.not_isGap_of_isAlpha alpha]

theorem Below.opened (below : Below f g) (le : m ≤ n) : Below (opened m f) (opened n g) :=
  fun j k within => below (j + m) (k + n) (Nat.add_le_add within le)

theorem Below.sign (below : Below f g) : Below (sign f) (sign g) :=
  fun _ _ within => .cons within (below 0 0 (Nat.le_refl 0))

theorem Below.ofText (below : Below f g) (text : List Char) :
    Below (ofText text f) (ofText text g) := by
  induction text with
  | nil => exact below
  | cons c text ih =>
    rw [ofText_cons, ofText_cons, ofChar, ofChar]
    split
    · exact ih.opened (Nat.le_refl 1)
    split
    · exact ih.sign
    · exact ih

theorem Below.last : Below last last := fun _ _ within => .cons within .nil

theorem ofTokens_scan (start : Position) (text : List Char) :
    ofTokens (Tokens.scan start text).body rest = ofText text rest := by
  fun_induction Tokens.scan start text with
  | case1 start text gap place empty =>
    have whole : text = gap ++ [] := empty ▸ List.takeWhile_append_dropWhile.symm
    rw [whole, List.append_nil, ofText_gap (List.all_eq_true.mp List.all_takeWhile)]
    rfl
  | case2 start text gap place c more behind lexeme token tokens ih =>
    have whole : text = gap ++ (c :: more) := behind ▸ List.takeWhile_append_dropWhile.symm
    rw [whole, ofText_append, ofText_gap (List.all_eq_true.mp List.all_takeWhile),
      ← Lexeme.first_text_append_rest c more, ofText_append, ofTokens_cons, ih,
      String.toList_ofList]

end Tally

/-- The number of pairs of parentheses that a tree needs around it to be read by the rule. -/
def Node.pairs (rule : Rule) (node : Node) : Nat := if node.rule.rank < rule.rank then 1 else 0

open Tally in
/-- The numbers of opening parentheses that the tree needs before its signs. -/
def Node.needs : Node → Tally → Tally
  | int _, rest | rolled _, rest => rest
  | neg x, rest => sign (opened (x.pairs .signed) (x.needs rest))
  | binary op x y, rest =>
    opened (x.pairs (op.sideRule .left)) (x.needs (ofText op.symbol.toList
      (opened (y.pairs (op.sideRule .right)) (y.needs (ofText op.suffix.toList rest)))))
  | random x y, rest => sign (x.needs (ofText "...".toList (y.needs (sign rest))))
  | roll _ x y, rest =>
    opened (x.pairs .rolls) (x.needs (sign (opened (y.pairs .operand) (y.needs rest))))
  | thresholdRoll _ x y z, rest =>
    opened (x.pairs .rolls) (x.needs (sign (opened (y.pairs .operand) (y.needs
      (sign (z.needs (sign rest)))))))

namespace Tally

variable {f g rest : Tally} {token : Token}

def Spelled (token : Token) : Prop :=
  token.kind ≠ .illegal → token.kind.Matches token.literal.toList

theorem spelled_of_scan (start : Position) (text : List Char) :
    ∀ token ∈ (Tokens.scan start text).body, Spelled token := by
  intro token member
  obtain ⟨before, behind, -, -, longest⟩ := (Tokens.scan_laid start text).body_stands member
  exact longest.matches_kind

theorem ofText_letter (spelled : Spelled token) {letter : Letter}
    (kind : token.kind = .letter letter) : ofText token.literal.toList rest = sign rest := by
  have fits := spelled (by rw [kind]; exact nofun)
  rw [kind] at fits
  obtain ⟨c, same, found⟩ := fits
  rw [same, ofText_cons, ofText_nil,
    ofChar_sign (isSign_of_isAlpha (Lexeme.isAlpha_of_ofChar? found))]

theorem ofText_integer (spelled : Spelled token) (kind : token.kind = .integer) :
    ofText token.literal.toList rest = rest := by
  have fits := spelled (by rw [kind]; exact nofun)
  rw [kind] at fits
  exact ofText_digits fits.2

def fixedText? : TokenKind → Option (List Char)
  | .plus => some ['+']
  | .minus => some ['-']
  | .times => some ['*']
  | .slash => some ['/']
  | .leftParen => some ['(']
  | .rightParen => some [')']
  | .leftBracket => some ['[']
  | .rightBracket => some [']']
  | .ellipsis => some ['.', '.', '.']
  | _ => none

theorem ofText_fixed (spelled : Spelled token) {kind : TokenKind} {text : List Char}
    (same : token.kind = kind) (fixed : fixedText? kind = some text) :
    ofText token.literal.toList rest = ofText text rest := by
  have fits := spelled (by rw [same]; rintro rfl; cases fixed)
  rw [same] at fits
  have literal : token.literal.toList = text := by
    cases kind <;> cases fixed <;> exact fits
  rw [literal]

end Tally

namespace Node

variable {rule : Rule} {node : Node}

theorem pairs_of_rank (within : rule.rank ≤ node.rule.rank) : node.pairs rule = 0 :=
  if_neg (Nat.not_lt.mpr within)

theorem pairs_le_one (rule : Rule) (node : Node) : node.pairs rule ≤ 1 := by
  unfold pairs
  split <;> decide

theorem pairs_widen {wide narrow : Rule} (within : wide.rank ≤ narrow.rank) (node : Node) :
    node.pairs wide ≤ node.pairs narrow := by
  unfold pairs
  split
  · exact Nat.le_of_eq (if_pos (by omega)).symm
  · exact Nat.zero_le _

end Node

namespace Grammar

open Tally

theorem sumOp?_some {kind : TokenKind} {op : BinaryOp} (joins : sumOp? kind = some op) :
    fixedText? kind = some op.symbol.toList ∧ op.rule = .sum ∧ op.sideRule .left = .sum ∧
      op.sideRule .right = .product ∧ op.suffix = "" := by
  rcases sumOp?_cases joins with ⟨rfl, rfl⟩ | ⟨rfl, rfl⟩ <;> exact ⟨rfl, rfl, rfl, rfl, rfl⟩

theorem Suffix.ofTokens {rounding : Rounding} {tokens : List Token}
    (suffix : Suffix rounding tokens) (spelled : ∀ token ∈ tokens, Spelled token) (rest : Tally) :
    ofTokens tokens rest = ofText rounding.suffix.toList rest := by
  cases suffix with
  | down => rfl
  | nearest letter | up letter =>
    rw [ofTokens_cons, ofText_letter (spelled _ List.mem_cons_self) letter]
    rfl

theorem below_bare {rule : Rule} {x : Node} {f g : Tally} {n : Nat} (few : n ≤ x.pairs rule)
    (within : rule.rank ≤ x.rule.rank) (below : Below f g) : Below (opened n f) g := by
  rw [Node.pairs_of_rank within] at few
  obtain rfl := Nat.le_zero.mp few
  exact below

theorem Derives.needs_below {rule : Rule} {tokens : List Token} {x : Node}
    (derives : Derives rule tokens x) (spelled : ∀ token ∈ tokens, Spelled token) {f g : Tally}
    (below : Below f g) {n : Nat} (few : n ≤ x.pairs rule) :
    Below (opened n (x.needs f)) (ofTokens tokens g) := by
  induction derives generalizing f g n with
  | @product _ x term ih | @signed _ x term ih | @rolls _ x term ih | @operand _ x term ih =>
    exact ih spelled below (Nat.le_trans few (x.pairs_widen (by decide)))
  | @join left right token op x y earlier joins term ihx ihy =>
    obtain ⟨text, rule, leftRule, rightRule, suffix⟩ := sumOp?_some joins
    simp only [List.forall_mem_append, List.forall_mem_cons] at spelled
    obtain ⟨inLeft, atSign, inRight⟩ := spelled
    rw [ofTokens_append, ofTokens_cons, ofText_fixed atSign rfl text]
    apply below_bare few (Nat.zero_le _)
    rw [Node.needs, leftRule, rightRule, suffix]
    exact ihx inLeft ((ihy inRight below (Nat.le_refl _)).ofText _) (Nat.le_refl _)
  | multiply earlier times factor ihx ihy =>
    simp only [List.forall_mem_append, List.forall_mem_cons] at spelled
    obtain ⟨inLeft, atSign, inRight⟩ := spelled
    rw [ofTokens_append, ofTokens_cons, ofText_fixed atSign times rfl]
    apply below_bare few (Nat.le_refl _)
    exact ihx inLeft ((ihy inRight below (Nat.le_refl _)).ofText _) (Nat.le_refl _)
  | @divide left right marks token x y rounding earlier slash divisor suffix ihx ihy =>
    simp only [List.forall_mem_append, List.forall_mem_cons] at spelled
    obtain ⟨inLeft, atSign, inRight, inMarks⟩ := spelled
    rw [ofTokens_append, ofTokens_cons, ofTokens_append, ofText_fixed atSign slash rfl,
      suffix.ofTokens inMarks]
    apply below_bare few (Nat.le_refl _)
    have symbol : ['/'] = (BinaryOp.divide rounding).symbol.toList := by simp [BinaryOp.symbol]
    rw [symbol]
    have divisor := ihy inRight (below.ofText rounding.suffix.toList) (Nat.le_refl _)
    exact ihx inLeft (divisor.ofText (BinaryOp.divide rounding).symbol.toList) (Nat.le_refl _)
  | neg minus negated ih =>
    obtain ⟨atSign, inside⟩ := List.forall_mem_cons.mp spelled
    rw [ofTokens_cons, ofText_fixed atSign minus rfl]
    apply below_bare few (Nat.le_refl _)
    exact (ih inside below (Nat.le_refl _)).sign
  | roll count family sides ihx ihy =>
    simp only [List.forall_mem_append, List.forall_mem_cons] at spelled
    obtain ⟨inLeft, atLetter, inRight⟩ := spelled
    rw [ofTokens_append, ofTokens_cons, ofText_letter atLetter family]
    apply below_bare few (Nat.le_refl _)
    exact ihx inLeft (ihy inRight below (Nat.le_refl _)).sign (Nat.le_refl _)
  | thresholdRoll count family sides allowed opens limit closes ihx ihy ihz =>
    simp only [List.forall_mem_append, List.forall_mem_cons] at spelled
    obtain ⟨inLeft, atLetter, inRight, atOpening, inLimit, atClosing, -⟩ := spelled
    simp only [ofTokens_append, ofTokens_cons, ofTokens_nil, ofText_letter atLetter family,
      ofText_fixed atOpening opens rfl, ofText_fixed atClosing closes rfl]
    apply below_bare few (Nat.le_refl _)
    have behind := (ihz inLimit below.sign (Nat.zero_le _)).sign
    exact ihx inLeft (ihy inRight behind (Nat.le_refl _)).sign (Nat.le_refl _)
  | @integer token digits fits =>
    have atToken := spelled token List.mem_cons_self
    rw [ofTokens_cons, ofText_integer atToken digits]
    apply below_bare few
    · apply Nat.le_of_eq
      rw [Node.rule, if_neg (Int.not_lt.mpr (Int.natCast_nonneg _))]
    · exact below
  | enclosed opens whole closes ih =>
    simp only [List.forall_mem_append, List.forall_mem_cons] at spelled
    obtain ⟨atOpening, inside, atClosing, -⟩ := spelled
    simp only [ofTokens_append, ofTokens_cons, ofTokens_nil, ofText_fixed atOpening opens rfl,
      ofText_fixed atClosing closes rfl]
    have one := Nat.le_trans few (Node.pairs_le_one _ _)
    exact (ih inside below (Nat.zero_le _)).opened one
  | random opens least between greatest closes ihx ihy =>
    simp only [List.forall_mem_append, List.forall_mem_cons] at spelled
    obtain ⟨atOpening, inLeft, atDots, inRight, atClosing, -⟩ := spelled
    simp only [ofTokens_append, ofTokens_cons, ofTokens_nil, ofText_fixed atOpening opens rfl,
      ofText_fixed atDots between rfl, ofText_fixed atClosing closes rfl]
    apply below_bare few (Nat.le_refl _)
    have behind := (ihy inRight below.sign (Nat.zero_le _)).ofText "...".toList
    exact (ihx inLeft behind (Nat.zero_le _)).sign

end Grammar

end DiceLanguage
