import DiceLanguage.Proofs.Token.Longest
import Mathlib.Data.List.Forall2

namespace DiceLanguage

section Characters

variable {c d : Char}

theorem toUpper_of_not_isLower (capital : c.isLower = false) : c.toUpper = c := by
  apply dif_neg
  rintro ⟨least, greatest⟩
  have lower : c.isLower = true :=
    Bool.and_eq_true_iff.mpr ⟨decide_eq_true least, decide_eq_true greatest⟩
  rw [capital] at lower
  cases lower

theorem apply_toUpper {α : Type} (f : Char → α)
    (same : ∀ n < 26, f (Char.ofNat (65 + n)) = f (Char.ofNat (97 + n))) (c : Char) :
    f c.toUpper = f c := by
  cases lower : c.isLower with
  | false => rw [toUpper_of_not_isLower lower]
  | true =>
    obtain ⟨low, high⟩ := Bool.and_eq_true_iff.mp lower
    have least : 97 ≤ c.toNat := of_decide_eq_true low
    have greatest : c.toNat ≤ 122 := of_decide_eq_true high
    have letter : c = Char.ofNat (97 + (c.toNat - 97)) := by
      rw [Nat.add_sub_cancel' least, Char.ofNat_toNat]
    have capitals : ∀ n < 26, (Char.ofNat (97 + n)).toUpper = Char.ofNat (65 + n) := by decide
    rw [letter, capitals _ (by omega)]
    exact same _ (by omega)

theorem isGap_toUpper : Text.isGap ∘ Char.toUpper = Text.isGap :=
  funext (apply_toUpper Text.isGap (by decide))

theorem isBlank_toUpper : Text.isBlank ∘ Char.toUpper = Text.isBlank :=
  funext (apply_toUpper Text.isBlank (by decide))

theorem isDigit_toUpper : Char.isDigit ∘ Char.toUpper = Char.isDigit :=
  funext (apply_toUpper Char.isDigit (by decide))

theorem isAlpha_toUpper : Char.isAlpha ∘ Char.toUpper = Char.isAlpha :=
  funext (apply_toUpper Char.isAlpha (by decide))

theorem utf8Size_toUpper (c : Char) : c.toUpper.utf8Size = c.utf8Size :=
  apply_toUpper Char.utf8Size (by decide) c

theorem ofChar?_toUpper (c : Char) : Letter.ofChar? c.toUpper = Letter.ofChar? c :=
  apply_toUpper Letter.ofChar? (by decide) c

theorem toUpper_of_not_isAlpha (noLetter : c.isAlpha = false) : c.toUpper = c := by
  have neither : c.isUpper = false ∧ c.isLower = false := Bool.or_eq_false_iff.mp noLetter
  exact toUpper_of_not_isLower neither.2

theorem toUpper_eq_iff (noLetter : d.isAlpha = false) : c.toUpper = d ↔ c = d := by
  constructor
  · rintro rfl
    have capital : c.toUpper.isAlpha = c.isAlpha := congrFun isAlpha_toUpper c
    rw [capital] at noLetter
    exact (toUpper_of_not_isAlpha noLetter).symm
  · rintro rfl
    exact toUpper_of_not_isAlpha noLetter

theorem toUpper_of_isDigit (digit : c.isDigit = true) : c.toUpper = c := by
  apply toUpper_of_not_isAlpha
  apply Bool.eq_false_iff.mpr
  intro letter
  rw [Lexeme.not_isDigit_of_isAlpha letter] at digit
  cases digit

end Characters

theorem toUpper_ofList (text : List Char) :
    (String.ofList text).toUpper = String.ofList (text.map Char.toUpper) := by
  rw [String.toUpper, String.map_eq_internal, String.toList_ofList]

theorem byteLength_toUpper (text : List Char) :
    byteLength (text.map Char.toUpper) = byteLength text := by
  induction text with
  | nil => rfl
  | cons c text ih =>
    change c.toUpper.utf8Size + byteLength (text.map Char.toUpper) = c.utf8Size + byteLength text
    rw [utf8Size_toUpper, ih]

theorem Position.after_toUpper (start : Position) (text : List Char) :
    start.after (text.map Char.toUpper) = start.after text := by
  rw [after, List.length_map, byteLength_toUpper]
  rfl

section Runs

variable {p : Char → Bool} (same : p ∘ Char.toUpper = p) (text : List Char)
include same

theorem takeWhile_toUpper :
    (text.map Char.toUpper).takeWhile p = (text.takeWhile p).map Char.toUpper := by
  rw [List.takeWhile_map, same]

theorem dropWhile_toUpper :
    (text.map Char.toUpper).dropWhile p = (text.dropWhile p).map Char.toUpper := by
  rw [List.dropWhile_map, same]

end Runs

namespace Lexeme

def toUpper (lexeme : Lexeme) : Lexeme :=
  ⟨lexeme.kind, lexeme.text.map Char.toUpper, lexeme.rest.map Char.toUpper⟩

theorem wordKind_toUpper (text : List Char) : wordKind (text.map Char.toUpper) = wordKind text := by
  match text with
  | [] | _ :: _ :: _ => rfl
  | [c] =>
    change ((Letter.ofChar? c.toUpper).map _).getD _ = ((Letter.ofChar? c).map _).getD _
    rw [ofChar?_toUpper]

theorem head_toUpper {d : Char} (noLetter : d.isAlpha = false) {text : List Char}
    (other : ∀ rest, text = d :: rest → False) :
    ∀ rest, text.map Char.toUpper = d :: rest → False := by
  intro rest same
  obtain ⟨c, rest', rfl, capital, -⟩ := List.map_eq_cons_iff.mp same
  rw [(toUpper_eq_iff noLetter).mp capital] at other
  exact other rest' rfl

theorem symbol_toUpper {c : Char} (noLetter : c.isAlpha = false) (rest : List Char) :
    symbol c.toUpper (rest.map Char.toUpper) = (symbol c rest).toUpper := by
  have stays := toUpper_of_not_isAlpha noLetter
  rw [stays, symbol.eq_def c rest]
  split
  case h_5 rest noDots => exact symbol.eq_5 _ (head_toUpper rfl noDots)
  case h_6 notEqual atMost atLeast _ noDots =>
    rw [symbol.eq_6]
    · rw [toUpper, List.map_singleton, stays]
    · exact fun rest less => head_toUpper rfl (notEqual · less) rest
    · exact fun rest less => head_toUpper rfl (atMost · less) rest
    · exact fun rest greater => head_toUpper rfl (atLeast · greater) rest
    · exact fun rest dot => head_toUpper rfl (noDots · dot) ('.' :: rest)
    · exact fun rest dot => head_toUpper rfl (noDots · dot) rest
  all_goals rfl

theorem first_toUpper (c : Char) (rest : List Char) :
    first c.toUpper (rest.map Char.toUpper) = (first c rest).toUpper := by
  have digit : c.toUpper.isDigit = c.isDigit := congrFun isDigit_toUpper c
  have letter : c.toUpper.isAlpha = c.isAlpha := congrFun isAlpha_toUpper c
  unfold first
  rw [digit, letter]
  split
  · rw [takeWhile_toUpper isDigit_toUpper, dropWhile_toUpper isDigit_toUpper]
    rfl
  · split
    · rw [takeWhile_toUpper isAlpha_toUpper, dropWhile_toUpper isAlpha_toUpper]
      simp only [toUpper, ← List.map_cons, wordKind_toUpper]
    · rename_i noLetter
      exact symbol_toUpper (by simpa using noLetter) rest

end Lexeme

/-- What becomes of a token when all letters of its text are capital. -/
structure Token.Recased (token upper : Token) : Prop where
  kind : upper.kind = token.kind
  literal : upper.literal = token.literal.toUpper
  span : upper.span = token.span.map Char.toUpper
  column : upper.column = token.column
  number : token.kind = .integer → upper.literal = token.literal

theorem Token.recased (kind : TokenKind) (text : List Char)
    (number : kind = .integer → ∀ c ∈ text, c.isDigit = true) (gap : List Char) (place : Position) :
    Token.Recased ⟨kind, String.ofList text, String.ofList gap, place.column, place.offset⟩
      ⟨kind, String.ofList (text.map Char.toUpper), String.ofList (gap.map Char.toUpper),
        place.column, place.offset⟩ := by
  refine ⟨rfl, (toUpper_ofList text).symm, ?_, rfl, fun integer => ?_⟩
  · simp only [span, String.toList_ofList, List.map_append]
  · have same : text.map Char.toUpper = text.map id :=
      List.map_congr_left fun c member => toUpper_of_isDigit (number integer c member)
    simp only [same, List.map_id]

theorem Tokens.scan_toUpper (start : Position) (text : List Char) :
    List.Forall₂ Token.Recased (scan start text).body (scan start (text.map Char.toUpper)).body ∧
      (scan start text).last.Recased (scan start (text.map Char.toUpper)).last := by
  have gaps := takeWhile_toUpper isGap_toUpper
  have rests := dropWhile_toUpper isGap_toUpper
  fun_induction scan start text with
  | case1 start text gap place empty =>
    rw [scan.eq_def]
    split
    · simp only [gaps, Position.after_toUpper]
      exact ⟨.nil, Token.recased .endOfText [] nofun gap place⟩
    · rename_i same
      rw [rests, empty] at same
      cases same
  | case2 start text gap place c rest behind lexeme token tokens ih =>
    have number (kind : lexeme.kind = .integer) : ∀ c ∈ lexeme.text, c.isDigit = true := by
      have fits := (Lexeme.first_isLongest c rest).matches_kind (by rw [kind]; exact nofun)
      rw [kind] at fits
      exact fits.2
    rw [scan.eq_def]
    split
    · rename_i same
      rw [rests, behind] at same
      cases same
    · rename_i same
      rw [rests, behind, List.map_cons] at same
      cases same
      simp only [gaps, Position.after_toUpper, Lexeme.first_toUpper, Lexeme.toUpper]
      exact ⟨.cons (Token.recased lexeme.kind lexeme.text number gap place) ih.1, ih.2⟩

end DiceLanguage
