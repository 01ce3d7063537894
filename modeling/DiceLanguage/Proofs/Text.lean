import DiceLanguage.Proofs.Token.Spelling
import DiceLanguage.Text.Blank
import DiceLanguage.Text.Integer
import Mathlib.Data.List.DropRight

namespace DiceLanguage.Text

def Blank (text : List Char) : Prop := ∀ c ∈ text, isBlank c = true

instance (text : List Char) : Decidable (Blank text) :=
  decidable_of_iff (text.all isBlank = true) List.all_eq_true

theorem blank_nil : Blank [] := List.forall_mem_nil _

section Trim

variable {text before behind : List Char} {c : Char}

theorem Blank.not_mem (blank : Blank text) (visible : isBlank c = false) : c ∉ text := by
  intro member
  rw [blank c member] at visible
  cases visible

theorem trim_blank_append (blank : Blank before) (text : List Char) :
    trim (before ++ text) = trim text := by
  rw [trim, List.dropWhile_append_of_pos blank]
  rfl

theorem trim_append_blank (text : List Char) (blank : Blank behind) :
    trim (text ++ behind) = trim text := by
  have reversed : ∀ c ∈ behind.reverse, isBlank c = true :=
    fun c member => blank c (List.mem_reverse.mp member)
  rw [trim, List.dropWhile_append]
  split
  · rename_i none
    rw [trim, List.isEmpty_iff.mp none, List.dropWhile_eq_nil_iff.mpr blank]
  · rw [List.reverse_append, List.dropWhile_append_of_pos reversed]
    rfl

theorem exists_trim (text : List Char) :
    ∃ before behind, Blank before ∧ Blank behind ∧ text = before ++ (trim text ++ behind) := by
  have cut : trim text ++ (text.dropWhile isBlank).rtakeWhile isBlank = text.dropWhile isBlank :=
    List.rdropWhile_append_rtakeWhile
  refine ⟨text.takeWhile isBlank, (text.dropWhile isBlank).rtakeWhile isBlank,
    fun c => List.mem_takeWhile_imp, fun c => List.mem_rtakeWhile_imp, ?_⟩
  rw [cut, List.takeWhile_append_dropWhile]

theorem trim_eq_nil_iff : trim text = [] ↔ Blank text := by
  constructor
  · intro none
    obtain ⟨before, behind, first, last, whole⟩ := exists_trim text
    rw [none] at whole
    rw [whole]
    exact List.forall_mem_append.mpr ⟨first, last⟩
  · intro blank
    have same := trim_append_blank [] blank
    exact same

theorem trim_trim (text : List Char) : trim (trim text) = trim text := by
  have front : ∀ nonempty : 0 < (trim text).length, ¬ isBlank (trim text)[0] = true := by
    intro nonempty
    -- What is dropped at the end leaves a prefix, which starts where the rest of the text starts.
    have kept : trim text <+: text.dropWhile isBlank := List.rdropWhile_prefix isBlank _
    rw [kept.getElem nonempty]
    exact List.dropWhile_eq_self_iff.mp (List.dropWhile_idempotent isBlank text) _
  have whole : (trim text).dropWhile isBlank = trim text := List.dropWhile_eq_self_iff.mpr front
  change ((trim text).dropWhile isBlank).rdropWhile isBlank = trim text
  rw [whole]
  exact List.rdropWhile_idempotent isBlank _

theorem mem_of_mem_trim {text : List Char} {c : Char} (member : c ∈ trim text) : c ∈ text :=
  (List.dropWhile_suffix isBlank).subset ((List.rdropWhile_prefix isBlank _).subset member)

theorem trim_visible (visible : ∀ c ∈ text, isBlank c = false) : trim text = text := by
  have front : text.dropWhile isBlank = text := by
    rw [List.dropWhile_eq_self_iff]
    intro nonempty
    simp [visible]
  change (text.dropWhile isBlank).rdropWhile isBlank = text
  rw [front, List.rdropWhile_eq_self_iff]
  intro nonempty
  simp [visible]

end Trim

section Integers

variable {text : List Char} {x : Int}

structure IsDecimal (digits : List Char) (x : Int) : Prop where
  nonempty : digits ≠ []
  digit : ∀ c ∈ digits, c.isDigit = true
  value : x = Nat.ofDigitChars 10 digits 0

def IsNumeral (text : List Char) (x : Int) : Prop :=
  IsDecimal text x ∨ ∃ digits, text = '+' :: digits ∧ IsDecimal digits x

theorem le_ofDigitChars (digits : List Char) (n : Nat) : n ≤ Nat.ofDigitChars 10 digits n := by
  induction digits generalizing n with
  | nil => exact Nat.le_refl n
  | cons c digits ih =>
    rw [Nat.ofDigitChars_cons]
    have later := ih (10 * n + (c.toNat - '0'.toNat))
    omega

theorem fits_natCast (n : Nat) : Fits (n : Int) ↔ (n : Int) ≤ maxInt := by
  unfold Fits minInt
  omega

theorem readDigits_plus_ok {n : Nat} (fits : (n : Int) ≤ maxInt) :
    readDigits .plus n text = .ok x ↔
      (∀ c ∈ text, c.isDigit = true) ∧ x = Nat.ofDigitChars 10 text n ∧ x ≤ maxInt := by
  induction text generalizing n with
  | nil =>
    change Except.ok (n : Int) = .ok x ↔ _ ∧ x = (n : Int) ∧ x ≤ maxInt
    rw [Except.ok.injEq]
    constructor
    · rintro rfl
      exact ⟨nofun, rfl, fits⟩
    · exact fun both => both.2.1.symm
  | cons c text ih =>
    rw [readDigits, digit?, Nat.ofDigitChars_cons, List.forall_mem_cons]
    by_cases digit : c.isDigit = true
    · rw [if_pos digit]
      generalize c.toNat - '0'.toNat = d
      have next : Sign.plus.extend n d = ((10 * n + d : Nat) : Int) := by
        simp [Sign.extend]
      simp only [next, checked, fits_natCast, digit, true_and]
      by_cases within : ((10 * n + d : Nat) : Int) ≤ maxInt
      · rw [if_pos within]
        exact ih within
      · -- The number read so far is not above the whole number, which does not fit either.
        have bound := le_ofDigitChars text (10 * n + d)
        rw [if_neg within]
        constructor
        · nofun
        · rintro ⟨-, rfl, small⟩
          omega
    · simp [digit]

theorem readDigits_minus_le {x y : Int} (start : x ≤ 0)
    (read : readDigits .minus x text = .ok y) : y ≤ 0 := by
  induction text generalizing x with
  | nil =>
    cases read
    exact start
  | cons c text ih =>
    rw [readDigits] at read
    split at read
    · cases read
    · rename_i d _
      split at read
      · cases read
      · rename_i next extended
        obtain ⟨-, rfl⟩ := checked_eq_some_iff.mp extended
        apply ih _ read
        change 10 * x - (d : Int) ≤ 0
        omega

theorem readDigits_plus_zero_ok (nonempty : text ≠ []) :
    readDigits .plus 0 text = .ok x ↔ IsDecimal text x ∧ x ≤ maxInt := by
  rw [show (0 : Int) = ((0 : Nat) : Int) from rfl, readDigits_plus_ok (by decide)]
  constructor
  · exact fun ⟨digit, value, fits⟩ => ⟨⟨nonempty, digit, value⟩, fits⟩
  · exact fun ⟨⟨_, digit, value⟩, fits⟩ => ⟨digit, value, fits⟩

theorem IsDecimal.not_signed {sign : Char} (noDigit : sign.isDigit = false) :
    ¬ IsDecimal (sign :: text) x := by
  intro decimal
  rw [decimal.digit sign List.mem_cons_self] at noDigit
  cases noDigit

theorem isNumeral_plus : IsNumeral ('+' :: text) x ↔ IsDecimal text x := by
  constructor
  · rintro (signed | ⟨digits, same, decimal⟩)
    · exact absurd signed (IsDecimal.not_signed rfl)
    · cases same
      exact decimal
  · exact fun decimal => .inr ⟨text, rfl, decimal⟩

theorem isNumeral_iff_isDecimal (unsigned : ∀ digits, text ≠ '+' :: digits) :
    IsNumeral text x ↔ IsDecimal text x := by
  constructor
  · rintro (decimal | ⟨digits, same, -⟩)
    · exact decimal
    · exact absurd same (unsigned digits)
  · exact .inl

theorem readInteger_ok (positive : 1 ≤ x) :
    readInteger text = .ok x ↔ IsNumeral text x ∧ x ≤ maxInt := by
  have noNumber : ¬ IsDecimal [] x := fun decimal => decimal.nonempty rfl
  unfold readInteger
  split
  · simp [isNumeral_iff_isDecimal, noNumber]
  · simp [isNumeral_plus, noNumber]
  · simp [isNumeral_iff_isDecimal, IsDecimal.not_signed]
  · rename_i digits some
    rw [isNumeral_plus]
    exact readDigits_plus_zero_ok some
  · rename_i digits _
    have noDecimal : ¬ IsDecimal ('-' :: digits) x := IsDecimal.not_signed rfl
    rw [isNumeral_iff_isDecimal (by simp)]
    apply iff_of_false
    · intro read
      have negative := readDigits_minus_le (Int.le_refl 0) read
      omega
    · exact fun both => noDecimal both.1
  · rename_i nonempty _ _ unsigned _
    rw [isNumeral_iff_isDecimal unsigned]
    exact readDigits_plus_zero_ok nonempty

theorem isDecimal_repr (n : Nat) : IsDecimal n.repr.toList n := by
  refine ⟨repr_ne_nil n, fun c member => isDigit_of_mem_repr member, ?_⟩
  rw [Nat.toList_repr, Nat.ofDigitChars_ten_toDigits]

theorem isDecimal_decimal (positive : 1 ≤ x) : IsDecimal (decimal x).toList x := by
  rw [decimal, if_neg (by omega)]
  have same : (x.natAbs : Int) = x := by omega
  have written := isDecimal_repr x.natAbs
  rwa [same] at written

theorem isBlank_of_isDigit {c : Char} (digit : c.isDigit = true) : isBlank c = false := by
  obtain ⟨low, high⟩ := Bool.and_eq_true_iff.mp digit
  have least : 48 ≤ c.toNat := of_decide_eq_true low
  have greatest : c.toNat ≤ 57 := of_decide_eq_true high
  apply Bool.eq_false_iff.mpr
  intro blank
  simp only [isBlank, CharRanges.contains, whiteSpace, List.any_cons, List.any_nil,
    Bool.or_eq_true, Bool.and_eq_true, decide_eq_true_eq, Bool.false_eq_true, or_false] at blank
  omega

end Integers

end DiceLanguage.Text
