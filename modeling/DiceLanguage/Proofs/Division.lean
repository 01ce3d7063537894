import DiceLanguage.Number.Rounding
import Mathlib.Algebra.Order.Floor.Ring
import Mathlib.Data.Rat.Floor
import Mathlib.Tactic.FieldSimp
import Mathlib.Tactic.Linarith

namespace DiceLanguage.Rounding

def round (rounding : Rounding) (x : ℚ) : Int :=
  match rounding with
  | down => if 0 ≤ x then ⌊x⌋ else ⌈x⌉
  | nearest => if 0 ≤ x then ⌊x + 1 / 2⌋ else ⌈x - 1 / 2⌉
  | up => ⌈x⌉

/-- The integer is the number cut toward zero, or of the integers nearest to the number the one
farthest from zero, or the least one that is not below the number. -/
def Rounds (rounding : Rounding) (x : ℚ) (n : Int) : Prop :=
  match rounding with
  | down => (0 ≤ x → IsGreatest {m : Int | m ≤ x} n) ∧ (x ≤ 0 → IsLeast {m : Int | x ≤ m} n)
  | nearest => ∀ m : Int, |x - n| ≤ |x - m| ∧ (|x - m| = |x - n| → |m| ≤ |n|)
  | up => IsLeast {m : Int | x ≤ m} n

/-- The integers on the way to a rounded quotient stay within their words. Those with a sign are in
the range of the language, and absolute values fit into as many bits. -/
structure StepsFit (a b : Int) : Prop where
  quotient : Fits (a.tdiv b)
  remainder : Fits (a.tmod b)
  magnitude : b.natAbs < 2 ^ 64
  remainderMagnitude : (a.tmod b).natAbs < 2 ^ 64
  left : (a.tmod b).natAbs ≤ b.natAbs
  adjusted : a.tmod b ≠ 0 → Fits (a.tdiv b + awayFromZero (a.tmod b) b)

def word (x : Int) : Option Int := if 0 ≤ x ∧ x < 2 ^ 64 then some x else none

def divideSteps (rounding : Rounding) (a b : Int) : Option Int :=
  if b = 0 then none
  else do
    let quotient ← checked (a.tdiv b)
    let remainder ← checked (a.tmod b)
    if remainder = 0 then some quotient
    else match rounding with
      | down => some quotient
      | nearest => do
        let r ← word remainder.natAbs
        let d ← word b.natAbs
        let left ← word (d - r)
        if left ≤ r then checked (quotient + awayFromZero remainder b) else some quotient
      | up => if 0 < awayFromZero remainder b then checked (quotient + 1) else some quotient

variable {x f : ℚ} {n q a b : Int}

theorem rounds_down (x : ℚ) : down.Rounds x (down.round x) := by
  constructor
  · intro positive
    rw [round, if_pos positive]
    exact Int.gc_coe_floor.isGreatest_u
  · intro negative
    rcases negative.eq_or_lt with rfl | below
    · rw [round, if_pos (le_refl 0), Int.floor_zero, ← Int.ceil_zero (R := ℚ)]
      exact Int.gc_ceil_coe.isLeast_l
    · rw [round, if_neg (not_le.mpr below)]
      exact Int.gc_ceil_coe.isLeast_l

theorem rounds_nearest_of_nonneg (positive : 0 ≤ x) (low : n ≤ x + 1 / 2) (high : x - 1 / 2 < n) :
    nearest.Rounds x n := by
  intro m
  have close : |x - n| ≤ 1 / 2 := abs_le.mpr ⟨by linarith, by linarith⟩
  -- Another integer is at least one away, so it is as near only across a half, from below.
  rcases lt_trichotomy m n with below | rfl | above
  · have apart : (m : ℚ) + 1 ≤ n := by exact_mod_cast below
    rw [abs_of_nonneg (show 0 ≤ x - m by linarith)]
    refine ⟨by linarith, fun tie => ?_⟩
    have least : (-1 : ℚ) < m := by linarith
    have least : -1 < m := by exact_mod_cast least
    rw [abs_of_nonneg (by omega), abs_of_nonneg (by omega)]
    omega
  · exact ⟨le_refl _, fun _ => le_refl _⟩
  · have apart : (n : ℚ) + 1 ≤ m := by exact_mod_cast above
    rw [abs_of_nonpos (show x - m ≤ 0 by linarith)]
    exact ⟨by linarith, fun tie => by linarith⟩

theorem Rounds.neg (rounds : nearest.Rounds x n) : nearest.Rounds (-x) (-n) := by
  intro m
  have mirrored : ∀ k : Int, |-x - k| = |x - (-k : Int)| := fun k => by
    rw [← abs_neg]
    push_cast
    ring_nf
  rw [mirrored, mirrored, neg_neg, abs_neg n, ← abs_neg m]
  exact rounds (-m)

theorem rounds_nearest (x : ℚ) : nearest.Rounds x (nearest.round x) := by
  by_cases positive : 0 ≤ x
  · rw [round, if_pos positive]
    have below := Int.lt_floor_add_one (x + 1 / 2)
    exact rounds_nearest_of_nonneg positive (Int.floor_le _) (by linarith)
  · rw [round, if_neg positive]
    have flipped : ⌈x - 1 / 2⌉ = -⌊-x + 1 / 2⌋ := by
      rw [← Int.ceil_neg]
      ring_nf
    have below := Int.lt_floor_add_one (-x + 1 / 2)
    have rounds : nearest.Rounds (-x) ⌊-x + 1 / 2⌋ :=
      rounds_nearest_of_nonneg (by linarith) (Int.floor_le _) (by linarith)
    rw [flipped]
    simpa only [neg_neg] using rounds.neg

theorem rounds_round (rounding : Rounding) (x : ℚ) : rounding.Rounds x (rounding.round x) := by
  cases rounding with
  | down => exact rounds_down x
  | nearest => exact rounds_nearest x
  | up => exact Int.gc_ceil_coe.isLeast_l

example : [down, nearest, up].map (·.round (-7 / 2)) = [-3, -4, -3] := by decide +kernel

theorem round_intCast (rounding : Rounding) (n : Int) : rounding.round n = n := by
  cases rounding with
  | down => simp [round]
  | nearest =>
    have floor : ⌊(n : ℚ) + 1 / 2⌋ = n := Int.floor_eq_iff.mpr ⟨by linarith, by linarith⟩
    have ceil : ⌈(n : ℚ) - 1 / 2⌉ = n := Int.ceil_eq_iff.mpr ⟨by linarith, by linarith⟩
    rw [round, floor, ceil, ite_self]
  | up => simp [round]

theorem round_of_pos (rounding : Rounding) (whole : 0 ≤ q) (positive : 0 < f) (less : f < 1) :
    rounding.round (q + f) = q + match rounding with
      | down => 0
      | nearest => if 1 / 2 ≤ f then 1 else 0
      | up => 1 := by
  have bound : (0 : ℚ) ≤ q := by exact_mod_cast whole
  have sum : 0 ≤ q + f := by linarith
  cases rounding with
  | down =>
    rw [round, if_pos sum, Int.floor_eq_iff]
    constructor <;> push_cast <;> linarith
  | nearest =>
    rw [round, if_pos sum, Int.floor_eq_iff]
    dsimp only
    split <;> constructor <;> push_cast <;> linarith
  | up =>
    rw [round, Int.ceil_eq_iff]
    constructor <;> push_cast <;> linarith

theorem round_of_neg (rounding : Rounding) (whole : q ≤ 0) (negative : f < 0) (less : -1 < f) :
    rounding.round (q + f) = q + match rounding with
      | nearest => if 1 / 2 ≤ -f then -1 else 0
      | _ => 0 := by
  have bound : (q : ℚ) ≤ 0 := by exact_mod_cast whole
  have sum : ¬ 0 ≤ q + f := by linarith
  cases rounding with
  | down =>
    rw [round, if_neg sum, Int.ceil_eq_iff]
    constructor <;> push_cast <;> linarith
  | nearest =>
    rw [round, if_neg sum, Int.ceil_eq_iff]
    dsimp only
    split <;> constructor <;> push_cast <;> linarith
  | up =>
    rw [round, Int.ceil_eq_iff]
    constructor <;> push_cast <;> linarith

theorem exact_quotient (nonzero : b ≠ 0) : (a : ℚ) / b = a.tdiv b + a.tmod b / b := by
  have nonzero : (b : ℚ) ≠ 0 := by exact_mod_cast nonzero
  have split : (b : ℚ) * a.tdiv b + a.tmod b = a := by exact_mod_cast Int.mul_tdiv_add_tmod a b
  field_simp
  linarith

theorem natAbs_tmod_lt (nonzero : b ≠ 0) : (a.tmod b).natAbs < b.natAbs := by
  rw [Int.natAbs_tmod]
  exact Nat.mod_lt _ (Int.natAbs_pos.mpr nonzero)

theorem cast_natAbs (n : Int) : (n.natAbs : ℚ) = |(n : ℚ)| := by
  rw [Nat.cast_natAbs, Int.cast_abs]

theorem abs_fraction_lt_one (nonzero : b ≠ 0) : |(a.tmod b : ℚ) / b| < 1 := by
  have less : |(a.tmod b : ℚ)| < |(b : ℚ)| := by
    rw [← cast_natAbs, ← cast_natAbs]
    exact_mod_cast natAbs_tmod_lt nonzero
  rw [abs_div]
  exact (div_lt_one (lt_of_le_of_lt (abs_nonneg _) less)).mpr less

theorem halfReached_iff (nonzero : b ≠ 0) :
    halfReached (a.tmod b) b ↔ 1 / 2 ≤ |(a.tmod b : ℚ) / b| := by
  have less := natAbs_tmod_lt (a := a) nonzero
  have positive : (0 : ℚ) < |(b : ℚ)| := abs_pos.mpr (by exact_mod_cast nonzero)
  have twice : halfReached (a.tmod b) b ↔ b.natAbs ≤ 2 * (a.tmod b).natAbs := by
    unfold halfReached
    omega
  rw [twice, abs_div, le_div_iff₀ positive, ← cast_natAbs, ← cast_natAbs,
    ← Nat.cast_le (α := ℚ)]
  push_cast
  constructor <;> intro reached <;> linarith

theorem tdiv_nonneg_of_agree (proper : a.tmod b ≠ 0) (agree : 0 < a.tmod b ↔ 0 < b) :
    0 ≤ a.tdiv b := by
  rcases le_total 0 a with positive | negative
  · have sign := Int.tmod_nonneg b positive
    exact Int.tdiv_nonneg positive (agree.mp (by omega)).le
  · have sign := Int.tmod_nonneg b (Int.neg_nonneg.mpr negative)
    rw [Int.neg_tmod] at sign
    exact Int.tdiv_nonneg_of_nonpos_of_nonpos negative (by omega)

theorem tdiv_nonpos_of_disagree (proper : a.tmod b ≠ 0) (disagree : ¬ (0 < a.tmod b ↔ 0 < b)) :
    a.tdiv b ≤ 0 := by
  have flipped := tdiv_nonneg_of_agree (a := a) (b := -b)
  rw [Int.tmod_neg, Int.tdiv_neg] at flipped
  rcases eq_or_ne b 0 with rfl | nonzero
  · rw [Int.tdiv_zero]
  · have opposite := flipped proper (by omega)
    omega

theorem quotient_eq_round (rounding : Rounding) (nonzero : b ≠ 0) :
    rounding.quotient a b = rounding.round (a / b) := by
  unfold quotient adjustment
  rw [exact_quotient nonzero]
  by_cases even : a.tmod b = 0
  · rw [if_pos even, even, Int.cast_zero, zero_div, add_zero, add_zero, round_intCast]
  · rw [if_neg even]
    have proper := abs_lt.mp (abs_fraction_lt_one (a := a) nonzero)
    by_cases agree : 0 < a.tmod b ↔ 0 < b
    · have positive : 0 < (a.tmod b : ℚ) / b := by
        rw [div_pos_iff]
        norm_cast
        omega
      rw [round_of_pos rounding (tdiv_nonneg_of_agree even agree) positive proper.2]
      cases rounding <;>
        simp [awayFromZero, agree, halfReached_iff nonzero, abs_of_pos positive]
    · have negative : (a.tmod b : ℚ) / b < 0 := by
        rw [div_neg_iff]
        norm_cast
        omega
      rw [round_of_neg rounding (tdiv_nonpos_of_disagree even agree) negative proper.1]
      cases rounding <;>
        simp [awayFromZero, agree, halfReached_iff nonzero, abs_of_neg negative]

theorem natAbs_le_of_fits (fits : Fits a) : a.natAbs ≤ 2 ^ 63 := by
  unfold Fits minInt maxInt at fits
  omega

theorem awayFromZero_eq (r b : Int) : awayFromZero r b = 1 ∨ awayFromZero r b = -1 := by
  unfold awayFromZero
  split
  · exact .inl rfl
  · exact .inr rfl

theorem natAbs_tdiv_le (large : 2 ≤ b.natAbs) : 2 * (a.tdiv b).natAbs ≤ a.natAbs := by
  rw [Int.natAbs_tdiv]
  have halved : a.natAbs / b.natAbs ≤ a.natAbs / 2 := Nat.div_le_div_left large (by omega)
  have div : a.natAbs.div b.natAbs = a.natAbs / b.natAbs := rfl
  omega

theorem fits_tdiv (dividend : Fits a) (defined : ¬ (b = 0 ∨ a = minInt ∧ b = -1)) :
    Fits (a.tdiv b) := by
  by_cases large : 2 ≤ b.natAbs
  · have halved := natAbs_tdiv_le (a := a) large
    have bound := natAbs_le_of_fits dividend
    unfold Fits minInt maxInt
    omega
  · have unit : b = 1 ∨ b = -1 := by omega
    rcases unit with rfl | rfl
    · rwa [Int.tdiv_one]
    · rw [Int.tdiv_neg, Int.tdiv_one]
      unfold Fits minInt maxInt at *
      omega

theorem stepsFit (dividend : Fits a) (divisor : Fits b)
    (defined : ¬ (b = 0 ∨ a = minInt ∧ b = -1)) : StepsFit a b := by
  have nonzero : b ≠ 0 := fun zero => defined (.inl zero)
  have less := natAbs_tmod_lt (a := a) nonzero
  have bound := natAbs_le_of_fits divisor
  refine ⟨fits_tdiv dividend defined, ?_, by omega, by omega, less.le, fun proper => ?_⟩
  · unfold Fits minInt maxInt
    omega
  · -- A remainder is left only by a divisor of magnitude at least two.
    have large : 2 ≤ b.natAbs := by omega
    have halved := natAbs_tdiv_le (a := a) large
    have bound := natAbs_le_of_fits dividend
    have step := awayFromZero_eq (a.tmod b) b
    unfold Fits minInt maxInt
    omega

theorem adjustment_eq (rounding : Rounding) (r b : Int) :
    rounding.adjustment r b = 0 ∨ r ≠ 0 ∧ rounding.adjustment r b = awayFromZero r b := by
  have step := awayFromZero_eq r b
  unfold adjustment
  split
  · exact .inl rfl
  · rename_i proper
    cases rounding <;> dsimp only <;> omega

theorem fits_quotient (rounding : Rounding) (steps : StepsFit a b) :
    Fits (rounding.quotient a b) := by
  rcases rounding.adjustment_eq (a.tmod b) b with kept | ⟨proper, stepped⟩
  · rw [quotient, kept, Int.add_zero]
    exact steps.quotient
  · rw [quotient, stepped]
    exact steps.adjusted proper

theorem divide_eq_none_iff (rounding : Rounding) (dividend : Fits a) (divisor : Fits b) :
    rounding.divide a b = none ↔ b = 0 ∨ a = minInt ∧ b = -1 := by
  constructor
  · intro missing
    by_contra defined
    rw [divide, if_neg fun zero => defined (.inl zero), checked_eq_none_iff] at missing
    exact missing (rounding.fits_quotient (stepsFit dividend divisor defined))
  · rintro (rfl | ⟨rfl, rfl⟩)
    · rw [divide, if_pos rfl]
    · cases rounding <;> rfl

theorem word_eq_some {x : Int} (least : 0 ≤ x) (bound : x < 2 ^ 64) : word x = some x :=
  if_pos ⟨least, bound⟩

theorem StepsFit.words (steps : StepsFit a b) :
    word (a.tmod b).natAbs = some ((a.tmod b).natAbs : Int) ∧
      word b.natAbs = some (b.natAbs : Int) ∧
      word (b.natAbs - (a.tmod b).natAbs) = some ((b.natAbs : Int) - (a.tmod b).natAbs) := by
  have magnitude := steps.magnitude
  have remainder := steps.remainderMagnitude
  have left := steps.left
  refine ⟨word_eq_some ?_ ?_, word_eq_some ?_ ?_, word_eq_some ?_ ?_⟩ <;> omega

theorem divideSteps_eq_divide (rounding : Rounding) (dividend : Fits a) (divisor : Fits b) :
    rounding.divideSteps a b = rounding.divide a b := by
  by_cases undefined : b = 0 ∨ a = minInt ∧ b = -1
  · rcases undefined with rfl | ⟨rfl, rfl⟩
    · rw [divideSteps, divide, if_pos rfl, if_pos rfl]
    · cases rounding <;> rfl
  have nonzero : b ≠ 0 := fun zero => undefined (.inl zero)
  have steps := stepsFit dividend divisor undefined
  have quotient : checked (a.tdiv b) = some (a.tdiv b) :=
    checked_eq_some_iff.mpr ⟨steps.quotient, rfl⟩
  have remainder : checked (a.tmod b) = some (a.tmod b) :=
    checked_eq_some_iff.mpr ⟨steps.remainder, rfl⟩
  obtain ⟨wordRemainder, wordDivisor, wordLeft⟩ := steps.words
  unfold divideSteps divide Rounding.quotient adjustment
  rw [if_neg nonzero, if_neg nonzero, quotient, remainder]
  simp only [Option.bind_eq_bind, Option.bind_some]
  by_cases even : a.tmod b = 0
  · rw [if_pos even, if_pos even, Int.add_zero, quotient]
  rw [if_neg even, if_neg even]
  cases rounding with
  | down => rw [Int.add_zero, quotient]
  | nearest =>
    rw [wordRemainder, wordDivisor]
    simp only [Option.bind_some, wordLeft]
    by_cases half : halfReached (a.tmod b) b
    · have reached : (b.natAbs : Int) - (a.tmod b).natAbs ≤ (a.tmod b).natAbs := by
        unfold halfReached at half
        omega
      rw [if_pos half, if_pos reached]
    · have below : ¬ (b.natAbs : Int) - (a.tmod b).natAbs ≤ (a.tmod b).natAbs := by
        unfold halfReached at half
        have left := steps.left
        omega
      rw [if_neg half, if_neg below, Int.add_zero, quotient]
  | up =>
    rcases awayFromZero_eq (a.tmod b) b with above | below
    · rw [above]
      rfl
    · rw [below]
      change some (a.tdiv b) = checked (a.tdiv b + 0)
      rw [Int.add_zero, quotient]

/-- Of integers in range all have a rounded quotient but those divided by zero and the least one
divided by minus one. It is the exact quotient brought back, with no integer out of its word on the
way. -/
theorem divide_exact (rounding : Rounding) {a b : Int} (dividend : Fits a) (divisor : Fits b) :
    (rounding.divide a b = none ↔ b = 0 ∨ a = minInt ∧ b = -1) ∧
      ∀ n, rounding.divide a b = some n → Fits n ∧ rounding.Rounds (a / b) n ∧ StepsFit a b := by
  refine ⟨divide_eq_none_iff rounding dividend divisor, fun n found => ?_⟩
  have defined : ¬ (b = 0 ∨ a = minInt ∧ b = -1) := by
    rw [← divide_eq_none_iff rounding dividend divisor, found]
    exact Option.some_ne_none n
  have nonzero : b ≠ 0 := fun zero => defined (.inl zero)
  rw [divide, if_neg nonzero, checked_eq_some_iff] at found
  obtain ⟨fits, rfl⟩ := found
  refine ⟨fits, ?_, stepsFit dividend divisor defined⟩
  rw [quotient_eq_round rounding nonzero]
  exact rounds_round rounding _

theorem divide_exact_limits :
    Fits maxInt ∧ Fits minInt ∧ nearest.divide maxInt minInt = some (-1) ∧
      Fits (-1) ∧ nearest.Rounds (maxInt / minInt) (-1) ∧ StepsFit maxInt minInt := by
  have greatest : Fits maxInt := by decide
  have least : Fits minInt := by decide
  have found : nearest.divide maxInt minInt = some (-1) := by decide
  exact ⟨greatest, least, found, (nearest.divide_exact greatest least).2 _ found⟩

end DiceLanguage.Rounding
