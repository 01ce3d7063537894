namespace DiceLanguage

def minInt : Int := -9223372036854775808

def maxInt : Int := 9223372036854775807

def Fits (x : Int) : Prop := minInt ≤ x ∧ x ≤ maxInt

instance (x : Int) : Decidable (Fits x) := inferInstanceAs (Decidable (_ ∧ _))

def checked (x : Int) : Option Int := if Fits x then some x else none

def saturate (x : Int) : Int := max minInt (min maxInt x)

/-- The integer of the language that differs from `x` by a multiple of `2 ^ 64`. -/
def wrap (x : Int) : Int := (x - minInt) % 18446744073709551616 + minInt

theorem checked_eq_some_iff {x y : Int} : checked x = some y ↔ Fits x ∧ x = y := by
  unfold checked; split <;> simp [*]

theorem checked_eq_none_iff {x : Int} : checked x = none ↔ ¬ Fits x := by
  unfold checked; split <;> simp [*]

theorem fits_saturate (x : Int) : Fits (saturate x) := by
  unfold Fits saturate minInt maxInt; omega

theorem saturate_of_fits {x : Int} (h : Fits x) : saturate x = x := by
  unfold Fits minInt maxInt at h; unfold saturate minInt maxInt; omega

theorem wrap_of_fits {x : Int} (h : Fits x) : wrap x = x := by
  unfold Fits minInt maxInt at h; unfold wrap minInt; omega

end DiceLanguage
