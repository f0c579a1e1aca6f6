import DuckdbLerobot.Library.Rounding

/-!
# The nearest integer of a rounded value

`halfToEven` is the nearest integer, and the even one of two (`halfToEven_nearestEven`). A program that computes
it in a format of floating-point numbers compares the distance from the floor with one half. That distance is
exact for the values of the format (`nearestAt_fraction`), except for those between -1/2 and 0, and the
values that have no place for a fraction are integers (`floor_of_large`).
-/

set_option autoImplicit false

namespace DuckdbLerobot.Library

namespace Double

/-- An integer that is as near to a value as any other one, and even if there is another one as near. -/
structure NearestEven (value : ℚ) (n : Int) : Prop where
  nearest : ∀ m : Int, |(n : ℚ) - value| ≤ |(m : ℚ) - value|
  even : ∀ m : Int, m ≠ n → |(n : ℚ) - value| = |(m : ℚ) - value| → n % 2 = 0

theorem halfToEven_even {value : ℚ} (h : value - ⌊value⌋ = 1 / 2) : halfToEven value % 2 = 0 := by
  rw [halfToEven, if_neg h.not_lt, if_neg h.not_gt]
  split <;> omega

theorem abs_halfToEven_sub_eq {value : ℚ} (h : |(halfToEven value : ℚ) - value| = 1 / 2) :
    value - ⌊value⌋ = 1 / 2 := by
  have hfloor := Int.floor_le value
  have hlt := Int.lt_floor_add_one value
  rcases halfToEven_cases value with ⟨heq, -⟩ | ⟨heq, -⟩
  · rw [heq, abs_sub_comm, abs_of_nonneg (by linarith)] at h
    exact h
  · rw [heq, abs_of_nonneg (by push_cast; linarith)] at h
    push_cast at h
    linarith

/-- **The nearest integer**, and the even one of two. -/
theorem halfToEven_nearestEven (value : ℚ) : NearestEven value (halfToEven value) := by
  have hhalf := abs_halfToEven_sub_le value
  -- two different integers are one apart at least
  have hapart : ∀ m : Int, m ≠ halfToEven value →
      1 ≤ |(m : ℚ) - value| + |(halfToEven value : ℚ) - value| := by
    intro m hm
    have hdistance : (1 : ℚ) ≤ |(m : ℚ) - halfToEven value| := by
      have hint : 1 ≤ |m - halfToEven value| := Int.one_le_abs (sub_ne_zero.mpr hm)
      exact_mod_cast hint
    have htriangle := abs_sub_le (m : ℚ) value (halfToEven value)
    rw [abs_sub_comm value] at htriangle
    exact hdistance.trans htriangle
  constructor
  · intro m
    by_cases hm : m = halfToEven value
    · rw [hm]
    · have hsum := hapart m hm
      linarith
  · intro m hm heq
    have hsum := hapart m hm
    apply halfToEven_even
    apply abs_halfToEven_sub_eq
    linarith

section Format

variable {precision : Nat} {minimum : Int}

/-- The place of a value that is not greater. -/
theorem placeExponent_mono {a b : ℚ} (ha : a ≠ 0) (h : |a| ≤ |b|) :
    placeExponent minimum a ≤ placeExponent minimum b := by
  apply max_le_max _ (le_refl minimum)
  exact Int.log_mono_right (abs_pos.mpr ha) h

/-- The values of a format are whole numbers of their last places. -/
theorem eq_places {value : ℚ} (h : nearestAt precision minimum value = value) :
    ∃ n : Int, value = n * 2 ^ (placeExponent minimum value - (precision - 1)) := by
  refine ⟨halfToEven (value / lastPlace precision minimum value), ?_⟩
  calc value = nearestAt precision minimum value := h.symm
    _ = _ := rfl

/-- **Rounding again** changes nothing. -/
theorem nearestAt_nearestAt (hprecision : 0 < precision) (value : ℚ) :
    nearestAt precision minimum (nearestAt precision minimum value) =
      nearestAt precision minimum value := by
  by_cases hzero : nearestAt precision minimum value = 0
  · rw [hzero, nearestAt_zero]
  have hle : |nearestAt precision minimum value| ≤ 2 ^ (placeExponent minimum value + 1) :=
    abs_le.mpr ⟨neg_two_zpow_le_nearestAt value, nearestAt_le_two_zpow value⟩
  rcases hle.lt_or_eq with hlt | heq
  · -- it is in the binade of the value, and a whole number of its places
    have hplaces : nearestAt precision minimum value =
        (halfToEven (value / lastPlace precision minimum value) : ℚ) *
          2 ^ (placeExponent minimum value - (precision - 1)) := rfl
    apply nearestAt_of_places hplaces
    apply Int.sub_le_sub_right
    apply max_le _ (le_max_right _ _)
    exact Int.lt_add_one_iff.mp ((Int.lt_zpow_iff_log_lt one_lt_two (abs_pos.mpr hzero)).mp hlt)
  · -- it is a power of two
    have hplace : placeExponent minimum (nearestAt precision minimum value) =
        placeExponent minimum value + 1 := by
      have hlog : Int.log 2 |nearestAt precision minimum value| = placeExponent minimum value + 1 := by
        rw [heq]
        exact_mod_cast Int.log_zpow (R := ℚ) one_lt_two (placeExponent minimum value + 1)
      rw [placeExponent, hlog]
      apply max_eq_left
      have hminimum : minimum ≤ placeExponent minimum value := le_max_right _ _
      omega
    have hsign : ∃ n : Int, nearestAt precision minimum value =
        n * 2 ^ (placeExponent minimum value + 1) := by
      rcases abs_eq_abs.mp (heq.trans (abs_of_pos (zpow_pos two_pos _)).symm) with hpos | hneg
      · exact ⟨1, by rw [hpos]; simp⟩
      · exact ⟨-1, by rw [hneg]; simp⟩
    obtain ⟨n, hn⟩ := hsign
    apply nearestAt_of_places hn
    rw [hplace]
    omega

/-- A value with no place for a fraction is an integer. -/
theorem floor_of_large {value : ℚ} (h : nearestAt precision minimum value = value)
    (hlarge : (precision : Int) - 1 ≤ placeExponent minimum value) : (⌊value⌋ : ℚ) = value := by
  obtain ⟨n, hn⟩ := eq_places h
  obtain ⟨count, hcount⟩ := Int.eq_ofNat_of_zero_le (sub_nonneg.mpr hlarge)
  have hint : value = ((n * 2 ^ count : Int) : ℚ) := by
    rw [hn, hcount, zpow_natCast]
    push_cast
    rfl
  rw [hint, Int.floor_intCast]

/-- **The fraction** of a value of the format is exact, when it is not greater than the value. -/
theorem nearestAt_fraction {value : ℚ} (h : nearestAt precision minimum value = value)
    (hsmall : placeExponent minimum value ≤ (precision : Int) - 1)
    (hle : |value - ⌊value⌋| ≤ |value|) :
    nearestAt precision minimum (value - ⌊value⌋) = value - ⌊value⌋ := by
  by_cases hzero : value - ⌊value⌋ = 0
  · rw [hzero, nearestAt_zero]
  obtain ⟨n, hn⟩ := eq_places h
  obtain ⟨count, hcount⟩ := Int.eq_ofNat_of_zero_le (sub_nonneg.mpr hsmall)
  have hplaces : value - ⌊value⌋ = ((n - ⌊value⌋ * 2 ^ count : Int) : ℚ) *
      2 ^ (placeExponent minimum value - (precision - 1)) := by
    have hunit : (2 : ℚ) ^ count * 2 ^ (placeExponent minimum value - (precision - 1)) = 1 := by
      rw [← zpow_natCast, ← hcount, ← zpow_add₀ two_ne_zero, sub_add_sub_cancel, sub_self, zpow_zero]
    push_cast
    rw [sub_mul, mul_assoc, hunit, mul_one, ← hn]
  apply nearestAt_of_places hplaces
  exact Int.sub_le_sub_right (placeExponent_mono hzero hle) _

end Format

end Double

end DuckdbLerobot.Library
