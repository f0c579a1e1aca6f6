import DuckdbLerobot.Library.Rounding

/-!
# The relative error of a rounding

The result of an operation differs from the exact one by a small part of it, and an integer that fits into the
bits is not rounded. `RoundsWithin` says both, for the results between 1 and 2^54: it holds of exact arithmetic
(`exact_roundsWithin`) and of the type `double` (`double_roundsWithin`).
-/

set_option autoImplicit false

namespace DuckdbLerobot.Library

namespace Rounding

/-- The unit roundoff of 53 bits. -/
def unitRoundoff : ℚ := 1 / 2 ^ 53

/-- A rounding with a small relative error that keeps the integers. -/
structure RoundsWithin (rounding : Rounding) : Prop where
  error : ∀ value : ℚ, 1 ≤ value → value ≤ 2 ^ 54 →
    ∃ result, rounding.round value = .finite result ∧ |result - value| ≤ unitRoundoff * value
  integer : ∀ n : Nat, n < 2 ^ 53 → rounding.round n = .finite n

theorem exact_roundsWithin : exact.RoundsWithin where
  error := by
    intro value hone _
    refine ⟨value, rfl, ?_⟩
    rw [sub_self, abs_zero]
    exact mul_nonneg (by norm_num [unitRoundoff]) (zero_le_one.trans hone)
  integer _ _ := rfl

theorem double_roundsWithin : Arithmetic.ieee.double.RoundsWithin where
  error := by
    intro value hone htop
    have hpos : 0 < value := zero_lt_one.trans_le hone
    have hsmall : |value| < 2 ^ 64 := by
      rw [abs_of_pos hpos]
      exact htop.trans_lt (by norm_num)
    refine ⟨Double.nearestAt 53 (-1022) value,
      @ieee_round_finite 53 (-1022) 1024 (by decide) (by decide) (by decide) value hsmall, ?_⟩
    · -- the first bit of the value is at least the bit of one
      have hlog : 0 ≤ Double.placeExponent (-1022) value := by
        apply le_max_of_le_left
        rw [abs_of_pos hpos]
        apply (Int.zpow_le_iff_le_log one_lt_two hpos).mp
        rw [zpow_zero]
        exact hone
      have hplace : (2 : ℚ) ^ Double.placeExponent (-1022) value ≤ value := by
        have hle : (2 : ℚ) ^ Double.placeExponent (-1022) value ≤ |value| :=
          Double.two_zpow_le_abs hpos.ne' (by omega)
        rwa [abs_of_pos hpos] at hle
      have hlast : Double.lastPlace 53 (-1022) value =
          2 ^ Double.placeExponent (-1022) value * (1 / 2 ^ 52) := by
        rw [Double.lastPlace, zpow_sub₀ two_ne_zero]
        norm_num [div_eq_mul_inv]
      calc |Double.nearestAt 53 (-1022) value - value|
          ≤ Double.lastPlace 53 (-1022) value / 2 := Double.abs_nearestAt_sub_le value
        _ = unitRoundoff * 2 ^ Double.placeExponent (-1022) value := by
            rw [hlast, unitRoundoff]
            ring
        _ ≤ unitRoundoff * value := mul_le_mul_of_nonneg_left hplace (by norm_num [unitRoundoff])
  integer := by
    intro n hn
    have hint : |(n : Int)| < 2 ^ 53 := by
      rw [abs_of_nonneg (Int.natCast_nonneg n)]
      exact_mod_cast hn
    exact ieee_round_intCast (n := n) (by decide) (by decide) (by decide) hint (hint.trans (by decide))

end Rounding

end DuckdbLerobot.Library
