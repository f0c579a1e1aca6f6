import Mathlib.Algebra.Order.Floor.Ring
import Mathlib.Algebra.Order.Field.Basic
import Mathlib.Tactic.FieldSimp
import Mathlib.Tactic.Linarith

/-!
# Uniform quantizers

A value between zero and one is coded by the nearest multiple of `1 / levels`, with ties to the even code.
Values outside are clipped before. The quantizer is monotone, it gives back the codes of its own levels,
and no level is further than half a step from the values that have its code.
-/

set_option autoImplicit false

namespace DuckdbLerobot.Library

universe u

variable {𝕜 : Type u} [Field 𝕜] [LinearOrder 𝕜] [IsStrictOrderedRing 𝕜] [FloorRing 𝕜]

/-! ## Rounding -/

/-- `std::nearbyint` in the default mode: the nearest integer, and the even one of two. -/
def nearbyint (value : 𝕜) : Int :=
  let lower := ⌊value⌋
  let fraction := value - lower
  if fraction < 1 / (2 : Nat) then lower
  else if 1 / (2 : Nat) < fraction then lower + 1
  else if lower % 2 = 0 then lower
  else lower + 1

omit [IsStrictOrderedRing 𝕜] in
theorem nearbyint_cases (value : 𝕜) :
    nearbyint value = ⌊value⌋ ∧ value - ⌊value⌋ ≤ 1 / 2 ∨
      nearbyint value = ⌊value⌋ + 1 ∧ 1 / 2 ≤ value - ⌊value⌋ := by
  unfold nearbyint
  dsimp only
  split
  · rename_i hless
    exact .inl ⟨rfl, hless.le⟩
  · rename_i hnot
    split
    · rename_i hmore
      exact .inr ⟨rfl, hmore.le⟩
    · rename_i hnotMore
      split
      · exact .inl ⟨rfl, not_lt.mp hnotMore⟩
      · exact .inr ⟨rfl, not_lt.mp hnot⟩

theorem abs_nearbyint_sub_le (value : 𝕜) : |(nearbyint value : 𝕜) - value| ≤ 1 / 2 := by
  have hfloor := Int.floor_le value
  have hlt := Int.lt_floor_add_one value
  rcases nearbyint_cases value with ⟨heq, hhalf⟩ | ⟨heq, hhalf⟩
  · rw [heq, abs_sub_comm, abs_of_nonneg (by linarith)]
    exact hhalf
  · rw [heq, Int.cast_add, Int.cast_one, abs_of_nonneg (by linarith)]
    linarith

theorem nearbyint_intCast (n : Int) : nearbyint (n : 𝕜) = n := by
  rw [nearbyint, Int.floor_intCast, sub_self, Nat.cast_ofNat, if_pos one_half_pos]

/-- **Rounding is monotone.** -/
theorem nearbyint_mono {a b : 𝕜} (h : a ≤ b) : nearbyint a ≤ nearbyint b := by
  have hfloor : ⌊a⌋ ≤ ⌊b⌋ := Int.floor_le_floor h
  rcases hfloor.lt_or_eq with hlt | heq
  · -- an integer is between them
    have hupper : nearbyint a ≤ ⌊a⌋ + 1 := by
      rcases nearbyint_cases a with ⟨heq, -⟩ | ⟨heq, -⟩ <;> omega
    have hlower : ⌊b⌋ ≤ nearbyint b := by
      rcases nearbyint_cases b with ⟨heq, -⟩ | ⟨heq, -⟩ <;> omega
    omega
  · -- with one floor, the fractions decide
    have hfraction : a - ⌊a⌋ ≤ b - ⌊a⌋ := sub_le_sub_right h _
    unfold nearbyint
    rw [← heq]
    dsimp only
    split_ifs with ha hb hb hb ha hb hb <;> first | omega | linarith

/-! ## Quantizing -/

/-- The code of a value that is clipped to the unit interval. -/
def quantize (levels : Nat) (value : 𝕜) : Nat := (nearbyint (max 0 (min 1 value) * levels)).toNat

/-- The value of a code. -/
def level (levels : Nat) (code : Nat) : 𝕜 := code / levels

section Quantize

variable {levels : Nat}

/-- Before the conversion the code is in range. -/
theorem nearbyint_range (levels : Nat) (value : 𝕜) :
    0 ≤ nearbyint (max 0 (min 1 value) * levels) ∧
      nearbyint (max 0 (min 1 value) * levels) ≤ levels := by
  have hnonneg : (0 : 𝕜) ≤ levels := Nat.cast_nonneg levels
  have hclipped : max 0 (min 1 value) ≤ 1 := max_le zero_le_one (min_le_left 1 value)
  constructor
  · have hmono : nearbyint ((0 : Int) : 𝕜) ≤ nearbyint (max 0 (min 1 value) * levels) := by
      apply nearbyint_mono
      rw [Int.cast_zero]
      exact mul_nonneg (le_max_left _ _) hnonneg
    rwa [nearbyint_intCast] at hmono
  · have hmono : nearbyint (max 0 (min 1 value) * levels) ≤ nearbyint ((levels : Int) : 𝕜) := by
      apply nearbyint_mono
      rw [Int.cast_natCast]
      exact mul_le_of_le_one_left hnonneg hclipped
    rwa [nearbyint_intCast] at hmono

theorem quantize_le (value : 𝕜) : quantize levels value ≤ levels := by
  have hrange := (nearbyint_range levels value).2
  unfold quantize
  omega

/-- **Quantizing is monotone.** -/
theorem quantize_mono {a b : 𝕜} (h : a ≤ b) : quantize levels a ≤ quantize levels b := by
  apply Int.toNat_le_toNat
  apply nearbyint_mono
  apply mul_le_mul_of_nonneg_right _ (Nat.cast_nonneg levels)
  exact max_le_max le_rfl (min_le_min le_rfl h)

theorem quantize_of_nonpos {value : 𝕜} (h : value ≤ 0) : quantize levels value = 0 := by
  have hclipped : max 0 (min 1 value) = 0 := max_eq_left ((min_le_right 1 value).trans h)
  have hzero := nearbyint_intCast (𝕜 := 𝕜) 0
  rw [Int.cast_zero] at hzero
  rw [quantize, hclipped, zero_mul, hzero]
  rfl

theorem quantize_of_one_le {value : 𝕜} (h : 1 ≤ value) : quantize levels value = levels := by
  have hclipped : max 0 (min 1 value) = 1 := by
    rw [min_eq_left h]
    exact max_eq_right zero_le_one
  have hlevels := nearbyint_intCast (𝕜 := 𝕜) levels
  rw [Int.cast_natCast] at hlevels
  rw [quantize, hclipped, one_mul, hlevels]
  rfl

/-- **A level has its own code.** -/
theorem quantize_level (hlevels : 0 < levels) {code : Nat} (h : code ≤ levels) :
    quantize levels (level levels code : 𝕜) = code := by
  have hpos : (0 : 𝕜) < levels := Nat.cast_pos.mpr hlevels
  have hnonneg : (0 : 𝕜) ≤ level levels code := div_nonneg (Nat.cast_nonneg code) hpos.le
  have hle : (level levels code : 𝕜) ≤ 1 := by
    rw [level, div_le_one hpos]
    exact_mod_cast h
  have hcode := nearbyint_intCast (𝕜 := 𝕜) code
  rw [Int.cast_natCast] at hcode
  rw [quantize, min_eq_right hle, max_eq_right hnonneg, level, div_mul_cancel₀ _ hpos.ne', hcode]
  rfl

/-- **A level is at most half a step from the values with its code.** -/
theorem abs_level_quantize_sub_le (hlevels : 0 < levels) {value : 𝕜} (hnonneg : 0 ≤ value)
    (hle : value ≤ 1) : |level levels (quantize levels value) - value| ≤ 1 / 2 * (1 / levels) := by
  have hpos : (0 : 𝕜) < levels := Nat.cast_pos.mpr hlevels
  have hclipped : max 0 (min 1 value) = value := by rw [min_eq_right hle, max_eq_right hnonneg]
  have hcode : ((quantize levels value : Nat) : 𝕜) = (nearbyint (value * levels) : 𝕜) := by
    have hrange := (nearbyint_range levels value).1
    rw [hclipped] at hrange
    rw [quantize, hclipped, ← Int.cast_natCast, Int.toNat_of_nonneg hrange]
  have hround := abs_nearbyint_sub_le (value * (levels : 𝕜))
  have hscaled : level levels (quantize levels value) - value =
      ((nearbyint (value * levels) : 𝕜) - value * levels) * (1 / levels) := by
    rw [level, hcode]
    field_simp
  rw [hscaled, abs_mul, abs_of_pos (one_div_pos.mpr hpos)]
  exact mul_le_mul_of_nonneg_right hround (one_div_pos.mpr hpos).le

end Quantize

end DuckdbLerobot.Library
