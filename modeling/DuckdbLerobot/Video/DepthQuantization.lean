import DuckdbLerobot.Copy.FileIndex
import DuckdbLerobot.Library.Containers
import DuckdbLerobot.Library.Fallible
import DuckdbLerobot.Library.UniformQuantizer
import Mathlib.Analysis.SpecialFunctions.Log.Basic

/-!
# Depths in videos

The writer codes a depth by twelve bits of a gray frame, linearly or by its logarithm, and the reader
computes a depth from the code. Both compute the bounds themselves, the writer in the unit of its input
and the reader in metres. Here the arithmetic is exact, over any ordered field: a conversion between
floating-point types is the identity, and a depth that is not finite is `none`.

With real numbers the two are inverse on the codes, and a depth is changed by at most half a step
(`depth_codes_inverse`).
-/

set_option autoImplicit false

namespace DuckdbLerobot.Video

open DuckdbLerobot.Library DuckdbLerobot.Copy

universe u

section Code

variable {𝕜 : Type u} [Field 𝕜] [LinearOrder 𝕜] [IsStrictOrderedRing 𝕜] [FloorRing 𝕜]

/-- The part of `LerobotVideoEncodingConfig` for depths, which the manifest keeps for the reader. -/
structure DepthEncoding (𝕜 : Type u) where
  depthMin : 𝕜
  depthMax : 𝕜
  depthShift : 𝕜
  depthUseLog : Bool
  depthClip : Bool

/-- `LEROBOT_DEPTH_QMAX`. -/
def depthQmax : Nat := 4095

namespace DepthEncoding

variable (log exp : 𝕜 → 𝕜) (options : DepthEncoding 𝕜)

/-! ## The options -/

/-- `LerobotValidFloat32DepthParameters`. -/
def validParameters : Bool :=
  if options.depthMax ≤ options.depthMin then false
  else if options.depthUseLog then
    let shiftedMin := options.depthMin + options.depthShift
    let shiftedMax := options.depthMax + options.depthShift
    if shiftedMin ≤ 0 ∨ shiftedMax ≤ shiftedMin then false
    else decide (0 < (log shiftedMax - log shiftedMin) / depthQmax)
  else decide (0 < (options.depthMax - options.depthMin) / depthQmax)

/-- The check of the options in one of the units. -/
def validUnit (scale : 𝕜) : Bool :=
  let low := options.depthMin * scale
  let high := options.depthMax * scale
  let shift := options.depthShift * scale
  decide (low < high) &&
    (!options.depthUseLog || (decide (0 < low + shift) && decide (low + shift < high + shift)))

/-- The options that COPY accepts. -/
def accepted : Bool :=
  decide (0 ≤ options.depthMin) && decide (options.depthMin < options.depthMax) &&
    (!options.depthUseLog || decide (0 < options.depthMin + options.depthShift)) &&
    options.validParameters log && options.validUnit 1 && options.validUnit (1000 : Nat)

/-! ## The writer -/

/-- `unit_scale` of `QuantizeDepth`. -/
def unitScale (millimeters : Bool) : 𝕜 := if millimeters then (1000 : Nat) else 1

/-- `normalized` of `QuantizeDepth`. -/
def normalized (depth : 𝕜) (millimeters : Bool) : 𝕜 :=
  let depthMin := options.depthMin * unitScale millimeters
  let depthMax := options.depthMax * unitScale millimeters
  let shift := options.depthShift * unitScale millimeters
  if options.depthUseLog then
    (log (depth + shift) - log (depthMin + shift)) /
      (log (depthMax + shift) - log (depthMin + shift))
  else (depth - depthMin) / (depthMax - depthMin)

/-- `QuantizeDepth`. -/
def quantizeDepth (depth : Option 𝕜) (millimeters : Bool) : Except CopyException Nat :=
  match depth with
  | none => .error (.invalidInput "LeRobot depth frames require finite values")
  | some depth =>
      if options.depthClip = false ∧ (depth < options.depthMin * unitScale millimeters ∨
          options.depthMax * unitScale millimeters < depth) then
        .error (.invalidInput
          "LeRobot depth value is outside DEPTH_MIN/DEPTH_MAX with DEPTH_CLIP=false")
      else if options.depthUseLog ∧ ¬0 < depth + options.depthShift * unitScale millimeters then
        .error (.invalidInput
          "LeRobot logarithmic depth values require depth + DEPTH_SHIFT > 0")
      else .ok (quantize depthQmax (options.normalized log depth millimeters))

/-- A pixel of a raw depth frame. -/
inductive RawDepth (𝕜 : Type u)
  | uint16 (value : Nat)
  | float32 (value : Option 𝕜)

/-- `FillDepthFrame`, of the pixels from left to right and from top to bottom. -/
def fillDepthFrame (raw : List (RawDepth 𝕜)) : Except CopyException (List Nat) :=
  raw.mapM fun pixel =>
    match pixel with
    | .uint16 value => options.quantizeDepth log (some value) true
    | .float32 value => options.quantizeDepth log value false

/-! ## The reader -/

/-- `depth_scale` of a shard decoder. -/
def depthScale : 𝕜 :=
  if options.depthUseLog then
    (log (options.depthMax + options.depthShift) - log (options.depthMin + options.depthShift)) /
      depthQmax
  else (options.depthMax - options.depthMin) / depthQmax

/-- `depth_offset` of a shard decoder. -/
def depthOffset : 𝕜 :=
  if options.depthUseLog then log (options.depthMin + options.depthShift) else options.depthMin

/-- The rounding of millimetres. -/
def roundMillimeters (depth : 𝕜) : 𝕜 :=
  if depth ≤ 0 then 0
  else if (65535 : Nat) ≤ depth then (65535 : Nat)
  else
    let lower := ⌊depth⌋
    let fraction := depth - lower
    if 1 / (2 : Nat) < fraction ∨ (fraction = 1 / (2 : Nat) ∧ lower % 2 ≠ 0) then lower + 1 else lower

/-- `DequantizeDepth`. -/
def dequantizeDepth (quantized : Nat) (millimeters : Bool) : 𝕜 :=
  let depth := quantized * options.depthScale log + options.depthOffset log
  let depth := if options.depthUseLog then exp depth - options.depthShift else depth
  let depth := max options.depthMin (min options.depthMax depth)
  if millimeters then roundMillimeters (depth * (1000 : Nat)) else depth

end DepthEncoding

end Code

/-! ## Real numbers -/

namespace DepthEncoding

variable {options : DepthEncoding ℝ}

@[simp] theorem unitScale_true : (unitScale true : ℝ) = 1000 := Nat.cast_ofNat

@[simp] theorem unitScale_false : (unitScale false : ℝ) = 1 := rfl

/-- What holds of the options that COPY accepts. -/
structure Ordered (options : DepthEncoding ℝ) : Prop where
  min_lt_max : options.depthMin < options.depthMax
  shifted_pos : options.depthUseLog = true → 0 < options.depthMin + options.depthShift

theorem Ordered.of_accepted (h : options.accepted Real.log = true) : options.Ordered := by
  unfold accepted at h
  simp only [Bool.and_eq_true, Bool.or_eq_true, decide_eq_true_eq, Bool.not_eq_true'] at h
  obtain ⟨⟨⟨⟨⟨-, hlt⟩, hlog⟩, -⟩, -⟩, -⟩ := h
  refine ⟨hlt, fun huse => ?_⟩
  rcases hlog with hnot | hpos
  · rw [huse] at hnot
    cases hnot
  · exact hpos

/-- The space in which the codes are uniform. -/
noncomputable def space (options : DepthEncoding ℝ) (depth : ℝ) : ℝ :=
  if options.depthUseLog then Real.log (depth + options.depthShift) else depth

/-- A depth that has a place in this space. -/
def InSpace (options : DepthEncoding ℝ) (depth : ℝ) : Prop :=
  options.depthUseLog = true → 0 < depth + options.depthShift

theorem space_mono {a b : ℝ} (ha : options.InSpace a) (h : a ≤ b) :
    options.space a ≤ options.space b := by
  unfold space
  split
  · rename_i huse
    exact Real.log_le_log (ha huse) (by linarith)
  · exact h

theorem Ordered.space_lt (h : options.Ordered) :
    options.space options.depthMin < options.space options.depthMax := by
  unfold space
  split
  · rename_i huse
    exact Real.log_lt_log (h.shifted_pos huse) (by linarith [h.min_lt_max])
  · exact h.min_lt_max

/-- The normalized depth is the place between the bounds. -/
theorem normalized_meters (depth : ℝ) :
    options.normalized Real.log depth false =
      (options.space depth - options.space options.depthMin) /
        (options.space options.depthMax - options.space options.depthMin) := by
  unfold normalized space
  simp only [unitScale_false, mul_one]
  split <;> rfl

/-- Millimetres are normalized as metres are: a factor is a summand of the logarithm. -/
theorem normalized_millimeters (h : options.Ordered) {depth : ℝ} (hdepth : options.InSpace depth) :
    options.normalized Real.log (depth * 1000) true = options.normalized Real.log depth false := by
  unfold normalized
  simp only [unitScale_true, unitScale_false, mul_one, ← add_mul, ← sub_mul]
  split
  · rename_i huse
    have hmin := h.shifted_pos huse
    have hmax : 0 < options.depthMax + options.depthShift := by linarith [h.min_lt_max]
    rw [Real.log_mul (hdepth huse).ne' (by norm_num), Real.log_mul hmin.ne' (by norm_num),
      Real.log_mul hmax.ne' (by norm_num), add_sub_add_right_eq_sub, add_sub_add_right_eq_sub]
  · exact mul_div_mul_right _ _ (by norm_num)

/-- **A depth and its thousandfold in millimetres have the same code**, or both are refused. -/
theorem quantizeDepth_millimeters (h : options.Ordered) (depth : ℝ) :
    options.quantizeDepth Real.log (some (depth * 1000)) true =
      options.quantizeDepth Real.log (some depth) false := by
  have hpos : (0 : ℝ) < 1000 := by norm_num
  have hbelow : depth * 1000 < options.depthMin * 1000 ↔ depth < options.depthMin :=
    mul_lt_mul_iff_of_pos_right hpos
  have habove : options.depthMax * 1000 < depth * 1000 ↔ options.depthMax < depth :=
    mul_lt_mul_iff_of_pos_right hpos
  have hshift : 0 < depth * 1000 + options.depthShift * 1000 ↔ 0 < depth + options.depthShift := by
    rw [← add_mul, mul_pos_iff_of_pos_right hpos]
  unfold quantizeDepth
  simp only [unitScale_true, unitScale_false, mul_one, hbelow, habove, hshift]
  split
  · rfl
  · split
    · rfl
    · rename_i hlog
      have hdepth : options.InSpace depth := by
        intro huse
        rw [huse] at hlog
        by_contra hnot
        exact hlog ⟨rfl, hnot⟩
      rw [normalized_millimeters h hdepth]

/-- What is not refused when depths are clipped, and its code. -/
theorem quantizeDepth_eq_ok (hclip : options.depthClip = true) {depth : ℝ} {code : Nat} :
    options.quantizeDepth Real.log (some depth) false = .ok code ↔
      options.InSpace depth ∧
        code = quantize depthQmax (options.normalized Real.log depth false) := by
  unfold quantizeDepth unitScale InSpace
  simp only [hclip, Bool.true_eq_false, false_and, Bool.false_eq_true, if_false, mul_one,
    except_check_eq_ok, not_and, not_not]
  apply and_congr_right
  intro _
  rw [Except.ok.injEq, eq_comm]

theorem normalized_mono (h : options.Ordered) {a b : ℝ} (ha : options.InSpace a) (hab : a ≤ b) :
    options.normalized Real.log a false ≤ options.normalized Real.log b false := by
  rw [normalized_meters, normalized_meters]
  apply div_le_div_of_nonneg_right _ (sub_pos.mpr h.space_lt).le
  exact sub_le_sub_right (space_mono ha hab) _

theorem normalized_depthMin (options : DepthEncoding ℝ) :
    options.normalized Real.log options.depthMin false = 0 := by
  rw [normalized_meters, sub_self, zero_div]

theorem normalized_depthMax (h : options.Ordered) :
    options.normalized Real.log options.depthMax false = 1 := by
  rw [normalized_meters]
  exact div_self (sub_pos.mpr h.space_lt).ne'

theorem Ordered.inSpace_depthMin (h : options.Ordered) : options.InSpace options.depthMin :=
  h.shifted_pos

theorem InSpace.mono {a b : ℝ} (ha : options.InSpace a) (h : a ≤ b) : options.InSpace b := by
  intro huse
  have hpos := ha huse
  linarith

/-! ## Levels -/

/-- The place of a code in the space. -/
theorem place_eq (options : DepthEncoding ℝ) (code : Nat) :
    code * options.depthScale Real.log + options.depthOffset Real.log =
      options.space options.depthMin + level depthQmax code *
        (options.space options.depthMax - options.space options.depthMin) := by
  unfold depthScale depthOffset space level
  split <;> ring

/-- The depth at a place in the space. -/
noncomputable def depthAt (options : DepthEncoding ℝ) (place : ℝ) : ℝ :=
  if options.depthUseLog then Real.exp place - options.depthShift else place

theorem space_depthAt (options : DepthEncoding ℝ) (place : ℝ) :
    options.space (options.depthAt place) = place := by
  unfold space depthAt
  split
  · rw [sub_add_cancel, Real.log_exp]
  · rfl

theorem depthAt_space {depth : ℝ} (h : options.InSpace depth) :
    options.depthAt (options.space depth) = depth := by
  unfold space depthAt
  split
  · rename_i huse
    rw [Real.exp_log (h huse), add_sub_cancel_right]
  · rfl

theorem depthAt_mono (options : DepthEncoding ℝ) {a b : ℝ} (h : a ≤ b) :
    options.depthAt a ≤ options.depthAt b := by
  unfold depthAt
  split
  · exact sub_le_sub_right (Real.exp_le_exp.mpr h) _
  · exact h

theorem inSpace_depthAt (options : DepthEncoding ℝ) (place : ℝ) :
    options.InSpace (options.depthAt place) := by
  intro huse
  rw [depthAt, if_pos huse, sub_add_cancel]
  exact Real.exp_pos place

/-- **The reader returns the depth at the place of a code.** The bounds do not change it. -/
theorem dequantizeDepth_eq (h : options.Ordered) {code : Nat} (hcode : code ≤ depthQmax) :
    options.dequantizeDepth Real.log Real.exp code false =
      options.depthAt (options.space options.depthMin + level depthQmax code *
        (options.space options.depthMax - options.space options.depthMin)) := by
  have hrange := sub_pos.mpr h.space_lt
  have hqmax : (0 : ℝ) < (depthQmax : Nat) := Nat.cast_pos.mpr (by decide)
  have hnonneg : (0 : ℝ) ≤ level depthQmax code := div_nonneg (Nat.cast_nonneg code) hqmax.le
  have hone : (level depthQmax code : ℝ) ≤ 1 := by
    rw [level, div_le_one hqmax]
    exact_mod_cast hcode
  have hlower : options.space options.depthMin ≤ options.space options.depthMin +
      level depthQmax code * (options.space options.depthMax - options.space options.depthMin) :=
    le_add_of_nonneg_right (mul_nonneg hnonneg hrange.le)
  have hupper : options.space options.depthMin +
      level depthQmax code * (options.space options.depthMax - options.space options.depthMin) ≤
        options.space options.depthMax := by
    have hscaled := mul_le_of_le_one_left hrange.le hone
    linarith
  have hmin := options.depthAt_mono hlower
  have hmax := options.depthAt_mono hupper
  rw [depthAt_space h.inSpace_depthMin] at hmin
  rw [depthAt_space (h.inSpace_depthMin.mono h.min_lt_max.le)] at hmax
  unfold dequantizeDepth
  rw [place_eq, if_neg Bool.false_ne_true]
  exact (congrArg (max options.depthMin) (min_eq_right hmax)).trans (max_eq_right hmin)

/-- The normalized depth of a code is its level. -/
theorem normalized_dequantizeDepth (h : options.Ordered) {code : Nat} (hcode : code ≤ depthQmax) :
    options.normalized Real.log (options.dequantizeDepth Real.log Real.exp code false) false =
      level depthQmax code := by
  rw [normalized_meters, dequantizeDepth_eq h hcode, space_depthAt, add_sub_cancel_left]
  exact mul_div_cancel_right₀ _ (sub_pos.mpr h.space_lt).ne'

/-- **Coding and decoding of depths.** Codes are monotone in the depth and in range, metres and
millimetres have the same codes, a code is the code of its depth, and the depth of a code is at most
half a step away. -/
theorem depth_codes_inverse {options : DepthEncoding ℝ} (haccepted : options.accepted Real.log = true)
    (hclip : options.depthClip = true) :
    (∀ millimeters depth depth' code code', depth ≤ depth' →
        options.quantizeDepth Real.log (some depth) millimeters = .ok code →
        options.quantizeDepth Real.log (some depth') millimeters = .ok code' → code ≤ code') ∧
      (∀ millimeters depth code,
        options.quantizeDepth Real.log (some depth) millimeters = .ok code → code ≤ 4095 ∧
          (depth ≤ options.depthMin * unitScale millimeters → code = 0) ∧
          (options.depthMax * unitScale millimeters ≤ depth → code = 4095)) ∧
      (∀ depth, options.quantizeDepth Real.log (some (depth * 1000)) true =
        options.quantizeDepth Real.log (some depth) false) ∧
      (∀ code ≤ 4095, options.quantizeDepth Real.log
        (some (options.dequantizeDepth Real.log Real.exp code false)) false = .ok code) ∧
      ∀ depth, options.depthMin ≤ depth → depth ≤ options.depthMax →
        ∃ code, options.quantizeDepth Real.log (some depth) false = .ok code ∧
          |options.normalized Real.log (options.dequantizeDepth Real.log Real.exp code false) false -
              options.normalized Real.log depth false| ≤ 1 / 2 * (1 / 4095) := by
  have h := Ordered.of_accepted haccepted
  -- a depth in millimetres is the thousandfold of one in metres
  have hmeters : ∀ (millimeters : Bool) depth,
      options.quantizeDepth Real.log (some depth) millimeters =
        options.quantizeDepth Real.log (some (depth / unitScale millimeters)) false := by
    intro millimeters depth
    cases millimeters with
    | false => rw [unitScale_false, div_one]
    | true =>
        rw [← quantizeDepth_millimeters h, unitScale_true, div_mul_cancel₀ _ (by norm_num)]
  have hunit : ∀ millimeters, (0 : ℝ) < unitScale millimeters := by
    intro millimeters
    cases millimeters <;> norm_num
  have hqmax : depthQmax = 4095 := rfl
  refine ⟨?_, ?_, quantizeDepth_millimeters h, ?_, ?_⟩
  · intro millimeters depth depth' code code' hle hcode hcode'
    rw [hmeters, quantizeDepth_eq_ok hclip] at hcode hcode'
    rw [hcode.2, hcode'.2]
    apply quantize_mono
    apply normalized_mono h hcode.1
    exact div_le_div_of_nonneg_right hle (hunit millimeters).le
  · intro millimeters depth code hcode
    rw [hmeters, quantizeDepth_eq_ok hclip] at hcode
    obtain ⟨hspace, rfl⟩ := hcode
    refine ⟨quantize_le _, ?_, ?_⟩
    · intro hlow
      apply quantize_of_nonpos
      rw [← normalized_depthMin options]
      exact normalized_mono h hspace ((div_le_iff₀ (hunit millimeters)).mpr hlow)
    · intro hhigh
      apply quantize_of_one_le
      rw [← normalized_depthMax h]
      apply normalized_mono h (h.inSpace_depthMin.mono h.min_lt_max.le)
      exact (le_div_iff₀ (hunit millimeters)).mpr hhigh
  · intro code hcode
    rw [quantizeDepth_eq_ok hclip, normalized_dequantizeDepth h hcode]
    refine ⟨?_, (quantize_level (by decide) hcode).symm⟩
    rw [dequantizeDepth_eq h hcode]
    exact inSpace_depthAt options _
  · intro depth hmin hmax
    have hspace := h.inSpace_depthMin.mono hmin
    refine ⟨_, (quantizeDepth_eq_ok hclip).mpr ⟨hspace, rfl⟩, ?_⟩
    rw [normalized_dequantizeDepth h (quantize_le _)]
    have hnonneg := normalized_mono h h.inSpace_depthMin hmin
    have hone := normalized_mono h hspace hmax
    rw [normalized_depthMin] at hnonneg
    rw [normalized_depthMax h] at hone
    have hstep := abs_level_quantize_sub_le (show 0 < depthQmax by decide) hnonneg hone
    rw [hqmax, Nat.cast_ofNat] at hstep
    exact hstep

/-- Logarithmic codes from one to ten metres, with a negative shift. -/
noncomputable def nearRange : DepthEncoding ℝ where
  depthMin := 1
  depthMax := (10 : Nat)
  depthShift := -1 / (2 : Nat)
  depthUseLog := true
  depthClip := true

theorem nearRange_code :
    nearRange.quantizeDepth Real.log
      (some (nearRange.dequantizeDepth Real.log Real.exp 7 false)) false = .ok 7 := by
  have hlog : Real.log (1 + -1 / 2) < Real.log (10 + -1 / 2) :=
    Real.log_lt_log (by norm_num) (by norm_num)
  have hstep : 0 < (Real.log (10 + -1 / 2) - Real.log (1 + -1 / 2)) / (depthQmax : Nat) :=
    div_pos (sub_pos.mpr hlog) (Nat.cast_pos.mpr (by decide))
  have haccepted : nearRange.accepted Real.log = true := by
    simp only [accepted, validParameters, validUnit, nearRange, Nat.cast_ofNat, hstep]
    norm_num
  exact (depth_codes_inverse haccepted rfl).2.2.2.1 7 (by decide)

/-- Every code of a frame is one of the twelve bits. -/
theorem fillDepthFrame_le {options : DepthEncoding ℝ} {raw : List (RawDepth ℝ)} {codes : List Nat}
    (h : options.fillDepthFrame Real.log raw = .ok codes) : ∀ code ∈ codes, code ≤ depthQmax := by
  have hpixel : ∀ (depth : Option ℝ) millimeters code,
      options.quantizeDepth Real.log depth millimeters = .ok code → code ≤ depthQmax := by
    intro depth millimeters code hcode
    cases depth with
    | none => cases hcode
    | some depth =>
        simp only [quantizeDepth, except_check_eq_ok] at hcode
        cases hcode.2.2
        exact quantize_le _
  intro code hcode
  obtain ⟨pixel, -, hpixelCode⟩ := exists_left_of_forall₂ (mapM_eq_ok.mp h) hcode
  cases pixel with
  | uint16 value => exact hpixel _ _ _ hpixelCode
  | float32 value => exact hpixel _ _ _ hpixelCode

end DepthEncoding

end DuckdbLerobot.Video
