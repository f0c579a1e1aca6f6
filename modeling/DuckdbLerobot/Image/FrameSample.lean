import DuckdbLerobot.Image.VisualStats
import DuckdbLerobot.Library.RelativeError

/-!
# The sampled frames of an episode

The statistics of a video are computed from some of its frames, at equal distances (`SampleVisualFrameIndices`). The
distance is rounded, and so is each multiple of it; only the last index is put right. `sampleVisualFrameIndices_valid`
says that the indexes are distinct frames of the episode all the same: a multiple is wrong by far less than the
distance exceeds one, or the distance is one exactly.
-/

set_option autoImplicit false

namespace DuckdbLerobot.Image

open DuckdbLerobot.Library DuckdbLerobot.Copy

/-! ## The sample -/

/-- The number of samples. `power` is the result of `std::pow(frame_count, 0.75)`. -/
def visualSampleCount (power : ℚ) (frameCount : Nat) : Nat :=
  let minimumSamples := min 100 frameCount
  let estimated := ⌊power⌋₊
  max minimumSamples (min estimated 10000)

/-- The step of `np.linspace`. -/
def sampleDistance (quotient : Rounding) (frameCount sampleCount : Nat) : Double :=
  quotient.round ((frameCount - 1 : Nat) / (sampleCount - 1 : Nat))

/-- One index of the sample. The last one is not a multiple of the step. -/
def sampledFrameIndex (product : Rounding) (step : Double) (frameCount sampleCount index : Nat) : Nat :=
  let position :=
    if index + 1 = sampleCount then .finite (frameCount - 1 : Nat) else product.map (fun step => index * step) step
  -- `static_cast<idx_t>(std::nearbyint(position))`
  (Double.halfToEven position.toRat).toNat

/-- `SampleVisualFrameIndices`. An integer up to 2^53 is a `double`. -/
def sampleVisualFrameIndices (quotient product : Rounding) (power : ℚ) (frameCount : Nat) : List Nat :=
  if frameCount = 0 then []
  else
    let sampleCount := visualSampleCount power frameCount
    if sampleCount = 1 then [0]
    else
      let step := sampleDistance quotient frameCount sampleCount
      (List.range sampleCount).map (sampledFrameIndex product step frameCount sampleCount)

/-- Distinct frames of an episode, from the first to the last. -/
structure SampledFrames (frameCount : Nat) (indices : List Nat) : Prop where
  increasing : indices.Pairwise (· < ·)
  below : ∀ index ∈ indices, index < frameCount
  first : indices.head? = some 0
  last : indices.getLast? = some (frameCount - 1)
  single : frameCount = 1 → indices = [0]
  length_ge : min 100 frameCount ≤ indices.length
  length_le : indices.length ≤ 10000

/-! ## The number of samples -/

theorem visualSampleCount_bounds {power : ℚ} {frameCount : Nat} (hpower : power ≤ frameCount) :
    min 100 frameCount ≤ visualSampleCount power frameCount ∧ visualSampleCount power frameCount ≤ 10000 ∧
      visualSampleCount power frameCount ≤ frameCount := by
  have hestimated : ⌊power⌋₊ ≤ frameCount := Nat.floor_le_of_le hpower
  unfold visualSampleCount
  dsimp only
  omega

/-! ## The positions -/

/-- A sample of more than one frame, with the spans that the step is the quotient of. -/
structure Spans (frames samples : Nat) : Prop where
  samples_pos : 0 < samples
  samples_le : samples ≤ frames
  samples_lt : samples < 10000
  frames_lt : frames < 2 ^ 53

section Positions

variable {quotient product : Rounding} {frames samples : Nat}

/-- The exact distance. -/
def exactDistance (frames samples : Nat) : ℚ := frames / samples

/-- What is known of the positions: the first is zero, the others are nearly the multiples of the exact distance. -/
structure NearPositions (frames samples : Nat) (position : Nat → ℚ) : Prop where
  zero : position 0 = 0
  near : ∀ index, 0 < index → index < samples →
    |position index - index * exactDistance frames samples| ≤
      3 * Rounding.unitRoundoff * (index * exactDistance frames samples)

/-- Two nearest integers of values that are more than one apart. -/
theorem halfToEven_lt {a b : ℚ} (h : a + 1 < b) : Double.halfToEven a < Double.halfToEven b := by
  have hlow := abs_le.mp (Double.abs_halfToEven_sub_le a)
  have hhigh := abs_le.mp (Double.abs_halfToEven_sub_le b)
  have hlt : (Double.halfToEven a : ℚ) < Double.halfToEven b := by linarith
  exact_mod_cast hlt

/-- The errors are small, even of the longest sample. -/
theorem small_error (index : Nat) (h : index < 10000) : 3 * Rounding.unitRoundoff * index ≤ 1 / 100000 := by
  have hcast : (index : ℚ) ≤ 10000 := by exact_mod_cast h.le
  have hunit : Rounding.unitRoundoff = 1 / 2 ^ 53 := rfl
  rw [hunit]
  calc 3 * (1 / 2 ^ 53) * (index : ℚ) ≤ 3 * (1 / 2 ^ 53) * 10000 :=
        mul_le_mul_of_nonneg_left hcast (by norm_num)
    _ ≤ 1 / 100000 := by norm_num

/-- **Consecutive positions have different nearest integers**, if there are more frames than samples. -/
theorem near_increasing (h : Spans frames samples) (hfewer : samples < frames) {position : Nat → ℚ}
    (hnear : NearPositions frames samples position) {index : Nat} (hindex : index + 1 < samples) :
    Double.halfToEven (position index) < Double.halfToEven (position (index + 1)) := by
  have hsamples : (0 : ℚ) < samples := by exact_mod_cast h.samples_pos
  -- the distance exceeds one by the part of a sample at least
  have hdistance : 1 + 1 / 10000 ≤ exactDistance frames samples := by
    have hframes : (samples : ℚ) + 1 ≤ frames := by exact_mod_cast hfewer
    have htop : (samples : ℚ) ≤ 10000 := by exact_mod_cast h.samples_lt.le
    rw [exactDistance, le_div_iff₀ hsamples]
    linarith
  have hpos : 0 < exactDistance frames samples := by linarith
  have hnext := (abs_le.mp (hnear.near (index + 1) (Nat.succ_pos index) hindex)).1
  have hnextError := small_error (index + 1) (hindex.trans h.samples_lt)
  have hcurrent : position index ≤ index * exactDistance frames samples +
      3 * Rounding.unitRoundoff * index * exactDistance frames samples := by
    rcases Nat.eq_zero_or_pos index with rfl | hindexPos
    · rw [hnear.zero]
      simp
    · have hupper := (abs_le.mp (hnear.near index hindexPos (by omega))).2
      linarith
  have hcurrentError := small_error index ((Nat.lt_succ_self index).trans (hindex.trans h.samples_lt))
  apply halfToEven_lt
  push_cast at hnext hnextError
  nlinarith

/-- The last position that is a multiple is before the last frame. -/
theorem near_last (h : Spans frames samples) {position : Nat → ℚ} (hnear : NearPositions frames samples position)
    {index : Nat} (hindex : index + 1 = samples) : Double.halfToEven (position index) < frames := by
  have hsamples : (0 : ℚ) < samples := by exact_mod_cast h.samples_pos
  have hdistance : 1 ≤ exactDistance frames samples := by
    have hframes : (samples : ℚ) ≤ frames := by exact_mod_cast h.samples_le
    rw [exactDistance, le_div_iff₀ hsamples]
    linarith
  have hframes : (frames : ℚ) = (index + 1) * exactDistance frames samples := by
    have hcast : (samples : ℚ) = index + 1 := by exact_mod_cast hindex.symm
    rw [exactDistance, ← hcast, mul_div_cancel₀ _ hsamples.ne']
  have hcurrent : position index ≤ index * exactDistance frames samples +
      3 * Rounding.unitRoundoff * index * exactDistance frames samples := by
    rcases Nat.eq_zero_or_pos index with rfl | hindexPos
    · rw [hnear.zero]
      simp
    · have hupper := (abs_le.mp (hnear.near index hindexPos (by omega))).2
      linarith
  have hbound : index < samples := hindex ▸ Nat.lt_succ_self index
  have herror := small_error index (hbound.trans h.samples_lt)
  have hnearest := (abs_le.mp (Double.abs_halfToEven_sub_le (position index))).2
  have hlt : (Double.halfToEven (position index) : ℚ) < frames := by nlinarith
  exact_mod_cast hlt

/-- **The multiples of the rounded distance are nearly those of the exact one.** -/
theorem nearPositions (h : Spans frames samples) (hfewer : samples < frames) (hquotient : quotient.RoundsWithin)
    (hproduct : product.RoundsWithin) :
    ∃ step, quotient.round (frames / samples) = .finite step ∧
      NearPositions frames samples fun index => (product.round (index * step)).toRat := by
  have hsamples : (0 : ℚ) < samples := by exact_mod_cast h.samples_pos
  have hunit : Rounding.unitRoundoff = 1 / 2 ^ 53 := rfl
  have hdistance : 1 + 1 / 10000 ≤ exactDistance frames samples := by
    have hframes : (samples : ℚ) + 1 ≤ frames := by exact_mod_cast hfewer
    have htop : (samples : ℚ) ≤ 10000 := by exact_mod_cast h.samples_lt.le
    rw [exactDistance, le_div_iff₀ hsamples]
    linarith
  have htotal : samples * exactDistance frames samples = frames := by
    rw [exactDistance, mul_div_cancel₀ _ hsamples.ne']
  have hframes : (frames : ℚ) ≤ 2 ^ 53 := by exact_mod_cast h.frames_lt.le
  have hone : (1 : ℚ) ≤ samples := by exact_mod_cast h.samples_pos
  have htop : exactDistance frames samples ≤ 2 ^ 53 := by nlinarith
  obtain ⟨step, hstep, herror⟩ := hquotient.error (exactDistance frames samples) (by linarith) (by linarith)
  rw [hunit] at herror
  have hlow := (abs_le.mp herror).1
  have hhigh := (abs_le.mp herror).2
  refine ⟨step, hstep, ?_, ?_⟩
  · rw [Nat.cast_zero, zero_mul, product.round_zero]
    rfl
  · intro index hindex hlt
    have hindexOne : (1 : ℚ) ≤ index := by exact_mod_cast hindex
    have hindexLe : (index : ℚ) ≤ samples := by exact_mod_cast hlt.le
    have hstepOne : 1 ≤ step := by linarith
    have hexact : (index : ℚ) * exactDistance frames samples ≤ 2 ^ 53 := by nlinarith
    have hproductOne : 1 ≤ (index : ℚ) * step := by nlinarith
    have hindexError : |(index : ℚ) * step - index * exactDistance frames samples| ≤
        1 / 2 ^ 53 * (index * exactDistance frames samples) := by
      rw [← mul_sub, abs_mul, abs_of_nonneg (zero_le_one.trans hindexOne)]
      calc (index : ℚ) * |step - exactDistance frames samples|
          ≤ index * (1 / 2 ^ 53 * exactDistance frames samples) :=
            mul_le_mul_of_nonneg_left herror (zero_le_one.trans hindexOne)
        _ = 1 / 2 ^ 53 * (index * exactDistance frames samples) := by ring
    have hindexHigh := (abs_le.mp hindexError).2
    obtain ⟨result, hresult, hresultError⟩ := hproduct.error ((index : ℚ) * step) hproductOne (by linarith)
    rw [hunit] at hresultError
    rw [hresult, Double.toRat_finite, hunit]
    calc |result - index * exactDistance frames samples|
        ≤ |result - index * step| + |(index : ℚ) * step - index * exactDistance frames samples| :=
          abs_sub_le _ _ _
      _ ≤ 1 / 2 ^ 53 * (index * step) + 1 / 2 ^ 53 * (index * exactDistance frames samples) :=
          add_le_add hresultError hindexError
      _ ≤ 3 * (1 / 2 ^ 53) * (index * exactDistance frames samples) := by linarith

end Positions

/-! ## The indexes -/

section Indexes

variable {quotient product : Rounding} {frameCount sampleCount : Nat}

/-- The spans of a sample of more than one frame. -/
theorem spans_of_counts (hsamples : 2 ≤ sampleCount) (hle : sampleCount ≤ frameCount) (htop : sampleCount ≤ 10000)
    (hmax : frameCount ≤ 2 ^ 53) : Spans (frameCount - 1) (sampleCount - 1) where
  samples_pos := by omega
  samples_le := by omega
  samples_lt := by omega
  frames_lt := by omega

/-- The last index is the last frame. -/
theorem sampledFrameIndex_last (step : Double) {index : Nat} (h : index + 1 = sampleCount) :
    sampledFrameIndex product step frameCount sampleCount index = frameCount - 1 := by
  have hcast : Double.halfToEven ((frameCount - 1 : Nat) : ℚ) = (frameCount - 1 : Nat) :=
    Double.halfToEven_intCast _
  rw [sampledFrameIndex, if_pos h, Double.toRat_finite, hcast, Int.toNat_natCast]

theorem sampledFrameIndex_multiple (step : ℚ) {index : Nat} (h : index + 1 ≠ sampleCount) :
    sampledFrameIndex product (.finite step) frameCount sampleCount index =
      (Double.halfToEven (product.round (index * step)).toRat).toNat := by
  rw [sampledFrameIndex, if_neg h]
  rfl

/-- **The first index is the first frame, and each index is below the next.** -/
theorem sampledFrameIndex_step (hsamples : 2 ≤ sampleCount) (hle : sampleCount ≤ frameCount)
    (htop : sampleCount ≤ 10000) (hmax : frameCount ≤ 2 ^ 53) (hquotient : quotient.RoundsWithin)
    (hproduct : product.RoundsWithin) :
    let index := sampledFrameIndex product (sampleDistance quotient frameCount sampleCount) frameCount sampleCount
    index 0 = 0 ∧ ∀ i, i + 1 < sampleCount → index i < index (i + 1) := by
  have hspans := spans_of_counts hsamples hle htop hmax
  obtain ⟨step, hstep, hzero, hincreasing, hlast⟩ : ∃ step,
      sampleDistance quotient frameCount sampleCount = .finite step ∧
      Double.halfToEven (product.round ((0 : Nat) * step)).toRat = 0 ∧
      (∀ i, i + 1 < sampleCount - 1 → Double.halfToEven (product.round (i * step)).toRat <
        Double.halfToEven (product.round ((i + 1 : Nat) * step)).toRat) ∧
      ∀ i, i + 1 = sampleCount - 1 →
        Double.halfToEven (product.round (i * step)).toRat < (frameCount - 1 : Nat) := by
    have hroundZero (step : ℚ) : Double.halfToEven (product.round ((0 : Nat) * step)).toRat = 0 := by
      rw [Nat.cast_zero, zero_mul, product.round_zero]
      exact Double.halfToEven_intCast 0
    rcases hspans.samples_le.lt_or_eq with hfewer | hsame
    · obtain ⟨step, hstep, hnear⟩ := nearPositions hspans hfewer hquotient hproduct
      exact ⟨step, hstep, hroundZero step, fun i hi => near_increasing hspans hfewer hnear hi,
        fun i hi => near_last hspans hnear hi⟩
    · -- every frame is sampled, and the distance is one
      have hexact : ((frameCount - 1 : Nat) : ℚ) / (sampleCount - 1 : Nat) = (1 : Nat) := by
        rw [hsame, Nat.cast_one, div_self]
        have hpos := hspans.samples_pos
        exact_mod_cast (hsame ▸ hpos).ne'
      have hposition : ∀ i < 10000, Double.halfToEven (product.round ((i : Nat) * ((1 : Nat) : ℚ))).toRat = i := by
        intro i hi
        rw [Nat.cast_one, mul_one, hproduct.integer i (hi.trans (by decide)), Double.toRat_finite]
        exact Double.halfToEven_intCast i
      refine ⟨(1 : Nat), ?_, hroundZero _, ?_, ?_⟩
      · rw [sampleDistance, hexact]
        exact hquotient.integer 1 (by decide)
      · intro i hi
        rw [hposition i (by omega), hposition (i + 1) (by omega)]
        omega
      · intro i hi
        rw [hposition i (by omega)]
        omega
  have hnonneg : ∀ i, i + 1 < sampleCount → 0 ≤ Double.halfToEven (product.round (i * step)).toRat := by
    intro i
    induction i with
    | zero =>
        intro _
        exact hzero.ge
    | succ i ih =>
        intro hi
        exact (ih (by omega)).trans (hincreasing i (by omega)).le
  dsimp only
  rw [hstep]
  constructor
  · rw [sampledFrameIndex_multiple step (by omega), hzero]
    rfl
  · intro i hi
    rw [sampledFrameIndex_multiple step (by omega)]
    have hpos := hnonneg i hi
    by_cases hend : i + 1 + 1 = sampleCount
    · rw [sampledFrameIndex_last _ hend]
      have hlt := hlast i (by omega)
      omega
    · rw [sampledFrameIndex_multiple step hend]
      have hlt := hincreasing i (by omega)
      omega

/-- A list that increases from each index to the next one increases. -/
theorem increasing_of_step {index : Nat → Nat} (h : ∀ i, i + 1 < sampleCount → index i < index (i + 1)) {i j : Nat}
    (hlt : i < j) (hj : j < sampleCount) : index i < index j := by
  induction j with
  | zero => exact absurd hlt (Nat.not_lt_zero i)
  | succ j ih =>
      rcases (Nat.lt_succ_iff.mp hlt).lt_or_eq with hless | rfl
      · exact (ih hless (by omega)).trans (h j hj)
      · exact h i hj

end Indexes

/-! ## The sampled frames -/

section Sampled

variable {quotient product : Rounding} {power : ℚ} {frameCount : Nat}

/-- The arithmetic of the sample: exact, or that of `double`. -/
def ExactOrDouble (rounding : Rounding) : Prop := rounding = Rounding.exact ∨ rounding = Arithmetic.ieee.double

theorem ExactOrDouble.roundsWithin {rounding : Rounding} (h : ExactOrDouble rounding) : rounding.RoundsWithin := by
  rcases h with rfl | rfl
  · exact Rounding.exact_roundsWithin
  · exact Rounding.double_roundsWithin

/-- The only frame of an episode is sampled. -/
theorem sampleVisualFrameIndices_one (hpower : power ≤ (1 : Nat)) :
    sampleVisualFrameIndices quotient product power 1 = [0] := by
  have hbounds := visualSampleCount_bounds hpower
  have hcount : visualSampleCount power 1 = 1 := le_antisymm hbounds.2.2 hbounds.1
  rw [sampleVisualFrameIndices, if_neg one_ne_zero]
  dsimp only
  rw [if_pos hcount]

theorem sampledFrames_one : SampledFrames 1 [0] where
  increasing := List.pairwise_singleton _ _
  below := by
    intro index hindex
    rw [List.mem_singleton.mp hindex]
    exact Nat.zero_lt_one
  first := rfl
  last := rfl
  single _ := rfl
  length_ge := by decide
  length_le := by decide

/-- **The sampled indexes are distinct frames of the episode, from the first to the last.** -/
theorem sampledFrames_of_roundsWithin (hquotient : quotient.RoundsWithin) (hproduct : product.RoundsWithin)
    (hpos : 1 ≤ frameCount) (hmax : frameCount ≤ 2 ^ 53) (hpower : power ≤ frameCount) :
    SampledFrames frameCount (sampleVisualFrameIndices quotient product power frameCount) := by
  rcases hpos.lt_or_eq with hmore | rfl
  · obtain ⟨hge, htop, hle⟩ := visualSampleCount_bounds hpower
    have hsamples : 2 ≤ visualSampleCount power frameCount := by omega
    have hindices : sampleVisualFrameIndices quotient product power frameCount =
        (List.range (visualSampleCount power frameCount)).map (sampledFrameIndex product
          (sampleDistance quotient frameCount (visualSampleCount power frameCount)) frameCount
          (visualSampleCount power frameCount)) := by
      rw [sampleVisualFrameIndices, if_neg (by omega)]
      dsimp only
      rw [if_neg (by omega)]
    have hstep := sampledFrameIndex_step hsamples hle htop hmax hquotient hproduct
    revert hindices hstep hsamples hge htop hle
    generalize visualSampleCount power frameCount = samples
    generalize hindex : sampledFrameIndex product (sampleDistance quotient frameCount samples) frameCount samples =
      index
    intro hge htop hle hsamples hindices hstep
    have hlast : index (samples - 1) = frameCount - 1 := by
      rw [← hindex]
      exact sampledFrameIndex_last _ (by omega)
    rw [hindices]
    constructor
    · apply List.pairwise_map.mpr
      apply List.pairwise_lt_range.imp_of_mem
      intro i j _ hj hlt
      exact increasing_of_step hstep.2 hlt (List.mem_range.mp hj)
    · -- no index exceeds the last one
      intro sampled hmem
      obtain ⟨i, hi, rfl⟩ := List.mem_map.mp hmem
      have hlt := List.mem_range.mp hi
      rcases (Nat.le_sub_one_of_lt hlt).lt_or_eq with hbefore | rfl
      · have hless := increasing_of_step hstep.2 hbefore (by omega)
        omega
      · omega
    · rw [List.head?_map, List.head?_range, if_neg (by omega), Option.map_some, hstep.1]
    · rw [List.getLast?_map, List.getLast?_range, if_neg (by omega), Option.map_some, hlast]
    · intro hone
      omega
    · rw [List.length_map, List.length_range]
      exact hge
    · rw [List.length_map, List.length_range]
      exact htop
  · rw [sampleVisualFrameIndices_one hpower]
    exact sampledFrames_one

/-! ## The reader -/

/-- What the constructor of the reader computes. -/
theorem LerobotVisualStatsReader.create_fields {feature : LerobotFeature} {spool : LerobotVisualSpool}
    {rawType : LerobotRawVisualType} {indices : List Nat} {step : Nat} {reader : LerobotVisualStatsReader}
    (h : LerobotVisualStatsReader.create feature spool rawType indices step = .ok reader) :
    reader.spool = spool ∧ reader.sampledIndices = indices ∧
      reader.count = reader.valuesPerFrame * indices.length := by
  rw [LerobotVisualStatsReader.create] at h
  simp only [except_bind_eq_ok] at h
  obtain ⟨_, _, _, _, _, _, _, _, _, _, h⟩ := h
  obtain rfl := Except.ok.inj h
  exact ⟨rfl, rfl, rfl⟩

/-- A read of the spool fails as an operation of the file. -/
theorem LerobotVisualSpool.read_ne_internal (spool : LerobotVisualSpool) (count location : Nat) (message : String) :
    spool.read count location ≠ .error (.internal message) := by
  intro h
  rw [read] at h
  split at h
  · cases h
  · injection h with h
    cases h

/-- A reader whose indexes are frames of the spool has one internal error: a call after the last pixel. -/
theorem LerobotVisualStatsReader.next_internal {α : Type} [Field α] {reader : LerobotVisualStatsReader}
    (hcount : reader.count = reader.valuesPerFrame * reader.sampledIndices.length)
    (hbelow : ∀ index ∈ reader.sampledIndices, index < reader.spool.frameCount) {state : VisualReaderState}
    {message : String} (h : reader.next (α := α) state = .error (.internal message)) :
    reader.count ≤ state.position ∧ message = "LeRobot visual statistics reader advanced past its sample" := by
  rw [next] at h
  split at h
  · next hpast =>
    injection h with h
    injection h with h
    exact ⟨hpast, h.symm⟩
  · next hinside =>
    have hsample : state.position / reader.valuesPerFrame < reader.sampledIndices.length := by
      rw [hcount] at hinside
      exact Nat.div_lt_of_lt_mul (Nat.lt_of_not_le hinside)
    have hframe : reader.sampledIndices.getD (state.position / reader.valuesPerFrame) 0 < reader.spool.frameCount := by
      rw [List.getD_eq_getElem _ _ hsample]
      exact hbelow _ (List.getElem_mem hsample)
    dsimp only at h
    cases hload : reader.loadFrame (state.position / reader.valuesPerFrame) state with
    | ok frame =>
        rw [hload] at h
        cases h
    | error exception =>
        rw [hload] at h
        injection h with h
        subst h
        rw [loadFrame] at hload
        split at hload
        · cases hload
        · dsimp only at hload
          rw [if_neg (Nat.not_le.mpr hframe)] at hload
          exact absurd hload (reader.spool.read_ne_internal _ _ message)

/-- **The sampled indexes are valid and distinct**, and the reader of the statistics never sees an invalid frame. -/
theorem sampleVisualFrameIndices_valid {α : Type} [Field α] (hpos : 1 ≤ frameCount) (hmax : frameCount ≤ 2 ^ 53)
    (hpower : power ≤ frameCount) (hquotient : ExactOrDouble quotient) (hproduct : ExactOrDouble product) :
    SampledFrames frameCount (sampleVisualFrameIndices quotient product power frameCount) ∧
      ∀ feature spool rawType step reader, spool.frameCount = frameCount →
        LerobotVisualStatsReader.create feature spool rawType
          (sampleVisualFrameIndices quotient product power frameCount) step = .ok reader →
        ∀ state message, reader.next (α := α) state = .error (.internal message) →
          reader.count ≤ state.position ∧
            message = "LeRobot visual statistics reader advanced past its sample" := by
  have hsampled := sampledFrames_of_roundsWithin hquotient.roundsWithin hproduct.roundsWithin hpos hmax hpower
  refine ⟨hsampled, ?_⟩
  intro feature spool rawType step reader hframes hcreate state message hnext
  obtain ⟨hspool, hindices, hcount⟩ := LerobotVisualStatsReader.create_fields hcreate
  rw [← hindices] at hcount hsampled
  apply LerobotVisualStatsReader.next_internal hcount _ hnext
  intro index hindex
  rw [hspool, hframes]
  exact hsampled.below index hindex

/-- An episode of a thousand frames; the power is 177.8. -/
theorem thousandFrames_sampled :
    (1 ≤ 1000 ∧ 1000 ≤ 2 ^ 53 ∧ (1778 / 10 : ℚ) ≤ (1000 : Nat)) ∧
    SampledFrames 1000
      (sampleVisualFrameIndices Arithmetic.ieee.double Arithmetic.ieee.double (1778 / 10) 1000) :=
  ⟨⟨by decide, by decide, by norm_num⟩,
    (sampleVisualFrameIndices_valid (α := ℚ) (by decide) (by decide) (by norm_num) (.inr rfl) (.inr rfl)).1⟩

end Sampled

end DuckdbLerobot.Image
