import DuckdbLerobot.Video.ShardDecoder

/-!
# The timestamps that the writer generates

The column `timestamp` is the position of a frame in its episode, as a `float`. The reader looks for the
frame at this timestamp, and accepts it within a tolerance. With the default tolerance it finds every
frame of the first 2048 seconds of an episode (`generatedTimestamp_found`); from there on the values of
a `float` are too far apart (`frame61441_not_found`).
-/

set_option autoImplicit false

namespace DuckdbLerobot.Copy

open DuckdbLerobot.Library DuckdbLerobot.Path DuckdbLerobot.Video

/-- The type `float`. -/
def float32 : Rounding := .ieee 24 (-126) 128 (by decide) (by decide) (by decide)

/-- The value of the column `timestamp`, in `AppendRun`. -/
def generatedTimestamp (arithmetic : Arithmetic) (frameIndex fps : Nat) : Double :=
  let rounding := arithmetic.double
  let quotient := rounding.map (fun frameIndex => frameIndex / (rounding.round fps).toRat)
    (rounding.round frameIndex)
  float32.map id quotient

/-- A frame rate that `GetSingleOption` accepts, and a frame index that is cast to `int64_t`. -/
structure AcceptedFrame (frameIndex fps : Nat) : Prop where
  fps_pos : 0 < fps
  fps_lt : fps < 2 ^ 63
  frameIndex_lt : frameIndex < 2 ^ 63

/-- The position of a frame in the video of its episode, in seconds. -/
def framePosition (frameIndex fps : Nat) : ℚ := frameIndex / fps

/-- A reader without the parameter `tolerance`, in exact arithmetic. -/
structure DefaultReader {ψ φ : Type} (media : Media ψ φ) (decoder : LerobotShardDecoder ψ φ) : Prop where
  arithmetic : media.arithmetic = .exact
  options : ∃ input functionName, input.tolerance = none ∧
    getLerobotVideoOptions input functionName = .ok decoder.options

/-- `LEROBOT_DEFAULT_TEMPORAL_TOLERANCE_SECONDS`. -/
def defaultTemporalToleranceSeconds : ℚ := (Double.rounded (1 / 10000)).toRat

section Reader

variable {ψ φ : Type} {media : Media ψ φ} {decoder : LerobotShardDecoder ψ φ}

/-- Without the parameter, an option is its default. -/
theorem finiteSeconds_none {functionName name : String} {default : Double} {accepts : ℚ → Bool}
    {requirement : String} {seconds : ℚ}
    (h : finiteSeconds functionName name none default accepts requirement = .ok seconds) :
    seconds = default.toRat := by
  cases default with
  | finite value =>
      have hchecked : (if accepts value then .ok value
          else .error ⟨s!"{functionName} {name} must be finite and {requirement}"⟩) =
          (.ok seconds : Except BinderException ℚ) := h
      split at hchecked
      · exact (Except.ok.inj hchecked).symm
      · cases hchecked
  | infinite negative => cases h
  | nan => cases h

theorem DefaultReader.tolerance_eq (h : DefaultReader media decoder) :
    decoder.options.tolerance = defaultTemporalToleranceSeconds := by
  obtain ⟨input, functionName, hnone, hoptions⟩ := h.options
  simp only [getLerobotVideoOptions, except_bind_eq_ok] at hoptions
  obtain ⟨_, -, _, -, _, -, _, -, tolerance, htolerance, hrest⟩ := hoptions
  have heq : decoder.options.tolerance = tolerance := by
    obtain ⟨_, -, _, -, _, -, _, -, _, -, _, -, _, -, _, -, _, -, _, -, _, -, _, -, hok⟩ := hrest
    exact (congrArg LerobotVideoOptions.tolerance (Except.ok.inj hok)).symm
  rw [hnone] at htolerance
  rw [heq]
  exact finiteSeconds_none htolerance

/-- A reader accepts a decoded frame within its tolerance, and no other one. -/
theorem validateTolerance_exact (h : media.arithmetic = .exact) (target decoded : ℚ) :
    LerobotShardDecoder.validateTolerance media decoder target decoded = .ok () ↔
      |target - decoded| ≤ decoder.options.tolerance := by
  have hdistance : (media.arithmetic.double.round (target - decoded)).abs =
      .finite |target - decoded| := by
    rw [h]
    rfl
  unfold LerobotShardDecoder.validateTolerance
  dsimp only
  rw [hdistance, except_check_eq_ok, Double.less_finite, decide_eq_true_eq, not_lt]
  exact and_iff_left rfl

end Reader

theorem framePosition_nonneg (frameIndex fps : Nat) : 0 ≤ framePosition frameIndex fps :=
  div_nonneg (Nat.cast_nonneg frameIndex) (Nat.cast_nonneg fps)

/-- In exact arithmetic, the position is rounded once. -/
theorem generatedTimestamp_exact {frameIndex fps : Nat} (h : AcceptedFrame frameIndex fps) :
    generatedTimestamp .exact frameIndex fps =
      .finite (Double.nearestAt 24 (-126) (framePosition frameIndex fps)) := by
  have hfps : (1 : ℚ) ≤ fps := by exact_mod_cast h.fps_pos
  have hframe : (frameIndex : ℚ) < 2 ^ 64 := by
    exact_mod_cast h.frameIndex_lt.trans (by decide)
  have hnonneg := framePosition_nonneg frameIndex fps
  have hlt : |framePosition frameIndex fps| < 2 ^ 64 := by
    rw [abs_of_nonneg hnonneg]
    exact (div_le_self (Nat.cast_nonneg _) hfps).trans_lt hframe
  exact Rounding.ieee_round_finite hlt

theorem defaultTolerance_ge : 1 / 2 ^ 14 ≤ defaultTemporalToleranceSeconds := by
  decide +kernel

/-- **The frames that the reader finds.** The stored timestamp of a frame is off its position by half the
distance of two values of a `float` at most. For the first 2048 seconds of an episode this is within the
default tolerance, so a reader without the parameter accepts the frame, wherever the episode starts. -/
theorem generatedTimestamp_found {frameIndex fps : Nat} (h : AcceptedFrame frameIndex fps) :
    ∃ timestamp, generatedTimestamp .exact frameIndex fps = .finite timestamp ∧
      |timestamp - framePosition frameIndex fps| ≤
        Double.lastPlace 24 (-126) (framePosition frameIndex fps) / 2 ∧
      (framePosition frameIndex fps < 2048 →
        |timestamp - framePosition frameIndex fps| ≤ defaultTemporalToleranceSeconds ∧
        ∀ (ψ φ : Type) (media : Media ψ φ) (decoder : LerobotShardDecoder ψ φ) (fromTimestamp : ℚ),
          DefaultReader media decoder →
            LerobotShardDecoder.validateTolerance media decoder (fromTimestamp + timestamp)
              (fromTimestamp + framePosition frameIndex fps) = .ok ()) := by
  have hhalf : |Double.nearestAt 24 (-126) (framePosition frameIndex fps) -
      framePosition frameIndex fps| ≤
        Double.lastPlace 24 (-126) (framePosition frameIndex fps) / 2 :=
    Double.abs_nearestAt_sub_le _
  refine ⟨_, generatedTimestamp_exact h, hhalf, ?_⟩
  intro hposition
  have hlt : |framePosition frameIndex fps| < (2 : ℚ) ^ ((10 : Int) + 1) := by
    rw [abs_of_nonneg (framePosition_nonneg frameIndex fps)]
    exact hposition.trans_eq (by norm_num)
  have hplace : Double.lastPlace 24 (-126) (framePosition frameIndex fps) ≤ (2 : ℚ) ^ ((10 : Int) - (24 - 1)) :=
    Double.lastPlace_le (by decide) (by decide) hlt
  have hnear : |Double.nearestAt 24 (-126) (framePosition frameIndex fps) -
      framePosition frameIndex fps| ≤ defaultTemporalToleranceSeconds :=
    calc |Double.nearestAt 24 (-126) (framePosition frameIndex fps) - framePosition frameIndex fps|
        ≤ Double.lastPlace 24 (-126) (framePosition frameIndex fps) / 2 := hhalf
      _ ≤ (2 : ℚ) ^ ((10 : Int) - (24 - 1)) / 2 := div_le_div_of_nonneg_right hplace zero_le_two
      _ = 1 / 2 ^ 14 := by norm_num
      _ ≤ defaultTemporalToleranceSeconds := defaultTolerance_ge
  refine ⟨hnear, ?_⟩
  intro ψ φ media decoder fromTimestamp hreader
  rw [validateTolerance_exact hreader.arithmetic, hreader.tolerance_eq, add_sub_add_left_eq_sub]
  exact hnear

/-- A video in exact arithmetic, and a decoder of it with the default options. -/
def exactMedia : Media Unit Unit where
  arithmetic := .exact
  seek _ _ := .error ""
  receive _ := .error ""
  convert _ _ _ := .error ""
  gray12le := 0
  printSeconds _ := ""

def defaultDecoder : LerobotShardDecoder Unit Unit where
  options :=
    { tolerance := defaultTemporalToleranceSeconds
      clusterGap := 10
      width := 0
      height := 0
      outputBatchSize := 16
      targetBufferSize := 256
      maxCachedDecoders := 8
      decodeThreads := 8
      producerThreads := 4
      maxPendingTargets := 4096
      maxOutputBytes := 64 * 1024 * 1024
      codecThreads := 1
      depthOutputUnit := .millimeters }
  shardIndex := 0
  videoPath := []
  isDepthMap := false
  needsPixels := false
  contexts := ()

theorem defaultDecoder_reader : DefaultReader exactMedia defaultDecoder where
  arithmetic := rfl
  options := by
    have hrounded : Double.rounded (1 / 10000) = .finite defaultTemporalToleranceSeconds := by
      decide +kernel
    have hpositive : 0 < defaultTemporalToleranceSeconds :=
      lt_of_lt_of_le (by norm_num) defaultTolerance_ge
    have htolerance : finiteSeconds "lerobot_video_frames" "tolerance"
        ({} : NamedParameters).tolerance (.finite defaultTemporalToleranceSeconds)
        (fun seconds => 0 < seconds) "positive" = .ok defaultTemporalToleranceSeconds :=
      if_pos (decide_eq_true hpositive)
    refine ⟨{}, "lerobot_video_frames", rfl, ?_⟩
    unfold getLerobotVideoOptions
    rw [hrounded, htolerance]
    rfl

/-- The second frame of a video with 30 frames per second. -/
theorem secondFrame_found : ∃ timestamp, generatedTimestamp .exact 1 30 = .finite timestamp ∧
    LerobotShardDecoder.validateTolerance exactMedia defaultDecoder (0 + timestamp)
      (0 + framePosition 1 30) = .ok () := by
  have haccepted : AcceptedFrame 1 30 := ⟨by decide, by decide, by decide⟩
  obtain ⟨timestamp, htimestamp, -, hfound⟩ := generatedTimestamp_found haccepted
  have hreads := (hfound (by decide +kernel)).2
  exact ⟨timestamp, htimestamp, hreads Unit Unit exactMedia defaultDecoder 0 defaultDecoder_reader⟩

/-- The frame after 2048 seconds, at 30 frames per second. -/
theorem frame61441_not_found : AcceptedFrame 61441 30 ∧
    ∃ timestamp, generatedTimestamp .exact 61441 30 = .finite timestamp ∧
      defaultTemporalToleranceSeconds < |timestamp - framePosition 61441 30| ∧
      ∀ (media : Media Unit Unit) (decoder : LerobotShardDecoder Unit Unit),
        DefaultReader media decoder →
          LerobotShardDecoder.validateTolerance media decoder timestamp (framePosition 61441 30) ≠
            .ok () := by
  have haccepted : AcceptedFrame 61441 30 := ⟨by decide, by decide, by decide⟩
  have hfar : defaultTemporalToleranceSeconds <
      |Double.nearestAt 24 (-126) (framePosition 61441 30) - framePosition 61441 30| := by
    decide +kernel
  refine ⟨haccepted, _, generatedTimestamp_exact haccepted, hfar, ?_⟩
  intro media decoder hreader
  rw [ne_eq, validateTolerance_exact hreader.arithmetic, hreader.tolerance_eq, not_le]
  exact hfar

end DuckdbLerobot.Copy
