import DuckdbLerobot.Library.Fallible
import DuckdbLerobot.Scan.FrameScan

/-!
# Parameters of the video functions

`lerobot_video_frames`, `lerobot_video_windows` and `lerobot_video_targets` share their named
parameters. A parameter that is not given has a default, and NULL is refused.
-/

set_option autoImplicit false

namespace DuckdbLerobot.Video

open DuckdbLerobot.Library DuckdbLerobot.Path DuckdbLerobot.Storage

/-! ## Named parameters -/

/-- A named parameter: not given, NULL, or a value. -/
abbrev Named (α : Type) : Type := Option (Option α)

/-- `TableFunctionBindInput::named_parameters`, with the types of `AddLerobotVideoOptionParameters`. -/
structure NamedParameters where
  videoKeys : Named (List (Option Text)) := none
  frameIndices : Named (List (Option Int)) := none
  deltaTimestamps : Named (List (Option Double)) := none
  width : Named Int := none
  height : Named Int := none
  tolerance : Named Double := none
  clusterGap : Named Double := none
  batchSize : Named Int := none
  targetBufferSize : Named Int := none
  maxCachedDecoders : Named Int := none
  decodeThreads : Named Int := none
  producerThreads : Named Int := none
  maxPendingTargets : Named Int := none
  maxOutputBytes : Named Int := none
  codecThreads : Named Int := none
  depthOutputUnit : Named Text := none
  refresh : Named Bool := none

/-- `GetNamedInteger`, `GetNamedDouble` and `GetNamedString`. -/
def getNamed {α : Type} (functionName name : String) (value : Named α) (default : α) :
    Except BinderException α :=
  match value with
  | none => .ok default
  | some none => .error ⟨s!"{functionName} {name} must not be NULL"⟩
  | some (some value) => .ok value

/-- `if (condition) throw BinderException(message)`. -/
def refuse (condition : Prop) [Decidable condition] (message : String) :
    Except BinderException Unit :=
  if condition then .error ⟨message⟩ else .ok ()

theorem refuse_eq_ok {condition : Prop} [Decidable condition] {message : String} {u : Unit} :
    refuse condition message = .ok u ↔ ¬condition := by
  rw [refuse, except_check_eq_ok]
  exact and_iff_left rfl

/-- `GetRefreshParameter`. -/
def getRefreshParameter (input : NamedParameters) (functionName : String) :
    Except BinderException Bool :=
  getNamed functionName "refresh" input.refresh false

/-- The loop of `GetVideoKeys`. -/
def collectVideoKeys : List (Option Text) → Except BinderException (List Text)
  | [] => .ok []
  | none :: _ => .error ⟨"lerobot_video_frames video_keys must not contain NULL"⟩
  | some [] :: _ => .error ⟨"lerobot_video_frames video_keys must not contain an empty key"⟩
  | some key :: children => do
      let keys ← collectVideoKeys children
      .ok (key :: keys)

/-- `GetVideoKeys`. All functions name `lerobot_video_frames` in its errors. -/
def getVideoKeys (input : NamedParameters) (metadata : LerobotVideoMetadata) :
    Except BinderException (List Text) :=
  match input.videoKeys with
  | none => .ok metadata.videoKeys
  | some none => .error ⟨"lerobot_video_frames video_keys must not be NULL"⟩
  | some (some children) => do
      let keys ← collectVideoKeys children
      .ok (sortUnique keys)

/-! ## Options -/

/-- `LerobotDepthOutputUnit`. -/
inductive LerobotDepthOutputUnit
  | meters
  | millimeters
  deriving DecidableEq

/-- `LerobotVideoOptions`. -/
structure LerobotVideoOptions where
  tolerance : ℚ
  clusterGap : ℚ
  width : Int
  height : Int
  outputBatchSize : Nat
  targetBufferSize : Nat
  maxCachedDecoders : Nat
  decodeThreads : Nat
  producerThreads : Nat
  maxPendingTargets : Nat
  maxOutputBytes : Nat
  codecThreads : Int
  depthOutputUnit : LerobotDepthOutputUnit

/-- `STANDARD_VECTOR_SIZE`. -/
def standardVectorSize : Nat := 2048

/-- `LEROBOT_MAX_TARGET_BUFFER_SIZE`. -/
def maxTargetBufferSize : Nat := 1024 * 1024

/-- `LEROBOT_MAX_DECODE_THREADS`, and the same bound of the decoders and of the producers. -/
def maxDecodeThreads : Nat := 1024

/-- `LEROBOT_MAX_PENDING_TARGETS`. -/
def maxPendingTargetsLimit : Nat := 10 * 1024 * 1024

/-- An integer option between two bounds. -/
def boundedInteger (functionName name : String) (value : Named Int) (default lower upper : Int) :
    Except BinderException Int := do
  let number ← getNamed functionName name value default
  refuse (number < lower ∨ upper < number)
    s!"{functionName} {name} must be between {lower} and {upper}"
  .ok number

/-- A duration in seconds that is finite and satisfies a test. -/
def finiteSeconds (functionName name : String) (value : Named Double) (default : Double)
    (accepts : ℚ → Bool) (requirement : String) : Except BinderException ℚ := do
  match ← getNamed functionName name value default with
  | .finite seconds =>
      if accepts seconds then .ok seconds
      else .error ⟨s!"{functionName} {name} must be finite and {requirement}"⟩
  | _ => .error ⟨s!"{functionName} {name} must be finite and {requirement}"⟩

/-- The option `depth_output_unit`. -/
def depthOutputUnitOption (functionName : String) (value : Text) :
    Except BinderException LerobotDepthOutputUnit :=
  if value = "m".toList then .ok .meters
  else if value = "mm".toList then .ok .millimeters
  else .error ⟨s!"{functionName} depth_output_unit must be 'm' or 'mm'"⟩

/-- The default of `max_pending_targets` follows the buffer size and the threads. -/
def pendingTargets (value targetBufferSize decodeThreads : Int) : Nat :=
  if value = 0 then min (targetBufferSize.toNat * decodeThreads.toNat * 2) maxPendingTargetsLimit
  else value.toNat

/-- `GetLerobotVideoOptions`. -/
def getLerobotVideoOptions (input : NamedParameters) (functionName : String) :
    Except BinderException LerobotVideoOptions := do
  let width ← getNamed functionName "width" input.width 0
  let height ← getNamed functionName "height" input.height 0
  refuse (decide (width = 0) ≠ decide (height = 0))
    s!"{functionName} width and height must either both be zero or both be positive"
  refuse (width < 0 ∨ height < 0 ∨ 32768 < width ∨ 32768 < height)
    s!"{functionName} width and height must be between 0 and 32768"
  let tolerance ← finiteSeconds functionName "tolerance" input.tolerance
    (Double.rounded (1 / 10000)) (fun seconds => 0 < seconds) "positive"
  let clusterGap ← finiteSeconds functionName "cluster_gap" input.clusterGap (.finite 10)
    (fun seconds => 0 ≤ seconds) "non-negative"
  let batchSize ← boundedInteger functionName "batch_size" input.batchSize 16 1 standardVectorSize
  let targetBufferSize ← boundedInteger functionName "target_buffer_size" input.targetBufferSize 256 1
    maxTargetBufferSize
  let maxCachedDecoders ← boundedInteger functionName "max_cached_decoders" input.maxCachedDecoders 8
    1 maxDecodeThreads
  let decodeThreads ← boundedInteger functionName "decode_threads" input.decodeThreads 8 1
    maxDecodeThreads
  let producerThreads ← boundedInteger functionName "producer_threads" input.producerThreads 4 1
    maxDecodeThreads
  let maxPendingTargets ← boundedInteger functionName "max_pending_targets" input.maxPendingTargets 0
    0 maxPendingTargetsLimit
  let maxOutputBytes ← getNamed functionName "max_output_bytes" input.maxOutputBytes
    (64 * 1024 * 1024)
  refuse (maxOutputBytes ≤ 0) s!"{functionName} max_output_bytes must be positive"
  let codecThreads ← boundedInteger functionName "codec_threads" input.codecThreads 1 0 64
  let depthOutputUnit ← getNamed functionName "depth_output_unit" input.depthOutputUnit "mm".toList
  let depthOutputUnit ← depthOutputUnitOption functionName depthOutputUnit
  .ok ⟨tolerance, clusterGap, width, height, batchSize.toNat, targetBufferSize.toNat,
    maxCachedDecoders.toNat, decodeThreads.toNat, producerThreads.toNat,
    pendingTargets maxPendingTargets targetBufferSize decodeThreads, maxOutputBytes.toNat,
    codecThreads, depthOutputUnit⟩

/-! ## Temporal deltas -/

/-- `LerobotTemporalDelta`. -/
structure LerobotTemporalDelta where
  timestamp : ℚ
  frameOffset : Int
  deriving DecidableEq

/-- The loop over the children of `delta_timestamps`. -/
def collectTimestamps (functionName : String) :
    List (Option Double) → Except BinderException (List Double)
  | [] => .ok []
  | none :: _ => .error ⟨s!"{functionName} delta_timestamps must not contain NULL"⟩
  | some timestamp :: children => do
      let timestamps ← collectTimestamps functionName children
      .ok (timestamp :: timestamps)

/-- The loop of `GetLerobotTemporalDeltas` at one timestamp. `print` writes a number as `%.17g`. -/
def temporalDelta (print : ℚ → String) (fps : Int) (tolerance : ℚ) (functionName : String)
    (timestamp : Double) : Except BinderException LerobotTemporalDelta :=
  match timestamp with
  | .finite timestamp =>
      match Double.rounded (timestamp * Double.nearest fps) with
      | .finite scaled =>
          if scaled < -2 ^ 63 ∨ 2 ^ 63 ≤ scaled then
            .error ⟨s!"{functionName} delta timestamp {print timestamp} is too large"⟩
          else
            let frameOffset := Double.halfToEven scaled
            let canonicalTimestamp := Double.nearest (Double.nearest frameOffset / Double.nearest fps)
            if tolerance < |Double.nearest (timestamp - canonicalTimestamp)| then
              .error ⟨s!"{functionName} delta timestamp {print timestamp} is not a multiple of " ++
                s!"1/fps ({fps}) within tolerance {print tolerance}"⟩
            else .ok ⟨timestamp, frameOffset⟩
      | _ => .error ⟨s!"{functionName} delta timestamp {print timestamp} is too large"⟩
  | _ => .error ⟨s!"{functionName} delta_timestamps must be finite"⟩

/-- The timestamps of the parameter `delta_timestamps`: the frame itself when it is not given. -/
def deltaTimestamps (input : NamedParameters) (functionName : String) :
    Except BinderException (List Double) :=
  match input.deltaTimestamps with
  | none => .ok [.finite 0]
  | some none => .error ⟨s!"{functionName} delta_timestamps must not be NULL"⟩
  | some (some children) => collectTimestamps functionName children

/-- `GetLerobotTemporalDeltas`. -/
def getLerobotTemporalDeltas (print : ℚ → String) (input : NamedParameters) (fps : Int)
    (tolerance : ℚ) (functionName : String) : Except BinderException (List LerobotTemporalDelta) := do
  let timestamps ← deltaTimestamps input functionName
  timestamps.mapM (temporalDelta print fps tolerance functionName)

end DuckdbLerobot.Video
