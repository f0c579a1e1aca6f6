import DuckdbLerobot.Copy.FeatureStats
import DuckdbLerobot.Image.DepthTiff

/-!
# The statistics of images and videos

The frames of an episode are spooled to a file. Their statistics are computed from some of the frames, and
from the pixels of these whose coordinates are multiples of a step. `LerobotVisualStatsReader` reads the
pixels one after the other: a single position says which frame and which pixel is next.
-/

set_option autoImplicit false

namespace DuckdbLerobot.Image

open DuckdbLerobot.Library DuckdbLerobot.Path DuckdbLerobot.Storage DuckdbLerobot.Copy

/-! ## Values of a frame -/

/-- The number of an IEEE `float`; NaN and the infinities are `none`. -/
def float32Value {α : Type} [Field α] (bits : Nat) : Option α :=
  let exponent := bits / 2 ^ 23 % 2 ^ 8
  let fraction : Nat := bits % 2 ^ 23
  let magnitude : α :=
    if exponent = 0 then fraction / 2 ^ 149
    else (2 ^ 23 + fraction) * 2 ^ exponent / 2 ^ 150
  if exponent = 255 then none
  else some (if bits / 2 ^ 31 % 2 = 1 then -magnitude else magnitude)

/-- The size of an element of a frame. -/
def elementBytes : LerobotRawVisualType → Nat
  | .rgb24 => 1
  | .depthUint16 => 2
  | .depthFloat32 => 4

/-- `memcpy` from a frame to a number. -/
def copyBytes (frame : Bytes) (offset count : Nat) : Nat :=
  joinBytes true count fun i => frame.getD (offset + i) 0

/-- `ReadRawVisualValue`. It reads `elementBytes` bytes from the place of the element on. -/
def readRawVisualValue {α : Type} [Field α] (frame : Bytes) (rawType : LerobotRawVisualType)
    (elementIndex : Nat) : Option α :=
  match rawType with
  | .rgb24 => some (frame.getD elementIndex 0).toNat
  | .depthUint16 => some (copyBytes frame (elementIndex * 2) 2 : Nat)
  | .depthFloat32 => float32Value (copyBytes frame (elementIndex * 4) 4)

/-! ## The spool -/

/-- `LerobotVisualSpool`, and the bytes of its file. -/
structure LerobotVisualSpool where
  path : Text
  frameSize : Nat := 0
  frameCount : Nat := 0
  file : Bytes := []

/-- `LerobotVisualSpool::Append`. -/
def LerobotVisualSpool.append (spool : LerobotVisualSpool) (frame : Bytes) :
    Except InvalidInputException LerobotVisualSpool := do
  -- the first frame opens the file
  let frameSize := if spool.frameCount = 0 then frame.length else spool.frameSize
  reject (frame.length ≠ frameSize) "LeRobot visual frames change size within an episode"
  reject (spool.frameCount = idxMaximum ∨ idxMaximum / (spool.frameCount + 1) < frameSize)
    "LeRobot visual spool is too large"
  .ok { spool with
        frameSize := frameSize
        frameCount := spool.frameCount + 1
        file := spool.file ++ frame }

/-- `FileHandle::Read` at a place of the file. -/
def LerobotVisualSpool.read (spool : LerobotVisualSpool) (count location : Nat) :
    Except StatsException Bytes :=
  if location + count ≤ spool.file.length then .ok ((spool.file.drop location).take count)
  else .error (.io s!"Could not read all bytes from file '{String.ofList spool.path}'")

/-! ## The reader -/

/-- `LerobotVisualStatsReader`: what its constructor computes. -/
structure LerobotVisualStatsReader where
  feature : LerobotFeature
  spool : LerobotVisualSpool
  rawType : LerobotRawVisualType
  sampledIndices : List Nat
  step : Nat
  sampledHeight : Nat
  sampledWidth : Nat
  valuesPerFrame : Nat
  count : Nat

/-- The fields that `Next` changes. `DConstants::INVALID_INDEX` is `none`. -/
structure VisualReaderState where
  position : Nat := 0
  loadedSample : Option Nat := none
  frame : Bytes := []

/-- `feature.shape[2]`. -/
def frameChannels (feature : LerobotFeature) : Nat := feature.shape.getD 2 0

/-- A check that throws one of the exceptions of the statistics. -/
def throwIf (condition : Prop) [Decidable condition] (exception : StatsException) :
    Except StatsException Unit :=
  if condition then .error exception else .ok ()

/-- The constructor of `LerobotVisualStatsReader`. -/
def LerobotVisualStatsReader.create (feature : LerobotFeature) (spool : LerobotVisualSpool)
    (rawType : LerobotRawVisualType) (sampledIndices : List Nat) (step : Nat) :
    Except StatsException LerobotVisualStatsReader := do
  let sampledHeight := 1 + (frameHeight feature - 1) / step
  let sampledWidth := 1 + (frameWidth feature - 1) / step
  let name := String.ofList feature.name
  let expected ← (expectedFrameBytes (frameWidth feature) (frameHeight feature) rawType).mapError
    fun exception => .invalidInput exception.message
  throwIf (spool.frameSize ≠ expected ∨ spool.frameCount = 0) <|
    .invalidInput s!"LeRobot visual feature '{name}' changes raw frame type or dimensions"
  throwIf (sampledIndices = []) (.internal "LeRobot visual statistics sample cannot be empty")
  throwIf (idxMaximum / sampledWidth < sampledHeight ∨
      idxMaximum / sampledIndices.length < sampledHeight * sampledWidth) <|
    .invalidInput "LeRobot visual statistics sample is too large"
  throwIf (idxMaximum / spool.frameSize < spool.frameCount ∨
      spool.file.length ≠ spool.frameCount * spool.frameSize) <|
    .io s!"LeRobot visual spool '{String.ofList spool.path}' has an invalid size"
  .ok { feature, spool, rawType, sampledIndices, step, sampledHeight, sampledWidth
        valuesPerFrame := sampledHeight * sampledWidth
        count := sampledHeight * sampledWidth * sampledIndices.length }

namespace LerobotVisualStatsReader

variable {α : Type} [Field α] (reader : LerobotVisualStatsReader)

/-- The frame that `Next` has in its buffer for a sample. -/
def loadFrame (sampleIndex : Nat) (state : VisualReaderState) : Except StatsException Bytes :=
  if state.loadedSample = some sampleIndex then .ok state.frame
  else
    let frameSize := if state.frame = [] then reader.spool.frameSize else state.frame.length
    let frameIndex := reader.sampledIndices.getD sampleIndex 0
    if reader.spool.frameCount ≤ frameIndex then
      .error (.internal "LeRobot visual statistics sampled an invalid frame")
    else reader.spool.read frameSize (frameIndex * frameSize)

/-- `LerobotVisualStatsReader::Next`. -/
def next (state : VisualReaderState) :
    Except StatsException (List (Value α) × VisualReaderState) :=
  if reader.count ≤ state.position then
    .error (.internal "LeRobot visual statistics reader advanced past its sample")
  else
    let sampleIndex := state.position / reader.valuesPerFrame
    (reader.loadFrame sampleIndex state).map fun frame =>
      let pixelIndex := state.position % reader.valuesPerFrame
      let y := pixelIndex / reader.sampledWidth * reader.step
      let x := pixelIndex % reader.sampledWidth * reader.step
      let firstElement := (y * frameWidth reader.feature + x) * frameChannels reader.feature
      ((List.range (frameChannels reader.feature)).map fun channel =>
          .floating (readRawVisualValue frame reader.rawType (firstElement + channel)),
        ⟨state.position + 1, some sampleIndex, frame⟩)

/-- The state after some calls of `Next`. -/
def stateAfter (α : Type) [Field α] : Nat → Except StatsException VisualReaderState
  | 0 => .ok {}
  | calls + 1 => stateAfter α calls >>= fun state => (reader.next (α := α) state).map Prod.snd

/-- The reader, as the statistics use it. -/
def rows : LerobotStatsRowReader α where
  count := reader.count
  next position := reader.stateAfter α position >>= fun state => (reader.next state).map Prod.fst

end LerobotVisualStatsReader

/-! ## An episode -/

/-- The distance of the pixels that `ComputeEpisodeStats` reads. -/
def sampleStep (feature : LerobotFeature) : Nat :=
  let largestDimension := max (frameHeight feature) (frameWidth feature)
  if 300 ≤ largestDimension then max 1 (largestDimension / 150) else 1

/-- `ComputeEpisodeStats`, for an image or a video. The sampled frames are those of
`SampleVisualFrameIndices`. -/
def computeVisualEpisodeStats {α : Type} [Field α] [LinearOrder α] (arithmetic : StatsArithmetic α)
    (feature : LerobotFeature) (spool : LerobotVisualSpool) (currentEpisodeFrames : Nat)
    (rawType : Option LerobotRawVisualType) (sampledIndices : List Nat) :
    Except StatsException (LerobotFeatureStats α) :=
  match rawType with
  | none => incomplete
  | some rawType =>
      if spool.frameCount ≠ currentEpisodeFrames then incomplete
      else
        LerobotVisualStatsReader.create feature spool rawType sampledIndices (sampleStep feature) >>=
          fun reader => computeStats arithmetic reader.rows (frameChannels feature)
            sampledIndices.length feature
where
  /-- The episode has no spool with all of its frames. -/
  incomplete : Except StatsException (LerobotFeatureStats α) :=
    .error (.internal (s!"LeRobot visual feature '{String.ofList feature.name}' has an incomplete " ++
      "episode spool"))

end DuckdbLerobot.Image
