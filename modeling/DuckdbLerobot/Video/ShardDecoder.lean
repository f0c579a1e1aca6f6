import DuckdbLerobot.Video.VideoParameters

/-!
# The decoder of a shard

`LerobotShardDecoder` decodes one video file for one buffer after another. `next` serves the targets
of a buffer cluster by cluster: it seeks to the first target of a cluster, and decodes until a frame
is not before the target. FFmpeg is a parameter (`Media`).

Each target is served once, whatever FFmpeg returns (`next_spec`), and `next` ends, since the frames
after a seek are bounded by a budget.
-/

set_option autoImplicit false

namespace DuckdbLerobot.Video

open DuckdbLerobot.Library DuckdbLerobot.Path DuckdbLerobot.Storage

/-! ## FFmpeg -/

/-- What decoding can throw. -/
inductive DecodeException
  | invalidInput (message : String)
  | internal (message : String)
  | media (message : String)

/-- An exception that says something about the video. -/
def DecodeException.Expected (e : DecodeException) : Prop := ∀ message, e ≠ .internal message

/-- A decoded frame with a timestamp. -/
structure Frame (φ : Type) where
  timestamp : ℚ
  width : Int
  height : Int
  format : Int
  planes : φ

/-- What the decoder uses of FFmpeg: `seek` and `receive` are `av_seek_frame` and the reads up to the
next frame with a finite timestamp, over the contexts of an open file, and `convert` converts and
resizes the pixels. `arithmetic` is that of the machine. -/
structure Media (ψ φ : Type) where
  arithmetic : Arithmetic
  seek : ψ → ℚ → Except String ψ
  receive : ψ → Except String (Option (Frame φ) × ψ)
  convert : Frame φ → Int → Int → Except String (List UInt8)
  gray12le : Int
  printSeconds : Double → String

/-- `DecodedVideoFrame`. -/
structure DecodedVideoFrame where
  targetIndex : Nat
  decodedTimestamp : ℚ
  width : Int
  height : Int
  pixels : Option (List UInt8)

/-- The frame that `converted_pixels` shows. -/
structure ConvertedFrame where
  timestamp : ℚ
  sourceWidth : Int
  sourceHeight : Int
  sourceFormat : Int
  pixels : List UInt8

/-- `LerobotShardDecoder`, with `have_previous` and the other flags in the options they are about. -/
structure LerobotShardDecoder (ψ φ : Type) where
  options : LerobotVideoOptions
  shardIndex : Nat
  videoPath : Text
  isDepthMap : Bool
  needsPixels : Bool
  contexts : ψ
  clusterPosition : Nat := 0
  targetPosition : Nat := 0
  decodedFramesSinceSeek : Nat := 0
  decodeFrameBudget : Nat := 0
  decoderEof : Bool := false
  previous : Option (Frame φ) := none
  current : Option (Frame φ) := none
  lastTargetTimestamp : Option ℚ := none
  clusterStartTimestamp : Option ℚ := none
  converted : Option ConvertedFrame := none

/-- `LEROBOT_DECODE_FRAME_SAFETY_MARGIN`. -/
def decodeFrameSafetyMargin : Nat := 20000

/-- `DecodeFrameBudget`. -/
def decodeFrameBudget (arithmetic : Arithmetic) (firstTimestamp lastTimestamp : ℚ) (fps : Int) : Nat :=
  let expectedFrames := estimateFrameSpan arithmetic firstTimestamp lastTimestamp fps
  if idxMaximum - decodeFrameSafetyMargin < expectedFrames then idxMaximum
  else expectedFrames + decodeFrameSafetyMargin

/-- The slack of comparisons of timestamps. -/
def timestampSlack (arithmetic : Arithmetic) : ℚ :=
  (arithmetic.double.round (1 / 1000000000)).toRat

/-- The video timestamp of a target of a buffer. -/
def targetTimestamp (buffer : LerobotDecodeBuffer LerobotDecodeTarget) (targetIndex : Nat) : ℚ :=
  match buffer.targets[targetIndex]? with
  | some target => target.videoTimestamp
  | none => 0

/-- The timestamps of the first and the last target of a cluster. -/
def clusterBounds (buffer : LerobotDecodeBuffer LerobotDecodeTarget) (cluster : List Nat) : ℚ × ℚ :=
  (targetTimestamp buffer (cluster.headD 0), targetTimestamp buffer (cluster.getLastD 0))

namespace LerobotShardDecoder

variable {ψ φ : Type}

/-- The target indexes that are still to be served. -/
def remaining (buffer : LerobotDecodeBuffer LerobotDecodeTarget)
    (decoder : LerobotShardDecoder ψ φ) : List Nat :=
  ((buffer.clusters[decoder.clusterPosition]?).getD []).drop decoder.targetPosition ++
    (buffer.clusters.drop (decoder.clusterPosition + 1)).flatten

section Media

variable (media : Media ψ φ) (buffer : LerobotDecodeBuffer LerobotDecodeTarget)

/-! ## Clusters -/

/-- `StartCluster`. -/
def startCluster (decoder : LerobotShardDecoder ψ φ) :
    Except DecodeException (LerobotShardDecoder ψ φ) :=
  let cluster := (buffer.clusters[decoder.clusterPosition]?).getD []
  let (earliest, latest) := clusterBounds buffer cluster
  match media.seek decoder.contexts earliest with
  | .error message => .error (.media message)
  | .ok contexts => .ok { decoder with
      contexts := contexts
      targetPosition := 0
      decoderEof := false
      previous := none
      current := none
      converted := none
      decodedFramesSinceSeek := 0
      clusterStartTimestamp := some earliest
      decodeFrameBudget := Video.decodeFrameBudget media.arithmetic earliest latest buffer.fps }

/-- Whether the decoder goes on from the buffer before, instead of seeking. -/
def continuesDecode (decoder : LerobotShardDecoder ψ φ) (earliest latest : ℚ) : Bool :=
  match decoder.lastTargetTimestamp, decoder.clusterStartTimestamp with
  | some lastTarget, some clusterStart =>
      let rounding := media.arithmetic.double
      let slack := timestampSlack media.arithmetic
      let frameSpan := estimateFrameSpan media.arithmetic clusterStart latest buffer.fps
      !decoder.decoderEof && !Double.less (rounding.round (earliest + slack)) (.finite lastTarget) &&
        !Double.less (.finite decoder.options.clusterGap) (rounding.round (earliest - lastTarget)) &&
        decide (frameSpan ≤ maxClusterFrameSpan)
  | _, _ => false

/-- `BeginBuffer`. -/
def beginBuffer (decoder : LerobotShardDecoder ψ φ) :
    Except DecodeException (LerobotShardDecoder ψ φ) :=
  if buffer.shardIndex ≠ decoder.shardIndex ∨ buffer.targets = [] ∨ buffer.clusters = [] then
    .error (.internal "Invalid LeRobot target buffer for video shard")
  else
    let decoder := { decoder with clusterPosition := 0, targetPosition := 0 }
    let (earliest, latest) := clusterBounds buffer (buffer.clusters.headD [])
    if continuesDecode media buffer decoder earliest latest then
      .ok { decoder with
        decodeFrameBudget :=
          Video.decodeFrameBudget media.arithmetic
            (decoder.clusterStartTimestamp.getD 0) latest buffer.fps }
    else startCluster media buffer decoder

/-! ## Frames -/

/-- `ReadFrame`: whether there was another frame. -/
def readFrame (decoder : LerobotShardDecoder ψ φ) :
    Except DecodeException (Bool × LerobotShardDecoder ψ φ) :=
  match media.receive decoder.contexts with
  | .error message => .error (.media message)
  | .ok (none, contexts) => .ok (false, { decoder with contexts := contexts })
  | .ok (some frame, contexts) =>
      if decoder.previous.any fun previous =>
          Double.less (media.arithmetic.double.round
            (frame.timestamp + timestampSlack media.arithmetic)) (.finite previous.timestamp) then
        .error (.invalidInput ("FFmpeg returned non-monotonic timestamps for LeRobot video " ++
          s!"'{String.ofList decoder.videoPath}'"))
      else
        let decodedFrames := decoder.decodedFramesSinceSeek + 1
        if decoder.decodeFrameBudget < decodedFrames then
          .error (.invalidInput (s!"Exceeded the {decoder.decodeFrameBudget}-frame per-seek decode " ++
            s!"budget while aligning LeRobot video '{String.ofList decoder.videoPath}'"))
        else .ok (true, { decoder with
          contexts := contexts
          current := some frame
          decodedFramesSinceSeek := decodedFrames })

/-- `ValidateTolerance`. -/
def validateTolerance (decoder : LerobotShardDecoder ψ φ) (target decoded : ℚ) :
    Except DecodeException Unit :=
  let distance := (media.arithmetic.double.round (target - decoded)).abs
  if Double.less (.finite decoder.options.tolerance) distance then
    .error (.invalidInput (s!"No frame in LeRobot video '{String.ofList decoder.videoPath}' matched " ++
      s!"timestamp {media.printSeconds (.finite target)} within tolerance " ++
      s!"{media.printSeconds (.finite decoder.options.tolerance)} (closest decoded timestamp " ++
      s!"{media.printSeconds (.finite decoded)}, distance {media.printSeconds distance})"))
  else .ok ()

/-- The pixels of a frame: those of the frame converted last, when it is the same. -/
def convertPixels (decoder : LerobotShardDecoder ψ φ) (frame : Frame φ) (width height : Int) :
    Except DecodeException (List UInt8 × LerobotShardDecoder ψ φ) :=
  match decoder.converted.filter fun converted =>
      converted.timestamp == frame.timestamp && converted.sourceWidth == frame.width &&
        converted.sourceHeight == frame.height && converted.sourceFormat == frame.format with
  | some converted => .ok (converted.pixels, decoder)
  | none =>
      match media.convert frame width height with
      | .error message => .error (.media message)
      | .ok pixels => .ok (pixels, { decoder with
          converted := some ⟨frame.timestamp, frame.width, frame.height, frame.format, pixels⟩ })

/-- `ConvertFrame`. -/
def convertFrame (decoder : LerobotShardDecoder ψ φ) (frame : Frame φ) (targetIndex : Nat) :
    Except DecodeException (DecodedVideoFrame × LerobotShardDecoder ψ φ) :=
  let width := if 0 < decoder.options.width then decoder.options.width else frame.width
  let height := if 0 < decoder.options.height then decoder.options.height else frame.height
  if frame.width ≤ 0 ∨ frame.height ≤ 0 ∨ width ≤ 0 ∨ height ≤ 0 then
    .error (.invalidInput ("FFmpeg returned invalid dimensions for LeRobot video " ++
      s!"'{String.ofList decoder.videoPath}'"))
  else if decoder.isDepthMap = true ∧ frame.format ≠ media.gray12le then
    .error (.invalidInput (s!"LeRobot depth video '{String.ofList decoder.videoPath}' decoded as " ++
      s!"pixel format {frame.format} instead of gray12le"))
  else if decoder.needsPixels = false then
    .ok (⟨targetIndex, frame.timestamp, width, height, none⟩, decoder)
  else
    match convertPixels media decoder frame width height with
    | .error e => .error e
    | .ok (pixels, decoder) =>
        .ok (⟨targetIndex, frame.timestamp, width, height, some pixels⟩, decoder)

/-! ## `Next` -/

/-- What a round of the loop of `Next` does. -/
inductive Round (ψ φ : Type)
  | again (decoder : LerobotShardDecoder ψ φ)
  | finished (decoder : LerobotShardDecoder ψ φ)
  | returned (result : DecodedVideoFrame) (decoder : LerobotShardDecoder ψ φ)

/-- Serve a target with a frame. -/
def serve (decoder : LerobotShardDecoder ψ φ) (frame : Frame φ) (targetIndex : Nat) :
    Except DecodeException (Round ψ φ) :=
  let target := targetTimestamp buffer targetIndex
  match validateTolerance media decoder target frame.timestamp with
  | .error e => .error e
  | .ok () =>
      match convertFrame media decoder frame targetIndex with
      | .error e => .error e
      | .ok (result, decoder) => .ok (.returned result { decoder with
          targetPosition := decoder.targetPosition + 1
          lastTargetTimestamp := some target })

/-- After the last frame, the target is served with that one. -/
def serveLast (decoder : LerobotShardDecoder ψ φ) (targetIndex : Nat) :
    Except DecodeException (Round ψ φ) :=
  match decoder.previous with
  | none => .error (.invalidInput
      s!"No frames decoded from LeRobot video '{String.ofList decoder.videoPath}'")
  | some previous => serve media buffer { decoder with decoderEof := true } previous targetIndex

/-- Decode another frame. -/
def readMore (decoder : LerobotShardDecoder ψ φ) (targetIndex : Nat) :
    Except DecodeException (Round ψ φ) :=
  if decoder.decoderEof then serveLast media buffer decoder targetIndex
  else
    match readFrame media decoder with
    | .error e => .error e
    | .ok (true, decoder) => .ok (.again decoder)
    | .ok (false, decoder) => serveLast media buffer decoder targetIndex

/-- The frame that is nearer to a target: the current one, or the one before it. -/
def selectFrame (decoder : LerobotShardDecoder ψ φ) (current : Frame φ) (target : ℚ) : Frame φ :=
  match decoder.previous with
  | none => current
  | some previous =>
      let rounding := media.arithmetic.double
      let previousDistance := (rounding.round (previous.timestamp - target)).abs
      let currentDistance := (rounding.round (current.timestamp - target)).abs
      if Double.less currentDistance previousDistance then current else previous

/-- The loop of `Next` at a target. -/
def alignTarget (decoder : LerobotShardDecoder ψ φ) (targetIndex : Nat) :
    Except DecodeException (Round ψ φ) :=
  let target := targetTimestamp buffer targetIndex
  match decoder.current with
  | none => readMore media buffer decoder targetIndex
  | some current =>
      if target ≤ current.timestamp then
        serve media buffer decoder (selectFrame media decoder current target) targetIndex
      else
        readMore media buffer { decoder with previous := some current, current := none } targetIndex

/-- The loop of `Next` at the end of a cluster. -/
def nextCluster (decoder : LerobotShardDecoder ψ φ) : Except DecodeException (Round ψ φ) :=
  let decoder := { decoder with clusterPosition := decoder.clusterPosition + 1 }
  if buffer.clusters.length ≤ decoder.clusterPosition then .ok (.finished decoder)
  else (startCluster media buffer decoder).map .again

/-- A round of the loop of `Next`. -/
def round (decoder : LerobotShardDecoder ψ φ) : Except DecodeException (Round ψ φ) :=
  match buffer.clusters[decoder.clusterPosition]? with
  | none => .ok (.finished decoder)
  | some cluster =>
      match cluster[decoder.targetPosition]? with
      | none => nextCluster media buffer decoder
      | some targetIndex => alignTarget media buffer decoder targetIndex

/-- What is left of the loop of `Next`: clusters, and frames of the budget. -/
def rounds (decoder : LerobotShardDecoder ψ φ) : Nat ×ₗ Nat :=
  toLex (buffer.clusters.length - decoder.clusterPosition,
    decoder.decodeFrameBudget + 1 - decoder.decodedFramesSinceSeek)

/-! ## What a round keeps -/

variable {media buffer}

theorem startCluster_ok {decoder decoder' : LerobotShardDecoder ψ φ}
    (h : startCluster media buffer decoder = .ok decoder') :
    decoder'.clusterPosition = decoder.clusterPosition ∧ decoder'.targetPosition = 0 ∧
      decoder'.shardIndex = decoder.shardIndex := by
  simp only [startCluster] at h
  split at h
  · cases h
  · cases h
    exact ⟨rfl, rfl, rfl⟩

/-- A frame that is read is counted, within the budget. -/
theorem readFrame_ok {decoder decoder' : LerobotShardDecoder ψ φ} {more : Bool}
    (h : readFrame media decoder = .ok (more, decoder')) :
    decoder'.clusterPosition = decoder.clusterPosition ∧
      decoder'.targetPosition = decoder.targetPosition ∧
      decoder'.shardIndex = decoder.shardIndex ∧
      decoder'.decodeFrameBudget = decoder.decodeFrameBudget ∧
      (more = true → decoder'.decodedFramesSinceSeek = decoder.decodedFramesSinceSeek + 1 ∧
        decoder'.decodedFramesSinceSeek ≤ decoder.decodeFrameBudget) := by
  unfold readFrame at h
  split at h
  · cases h
  · cases h
    exact ⟨rfl, rfl, rfl, rfl, fun hmore => by cases hmore⟩
  · dsimp only at h
    simp only [except_check_eq_ok] at h
    obtain ⟨-, hbudget, h⟩ := h
    cases h
    exact ⟨rfl, rfl, rfl, rfl, fun _ => ⟨rfl, not_lt.mp hbudget⟩⟩

theorem convertPixels_ok {decoder decoder' : LerobotShardDecoder ψ φ} {frame : Frame φ}
    {width height : Int} {pixels : List UInt8}
    (h : convertPixels media decoder frame width height = .ok (pixels, decoder')) :
    decoder'.clusterPosition = decoder.clusterPosition ∧
      decoder'.targetPosition = decoder.targetPosition ∧
      decoder'.shardIndex = decoder.shardIndex := by
  unfold convertPixels at h
  split at h
  · cases h
    exact ⟨rfl, rfl, rfl⟩
  · split at h
    · cases h
    · cases h
      exact ⟨rfl, rfl, rfl⟩

theorem convertFrame_ok {decoder decoder' : LerobotShardDecoder ψ φ} {frame : Frame φ}
    {targetIndex : Nat} {result : DecodedVideoFrame}
    (h : convertFrame media decoder frame targetIndex = .ok (result, decoder')) :
    result.targetIndex = targetIndex ∧ decoder'.clusterPosition = decoder.clusterPosition ∧
      decoder'.targetPosition = decoder.targetPosition ∧
      decoder'.shardIndex = decoder.shardIndex := by
  simp only [convertFrame, except_check_eq_ok] at h
  obtain ⟨-, -, h⟩ := h
  split at h
  · cases h
    exact ⟨rfl, rfl, rfl, rfl⟩
  · split at h
    · cases h
    · rename_i hconvert
      cases h
      exact ⟨rfl, convertPixels_ok hconvert⟩

/-- A round that serves a target and steps over it. -/
def Served (decoder : LerobotShardDecoder ψ φ) (targetIndex : Nat) (next : Round ψ φ) : Prop :=
  ∃ result decoder', next = .returned result decoder' ∧ result.targetIndex = targetIndex ∧
    decoder'.clusterPosition = decoder.clusterPosition ∧
    decoder'.targetPosition = decoder.targetPosition + 1 ∧
    decoder'.shardIndex = decoder.shardIndex

/-- A round that reads another frame. -/
def ReadOn (decoder : LerobotShardDecoder ψ φ) (next : Round ψ φ) : Prop :=
  ∃ decoder', next = .again decoder' ∧ decoder'.clusterPosition = decoder.clusterPosition ∧
    decoder'.targetPosition = decoder.targetPosition ∧
    decoder'.shardIndex = decoder.shardIndex ∧
    decoder'.decodeFrameBudget = decoder.decodeFrameBudget ∧
    decoder'.decodedFramesSinceSeek = decoder.decodedFramesSinceSeek + 1 ∧
    decoder'.decodedFramesSinceSeek ≤ decoder.decodeFrameBudget

theorem serve_ok {decoder : LerobotShardDecoder ψ φ} {frame : Frame φ} {targetIndex : Nat}
    {next : Round ψ φ} (h : serve media buffer decoder frame targetIndex = .ok next) :
    Served decoder targetIndex next := by
  simp only [serve] at h
  split at h
  · cases h
  · split at h
    · cases h
    · rename_i hconvert
      cases h
      obtain ⟨hindex, hcluster, htarget, hshard⟩ := convertFrame_ok hconvert
      exact ⟨_, _, rfl, hindex, hcluster, congrArg (· + 1) htarget, hshard⟩

theorem serveLast_ok {decoder : LerobotShardDecoder ψ φ} {targetIndex : Nat} {next : Round ψ φ}
    (h : serveLast media buffer decoder targetIndex = .ok next) :
    Served decoder targetIndex next := by
  unfold serveLast at h
  split at h
  · cases h
  · have hserved := serve_ok h
    exact hserved

theorem readMore_ok {decoder : LerobotShardDecoder ψ φ} {targetIndex : Nat} {next : Round ψ φ}
    (h : readMore media buffer decoder targetIndex = .ok next) :
    Served decoder targetIndex next ∨ ReadOn decoder next := by
  unfold readMore at h
  split at h
  · exact .inl (serveLast_ok h)
  · split at h
    · cases h
    · rename_i hread
      cases h
      obtain ⟨hcluster, htarget, hshard, hbudget, hmore⟩ := readFrame_ok hread
      obtain ⟨hcount, hle⟩ := hmore rfl
      exact .inr ⟨_, rfl, hcluster, htarget, hshard, hbudget, hcount, hle⟩
    · rename_i hread
      obtain ⟨hcluster, htarget, hshard, -⟩ := readFrame_ok hread
      obtain ⟨result, decoder', rfl, hindex, hserved⟩ := serveLast_ok h
      refine .inl ⟨result, decoder', rfl, hindex, ?_⟩
      rwa [hcluster, htarget, hshard] at hserved

theorem alignTarget_ok {decoder : LerobotShardDecoder ψ φ} {targetIndex : Nat} {next : Round ψ φ}
    (h : alignTarget media buffer decoder targetIndex = .ok next) :
    Served decoder targetIndex next ∨ ReadOn decoder next := by
  simp only [alignTarget] at h
  split at h
  · exact readMore_ok h
  · split at h
    · exact .inl (serve_ok h)
    · have hmore := readMore_ok h
      exact hmore

/-- **What a round does with the targets that remain.** -/
def Keeps (buffer : LerobotDecodeBuffer LerobotDecodeTarget) (decoder : LerobotShardDecoder ψ φ) :
    Round ψ φ → Prop
  | .again decoder' => decoder'.remaining buffer = decoder.remaining buffer ∧
      decoder'.shardIndex = decoder.shardIndex
  | .finished decoder' => decoder.remaining buffer = [] ∧ decoder'.shardIndex = decoder.shardIndex
  | .returned result decoder' =>
      decoder.remaining buffer = result.targetIndex :: decoder'.remaining buffer ∧
        decoder'.shardIndex = decoder.shardIndex

/-- The targets that remain at a position. -/
theorem remaining_eq {decoder : LerobotShardDecoder ψ φ} {cluster : List Nat}
    (h : buffer.clusters[decoder.clusterPosition]? = some cluster) :
    decoder.remaining buffer = cluster.drop decoder.targetPosition ++
      (buffer.clusters.drop (decoder.clusterPosition + 1)).flatten := by
  rw [remaining, h]
  rfl

theorem remaining_start {decoder : LerobotShardDecoder ψ φ} (h : decoder.targetPosition = 0) :
    decoder.remaining buffer = (buffer.clusters.drop decoder.clusterPosition).flatten := by
  rw [remaining, h, List.drop_zero]
  cases hcluster : buffer.clusters[decoder.clusterPosition]? with
  | none =>
      have hle := List.getElem?_eq_none_iff.mp hcluster
      rw [List.drop_eq_nil_of_le hle, List.drop_eq_nil_of_le (Nat.le_succ_of_le hle)]
      rfl
  | some cluster =>
      obtain ⟨hlt, rfl⟩ := List.getElem?_eq_some_iff.mp hcluster
      rw [List.drop_eq_getElem_cons hlt]
      rfl

theorem nextCluster_keeps {decoder : LerobotShardDecoder ψ φ} {cluster : List Nat}
    {next : Round ψ φ} (hcluster : buffer.clusters[decoder.clusterPosition]? = some cluster)
    (hend : cluster.length ≤ decoder.targetPosition)
    (h : nextCluster media buffer decoder = .ok next) :
    Keeps buffer decoder next ∧ ∀ decoder', next = .again decoder' →
      rounds buffer decoder' < rounds buffer decoder := by
  have hlt : decoder.clusterPosition < buffer.clusters.length :=
    (List.getElem?_eq_some_iff.mp hcluster).1
  have hremaining := remaining_eq hcluster
  rw [List.drop_eq_nil_of_le hend, List.nil_append] at hremaining
  simp only [nextCluster] at h
  split at h
  · rename_i hlast
    cases h
    refine ⟨⟨?_, rfl⟩, fun decoder' hagain => by cases hagain⟩
    rw [hremaining, List.drop_eq_nil_of_le hlast]
    rfl
  · rename_i hmore
    cases hstart : startCluster media buffer
        { decoder with clusterPosition := decoder.clusterPosition + 1 } with
    | error e =>
        rw [hstart] at h
        cases h
    | ok decoder' =>
        rw [hstart] at h
        cases h
        obtain ⟨hposition, htarget, hshard⟩ := startCluster_ok hstart
        refine ⟨⟨?_, hshard⟩, ?_⟩
        · rw [hremaining, remaining_start htarget, hposition]
        · intro decoder'' hagain
          cases hagain
          apply Prod.Lex.left
          rw [hposition]
          exact Nat.sub_lt_sub_left hlt (Nat.lt_succ_self _)

/-- **A round keeps the targets that remain**, and there is not always another one. -/
theorem round_keeps {decoder : LerobotShardDecoder ψ φ} {next : Round ψ φ}
    (h : round media buffer decoder = .ok next) :
    Keeps buffer decoder next ∧ ∀ decoder', next = .again decoder' →
      rounds buffer decoder' < rounds buffer decoder := by
  unfold round at h
  split at h
  · rename_i hnone
    cases h
    refine ⟨⟨?_, rfl⟩, fun decoder' hagain => by cases hagain⟩
    have hle := List.getElem?_eq_none_iff.mp hnone
    rw [remaining, hnone, List.drop_eq_nil_of_le (Nat.le_succ_of_le hle), Option.getD_none,
      List.drop_nil]
    rfl
  · rename_i cluster hcluster
    split at h
    · rename_i hnone
      exact nextCluster_keeps hcluster (List.getElem?_eq_none_iff.mp hnone) h
    · rename_i targetIndex htarget
      obtain ⟨hlt, rfl⟩ := List.getElem?_eq_some_iff.mp htarget
      rcases alignTarget_ok h with ⟨result, decoder', rfl, hindex, hposition, hnext, hshard⟩ |
        ⟨decoder', rfl, hposition, hsame, hshard, hbudget, hcount, hle⟩
      · refine ⟨⟨?_, hshard⟩, fun decoder'' hagain => by cases hagain⟩
        have hcluster' : buffer.clusters[decoder'.clusterPosition]? = some cluster :=
          hposition ▸ hcluster
        rw [remaining_eq hcluster, remaining_eq hcluster',
          List.drop_eq_getElem_cons hlt, hnext, hposition, hindex]
        rfl
      · refine ⟨⟨?_, hshard⟩, ?_⟩
        · rw [remaining, remaining, hposition, hsame]
        · intro decoder'' hagain
          cases hagain
          rw [rounds, rounds, hposition, hbudget, hcount]
          rw [hcount] at hle
          apply Prod.Lex.right
          omega

end Media

section Next

variable (media : Media ψ φ) (buffer : LerobotDecodeBuffer LerobotDecodeTarget)

/-- `Next`: the frame of another target, or none after the last one. -/
def next (decoder : LerobotShardDecoder ψ φ) :
    Except DecodeException (Option DecodedVideoFrame × LerobotShardDecoder ψ φ) :=
  match _hround : round media buffer decoder with
  | .error e => .error e
  | .ok (.finished decoder') => .ok (none, decoder')
  | .ok (.returned result decoder') => .ok (some result, decoder')
  | .ok (.again decoder') => next decoder'
termination_by rounds buffer decoder
decreasing_by exact (round_keeps _hround).2 decoder' rfl

variable {media buffer}

/-- **`Next` serves the targets in turn**, and ends after the last one. -/
theorem next_keeps {decoder decoder' : LerobotShardDecoder ψ φ} {served : Option DecodedVideoFrame}
    (h : next media buffer decoder = .ok (served, decoder')) :
    Keeps buffer decoder (served.elim (.finished decoder') fun result => .returned result decoder') := by
  induction decoder using next.induct media buffer with
  | case1 decoder e hround =>
      rw [next, hround] at h
      cases h
  | case2 decoder decoder'' hround =>
      rw [next, hround] at h
      cases h
      exact (round_keeps hround).1
  | case3 decoder result decoder'' hround =>
      rw [next, hround] at h
      cases h
      exact (round_keeps hround).1
  | case4 decoder again hround ih =>
      rw [next, hround] at h
      obtain ⟨hremaining, hshard⟩ := (round_keeps hround).1
      have hkeeps := ih h
      cases served with
      | none => exact ⟨hremaining.symm.trans hkeeps.1, hkeeps.2.trans hshard⟩
      | some result => exact ⟨hremaining.symm.trans hkeeps.1, hkeeps.2.trans hshard⟩

/-! ## What is thrown -/

theorem startCluster_error {decoder : LerobotShardDecoder ψ φ} {e : DecodeException}
    (h : startCluster media buffer decoder = .error e) : e.Expected := by
  simp only [startCluster] at h
  split at h
  · cases h
    exact fun message hinternal => by cases hinternal
  · cases h

theorem readFrame_error {decoder : LerobotShardDecoder ψ φ} {e : DecodeException}
    (h : readFrame media decoder = .error e) : e.Expected := by
  unfold readFrame at h
  split at h
  · cases h
    exact fun message hinternal => by cases hinternal
  · cases h
  · dsimp only at h
    split at h
    · cases h
      exact fun message hinternal => by cases hinternal
    · split at h
      · cases h
        exact fun message hinternal => by cases hinternal
      · cases h

theorem convertFrame_error {decoder : LerobotShardDecoder ψ φ} {frame : Frame φ}
    {targetIndex : Nat} {e : DecodeException}
    (h : convertFrame media decoder frame targetIndex = .error e) : e.Expected := by
  simp only [convertFrame] at h
  generalize (if 0 < decoder.options.width then decoder.options.width else frame.width) = width at h
  generalize (if 0 < decoder.options.height then decoder.options.height else frame.height) =
    height at h
  split at h
  · cases h
    exact fun message hinternal => by cases hinternal
  split at h
  · cases h
    exact fun message hinternal => by cases hinternal
  split at h
  · cases h
  split at h
  · rename_i hconvert
    cases h
    unfold convertPixels at hconvert
    split at hconvert
    · cases hconvert
    · split at hconvert
      · cases hconvert
        exact fun message hinternal => by cases hinternal
      · cases hconvert
  · cases h

theorem serve_error {decoder : LerobotShardDecoder ψ φ} {frame : Frame φ} {targetIndex : Nat}
    {e : DecodeException} (h : serve media buffer decoder frame targetIndex = .error e) :
    e.Expected := by
  simp only [serve] at h
  split at h
  · rename_i hvalidate
    cases h
    simp only [validateTolerance] at hvalidate
    split at hvalidate
    · cases hvalidate
      exact fun message hinternal => by cases hinternal
    · cases hvalidate
  · split at h
    · rename_i hconvert
      cases h
      exact convertFrame_error hconvert
    · cases h

theorem serveLast_error {decoder : LerobotShardDecoder ψ φ} {targetIndex : Nat}
    {e : DecodeException} (h : serveLast media buffer decoder targetIndex = .error e) :
    e.Expected := by
  unfold serveLast at h
  split at h
  · cases h
    exact fun message hinternal => by cases hinternal
  · exact serve_error h

theorem readMore_error {decoder : LerobotShardDecoder ψ φ} {targetIndex : Nat}
    {e : DecodeException} (h : readMore media buffer decoder targetIndex = .error e) :
    e.Expected := by
  unfold readMore at h
  split at h
  · exact serveLast_error h
  · split at h
    · rename_i hread
      cases h
      exact readFrame_error hread
    · cases h
    · exact serveLast_error h

theorem round_error {decoder : LerobotShardDecoder ψ φ} {e : DecodeException}
    (h : round media buffer decoder = .error e) : e.Expected := by
  unfold round at h
  split at h
  · cases h
  split at h
  · simp only [nextCluster] at h
    split at h
    · cases h
    · cases hstart : startCluster media buffer
          { decoder with clusterPosition := decoder.clusterPosition + 1 } with
      | error e' =>
          rw [hstart] at h
          cases h
          exact startCluster_error hstart
      | ok decoder' =>
          rw [hstart] at h
          cases h
  · simp only [alignTarget] at h
    split at h
    · exact readMore_error h
    · split at h
      · exact serve_error h
      · exact readMore_error h

/-- `Next` throws no internal exception. -/
theorem next_error {decoder : LerobotShardDecoder ψ φ} {e : DecodeException}
    (h : next media buffer decoder = .error e) : e.Expected := by
  induction decoder using next.induct media buffer with
  | case1 decoder e' hround =>
      rw [next, hround] at h
      cases h
      exact round_error hround
  | case2 decoder decoder'' hround =>
      rw [next, hround] at h
      cases h
  | case3 decoder result decoder'' hround =>
      rw [next, hround] at h
      cases h
  | case4 decoder again hround ih =>
      rw [next, hround] at h
      exact ih h

/-- **`BeginBuffer`** of a buffer of the shard: all its targets remain. -/
theorem beginBuffer_spec {decoder : LerobotShardDecoder ψ φ}
    (hshard : buffer.shardIndex = decoder.shardIndex) (htargets : buffer.targets ≠ [])
    (hclusters : buffer.clusters ≠ []) :
    Yields (fun decoder' => decoder'.remaining buffer = buffer.clusters.flatten ∧
      decoder'.shardIndex = decoder.shardIndex) DecodeException.Expected
      (beginBuffer media buffer decoder) := by
  have hok : ¬(buffer.shardIndex ≠ decoder.shardIndex ∨ buffer.targets = [] ∨
      buffer.clusters = []) := by
    simp [hshard, htargets, hclusters]
  rw [beginBuffer, if_neg hok]
  dsimp only
  split
  · refine ⟨?_, rfl⟩
    rw [remaining_start rfl]
    rfl
  · cases hstart : startCluster media buffer
        { decoder with clusterPosition := 0, targetPosition := 0 } with
    | error e => exact startCluster_error hstart
    | ok decoder' =>
        obtain ⟨hposition, htarget, hshard'⟩ := startCluster_ok hstart
        refine ⟨?_, hshard'⟩
        rw [remaining_start htarget, hposition]
        rfl

end Next

end LerobotShardDecoder

end DuckdbLerobot.Video
