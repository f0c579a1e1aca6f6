import DuckdbLerobot.Video.TargetRows
import DuckdbLerobot.Video.TemporalDeltas

/-!
# `lerobot_temporal_targets` and the three clamps

`lerobot_temporal_targets` resolves the frame of a delta for each of its input rows, from the route of the
episode. So do `lerobot_video_windows` and `lerobot_video_targets`: all three clamp the frame to the episode, in
`int64_t` and with comparisons that do not overflow. They compute what the clamp is over the integers
(`temporal_operators_agree`).
-/

set_option autoImplicit false

namespace DuckdbLerobot.Video

open DuckdbLerobot.Library DuckdbLerobot.Path DuckdbLerobot.Storage

/-! ## The operator -/

/-- `LerobotTemporalTargetsBindData`. -/
structure LerobotTemporalTargetsBindData where
  metadata : LerobotDatasetMetadata
  deltas : List LerobotTemporalDelta
  inputColumns : List Nat

/-- What `LerobotTemporalTargetsFunction` can throw. -/
inductive TemporalException
  | invalidInput (message : String)
  | internal (message : String)
  deriving DecidableEq

/-- `ReadInputInteger`. The bind casts all columns to BIGINT. -/
def readInputInteger (row : InputRow) (column : Nat) (columnName : String) :
    Except TemporalException Int :=
  match row[column]? with
  | some (.integer (some value)) => .ok value
  | some (.integer none) => .error (.invalidInput
      s!"lerobot_temporal_targets input column '{columnName}' must not contain NULL")
  | some (.varchar none) => .error (.invalidInput
      s!"lerobot_temporal_targets input column '{columnName}' must not contain NULL")
  | _ => .error (.internal s!"Expected BIGINT vector for lerobot_temporal_targets column '{columnName}'")

/-- The values of an input row. -/
structure TemporalRequest where
  requestId : Int
  targetId : Int
  episodeIndex : Int
  frameIndex : Int
  deltaIndex : Int

/-- `LerobotTemporalTarget`. -/
structure LerobotTemporalTarget where
  requestId : Int
  targetOrdinal : Nat
  targetId : Int
  episodeIndex : Int
  frameIndex : Int
  deltaIndex : Int
  deltaTimestamp : ℚ
  deltaFrameOffset : Int
  isPadding : Bool
  targetFrameIndex : Int
  deriving DecidableEq

section Operator

variable (data : LerobotTemporalTargetsBindData)

/-- The reads of the columns of a row. -/
def readTemporalRow (row : InputRow) : Except TemporalException TemporalRequest := do
  let requestId ← readInputInteger row (data.inputColumns.getD 0 0) "request_id"
  let targetId ← if data.inputColumns.length = 5 then
      readInputInteger row (data.inputColumns.getD 4 0) "target_id"
    else .ok 0
  let episodeIndex ← readInputInteger row (data.inputColumns.getD 1 0) "episode_index"
  let frameIndex ← readInputInteger row (data.inputColumns.getD 2 0) "frame_index"
  let deltaIndex ← readInputInteger row (data.inputColumns.getD 3 0) "delta_index"
  .ok ⟨requestId, targetId, episodeIndex, frameIndex, deltaIndex⟩

/-- The delta of an index. -/
def findTemporalDelta (deltaIndex : Int) : Option LerobotTemporalDelta :=
  if deltaIndex < 0 then none else data.deltas[deltaIndex.toNat]?

/-- The checks of a row: its route and its delta. -/
def resolveTemporal (request : TemporalRequest) :
    Except TemporalException (LerobotEpisodeRoute × LerobotTemporalDelta) :=
  if request.episodeIndex < 0 ∨ request.frameIndex < 0 then
    .error (.invalidInput
      "lerobot_temporal_targets episode_index and frame_index must be non-negative")
  else
    match findTemporalDelta data request.deltaIndex with
    | none => .error (.invalidInput (s!"lerobot_temporal_targets delta_index {request.deltaIndex} is " ++
        s!"outside delta_timestamps length {data.deltas.length}"))
    | some delta =>
        match data.metadata.findEpisodeRoute request.episodeIndex with
        | none => .error (.invalidInput s!"LeRobot episode {request.episodeIndex} does not exist")
        | some route =>
            if route.episodeLength ≤ request.frameIndex then
              .error (.invalidInput (s!"LeRobot frame {request.frameIndex} is outside episode " ++
                s!"{request.episodeIndex} length {route.episodeLength}"))
            else .ok (route, delta)

/-- The target of a row. -/
def temporalTarget (request : TemporalRequest) (route : LerobotEpisodeRoute)
    (delta : LerobotTemporalDelta) (ordinal : Nat) : LerobotTemporalTarget where
  requestId := request.requestId
  targetOrdinal := ordinal
  targetId := request.targetId
  episodeIndex := request.episodeIndex
  frameIndex := request.frameIndex
  deltaIndex := request.deltaIndex
  deltaTimestamp := delta.timestamp
  deltaFrameOffset := delta.frameOffset
  isPadding := (clampTarget delta.frameOffset request.frameIndex (route.episodeLength - 1)).2
  targetFrameIndex := (clampTarget delta.frameOffset request.frameIndex (route.episodeLength - 1)).1

/-- The loop over the rows. -/
def addTemporalRow (firstOrdinal : Nat) (targets : List LerobotTemporalTarget) (row : InputRow) :
    Except TemporalException (List LerobotTemporalTarget) := do
  let request ← readTemporalRow data row
  let (route, delta) ← resolveTemporal data request
  .ok (targets ++ [temporalTarget request route delta (firstOrdinal + targets.length)])

/-- `LerobotTemporalTargetsFunction`, after `ClaimTargetOrdinals`. -/
def lerobotTemporalTargetsFunction (firstOrdinal : Nat) (rows : List InputRow) :
    Except TemporalException (List LerobotTemporalTarget) :=
  if int64Maximum - rows.length < firstOrdinal then
    .error (.invalidInput "lerobot_temporal_targets produced too many rows for target_ordinal")
  else rows.foldlM (addTemporalRow data firstOrdinal) []

end Operator

/-! ## In signed arithmetic -/

/-- The comparisons of the three functions, with the results of their operations on `int64_t`. -/
def int64Clamp (frameOffset frameIndex episodeLength : Int) : Option (Int × Bool) := do
  let lastFrameIndex ← int64Result (episodeLength - 1)
  let toFirst ← int64Result (-frameIndex)
  if frameOffset < toFirst then some (0, true)
  else do
    let toLast ← int64Result (lastFrameIndex - frameIndex)
    if toLast < frameOffset then some (lastFrameIndex, true)
    else do
      let targetFrameIndex ← int64Result (frameIndex + frameOffset)
      some (targetFrameIndex, false)

/-- A target of `BuildVideoWindowQuery`, in `int64_t`. -/
def int64RequestedTarget (episodeLength : Int) (request : LerobotVideoWindowRequest)
    (delta : LerobotTemporalDelta) (deltaIndex : Nat) : Option RequestedTarget :=
  (int64Clamp delta.frameOffset request.frameIndex episodeLength).map fun clamped =>
    ⟨request.requestId, request.requestOrdinal, deltaIndex, delta.timestamp, delta.frameOffset,
      clamped.2, request.episodeIndex, request.frameIndex, clamped.1⟩

/-- A target of `BuildTargetBuffers`, in `int64_t`. -/
def int64RowTarget (request : TargetRequest) (route : LerobotVideoRoute) (delta : LerobotTemporalDelta)
    (ordinal routeIndex : Nat) : Option LerobotDecodeTarget :=
  (int64Clamp delta.frameOffset request.frameIndex route.episodeLength).map fun clamped =>
    { rowTarget request route delta ordinal routeIndex with
      isPadding := clamped.2
      targetFrameIndex := clamped.1 }

/-- A target of `LerobotTemporalTargetsFunction`, in `int64_t`. -/
def int64TemporalTarget (request : TemporalRequest) (route : LerobotEpisodeRoute)
    (delta : LerobotTemporalDelta) (ordinal : Nat) : Option LerobotTemporalTarget :=
  (int64Clamp delta.frameOffset request.frameIndex route.episodeLength).map fun clamped =>
    { temporalTarget request route delta ordinal with
      isPadding := clamped.2
      targetFrameIndex := clamped.1 }

/-! ## Over the integers -/

/-- The frame of a delta in an episode, and whether it is outside of the episode. -/
def clampedFrame (frameOffset frameIndex episodeLength : Int) : Int × Bool :=
  (max 0 (min (frameIndex + frameOffset) (episodeLength - 1)),
    decide (¬(0 ≤ frameIndex + frameOffset ∧ frameIndex + frameOffset < episodeLength)))

section Clamp

variable {frameOffset frameIndex episodeLength : Int}

theorem clampTarget_eq (hframe : 0 ≤ frameIndex) (hlength : frameIndex < episodeLength) :
    clampTarget frameOffset frameIndex (episodeLength - 1) =
      clampedFrame frameOffset frameIndex episodeLength := by
  rw [clampTarget, clampedFrame]
  split
  · -- before the first frame
    rename_i hbefore
    rw [max_eq_left (by omega), decide_eq_true (by omega)]
  · rename_i hbefore
    split
    · -- after the last frame
      rename_i hafter
      rw [min_eq_right (by omega), max_eq_right (by omega), decide_eq_true (by omega)]
    · rename_i hafter
      rw [min_eq_left (by omega), max_eq_right (by omega), decide_eq_false (by omega)]

/-- **No operation overflows**, however far the delta is. -/
theorem int64Clamp_eq (hinside : InInt64 episodeLength) (hframe : 0 ≤ frameIndex)
    (hlength : frameIndex < episodeLength) :
    int64Clamp frameOffset frameIndex episodeLength =
      some (clampTarget frameOffset frameIndex (episodeLength - 1)) := by
  obtain ⟨-, hupper⟩ := hinside
  have hlast : int64Result (episodeLength - 1) = some (episodeLength - 1) :=
    int64Result_eq ⟨by omega, by omega⟩
  have htoFirst : int64Result (-frameIndex) = some (-frameIndex) := int64Result_eq ⟨by omega, by omega⟩
  have htoLast : int64Result (episodeLength - 1 - frameIndex) = some (episodeLength - 1 - frameIndex) :=
    int64Result_eq ⟨by omega, by omega⟩
  rw [int64Clamp, hlast, htoFirst, clampTarget]
  dsimp only [Option.bind_eq_bind, Option.bind_some]
  split
  · rfl
  · rename_i hbefore
    rw [htoLast]
    dsimp only [Option.bind_eq_bind, Option.bind_some]
    split
    · rfl
    · -- the frame is in the episode
      rename_i hafter
      have htarget : int64Result (frameIndex + frameOffset) = some (frameIndex + frameOffset) :=
        int64Result_eq ⟨by omega, by omega⟩
      rw [htarget]
      rfl

end Clamp

/-! ## The three operators -/

/-- The three operators compute one target frame, without an overflow. -/
structure ClampsAgree (delta : LerobotTemporalDelta) (frameIndex episodeLength : Int) : Prop where
  windows : ∀ (request : LerobotVideoWindowRequest) (deltaIndex : Nat), request.frameIndex = frameIndex →
    int64RequestedTarget episodeLength request delta deltaIndex =
        some (requestedTarget episodeLength request delta deltaIndex) ∧
      ((requestedTarget episodeLength request delta deltaIndex).targetFrameIndex,
          (requestedTarget episodeLength request delta deltaIndex).isPadding) =
        clampedFrame delta.frameOffset frameIndex episodeLength
  targets : ∀ (request : TargetRequest) (route : LerobotVideoRoute) (ordinal routeIndex : Nat),
    request.frameIndex = frameIndex → route.episodeLength = episodeLength →
      int64RowTarget request route delta ordinal routeIndex =
          some (rowTarget request route delta ordinal routeIndex) ∧
        ((rowTarget request route delta ordinal routeIndex).targetFrameIndex,
            (rowTarget request route delta ordinal routeIndex).isPadding) =
          clampedFrame delta.frameOffset frameIndex episodeLength
  temporal : ∀ (request : TemporalRequest) (route : LerobotEpisodeRoute) (ordinal : Nat),
    request.frameIndex = frameIndex → route.episodeLength = episodeLength →
      int64TemporalTarget request route delta ordinal = some (temporalTarget request route delta ordinal) ∧
        ((temporalTarget request route delta ordinal).targetFrameIndex,
            (temporalTarget request route delta ordinal).isPadding) =
          clampedFrame delta.frameOffset frameIndex episodeLength

theorem clampsAgree (delta : LerobotTemporalDelta) {frameIndex episodeLength : Int}
    (hinside : InInt64 episodeLength) (hframe : 0 ≤ frameIndex) (hlength : frameIndex < episodeLength) :
    ClampsAgree delta frameIndex episodeLength where
  windows request deltaIndex hrequest := by
    subst hrequest
    rw [int64RequestedTarget, int64Clamp_eq hinside hframe hlength]
    exact ⟨rfl, clampTarget_eq hframe hlength⟩
  targets request route ordinal routeIndex hrequest hroute := by
    subst hrequest hroute
    rw [int64RowTarget, int64Clamp_eq hinside hframe hlength]
    exact ⟨rfl, clampTarget_eq hframe hlength⟩
  temporal request route ordinal hrequest hroute := by
    subst hrequest hroute
    rw [int64TemporalTarget, int64Clamp_eq hinside hframe hlength]
    exact ⟨rfl, clampTarget_eq hframe hlength⟩

theorem resolveTemporal_ok {data : LerobotTemporalTargetsBindData} {request : TemporalRequest}
    {route : LerobotEpisodeRoute} {delta : LerobotTemporalDelta}
    (h : resolveTemporal data request = .ok (route, delta)) :
    0 ≤ request.frameIndex ∧ request.frameIndex < route.episodeLength ∧ delta ∈ data.deltas := by
  rw [resolveTemporal] at h
  obtain ⟨hnonneg, h⟩ := except_check_eq_ok.mp h
  rw [not_or, not_lt, not_lt] at hnonneg
  cases hdelta : findTemporalDelta data request.deltaIndex with
  | none =>
      rw [hdelta] at h
      cases h
  | some found =>
      cases hroute : data.metadata.findEpisodeRoute request.episodeIndex with
      | none =>
          rw [hdelta, hroute] at h
          cases h
      | some foundRoute =>
          rw [hdelta, hroute] at h
          obtain ⟨hlength, h⟩ := except_check_eq_ok.mp h
          cases h
          rw [findTemporalDelta] at hdelta
          split at hdelta
          · cases hdelta
          · exact ⟨hnonneg.2, not_le.mp hlength, List.mem_of_getElem? hdelta⟩

/-- What a call of `lerobot_temporal_targets` returns: the targets of the rows, for routes and deltas of the
dataset, with frames in their episodes. -/
theorem lerobotTemporalTargetsFunction_ok {data : LerobotTemporalTargetsBindData} {firstOrdinal : Nat}
    {rows : List InputRow} {targets : List LerobotTemporalTarget}
    (h : lerobotTemporalTargetsFunction data firstOrdinal rows = .ok targets) :
    targets.length = rows.length ∧ ∀ target ∈ targets, ∃ request route delta ordinal,
      target = temporalTarget request route delta ordinal ∧ 0 ≤ request.frameIndex ∧
        request.frameIndex < route.episodeLength ∧ delta ∈ data.deltas := by
  rw [lerobotTemporalTargetsFunction] at h
  obtain ⟨-, hloop⟩ := except_check_eq_ok.mp h
  apply foldlM_ok (I := fun seen (targets : List LerobotTemporalTarget) =>
    targets.length = seen.length ∧ ∀ target ∈ targets, ∃ request route delta ordinal,
      target = temporalTarget request route delta ordinal ∧ 0 ≤ request.frameIndex ∧
        request.frameIndex < route.episodeLength ∧ delta ∈ data.deltas) hloop
  · simp
  · intro seen row rest targets next _ hinvariant hrow
    obtain ⟨hcount, htargets⟩ := hinvariant
    obtain ⟨request, -, hrow⟩ := except_bind_eq_ok.mp hrow
    obtain ⟨⟨route, delta⟩, hresolve, hrow⟩ := except_bind_eq_ok.mp hrow
    cases hrow
    refine ⟨by simp [hcount], ?_⟩
    intro target htarget
    rcases List.mem_append.mp htarget with htarget | htarget
    · exact htargets target htarget
    · cases List.mem_singleton.mp htarget
      obtain ⟨hframe, hlength, hdelta⟩ := resolveTemporal_ok hresolve
      exact ⟨request, route, delta, _, rfl, hframe, hlength, hdelta⟩

/-- **The temporal operators agree.** A delta that the parser accepts is rounded to the nearest frame, and even
if two are as near, within the tolerance. For every `int64_t` offset and every frame of an episode, the three
operators clamp the target frame alike, as over the integers, and no operation overflows. -/
theorem temporal_operators_agree :
    (∀ (print : ℚ → String) (input : NamedParameters) (fps : Int) (tolerance : ℚ) (functionName : String)
      (deltas : List LerobotTemporalDelta),
      getLerobotTemporalDeltas print input fps tolerance functionName = .ok deltas →
        ∀ delta ∈ deltas, RoundedDelta fps tolerance delta) ∧
    ∀ (delta : LerobotTemporalDelta) (frameIndex episodeLength : Int), InInt64 delta.frameOffset →
      1 ≤ episodeLength → InInt64 episodeLength → 0 ≤ frameIndex → frameIndex < episodeLength →
        ClampsAgree delta frameIndex episodeLength := by
  constructor
  · intro print input fps tolerance functionName deltas h
    exact getLerobotTemporalDeltas_rounded h
  · intro delta frameIndex episodeLength _ _ hinside hframe hlength
    exact clampsAgree delta hinside hframe hlength

/-- A tie of two frames, and the offsets at both limits of `int64_t`. -/
theorem extreme_operators_agree :
    (getLerobotTemporalDeltas (fun _ => "") { deltaTimestamps := some (some [some (.finite (5 / 2))]) } 1 1
        "lerobot_temporal_targets" = .ok [⟨5 / 2, 2⟩] ∧
      RoundedDelta 1 1 ⟨5 / 2, 2⟩) ∧
    ClampsAgree ⟨0, -2 ^ 63⟩ 4 5 ∧ ClampsAgree ⟨0, 2 ^ 63 - 1⟩ (2 ^ 63 - 2) (2 ^ 63 - 1) := by
  have hparsed : getLerobotTemporalDeltas (fun _ => "")
      { deltaTimestamps := some (some [some (.finite (5 / 2))]) } 1 1 "lerobot_temporal_targets" =
        .ok [⟨5 / 2, 2⟩] := by
    decide +kernel
  refine ⟨⟨hparsed, ?_⟩, ?_, ?_⟩
  · exact temporal_operators_agree.1 _ _ _ _ _ _ hparsed _ List.mem_cons_self
  · exact temporal_operators_agree.2 _ 4 5 (by decide) (by decide) (by decide) (by decide) (by decide)
  · exact temporal_operators_agree.2 _ _ _ (by decide) (by decide) (by decide) (by decide) (by decide)

end DuckdbLerobot.Video
