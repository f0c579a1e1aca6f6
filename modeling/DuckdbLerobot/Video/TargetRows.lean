import DuckdbLerobot.Storage.TargetTimestamps
import DuckdbLerobot.Video.OutputColumns
import DuckdbLerobot.Video.VideoBinds

/-!
# Rows of `lerobot_video_targets`

`BuildTargetBuffers` turns a batch of input rows into decode buffers. Each row becomes one target,
with the route of its episode and camera. The targets are grouped by the video file of their route,
and a group is split into buffers.
-/

set_option autoImplicit false

namespace DuckdbLerobot.Video

open DuckdbLerobot.Library DuckdbLerobot.Path DuckdbLerobot.Storage

/-! ## Input rows -/

/-- A value of an input row. The bind casts the columns to BIGINT and VARCHAR. -/
inductive InputValue
  | integer (value : Option Int)
  | varchar (value : Option Text)

/-- An input row, by physical column. -/
abbrev InputRow : Type := List InputValue

/-- What a call of `LerobotVideoTargetsFunction` can throw. -/
inductive TargetsException
  | invalidInput (message : String)
  | internal (message : String)
  | decode (e : DecodeException)

/-- The error for NULL in a column. -/
def nullColumn (columnName : String) : TargetsException :=
  .invalidInput s!"lerobot_video_targets input column '{columnName}' must not contain NULL"

/-- `ReadUnifiedInteger`. -/
def readUnifiedInteger (row : InputRow) (column : Nat) (columnName : String) :
    Except TargetsException Int :=
  match row[column]? with
  | some (.integer (some value)) =>
      if int64Maximum < value then
        .error (.invalidInput s!"lerobot_video_targets input column '{columnName}' is too large")
      else .ok value
  | some (.integer none) => .error (nullColumn columnName)
  | some (.varchar none) => .error (nullColumn columnName)
  | _ => .error (.internal
      s!"Expected integral vector for lerobot_video_targets column '{columnName}'")

/-- `ReadUnifiedValue` of a VARCHAR column. -/
def readUnifiedText (row : InputRow) (column : Nat) (columnName : String) :
    Except TargetsException Text :=
  match row[column]? with
  | some (.varchar (some value)) => .ok value
  | _ => .error (nullColumn columnName)

/-- The values of an input row. -/
structure TargetRequest where
  requestId : Int
  episodeIndex : Int
  frameIndex : Int
  videoKey : Text
  deltaIndex : Int
  targetId : Int

section Rows

variable (data : LerobotVideoTargetsBindData)

/-- The optional column `target_id`. -/
def readTargetId (row : InputRow) : Except TargetsException Int :=
  match data.inputColumns with
  | [_, _, _, _, _, column] => readUnifiedInteger row column "target_id"
  | _ => .ok 0

/-- The reads of the columns of a row. -/
def readRow (row : InputRow) : Except TargetsException TargetRequest := do
  let requestId ← readUnifiedInteger row (data.inputColumns.getD 0 0) "request_id"
  let episodeIndex ← readUnifiedInteger row (data.inputColumns.getD 1 0) "episode_index"
  let frameIndex ← readUnifiedInteger row (data.inputColumns.getD 2 0) "frame_index"
  let videoKey ← readUnifiedText row (data.inputColumns.getD 3 0) "video_key"
  let deltaIndex ← readUnifiedInteger row (data.inputColumns.getD 4 0) "delta_index"
  let targetId ← readTargetId data row
  .ok ⟨requestId, episodeIndex, frameIndex, videoKey, deltaIndex, targetId⟩

/-- The delta of an index. -/
def findDelta (deltaIndex : Int) : Option LerobotTemporalDelta :=
  if deltaIndex < 0 then none else data.deltas[deltaIndex.toNat]?

/-- The checks of a row: its route and its delta. -/
def resolveRequest (request : TargetRequest) :
    Except TargetsException (LerobotVideoRoute × LerobotTemporalDelta) :=
  if request.episodeIndex < 0 ∨ request.frameIndex < 0 then
    .error (.invalidInput
      "lerobot_video_targets episode_index and frame_index must be non-negative")
  else
    match findDelta data request.deltaIndex with
    | none => .error (.invalidInput (s!"lerobot_video_targets delta_index {request.deltaIndex} is " ++
        s!"outside delta_timestamps length {data.deltas.length}"))
    | some delta =>
        if request.videoKey = [] then
          .error (.invalidInput "lerobot_video_targets video_key must not be empty")
        else
          match data.metadata.findRoute request.episodeIndex request.videoKey with
          | none => .error (.invalidInput (s!"LeRobot episode {request.episodeIndex} has no video " ++
              s!"route for key '{String.ofList request.videoKey}'"))
          | some route =>
              if route.episodeLength ≤ request.frameIndex then
                .error (.invalidInput (s!"LeRobot frame {request.frameIndex} is outside episode " ++
                  s!"{request.episodeIndex} length {route.episodeLength}"))
              else .ok (route, delta)

/-- The target of a row, before its timestamps are known. -/
def rowTarget (request : TargetRequest) (route : LerobotVideoRoute) (delta : LerobotTemporalDelta)
    (ordinal routeIndex : Nat) : LerobotDecodeTarget where
  requestId := request.requestId
  targetId := request.targetId
  requestOrdinal := ordinal
  deltaOrdinal := request.deltaIndex.toNat
  deltaTimestamp := delta.timestamp
  deltaFrameOffset := delta.frameOffset
  isPadding := (clampTarget delta.frameOffset request.frameIndex (route.episodeLength - 1)).2
  episodeIndex := request.episodeIndex
  frameIndex := request.frameIndex
  targetFrameIndex := (clampTarget delta.frameOffset request.frameIndex (route.episodeLength - 1)).1
  frameTimestamp := 0
  videoTimestamp := 0
  routeIndex := routeIndex

/-- What the loop over the rows has collected. -/
structure BatchTargets where
  routes : List LerobotVideoRoute := []
  targets : List LerobotDecodeTarget := []

/-- The loop over the rows. -/
def addRow (firstOrdinal : Nat) (batch : BatchTargets) (row : InputRow) :
    Except TargetsException BatchTargets := do
  let request ← readRow data row
  let (route, delta) ← resolveRequest data request
  .ok ⟨batch.routes ++ [route], batch.targets ++
    [rowTarget request route delta (firstOrdinal + batch.targets.length) batch.routes.length]⟩

/-- The video timestamp of a frame, when it is in the range of its route. -/
def videoTimestamp? (tolerance : ℚ) (route : LerobotVideoRoute) (timestamp : ℚ) : Option ℚ :=
  match Double.rounded (route.fromTimestamp + timestamp) with
  | .finite value =>
      if Double.less (.finite value) (Double.rounded (route.fromTimestamp - tolerance)) ∨
          Double.less (Double.rounded (route.toTimestamp + tolerance)) (.finite value) then none
      else some value
  | _ => none

/-- The loop over the targets: set the timestamps. -/
def timeTarget (printSeconds : Double → String) (routes : List LerobotVideoRoute)
    (timestamps : AList fun _ : LerobotTimestampKey => ℚ) (target : LerobotDecodeTarget) :
    Except TargetsException LerobotDecodeTarget :=
  match timestamps.lookup (targetKey target) with
  | none => .error (.internal "Missing resolved LeRobot target timestamp")
  | some timestamp =>
      let route := routes.getD target.routeIndex default
      match videoTimestamp? data.options.tolerance route timestamp with
      | none => .error (.invalidInput (s!"LeRobot episode {target.episodeIndex} frame " ++
          s!"{target.targetFrameIndex} timestamp " ++
          s!"{printSeconds (Double.rounded (route.fromTimestamp + timestamp))} falls outside video " ++
          s!"route [{printSeconds (.finite route.fromTimestamp)}, " ++
          s!"{printSeconds (.finite route.toTimestamp)}] for key " ++
          s!"'{String.ofList (data.metadata.getVideoKey route)}'"))
      | some videoTimestamp =>
          .ok { target with frameTimestamp := timestamp, videoTimestamp := videoTimestamp }

/-- `targets_by_shard`. -/
def targetsByShard (routes : List LerobotVideoRoute) (targets : List LerobotDecodeTarget) :
    List (Nat × List LerobotDecodeTarget) :=
  groupBy
    (fun target => some (routes.getD target.routeIndex default).videoFileIndex) targets

/-- The buffers of one group. -/
def shardBuffers (arithmetic : Arithmetic) (sort : StdSort targetLess)
    (group : Nat × List LerobotDecodeTarget) :
    List (LerobotDecodeBuffer LerobotDecodeTarget) :=
  (splitEvery data.options.targetBufferSize group.2).map fun targets =>
    finalizeDecodeBuffer arithmetic sort data.options.clusterGap
      ⟨group.1, data.metadata.fps, targets, []⟩

end Rows

/-- What the environment decides for a batch: which files have an index, and the orders of the query
rows and of the unordered map. -/
structure BatchChoices (frames : Text → List (FrameRow Double)) where
  serving : Serving frames
  queryOrder : AnyOrder (QueryRow Double)
  shardOrder : AnyOrder (Nat × List LerobotDecodeTarget)

/-- A query over `lerobot_video_targets`: its bind data, the rows of the data files, and what it uses
of its environment. The options are those that `GetLerobotVideoOptions` accepts, and DuckDB counts its
threads in a signed 32-bit integer. -/
structure TargetsOperator (ψ φ : Type) where
  data : LerobotVideoTargetsBindData
  frames : Text → List (FrameRow Double)
  sort : StdSort targetLess
  printSeconds : Double → String
  media : Media ψ φ
  projectedColumns : List TargetColumn
  threads : Nat
  outputBatchSize_pos : 0 < data.options.outputBatchSize
  targetBufferSize_pos : 0 < data.options.targetBufferSize
  maxPendingTargets_pos : 0 < data.options.maxPendingTargets
  threads_lt : threads < 2 ^ 31

namespace TargetsOperator

variable {ψ φ : Type} (operator : TargetsOperator ψ φ)

/-- `NeedsDecode`. -/
def needsDecode : Bool := targetsNeedDecode operator.data.options operator.projectedColumns

/-- The part of `BuildTargetBuffers` after `ClaimTargetOrdinals`, for the rows of a batch: the routes
and the buffers. -/
def buildTargetBuffers (choices : BatchChoices operator.frames) (firstOrdinal : Nat)
    (rows : List InputRow) : Except TargetsException
      (List LerobotVideoRoute × List (LerobotDecodeBuffer LerobotDecodeTarget)) := do
  if int64Maximum - rows.length < firstOrdinal then
    .error (.invalidInput "lerobot_video_targets produced too many rows for target_ordinal")
  else do
    let batch ← rows.foldlM (addRow operator.data firstOrdinal) {}
    let timestamps ← (readTargetTimestamps choices.serving choices.queryOrder operator.data.dataset
      batch.targets).mapError fun e => .invalidInput e.message
    let targets ← batch.targets.mapM
      (timeTarget operator.data operator.printSeconds batch.routes timestamps)
    .ok (batch.routes, (choices.shardOrder.run (targetsByShard batch.routes targets)).flatMap
      (shardBuffers operator.data operator.media.arithmetic operator.sort))

end TargetsOperator

/-! ## What the rows become -/

/-- **The target of a row**: its own values, the route of its own episode and camera, and the frame of
its own delta. -/
structure RowResolved (data : LerobotVideoTargetsBindData) (row : InputRow)
    (route : LerobotVideoRoute) (target : LerobotDecodeTarget) : Prop where
  requestId : row[data.inputColumns.getD 0 0]? = some (.integer (some target.requestId))
  episodeIndex : row[data.inputColumns.getD 1 0]? = some (.integer (some target.episodeIndex))
  frameIndex : row[data.inputColumns.getD 2 0]? = some (.integer (some target.frameIndex))
  videoKey : ∃ videoKey, row[data.inputColumns.getD 3 0]? = some (.varchar (some videoKey)) ∧
    data.metadata.findRoute target.episodeIndex videoKey = some route
  deltaIndex : row[data.inputColumns.getD 4 0]? = some (.integer (some target.deltaOrdinal))
  delta : data.deltas[target.deltaOrdinal]? = some ⟨target.deltaTimestamp, target.deltaFrameOffset⟩
  targetId : readTargetId data row = .ok target.targetId
  inEpisode : 0 ≤ target.frameIndex ∧ target.frameIndex < route.episodeLength
  targetFrame : clampTarget target.deltaFrameOffset target.frameIndex (route.episodeLength - 1) =
    (target.targetFrameIndex, target.isPadding)

/-- The target of a row with its timestamps: that of the one row of its frame in some files, and its
place in the video. -/
structure RowAnswered (data : LerobotVideoTargetsBindData) (frames : Text → List (FrameRow Double))
    (files : List Text) (row : InputRow) (route : LerobotVideoRoute) (target : LerobotDecodeTarget) :
    Prop extends RowResolved data row route target where
  timestamp : OneTimestamp (matchingTimestamps (targetKey target) (rowsOf frames files))
    target.frameTimestamp
  videoTimestamp : videoTimestamp? data.options.tolerance route target.frameTimestamp =
    some target.videoTimestamp

/-- The key of the frame that a row asks for. -/
def requestKey (request : TargetRequest) (route : LerobotVideoRoute) (delta : LerobotTemporalDelta) :
    LerobotTimestampKey :=
  toLex (request.episodeIndex,
    (clampTarget delta.frameOffset request.frameIndex (route.episodeLength - 1)).1)

/-- A row without an error, when its frame is looked up in these files. -/
def RowFound (data : LerobotVideoTargetsBindData) (frames : Text → List (FrameRow Double))
    (files : List Text) (row : InputRow) : Prop :=
  ∃ request route delta timestamp, readRow data row = .ok request ∧
    resolveRequest data request = .ok (route, delta) ∧
    OneTimestamp (matchingTimestamps (requestKey request route delta) (rowsOf frames files))
      timestamp ∧
    (videoTimestamp? data.options.tolerance route timestamp).isSome

/-- The episode of a row. -/
def rowEpisode (data : LerobotVideoTargetsBindData) (row : InputRow) : Option Int :=
  match row[data.inputColumns.getD 1 0]? with
  | some (.integer episodeIndex) => episodeIndex
  | _ => none

/-- The files that a batch of rows is looked up in. -/
def rowFiles (data : LerobotVideoTargetsBindData) (rows : List InputRow) : List Text :=
  data.dataset.resolveDataFiles (sortUnique (rows.filterMap (rowEpisode data)))

section Resolve

variable {data : LerobotVideoTargetsBindData} {row : InputRow}

theorem readUnifiedInteger_ok {column : Nat} {columnName : String} {value : Int}
    (h : readUnifiedInteger row column columnName = .ok value) :
    row[column]? = some (.integer (some value)) := by
  unfold readUnifiedInteger at h
  split at h
  · rename_i hcell
    obtain ⟨-, h⟩ := except_check_eq_ok.mp h
    cases h
    exact hcell
  · cases h
  · cases h
  · cases h

theorem readUnifiedText_ok {column : Nat} {columnName : String} {value : Text}
    (h : readUnifiedText row column columnName = .ok value) :
    row[column]? = some (.varchar (some value)) := by
  unfold readUnifiedText at h
  split at h
  · rename_i hcell
    cases h
    exact hcell
  · cases h

theorem findDelta_ok {deltaIndex : Int} {delta : LerobotTemporalDelta}
    (h : findDelta data deltaIndex = some delta) :
    (deltaIndex.toNat : Int) = deltaIndex ∧ data.deltas[deltaIndex.toNat]? = some delta := by
  unfold findDelta at h
  split at h
  · cases h
  · rename_i hnonneg
    exact ⟨Int.toNat_of_nonneg (not_lt.mp hnonneg), h⟩

/-- What the checks of a row have found. -/
theorem resolveRequest_ok {request : TargetRequest} {route : LerobotVideoRoute}
    {delta : LerobotTemporalDelta} (h : resolveRequest data request = .ok (route, delta)) :
    0 ≤ request.frameIndex ∧ request.frameIndex < route.episodeLength ∧
      findDelta data request.deltaIndex = some delta ∧
      data.metadata.findRoute request.episodeIndex request.videoKey = some route := by
  unfold resolveRequest at h
  obtain ⟨hnonneg, h⟩ := except_check_eq_ok.mp h
  rw [not_or, not_lt, not_lt] at hnonneg
  split at h
  · cases h
  · rename_i hdelta
    obtain ⟨-, h⟩ := except_check_eq_ok.mp h
    split at h
    · cases h
    · rename_i hroute
      obtain ⟨hlength, h⟩ := except_check_eq_ok.mp h
      cases h
      exact ⟨hnonneg.2, not_le.mp hlength, hdelta, hroute⟩

theorem rowResolved_rowTarget {request : TargetRequest} {route : LerobotVideoRoute}
    {delta : LerobotTemporalDelta} (hread : readRow data row = .ok request)
    (hresolve : resolveRequest data request = .ok (route, delta)) (ordinal routeIndex : Nat) :
    RowResolved data row route (rowTarget request route delta ordinal routeIndex) := by
  obtain ⟨requestId, hrequestId, hread⟩ := except_bind_eq_ok.mp hread
  obtain ⟨episodeIndex, hepisodeIndex, hread⟩ := except_bind_eq_ok.mp hread
  obtain ⟨frameIndex, hframeIndex, hread⟩ := except_bind_eq_ok.mp hread
  obtain ⟨videoKey, hvideoKey, hread⟩ := except_bind_eq_ok.mp hread
  obtain ⟨deltaIndex, hdeltaIndex, hread⟩ := except_bind_eq_ok.mp hread
  obtain ⟨targetId, htargetId, hread⟩ := except_bind_eq_ok.mp hread
  cases hread
  obtain ⟨hnonneg, hlength, hdelta, hroute⟩ := resolveRequest_ok hresolve
  obtain ⟨hindex, hget⟩ := findDelta_ok hdelta
  exact {
    requestId := readUnifiedInteger_ok hrequestId
    episodeIndex := readUnifiedInteger_ok hepisodeIndex
    frameIndex := readUnifiedInteger_ok hframeIndex
    videoKey := ⟨videoKey, readUnifiedText_ok hvideoKey, hroute⟩
    deltaIndex := by
      have hcell := readUnifiedInteger_ok hdeltaIndex
      rw [hcell]
      exact congrArg (fun index => some (InputValue.integer (some index))) hindex.symm
    delta := hget
    targetId := htargetId
    inEpisode := ⟨hnonneg, hlength⟩
    targetFrame := rfl }

end Resolve

end DuckdbLerobot.Video
