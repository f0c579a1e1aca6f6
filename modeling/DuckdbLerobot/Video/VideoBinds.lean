import DuckdbLerobot.Path.CacheKey
import DuckdbLerobot.Storage.MetadataCache
import DuckdbLerobot.Video.WindowQueries

/-!
# The binds of the video functions

Each bind obtains the metadata of the videos by `LerobotVideoMetadata::Get`, and the metadata of the
dataset by a second call. The frame queries come from the second one, and the routes and the lengths
of the episodes from the first one.
-/

set_option autoImplicit false

namespace DuckdbLerobot.Video

open DuckdbLerobot.Library DuckdbLerobot.Path DuckdbLerobot.Storage

/-- A query over the frames of one data file. -/
inductive SourceQuery
  | frames (query : Scan.FrameQuery)
  | window (query : WindowQuery)

/-- `LerobotVideoFramesBindData`. The last field is the metadata that the queries were made from, if
the bind made any. -/
structure LerobotVideoFramesBindData where
  metadata : LerobotVideoMetadata
  routes : List LerobotVideoRoute
  frameQueries : List SourceQuery
  windowMode : Bool
  options : LerobotVideoOptions
  dataset : Option LerobotDatasetMetadata

/-- `LerobotVideoTargetsBindData`. -/
structure LerobotVideoTargetsBindData where
  dataset : LerobotDatasetMetadata
  metadata : LerobotVideoMetadata
  deltas : List LerobotTemporalDelta
  inputColumns : List Nat
  options : LerobotVideoOptions

/-- The root of a call. -/
def getRoot (root : Option Text) (functionName : String) : Except BinderException Text :=
  match root with
  | none => .error ⟨s!"{functionName} root must not be NULL"⟩
  | some root => normalizeLerobotRoot root

/-! ## `lerobot_video_frames` -/

/-- What `LerobotVideoFramesBind` has read before its second call. -/
structure FramesRequest where
  metadata : LerobotVideoMetadata
  episodeIndices : List Int
  routes : List LerobotVideoRoute
  options : LerobotVideoOptions
  frameIndices : Option (List Int)

namespace FramesRequest

/-- Whether the bind makes frame queries. -/
def needsFrames (request : FramesRequest) : Bool :=
  decide (request.episodeIndices ≠ [] ∧ request.routes ≠ [] ∧ request.frameIndices ≠ some [])

/-- The bind data with the queries of a dataset. -/
def bindData (request : FramesRequest) (dataset : Option LerobotDatasetMetadata) :
    LerobotVideoFramesBindData where
  metadata := request.metadata
  routes := request.routes
  frameQueries :=
    match dataset with
    | none => []
    | some dataset =>
        (Scan.frameQueries dataset request.episodeIndices request.frameIndices).map .frames
  windowMode := false
  options := request.options
  dataset := dataset

/-- The part between the two calls. -/
def read (input : NamedParameters) (episodeIndices : List Int) (metadata : LerobotVideoMetadata) :
    Except BinderException FramesRequest := do
  let videoKeys ← getVideoKeys input metadata
  let routes ← metadata.resolveRoutes episodeIndices videoKeys
  let options ← getLerobotVideoOptions input "lerobot_video_frames"
  let frameIndices ← Scan.frameFilterParameter input.frameIndices
  .ok ⟨metadata, episodeIndices, routes, options, frameIndices⟩

theorem metadata_of_read {input : NamedParameters} {episodeIndices : List Int}
    {metadata : LerobotVideoMetadata} {request : FramesRequest}
    (h : read input episodeIndices metadata = .ok request) : request.metadata = metadata := by
  obtain ⟨videoKeys, -, h⟩ := except_bind_eq_ok.mp h
  obtain ⟨routes, -, h⟩ := except_bind_eq_ok.mp h
  obtain ⟨options, -, h⟩ := except_bind_eq_ok.mp h
  obtain ⟨frameIndices, -, h⟩ := except_bind_eq_ok.mp h
  cases h
  rfl

end FramesRequest

/-- The part before the first call: the root, the episodes and `refresh`. -/
def framesParameters (root : Option Text) (requestedEpisodes : Option (List (Option Int)))
    (input : NamedParameters) : Except BinderException (Text × List Int × Bool) := do
  let root ← getRoot root "lerobot_video_frames"
  let episodeIndices ← Scan.getNonNegativeIndices requestedEpisodes "episode_indices"
  let refresh ← getRefreshParameter input "lerobot_video_frames"
  .ok (root, episodeIndices, refresh)

/-- The second call, for a bind that makes frame queries. -/
def secondCall {α : Type} (host : Host) (root : Text) (needed : Bool)
    (finish : Option LerobotDatasetMetadata → α) : Io α :=
  if needed then do
    let dataset ← LerobotDatasetMetadata.get host root false false
    pure (finish (some dataset))
  else pure (finish none)

/-- `LerobotVideoFramesBind`. -/
def lerobotVideoFramesBind (host : Host) (root : Option Text)
    (requestedEpisodes : Option (List (Option Int))) (input : NamedParameters) :
    Io LerobotVideoFramesBindData := do
  let (root, episodeIndices, refresh) ← compute (framesParameters root requestedEpisodes input)
  let metadata ← LerobotVideoMetadata.get host root refresh
  let request ← compute (FramesRequest.read input episodeIndices metadata)
  secondCall host root request.needsFrames request.bindData

/-! ## `lerobot_video_windows` -/

/-- What `LerobotVideoWindowsBind` has read before its second call. -/
structure WindowsRequest where
  metadata : LerobotVideoMetadata
  requests : List LerobotVideoWindowRequest
  routes : List LerobotVideoRoute
  options : LerobotVideoOptions
  deltas : List LerobotTemporalDelta
  summary : EpisodeSummary

namespace WindowsRequest

/-- Whether the bind makes window queries. -/
def needsFrames (request : WindowsRequest) : Bool :=
  decide (request.requests ≠ [] ∧ request.deltas ≠ [] ∧ request.routes ≠ [])

/-- The bind data with the queries of a dataset. -/
def bindData (request : WindowsRequest) (dataset : Option LerobotDatasetMetadata) :
    LerobotVideoFramesBindData where
  metadata := request.metadata
  routes := request.routes
  frameQueries :=
    match dataset with
    | none => []
    | some dataset =>
        (windowQueries dataset request.summary request.requests request.deltas).map .window
  windowMode := true
  options := request.options
  dataset := dataset

/-- The part between the two calls. -/
def read (print : ℚ → String) (input : NamedParameters)
    (requests : List LerobotVideoWindowRequest) (metadata : LerobotVideoMetadata) :
    Except BinderException WindowsRequest := do
  let videoKeys ← getVideoKeys input metadata
  let options ← getLerobotVideoOptions input "lerobot_video_windows"
  let deltas ← getLerobotTemporalDeltas print input metadata.fps options.tolerance
    "lerobot_video_windows"
  checkWindowTargets requests deltas
  let episodeIndices := sortUnique (requests.map LerobotVideoWindowRequest.episodeIndex)
  let routes ← metadata.resolveRoutes episodeIndices videoKeys
  let summary ← routes.foldlM addRouteLength {}
  checkRequests summary videoKeys episodeIndices requests
  .ok ⟨metadata, requests, routes, options, deltas, summary⟩

theorem metadata_of_read {print : ℚ → String} {input : NamedParameters}
    {requests : List LerobotVideoWindowRequest} {metadata : LerobotVideoMetadata}
    {request : WindowsRequest} (h : read print input requests metadata = .ok request) :
    request.metadata = metadata := by
  obtain ⟨videoKeys, -, h⟩ := except_bind_eq_ok.mp h
  obtain ⟨options, -, h⟩ := except_bind_eq_ok.mp h
  obtain ⟨deltas, -, h⟩ := except_bind_eq_ok.mp h
  obtain ⟨-, -, h⟩ := except_bind_eq_ok.mp h
  obtain ⟨routes, -, h⟩ := except_bind_eq_ok.mp h
  obtain ⟨summary, -, h⟩ := except_bind_eq_ok.mp h
  obtain ⟨-, -, h⟩ := except_bind_eq_ok.mp h
  cases h
  rfl

end WindowsRequest

/-- The part before the first call. -/
def windowsParameters (root : Option Text) (requests : Option (List (Option RequestFields)))
    (input : NamedParameters) :
    Except BinderException (Text × List LerobotVideoWindowRequest × Bool) := do
  let root ← getRoot root "lerobot_video_windows"
  let requests ← getVideoWindowRequests requests
  let refresh ← getRefreshParameter input "lerobot_video_windows"
  .ok (root, requests, refresh)

/-- `LerobotVideoWindowsBind`. -/
def lerobotVideoWindowsBind (host : Host) (print : ℚ → String) (root : Option Text)
    (requests : Option (List (Option RequestFields))) (input : NamedParameters) :
    Io LerobotVideoFramesBindData := do
  let (root, requests, refresh) ← compute (windowsParameters root requests input)
  let metadata ← LerobotVideoMetadata.get host root refresh
  let request ← compute (WindowsRequest.read print input requests metadata)
  secondCall host root request.needsFrames request.bindData

/-! ## `lerobot_video_targets` -/

/-- `StringUtil::CIEquals`. -/
def ciEquals (left right : Text) : Bool :=
  decide (left.map Char.toLower = right.map Char.toLower)

/-- `FindTargetInputColumn`. -/
def findTargetInputColumn (inputTableNames : List Text) (name : Text) :
    Except BinderException Nat :=
  match inputTableNames.zipIdx.filter (fun entry => ciEquals entry.1 name) with
  | [(_, column)] => .ok column
  | [] => .error ⟨"lerobot_video_targets input relation requires column " ++
      s!"'{String.ofList name}'"⟩
  | _ => .error ⟨"lerobot_video_targets input relation contains duplicate column " ++
      s!"'{String.ofList name}'"⟩

/-- The columns that every input relation has. -/
def requiredColumns : List Text :=
  ["request_id".toList, "episode_index".toList, "frame_index".toList, "video_key".toList,
    "delta_index".toList]

/-- The optional column `target_id`. -/
def targetIdColumn (inputTableNames : List Text) : Except BinderException (List Nat) :=
  if inputTableNames.length = 6 then
    if inputTableNames.any (ciEquals · "target_id".toList) then do
      let column ← findTargetInputColumn inputTableNames "target_id".toList
      .ok [column]
    else
      .error ⟨"lerobot_video_targets input relation must contain exactly request_id, " ++
        "episode_index, frame_index, video_key, and delta_index, with an optional target_id"⟩
  else .ok []

/-- The part before the first call. The relation has a type for each name. -/
def targetsParameters (root : Option Text) (inputTableNames : List Text) (input : NamedParameters) :
    Except BinderException (List Nat × Text × Bool) := do
  refuse (root = none) "lerobot_video_targets root must not be NULL"
  refuse (inputTableNames.length ≠ 5 ∧ inputTableNames.length ≠ 6) <|
    "lerobot_video_targets input relation must contain exactly request_id, episode_index, " ++
      "frame_index, video_key, and delta_index, with an optional target_id"
  let columns ← requiredColumns.mapM (findTargetInputColumn inputTableNames)
  let targetId ← targetIdColumn inputTableNames
  let root ← getRoot root "lerobot_video_targets"
  let refresh ← getRefreshParameter input "lerobot_video_targets"
  .ok (columns ++ targetId, root, refresh)

/-- The part after the second call. -/
def targetsBindData (print : ℚ → String) (input : NamedParameters) (inputColumns : List Nat)
    (metadata : LerobotVideoMetadata) (dataset : LerobotDatasetMetadata) :
    Except BinderException LerobotVideoTargetsBindData := do
  let options ← getLerobotVideoOptions input "lerobot_video_targets"
  let deltas ← getLerobotTemporalDeltas print input metadata.fps options.tolerance
    "lerobot_video_targets"
  .ok ⟨dataset, metadata, deltas, inputColumns, options⟩

theorem fields_of_targetsBindData {print : ℚ → String} {input : NamedParameters}
    {inputColumns : List Nat} {metadata : LerobotVideoMetadata} {dataset : LerobotDatasetMetadata}
    {data : LerobotVideoTargetsBindData}
    (h : targetsBindData print input inputColumns metadata dataset = .ok data) :
    data.metadata = metadata ∧ data.dataset = dataset := by
  obtain ⟨options, -, h⟩ := except_bind_eq_ok.mp h
  obtain ⟨deltas, -, h⟩ := except_bind_eq_ok.mp h
  cases h
  exact ⟨rfl, rfl⟩

/-- `LerobotVideoTargetsBind`. -/
def lerobotVideoTargetsBind (host : Host) (print : ℚ → String) (root : Option Text)
    (inputTableNames : List Text) (input : NamedParameters) : Io LerobotVideoTargetsBindData := do
  let (inputColumns, root, refresh) ← compute (targetsParameters root inputTableNames input)
  let metadata ← LerobotVideoMetadata.get host root refresh
  let dataset ← LerobotDatasetMetadata.get host root false false
  compute (targetsBindData print input inputColumns metadata dataset)

end DuckdbLerobot.Video
