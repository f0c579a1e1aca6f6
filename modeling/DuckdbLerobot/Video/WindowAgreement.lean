import DuckdbLerobot.Video.SourceScan
import DuckdbLerobot.Video.TargetOrdinals
import DuckdbLerobot.Video.WindowRequests

/-!
# Windows and targets

`lerobot_video_windows` joins its requests to the data files by queries, and its producers make the targets of the rows.
`lerobot_video_targets` looks each frame up and gets the cross product of the requests, deltas and keys as its input.
For one version of a dataset the two have the same errors, and every run of both to the end has the same rows
(`windows_targets_agree`).
-/

set_option autoImplicit false

namespace DuckdbLerobot.Video

open DuckdbLerobot.Library DuckdbLerobot.Path DuckdbLerobot.Storage

/-! ## What both functions show -/

/-- The columns that both functions have. -/
def sharedColumns : List (WindowColumn × TargetColumn) :=
  [(.requestId, .requestId), (.deltaOrdinal, .deltaIndex), (.deltaTimestamp, .deltaTimestamp),
    (.deltaFrameOffset, .deltaFrameOffset), (.isPadding, .isPadding), (.episodeIndex, .episodeIndex),
    (.frameIndex, .frameIndex), (.targetFrameIndex, .frameIndexResolved), (.timestamp, .timestamp),
    (.videoKey, .videoKey), (.videoPath, .videoPath), (.videoTimestamp, .videoTimestamp)]

/-- The values of a row of `lerobot_video_windows` in these columns. -/
def windowValues (metadata : LerobotVideoMetadata) (options : LerobotVideoOptions) (row : OutputRow) :
    List (Option OutputValue) :=
  sharedColumns.map fun columns => writeWindowColumn metadata options row columns.1

/-- The values of a row of `lerobot_video_targets` in these columns. -/
def targetValues (metadata : LerobotVideoMetadata) (options : LerobotVideoOptions) (row : OutputRow) :
    List (Option OutputValue) :=
  sharedColumns.map fun columns => writeTargetRelationColumn metadata options row columns.2

/-- The values of a target and its route. -/
def sharedValues (metadata : LerobotVideoMetadata) (route : LerobotVideoRoute) (target : LerobotDecodeTarget) :
    List (Option OutputValue) :=
  [some (.bigint target.requestId), some (.bigint target.deltaOrdinal), some (.double target.deltaTimestamp),
    some (.bigint target.deltaFrameOffset), some (.boolean target.isPadding), some (.bigint target.episodeIndex),
    some (.bigint target.frameIndex), some (.bigint target.targetFrameIndex), some (.double target.frameTimestamp),
    some (.varchar (metadata.getVideoKey route)), some (.varchar (metadata.getVideoFile route)),
    some (.double target.videoTimestamp)]

theorem windowValues_eq (metadata : LerobotVideoMetadata) (options : LerobotVideoOptions) (row : OutputRow) :
    windowValues metadata options row = sharedValues metadata row.route row.target := rfl

theorem targetValues_eq (metadata : LerobotVideoMetadata) (options : LerobotVideoOptions) (row : OutputRow) :
    targetValues metadata options row = sharedValues metadata row.route row.target := rfl

/-! ## What is asked for -/

/-- The timestamp of one row, if it is valid. -/
def oneTimestamp? : List (Option Double) → Option ℚ
  | [some timestamp] => timestamp.nonnegative?
  | _ => none

theorem oneTimestamp?_eq_some {timestamps : List (Option Double)} {timestamp : ℚ} :
    oneTimestamp? timestamps = some timestamp ↔ OneTimestamp timestamps timestamp := by
  constructor
  · intro h
    unfold oneTimestamp? at h
    split at h
    · obtain ⟨rfl, hle⟩ := nonnegative?_eq_some.mp h
      exact ⟨rfl, hle⟩
    · cases h
  · rintro ⟨rfl, hle⟩
    exact nonnegative?_eq_some.mpr ⟨rfl, hle⟩

/-- The target of a request, with its timestamps. -/
def answeredTarget (request : TargetRequest) (route : LerobotVideoRoute) (delta : LerobotTemporalDelta)
    (timestamp videoTimestamp : ℚ) : LerobotDecodeTarget :=
  { rowTarget request route delta 0 0 with frameTimestamp := timestamp, videoTimestamp := videoTimestamp }

/-- The values that a request has in the shared columns. It has none if its frame has not one row with a valid timestamp
in the data file of its episode. -/
def requestValues (data : LerobotVideoTargetsBindData) (frames : Text → List (FrameRow Double)) (request : TargetRequest) :
    Option (List (Option OutputValue)) := do
  let route ← data.metadata.findRoute request.episodeIndex request.videoKey
  let delta ← findDelta data request.deltaIndex
  let timestamp ← oneTimestamp? (matchingTimestamps (requestKey request route delta)
    (frames (episodeFile data.dataset request.episodeIndex)))
  let videoTimestamp ← videoTimestamp? data.options.tolerance route timestamp
  some (sharedValues data.metadata route (answeredTarget request route delta timestamp videoTimestamp))

/-- What is asked for by a request, a delta and a key. -/
def cellRequest (request : LerobotVideoWindowRequest) (deltaIndex : Nat) (videoKey : Text) : TargetRequest where
  requestId := request.requestId
  episodeIndex := request.episodeIndex
  frameIndex := request.frameIndex
  videoKey := videoKey
  deltaIndex := deltaIndex
  targetId := 0

/-- The cross product of the requests, the deltas and the keys. -/
def crossProduct (windows : WindowsRequest) (videoKeys : List Text) : List TargetRequest :=
  windows.requests.flatMap fun request => windows.deltas.zipIdx.flatMap fun entry =>
    videoKeys.map (cellRequest request entry.2)

/-- An input row of `lerobot_video_targets` asks for this, with any `target_id`. -/
def AsksFor (data : LerobotVideoTargetsBindData) (request : TargetRequest) (row : InputRow) : Prop :=
  ∃ targetId, readRow data row = .ok { request with targetId := targetId }

/-- Both functions are called for one dataset, with the same deltas and the same tolerance. -/
structure SameCall (windows : WindowsRequest) (data : LerobotVideoTargetsBindData) : Prop where
  metadata : windows.metadata = data.metadata
  deltas : windows.deltas = data.deltas
  tolerance : windows.options.tolerance = data.options.tolerance

/-- The rows of an episode are in the data file that the episode is routed to. -/
def RowsInPlace (dataset : LerobotDatasetMetadata) (frames : Text → List (FrameRow Double)) : Prop :=
  ∀ file, ∀ row ∈ frames file, ∀ episodeIndex ∈ row.episodeIndex,
    ∀ route ∈ dataset.findEpisodeRoute episodeIndex, dataset.dataFile route = file

/-! ## Windows -/

/-- The target of a requested frame, with its timestamps and the position of its route. -/
def RequestedTarget.decodeTarget (requested : RequestedTarget) (timestamp videoTimestamp : ℚ) (routeIndex : Nat) :
    LerobotDecodeTarget where
  requestId := requested.requestId
  requestOrdinal := requested.requestOrdinal
  deltaOrdinal := requested.deltaOrdinal
  deltaTimestamp := requested.deltaTimestamp
  deltaFrameOffset := requested.deltaFrameOffset
  isPadding := requested.isPadding
  episodeIndex := requested.episodeIndex
  frameIndex := requested.frameIndex
  targetFrameIndex := requested.targetFrameIndex
  frameTimestamp := timestamp
  videoTimestamp := videoTimestamp
  routeIndex := routeIndex

section Windows

variable {printSeconds : Double → String} {data : LerobotVideoTargetsBindData} {windows : WindowsRequest}
  {videoKeys : List Text} {dataset : Option LerobotDatasetMetadata} {request : LerobotVideoWindowRequest}
  {delta : LerobotTemporalDelta} {deltaIndex : Nat} {frames : Text → List (FrameRow Double)}

/-- The target of a requested frame and a route. -/
theorem alignedTarget_requested {bindData : LerobotVideoFramesBindData} {requested : RequestedTarget} {timestamp : ℚ}
    {entry : LerobotVideoRoute × Nat} {target : LerobotDecodeTarget} :
    alignedTarget printSeconds bindData (requested.alignment (.finite timestamp)) timestamp requested.deltaTimestamp
        entry = .ok target ↔
      ∃ videoTimestamp, videoTimestamp? bindData.options.tolerance entry.1 timestamp = some videoTimestamp ∧
        requested.decodeTarget timestamp videoTimestamp entry.2 = target :=
  alignedTarget_eq_ok

/-- The values of a request for a route of its episode. -/
theorem requestValues_route (hread : WindowsRead windows videoKeys) (hversion : LoadedVersion data.dataset data.metadata)
    (hcall : SameCall windows data) (hdelta : data.deltas[deltaIndex]? = some delta) {route : LerobotVideoRoute}
    (hroute : route ∈ routesOf windows.routes request.episodeIndex) {values : List (Option OutputValue)} :
    requestValues data frames (cellRequest request deltaIndex (data.metadata.getVideoKey route)) = some values ↔
      ∃ timestamp videoTimestamp, OneTimestamp (matchingTimestamps
          (requestedTarget (windows.summary.length request.episodeIndex) request delta deltaIndex).key
          (frames (episodeFile data.dataset request.episodeIndex))) timestamp ∧
        videoTimestamp? windows.options.tolerance route timestamp = some videoTimestamp ∧
        ∀ routeIndex, sharedValues data.metadata route
          ((requestedTarget (windows.summary.length request.episodeIndex) request delta deltaIndex).decodeTarget timestamp
            videoTimestamp routeIndex) = values := by
  obtain ⟨hmem, -, hepisode⟩ := hread.mem_routesOf hroute
  rw [hcall.metadata] at hmem
  have hfind : data.metadata.findRoute request.episodeIndex (data.metadata.getVideoKey route) = some route := by
    rw [← hepisode]
    exact findRoute_of_mem hversion hmem
  have hdelta' : findDelta data (deltaIndex : Int) = some delta := by
    rw [findDelta, if_neg (not_lt.mpr (Int.natCast_nonneg _)), Int.toNat_natCast, hdelta]
  have hkey : requestKey (cellRequest request deltaIndex (data.metadata.getVideoKey route)) route delta =
      (requestedTarget route.episodeLength request delta deltaIndex).key := rfl
  rw [hread.length_eq hroute, hcall.tolerance]
  simp only [requestValues, Option.bind_eq_bind, Option.bind_eq_some_iff]
  constructor
  · rintro ⟨route', hroute', delta', hdelta'', timestamp, hone, videoTimestamp, hvideo, hvalues⟩
    cases hfind.symm.trans hroute'
    cases hdelta'.symm.trans hdelta''
    exact ⟨timestamp, videoTimestamp, oneTimestamp?_eq_some.mp hone, hvideo, fun _ => Option.some.inj hvalues⟩
  · rintro ⟨timestamp, videoTimestamp, hone, hvideo, hvalues⟩
    exact ⟨route, hfind, delta, hdelta', timestamp, oneTimestamp?_eq_some.mpr hone, videoTimestamp, hvideo,
      congrArg some (hvalues 0)⟩

/-- What is asked for by one request and one delta, for each requested key. -/
def cellValues (data : LerobotVideoTargetsBindData) (frames : Text → List (FrameRow Double)) (videoKeys : List Text)
    (request : LerobotVideoWindowRequest) (deltaIndex : Nat) : List (Option (List (Option OutputValue))) :=
  videoKeys.map fun videoKey => requestValues data frames (cellRequest request deltaIndex videoKey)

/-- The values of a request have the routes of its episode as their keys. -/
theorem cellValues_perm (frames : Text → List (FrameRow Double)) (deltaIndex : Nat)
    (hread : WindowsRead windows videoKeys) (hversion : LoadedVersion data.dataset data.metadata)
    (hcall : SameCall windows data) (hkeys : videoKeys ≠ []) (hrequest : request ∈ windows.requests) :
    ((routesOf windows.routes request.episodeIndex).map fun route =>
        requestValues data frames (cellRequest request deltaIndex (data.metadata.getVideoKey route))).Perm
      (cellValues data frames videoKeys request deltaIndex) := by
  have hperm := hread.keys_perm (hcall.metadata.symm ▸ hversion) hkeys hrequest
  rw [hcall.metadata] at hperm
  have hmap := hperm.map fun videoKey => requestValues data frames (cellRequest request deltaIndex videoKey)
  rw [List.map_map] at hmap
  exact hmap

/-- The shared values of a target of a window bind. -/
def windowTargetValues (windows : WindowsRequest) (target : LerobotDecodeTarget) : List (Option OutputValue) :=
  sharedValues windows.metadata (windows.routes.getD target.routeIndex default) target

section Cell

variable (hread : WindowsRead windows videoKeys) (hversion : LoadedVersion data.dataset data.metadata)
  (hcall : SameCall windows data) (hkeys : videoKeys ≠ []) (hrequests : RequestsValid 0 windows.requests)
  (hrequest : request ∈ windows.requests) (hdelta : data.deltas[deltaIndex]? = some delta)

include hread hversion hcall hkeys hrequest in
/-- An episode that is asked for has a route. -/
theorem exists_routesByEpisode :
    ∃ entry, entry ∈ routesByEpisode windows.routes request.episodeIndex := by
  have hlength := (hread.keys_perm (hcall.metadata.symm ▸ hversion) hkeys hrequest).length_eq
  rw [← map_routesByEpisode, List.length_map, List.length_map] at hlength
  have hpos := List.length_pos_iff.mpr hkeys
  exact List.exists_mem_of_length_pos (hlength ▸ hpos)

include hread hkeys hrequests hrequest in
/-- A requested frame is in its episode. -/
theorem requestedTarget_inEpisode :
    (requestedTarget (windows.summary.length request.episodeIndex) request delta deltaIndex).InEpisode := by
  obtain ⟨hepisode, hframe⟩ := hrequests.nonnegative request hrequest
  have hlength := hread.inEpisode hkeys request hrequest
  refine ⟨hepisode, hframe, ?_⟩
  change 0 ≤ (clampTarget delta.frameOffset request.frameIndex (windows.summary.length request.episodeIndex - 1)).1
  rw [clampTarget]
  split
  · exact le_refl 0
  · split
    · change 0 ≤ windows.summary.length request.episodeIndex - 1
      omega
    · change 0 ≤ request.frameIndex + delta.frameOffset
      omega

include hread hversion hcall hkeys hrequests hrequest hdelta in
/-- **The rows of a request and a delta are built exactly if all keys have values.** -/
theorem cell_built :
    (∀ row ∈ (requestedTarget (windows.summary.length request.episodeIndex) request delta deltaIndex).rows
        (frames (episodeFile data.dataset request.episodeIndex)),
      ∃ targets, buildTargets printSeconds (windows.bindData dataset) row = .ok targets) ↔
      ∀ values ∈ cellValues data frames videoKeys request deltaIndex, values.isSome := by
  have hperm := cellValues_perm frames deltaIndex hread hversion hcall hkeys hrequest
  rw [rows_built (requestedTarget_inEpisode hread hkeys hrequests hrequest)]
  constructor
  · rintro ⟨timestamp, targets, hone, hmap⟩ values hvalues
    obtain ⟨route, hroute, rfl⟩ := List.mem_map.mp (hperm.mem_iff.mpr hvalues)
    have hroute' := hroute
    rw [← map_routesByEpisode] at hroute'
    obtain ⟨entry, hentry, rfl⟩ := List.mem_map.mp hroute'
    obtain ⟨target, -, htarget⟩ := exists_right_of_forall₂ (mapM_eq_ok.mp hmap) hentry
    obtain ⟨videoTimestamp, hvideo, -⟩ := alignedTarget_requested.mp htarget
    rw [Option.isSome_iff_exists]
    exact ⟨sharedValues data.metadata entry.1 (RequestedTarget.decodeTarget _ timestamp videoTimestamp 0),
      (requestValues_route hread hversion hcall hdelta hroute).mpr
        ⟨timestamp, videoTimestamp, hone, hvideo, fun _ => rfl⟩⟩
  · intro hvalues
    have hsome : ∀ route ∈ routesOf windows.routes request.episodeIndex, ∃ values,
        requestValues data frames (cellRequest request deltaIndex (data.metadata.getVideoKey route)) = some values :=
      fun route hroute => Option.isSome_iff_exists.mp (hvalues _ (hperm.mem_iff.mp (List.mem_map_of_mem hroute)))
    -- the timestamp is that of one route; the other routes have the same frame
    obtain ⟨first, hfirst⟩ := exists_routesByEpisode hread hversion hcall hkeys hrequest
    obtain ⟨_, hfirst⟩ := hsome _ (mem_routesByEpisode hfirst).2
    have hroutes := (mem_routesByEpisode ‹first ∈ _›).2
    obtain ⟨timestamp, _, hone, -⟩ := (requestValues_route hread hversion hcall hdelta hroutes).mp hfirst
    have htotal := mapM_total (f := alignedTarget printSeconds (windows.bindData dataset)
      ((requestedTarget (windows.summary.length request.episodeIndex) request delta deltaIndex).alignment
        (.finite timestamp)) timestamp delta.timestamp) (l := routesByEpisode windows.routes request.episodeIndex) (by
      intro entry hentry
      have hroute := (mem_routesByEpisode hentry).2
      obtain ⟨_, hentrySome⟩ := hsome _ hroute
      obtain ⟨timestamp', videoTimestamp, hone', hvideo, -⟩ :=
        (requestValues_route hread hversion hcall hdelta hroute).mp hentrySome
      cases hone.unique hone'
      exact ⟨_, alignedTarget_requested.mpr ⟨videoTimestamp, hvideo, rfl⟩⟩)
    obtain ⟨targets, htargets⟩ := htotal
    exact ⟨timestamp, targets, hone, htargets⟩

include hread hversion hcall hkeys hrequests hrequest hdelta in
/-- **The targets of a request and a delta have the values of its keys.** -/
theorem cell_values (hbuilt : ∀ row ∈
      (requestedTarget (windows.summary.length request.episodeIndex) request delta deltaIndex).rows
        (frames (episodeFile data.dataset request.episodeIndex)),
      ∃ targets, buildTargets printSeconds (windows.bindData dataset) row = .ok targets) :
    ((((requestedTarget (windows.summary.length request.episodeIndex) request delta deltaIndex).rows
        (frames (episodeFile data.dataset request.episodeIndex))).flatMap
          (rowTargets printSeconds (windows.bindData dataset))).map fun target =>
            some (windowTargetValues windows target)).Perm (cellValues data frames videoKeys request deltaIndex) := by
  have hepisode : (requestedTarget (windows.summary.length request.episodeIndex) request delta deltaIndex).InEpisode :=
    requestedTarget_inEpisode hread hkeys hrequests hrequest
  obtain ⟨timestamp, targets, hone, hmap⟩ := (rows_built hepisode).mp hbuilt
  obtain ⟨frame, hrows, htimestamp⟩ := rows_of_oneTimestamp hone
  have htimestamp' : (some frame).bind FrameRow.timestamp = some (.finite timestamp) := htimestamp
  have hof : rowTargets printSeconds (windows.bindData dataset) (.window
      ((requestedTarget (windows.summary.length request.episodeIndex) request delta deltaIndex).windowRow
        (some frame) 1)) = targets := by
    rw [rowTargets, (buildTargets_window hepisode).mpr ⟨rfl, timestamp, htimestamp', hone.2, hmap⟩]
    rfl
  rw [hrows, List.flatMap_singleton, hof]
  -- in the order of the routes first, and then in that of the keys
  refine List.Perm.trans (List.Perm.of_eq ?_)
    (cellValues_perm frames deltaIndex hread hversion hcall hkeys hrequest)
  rw [← map_routesByEpisode, List.map_map]
  apply Eq.symm
  rw [← List.forall₂_eq_eq_eq, List.forall₂_map_left_iff, List.forall₂_map_right_iff]
  have hforall := (List.forall₂_and_left _ _).mpr ⟨fun entry hentry => hentry, mapM_eq_ok.mp hmap⟩
  refine hforall.imp ?_
  rintro entry target ⟨hentry, htarget⟩
  have hroute := (mem_routesByEpisode hentry).2
  obtain ⟨videoTimestamp, hvideo, rfl⟩ := alignedTarget_requested.mp htarget
  rw [Function.comp_apply, windowTargetValues, hcall.metadata]
  refine (requestValues_route hread hversion hcall hdelta hroute).mpr
    ⟨timestamp, videoTimestamp, hone, hvideo, fun routeIndex => ?_⟩
  have hget : windows.routes.getD entry.2 default = entry.1 := getD_of_mem_routesByEpisode hentry
  change sharedValues data.metadata entry.1 _ = sharedValues data.metadata (windows.routes.getD entry.2 default) _
  rw [hget]
  rfl

end Cell

/-! ## The scan of a window bind -/

section Scan

variable (hread : WindowsRead windows videoKeys) (hversion : LoadedVersion data.dataset data.metadata)
  (hcall : SameCall windows data) (hkeys : videoKeys ≠ []) (hrequests : RequestsValid 0 windows.requests)

theorem crossProduct_values (frames : Text → List (FrameRow Double)) :
    (crossProduct windows videoKeys).map (requestValues data frames) = windows.requests.flatMap fun request =>
      windows.deltas.zipIdx.flatMap fun entry => cellValues data frames videoKeys request entry.2 := by
  rw [crossProduct, List.map_flatMap]
  apply List.flatMap_congr
  intro request _
  rw [List.map_flatMap]
  apply List.flatMap_congr
  intro entry _
  rw [List.map_map]
  rfl

include hcall in
theorem delta_of_mem {entry : LerobotTemporalDelta × Nat} (h : entry ∈ windows.deltas.zipIdx) :
    data.deltas[entry.2]? = some entry.1 := by
  rw [← hcall.deltas]
  exact List.mem_zipIdx_iff_getElem?.mp h

include hread hversion hcall hkeys hrequests in
/-- The rows of all requests are built exactly if everything that is asked for has values. -/
theorem requests_built :
    (∀ row ∈ windows.requests.flatMap (requestRows frames data.dataset windows),
      ∃ targets, buildTargets printSeconds (windows.bindData dataset) row = .ok targets) ↔
      ∀ cell ∈ crossProduct windows videoKeys, (requestValues data frames cell).isSome := by
  have hcross : (∀ cell ∈ crossProduct windows videoKeys, (requestValues data frames cell).isSome) ↔
      ∀ request ∈ windows.requests, ∀ entry ∈ windows.deltas.zipIdx,
        ∀ values ∈ cellValues data frames videoKeys request entry.2, values.isSome := by
    rw [← List.forall_mem_map (f := requestValues data frames) (P := fun values => values.isSome = true),
      crossProduct_values]
    simp only [List.forall_mem_flatMap]
  rw [hcross, List.forall_mem_flatMap]
  refine forall₂_congr fun request hrequest => ?_
  rw [requestRows, List.forall_mem_flatMap]
  exact forall₂_congr fun entry hentry =>
    cell_built hread hversion hcall hkeys hrequests hrequest (delta_of_mem hcall hentry)

include hread hversion hcall hkeys hrequests in
/-- The targets of all requests have the values of everything that is asked for. -/
theorem requests_values (hbuilt : ∀ row ∈ windows.requests.flatMap (requestRows frames data.dataset windows),
      ∃ targets, buildTargets printSeconds (windows.bindData dataset) row = .ok targets) :
    (((windows.requests.flatMap (requestRows frames data.dataset windows)).flatMap
        (rowTargets printSeconds (windows.bindData dataset))).map fun target =>
          some (windowTargetValues windows target)).Perm
      ((crossProduct windows videoKeys).map (requestValues data frames)) := by
  rw [crossProduct_values, List.flatMap_assoc, List.map_flatMap]
  refine List.Perm.flatMap_left _ fun request hrequest => ?_
  rw [requestRows, List.flatMap_assoc, List.map_flatMap]
  refine List.Perm.flatMap_left _ fun entry hentry => ?_
  refine cell_values hread hversion hcall hkeys hrequests hrequest (delta_of_mem hcall hentry) ?_
  intro row hrow
  exact hbuilt row (List.mem_flatMap.mpr ⟨request, hrequest, List.mem_flatMap.mpr ⟨entry, hentry, hrow⟩⟩)

end Scan

/-! ## Both scans -/

/-- The dataset that a window bind reads in its second call. -/
def WindowsRequest.queryDataset (windows : WindowsRequest) (metadata : LerobotDatasetMetadata) :
    Option LerobotDatasetMetadata :=
  if windows.needsFrames then some metadata else none

/-- A bind without queries asks for nothing. -/
theorem crossProduct_eq_nil (hread : WindowsRead windows videoKeys)
    (hversion : LoadedVersion data.dataset data.metadata) (hcall : SameCall windows data)
    (hneeds : windows.needsFrames = false) : crossProduct windows videoKeys = [] := by
  rw [List.eq_nil_iff_forall_not_mem]
  intro cell hcell
  obtain ⟨request, hrequest, hcell⟩ := List.mem_flatMap.mp hcell
  obtain ⟨entry, hentry, hcell⟩ := List.mem_flatMap.mp hcell
  obtain ⟨videoKey, hkey, -⟩ := List.mem_map.mp hcell
  obtain ⟨route, hroute⟩ := exists_routesByEpisode hread hversion hcall (List.ne_nil_of_mem hkey) hrequest
  refine (of_decide_eq_false hneeds) ⟨List.ne_nil_of_mem hrequest, ?_, ?_⟩
  · intro hnil
    rw [hnil] at hentry
    cases hentry
  · exact List.ne_nil_of_mem (List.mem_of_getElem? (mem_routesByEpisode hroute).1)

/-- A bind with queries has keys. -/
theorem videoKeys_ne_nil (hread : WindowsRead windows videoKeys) (hneeds : windows.needsFrames = true) :
    videoKeys ≠ [] := by
  obtain ⟨-, -, hroutes⟩ := of_decide_eq_true hneeds
  obtain ⟨route, hroute⟩ := List.exists_mem_of_ne_nil _ hroutes
  exact List.ne_nil_of_mem ((hread.routes route).mp hroute).2.2

/-- **The rows of a window scan.** They are built exactly if everything that is asked for has values, and then their
targets have these values. -/
theorem windowScan_values (hread : WindowsRead windows videoKeys)
    (hversion : LoadedVersion data.dataset data.metadata) (hcall : SameCall windows data)
    (hrequests : RequestsValid 0 windows.requests)
    {scan : VideoScan SourceRow LerobotDecodeTarget InvalidInputException}
    (hscan : ScanOf scan printSeconds (windows.bindData (windows.queryDataset data.dataset)) frames) :
    ((∀ row ∈ scan.sourceRows, ∃ targets, scan.buildTargets row = .ok targets) ↔
      ∀ cell ∈ crossProduct windows videoKeys, (requestValues data frames cell).isSome) ∧
    ((∀ row ∈ scan.sourceRows, ∃ targets, scan.buildTargets row = .ok targets) →
      scan.sourceTargets.map (fun target => some (windowTargetValues windows target)) =
        ((crossProduct windows videoKeys).map (requestValues data frames) : List (Option (List (Option OutputValue))))) := by
  have hrows := hscan.sourceRows
  rw [hscan.build]
  cases hneeds : windows.needsFrames with
  | false =>
      -- the bind has no queries, and nothing is asked for
      rw [WindowsRequest.queryDataset, if_neg (Bool.eq_false_iff.mp hneeds)] at hrows
      have hempty : scan.sourceRows = (([] : List SourceRow) : Multiset SourceRow) := hrows
      rw [crossProduct_eq_nil hread hversion hcall hneeds, hscan.sourceTargets hempty, hempty]
      exact ⟨⟨fun _ _ h => absurd h List.not_mem_nil, fun _ _ h => absurd h List.not_mem_nil⟩, fun _ => rfl⟩
  | true =>
      have hkeys := videoKeys_ne_nil hread hneeds
      have hversion' : LoadedVersion data.dataset windows.metadata := hcall.metadata.symm ▸ hversion
      rw [WindowsRequest.queryDataset, if_pos hneeds] at hrows
      have hqueries : scan.sourceRows =
          (windows.requests.flatMap (requestRows frames data.dataset windows) : List SourceRow) := by
        rw [hrows]
        apply Multiset.coe_eq_coe.mpr
        rw [WindowsRequest.bindData, List.flatMap_map]
        exact windowQueries_rows hread hversion' hkeys hrequests
      rw [hscan.sourceTargets hqueries, hqueries]
      simp only [Multiset.mem_coe, Multiset.map_coe]
      refine ⟨requests_built hread hversion hcall hkeys hrequests, fun hbuilt => ?_⟩
      exact Multiset.coe_eq_coe.mpr (requests_values hread hversion hcall hkeys hrequests hbuilt)

end Windows

/-! ## Targets -/

section Targets

variable {data : LerobotVideoTargetsBindData} {frames : Text → List (FrameRow Double)} {row : InputRow}
  {request : TargetRequest}

/-- A frame has rows in no other file. -/
theorem RowsInPlace.elsewhere (hplace : RowsInPlace data.dataset frames) {episodeRoute : LerobotEpisodeRoute}
    (hroute : data.dataset.findEpisodeRoute request.episodeIndex = some episodeRoute) {file : Text}
    (hfile : file ≠ data.dataset.dataFile episodeRoute) (route : LerobotVideoRoute) (delta : LerobotTemporalDelta) :
    matchingTimestamps (requestKey request route delta) (frames file) = [] := by
  rw [matchingTimestamps, List.map_eq_nil_iff, List.filter_eq_nil_iff]
  intro frame hframe hjoins
  rw [FrameRow.joins, Bool.and_eq_true, beq_iff_eq, beq_iff_eq] at hjoins
  exact hfile (hplace file frame hframe request.episodeIndex hjoins.1 episodeRoute hroute).symm

/-- A frame that has one row in some files has it in the data file of its episode. -/
theorem RowsInPlace.oneTimestamp (hplace : RowsInPlace data.dataset frames) {episodeRoute : LerobotEpisodeRoute}
    (hroute : data.dataset.findEpisodeRoute request.episodeIndex = some episodeRoute) {files : List Text}
    {route : LerobotVideoRoute} {delta : LerobotTemporalDelta} {timestamp : ℚ}
    (hone : OneTimestamp (matchingTimestamps (requestKey request route delta) (rowsOf frames files)) timestamp) :
    OneTimestamp (matchingTimestamps (requestKey request route delta)
      (frames (data.dataset.dataFile episodeRoute))) timestamp := by
  refine ⟨?_, hone.2⟩
  have hparts : matchingTimestamps (requestKey request route delta) (rowsOf frames files) =
      files.flatMap fun file => matchingTimestamps (requestKey request route delta) (frames file) := by
    rw [matchingTimestamps, rowsOf, List.filter_flatMap, List.map_flatMap]
    rfl
  have hsingle := hparts.symm.trans hone.1
  obtain ⟨file, hfile, hmem⟩ := List.mem_flatMap.mp (hsingle ▸ List.mem_singleton_self _)
  have hown : file = data.dataset.dataFile episodeRoute := by
    by_contra hne
    rw [hplace.elsewhere hroute hne] at hmem
    cases hmem
  rw [← hown]
  -- what the file has is a part of the one timestamp
  have hsublist := List.sublist_flatten_of_mem (List.mem_map_of_mem (f := fun file =>
    matchingTimestamps (requestKey request route delta) (frames file)) hfile)
  rw [← List.flatMap_def, hsingle] at hsublist
  rcases List.sublist_singleton.mp hsublist with hnil | hself
  · rw [hnil] at hmem
    cases hmem
  · exact hself

/-- The checks of a row accept a frame of an episode. -/
theorem resolveRequest_accepts {route : LerobotVideoRoute} {delta : LerobotTemporalDelta}
    (hepisode : 0 ≤ request.episodeIndex) (hframe : 0 ≤ request.frameIndex)
    (hdelta : findDelta data request.deltaIndex = some delta) (hkey : request.videoKey ≠ [])
    (hroute : data.metadata.findRoute request.episodeIndex request.videoKey = some route)
    (hlength : request.frameIndex < route.episodeLength) : resolveRequest data request = .ok (route, delta) := by
  rw [resolveRequest, if_neg (not_or.mpr ⟨not_lt.mpr hepisode, not_lt.mpr hframe⟩), hdelta]
  dsimp only
  rw [if_neg hkey, hroute]
  dsimp only
  rw [if_neg (not_le.mpr hlength)]

/-- What the values of a request say. -/
theorem requestValues_eq_some {values : List (Option OutputValue)} :
    requestValues data frames request = some values ↔
      ∃ route delta timestamp videoTimestamp,
        data.metadata.findRoute request.episodeIndex request.videoKey = some route ∧
        findDelta data request.deltaIndex = some delta ∧
        OneTimestamp (matchingTimestamps (requestKey request route delta)
          (frames (episodeFile data.dataset request.episodeIndex))) timestamp ∧
        videoTimestamp? data.options.tolerance route timestamp = some videoTimestamp ∧
        sharedValues data.metadata route (answeredTarget request route delta timestamp videoTimestamp) = values := by
  simp only [requestValues, Option.bind_eq_bind, Option.bind_eq_some_iff, oneTimestamp?_eq_some, Option.some.injEq]
  constructor
  · rintro ⟨route, hroute, delta, hdelta, timestamp, hone, videoTimestamp, hvideo, hvalues⟩
    exact ⟨route, delta, timestamp, videoTimestamp, hroute, hdelta, hone, hvideo, hvalues⟩
  · rintro ⟨route, delta, timestamp, videoTimestamp, hroute, hdelta, hone, hvideo, hvalues⟩
    exact ⟨route, hroute, delta, hdelta, timestamp, hone, videoTimestamp, hvideo, hvalues⟩

/-- **The answer of an input row has the values that are asked for.** -/
theorem requestValues_of_answer (hplace : RowsInPlace data.dataset frames) (hasks : AsksFor data request row)
    {episodeRoute : LerobotEpisodeRoute}
    (hroute : data.dataset.findEpisodeRoute request.episodeIndex = some episodeRoute) {files : List Text}
    {route : LerobotVideoRoute} {target : LerobotDecodeTarget} (hanswer : RowAnswered data frames files row route target) :
    requestValues data frames request = some (sharedValues data.metadata route target) := by
  obtain ⟨targetId, hread⟩ := hasks
  have hresolved := hanswer.toRowResolved
  simp only [readRow, except_bind_eq_ok] at hread
  obtain ⟨requestId, hrequestId, episodeIndex, hepisodeIndex, frameIndex, hframeIndex, videoKey, hvideoKey, deltaIndex,
    hdeltaIndex, _, -, hread⟩ := hread
  have hfile : episodeFile data.dataset request.episodeIndex = data.dataset.dataFile episodeRoute := by
    rw [episodeFile, hroute]
    rfl
  obtain ⟨videoKey', hvideoKey', hfind⟩ := hresolved.videoKey
  -- the cells of the row are those of the request and of the target
  have hids := (readUnifiedInteger_ok hrequestId).symm.trans hresolved.requestId
  have hepisodes := (readUnifiedInteger_ok hepisodeIndex).symm.trans hresolved.episodeIndex
  have hframes := (readUnifiedInteger_ok hframeIndex).symm.trans hresolved.frameIndex
  have hdeltas := (readUnifiedInteger_ok hdeltaIndex).symm.trans hresolved.deltaIndex
  have hvideoKeys := (readUnifiedText_ok hvideoKey).symm.trans hvideoKey'
  cases request
  cases hread
  cases hids
  cases hepisodes
  cases hframes
  cases hdeltas
  cases hvideoKeys
  have hdelta : findDelta data (target.deltaOrdinal : Int) = some ⟨target.deltaTimestamp, target.deltaFrameOffset⟩ := by
    rw [findDelta, if_neg (not_lt.mpr (Int.natCast_nonneg _)), Int.toNat_natCast, hresolved.delta]
  rw [requestValues_eq_some]
  have hclamp := hresolved.targetFrame
  refine ⟨route, _, target.frameTimestamp, target.videoTimestamp, hfind, hdelta, ?_, hanswer.videoTimestamp, ?_⟩
  · rw [hfile]
    have hone := hanswer.timestamp
    have hkey : targetKey target = toLex (target.episodeIndex,
        (clampTarget target.deltaFrameOffset target.frameIndex (route.episodeLength - 1)).1) := by
      rw [hclamp]
      rfl
    rw [hkey] at hone
    exact hplace.oneTimestamp hroute hone
  · dsimp only [answeredTarget, rowTarget, sharedValues]
    rw [hclamp]
    rfl

end Targets

/-! ## Agreement -/

section Agreement

variable {printSeconds : Double → String} {data : LerobotVideoTargetsBindData} {windows : WindowsRequest}
  {videoKeys : List Text} {frames : Text → List (FrameRow Double)} {request : TargetRequest} {row : InputRow}

/-- The checks of a row accept everything in the cross product. -/
theorem resolve_of_mem_crossProduct (hread : WindowsRead windows videoKeys)
    (hversion : LoadedVersion data.dataset data.metadata) (hcall : SameCall windows data)
    (hrequests : RequestsValid 0 windows.requests) (hcell : request ∈ crossProduct windows videoKeys) :
    (∃ episodeRoute, data.dataset.findEpisodeRoute request.episodeIndex = some episodeRoute) ∧
      ∃ route delta, ∀ targetId, resolveRequest data { request with targetId := targetId } = .ok (route, delta) := by
  obtain ⟨windowRequest, hrequest, hcell⟩ := List.mem_flatMap.mp hcell
  obtain ⟨entry, hentry, hcell⟩ := List.mem_flatMap.mp hcell
  obtain ⟨videoKey, hkey, rfl⟩ := List.mem_map.mp hcell
  have hkeys := List.ne_nil_of_mem hkey
  have hversion' : LoadedVersion data.dataset windows.metadata := hcall.metadata.symm ▸ hversion
  refine ⟨hread.routed hversion' hkeys hrequest, ?_⟩
  obtain ⟨route, hroute, hkeyRoute⟩ := List.mem_map.mp
    ((hread.keys_perm hversion' hkeys hrequest).mem_iff.mpr hkey)
  obtain ⟨hmem, -, hepisode⟩ := hread.mem_routesOf hroute
  have hfind := findRoute_of_mem hversion' hmem
  rw [hkeyRoute, hepisode, hcall.metadata] at hfind
  -- a row with an empty key is refused before its route is looked up
  have hname : videoKey ≠ [] := by
    rintro rfl
    exact hversion'.names (hread.keysKnown _ hkey)
  have hdelta : findDelta data (entry.2 : Int) = some entry.1 := by
    rw [findDelta, if_neg (not_lt.mpr (Int.natCast_nonneg _)), Int.toNat_natCast, delta_of_mem hcall hentry]
  obtain ⟨hnonneg, hnonneg'⟩ := hrequests.nonnegative windowRequest hrequest
  have hlength := hread.inEpisode hkeys windowRequest hrequest
  rw [hread.length_eq hroute] at hlength
  refine ⟨route, entry.1, fun targetId => ?_⟩
  exact resolveRequest_accepts hnonneg hnonneg' hdelta hname hfind hlength

/-- **An input row has no error exactly if what it asks for has values.** -/
theorem validRow_iff (hread : WindowsRead windows videoKeys) (hversion : LoadedVersion data.dataset data.metadata)
    (hcall : SameCall windows data) (hrequests : RequestsValid 0 windows.requests)
    (hplace : RowsInPlace data.dataset frames) (hcell : request ∈ crossProduct windows videoKeys)
    (hasks : AsksFor data request row) (files : List Text) :
    ValidRow data frames files row ↔ (requestValues data frames request).isSome := by
  obtain ⟨⟨episodeRoute, hepisode⟩, route, delta, hresolve⟩ :=
    resolve_of_mem_crossProduct hread hversion hcall hrequests hcell
  obtain ⟨targetId, hasked⟩ := hasks
  have hfile : episodeFile data.dataset request.episodeIndex = data.dataset.dataFile episodeRoute := by
    rw [episodeFile, hepisode]
    rfl
  obtain ⟨-, -, hdelta, hroute⟩ := resolveRequest_ok (hresolve targetId)
  rw [Option.isSome_iff_exists]
  constructor
  · rintro ⟨request', route', delta', episodeRoute', timestamp, hread', hresolve', hepisode', hone, -, hvideo⟩
    cases hasked.symm.trans hread'
    cases (hresolve targetId).symm.trans hresolve'
    cases hepisode.symm.trans hepisode'
    obtain ⟨videoTimestamp, hvideo⟩ := Option.isSome_iff_exists.mp hvideo
    rw [← hfile] at hone
    exact ⟨_, requestValues_eq_some.mpr ⟨route, delta, timestamp, videoTimestamp, hroute, hdelta, hone, hvideo, rfl⟩⟩
  · rintro ⟨values, hvalues⟩
    obtain ⟨route', delta', timestamp, videoTimestamp, hroute', hdelta', hone, hvideo, -⟩ :=
      requestValues_eq_some.mp hvalues
    cases hroute.symm.trans hroute'
    cases hdelta.symm.trans hdelta'
    rw [hfile] at hone
    refine ⟨_, route, delta, episodeRoute, timestamp, hasked, hresolve targetId, hepisode, hone, ?_, ?_⟩
    · exact fun file _ hne => hplace.elsewhere hepisode hne route delta
    · rw [hvideo]
      rfl

/-- The input rows ask for the cross product, in any order. -/
def AskForAll (data : LerobotVideoTargetsBindData) (windows : WindowsRequest) (videoKeys : List Text)
    (rows : List InputRow) : Prop :=
  ∃ requests, requests.Perm (crossProduct windows videoKeys) ∧ List.Forall₂ (AsksFor data) requests rows

theorem validChunk_iff (hread : WindowsRead windows videoKeys) (hversion : LoadedVersion data.dataset data.metadata)
    (hcall : SameCall windows data) (hrequests : RequestsValid 0 windows.requests)
    (hplace : RowsInPlace data.dataset frames) {rows : List InputRow} (hask : AskForAll data windows videoKeys rows) :
    ValidChunk data frames rows ↔ ∀ cell ∈ crossProduct windows videoKeys, (requestValues data frames cell).isSome := by
  obtain ⟨requests, hperm, hasks⟩ := hask
  constructor
  · intro hvalid cell hcell
    obtain ⟨row, hrow, hasked⟩ := exists_right_of_forall₂ hasks (hperm.mem_iff.mpr hcell)
    exact (validRow_iff hread hversion hcall hrequests hplace hcell hasked _).mp (hvalid row hrow)
  · intro hvalues row hrow
    obtain ⟨cell, hcell, hasked⟩ := exists_left_of_forall₂ hasks hrow
    have hcell' := hperm.mem_iff.mp hcell
    exact (validRow_iff hread hversion hcall hrequests hplace hcell' hasked _).mpr (hvalues cell hcell')

/-- The output rows of some chunks are one for each of their input rows. -/
theorem oneToOne_flatMap {ψ φ : Type} {operator : TargetsOperator ψ φ} {chunks : List FinishedChunk}
    (h : ∀ chunk ∈ chunks, operator.OneToOne chunk.rows chunk.outputs) :
    operator.OneToOne (chunks.flatMap FinishedChunk.rows) (chunks.flatMap FinishedChunk.outputs) := by
  induction chunks with
  | nil => exact ⟨[], .nil, List.Perm.refl _⟩
  | cons chunk chunks ih =>
      obtain ⟨answers, hanswers, houtputs⟩ := h chunk List.mem_cons_self
      obtain ⟨answers', hanswers', houtputs'⟩ := ih fun other hother => h other (List.mem_cons_of_mem _ hother)
      refine ⟨answers ++ answers', List.rel_append hanswers hanswers', ?_⟩
      rw [List.flatMap_cons, List.map_append]
      exact houtputs.append houtputs'

/-- The output rows have the values that are asked for. -/
theorem outputs_values {ψ φ : Type} {operator : TargetsOperator ψ φ} (hread : WindowsRead windows videoKeys)
    (hversion : LoadedVersion operator.data.dataset operator.data.metadata) (hcall : SameCall windows operator.data)
    (hrequests : RequestsValid 0 windows.requests) (hplace : RowsInPlace operator.data.dataset operator.frames)
    {rows : List InputRow} {outputs : List OutputRow} (hask : AskForAll operator.data windows videoKeys rows)
    (hone : operator.OneToOne rows outputs) :
    (outputs.map fun row => some (targetValues operator.data.metadata operator.data.options row)).Perm
      ((crossProduct windows videoKeys).map (requestValues operator.data operator.frames)) := by
  obtain ⟨requests, hperm, hasks⟩ := hask
  obtain ⟨answers, hanswers, houtputs⟩ := hone
  have hmem := (List.forall₂_and_left _ _).mpr ⟨fun request hrequest => hperm.mem_iff.mp hrequest, hasks⟩
  have hvalues : requests.map (requestValues operator.data operator.frames) = answers.map fun answer =>
      some (sharedValues operator.data.metadata answer.1 answer.2) := by
    rw [← List.forall₂_eq_eq_eq, List.forall₂_map_left_iff, List.forall₂_map_right_iff]
    -- request, input row and answer, one beside the other
    refine forall₂_trans hmem hanswers ?_
    rintro request row answer - ⟨hrequest, hasked⟩ ⟨files, hanswer⟩
    obtain ⟨⟨episodeRoute, hepisode⟩, -⟩ := resolve_of_mem_crossProduct hread hversion hcall hrequests hrequest
    exact requestValues_of_answer hplace hasked hepisode hanswer
  have hanswered := houtputs.map fun answer => some (sharedValues operator.data.metadata answer.1 answer.2)
  rw [List.map_map, ← hvalues] at hanswered
  exact hanswered.trans (hperm.map _)

end Agreement

/-- **Windows and targets agree.** For a bind of `lerobot_video_windows` and a query over `lerobot_video_targets` with the
same deltas and tolerance, over one version of a dataset whose rows are in the data files of their episodes, in any
schedules and for any input rows that ask for each request, delta and key: the queries have a row that `BuildTargets`
refuses exactly if the input has an invalid row; and when all consumers of the scan have ended, the input is valid, and
the claimed targets and the output rows of the finished chunks have the same values. -/
theorem windows_targets_agree {ψ φ : Type} (operator : TargetsOperator ψ φ) {arithmetic : Arithmetic} {log : ℚ → ℚ}
    {infoPath : Text} {infoRows : List InfoRow} {info : LerobotDatasetInfo} {episodeSort : StdSort episodeRouteLess}
    {root : Text} {infoFingerprint : FileFingerprint} {episodeFiles : List MetadataFile} {episodeRows : List EpisodeRow}
    {sort : StdSort videoRouteLess} {lanceRows : List LanceVideoRow}
    (hinfo : parseLerobotInfo arithmetic log infoPath infoRows = .ok info) (hparquet : info.isLance = false)
    (hdataset : LerobotDatasetMetadata.load episodeSort root infoFingerprint info episodeFiles episodeRows =
      .ok operator.data.dataset)
    (hload : LerobotVideoMetadata.load sort operator.data.dataset lanceRows episodeRows = .ok operator.data.metadata)
    (hplace : RowsInPlace operator.data.dataset operator.frames) {print : ℚ → String} {input : NamedParameters}
    {value : Option (List (Option RequestFields))} {requests : List LerobotVideoWindowRequest} {videoKeys : List Text}
    {windows : WindowsRequest} (hvalue : getVideoWindowRequests value = .ok requests)
    (hvideoKeys : getVideoKeys input operator.data.metadata = .ok videoKeys)
    (hbind : WindowsRequest.read print input requests operator.data.metadata = .ok windows)
    (hcall : SameCall windows operator.data) {printSeconds : Double → String}
    {scan : VideoScan SourceRow LerobotDecodeTarget InvalidInputException}
    (hscan : ScanOf scan printSeconds (windows.bindData (windows.queryDataset operator.data.dataset)) operator.frames) :
    (∀ rows, AskForAll operator.data windows videoKeys rows →
      ((∀ row ∈ scan.sourceRows, ∃ targets, scan.buildTargets row = .ok targets) ↔
        ValidChunk operator.data operator.frames rows)) ∧
    ∀ s state, scan.system.Reachable s → operator.system.Reachable state →
      (∀ consumer < scan.consumers, s.consumers consumer = .finished) →
      ∀ chunks : List FinishedChunk, (∀ chunk ∈ chunks, ∃ i, chunk ∈ (state.workers i).finished) →
        AskForAll operator.data windows videoKeys (chunks.flatMap FinishedChunk.rows) →
        ValidChunk operator.data operator.frames (chunks.flatMap FinishedChunk.rows) ∧
        s.claimedTargets.map (fun target => windowValues windows.metadata windows.options
            ⟨target, windows.routes.getD target.routeIndex default, none⟩) =
          ((chunks.flatMap FinishedChunk.outputs).map (targetValues operator.data.metadata operator.data.options) :
            List (List (Option OutputValue))) := by
  have hversion := loadedVersion_of_load hinfo hparquet hdataset hload
  obtain ⟨-, hsame, hread⟩ := windowsRead_of_read hversion.routes hversion.keys hvideoKeys hbind
  have hrequests : RequestsValid 0 windows.requests := hsame ▸ getVideoWindowRequests_valid hvalue
  obtain ⟨hbuilt, hvalues⟩ := windowScan_values hread hversion hcall hrequests hscan
  refine ⟨fun rows hask => hbuilt.trans (validChunk_iff hread hversion hcall hrequests hplace hask).symm, ?_⟩
  intro s state hs hstate hfinished chunks hchunks hask
  have hdelivered := VideoScan.delivered_of_finished (VideoScan.producerSide_reachable hs)
    (VideoScan.consumerSide_reachable hs) (VideoScan.delivery_reachable hs) hfinished
  refine ⟨(validChunk_iff hread hversion hcall hrequests hplace hask).mpr (hbuilt.mp hdelivered.rows), ?_⟩
  have hone := oneToOne_flatMap fun chunk hchunk => by
    obtain ⟨i, hmem⟩ := hchunks chunk hchunk
    exact ((TargetsOperator.reachable_ready hstate).1 i).finished chunk hmem
  have houtputs := Multiset.coe_eq_coe.mpr (outputs_values hread hversion hcall hrequests hplace hask hone)
  have htargets := hvalues hdelivered.rows
  rw [← hdelivered.targets, ← houtputs] at htargets
  apply Multiset.map_injective (Option.some_injective _)
  rw [Multiset.map_map, Multiset.map_coe, List.map_map]
  exact htargets

/-- The parameters of both calls: one delta, and the tolerance. -/
def armParameters : NamedParameters where
  deltaTimestamps := some (some [some (.finite 0)])
  tolerance := some (some (.finite 1))
  targetBufferSize := some (some 2)

/-- What both functions have read, for the first frame of the second episode. -/
def armCalls : Except BinderException (LerobotVideoTargetsBindData × WindowsRequest) := do
  let version ← armVersion
  let requests ← getVideoWindowRequests (some [some (some 7, some 1, some 0)])
  let windows ← WindowsRequest.read (fun _ => "") armParameters requests version.2
  let data ← targetsBindData (fun _ => "") armParameters [0, 1, 2, 3, 4] version.2 version.1
  .ok (data, windows)

deriving instance DecidableEq for InputValue, TargetRequest

theorem armCalls_ok : armCalls.toOption.isSome = true := by decide +kernel

/-- The bind data of `lerobot_video_targets`. -/
def armData : LerobotVideoTargetsBindData := (armCalls.toOption.get armCalls_ok).1

/-- The bind of `lerobot_video_windows`. -/
def armWindows : WindowsRequest := (armCalls.toOption.get armCalls_ok).2

/-- A query of the dataset, without decoding. -/
def armOperator : TargetsOperator Unit Unit where
  data := armData
  frames := armFrames
  sort := targetSort
  printSeconds _ := ""
  media := noMedia
  projectedColumns := [.requestId, .videoPath]
  threads := 1
  outputBatchSize_pos := by decide +kernel
  targetBufferSize_pos := by decide +kernel
  maxPendingTargets_pos := by decide +kernel
  threads_lt := by decide

/-- The bind data of `lerobot_video_windows`. -/
def armWindowsData : LerobotVideoFramesBindData := armWindows.bindData (armWindows.queryDataset armData.dataset)

/-- The input row for the frame. -/
def armRows : List InputRow :=
  [[.integer (some 7), .integer (some 1), .integer (some 0), .varchar (some "front".toList), .integer (some 0)]]

/-- A worker gets the row and calls until it needs more input. -/
def armSchedule : List (Nat × TargetsAction Unit Unit armOperator.frames) :=
  (0, .feed armRows) :: List.replicate 4 (0, .proceed armOperator.someChoices)

/-- What the row asks for. -/
def armRequest : TargetRequest := ⟨7, 1, 0, "front".toList, 0, 0⟩

theorem armRows_ask {videoKeys : List Text} (hkeys : videoKeys = ["front".toList]) :
    AskForAll armData armWindows videoKeys armRows := by
  have hcross : crossProduct armWindows ["front".toList] = [armRequest] := by decide +kernel
  have hrows : armRows.map (fun row => (readRow armData row).toOption) = [some armRequest] := by decide +kernel
  rw [hkeys]
  refine ⟨[armRequest], hcross ▸ List.Perm.refl _, ?_⟩
  have hforall : List.Forall₂ Eq (armRows.map fun row => (readRow armData row).toOption)
      ([armRequest].map some) := List.forall₂_eq_eq_eq ▸ hrows
  rw [List.forall₂_map_left_iff, List.forall₂_map_right_iff] at hforall
  refine hforall.flip.imp ?_
  intro request row hread
  refine ⟨request.targetId, ?_⟩
  cases hrow : readRow armData row with
  | error e =>
      rw [hrow] at hread
      cases hread
  | ok request' =>
      rw [hrow] at hread
      cases hread
      rfl

theorem armFrames_inPlace : RowsInPlace armData.dataset armFrames := by
  intro file row hrow episodeIndex hepisode route hroute
  have hfiles : ((armData.dataset.findEpisodeRoute 1).all fun route =>
      decide (armData.dataset.dataFile route = "arm/data/file-1.parquet".toList)) = true := by decide +kernel
  rw [armFrames] at hrow
  split at hrow
  · rename_i hfile
    cases List.mem_singleton.mp hrow
    cases hepisode
    rw [hroute, Option.all_some, decide_eq_true_iff] at hfiles
    rw [hfile, hfiles]
  · cases hrow

/-- A run of each function to its end. -/
theorem armScan_agrees : ∃ s state, (singleRowScan armWindowsData armFrames).system.Reachable s ∧
    armOperator.system.Reachable state ∧
    ValidChunk armData armFrames armRows ∧ s.claimedTargets.card = 1 ∧
    s.claimedTargets.map (fun target => windowValues armWindows.metadata armWindows.options
        ⟨target, armWindows.routes.getD target.routeIndex default, none⟩) =
      (((state.workers 0).finished.flatMap FinishedChunk.outputs).map
        (targetValues armData.metadata armData.options) : List (List (Option OutputValue))) := by
  have hcalls : armCalls = .ok (armData, armWindows) := eq_ok_get armCalls_ok
  obtain ⟨version, hversion, hcalls⟩ := except_bind_eq_ok.mp hcalls
  obtain ⟨info, hinfo, hversion⟩ := except_bind_eq_ok.mp hversion
  obtain ⟨dataset, hdataset, hversion⟩ := except_bind_eq_ok.mp hversion
  obtain ⟨metadata, hload, hversion⟩ := except_bind_eq_ok.mp hversion
  cases hversion
  obtain ⟨requests, hvalue, hcalls⟩ := except_bind_eq_ok.mp hcalls
  obtain ⟨windows, hbind, hcalls⟩ := except_bind_eq_ok.mp hcalls
  obtain ⟨data, hdata, hcalls⟩ := except_bind_eq_ok.mp hcalls
  obtain ⟨rfl, rfl⟩ := Prod.mk.inj (Except.ok.inj hcalls)
  obtain ⟨rfl, rfl⟩ := fields_of_targetsBindData hdata
  have hkeys : armData.metadata.videoKeys = ["front".toList] := by decide +kernel
  have hcall : SameCall armWindows armData := by
    refine ⟨(WindowsRequest.metadata_of_read hbind), ?_, ?_⟩
    · decide +kernel
    · decide +kernel
  have hagree := windows_targets_agree armOperator hinfo (armInfo_parquet hinfo) hdataset hload armFrames_inPlace hvalue
    (show getVideoKeys armParameters armData.metadata = .ok armData.metadata.videoKeys from rfl) hbind hcall
    (singleRowScan_of armWindowsData armFrames)
  obtain ⟨s, hs, hcard, hended⟩ := singleRowScan_finished armWindowsData armFrames (by decide +kernel)
  obtain ⟨state, hstate, hrows⟩ := armOperator.system.exists_reachable_of_replay armSchedule
    (fun state => decide ((state.workers 0).finished.map FinishedChunk.rows = [armRows])) (by decide +kernel)
  have hchunks : (state.workers 0).finished.flatMap FinishedChunk.rows = armRows := by
    rw [List.flatMap_def, of_decide_eq_true hrows]
    rfl
  have hrun := hagree.2 s state hs hstate hended (state.workers 0).finished (fun chunk hchunk => ⟨0, hchunk⟩)
    (hchunks ▸ armRows_ask hkeys)
  rw [hchunks] at hrun
  exact ⟨s, state, hs, hstate, hrun.1, hcard, hrun.2⟩

end DuckdbLerobot.Video
