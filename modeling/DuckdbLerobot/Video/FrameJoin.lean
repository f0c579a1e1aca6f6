import DuckdbLerobot.Video.WindowRequests
import DuckdbLerobot.Video.SourceScan

/-!
# Frames and routes

`lerobot_video_frames` is a join: a run to the end has one row for each stored frame of the requested episodes and each
route of its episode with a requested key. The frames are those that `lerobot_scan` reads.
-/

set_option autoImplicit false

namespace DuckdbLerobot.Video

open DuckdbLerobot.Library DuckdbLerobot.Path DuckdbLerobot.Storage

/-! ## What a frame becomes -/

/-- The columns of `lerobot_video_frames` that need no decoded frame. -/
def alignedColumns : List FrameColumn :=
  [.episodeIndex, .frameIndex, .timestamp, .videoKey, .videoPath, .videoTimestamp]

/-- The values of a row of `lerobot_video_frames` in these columns. -/
def frameValues (metadata : LerobotVideoMetadata) (options : LerobotVideoOptions) (row : OutputRow) :
    List (Option OutputValue) :=
  alignedColumns.map (writeLegacyColumn metadata options row)

/-- A stored frame without NULL and without a negative value. -/
structure StoredFrame (row : FrameRow Double) (episodeIndex frameIndex : Int) (timestamp : ℚ) : Prop where
  columns : row = ⟨some episodeIndex, some frameIndex, some (.finite timestamp)⟩
  episodeIndex : 0 ≤ episodeIndex
  frameIndex : 0 ≤ frameIndex
  timestamp : 0 ≤ timestamp

/-- The values of a frame and a route. -/
def alignedValues (metadata : LerobotVideoMetadata) (route : LerobotVideoRoute) (episodeIndex frameIndex : Int)
    (timestamp videoTimestamp : ℚ) : List (Option OutputValue) :=
  [some (.bigint episodeIndex), some (.bigint frameIndex), some (.double timestamp),
    some (.varchar (metadata.getVideoKey route)), some (.varchar (metadata.getVideoFile route)),
    some (.double videoTimestamp)]

/-- The values of a stored frame and a route, if the frame is in the range of the route. -/
def joinedValues (metadata : LerobotVideoMetadata) (tolerance : ℚ) (row : FrameRow Double) (route : LerobotVideoRoute) :
    Option (List (Option OutputValue)) := do
  let episodeIndex ← row.episodeIndex
  let frameIndex ← row.frameIndex
  let timestamp ← row.timestamp.bind Double.nonnegative?
  let videoTimestamp ← videoTimestamp? tolerance route timestamp
  some (alignedValues metadata route episodeIndex frameIndex timestamp videoTimestamp)

/-- The values of a stored frame and the routes of its episode. -/
def joinedRoutes (metadata : LerobotVideoMetadata) (tolerance : ℚ) (routes : List LerobotVideoRoute)
    (row : FrameRow Double) : List (Option (List (Option OutputValue))) :=
  (routes.filter fun route => decide (row.episodeIndex = some route.episodeIndex)).map
    (joinedValues metadata tolerance row)

/-- What a stored frame is read as. -/
def frameAlignment (episodeIndex frameIndex : Int) (timestamp : ℚ) : Alignment where
  episodeIndex := episodeIndex
  frameIndex := frameIndex
  targetFrameIndex := frameIndex
  frameTimestamp := .finite timestamp

/-- The target of a stored frame. -/
def frameTarget (episodeIndex frameIndex : Int) (timestamp videoTimestamp : ℚ) (routeIndex : Nat) :
    LerobotDecodeTarget where
  requestId := 0
  requestOrdinal := 0
  deltaOrdinal := 0
  deltaTimestamp := 0
  deltaFrameOffset := 0
  isPadding := false
  episodeIndex := episodeIndex
  frameIndex := frameIndex
  targetFrameIndex := frameIndex
  frameTimestamp := timestamp
  videoTimestamp := videoTimestamp
  routeIndex := routeIndex

section Frame

variable {printSeconds : Double → String} {data : LerobotVideoFramesBindData} {row : FrameRow Double}
  {episodeIndex frameIndex : Int} {timestamp : ℚ}

theorem readFrameRow_eq_ok {alignment : Alignment} :
    readFrameRow row = .ok alignment ↔ ∃ episodeIndex frameIndex timestamp,
      row = ⟨some episodeIndex, some frameIndex, some timestamp⟩ ∧
        alignment = ⟨0, 0, 0, 0, 0, false, episodeIndex, frameIndex, frameIndex, timestamp⟩ := by
  constructor
  · intro h
    unfold readFrameRow at h
    split at h
    · cases h
      exact ⟨_, _, _, rfl, rfl⟩
    · cases h
  · rintro ⟨episodeIndex, frameIndex, timestamp, rfl, rfl⟩
    rfl

/-- What `BuildTargets` makes of a stored frame. -/
theorem buildTargets_frames {targets : List LerobotDecodeTarget} :
    buildTargets printSeconds data (.frames row) = .ok targets ↔
      ∃ episodeIndex frameIndex timestamp, StoredFrame row episodeIndex frameIndex timestamp ∧
        (routesByEpisode data.routes episodeIndex).mapM (alignedTarget printSeconds data
          (frameAlignment episodeIndex frameIndex timestamp) timestamp 0) = .ok targets := by
  simp only [buildTargets, readSourceRow, except_bind_eq_ok, readFrameRow_eq_ok]
  constructor
  · rintro ⟨_, ⟨episodeIndex, frameIndex, timestamp, rfl, rfl⟩, checked, hchecked, htargets⟩
    unfold checkAlignment at hchecked
    split at hchecked
    · -- the delta of a frame is zero, and its target is the frame itself
      rename_i value delta hvalue hdelta
      obtain ⟨rfl, hle⟩ := nonnegative?_eq_some.mp hvalue
      obtain ⟨hnonneg, hchecked⟩ := except_check_eq_ok.mp hchecked
      cases hchecked
      cases hdelta
      rw [not_or, not_or, not_lt, not_lt] at hnonneg
      exact ⟨episodeIndex, frameIndex, value, ⟨rfl, hnonneg.1, hnonneg.2.1, hle⟩, htargets⟩
    · cases hchecked
  · rintro ⟨episodeIndex, frameIndex, timestamp, hstored, htargets⟩
    refine ⟨_, ⟨_, _, _, hstored.columns, rfl⟩, (timestamp, 0), ?_, htargets⟩
    have hvalue : (Double.finite timestamp).nonnegative? = some timestamp :=
      nonnegative?_eq_some.mpr ⟨rfl, hstored.timestamp⟩
    rw [checkAlignment]
    dsimp only
    rw [hvalue]
    exact if_neg (not_or.mpr ⟨not_lt.mpr hstored.episodeIndex,
      not_or.mpr ⟨not_lt.mpr hstored.frameIndex, not_lt.mpr hstored.frameIndex⟩⟩)

theorem alignedTarget_frame {entry : LerobotVideoRoute × Nat} {target : LerobotDecodeTarget} :
    alignedTarget printSeconds data (frameAlignment episodeIndex frameIndex timestamp) timestamp 0 entry = .ok target ↔
      ∃ videoTimestamp, videoTimestamp? data.options.tolerance entry.1 timestamp = some videoTimestamp ∧
        frameTarget episodeIndex frameIndex timestamp videoTimestamp entry.2 = target :=
  alignedTarget_eq_ok

/-- The values of a stored frame and a route. -/
theorem joinedValues_eq_some (hstored : StoredFrame row episodeIndex frameIndex timestamp)
    {metadata : LerobotVideoMetadata} {tolerance : ℚ} {route : LerobotVideoRoute} {values : List (Option OutputValue)} :
    joinedValues metadata tolerance row route = some values ↔ ∃ videoTimestamp,
      videoTimestamp? tolerance route timestamp = some videoTimestamp ∧
        alignedValues metadata route episodeIndex frameIndex timestamp videoTimestamp = values := by
  have hvalue : (Double.finite timestamp).nonnegative? = some timestamp :=
    nonnegative?_eq_some.mpr ⟨rfl, hstored.timestamp⟩
  rw [hstored.columns, joinedValues]
  simp only [Option.bind_eq_bind, Option.bind_some, hvalue, Option.bind_eq_some_iff]
  exact exists_congr fun videoTimestamp => and_congr_right fun _ => Option.some_inj

/-- The routes of the episode of a stored frame. -/
theorem joinedRoutes_eq (hstored : StoredFrame row episodeIndex frameIndex timestamp) (metadata : LerobotVideoMetadata)
    (tolerance : ℚ) (routes : List LerobotVideoRoute) : joinedRoutes metadata tolerance routes row =
      (routesByEpisode routes episodeIndex).map fun entry => joinedValues metadata tolerance row entry.1 := by
  have hfilter : (routes.filter fun route => decide (row.episodeIndex = some route.episodeIndex)) =
      (routesByEpisode routes episodeIndex).map Prod.fst := by
    rw [map_routesByEpisode, routesOf]
    apply List.filter_congr
    intro route _
    have hepisode : row.episodeIndex = some episodeIndex := congrArg FrameRow.episodeIndex hstored.columns
    apply decide_eq_decide.mpr
    rw [hepisode, Option.some.injEq, eq_comm]
  rw [joinedRoutes, hfilter, List.map_map]
  rfl

/-- **A stored frame is built exactly if all its routes have values.** -/
theorem frame_built :
    (∃ targets, buildTargets printSeconds data (.frames row) = .ok targets) ↔
      (∃ episodeIndex frameIndex timestamp, StoredFrame row episodeIndex frameIndex timestamp) ∧
        ∀ values ∈ joinedRoutes data.metadata data.options.tolerance data.routes row, values.isSome := by
  constructor
  · rintro ⟨targets, htargets⟩
    obtain ⟨episodeIndex, frameIndex, timestamp, hstored, hmap⟩ := buildTargets_frames.mp htargets
    refine ⟨⟨_, _, _, hstored⟩, fun values hvalues => ?_⟩
    rw [joinedRoutes_eq hstored] at hvalues
    obtain ⟨entry, hentry, rfl⟩ := List.mem_map.mp hvalues
    obtain ⟨target, -, htarget⟩ := exists_right_of_forall₂ (mapM_eq_ok.mp hmap) hentry
    obtain ⟨videoTimestamp, hvideo, -⟩ := alignedTarget_frame.mp htarget
    rw [Option.isSome_iff_exists]
    exact ⟨_, (joinedValues_eq_some hstored).mpr ⟨videoTimestamp, hvideo, rfl⟩⟩
  · rintro ⟨⟨episodeIndex, frameIndex, timestamp, hstored⟩, hvalues⟩
    rw [joinedRoutes_eq hstored] at hvalues
    have htotal : ∃ targets, (routesByEpisode data.routes episodeIndex).mapM (alignedTarget printSeconds data
        (frameAlignment episodeIndex frameIndex timestamp) timestamp 0) = .ok targets := by
      apply mapM_total
      intro entry hentry
      obtain ⟨_, hsome⟩ := Option.isSome_iff_exists.mp (hvalues _ (List.mem_map_of_mem hentry))
      obtain ⟨videoTimestamp, hvideo, -⟩ := (joinedValues_eq_some hstored).mp hsome
      exact ⟨_, alignedTarget_frame.mpr ⟨videoTimestamp, hvideo, rfl⟩⟩
    obtain ⟨targets, htargets⟩ := htotal
    exact ⟨targets, buildTargets_frames.mpr ⟨_, _, _, hstored, htargets⟩⟩

/-- **The targets of a stored frame are its routes.** -/
theorem frame_values (hbuilt : ∃ targets, buildTargets printSeconds data (.frames row) = .ok targets) :
    ((rowTargets printSeconds data (.frames row)).map fun target =>
      some (frameValues data.metadata data.options
        ⟨target, data.routes.getD target.routeIndex default, none⟩)) =
      joinedRoutes data.metadata data.options.tolerance data.routes row := by
  obtain ⟨targets, htargets⟩ := hbuilt
  obtain ⟨episodeIndex, frameIndex, timestamp, hstored, hmap⟩ := buildTargets_frames.mp htargets
  have hof : rowTargets printSeconds data (.frames row) = targets := by
    rw [rowTargets, htargets]
    rfl
  rw [hof, joinedRoutes_eq hstored]
  -- the targets and the routes have one order
  apply Eq.symm
  rw [← List.forall₂_eq_eq_eq, List.forall₂_map_left_iff, List.forall₂_map_right_iff]
  have hforall := (List.forall₂_and_left _ _).mpr ⟨fun entry hentry => hentry, mapM_eq_ok.mp hmap⟩
  refine hforall.imp ?_
  rintro entry target ⟨hentry, htarget⟩
  obtain ⟨videoTimestamp, hvideo, rfl⟩ := alignedTarget_frame.mp htarget
  refine (joinedValues_eq_some hstored).mpr ⟨videoTimestamp, hvideo, ?_⟩
  change _ = frameValues data.metadata data.options
    ⟨frameTarget episodeIndex frameIndex timestamp videoTimestamp entry.2, data.routes.getD entry.2 default, none⟩
  rw [getD_of_mem_routesByEpisode hentry]
  rfl

end Frame

/-! ## The rows of the queries -/

section Query

variable {frames : Text → List (FrameRow Double)} {dataset : LerobotDatasetMetadata}

/-- A query returns the rows that it selects. -/
theorem frameQuery_rows (query : Scan.FrameQuery) :
    ((SourceQuery.frames query).rows frames : Multiset SourceRow) =
      (query.rows frames FrameRow.episodeIndex FrameRow.frameIndex).map SourceRow.frames := by
  rw [SourceQuery.rows, Scan.FrameQuery.rows, Multiset.filter_coe, Multiset.map_coe]
  refine congrArg (fun rows : List (FrameRow Double) => (rows.map SourceRow.frames : Multiset SourceRow)) ?_
  apply List.filter_congr
  intro row _
  rw [Bool.decide_and, Bool.decide_eq_true, Bool.decide_eq_true]

theorem frameQueries_rows (queries : List Scan.FrameQuery) :
    ((queries.map SourceQuery.frames).flatMap (SourceQuery.rows frames) : List SourceRow) =
      ((queries.map (Scan.FrameQuery.rows frames FrameRow.episodeIndex FrameRow.frameIndex)).sum).map
        SourceRow.frames := by
  induction queries with
  | nil => rfl
  | cons query queries ih =>
      rw [List.map_cons, List.flatMap_cons, ← Multiset.coe_add, ih, frameQuery_rows, List.map_cons, List.sum_cons,
        Multiset.map_add]

end Query

/-- The dataset that a frames bind reads in its second call. -/
def FramesRequest.queryDataset (request : FramesRequest) (dataset : LerobotDatasetMetadata) :
    Option LerobotDatasetMetadata :=
  if request.needsFrames then some dataset else none

/-- The stored frames that a bind selects. -/
def FramesRequest.selected (request : FramesRequest) (rows : Multiset (FrameRow Double)) : Multiset (FrameRow Double) :=
  rows.filter fun row => Scan.isIn row.episodeIndex request.episodeIndices = true ∧
    request.frameIndices.all (Scan.isIn row.frameIndex) = true

theorem pairwise_indicesParameter {null nullChild negative : BinderException} {value : Option (List (Option Int))}
    {indices : List Int} (h : Scan.indicesParameter null nullChild negative value = .ok indices) :
    indices.Pairwise (· < ·) := by
  cases value with
  | none => cases h
  | some children =>
      obtain ⟨collected, -, h⟩ := except_bind_eq_ok.mp h
      cases h
      exact pairwise_sortUnique collected

section Bind

variable {printSeconds : Double → String} {frames : Text → List (FrameRow Double)} {dataset : LerobotDatasetMetadata}
  {request : FramesRequest} {scan : VideoScan SourceRow LerobotDecodeTarget InvalidInputException}

/-- The routes of a bind. -/
theorem FramesRequest.routes_of_read {input : NamedParameters} {episodeIndices : List Int}
    {metadata : LerobotVideoMetadata} {videoKeys : List Text} (hversion : LoadedVersion dataset metadata)
    (hepisodes : episodeIndices.Pairwise (· < ·)) (hkeys : getVideoKeys input metadata = .ok videoKeys)
    (h : FramesRequest.read input episodeIndices metadata = .ok request) :
    request.metadata = metadata ∧ request.episodeIndices = episodeIndices ∧
      request.routes = metadata.routes.filter fun route => decide (route.episodeIndex ∈ episodeIndices ∧
        metadata.getVideoKey route ∈ videoKeys) := by
  simp only [FramesRequest.read, except_bind_eq_ok] at h
  obtain ⟨keys, hkeys', routes, hroutes, options, -, frameIndices, -, h⟩ := h
  rw [hkeys] at hkeys'
  cases hkeys'
  cases h
  have hknown := keysKnown_of_resolveRoutes hversion.keys hroutes
  rw [LerobotVideoMetadata.resolveRoutes_eq_filter hversion.routes hversion.keys hepisodes hknown] at hroutes
  exact ⟨rfl, rfl, (Except.ok.inj hroutes).symm⟩

/-- The rows of the queries are the selected frames. -/
theorem sourceRows_of_needsFrames (hvalid : dataset.RoutesValid)
    (hrouted : Scan.RowsRouted dataset FrameRow.episodeIndex frames) (hneeds : request.needsFrames = true)
    (hscan : ScanOf scan printSeconds (request.bindData (request.queryDataset dataset)) frames) :
    scan.sourceRows = (request.selected (Scan.readParquet frames dataset.dataFiles)).map SourceRow.frames := by
  have hrows := hscan.sourceRows
  rw [FramesRequest.queryDataset, if_pos hneeds] at hrows
  rw [hrows, FramesRequest.bindData]
  exact (frameQueries_rows _).trans (congrArg (Multiset.map SourceRow.frames)
    (Scan.rows_frameQueries hvalid hrouted request.episodeIndices request.frameIndices))

/-- A bind without queries joins nothing. -/
theorem joined_of_not_needsFrames (hneeds : request.needsFrames = false) (tolerance : ℚ)
    (rows : Multiset (FrameRow Double)) :
    ((request.selected rows).bind fun row =>
      (joinedRoutes request.metadata tolerance request.routes row : Multiset (Option (List (Option OutputValue))))) =
        0 := by
  have hnot := of_decide_eq_false hneeds
  by_cases hroutes : request.routes = []
  · rw [hroutes]
    exact Multiset.bind_zero _
  · -- without a requested episode or with an empty list of frames no row is selected
    have hselected : request.selected rows = 0 := by
      apply Multiset.filter_eq_nil.mpr
      rintro row - ⟨hepisode, hframe⟩
      obtain ⟨episode, hmem, -⟩ := Scan.isIn_iff.mp hepisode
      refine hnot ⟨List.ne_nil_of_mem hmem, hroutes, ?_⟩
      intro hempty
      rw [hempty] at hframe
      obtain ⟨frame, hframe, -⟩ := Scan.isIn_iff.mp hframe
      cases hframe
    rw [hselected, Multiset.zero_bind]

/-- **The targets of a scan are the join of the selected frames with the routes.** -/
theorem sourceTargets_joined (hvalid : dataset.RoutesValid)
    (hrouted : Scan.RowsRouted dataset FrameRow.episodeIndex frames)
    (hscan : ScanOf scan printSeconds (request.bindData (request.queryDataset dataset)) frames)
    (hbuilt : ∀ row ∈ scan.sourceRows, ∃ targets, scan.buildTargets row = .ok targets) :
    scan.sourceTargets.map (fun target => some (frameValues request.metadata request.options
        ⟨target, request.routes.getD target.routeIndex default, none⟩)) =
      (request.selected (Scan.readParquet frames dataset.dataFiles)).bind fun row =>
        (joinedRoutes request.metadata request.options.tolerance request.routes row :
          Multiset (Option (List (Option OutputValue)))) := by
  cases hneeds : request.needsFrames with
  | false =>
      have hrows := hscan.sourceRows
      rw [FramesRequest.queryDataset, if_neg (Bool.eq_false_iff.mp hneeds)] at hrows
      have hempty : scan.sourceRows = (([] : List SourceRow) : Multiset SourceRow) := hrows
      rw [joined_of_not_needsFrames hneeds, hscan.sourceTargets hempty]
      rfl
  | true =>
      have hrows := sourceRows_of_needsFrames hvalid hrouted hneeds hscan
      rw [hrows, hscan.build] at hbuilt
      have htargets : ∀ row, scan.targetsOf row =
          (rowTargets printSeconds (request.bindData (request.queryDataset dataset)) row : List LerobotDecodeTarget) :=
        hscan.targetsOf
      rw [VideoScan.sourceTargets, hrows, Multiset.bind_map, Multiset.map_bind]
      apply Multiset.bind_congr
      intro row hrow
      rw [htargets, Multiset.map_coe]
      exact congrArg _ (frame_values (hbuilt _ (Multiset.mem_map_of_mem _ hrow)))

end Bind

/-- **`lerobot_video_frames` joins the scanned frames with the routes.** For a bind over one version of a dataset whose
rows are in the data files of their episodes, in any schedule: the queries have a row that `BuildTargets` refuses exactly
if a selected frame has NULL or a negative value, or is outside the range of a requested route of its episode; and when
all consumers have ended, the claimed targets have the values of the selected rows of `lerobot_scan`, each with every
requested route of its episode. -/
theorem frames_join_routes {arithmetic : Arithmetic} {log : ℚ → ℚ} {infoPath : Text} {infoRows : List InfoRow}
    {info : LerobotDatasetInfo} {episodeSort : StdSort episodeRouteLess} {root : Text}
    {infoFingerprint : FileFingerprint} {episodeFiles : List MetadataFile} {episodeRows : List EpisodeRow}
    {dataset : LerobotDatasetMetadata} {sort : StdSort videoRouteLess} {lanceRows : List LanceVideoRow}
    {metadata : LerobotVideoMetadata} (hinfo : parseLerobotInfo arithmetic log infoPath infoRows = .ok info)
    (hparquet : info.isLance = false)
    (hdataset : LerobotDatasetMetadata.load episodeSort root infoFingerprint info episodeFiles episodeRows = .ok dataset)
    (hload : LerobotVideoMetadata.load sort dataset lanceRows episodeRows = .ok metadata)
    {frames : Text → List (FrameRow Double)} (hrouted : Scan.RowsRouted dataset FrameRow.episodeIndex frames)
    {requestedEpisodes : Option (List (Option Int))} {episodeIndices : List Int} {input : NamedParameters}
    {videoKeys : List Text} {request : FramesRequest}
    (hepisodes : Scan.getNonNegativeIndices requestedEpisodes "episode_indices" = .ok episodeIndices)
    (hvideoKeys : getVideoKeys input metadata = .ok videoKeys)
    (hbind : FramesRequest.read input episodeIndices metadata = .ok request) {printSeconds : Double → String}
    {scan : VideoScan SourceRow LerobotDecodeTarget InvalidInputException}
    (hscan : ScanOf scan printSeconds (request.bindData (request.queryDataset dataset)) frames) (unionByName : Bool) :
    ∃ source, Scan.lerobotScanBindReplace dataset unionByName none = .ok source ∧
      (request.needsFrames = true → ((∀ row ∈ scan.sourceRows, ∃ targets, scan.buildTargets row = .ok targets) ↔
        ∀ row ∈ request.selected (source.rows frames FrameRow.episodeIndex),
          (∃ episodeIndex frameIndex timestamp, StoredFrame row episodeIndex frameIndex timestamp) ∧
            ∀ route ∈ metadata.routes, row.episodeIndex = some route.episodeIndex →
              metadata.getVideoKey route ∈ videoKeys →
                (joinedValues metadata request.options.tolerance row route).isSome)) ∧
      ∀ s, scan.system.Reachable s → (∀ consumer < scan.consumers, s.consumers consumer = .finished) →
        s.claimedTargets.map (fun target => some (frameValues metadata request.options
            ⟨target, request.routes.getD target.routeIndex default, none⟩)) =
          (request.selected (source.rows frames FrameRow.episodeIndex)).bind fun row =>
            ((metadata.routes.filter fun route => decide (row.episodeIndex = some route.episodeIndex ∧
              metadata.getVideoKey route ∈ videoKeys)).map (joinedValues metadata request.options.tolerance row) :
                List (Option (List (Option OutputValue)))) := by
  have hversion := loadedVersion_of_load hinfo hparquet hdataset hload
  obtain ⟨rfl, hindices, hroutes⟩ :=
    FramesRequest.routes_of_read hversion (pairwise_indicesParameter hepisodes) hvideoKeys hbind
  obtain ⟨source, hsource, hrows⟩ := Scan.scan_all frames FrameRow.episodeIndex dataset unionByName
  -- the routes of a selected frame are among those of the bind
  have hjoined : ∀ row ∈ request.selected (source.rows frames FrameRow.episodeIndex),
      joinedRoutes request.metadata request.options.tolerance request.routes row =
        (request.metadata.routes.filter fun route => decide (row.episodeIndex = some route.episodeIndex ∧
          request.metadata.getVideoKey route ∈ videoKeys)).map
            (joinedValues request.metadata request.options.tolerance row) := by
    intro row hrow
    rw [joinedRoutes, hroutes, List.filter_filter]
    refine congrArg _ (List.filter_congr fun route _ => ?_)
    obtain ⟨episode, hepisode, hselected⟩ := Scan.isIn_iff.mp (Multiset.of_mem_filter hrow).1
    rw [← Bool.decide_and, hselected]
    apply decide_eq_decide.mpr
    constructor
    · rintro ⟨hsame, -, hkey⟩
      exact ⟨hsame, hkey⟩
    · rintro ⟨hsame, hkey⟩
      cases hsame
      exact ⟨rfl, hindices ▸ hepisode, hkey⟩
  refine ⟨source, hsource, fun hneeds => ?_, fun s hs hfinished => ?_⟩
  · rw [sourceRows_of_needsFrames hversion.episodes hrouted hneeds hscan, hscan.build, ← hrows]
    rw [Multiset.forall_mem_map_iff]
    refine forall₂_congr fun row hrow => ?_
    rw [frame_built]
    refine and_congr_right fun _ => ?_
    have hvalues := hjoined row hrow
    constructor
    · -- a requested route of the episode is one of the joined routes
      intro hsome route hroute hepisode hkey
      refine hsome _ (hvalues ▸ List.mem_map_of_mem ?_)
      exact List.mem_filter.mpr ⟨hroute, decide_eq_true ⟨hepisode, hkey⟩⟩
    · intro hsome values hmem
      have hmem' := hvalues ▸ hmem
      obtain ⟨route, hroute, rfl⟩ := List.mem_map.mp hmem'
      obtain ⟨hroute, hof⟩ := List.mem_filter.mp hroute
      obtain ⟨hepisode, hkey⟩ := of_decide_eq_true hof
      exact hsome route hroute hepisode hkey
  · have hdelivered := VideoScan.delivered_of_finished (VideoScan.producerSide_reachable hs)
      (VideoScan.consumerSide_reachable hs) (VideoScan.delivery_reachable hs) hfinished
    rw [hdelivered.targets, sourceTargets_joined hversion.episodes hrouted hscan hdelivered.rows, ← hrows]
    exact Multiset.bind_congr fun row hrow => congrArg _ (hjoined row hrow)

/-- The parameters of a call, with a tolerance of one second. -/
def armFramesParameters : NamedParameters where
  tolerance := some (some (.finite 1))

/-- A request for the episode with a video. -/
def armFramesCall : Except BinderException (LerobotDatasetMetadata × FramesRequest) := do
  let version ← armVersion
  let episodeIndices ← Scan.getNonNegativeIndices (some [some 1, some 1]) "episode_indices"
  let request ← FramesRequest.read armFramesParameters episodeIndices version.2
  .ok (version.1, request)

theorem armFramesCall_ok : armFramesCall.toOption.isSome = true := by decide +kernel

/-- The dataset of the bind. -/
def armFramesDataset : LerobotDatasetMetadata := (armFramesCall.toOption.get armFramesCall_ok).1

/-- What the bind has read. -/
def armFramesRequest : FramesRequest := (armFramesCall.toOption.get armFramesCall_ok).2

/-- The bind data of `lerobot_video_frames`. -/
def armFramesData : LerobotVideoFramesBindData :=
  armFramesRequest.bindData (armFramesRequest.queryDataset armFramesDataset)

theorem armFrames_routed : Scan.RowsRouted armFramesDataset FrameRow.episodeIndex armFrames := by
  intro path _ row hrow
  have hfound : ((armFramesDataset.findEpisodeRoute 1).any fun route =>
      decide (armFramesDataset.dataFile route = "arm/data/file-1.parquet".toList)) = true := by decide +kernel
  obtain ⟨route, hroute, hfile⟩ := (Option.any_eq_true _ _).mp hfound
  rw [armFrames] at hrow
  split at hrow
  · rename_i hpath
    cases List.mem_singleton.mp hrow
    exact ⟨1, route, rfl, hroute, (of_decide_eq_true hfile).trans hpath.symm⟩
  · cases hrow

/-- A run to its end. -/
theorem armFrames_joined : ∃ s, (singleRowScan armFramesData armFrames).system.Reachable s ∧
    s.claimedTargets.card = 1 ∧
    s.claimedTargets.map (fun target => some (frameValues armFramesRequest.metadata armFramesRequest.options
        ⟨target, armFramesRequest.routes.getD target.routeIndex default, none⟩)) =
      (armFramesRequest.selected (Scan.readParquet armFrames armFramesDataset.dataFiles)).bind fun row =>
        ((armFramesRequest.metadata.routes.filter fun route => decide (row.episodeIndex = some route.episodeIndex ∧
          armFramesRequest.metadata.getVideoKey route ∈ armFramesRequest.metadata.videoKeys)).map
            (joinedValues armFramesRequest.metadata armFramesRequest.options.tolerance row) :
              List (Option (List (Option OutputValue)))) := by
  have hcall : armFramesCall = .ok (armFramesDataset, armFramesRequest) := eq_ok_get armFramesCall_ok
  obtain ⟨version, hversion, hcall⟩ := except_bind_eq_ok.mp hcall
  obtain ⟨info, hinfo, hversion⟩ := except_bind_eq_ok.mp hversion
  obtain ⟨dataset, hdataset, hversion⟩ := except_bind_eq_ok.mp hversion
  obtain ⟨metadata, hload, hversion⟩ := except_bind_eq_ok.mp hversion
  cases hversion
  obtain ⟨episodeIndices, hepisodes, hcall⟩ := except_bind_eq_ok.mp hcall
  obtain ⟨request, hbind, hcall⟩ := except_bind_eq_ok.mp hcall
  obtain ⟨rfl, rfl⟩ := Prod.mk.inj (Except.ok.inj hcall)
  cases FramesRequest.metadata_of_read hbind
  obtain ⟨source, hsource, -, hjoin⟩ := frames_join_routes hinfo (armInfo_parquet hinfo) hdataset hload armFrames_routed
    hepisodes (show getVideoKeys armFramesParameters armFramesRequest.metadata =
      .ok armFramesRequest.metadata.videoKeys from rfl) hbind
    (singleRowScan_of armFramesData armFrames) false
  obtain ⟨source', hsource', hrows⟩ := Scan.scan_all armFrames FrameRow.episodeIndex armFramesDataset false
  cases hsource.symm.trans hsource'
  obtain ⟨s, hs, hcard, hended⟩ := singleRowScan_finished armFramesData armFrames (by decide +kernel)
  rw [hrows] at hjoin
  exact ⟨s, hs, hcard, hjoin s hs hended⟩

end DuckdbLerobot.Video
