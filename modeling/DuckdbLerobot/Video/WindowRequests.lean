import DuckdbLerobot.Storage.RouteLookups
import DuckdbLerobot.Video.SourceRows

/-!
# What a window bind has read

`WindowsRead` says what the requests of a bind and its routes have in common: a request asks for a frame of its episode,
and the episode has one route for each requested key. The queries of the bind have each request once.
-/

set_option autoImplicit false

namespace DuckdbLerobot.Video

open DuckdbLerobot.Library DuckdbLerobot.Path DuckdbLerobot.Storage

/-! ## One version of a dataset -/

/-- What holds of the metadata that is loaded from one manifest and one list of episode rows. -/
structure LoadedVersion (dataset : LerobotDatasetMetadata) (metadata : LerobotVideoMetadata) : Prop where
  episodes : dataset.RoutesValid
  routes : metadata.RoutesValid
  keys : metadata.videoKeys.Pairwise (· < ·)
  names : [] ∉ metadata.videoKeys
  routed : ∀ route ∈ metadata.routes, ∃ episodeRoute,
    dataset.findEpisodeRoute route.episodeIndex = some episodeRoute

section Version

variable {arithmetic : Arithmetic} {log : ℚ → ℚ} {infoPath : Text}

/-- The names of the video features are not empty. -/
def VideosNamed (parse : InfoParse) : Prop := [] ∉ parse.videos.map Prod.fst

theorem VideosNamed.parseInfoRow {parse parse' : InfoParse} {row : InfoRow} (h : VideosNamed parse)
    (hrow : parseInfoRow arithmetic log infoPath parse row = .ok parse') : VideosNamed parse' := by
  simp only [Storage.parseInfoRow, except_bind_eq_ok] at hrow
  obtain ⟨-, -, -, -, info, -, hrow⟩ := hrow
  split at hrow
  · cases hrow
    exact h
  · rename_i fields _
    simp only [addInfoFeature, except_bind_eq_ok] at hrow
    obtain ⟨feature, hfeature, hrow⟩ := hrow
    -- an empty name does not pass the check of the feature's fields
    have hname : feature.name ≠ [] := by
      unfold parseInfoFeature at hfeature
      split at hfeature
      · cases hfeature
      · simp only [except_bind_eq_ok] at hfeature
        obtain ⟨_, hvalid, _, -, _, -, hfeature⟩ := hfeature
        cases hfeature
        intro hnil
        change fields.key = [] at hnil
        rw [hnil] at hvalid
        cases hvalid
    split at hrow
    · cases hrow
      exact h
    · obtain ⟨metadata, -, hrow⟩ := except_bind_eq_ok.mp hrow
      cases hrow
      rw [VideosNamed, List.map_append, List.mem_append, not_or]
      refine ⟨h, ?_⟩
      rw [List.map_singleton, List.mem_singleton]
      exact fun hnil => hname hnil.symm

theorem videoKeys_named {rows : List InfoRow} {info : LerobotDatasetInfo}
    (h : parseLerobotInfo arithmetic log infoPath rows = .ok info) : [] ∉ info.videoKeys := by
  unfold parseLerobotInfo at h
  obtain ⟨parse, hparse, h⟩ := except_bind_eq_ok.mp h
  have hnamed : VideosNamed parse :=
    foldlM_ok (I := fun _ parse => VideosNamed parse) hparse (List.not_mem_nil)
      fun _ _ _ _ _ _ hI hround => hI.parseInfoRow hround
  split at h
  · cases h
  · simp only [except_bind_eq_ok] at h
    obtain ⟨-, -, -, -, info₁, hschemas, h⟩ := h
    have hsame : info = info₁ := by
      split at h
      · obtain ⟨-, -, h⟩ := except_bind_eq_ok.mp h
        cases h
        rfl
      · cases h
        rfl
    rw [hsame, videoKeys_of_buildSchemas hschemas]
    intro hmem
    obtain ⟨video, hvideo, hnil⟩ := List.mem_map.mp hmem
    exact hnamed (List.mem_map.mpr ⟨video, (List.mergeSort_perm _ _).mem_iff.mp hvideo, hnil⟩)

/-- **The metadata of one version.** -/
theorem loadedVersion_of_load {infoRows : List InfoRow} {info : LerobotDatasetInfo}
    {episodeSort : StdSort episodeRouteLess} {root : Text} {infoFingerprint : FileFingerprint}
    {episodeFiles : List MetadataFile} {rows : List EpisodeRow} {dataset : LerobotDatasetMetadata}
    {sort : StdSort videoRouteLess} {lanceRows : List LanceVideoRow} {metadata : LerobotVideoMetadata}
    (hinfo : parseLerobotInfo arithmetic log infoPath infoRows = .ok info) (hparquet : info.isLance = false)
    (hdataset : LerobotDatasetMetadata.load episodeSort root infoFingerprint info episodeFiles rows = .ok dataset)
    (hload : LerobotVideoMetadata.load sort dataset lanceRows rows = .ok metadata) : LoadedVersion dataset metadata := by
  have hloaded := LerobotVideoMetadata.loadedFrom_of_load hload
  have hepisodes := LerobotDatasetMetadata.valid_of_load hparquet hdataset
  have hsame := LerobotVideoMetadata.info_of_load hdataset
  refine ⟨hepisodes, hloaded.valid, ?_, ?_, ?_⟩
  · rw [hloaded.videoKeys_eq, hsame]
    exact pairwise_videoKeys hinfo
  · rw [hloaded.videoKeys_eq, hsame]
    exact videoKeys_named hinfo
  · intro route hroute
    by_cases hzero : info.totalEpisodes = 0
    · -- a dataset without episodes has no routes
      rw [LerobotVideoMetadata.load, if_pos (.inl (hsame ▸ hzero))] at hload
      cases hload
      cases hroute
    · obtain ⟨row, hrow, _, _, hof⟩ := hloaded.sound route hroute
      obtain ⟨episodeRoute, hmem, hepisode⟩ :=
        (LerobotDatasetMetadata.loadedFrom_of_load hzero hdataset).routesOfRows.complete row hrow
      have hsameEpisode : episodeRoute.episodeIndex = route.episodeIndex :=
        Option.some.inj (hepisode.episodeIndex.symm.trans hof.episodeIndex)
      exact ⟨episodeRoute, (LerobotDatasetMetadata.findEpisodeRoute_eq_some hepisodes).mpr ⟨hmem, hsameEpisode⟩⟩

end Version

/-- The second of two episodes has a video. -/
def armVersion : Except BinderException (LerobotDatasetMetadata × LerobotVideoMetadata) := do
  let rows := [LerobotVideoMetadata.armVideoRow 1 3 true, LerobotVideoMetadata.armVideoRow 0 2 false]
  let info ← parseLerobotInfo .exact id "arm/meta/info.json".toList [LerobotVideoMetadata.armInfoRow]
  let dataset ← LerobotDatasetMetadata.load (StdSort.byKey LerobotEpisodeRoute.episodeIndex)
    "arm".toList ⟨0, 0, []⟩ info [] rows
  let metadata ← LerobotVideoMetadata.load (StdSort.byKey routeKey) dataset [] rows
  .ok (dataset, metadata)

theorem armInfo_parquet {info : LerobotDatasetInfo}
    (h : parseLerobotInfo .exact id "arm/meta/info.json".toList [LerobotVideoMetadata.armInfoRow] = .ok info) :
    info.isLance = false := by
  have htest : ((parseLerobotInfo .exact id "arm/meta/info.json".toList
      [LerobotVideoMetadata.armInfoRow]).toOption.any fun info => !info.isLance) = true := by decide +kernel
  rw [h] at htest
  exact Bool.not_inj htest

/-- The first frame of the second episode is in its data file. -/
def armFrames (file : Text) : List (FrameRow Double) :=
  if file = "arm/data/file-1.parquet".toList then [⟨some 1, some 0, some (.finite 0)⟩] else []

/-! ## The requests -/

/-- Requests are numbered, and they ask for no negative index. -/
structure RequestsValid (first : Nat) (requests : List LerobotVideoWindowRequest) : Prop where
  ordinals : requests.map LerobotVideoWindowRequest.requestOrdinal = List.range' first requests.length
  nonnegative : ∀ request ∈ requests, 0 ≤ request.episodeIndex ∧ 0 ≤ request.frameIndex

theorem RequestsValid.cons {first : Nat} {requests : List LerobotVideoWindowRequest}
    (h : RequestsValid (first + 1) requests) {request : LerobotVideoWindowRequest}
    (hordinal : request.requestOrdinal = first) (hepisode : 0 ≤ request.episodeIndex) (hframe : 0 ≤ request.frameIndex) :
    RequestsValid first (request :: requests) := by
  constructor
  · rw [List.map_cons, h.ordinals, hordinal, List.length_cons, List.range'_succ]
  · intro other hother
    rcases List.mem_cons.mp hother with rfl | hother
    · exact ⟨hepisode, hframe⟩
    · exact h.nonnegative other hother

theorem collectRequests_valid {first : Nat} {value : List (Option RequestFields)}
    {requests : List LerobotVideoWindowRequest} (h : collectRequests first value = .ok requests) :
    RequestsValid first requests := by
  fun_induction collectRequests first value generalizing requests with
  | case1 first =>
      cases h
      exact ⟨rfl, fun _ hmem => absurd hmem List.not_mem_nil⟩
  | case2 first value => cases h
  | case3 first requestId episodeIndex frameIndex value hnegative => cases h
  | case4 first requestId episodeIndex frameIndex value hnegative ih =>
      obtain ⟨result, hresult, h⟩ := except_bind_eq_ok.mp h
      cases h
      rw [not_or, not_lt, not_lt] at hnegative
      exact (ih hresult).cons rfl hnegative.1 hnegative.2
  | case5 => cases h

theorem getVideoWindowRequests_valid {value : Option (List (Option RequestFields))}
    {requests : List LerobotVideoWindowRequest} (h : getVideoWindowRequests value = .ok requests) :
    RequestsValid 0 requests := by
  cases value with
  | none => cases h
  | some value => exact collectRequests_valid h

/-! ## The routes -/

/-- What the loop over the routes has collected. -/
structure SummaryOf (routes : List LerobotVideoRoute) (summary : EpisodeSummary) : Prop where
  lengths : ∀ route ∈ routes, summary.lengths.lookup route.episodeIndex = some route.episodeLength
  routeCount : ∀ episodeIndex,
    summary.routeCount episodeIndex = routes.countP fun route => decide (route.episodeIndex = episodeIndex)

/-- A route is counted. -/
theorem SummaryOf.add {seen : List LerobotVideoRoute} {summary : EpisodeSummary} (h : SummaryOf seen summary)
    {route : LerobotVideoRoute}
    (hlength : ∀ length ∈ summary.lengths.lookup route.episodeIndex, length = route.episodeLength) :
    SummaryOf (seen ++ [route]) (summary.add route) := by
  constructor
  · intro other hother
    rw [EpisodeSummary.add]
    dsimp only
    rcases List.mem_append.mp hother with hother | hother
    · have hlookup := h.lengths other hother
      by_cases hsame : other.episodeIndex = route.episodeIndex
      · rw [hsame] at hlookup ⊢
        rw [AList.lookup_insert, hlength _ hlookup]
      · rw [AList.lookup_insert_ne hsame, hlookup]
    · cases List.mem_singleton.mp hother
      exact AList.lookup_insert _
  · intro episodeIndex
    have hcount := h.routeCount episodeIndex
    rw [List.countP_append, List.countP_singleton, ← hcount, EpisodeSummary.routeCount, EpisodeSummary.add]
    dsimp only
    -- only the count of the route's own episode grows
    by_cases hsame : route.episodeIndex = episodeIndex
    · rw [hsame, AList.lookup_insert, decide_eq_true rfl, if_pos rfl]
      rfl
    · rw [AList.lookup_insert_ne (Ne.symm hsame), decide_eq_false hsame, if_neg Bool.false_ne_true]
      rfl

theorem summaryOf_routes {routes : List LerobotVideoRoute} {summary : EpisodeSummary}
    (h : routes.foldlM addRouteLength {} = .ok summary) : SummaryOf routes summary := by
  refine foldlM_ok (I := SummaryOf) h ⟨fun _ hroute => absurd hroute List.not_mem_nil, fun _ => rfl⟩ ?_
  intro seen route rest summary next _ hI hround
  rw [addRouteLength] at hround
  split at hround
  · rename_i length hlookup
    split at hround
    · cases hround
    · rename_i hlength
      cases hround
      refine hI.add ?_
      intro length' hlength'
      rw [hlookup] at hlength'
      cases hlength'
      exact not_not.mp hlength
  · rename_i hlookup
    cases hround
    refine hI.add ?_
    intro length hlength
    rw [hlookup] at hlength
    cases hlength

/-- What a bind has read, for the requested keys. -/
structure WindowsRead (windows : WindowsRequest) (videoKeys : List Text) : Prop where
  keysNodup : videoKeys.Nodup
  keysKnown : ∀ videoKey ∈ videoKeys, videoKey ∈ windows.metadata.videoKeys
  routes : ∀ route, route ∈ windows.routes ↔ route ∈ windows.metadata.routes ∧
    route.episodeIndex ∈ windows.requests.map LerobotVideoWindowRequest.episodeIndex ∧
    windows.metadata.getVideoKey route ∈ videoKeys
  sorted : windows.routes.Pairwise fun route next => routeKey route < routeKey next
  lengths : ∀ route ∈ windows.routes, windows.summary.length route.episodeIndex = route.episodeLength
  routeCount : videoKeys ≠ [] → ∀ request ∈ windows.requests,
    (routesOf windows.routes request.episodeIndex).length = videoKeys.length
  inEpisode : videoKeys ≠ [] → ∀ request ∈ windows.requests,
    request.frameIndex < windows.summary.length request.episodeIndex

theorem getVideoKeys_nodup {input : NamedParameters} {metadata : LerobotVideoMetadata}
    (hkeys : metadata.videoKeys.Pairwise (· < ·)) {videoKeys : List Text}
    (h : getVideoKeys input metadata = .ok videoKeys) : videoKeys.Nodup := by
  rw [getVideoKeys] at h
  split at h
  · cases h
    exact hkeys.imp fun hlt => ne_of_lt hlt
  · cases h
  · obtain ⟨keys, -, h⟩ := except_bind_eq_ok.mp h
    cases h
    exact (pairwise_sortUnique keys).imp fun hlt => ne_of_lt hlt

/-- The keys that `ResolveRoutes` accepts are those of the metadata. -/
theorem keysKnown_of_resolveRoutes {metadata : LerobotVideoMetadata} (hkeys : metadata.videoKeys.Pairwise (· < ·))
    {episodeIndices : List Int} {videoKeys : List Text} {routes : List LerobotVideoRoute}
    (h : metadata.resolveRoutes episodeIndices videoKeys = .ok routes) :
    ∀ videoKey ∈ videoKeys, videoKey ∈ metadata.videoKeys := by
  obtain ⟨indices, hindices, -⟩ := except_bind_eq_ok.mp h
  intro videoKey hkey
  obtain ⟨index, -, hindex⟩ := exists_right_of_forall₂ (mapM_eq_ok.mp hindices) hkey
  split at hindex
  · rename_i found hfound
    exact List.mem_of_getElem? ((LerobotVideoMetadata.videoKeyIndex_eq_some hkeys).mp hfound)
  · cases hindex

/-- **What a bind that does not throw has read.** -/
theorem windowsRead_of_read {print : ℚ → String} {input : NamedParameters}
    {requests : List LerobotVideoWindowRequest} {metadata : LerobotVideoMetadata} {windows : WindowsRequest}
    (hvalid : metadata.RoutesValid) (hkeys : metadata.videoKeys.Pairwise (· < ·)) {videoKeys : List Text}
    (hvideoKeys : getVideoKeys input metadata = .ok videoKeys)
    (h : WindowsRequest.read print input requests metadata = .ok windows) :
    windows.metadata = metadata ∧ windows.requests = requests ∧ WindowsRead windows videoKeys := by
  simp only [WindowsRequest.read, except_bind_eq_ok] at h
  obtain ⟨keys, hkeys', options, -, deltas, -, _, -, routes, hroutes, summary, hsummary, _, hcheck, h⟩ := h
  rw [hvideoKeys] at hkeys'
  cases hkeys'
  cases h
  refine ⟨rfl, rfl, ?_⟩
  have hknown := keysKnown_of_resolveRoutes hkeys hroutes
  rw [LerobotVideoMetadata.resolveRoutes_eq_filter hvalid hkeys (pairwise_sortUnique _) hknown] at hroutes
  cases hroutes
  have hof := summaryOf_routes hsummary
  have hmem : ∀ request ∈ requests, request.episodeIndex ∈
      sortUnique (requests.map LerobotVideoWindowRequest.episodeIndex) := fun request hrequest =>
    mem_sortUnique.mpr (List.mem_map_of_mem hrequest)
  refine
    { keysNodup := getVideoKeys_nodup hkeys hvideoKeys
      keysKnown := hknown
      routes := ?_
      sorted := hvalid.sorted.filter _
      lengths := ?_
      routeCount := ?_
      inEpisode := ?_ }
  · intro route
    rw [List.mem_filter, decide_eq_true_iff, mem_sortUnique]
  · intro route hroute
    rw [EpisodeSummary.length, hof.lengths route hroute, Option.getD_some]
  all_goals
    intro hne request hrequest
    rw [checkRequests, if_neg hne] at hcheck
    obtain ⟨_, hcounts, hframes⟩ := except_bind_eq_ok.mp hcheck
  · have hcount := refuse_eq_ok.mp (forM_eq_ok.mp hcounts _ (hmem request hrequest))
    rw [not_not, hof.routeCount, List.countP_eq_length_filter] at hcount
    exact hcount
  · exact not_le.mp (refuse_eq_ok.mp (forM_eq_ok.mp hframes request hrequest))

section Read

variable {dataset : LerobotDatasetMetadata} {windows : WindowsRequest} {videoKeys : List Text}
  {request : LerobotVideoWindowRequest}

theorem findRoute_of_mem {metadata : LerobotVideoMetadata} (hversion : LoadedVersion dataset metadata)
    {route : LerobotVideoRoute} (hroute : route ∈ metadata.routes) :
    metadata.findRoute route.episodeIndex (metadata.getVideoKey route) = some route := by
  rw [LerobotVideoMetadata.findRoute_eq_some hversion.routes hversion.keys]
  refine ⟨hroute, rfl, ?_⟩
  rw [LerobotVideoMetadata.getVideoKey, List.getD_eq_getElem?_getD,
    List.getElem?_eq_getElem (hversion.routes.keyIndex route hroute), Option.getD_some]

theorem WindowsRead.mem_routesOf (h : WindowsRead windows videoKeys) {route : LerobotVideoRoute} {episodeIndex : Int}
    (hroute : route ∈ routesOf windows.routes episodeIndex) : route ∈ windows.metadata.routes ∧
      windows.metadata.getVideoKey route ∈ videoKeys ∧ route.episodeIndex = episodeIndex := by
  rw [routesOf, List.mem_filter, decide_eq_true_iff, h.routes] at hroute
  exact ⟨hroute.1.1, hroute.1.2.2, hroute.2⟩

/-- **An episode that is asked for has one route for each requested key.** -/
theorem WindowsRead.keys_perm (h : WindowsRead windows videoKeys) (hversion : LoadedVersion dataset windows.metadata)
    (hkeys : videoKeys ≠ []) (hrequest : request ∈ windows.requests) :
    ((routesOf windows.routes request.episodeIndex).map windows.metadata.getVideoKey).Perm videoKeys := by
  have hroutes : (routesOf windows.routes request.episodeIndex).Nodup :=
    (h.sorted.filter _).imp fun hlt heq => (ne_of_lt hlt) (congrArg routeKey heq)
  have hnodup : ((routesOf windows.routes request.episodeIndex).map windows.metadata.getVideoKey).Nodup := by
    refine hroutes.map_on ?_
    intro route hroute other hother hkey
    obtain ⟨hmem, -, hepisode⟩ := h.mem_routesOf hroute
    obtain ⟨hmem', -, hepisode'⟩ := h.mem_routesOf hother
    have hfind := findRoute_of_mem hversion hmem
    rw [hkey, hepisode, ← hepisode', findRoute_of_mem hversion hmem'] at hfind
    exact (Option.some.inj hfind).symm
  have hsubset : (routesOf windows.routes request.episodeIndex).map windows.metadata.getVideoKey ⊆ videoKeys := by
    intro videoKey hkey
    obtain ⟨route, hroute, rfl⟩ := List.mem_map.mp hkey
    exact (h.mem_routesOf hroute).2.1
  -- the bind has checked that there are as many routes as keys
  refine (List.subperm_of_subset hnodup hsubset).perm_of_length_le ?_
  rw [List.length_map, h.routeCount hkeys request hrequest]

/-- The length of the episode of a request is that of its routes. -/
theorem WindowsRead.length_eq (h : WindowsRead windows videoKeys) {route : LerobotVideoRoute} {episodeIndex : Int}
    (hroute : route ∈ routesOf windows.routes episodeIndex) :
    windows.summary.length episodeIndex = route.episodeLength := by
  rw [routesOf, List.mem_filter, decide_eq_true_iff] at hroute
  rw [← hroute.2]
  exact h.lengths route hroute.1

/-- The episode of a request has a data file. -/
theorem WindowsRead.routed (h : WindowsRead windows videoKeys) (hversion : LoadedVersion dataset windows.metadata)
    (hkeys : videoKeys ≠ []) (hrequest : request ∈ windows.requests) :
    ∃ episodeRoute, dataset.findEpisodeRoute request.episodeIndex = some episodeRoute := by
  have hlength := (h.keys_perm hversion hkeys hrequest).length_eq
  rw [List.length_map] at hlength
  have hne : routesOf windows.routes request.episodeIndex ≠ [] := by
    intro hnil
    rw [hnil] at hlength
    exact hkeys (List.length_eq_zero_iff.mp hlength.symm)
  obtain ⟨route, hroute⟩ := List.exists_mem_of_ne_nil _ hne
  obtain ⟨hmem, -, hepisode⟩ := h.mem_routesOf hroute
  rw [← hepisode]
  exact hversion.routed route hmem

end Read

/-! ## The queries -/

/-- The data file of an episode. -/
def episodeFile (dataset : LerobotDatasetMetadata) (episodeIndex : Int) : Text :=
  (dataset.findEpisodeRoute episodeIndex).elim [] dataset.dataFile

/-- The rows of one request. -/
def requestRows (frames : Text → List (FrameRow Double)) (dataset : LerobotDatasetMetadata) (windows : WindowsRequest)
    (request : LerobotVideoWindowRequest) : List SourceRow :=
  windows.deltas.zipIdx.flatMap fun entry =>
    (requestedTarget (windows.summary.length request.episodeIndex) request entry.1 entry.2).rows
      (frames (episodeFile dataset request.episodeIndex))

section Queries

variable {frames : Text → List (FrameRow Double)} {dataset : LerobotDatasetMetadata} {windows : WindowsRequest}
  {videoKeys : List Text} {requests : List LerobotVideoWindowRequest}

/-- The query of some of the requests. -/
theorem selects_buildVideoWindowQuery (episodeLength : Int → Int) (deltas : List LerobotTemporalDelta) (file : Text)
    (hordinals : (requests.map LerobotVideoWindowRequest.requestOrdinal).Nodup) :
    (buildVideoWindowQuery requests deltas episodeLength file
      (sortUnique (requests.map LerobotVideoWindowRequest.episodeIndex))).Selects := by
  refine ⟨?_, ?_, ?_⟩
  · have hmap : (requestedTargets episodeLength requests deltas).map RequestedTarget.ordinals =
        (requests.map LerobotVideoWindowRequest.requestOrdinal).product (List.range deltas.length) := by
      rw [requestedTargets, List.map_flatMap, List.product, List.flatMap_map]
      apply List.flatMap_congr
      intro request _
      rw [List.range_eq_range', ← List.zipIdx_map_snd 0 deltas, List.map_map, List.map_map]
      rfl
    rw [buildVideoWindowQuery, hmap]
    exact hordinals.product List.nodup_range
  · intro requested hrequested
    obtain ⟨request, hrequest, hrequested⟩ := List.mem_flatMap.mp hrequested
    obtain ⟨entry, -, rfl⟩ := List.mem_map.mp hrequested
    exact mem_sortUnique.mpr (List.mem_map_of_mem hrequest)
  · intro requested hrequested
    exact mem_sortUnique.mpr (List.mem_map_of_mem hrequested)

/-- **The queries of a bind return the rows of all its requests**, each once. -/
theorem windowQueries_rows (h : WindowsRead windows videoKeys) (hversion : LoadedVersion dataset windows.metadata)
    (hkeys : videoKeys ≠ []) (hrequests : RequestsValid 0 windows.requests) :
    ((windowQueries dataset windows.summary windows.requests windows.deltas).flatMap fun query =>
        (SourceQuery.window query).rows frames).Perm
      (windows.requests.flatMap (requestRows frames dataset windows)) := by
  have hspec := groupBy_spec (fun request : LerobotVideoWindowRequest =>
    (dataset.findEpisodeRoute request.episodeIndex).map LerobotEpisodeRoute.dataFileIndex) windows.requests
  have hnodup : (windows.requests.map LerobotVideoWindowRequest.requestOrdinal).Nodup := by
    rw [hrequests.ordinals]
    exact List.nodup_range'
  -- the rows of a query are those of the requests of its data file
  have hgroup : ∀ group ∈ groupWindowRequestsByDataFile dataset windows.requests,
      (SourceQuery.window (buildVideoWindowQuery group.2 windows.deltas windows.summary.length
        (dataset.dataFiles.getD group.1 []) (sortUnique (group.2.map LerobotVideoWindowRequest.episodeIndex)))).rows
          frames = group.2.flatMap (requestRows frames dataset windows) := by
    intro group hmem
    have hfilter := (hspec.group group hmem).1
    have hordinals : (group.2.map LerobotVideoWindowRequest.requestOrdinal).Nodup := by
      rw [hfilter]
      exact hnodup.sublist (List.filter_sublist.map _)
    rw [(selects_buildVideoWindowQuery _ _ _ hordinals).rows_eq, buildVideoWindowQuery, requestedTargets,
      List.flatMap_assoc]
    apply List.flatMap_congr
    intro request hrequest
    rw [hfilter, List.mem_filter, decide_eq_true_iff] at hrequest
    obtain ⟨episodeRoute, hroute, hindex⟩ := Option.map_eq_some_iff.mp hrequest.2
    have hfile : episodeFile dataset request.episodeIndex = dataset.dataFiles.getD group.1 [] := by
      rw [episodeFile, hroute, ← hindex]
      rfl
    rw [requestRows, hfile, List.flatMap_map]
  -- no request is left out: every episode that is asked for has a data file
  have hall : windows.requests.filter (fun request =>
      ((dataset.findEpisodeRoute request.episodeIndex).map LerobotEpisodeRoute.dataFileIndex).isSome) =
        windows.requests := by
    rw [List.filter_eq_self]
    intro request hrequest
    obtain ⟨episodeRoute, hroute⟩ := h.routed hversion hkeys hrequest
    rw [hroute]
    rfl
  have hperm := groupBy_perm (fun request : LerobotVideoWindowRequest =>
    (dataset.findEpisodeRoute request.episodeIndex).map LerobotEpisodeRoute.dataFileIndex) windows.requests
  rw [hall] at hperm
  rw [windowQueries, List.flatMap_map, List.flatMap_congr hgroup, ← List.flatMap_assoc]
  exact hperm.flatMap_right _

end Queries

end DuckdbLerobot.Video
