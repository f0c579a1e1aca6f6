import DuckdbLerobot.Storage.InfoFeatures
import DuckdbLerobot.Storage.VideoRoutes

/-!
# Lookups in the route tables

`LerobotDatasetMetadata::Load` and `LerobotVideoMetadata::Load` build their tables from the rows of a
query, which come in chunks and in any order. The tables are exact for these rows
(`episodeTable_exact`), and the two lookups of a table agree with it and with each other
(`videoLookups_agree`).
-/

set_option autoImplicit false

namespace DuckdbLerobot.Storage

open DuckdbLerobot.Library DuckdbLerobot.Path DuckdbLerobot.Video DuckdbLerobot.Copy

namespace LerobotDatasetMetadata

/-! ## Routes of episodes -/

/-- The two loops of `Load`, over the chunks of the result and over the rows of a chunk. -/
def addEpisodeChunks (root : Text) (info : LerobotDatasetInfo) (table : RouteTable)
    (chunks : List (List EpisodeRow)) : Except BinderException RouteTable :=
  chunks.foldlM (fun table chunk => chunk.foldlM (addEpisodeRow root info) table) table

/-- How the rows are cut into chunks does not matter. -/
theorem addEpisodeChunks_eq (root : Text) (info : LerobotDatasetInfo) (table : RouteTable)
    (chunks : List (List EpisodeRow)) :
    addEpisodeChunks root info table chunks = chunks.flatten.foldlM (addEpisodeRow root info) table := by
  unfold addEpisodeChunks
  induction chunks generalizing table with
  | nil => rfl
  | cons chunk chunks ih =>
      rw [List.foldlM_cons, List.flatten_cons, List.foldlM_append]
      congr 1
      funext table
      exact ih table

/-- `Load`, from the chunks of the result of its query. -/
def loadChunks (sort : StdSort episodeRouteLess) (root : Text) (infoFingerprint : FileFingerprint)
    (info : LerobotDatasetInfo) (episodeFiles : List MetadataFile)
    (chunks : List (List EpisodeRow)) : Except BinderException LerobotDatasetMetadata :=
  if info.totalEpisodes = 0 then
    .ok { root := root, info := info, infoFingerprint := infoFingerprint }
  else do
    let dataFiles := if info.isLance then [root ++ "/frames.lance".toList] else []
    let table ← addEpisodeChunks root info { dataFiles := dataFiles } chunks
    let routes := sort.run table.routes
    match duplicateEpisode routes with
    | some episodeIndex =>
        .error ⟨s!"Duplicate LeRobot episode_index {episodeIndex} in episode metadata"⟩
    | none =>
        if (routes.length : Int) ≠ info.totalEpisodes then
          .error ⟨s!"LeRobot info.json declares {info.totalEpisodes} episodes, but episode " ++
            s!"metadata contains {routes.length} rows"⟩
        else do
          let routed ← routedFrames routes
          if routed ≠ info.totalFrames then
            .error ⟨s!"LeRobot info.json declares {info.totalFrames} frames, but episode " ++
              s!"metadata contains {routed} frames"⟩
          else
            .ok ⟨root, info, routes, table.dataFiles, infoFingerprint, episodeFiles⟩

theorem loadChunks_eq (sort : StdSort episodeRouteLess) (root : Text)
    (infoFingerprint : FileFingerprint) (info : LerobotDatasetInfo)
    (episodeFiles : List MetadataFile) (chunks : List (List EpisodeRow)) :
    loadChunks sort root infoFingerprint info episodeFiles chunks =
      load sort root infoFingerprint info episodeFiles chunks.flatten := by
  unfold loadChunks
  simp only [addEpisodeChunks_eq]
  rfl

/-- What `Load` has checked of the rows of a dataset with episodes. -/
structure RowsAccepted (info : LerobotDatasetInfo) (rows : List EpisodeRow) : Prop where
  indexes : ∃ indexes : List Int, rows.map EpisodeRow.episodeIndex = indexes.map some ∧
    indexes.Nodup ∧ ∀ index ∈ indexes, 0 ≤ index
  lengths : ∃ lengths : List Int, rows.map EpisodeRow.length = lengths.map some ∧
    (∀ length ∈ lengths, 0 < length) ∧ lengths.sum = info.totalFrames ∧
    lengths.sum ≤ int64Maximum
  count : (rows.length : Int) = info.totalEpisodes

/-- The table has the routes of the rows, with their files. -/
structure RoutesOfRows (root : Text) (info : LerobotDatasetInfo) (rows : List EpisodeRow)
    (metadata : LerobotDatasetMetadata) : Prop where
  sound : ∀ route ∈ metadata.routes, ∃ row ∈ rows, RouteOf root info metadata.dataFiles row route
  complete : ∀ row ∈ rows, ∃ route ∈ metadata.routes,
    RouteOf root info metadata.dataFiles row route

/-- The file of a route is the one that its row expands to. -/
theorem RouteOf.dataFile_eq {root : Text} {info : LerobotDatasetInfo} {row : EpisodeRow}
    {route : LerobotEpisodeRoute} {metadata : LerobotDatasetMetadata}
    (h : RouteOf root info metadata.dataFiles row route) (hlance : info.isLance = false) :
    ∃ chunkIndex fileIndex, row.chunkIndex = some chunkIndex ∧ row.fileIndex = some fileIndex ∧
      resolveDataPath root info.dataPathTemplate chunkIndex fileIndex =
        .ok (metadata.dataFile route) := by
  obtain ⟨chunkIndex, fileIndex, path, hchunk, hfile, hpath, hget⟩ := h.parquet hlance
  refine ⟨chunkIndex, fileIndex, hchunk, hfile, ?_⟩
  rw [hpath, dataFile, List.getD_eq_getElem?_getD, hget, Option.getD_some]

/-- The check of the sum lets through what fits in `int64_t`. -/
theorem routedFrames_eq_ok {routes : List LerobotEpisodeRoute} {total : Int}
    (h : routedFrames routes = .ok total) :
    total = (routes.map LerobotEpisodeRoute.episodeLength).sum ∧
      (routes ≠ [] → total ≤ int64Maximum) := by
  refine foldlM_ok (I := fun seen routed =>
    routed = (seen.map LerobotEpisodeRoute.episodeLength).sum ∧
      (seen ≠ [] → routed ≤ int64Maximum)) h ⟨rfl, fun hne => absurd rfl hne⟩ ?_
  rintro seen route rest routed routed' - ⟨rfl, -⟩ hround
  rw [except_check_eq_ok, not_lt] at hround
  obtain ⟨hfits, hround⟩ := hround
  cases hround
  refine ⟨by simp, fun _ => ?_⟩
  linarith

/-- The columns of the rows are those of their routes. -/
theorem columns_eq_of_routes {root : Text} {info : LerobotDatasetInfo} {dataFiles : List Text}
    {rows : List EpisodeRow} {routes : List LerobotEpisodeRoute}
    (h : List.Forall₂ (RouteOf root info dataFiles) rows routes) :
    rows.map EpisodeRow.episodeIndex = (routes.map LerobotEpisodeRoute.episodeIndex).map some ∧
      rows.map EpisodeRow.length = (routes.map LerobotEpisodeRoute.episodeLength).map some := by
  induction h with
  | nil => exact ⟨rfl, rfl⟩
  | cons hrow _ ih =>
      simp only [List.map_cons, hrow.episodeIndex, hrow.episodeLength, ih.1, ih.2, and_self]

/-- **The rows of a dataset with episodes that loads are accepted.** -/
theorem LoadedFrom.rowsAccepted {root : Text} {infoFingerprint : FileFingerprint}
    {info : LerobotDatasetInfo} {episodeFiles : List MetadataFile} {rows : List EpisodeRow}
    {metadata : LerobotDatasetMetadata}
    (h : LoadedFrom root infoFingerprint info episodeFiles rows metadata)
    (hepisodes : info.totalEpisodes ≠ 0) : RowsAccepted info rows := by
  obtain ⟨routes, hrows, hperm⟩ := h.routes
  have hlength : rows.length = metadata.routes.length := by rw [hrows.length_eq, hperm.length_eq]
  have hcolumns := columns_eq_of_routes hrows
  have hof : ∀ route ∈ routes, 0 ≤ route.episodeIndex ∧ 0 < route.episodeLength := by
    intro route hroute
    obtain ⟨row, -, hrow⟩ := exists_left_of_forall₂ hrows hroute
    exact ⟨hrow.nonnegative, hrow.positive⟩
  obtain ⟨hsum, hfits⟩ := routedFrames_eq_ok h.frames
  have hsum' : (routes.map LerobotEpisodeRoute.episodeLength).sum = info.totalFrames := by
    rw [hsum]
    exact ((hperm.map _).sum_eq).symm
  refine ⟨⟨_, hcolumns.1, ?_, ?_⟩, ⟨_, hcolumns.2, ?_, hsum', ?_⟩, ?_⟩
  · apply ((hperm.map LerobotEpisodeRoute.episodeIndex).nodup_iff).mp
    apply List.pairwise_map.mpr
    exact h.sorted.imp fun hlt => ne_of_lt hlt
  · intro index hindex
    obtain ⟨route, hroute, rfl⟩ := List.mem_map.mp hindex
    exact (hof route hroute).1
  · intro length hmem
    obtain ⟨route, hroute, rfl⟩ := List.mem_map.mp hmem
    exact (hof route hroute).2
  · rw [hsum']
    apply hfits
    intro hnil
    apply hepisodes
    rw [← h.count, hnil]
    rfl
  · rw [hlength]
    exact h.count

theorem LoadedFrom.routesOfRows {root : Text} {infoFingerprint : FileFingerprint}
    {info : LerobotDatasetInfo} {episodeFiles : List MetadataFile} {rows : List EpisodeRow}
    {metadata : LerobotDatasetMetadata}
    (h : LoadedFrom root infoFingerprint info episodeFiles rows metadata) :
    RoutesOfRows root info rows metadata := by
  obtain ⟨routes, hrows, hperm⟩ := h.routes
  constructor
  · intro route hroute
    exact exists_left_of_forall₂ hrows (hperm.mem_iff.mp hroute)
  · intro row hrow
    obtain ⟨route, hroute, hof⟩ := exists_right_of_forall₂ hrows hrow
    exact ⟨route, hperm.mem_iff.mpr hroute, hof⟩

/-- `ResolveDataFiles` returns the files of the listed episodes, strictly sorted. -/
theorem resolveDataFiles_exact {metadata : LerobotDatasetMetadata} (hvalid : metadata.RoutesValid)
    (episodeIndices : List Int) :
    (metadata.resolveDataFiles episodeIndices).Pairwise (· < ·) ∧
      ∀ path, path ∈ metadata.resolveDataFiles episodeIndices ↔
        ∃ route ∈ metadata.routes, route.episodeIndex ∈ episodeIndices ∧
          metadata.dataFile route = path := by
  constructor
  · have hsorted : (metadata.resolveDataFiles episodeIndices).Pairwise (· ≤ ·) :=
      List.pairwise_insertionSort (· ≤ ·) _
    exact hsorted.imp₂ (fun _ _ => lt_of_le_of_ne) (nodup_resolveDataFiles episodeIndices)
  · intro path
    rw [mem_resolveDataFiles]
    constructor
    · rintro ⟨episodeIndex, hlisted, route, hfind, hpath⟩
      obtain ⟨hroute, rfl⟩ := (findEpisodeRoute_eq_some hvalid).mp hfind
      exact ⟨route, hroute, hlisted, hpath⟩
    · rintro ⟨route, hroute, hlisted, hpath⟩
      exact ⟨_, hlisted, route, (findEpisodeRoute_eq_some hvalid).mpr ⟨hroute, rfl⟩, hpath⟩

/-- **A loaded route table is exact for its rows, and so are its lookups.** A dataset without
episodes has an empty table, whatever rows there are. -/
theorem episodeTable_exact (sort : StdSort episodeRouteLess) (root : Text)
    (infoFingerprint : FileFingerprint) (info : LerobotDatasetInfo)
    (episodeFiles : List MetadataFile) (chunks : List (List EpisodeRow))
    (metadata : LerobotDatasetMetadata) (hparquet : info.isLance = false)
    (h : loadChunks sort root infoFingerprint info episodeFiles chunks = .ok metadata) :
    (info.totalEpisodes = 0 → metadata.routes = [] ∧ metadata.dataFiles = []) ∧
      (info.totalEpisodes ≠ 0 → RowsAccepted info chunks.flatten ∧
        (∀ route ∈ metadata.routes, ∃ row ∈ chunks.flatten, ∃ chunkIndex fileIndex,
          row.episodeIndex = some route.episodeIndex ∧ row.length = some route.episodeLength ∧
          row.chunkIndex = some chunkIndex ∧ row.fileIndex = some fileIndex ∧
          resolveDataPath root info.dataPathTemplate chunkIndex fileIndex =
            .ok (metadata.dataFile route)) ∧
        ∀ row ∈ chunks.flatten, ∃ route ∈ metadata.routes,
          row.episodeIndex = some route.episodeIndex) ∧
      metadata.routes.Pairwise (fun a b => a.episodeIndex < b.episodeIndex) ∧
      (∀ route ∈ metadata.routes, route.dataFileIndex < metadata.dataFiles.length) ∧
      metadata.dataFiles.Nodup ∧
      (∀ episodeIndex route, metadata.findEpisodeRoute episodeIndex = some route ↔
        route ∈ metadata.routes ∧ route.episodeIndex = episodeIndex) ∧
      ∀ episodeIndices, (metadata.resolveDataFiles episodeIndices).Pairwise (· < ·) ∧
        ∀ path, path ∈ metadata.resolveDataFiles episodeIndices ↔
          ∃ route ∈ metadata.routes, route.episodeIndex ∈ episodeIndices ∧
            metadata.dataFile route = path := by
  rw [loadChunks_eq] at h
  have hvalid := valid_of_load hparquet h
  refine ⟨?_, ?_, hvalid.sorted, hvalid.fileIndex, hvalid.filesNodup,
    fun _ _ => findEpisodeRoute_eq_some hvalid, resolveDataFiles_exact hvalid⟩
  · intro hzero
    rw [load, if_pos hzero] at h
    cases h
    exact ⟨rfl, rfl⟩
  · intro hepisodes
    have hloaded := loadedFrom_of_load hepisodes h
    have hroutes := hloaded.routesOfRows
    refine ⟨hloaded.rowsAccepted hepisodes, ?_, ?_⟩
    · intro route hroute
      obtain ⟨row, hmem, hrow⟩ := hroutes.sound route hroute
      obtain ⟨chunkIndex, fileIndex, hchunk, hfile, hpath⟩ := hrow.dataFile_eq hparquet
      exact ⟨row, hmem, chunkIndex, fileIndex, hrow.episodeIndex, hrow.episodeLength, hchunk, hfile,
        hpath⟩
    · intro row hmem
      obtain ⟨route, hroute, hrow⟩ := hroutes.complete row hmem
      exact ⟨route, hroute, hrow.episodeIndex⟩

/-- A manifest with the given counts of episodes and frames. -/
def armInfo (totalEpisodes totalFrames : Int) : LerobotDatasetInfo where
  codebaseVersion := "v3.0"
  dataPathTemplate := "data/file-\x7bfile_index\x7d.parquet".toList
  fps := 30
  totalEpisodes := totalEpisodes
  totalFrames := totalFrames

/-- The row of an episode. -/
def armRow (episodeIndex length : Int) : EpisodeRow where
  episodeIndex := some episodeIndex
  length := some length
  chunkIndex := some 0
  fileIndex := some episodeIndex
  video _ := ⟨none, none, none, none⟩

/-- What `Load` returns for two episodes whose rows come in two chunks. -/
def armDataset : LerobotDatasetMetadata where
  root := "arm".toList
  info := armInfo 2 5
  routes := [⟨0, 2, 1⟩, ⟨1, 3, 0⟩]
  dataFiles := ["arm/data/file-1.parquet".toList, "arm/data/file-0.parquet".toList]
  infoFingerprint := ⟨0, 0, []⟩

theorem armDataset_lookups :
    armDataset.routes.Pairwise (fun a b => a.episodeIndex < b.episodeIndex) ∧
      RowsAccepted (armInfo 2 5) [armRow 1 3, armRow 0 2] := by
  have h := episodeTable_exact (StdSort.byKey LerobotEpisodeRoute.episodeIndex) "arm".toList
    ⟨0, 0, []⟩ (armInfo 2 5) [] [[armRow 1 3], [], [armRow 0 2]] armDataset (by decide) (by rfl)
  exact ⟨h.2.2.1, (h.2.1 (by decide)).1⟩

/-- The row of a manifest without episodes, with one feature. -/
def emptyInfoRow : InfoRow where
  recordIndex := some 1
  fields :=
    { codebaseVersion := some "v3.0"
      dataPath := some "data/file-\x7bfile_index\x7d.parquet".toList
      videoPath := none
      fps := some 30
      totalEpisodes := some 0
      totalFrames := some 0
      totalTasks := some 0
      storageFormat := none }
  feature := some
    { key := "state".toList, dtype := some "float32", shape := some [some 2], isDepthMap := none,
      depthMin := none, depthMax := none, shift := none, useLog := none, pixelFormat := none,
      infoDepthMarker := none, videoInfoDepthMarker := none }

/-- The row query of a dataset without episodes is never run, so a dataset with a row too many loads. -/
theorem emptyDataset_rowsIgnored :
    ∃ info metadata,
      parseLerobotInfo .exact id "arm/meta/info.json".toList [emptyInfoRow] = .ok info ∧
      info.isLance = false ∧
      loadChunks (StdSort.byKey LerobotEpisodeRoute.episodeIndex) "arm".toList ⟨0, 0, []⟩ info []
        [[armRow 0 2]] = .ok metadata ∧
      ¬RowsAccepted info [armRow 0 2] := by
  have hparse : ((parseLerobotInfo .exact id "arm/meta/info.json".toList [emptyInfoRow]).toOption.any
      fun info => info.totalEpisodes == 0 && !info.isLance) = true := by
    decide +kernel
  cases hinfo : parseLerobotInfo .exact id "arm/meta/info.json".toList [emptyInfoRow] with
  | error e =>
      rw [hinfo] at hparse
      cases hparse
  | ok info =>
      rw [hinfo] at hparse
      simp only [Except.toOption, Option.any_some, Bool.and_eq_true, beq_iff_eq,
        Bool.not_eq_true'] at hparse
      obtain ⟨hzero, hlance⟩ := hparse
      refine ⟨info, _, rfl, hlance, if_pos hzero, ?_⟩
      intro haccepted
      have hcount := haccepted.count
      rw [hzero] at hcount
      exact absurd hcount (by decide)

end LerobotDatasetMetadata

/-! ## The order of the video features -/

/-- What the loop of `ParseLerobotInfo` keeps of the names. -/
structure NamesDistinct (parse : InfoParse) : Prop where
  features : (parse.features.map ParsedLerobotFeature.name).Nodup
  videos : (parse.videos.map Prod.fst).Sublist (parse.features.map ParsedLerobotFeature.name)

theorem parseInfoFeature_fresh {names : List Text} {fields : InfoFeatureFields}
    {feature : ParsedLerobotFeature} (h : parseInfoFeature names fields = .ok feature) :
    feature.name ∉ names := by
  unfold parseInfoFeature at h
  split at h
  · cases h
  · simp only [except_bind_eq_ok, refuse_eq_ok] at h
    obtain ⟨-, -, -, hfresh, _, -, h⟩ := h
    cases h
    intro hmem
    apply hfresh
    rw [List.any_eq_true]
    exact ⟨_, hmem, by simp [ciEquals]⟩

theorem NamesDistinct.addInfoFeature {arithmetic : Arithmetic} {log : ℚ → ℚ}
    {parse parse' : InfoParse} {fields : InfoFeatureFields} (h : NamesDistinct parse)
    (hadd : addInfoFeature arithmetic log parse fields = .ok parse') : NamesDistinct parse' := by
  unfold DuckdbLerobot.Storage.addInfoFeature at hadd
  obtain ⟨feature, hfeature, hadd⟩ := except_bind_eq_ok.mp hadd
  have hfresh := parseInfoFeature_fresh hfeature
  have hnodup : ((parse.features ++ [feature]).map ParsedLerobotFeature.name).Nodup := by
    rw [List.map_append, List.map_singleton, ← List.concat_eq_append, List.nodup_concat]
    exact ⟨hfresh, h.features⟩
  split at hadd
  · cases hadd
    refine ⟨hnodup, ?_⟩
    rw [List.map_append]
    exact h.videos.trans (List.sublist_append_left _ _)
  · obtain ⟨metadata, -, hadd⟩ := except_bind_eq_ok.mp hadd
    cases hadd
    refine ⟨hnodup, ?_⟩
    rw [List.map_append, List.map_append]
    exact h.videos.append (List.Sublist.refl _)

theorem NamesDistinct.parseInfoRow {arithmetic : Arithmetic} {log : ℚ → ℚ} {infoPath : Text}
    {parse parse' : InfoParse} {row : InfoRow} (h : NamesDistinct parse)
    (hrow : parseInfoRow arithmetic log infoPath parse row = .ok parse') : NamesDistinct parse' := by
  unfold DuckdbLerobot.Storage.parseInfoRow at hrow
  simp only [except_bind_eq_ok, refuse_eq_ok] at hrow
  obtain ⟨-, -, -, -, info, -, hrow⟩ := hrow
  have hkeep : NamesDistinct { parse with info := some info } := ⟨h.features, h.videos⟩
  split at hrow
  · cases hrow
    exact hkeep
  · exact hkeep.addInfoFeature hrow

/-- The schemas are all that is added to the manifest after its keys. -/
theorem videoKeys_of_addFrameColumn {info info' : LerobotDatasetInfo} {feature : ParsedLerobotFeature}
    (h : addFrameColumn info feature = .ok info') : info'.videoKeys = info.videoKeys := by
  unfold addFrameColumn at h
  simp only [except_bind_eq_ok, refuse_eq_ok] at h
  obtain ⟨-, -, -, -, -, -, -, -, h⟩ := h
  split at h
  · cases h
    rfl
  · split at h
    · obtain ⟨type, -, h⟩ := except_bind_eq_ok.mp h
      cases h
      rfl
    · cases h
      rfl

theorem videoKeys_of_buildFrameSchema {info info' : LerobotDatasetInfo}
    {features : List ParsedLerobotFeature} (h : buildFrameSchema info features = .ok info') :
    info'.videoKeys = info.videoKeys := by
  unfold buildFrameSchema at h
  obtain ⟨-, -, h⟩ := except_bind_eq_ok.mp h
  refine foldlM_ok (I := fun _ current => current.videoKeys = info.videoKeys) h rfl ?_
  intro _ _ _ current current' _ hI hround
  exact (videoKeys_of_addFrameColumn hround).trans hI

theorem videoKeys_of_buildSchemas {info info' : LerobotDatasetInfo}
    {features : List ParsedLerobotFeature} (h : buildSchemas info features = .ok info') :
    info'.videoKeys = info.videoKeys := by
  unfold buildSchemas at h
  split at h
  · unfold buildEmptyDatasetSchemas at h
    simp only [except_bind_eq_ok] at h
    obtain ⟨info₁, hframes, _, -, h⟩ := h
    have hkeep := videoKeys_of_buildFrameSchema hframes
    cases h
    exact hkeep
  · split at h
    · exact videoKeys_of_buildFrameSchema h
    · cases h
      rfl

/-- **The keys of the video features in a manifest are sorted and distinct.** -/
theorem pairwise_videoKeys {arithmetic : Arithmetic} {log : ℚ → ℚ} {infoPath : Text}
    {rows : List InfoRow} {info : LerobotDatasetInfo}
    (h : parseLerobotInfo arithmetic log infoPath rows = .ok info) :
    info.videoKeys.Pairwise (· < ·) := by
  unfold parseLerobotInfo at h
  obtain ⟨parse, hparse, h⟩ := except_bind_eq_ok.mp h
  have hnames : NamesDistinct parse :=
    foldlM_ok (I := fun _ parse => NamesDistinct parse) hparse ⟨List.nodup_nil, List.Sublist.refl _⟩
      fun _ _ _ _ _ _ hI hround => hI.parseInfoRow hround
  split at h
  · cases h
  · rename_i info₀ hinfo₀
    simp only [except_bind_eq_ok, refuse_eq_ok] at h
    obtain ⟨-, -, -, -, info₁, hschemas, h⟩ := h
    have hkeys := videoKeys_of_buildSchemas hschemas
    have hsame : info = info₁ := by
      split at h
      · simp only [except_bind_eq_ok] at h
        obtain ⟨-, -, h⟩ := h
        cases h
        rfl
      · cases h
        rfl
    rw [hsame, hkeys]
    -- sorted by `std::sort`, and distinct because the names of all features are
    have hsorted : (parse.videos.mergeSort fun left right => decide (left.1 ≤ right.1)).Pairwise
        fun left right => decide (left.1 ≤ right.1) = true :=
      List.pairwise_mergeSort (by simpa using fun a _ b _ c _ => @le_trans _ _ a b c)
        (by simpa using fun a _ b _ => le_total a b) parse.videos
    have hnodup : ((parse.videos.mergeSort fun left right => decide (left.1 ≤ right.1)).map
        Prod.fst).Nodup :=
      ((List.mergeSort_perm _ _).map Prod.fst).nodup_iff.mpr (hnames.features.sublist hnames.videos)
    have hle : ((parse.videos.mergeSort fun left right => decide (left.1 ≤ right.1)).map
        Prod.fst).Pairwise (· ≤ ·) := by
      apply List.pairwise_map.mpr
      exact hsorted.imp fun hle => by simpa using hle
    exact hle.imp₂ (fun _ _ => lt_of_le_of_ne) hnodup

namespace LerobotVideoMetadata

/-! ## The files of the video routes -/

/-- The files of a table are distinct, and each of them has a route. -/
structure FilesUsed (table : RouteTable) : Prop where
  filesNodup : table.videoFiles.Nodup
  filesUsed : ∀ index < table.videoFiles.length, ∃ route ∈ table.routes,
    route.videoFileIndex = index

theorem FilesUsed.addRoute {table table' : RouteTable} {videoKeys : List Text} {path : Text}
    {route : Nat → Video.LerobotVideoRoute} {videoKeyIndex : Nat} (h : FilesUsed table)
    (hfile : ∀ index, (route index).videoFileIndex = index)
    (hadd : table.addRoute videoKeys path route videoKeyIndex = .ok table') : FilesUsed table' := by
  obtain ⟨-, -, hnodup, hnew⟩ := indexOrAppend_spec table.videoFiles path
  have hfiles : ∃ keyIndices, table' = ⟨table.routes ++
      [route (indexOrAppend table.videoFiles path).1], (indexOrAppend table.videoFiles path).2,
      keyIndices⟩ := by
    unfold RouteTable.addRoute at hadd
    dsimp only at hadd
    split at hadd
    · cases hadd
      exact ⟨_, rfl⟩
    · rw [except_check_eq_ok] at hadd
      cases hadd.2
      exact ⟨_, rfl⟩
  obtain ⟨keyIndices, rfl⟩ := hfiles
  refine ⟨hnodup h.filesNodup, ?_⟩
  intro index hindex
  rcases hnew index hindex with hold | rfl
  · obtain ⟨old, hmem, hold⟩ := h.filesUsed index hold
    exact ⟨old, List.mem_append_left _ hmem, hold⟩
  · exact ⟨_, List.mem_append_right _ (List.mem_singleton_self _), hfile _⟩

theorem FilesUsed.addVideoColumns {dataset : LerobotDatasetMetadata}
    {lanceVideos : AList fun _ : LanceKey => Text} {table table' : RouteTable} {row : EpisodeRow}
    {episodeIndex episodeLength : Int} {entry : Text × Nat} (h : FilesUsed table)
    (hadd : addVideoColumns dataset lanceVideos row episodeIndex episodeLength table entry =
      .ok table') : FilesUsed table' := by
  unfold LerobotVideoMetadata.addVideoColumns at hadd
  dsimp only at hadd
  split at hadd
  · cases hadd
    exact h
  · rw [except_check_eq_ok] at hadd
    obtain ⟨-, hadd⟩ := hadd
    split at hadd
    · cases hadd
    · obtain ⟨path, -, hadd⟩ := except_bind_eq_ok.mp hadd
      exact h.addRoute (fun _ => rfl) hadd
  · cases hadd

theorem FilesUsed.addEpisodeRow {dataset : LerobotDatasetMetadata}
    {lanceVideos : AList fun _ : LanceKey => Text} {table table' : RouteTable} {row : EpisodeRow}
    (h : FilesUsed table) (hadd : addEpisodeRow dataset lanceVideos table row = .ok table') :
    FilesUsed table' := by
  unfold LerobotVideoMetadata.addEpisodeRow at hadd
  split at hadd
  · simp only [except_check_eq_ok] at hadd
    obtain ⟨-, -, hadd⟩ := hadd
    exact foldlM_ok (I := fun _ table => FilesUsed table) hadd h
      fun _ _ _ _ _ _ hI hround => hI.addVideoColumns hround
  · cases hadd

theorem filesUsed_of_load {sort : StdSort videoRouteLess} {dataset : LerobotDatasetMetadata}
    {lanceRows : List LanceVideoRow} {rows : List EpisodeRow} {metadata : LerobotVideoMetadata}
    (h : load sort dataset lanceRows rows = .ok metadata) :
    metadata.videoFiles.Nodup ∧ ∀ index < metadata.videoFiles.length,
      ∃ route ∈ metadata.routes, route.videoFileIndex = index := by
  unfold load at h
  dsimp only at h
  split at h
  · cases h
    exact ⟨List.nodup_nil, by simp⟩
  · obtain ⟨lanceVideos, -, h⟩ := except_bind_eq_ok.mp h
    obtain ⟨table, htable, h⟩ := except_bind_eq_ok.mp h
    have hused : FilesUsed table :=
      foldlM_ok (I := fun _ table => FilesUsed table) htable ⟨List.nodup_nil, by simp⟩
        fun _ _ _ _ _ _ hI hround => hI.addEpisodeRow hround
    split at h
    · cases h
    · cases h
      refine ⟨hused.filesNodup, ?_⟩
      intro index hindex
      obtain ⟨route, hroute, hfile⟩ := hused.filesUsed index hindex
      exact ⟨route, (sort.perm _).mem_iff.mpr hroute, hfile⟩

/-- **Every file of a loaded table shows one feature.** -/
theorem fileKey_unique {metadata : LerobotVideoMetadata} (hvalid : metadata.RoutesValid)
    (hnodup : metadata.videoFiles.Nodup)
    (hused : ∀ index < metadata.videoFiles.length,
      ∃ route ∈ metadata.routes, route.videoFileIndex = index) :
    ∀ path ∈ metadata.videoFiles, ∃! videoKey, ∃ route ∈ metadata.routes,
      metadata.getVideoFile route = path ∧ metadata.getVideoKey route = videoKey := by
  intro path hpath
  have hget : ∀ route ∈ metadata.routes,
      metadata.videoFiles[route.videoFileIndex]? = some (metadata.getVideoFile route) := by
    intro route hroute
    rw [getVideoFile, List.getD_eq_getElem?_getD,
      List.getElem?_eq_getElem (hvalid.fileIndex route hroute), Option.getD_some]
  obtain ⟨index, hindex, hpath⟩ := List.mem_iff_getElem.mp hpath
  obtain ⟨route, hroute, rfl⟩ := hused index hindex
  have hfile := hget route hroute
  rw [List.getElem?_eq_getElem hindex, hpath, Option.some.injEq] at hfile
  refine ⟨metadata.getVideoKey route, ⟨route, hroute, hfile.symm, rfl⟩, ?_⟩
  rintro videoKey ⟨other, hother, hotherFile, rfl⟩
  -- one path is one index, because the paths are distinct
  have hsame : other.videoFileIndex = route.videoFileIndex := by
    apply hnodup.getElem_inj_iff.mp
    · exact Option.some.inj ((List.getElem?_eq_getElem (hvalid.fileIndex other hother)).symm.trans
        ((hget other hother).trans (by rw [hotherFile, hpath])))
  rw [getVideoKey, getVideoKey, hvalid.fileKey other hother route hroute hsame]

/-! ## The lookups of video routes -/

/-- The position of a requested key. -/
def requestedKeyIndex (metadata : LerobotVideoMetadata) (videoKey : Text) :
    Except BinderException Nat :=
  match metadata.videoKeyIndex videoKey with
  | some index => .ok index
  | none => .error ⟨s!"Unknown LeRobot video key '{String.ofList videoKey}'"⟩

/-- `requested_key_indices` of `ResolveRoutes`, sorted and without duplicates. -/
def requestedKeyIndices (metadata : LerobotVideoMetadata) (requestedVideoKeys : List Text) :
    Except BinderException (List Nat) := do
  let indices ← requestedVideoKeys.mapM metadata.requestedKeyIndex
  .ok (sortUnique indices)

/-- `ResolveRoutes`, with the binary search in the requested keys. -/
def resolveRequestedRoutes (metadata : LerobotVideoMetadata) (episodeIndices : List Int)
    (requestedVideoKeys : List Text) : Except BinderException (List Video.LerobotVideoRoute) := do
  let requested ← metadata.requestedKeyIndices requestedVideoKeys
  .ok (episodeIndices.flatMap fun episodeIndex =>
    (metadata.episodeRoutes episodeIndex).filter fun route =>
      binarySearch requested route.videoKeyIndex)

/-- The loops of `ResolveRoutes`, after the keys. -/
theorem resolveRoutes_eq_bind (metadata : LerobotVideoMetadata) (episodeIndices : List Int)
    (requestedVideoKeys : List Text) :
    metadata.resolveRoutes episodeIndices requestedVideoKeys =
      (requestedVideoKeys.mapM metadata.requestedKeyIndex).bind fun indices =>
        .ok (episodeIndices.flatMap fun episodeIndex =>
          (metadata.episodeRoutes episodeIndex).filter fun route =>
            indices.contains route.videoKeyIndex) := rfl

/-- The search finds the same routes as a look at all requested keys. -/
theorem resolveRequestedRoutes_eq (metadata : LerobotVideoMetadata) (episodeIndices : List Int)
    (requestedVideoKeys : List Text) :
    metadata.resolveRequestedRoutes episodeIndices requestedVideoKeys =
      metadata.resolveRoutes episodeIndices requestedVideoKeys := by
  have hsearch : ∀ (indices : List Nat) (index : Nat),
      binarySearch (sortUnique indices) index = indices.contains index := by
    intro indices index
    rw [Bool.eq_iff_iff, binarySearch_iff (pairwise_sortUnique indices), mem_sortUnique,
      List.contains_iff_mem]
  rw [resolveRoutes_eq_bind, resolveRequestedRoutes, requestedKeyIndices]
  cases requestedVideoKeys.mapM metadata.requestedKeyIndex with
  | error e => rfl
  | ok indices =>
      change Except.ok _ = Except.ok _
      simp only [hsearch]

section Lookups

variable {metadata : LerobotVideoMetadata}

/-- The positions of known keys. -/
theorem mapM_videoKeyIndex (hkeys : metadata.videoKeys.Pairwise (· < ·))
    {requestedVideoKeys : List Text}
    (hknown : ∀ videoKey ∈ requestedVideoKeys, videoKey ∈ metadata.videoKeys) :
    ∃ indices, requestedVideoKeys.mapM metadata.requestedKeyIndex = .ok indices ∧
      List.Forall₂ (fun videoKey index => metadata.videoKeys[index]? = some videoKey)
        requestedVideoKeys indices := by
  induction requestedVideoKeys with
  | nil => exact ⟨[], rfl, .nil⟩
  | cons videoKey requestedVideoKeys ih =>
      obtain ⟨indices, hmap, hindices⟩ := ih fun key hkey => hknown key (List.mem_cons_of_mem _ hkey)
      obtain ⟨index, hindex⟩ := List.mem_iff_getElem?.mp (hknown videoKey List.mem_cons_self)
      refine ⟨index :: indices, ?_, .cons hindex hindices⟩
      rw [List.mapM_cons, hmap, requestedKeyIndex, (videoKeyIndex_eq_some hkeys).mpr hindex]
      rfl

/-- The routes of an episode are strictly ordered by feature, and those of later episodes come
behind. -/
theorem pairwise_flatMap_episodeRoutes (hvalid : metadata.RoutesValid) {episodeIndices : List Int}
    (hepisodes : episodeIndices.Pairwise (· < ·)) (requested : Video.LerobotVideoRoute → Bool) :
    (episodeIndices.flatMap fun episodeIndex =>
      (metadata.episodeRoutes episodeIndex).filter requested).Pairwise
        fun a b => routeKey a < routeKey b := by
  have hepisode : ∀ episodeIndex, ∀ route ∈ (metadata.episodeRoutes episodeIndex).filter requested,
      route.episodeIndex = episodeIndex := by
    intro episodeIndex route hroute
    have hmem := List.mem_of_mem_filter hroute
    rw [episodeRoutes_eq hvalid, List.mem_filter, decide_eq_true_iff] at hmem
    exact hmem.2
  rw [List.pairwise_flatMap]
  constructor
  · intro episodeIndex _
    rw [episodeRoutes_eq hvalid]
    exact (hvalid.sorted.filter _).filter _
  · apply hepisodes.imp
    intro first second hlt a ha b hb
    apply Prod.Lex.lt_iff.mpr
    left
    change a.episodeIndex < b.episodeIndex
    rw [hepisode first a ha, hepisode second b hb]
    exact hlt

/-- **`ResolveRoutes` returns the routes of the listed episodes and keys, in the order of the
table.** -/
theorem resolveRoutes_eq_filter (hvalid : metadata.RoutesValid)
    (hkeys : metadata.videoKeys.Pairwise (· < ·)) {episodeIndices : List Int}
    (hepisodes : episodeIndices.Pairwise (· < ·)) {requestedVideoKeys : List Text}
    (hknown : ∀ videoKey ∈ requestedVideoKeys, videoKey ∈ metadata.videoKeys) :
    metadata.resolveRoutes episodeIndices requestedVideoKeys =
      .ok (metadata.routes.filter fun route => decide (route.episodeIndex ∈ episodeIndices ∧
        metadata.getVideoKey route ∈ requestedVideoKeys)) := by
  obtain ⟨indices, hmap, hindices⟩ := mapM_videoKeyIndex hkeys hknown
  have hnodup : metadata.videoKeys.Nodup := hkeys.imp fun hlt => ne_of_lt hlt
  -- a route's position is requested if and only if its key is
  have hrequested : ∀ route ∈ metadata.routes, (route.videoKeyIndex ∈ indices ↔
      metadata.getVideoKey route ∈ requestedVideoKeys) := by
    intro route hroute
    have hlt := hvalid.keyIndex route hroute
    have hget : metadata.videoKeys[route.videoKeyIndex]? = some (metadata.getVideoKey route) := by
      rw [getVideoKey, List.getD_eq_getElem?_getD, List.getElem?_eq_getElem hlt, Option.getD_some]
    constructor
    · intro hmem
      obtain ⟨videoKey, hkey, hindex⟩ := exists_left_of_forall₂ hindices hmem
      rw [hget, Option.some.injEq] at hindex
      rw [hindex]
      exact hkey
    · intro hmem
      obtain ⟨index, hindex, hkey⟩ := exists_right_of_forall₂ hindices hmem
      rw [← hget] at hkey
      rw [(List.getElem?_inj hlt hnodup).mp hkey.symm]
      exact hindex
  rw [resolveRoutes_eq_bind, hmap]
  change Except.ok _ = Except.ok _
  congr 1
  refine eq_of_pairwise_key (pairwise_flatMap_episodeRoutes hvalid hepisodes _)
    (hvalid.sorted.filter _) ?_
  intro route
  rw [List.mem_flatMap, List.mem_filter, decide_eq_true_iff]
  constructor
  · rintro ⟨episodeIndex, hlisted, hroute⟩
    rw [List.mem_filter, episodeRoutes_eq hvalid, List.mem_filter, decide_eq_true_iff,
      List.contains_iff_mem] at hroute
    obtain ⟨⟨hmem, rfl⟩, hindex⟩ := hroute
    exact ⟨hmem, hlisted, (hrequested route hmem).mp hindex⟩
  · rintro ⟨hmem, hlisted, hkey⟩
    refine ⟨route.episodeIndex, hlisted, ?_⟩
    rw [List.mem_filter, episodeRoutes_eq hvalid, List.mem_filter, decide_eq_true_iff,
      List.contains_iff_mem]
    exact ⟨⟨hmem, rfl⟩, (hrequested route hmem).mpr hkey⟩

/-- `FindRoute` returns the one route that `ResolveRoutes` returns for its episode and key. -/
theorem resolveRoutes_singleton (hvalid : metadata.RoutesValid)
    (hkeys : metadata.videoKeys.Pairwise (· < ·)) (episodeIndex : Int) {videoKey : Text}
    (hknown : videoKey ∈ metadata.videoKeys) :
    metadata.resolveRoutes [episodeIndex] [videoKey] =
      .ok (metadata.findRoute episodeIndex videoKey).toList := by
  rw [resolveRoutes_eq_filter hvalid hkeys (List.pairwise_singleton _ _) (by simpa using hknown)]
  congr 1
  refine eq_of_pairwise_key (hvalid.sorted.filter _) ?_ ?_
  · cases metadata.findRoute episodeIndex videoKey with
    | none => exact List.Pairwise.nil
    | some route => exact List.pairwise_singleton _ _
  · intro route
    rw [List.mem_filter, decide_eq_true_iff, Option.mem_toList, findRoute_eq_some hvalid hkeys,
      List.mem_singleton, List.mem_singleton]
    apply and_congr_right
    intro hroute
    rw [getVideoKey, List.getD_eq_getElem?_getD, List.getElem?_eq_getElem (hvalid.keyIndex route hroute),
      Option.getD_some, Option.some.injEq]

end Lookups

/-- The manifest of a loaded dataset is the one it was loaded with. -/
theorem info_of_load {sort : StdSort episodeRouteLess} {root : Text}
    {infoFingerprint : FileFingerprint} {info : LerobotDatasetInfo}
    {episodeFiles : List MetadataFile} {rows : List EpisodeRow} {dataset : LerobotDatasetMetadata}
    (h : LerobotDatasetMetadata.load sort root infoFingerprint info episodeFiles rows = .ok dataset) :
    dataset.info = info := by
  by_cases hepisodes : info.totalEpisodes = 0
  · rw [LerobotDatasetMetadata.load, if_pos hepisodes] at h
    cases h
    rfl
  · exact (LerobotDatasetMetadata.loadedFrom_of_load hepisodes h).info_eq

/-- **The two lookups of a loaded table of video routes agree with the table and with each other.** -/
theorem videoLookups_agree {arithmetic : Arithmetic} {log : ℚ → ℚ} {infoPath : Text}
    {infoRows : List InfoRow} {info : LerobotDatasetInfo} {episodeSort : StdSort episodeRouteLess}
    {root : Text} {infoFingerprint : FileFingerprint} {episodeFiles : List MetadataFile}
    {episodeRows : List EpisodeRow} {dataset : LerobotDatasetMetadata}
    {sort : StdSort videoRouteLess} {lanceRows : List LanceVideoRow} {rows : List EpisodeRow}
    {metadata : LerobotVideoMetadata}
    (hinfo : parseLerobotInfo arithmetic log infoPath infoRows = .ok info)
    (hdataset : LerobotDatasetMetadata.load episodeSort root infoFingerprint info episodeFiles
      episodeRows = .ok dataset)
    (hload : load sort dataset lanceRows rows = .ok metadata) :
    metadata.routes.Pairwise (fun a b => toLex (a.episodeIndex, a.videoKeyIndex) <
        toLex (b.episodeIndex, b.videoKeyIndex)) ∧
      (∀ path ∈ metadata.videoFiles, ∃! videoKey, ∃ route ∈ metadata.routes,
        metadata.getVideoFile route = path ∧ metadata.getVideoKey route = videoKey) ∧
      metadata.videoKeys.Pairwise (· < ·) ∧
      (∀ episodeIndex, ∀ videoKey ∈ metadata.videoKeys,
        metadata.resolveRequestedRoutes [episodeIndex] [videoKey] =
          .ok (metadata.findRoute episodeIndex videoKey).toList) ∧
      ∀ episodeIndices requestedVideoKeys, episodeIndices.Pairwise (· < ·) →
        (∀ videoKey ∈ requestedVideoKeys, videoKey ∈ metadata.videoKeys) →
        metadata.resolveRequestedRoutes episodeIndices requestedVideoKeys =
          .ok (metadata.routes.filter fun route => decide (route.episodeIndex ∈ episodeIndices ∧
            metadata.getVideoKey route ∈ requestedVideoKeys)) := by
  have hloaded := loadedFrom_of_load hload
  have hkeys : metadata.videoKeys.Pairwise (· < ·) := by
    rw [hloaded.videoKeys_eq, info_of_load hdataset]
    exact pairwise_videoKeys hinfo
  obtain ⟨hnodup, hused⟩ := filesUsed_of_load hload
  refine ⟨hloaded.valid.sorted, fileKey_unique hloaded.valid hnodup hused, hkeys, ?_, ?_⟩
  · intro episodeIndex videoKey hknown
    rw [resolveRequestedRoutes_eq]
    exact resolveRoutes_singleton hloaded.valid hkeys episodeIndex hknown
  · intro episodeIndices requestedVideoKeys hepisodes hknown
    rw [resolveRequestedRoutes_eq]
    exact resolveRoutes_eq_filter hloaded.valid hkeys hepisodes hknown

/-- A manifest with one video feature, of two episodes. -/
def armInfoRow : InfoRow where
  recordIndex := some 1
  fields :=
    { codebaseVersion := some "v3.0"
      dataPath := some "data/file-\x7bfile_index\x7d.parquet".toList
      videoPath := some "videos/\x7bvideo_key\x7d/file-\x7bfile_index\x7d.mp4".toList
      fps := some 30
      totalEpisodes := some 2
      totalFrames := some 5
      totalTasks := some 1
      storageFormat := none }
  feature := some
    { key := "front".toList, dtype := some "video", shape := some [some 480, some 640, some 3],
      isDepthMap := none, depthMin := none, depthMax := none, shift := none, useLog := none,
      pixelFormat := none, infoDepthMarker := none, videoInfoDepthMarker := none }

/-- An episode whose video is the first file of the feature, or none. -/
def armVideoRow (episodeIndex length : Int) (present : Bool) : EpisodeRow :=
  { LerobotDatasetMetadata.armRow episodeIndex length with
    video := fun _ =>
      if present then ⟨some 0, some 0, some (.finite 0), some (.finite 1)⟩
      else ⟨none, none, none, none⟩ }

/-- The video routes of the two episodes, of which the first one has no video. -/
def armVideoTable : Except BinderException LerobotVideoMetadata := do
  let rows := [armVideoRow 1 3 true, armVideoRow 0 2 false]
  let info ← parseLerobotInfo .exact id "arm/meta/info.json".toList [armInfoRow]
  let dataset ← LerobotDatasetMetadata.load (StdSort.byKey LerobotEpisodeRoute.episodeIndex)
    "arm".toList ⟨0, 0, []⟩ info [] rows
  load (StdSort.byKey routeKey) dataset [] rows

theorem armVideoTable_lookups :
    ∃ metadata, armVideoTable = .ok metadata ∧ metadata.routes.length = 1 ∧
      metadata.resolveRequestedRoutes [0, 1] ["front".toList, "front".toList] =
        .ok (metadata.routes.filter fun route => decide (route.episodeIndex ∈ [0, 1] ∧
          metadata.getVideoKey route ∈ ["front".toList, "front".toList])) := by
  have htable : (armVideoTable.toOption.any fun metadata =>
      metadata.routes.length == 1 && decide (metadata.videoKeys = ["front".toList])) = true := by
    decide +kernel
  cases hload : armVideoTable with
  | error e =>
      rw [hload] at htable
      cases htable
  | ok metadata =>
      rw [hload] at htable
      simp only [Except.toOption, Option.any_some, Bool.and_eq_true, beq_iff_eq,
        decide_eq_true_eq] at htable
      obtain ⟨hlength, hkeys⟩ := htable
      refine ⟨metadata, rfl, hlength, ?_⟩
      obtain ⟨info, hinfo, hload⟩ := except_bind_eq_ok.mp hload
      obtain ⟨dataset, hdataset, hload⟩ := except_bind_eq_ok.mp hload
      apply (videoLookups_agree hinfo hdataset hload).2.2.2.2
      · decide
      · rw [hkeys]
        decide

end LerobotVideoMetadata

end DuckdbLerobot.Storage
