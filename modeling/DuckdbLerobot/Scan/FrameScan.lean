import DuckdbLerobot.Library.OrderedGroups
import DuckdbLerobot.Scan.RoutedRows
import DuckdbLerobot.Storage.VideoRoutes

/-!
# Scans of the frames

`lerobot_scan` binds to a scan of all data files, or of those that the requested episodes are routed
to, with a filter. `lerobot_video_frames` reads the frames of the requested episodes by one query for
each data file. Neither loses or repeats a row (`route_pruning_exact`).
-/

set_option autoImplicit false

namespace DuckdbLerobot.Scan

open DuckdbLerobot.Library DuckdbLerobot.Path DuckdbLerobot.Storage DuckdbLerobot.Video

/-! ## Parameters -/

/-- The loop over a list of indices: `GetEpisodeIndices` and `GetNonNegativeIndices` differ in their
messages only. -/
def collectIndices (nullChild negative : BinderException) :
    List (Option Int) → Except BinderException (List Int)
  | [] => .ok []
  | none :: _ => .error nullChild
  | some index :: children =>
      if index < 0 then .error negative
      else do
        let indices ← collectIndices nullChild negative children
        .ok (index :: indices)

/-- A list parameter of indices, sorted and without duplicates. -/
def indicesParameter (null nullChild negative : BinderException) :
    Option (List (Option Int)) → Except BinderException (List Int)
  | none => .error null
  | some children => do
      let indices ← collectIndices nullChild negative children
      .ok (sortUnique indices)

/-- `GetEpisodeIndices`. -/
def getEpisodeIndices (value : Option (List (Option Int))) (functionName : String) :
    Except BinderException (List Int) :=
  indicesParameter ⟨s!"{functionName} episode_indices must not be NULL"⟩
    ⟨s!"{functionName} episode_indices must not contain NULL"⟩
    ⟨"LeRobot episode indices must be non-negative"⟩ value

/-- `GetNonNegativeIndices`. -/
def getNonNegativeIndices (value : Option (List (Option Int))) (parameterName : String) :
    Except BinderException (List Int) :=
  indicesParameter ⟨s!"lerobot_video_frames {parameterName} must not be NULL"⟩
    ⟨s!"lerobot_video_frames {parameterName} must not contain NULL"⟩
    ⟨s!"LeRobot {parameterName} must be non-negative"⟩ value

/-- What a Parquet scan of the frames is bound to. -/
inductive FrameSource
  | emptyRelation (schema : LerobotScanSchema)
  | parquet (paths : List Text)
  | filtered (paths : List Text) (episodeIndices : List Int)

/-- `LerobotScanBindReplace` for a Parquet dataset. The only option of `read_parquet` that it looks
at is `union_by_name`. -/
def lerobotScanBindReplace (metadata : LerobotDatasetMetadata) (unionByName : Bool)
    (requestedEpisodes : Option (Option (List (Option Int)))) : Except BinderException FrameSource :=
  match requestedEpisodes with
  | none =>
      .ok (if metadata.dataFiles = [] then .emptyRelation metadata.info.frameSchema
        else .parquet metadata.dataFiles)
  | some value => do
      let episodeIndices ← getEpisodeIndices value "lerobot_scan"
      let dataFiles := metadata.resolveDataFiles episodeIndices
      if dataFiles = [] then
        match metadata.dataFiles with
        | [] => .ok (.emptyRelation metadata.info.frameSchema)
        | first :: _ =>
            -- an empty selection keeps the schema of the files
            .ok (.filtered (if unionByName then metadata.dataFiles else [first]) episodeIndices)
      else .ok (.filtered dataFiles episodeIndices)

section Rows

variable {ρ : Type}

/-- The rows of a bound scan: `CreateFilteredFrameScan` filters by an `IN` list, or by `false` when
the list is empty. -/
def FrameSource.rows (store : Text → List ρ) (episodeIndex : ρ → Option Int) :
    FrameSource → Multiset ρ
  | .emptyRelation _ => 0
  | .parquet paths => readParquet store paths
  | .filtered paths [] => (readParquet store paths).filter fun _ => False
  | .filtered paths episodeIndices =>
      (readParquet store paths).filter fun row => isIn (episodeIndex row) episodeIndices = true

/-! ## The queries of `lerobot_video_frames` -/

/-- A query over the frames of one data file. -/
structure FrameQuery where
  file : Text
  episodeIndices : List Int
  frameIndices : Option (List Int)

/-- `GroupEpisodesByDataFile`. -/
def groupEpisodesByDataFile (metadata : LerobotDatasetMetadata) (episodeIndices : List Int) :
    List (Nat × List Int) :=
  groupBy
    (fun episodeIndex =>
      (metadata.findEpisodeRoute episodeIndex).map LerobotEpisodeRoute.dataFileIndex)
    episodeIndices

/-- The frame queries of `LerobotVideoFramesBind`, when it makes any. -/
def frameQueries (metadata : LerobotDatasetMetadata) (episodeIndices : List Int)
    (frameIndices : Option (List Int)) : List FrameQuery :=
  (groupEpisodesByDataFile metadata episodeIndices).map fun partition =>
    ⟨metadata.dataFiles.getD partition.1 [], partition.2, frameIndices⟩

/-- The optional parameter `frame_indices`. -/
def frameFilterParameter :
    Option (Option (List (Option Int))) → Except BinderException (Option (List Int))
  | none => .ok none
  | some value => (getNonNegativeIndices value "frame_indices").map some

/-- `LerobotVideoFramesBind` from the metadata and its parameters: the routes, and the frame queries,
which are only made for a request that has routes and no empty frame filter. -/
def lerobotVideoFramesBind (metadata : LerobotDatasetMetadata) (videoMetadata : LerobotVideoMetadata)
    (requestedEpisodes : Option (List (Option Int))) (videoKeys : List Text)
    (frameFilter : Option (Option (List (Option Int)))) :
    Except BinderException (List LerobotVideoRoute × List FrameQuery) := do
  let episodeIndices ← getNonNegativeIndices requestedEpisodes "episode_indices"
  let routes ← videoMetadata.resolveRoutes episodeIndices videoKeys
  let frameIndices ← frameFilterParameter frameFilter
  .ok (routes,
    if episodeIndices ≠ [] ∧ routes ≠ [] ∧ frameIndices ≠ some [] then
      frameQueries metadata episodeIndices frameIndices
    else [])

/-- The rows that a query reads. -/
def FrameQuery.rows (store : Text → List ρ) (episodeIndex frameIndex : ρ → Option Int)
    (query : FrameQuery) : Multiset ρ :=
  (store query.file : Multiset ρ).filter fun row =>
    isIn (episodeIndex row) query.episodeIndices = true ∧
      query.frameIndices.all (isIn (frameIndex row)) = true

/-! ## Pruned scans -/

variable {metadata : LerobotDatasetMetadata} {store : Text → List ρ}
  {episodeIndex frameIndex : ρ → Option Int}

/-- Without a list of episodes every data file is read. -/
theorem scan_all (store : Text → List ρ) (episodeIndex : ρ → Option Int)
    (metadata : LerobotDatasetMetadata) (unionByName : Bool) :
    ∃ source, lerobotScanBindReplace metadata unionByName none = .ok source ∧
      source.rows store episodeIndex = readParquet store metadata.dataFiles := by
  refine ⟨_, rfl, ?_⟩
  split
  · rename_i hnone
    rw [hnone]
    rfl
  · rfl

/-- **Files that hold the requested episodes.** A selection of files that has every one of these
loses nothing. -/
theorem filter_files (hvalid : metadata.RoutesValid) (hrouted : RowsRouted metadata episodeIndex store)
    {episodes : List Int} {paths : List Text} (hnodup : paths.Nodup)
    (hsub : ∀ path ∈ paths, path ∈ metadata.dataFiles)
    (hfiles : ∀ path ∈ metadata.resolveDataFiles episodes, path ∈ paths) (p : ρ → Prop)
    [DecidablePred p] :
    (paths.map fun path => (store path : Multiset ρ).filter fun row =>
        isIn (episodeIndex row) episodes = true ∧ p row).sum =
      (metadata.dataFiles.map fun path => (store path : Multiset ρ).filter fun row =>
        isIn (episodeIndex row) episodes = true ∧ p row).sum := by
  apply sum_pruned hnodup hvalid.filesNodup hsub
  intro path hpath hnot
  apply Multiset.filter_eq_nil.mpr
  intro row hrow
  have hnone : isIn (episodeIndex row) episodes = false := by
    refine no_rows hrouted hpath ?_ row hrow
    rintro episode hepisode route hfind rfl
    exact hnot (hfiles _ (LerobotDatasetMetadata.mem_resolveDataFiles.mpr
      ⟨episode, hepisode, route, hfind, rfl⟩))
  simp [hnone]

/-- The episodes of a query are those routed to its file. -/
theorem mem_frameQueries (hvalid : metadata.RoutesValid) {episodes : List Int}
    {frames : Option (List Int)} {query : FrameQuery}
    (h : query ∈ frameQueries metadata episodes frames) :
    query.file ∈ metadata.dataFiles ∧ query.frameIndices = frames ∧
      ∀ episode, episode ∈ query.episodeIndices ↔ episode ∈ episodes ∧
        ∃ route, metadata.findEpisodeRoute episode = some route ∧
          metadata.dataFile route = query.file := by
  obtain ⟨⟨index, group⟩, hgroup, rfl⟩ := List.mem_map.mp h
  obtain ⟨hfilter, hne⟩ := (groupBy_spec _ episodes).group _ hgroup
  dsimp only at hfilter hne ⊢
  obtain ⟨first, hfirst⟩ := List.exists_mem_of_ne_nil group hne
  have hmem : ∀ episode, episode ∈ group ↔ episode ∈ episodes ∧ ∃ route,
      metadata.findEpisodeRoute episode = some route ∧ route.dataFileIndex = index := by
    intro episode
    rw [hfilter, List.mem_filter, decide_eq_true_iff, Option.map_eq_some_iff]
  obtain ⟨-, route, hfind, hindex⟩ := (hmem first).mp hfirst
  have hlt : index < metadata.dataFiles.length := by
    rw [← hindex]
    exact hvalid.fileIndex route
      ((LerobotDatasetMetadata.findEpisodeRoute_eq_some hvalid).mp hfind).1
  rw [List.getD_eq_getElem _ _ hlt]
  refine ⟨List.getElem_mem hlt, rfl, ?_⟩
  intro episode
  rw [hmem]
  refine and_congr_right fun _ => exists_congr fun other => and_congr_right fun hother => ?_
  have hother' : other.dataFileIndex < metadata.dataFiles.length := hvalid.fileIndex other
    ((LerobotDatasetMetadata.findEpisodeRoute_eq_some hvalid).mp hother).1
  rw [LerobotDatasetMetadata.dataFile, List.getD_eq_getElem _ _ hother',
    hvalid.filesNodup.getElem_inj_iff]

/-- **No file is read twice.** -/
theorem nodup_frameQueries (hvalid : metadata.RoutesValid) (episodes : List Int)
    (frames : Option (List Int)) :
    ((frameQueries metadata episodes frames).map FrameQuery.file).Nodup := by
  have hspec := groupBy_spec (fun episode =>
    (metadata.findEpisodeRoute episode).map LerobotEpisodeRoute.dataFileIndex) episodes
  have hlt : ∀ g ∈ groupEpisodesByDataFile metadata episodes,
      g.1 < metadata.dataFiles.length := by
    intro g hg
    obtain ⟨hfilter, hne⟩ := hspec.group g hg
    obtain ⟨episode, hepisode⟩ := List.exists_mem_of_ne_nil g.2 hne
    rw [hfilter, List.mem_filter, decide_eq_true_iff, Option.map_eq_some_iff] at hepisode
    obtain ⟨-, route, hfind, hindex⟩ := hepisode
    rw [← hindex]
    exact hvalid.fileIndex route
      ((LerobotDatasetMetadata.findEpisodeRoute_eq_some hvalid).mp hfind).1
  rw [frameQueries, List.map_map, List.Nodup, List.pairwise_map]
  refine List.Pairwise.imp_of_mem ?_ hspec.sorted
  intro g g' hg hg' hlt'
  rw [Function.comp_apply, Function.comp_apply, List.getD_eq_getElem _ _ (hlt g hg),
    List.getD_eq_getElem _ _ (hlt g' hg'), Ne, hvalid.filesNodup.getElem_inj_iff]
  exact hlt'.ne

/-- **The frame queries return the frames of the episodes.** -/
theorem rows_frameQueries (hvalid : metadata.RoutesValid)
    (hrouted : RowsRouted metadata episodeIndex store) (episodes : List Int)
    (frames : Option (List Int)) :
    ((frameQueries metadata episodes frames).map fun query =>
        query.rows store episodeIndex frameIndex).sum =
      (readParquet store metadata.dataFiles).filter fun row =>
        isIn (episodeIndex row) episodes = true ∧
          frames.all (isIn (frameIndex row)) = true := by
  have hrows : (frameQueries metadata episodes frames).map (fun query =>
      query.rows store episodeIndex frameIndex) =
        ((frameQueries metadata episodes frames).map FrameQuery.file).map fun path =>
          (store path : Multiset ρ).filter fun row => isIn (episodeIndex row) episodes = true ∧
            frames.all (isIn (frameIndex row)) = true := by
    rw [List.map_map]
    apply List.map_congr_left
    intro query hquery
    obtain ⟨hfile, hframes, hmem⟩ := mem_frameQueries hvalid hquery
    apply Multiset.filter_congr
    intro row hrow
    rw [hframes]
    refine and_congr_left' ?_
    rw [isIn_iff, isIn_iff]
    obtain ⟨episode, route, hepisode, hfind, hpath⟩ := hrouted _ hfile row hrow
    simp only [hepisode, Option.some.injEq, exists_eq_right']
    rw [hmem]
    exact and_iff_left ⟨route, hfind, hpath⟩
  rw [hrows, filter_files hvalid hrouted (nodup_frameQueries hvalid episodes frames),
    filter_readParquet]
  · intro path hpath
    obtain ⟨query, hquery, rfl⟩ := List.mem_map.mp hpath
    exact (mem_frameQueries hvalid hquery).1
  · intro path hpath
    obtain ⟨episode, hepisode, route, hfind, rfl⟩ :=
      LerobotDatasetMetadata.mem_resolveDataFiles.mp hpath
    obtain ⟨g, hg, hindex⟩ := (groupBy_spec (fun episode =>
      (metadata.findEpisodeRoute episode).map LerobotEpisodeRoute.dataFileIndex) episodes).covered
      episode hepisode route.dataFileIndex (by rw [hfind]; rfl)
    refine List.mem_map.mpr ⟨_, List.mem_map.mpr ⟨g, hg, rfl⟩, ?_⟩
    rw [hindex]
    rfl

end Rows

end DuckdbLerobot.Scan
