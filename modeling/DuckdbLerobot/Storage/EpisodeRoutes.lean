import DuckdbLerobot.Library.Fallible
import DuckdbLerobot.Library.SortedRange
import DuckdbLerobot.Path.PathTemplate
import DuckdbLerobot.Storage.DatasetInfo
import Mathlib.Data.Char
import Mathlib.Data.List.Lex
import Mathlib.Data.List.Sort

/-!
# Routes of episodes

`LerobotDatasetMetadata` keeps for each episode its length and the data file with its frames. The
table is built once from the episode rows and searched by episode index.

A loaded table is valid (`RoutesValid`, `load_valid`): its routes are strictly ordered by episode,
its files are distinct, and every route points to one of them.
-/

set_option autoImplicit false

namespace DuckdbLerobot.Storage

open DuckdbLerobot.Library DuckdbLerobot.Path

/-- `LerobotEpisodeRoute`. -/
structure LerobotEpisodeRoute where
  episodeIndex : Int
  episodeLength : Int
  dataFileIndex : Nat
  deriving DecidableEq

/-- `LerobotDatasetMetadata`. -/
structure LerobotDatasetMetadata where
  root : Text
  info : LerobotDatasetInfo
  routes : List LerobotEpisodeRoute := []
  dataFiles : List Text := []
  infoFingerprint : FileFingerprint
  episodeFiles : List MetadataFile := []

/-- The comparison of the routes in `Load`. -/
def episodeRouteLess (left right : LerobotEpisodeRoute) : Bool :=
  decide (left.episodeIndex < right.episodeIndex)

namespace LerobotDatasetMetadata

/-! ## Loading -/

/-- The columns that `Load` reads of a row; `none` when one of them is NULL. -/
def routingColumns (isLance : Bool) (row : EpisodeRow) : Option (Int × Int × Int × Int) := do
  let episodeIndex ← row.episodeIndex
  let episodeLength ← row.length
  if isLance then some (episodeIndex, episodeLength, 0, 0)
  else
    let chunkIndex ← row.chunkIndex
    let fileIndex ← row.fileIndex
    some (episodeIndex, episodeLength, chunkIndex, fileIndex)

/-- What the loop of `Load` has collected. -/
structure RouteTable where
  routes : List LerobotEpisodeRoute := []
  dataFiles : List Text := []

/-- The loop of `Load` at one row. -/
def addEpisodeRow (root : Text) (info : LerobotDatasetInfo) (table : RouteTable)
    (row : EpisodeRow) : Except BinderException RouteTable :=
  match routingColumns info.isLance row with
  | none => .error ⟨"LeRobot episode routing columns must not contain NULL"⟩
  | some (episodeIndex, episodeLength, chunkIndex, fileIndex) =>
      if episodeIndex < 0 then .error ⟨"LeRobot episode indices must be non-negative"⟩
      else if episodeLength ≤ 0 then
        .error ⟨s!"LeRobot episode {episodeIndex} length must be positive"⟩
      else if info.isLance then
        .ok { table with routes := table.routes ++ [⟨episodeIndex, episodeLength, 0⟩] }
      else do
        let dataFile ← resolveDataPath root info.dataPathTemplate chunkIndex fileIndex
        let (dataFileIndex, dataFiles) := indexOrAppend table.dataFiles dataFile
        .ok ⟨table.routes ++ [⟨episodeIndex, episodeLength, dataFileIndex⟩], dataFiles⟩

/-- The first of two adjacent routes with one episode. -/
def duplicateEpisode : List LerobotEpisodeRoute → Option Int
  | previous :: route :: routes =>
      if previous.episodeIndex = route.episodeIndex then some route.episodeIndex
      else duplicateEpisode (route :: routes)
  | _ => none

/-- The sum of the lengths, in `int64_t`. -/
def routedFrames (routes : List LerobotEpisodeRoute) : Except BinderException Int :=
  routes.foldlM
    (fun routed route =>
      if int64Maximum - routed < route.episodeLength then
        .error ⟨"LeRobot episode lengths overflow total_frames"⟩
      else .ok (routed + route.episodeLength)) 0

/-- `Load`, from what it reads: the manifest, the rows of the episode files and, for a remote root,
their fingerprints. -/
def load (sort : StdSort episodeRouteLess) (root : Text) (infoFingerprint : FileFingerprint)
    (info : LerobotDatasetInfo) (episodeFiles : List MetadataFile) (rows : List EpisodeRow) :
    Except BinderException LerobotDatasetMetadata :=
  if info.totalEpisodes = 0 then
    .ok { root := root, info := info, infoFingerprint := infoFingerprint }
  else do
    let dataFiles := if info.isLance then [root ++ "/frames.lance".toList] else []
    let table ← rows.foldlM (addEpisodeRow root info) { dataFiles := dataFiles }
    let routes := sort.run table.routes
    match duplicateEpisode routes with
    | some episodeIndex =>
        .error ⟨s!"Duplicate LeRobot episode_index {episodeIndex} in episode metadata"⟩
    | none =>
        if (routes.length : Int) ≠ info.totalEpisodes then
          .error ⟨s!"LeRobot info.json declares {info.totalEpisodes} episodes, but episode " ++
            s!"metadata contains {routes.length} rows"⟩
        else do
          let routed ← routedFrames routes
          if routed ≠ info.totalFrames then
            .error ⟨s!"LeRobot info.json declares {info.totalFrames} frames, but episode " ++
              s!"metadata contains {routed} frames"⟩
          else
            .ok ⟨root, info, routes, table.dataFiles, infoFingerprint, episodeFiles⟩

/-! ## Searching -/

/-- `FindEpisodeRoute`. -/
def findEpisodeRoute (metadata : LerobotDatasetMetadata) (episodeIndex : Int) :
    Option LerobotEpisodeRoute :=
  (lowerBound (fun route => decide (route.episodeIndex < episodeIndex)) metadata.routes).head?.filter
    fun route => route.episodeIndex == episodeIndex

/-- The path of a route. -/
def dataFile (metadata : LerobotDatasetMetadata) (route : LerobotEpisodeRoute) : Text :=
  metadata.dataFiles.getD route.dataFileIndex []

/-- The loop of `ResolveDataFiles`, whose set `seen` has the paths of the result. -/
def addDataFile (metadata : LerobotDatasetMetadata) (result : List Text) (episodeIndex : Int) :
    List Text :=
  match metadata.findEpisodeRoute episodeIndex with
  | none => result
  | some route =>
      let path := metadata.dataFile route
      if path ∈ result then result else result ++ [path]

/-- `ResolveDataFiles`. -/
def resolveDataFiles (metadata : LerobotDatasetMetadata) (episodeIndices : List Int) : List Text :=
  (episodeIndices.foldl metadata.addDataFile []).insertionSort (· ≤ ·)

/-! ## Valid tables -/

/-- What a row says about its route. -/
structure RouteOf (root : Text) (info : LerobotDatasetInfo) (dataFiles : List Text)
    (row : EpisodeRow) (route : LerobotEpisodeRoute) : Prop where
  episodeIndex : row.episodeIndex = some route.episodeIndex
  episodeLength : row.length = some route.episodeLength
  nonnegative : 0 ≤ route.episodeIndex
  positive : 0 < route.episodeLength
  lance : info.isLance = true → route.dataFileIndex = 0
  parquet : info.isLance = false → ∃ chunkIndex fileIndex path,
    row.chunkIndex = some chunkIndex ∧ row.fileIndex = some fileIndex ∧
      resolveDataPath root info.dataPathTemplate chunkIndex fileIndex = .ok path ∧
      dataFiles[route.dataFileIndex]? = some path

/-- The invariant of the route table. -/
structure RoutesValid (metadata : LerobotDatasetMetadata) : Prop where
  sorted : metadata.routes.Pairwise fun a b => a.episodeIndex < b.episodeIndex
  positive : ∀ route ∈ metadata.routes, 0 ≤ route.episodeIndex ∧ 0 < route.episodeLength
  fileIndex : ∀ route ∈ metadata.routes, route.dataFileIndex < metadata.dataFiles.length
  filesNodup : metadata.dataFiles.Nodup
  filesUsed : ∀ index < metadata.dataFiles.length, ∃ route ∈ metadata.routes,
    route.dataFileIndex = index

/-- A row's route stays its route when files are appended. -/
theorem RouteOf.mono {root : Text} {info : LerobotDatasetInfo} {dataFiles dataFiles' : List Text}
    {row : EpisodeRow} {route : LerobotEpisodeRoute} (h : RouteOf root info dataFiles row route)
    (hstarts : dataFiles <+: dataFiles') : RouteOf root info dataFiles' row route := by
  refine { h with parquet := ?_ }
  intro hlance
  obtain ⟨chunkIndex, fileIndex, path, hchunk, hfile, hpath, hget⟩ := h.parquet hlance
  exact ⟨chunkIndex, fileIndex, path, hchunk, hfile, hpath, getElem?_of_prefix hstarts hget⟩

/-- What the loop keeps. -/
structure TableOf (root : Text) (info : LerobotDatasetInfo) (seen : List EpisodeRow)
    (table : RouteTable) : Prop where
  routes : List.Forall₂ (RouteOf root info table.dataFiles) seen table.routes
  filesNodup : table.dataFiles.Nodup
  lance : info.isLance = true → table.dataFiles = [root ++ "/frames.lance".toList]
  filesUsed : info.isLance = false → ∀ index < table.dataFiles.length,
    ∃ route ∈ table.routes, route.dataFileIndex = index

theorem routingColumns_eq_some {isLance : Bool} {row : EpisodeRow}
    {episodeIndex episodeLength chunkIndex fileIndex : Int}
    (h : routingColumns isLance row = some (episodeIndex, episodeLength, chunkIndex, fileIndex)) :
    row.episodeIndex = some episodeIndex ∧ row.length = some episodeLength ∧
      (isLance = false → row.chunkIndex = some chunkIndex ∧ row.fileIndex = some fileIndex) := by
  simp only [routingColumns, Option.bind_eq_bind, Option.bind_eq_some_iff] at h
  obtain ⟨e, he, l, hl, h⟩ := h
  cases isLance with
  | true =>
      simp only [if_true, Option.some.injEq, Prod.mk.injEq] at h
      obtain ⟨rfl, rfl, -, -⟩ := h
      exact ⟨he, hl, by simp⟩
  | false =>
      simp only [Bool.false_eq_true, if_false, Option.bind_eq_some_iff, Option.some.injEq,
        Prod.mk.injEq] at h
      obtain ⟨c, hc, f, hf, rfl, rfl, rfl, rfl⟩ := h
      exact ⟨he, hl, fun _ => ⟨hc, hf⟩⟩

/-- One round of the loop adds the route of its row. -/
theorem TableOf.addEpisodeRow {root : Text} {info : LerobotDatasetInfo} {seen : List EpisodeRow}
    {table table' : RouteTable} {row : EpisodeRow} (h : TableOf root info seen table)
    (hrow : addEpisodeRow root info table row = .ok table') :
    TableOf root info (seen ++ [row]) table' := by
  unfold LerobotDatasetMetadata.addEpisodeRow at hrow
  cases hcolumns : routingColumns info.isLance row with
  | none =>
      rw [hcolumns] at hrow
      cases hrow
  | some columns =>
      obtain ⟨episodeIndex, episodeLength, chunkIndex, fileIndex⟩ := columns
      obtain ⟨he, hl, hc⟩ := routingColumns_eq_some hcolumns
      rw [hcolumns] at hrow
      simp only [except_check_eq_ok, not_lt, not_le] at hrow
      obtain ⟨hnonneg, hpos, hrow⟩ := hrow
      cases hlance : info.isLance with
      | true =>
          rw [hlance, if_pos rfl] at hrow
          cases hrow
          refine ⟨?_, h.filesNodup, h.lance, ?_⟩
          · refine List.rel_append h.routes (.cons ?_ .nil)
            exact ⟨he, hl, hnonneg, hpos, fun _ => rfl, by simp [hlance]⟩
          · intro hparquet
            rw [hlance] at hparquet
            cases hparquet
      | false =>
          rw [hlance, if_neg Bool.false_ne_true, except_bind_eq_ok] at hrow
          obtain ⟨path, hpath, hrow⟩ := hrow
          cases hrow
          obtain ⟨hget, hstarts, hnodup, hnew⟩ := indexOrAppend_spec table.dataFiles path
          refine ⟨?_, hnodup h.filesNodup, by simp [hlance], ?_⟩
          · refine List.rel_append (h.routes.imp fun _ _ hroute => hroute.mono hstarts)
              (.cons ?_ .nil)
            exact ⟨he, hl, hnonneg, hpos, by simp [hlance], fun _ =>
              ⟨chunkIndex, fileIndex, path, (hc hlance).1, (hc hlance).2, hpath, hget⟩⟩
          · intro _ index hindex
            rcases hnew index hindex with hold | rfl
            · obtain ⟨route, hroute, hrouteIndex⟩ := h.filesUsed hlance index hold
              exact ⟨route, List.mem_append_left _ hroute, hrouteIndex⟩
            · exact ⟨_, List.mem_append_right _ (List.mem_singleton_self _), rfl⟩

/-- Sorted routes without a duplicate are strictly sorted. -/
theorem pairwise_lt_of_duplicateEpisode {routes : List LerobotEpisodeRoute}
    (hsorted : routes.Pairwise fun a b => episodeRouteLess b a = false)
    (h : duplicateEpisode routes = none) :
    routes.Pairwise fun a b => a.episodeIndex < b.episodeIndex := by
  have hchain : (routes.map LerobotEpisodeRoute.episodeIndex).IsChain (· < ·) := by
    induction routes using duplicateEpisode.induct with
    | case1 previous route routes heq => simp [duplicateEpisode, heq] at h
    | case2 previous route routes hne ih =>
        rw [duplicateEpisode, if_neg hne] at h
        rw [List.pairwise_cons] at hsorted
        rw [List.map_cons, List.map_cons, List.isChain_cons_cons]
        have hle := hsorted.1 route List.mem_cons_self
        rw [episodeRouteLess, decide_eq_false_iff_not, not_lt] at hle
        exact ⟨lt_of_le_of_ne hle hne, ih hsorted.2 h⟩
    | case3 routes hshort =>
        cases routes with
        | nil => exact List.isChain_nil
        | cons route rest =>
            cases rest with
            | nil => exact List.isChain_singleton _
            | cons next rest => exact absurd rfl (hshort route next rest)
  exact List.pairwise_map.mp (List.isChain_iff_pairwise.mp hchain)

/-- What loading a dataset with episodes returns. -/
structure LoadedFrom (root : Text) (infoFingerprint : FileFingerprint) (info : LerobotDatasetInfo)
    (episodeFiles : List MetadataFile) (rows : List EpisodeRow)
    (metadata : LerobotDatasetMetadata) : Prop where
  root_eq : metadata.root = root
  info_eq : metadata.info = info
  infoFingerprint_eq : metadata.infoFingerprint = infoFingerprint
  episodeFiles_eq : metadata.episodeFiles = episodeFiles
  sorted : metadata.routes.Pairwise fun a b => a.episodeIndex < b.episodeIndex
  routes : ∃ routes, List.Forall₂ (RouteOf root info metadata.dataFiles) rows routes ∧
    metadata.routes.Perm routes
  parquet : info.isLance = false → metadata.RoutesValid
  count : (metadata.routes.length : Int) = info.totalEpisodes
  frames : routedFrames metadata.routes = .ok info.totalFrames

/-- A sorted table of the routes of the rows is valid. -/
theorem TableOf.valid {root : Text} {info : LerobotDatasetInfo} {rows : List EpisodeRow}
    {table : RouteTable} (h : TableOf root info rows table) (hlance : info.isLance = false)
    {metadata : LerobotDatasetMetadata} (hroutes : metadata.routes.Perm table.routes)
    (hfiles : metadata.dataFiles = table.dataFiles)
    (hsorted : metadata.routes.Pairwise fun a b => a.episodeIndex < b.episodeIndex) :
    metadata.RoutesValid := by
  have hof : ∀ route ∈ metadata.routes, ∃ row ∈ rows, RouteOf root info table.dataFiles row route :=
    fun route hroute => exists_left_of_forall₂ h.routes (hroutes.mem_iff.mp hroute)
  refine ⟨hsorted, ?_, ?_, hfiles ▸ h.filesNodup, ?_⟩
  · intro route hroute
    obtain ⟨row, -, hrow⟩ := hof route hroute
    exact ⟨hrow.nonnegative, hrow.positive⟩
  · intro route hroute
    obtain ⟨row, -, hrow⟩ := hof route hroute
    obtain ⟨_, _, _, _, _, _, hget⟩ := hrow.parquet hlance
    rw [hfiles]
    exact (List.getElem?_eq_some_iff.mp hget).1
  · intro index hindex
    rw [hfiles] at hindex
    obtain ⟨route, hroute, hrouteIndex⟩ := h.filesUsed hlance index hindex
    exact ⟨route, hroutes.mem_iff.mpr hroute, hrouteIndex⟩

/-- **A loaded route table has a route for each episode row, and is valid.** -/
theorem loadedFrom_of_load {sort : StdSort episodeRouteLess} {root : Text}
    {infoFingerprint : FileFingerprint} {info : LerobotDatasetInfo}
    {episodeFiles : List MetadataFile} {rows : List EpisodeRow} {metadata : LerobotDatasetMetadata}
    (hepisodes : info.totalEpisodes ≠ 0)
    (h : load sort root infoFingerprint info episodeFiles rows = .ok metadata) :
    LoadedFrom root infoFingerprint info episodeFiles rows metadata := by
  rw [load, if_neg hepisodes] at h
  dsimp only at h
  rw [except_bind_eq_ok] at h
  obtain ⟨table, htable, h⟩ := h
  have hof : TableOf root info rows table := by
    refine foldlM_ok (I := TableOf root info) htable ?_ fun _ _ _ _ _ _ hI => hI.addEpisodeRow
    cases hlance : info.isLance with
    | true => exact ⟨.nil, List.nodup_singleton _, fun _ => rfl, by simp [hlance]⟩
    | false => exact ⟨.nil, List.nodup_nil, by simp [hlance], by simp⟩
  have hperm := sort.perm table.routes
  cases hduplicate : duplicateEpisode (sort.run table.routes) with
  | some episodeIndex =>
      simp only [hduplicate] at h
      cases h
  | none =>
      simp only [hduplicate, except_check_eq_ok, not_not, except_bind_eq_ok] at h
      obtain ⟨hcount, routed, hrouted, hframes, h⟩ := h
      cases h
      have hsorted := pairwise_lt_of_duplicateEpisode (sort.sorted _) hduplicate
      exact ⟨rfl, rfl, rfl, rfl, hsorted, ⟨table.routes, hof.routes, hperm⟩,
        fun hlance => hof.valid hlance hperm rfl hsorted, hcount, hframes ▸ hrouted⟩

/-- **Every loaded Parquet table is valid.** -/
theorem valid_of_load {sort : StdSort episodeRouteLess} {root : Text}
    {infoFingerprint : FileFingerprint} {info : LerobotDatasetInfo}
    {episodeFiles : List MetadataFile} {rows : List EpisodeRow} {metadata : LerobotDatasetMetadata}
    (hlance : info.isLance = false)
    (h : load sort root infoFingerprint info episodeFiles rows = .ok metadata) :
    metadata.RoutesValid := by
  by_cases hepisodes : info.totalEpisodes = 0
  · rw [load, if_pos hepisodes] at h
    cases h
    exact ⟨.nil, by simp, by simp, List.nodup_nil, by simp⟩
  · exact (loadedFrom_of_load hepisodes h).parquet hlance

/-! ## What the searches find -/

section Search

variable {metadata : LerobotDatasetMetadata}

/-- **The search finds the one route of an episode.** -/
theorem findEpisodeRoute_eq_some (hvalid : metadata.RoutesValid) {episodeIndex : Int}
    {route : LerobotEpisodeRoute} :
    metadata.findEpisodeRoute episodeIndex = some route ↔
      route ∈ metadata.routes ∧ route.episodeIndex = episodeIndex :=
  head?_lowerBound_eq_some hvalid.sorted

/-- The files found are those that the episodes are routed to. -/
theorem mem_addDataFiles (episodeIndices : List Int) (result : List Text) {path : Text} :
    path ∈ episodeIndices.foldl metadata.addDataFile result ↔
      path ∈ result ∨ ∃ episodeIndex ∈ episodeIndices, ∃ route,
        metadata.findEpisodeRoute episodeIndex = some route ∧ metadata.dataFile route = path := by
  induction episodeIndices generalizing result with
  | nil => simp
  | cons episodeIndex episodeIndices ih =>
      rw [List.foldl_cons, ih]
      have hstep : path ∈ metadata.addDataFile result episodeIndex ↔ path ∈ result ∨ ∃ route,
          metadata.findEpisodeRoute episodeIndex = some route ∧ metadata.dataFile route = path := by
        unfold addDataFile
        cases hfind : metadata.findEpisodeRoute episodeIndex with
        | none => simp
        | some route =>
            dsimp only
            split
            · rename_i hmem
              constructor
              · exact Or.inl
              · rintro (hold | ⟨route', hroute', rfl⟩)
                · exact hold
                · cases hroute'
                  exact hmem
            · simp [eq_comm]
      rw [hstep]
      simp only [List.mem_cons, exists_eq_or_imp, or_assoc]

theorem nodup_addDataFiles (episodeIndices : List Int) {result : List Text} (h : result.Nodup) :
    (episodeIndices.foldl metadata.addDataFile result).Nodup := by
  induction episodeIndices generalizing result with
  | nil => exact h
  | cons episodeIndex episodeIndices ih =>
      rw [List.foldl_cons]
      apply ih
      unfold addDataFile
      split
      · exact h
      · dsimp only
        split
        · exact h
        · rename_i hnew
          rw [← List.concat_eq_append, List.nodup_concat]
          exact ⟨hnew, h⟩

/-- **`ResolveDataFiles` returns each file that one of the episodes is routed to, once.** -/
theorem mem_resolveDataFiles {episodeIndices : List Int} {path : Text} :
    path ∈ metadata.resolveDataFiles episodeIndices ↔ ∃ episodeIndex ∈ episodeIndices, ∃ route,
      metadata.findEpisodeRoute episodeIndex = some route ∧ metadata.dataFile route = path := by
  unfold resolveDataFiles
  rw [List.mem_insertionSort, mem_addDataFiles]
  simp

theorem nodup_resolveDataFiles (episodeIndices : List Int) :
    (metadata.resolveDataFiles episodeIndices).Nodup :=
  (List.perm_insertionSort (· ≤ ·) _).nodup_iff.mpr
    (nodup_addDataFiles episodeIndices List.nodup_nil)

end Search

end LerobotDatasetMetadata

end DuckdbLerobot.Storage
