import DuckdbLerobot.Storage.EpisodeRoutes
import DuckdbLerobot.Video.DecodeBuffer
import Mathlib.Data.Prod.Lex

/-!
# Routes of videos

`LerobotVideoMetadata` keeps for each episode and video feature the part of a video file that shows
the episode. The table is built from the same episode rows as the routes of the episodes, for a
dataset whose metadata is loaded already.

A loaded table is valid (`RoutesValid`, `valid_of_load`): its routes are strictly ordered by episode
and feature, and each of its files belongs to one feature.
-/

set_option autoImplicit false

namespace DuckdbLerobot.Storage

open DuckdbLerobot.Library DuckdbLerobot.Path DuckdbLerobot.Video

/-- A row of `videos.lance`, with the size and the URI of its blob. -/
structure LanceVideoRow where
  videoKey : Option Text
  chunkIndex : Option Int
  fileIndex : Option Int
  fileSize : Option Int
  blobSize : Option Nat
  uri : Option Text

/-- `LerobotVideoMetadata`. -/
structure LerobotVideoMetadata where
  root : Text
  videoPathTemplate : Text
  fps : Int
  videoKeys : List Text
  videoFeatureMetadata : List LerobotVideoFeatureMetadata
  routes : List LerobotVideoRoute := []
  videoFiles : List Text := []
  infoFingerprint : FileFingerprint
  episodeFiles : List MetadataFile

/-- The key that the routes are ordered by. -/
def routeKey (route : LerobotVideoRoute) : Int ×ₗ Nat :=
  toLex (route.episodeIndex, route.videoKeyIndex)

/-- The comparison of the routes in `Load`. -/
def videoRouteLess (left right : LerobotVideoRoute) : Bool := decide (routeKey left < routeKey right)

namespace LerobotVideoMetadata

/-! ## Loading -/

/-- The `VideoKey` of `Load`. -/
abbrev LanceKey := Text × Int × Int

/-- The loop of `Load` at one row of `videos.lance`. -/
def addLanceVideo (videos : AList fun _ : LanceKey => Text) (row : LanceVideoRow) :
    Except BinderException (AList fun _ : LanceKey => Text) :=
  match row with
  | ⟨some key, some chunkIndex, some fileIndex, some size, some blobSize, some uri⟩ =>
      if key.isEmpty ∨ chunkIndex < 0 ∨ fileIndex < 0 ∨ size ≤ 0 ∨ size ≠ blobSize then
        .error ⟨"Invalid LeRobot videos.lance route or file_size for key " ++
          s!"'{String.ofList key}'"⟩
      else if (videos.lookup (key, chunkIndex, fileIndex)).isSome then
        .error ⟨s!"Duplicate LeRobot videos.lance route for key '{String.ofList key}', chunk " ++
          s!"{chunkIndex}, file {fileIndex}"⟩
      else .ok (videos.insert (key, chunkIndex, fileIndex) uri)
  | _ => .error ⟨"LeRobot videos.lance routing columns and blobs must not be NULL"⟩

/-- What the loop of `Load` has collected. -/
structure RouteTable where
  routes : List LerobotVideoRoute := []
  videoFiles : List Text := []
  videoFileKeyIndices : List Nat := []

/-- A timestamp range that is finite and ordered. -/
def timestampRange : Double → Double → Option (ℚ × ℚ)
  | .finite fromTimestamp, .finite toTimestamp =>
      if fromTimestamp < 0 ∨ toTimestamp < fromTimestamp then none
      else some (fromTimestamp, toTimestamp)
  | _, _ => none

/-- The file of a route. -/
def resolveVideoFile (dataset : LerobotDatasetMetadata) (lanceVideos : AList fun _ : LanceKey => Text)
    (videoKey : Text) (chunkIndex fileIndex : Int) : Except BinderException Text :=
  if dataset.info.isLance then
    match lanceVideos.lookup (videoKey, chunkIndex, fileIndex) with
    | some uri => .ok uri
    | none => .error ⟨s!"LeRobot videos.lance has no route for key '{String.ofList videoKey}', " ++
        s!"chunk {chunkIndex}, file {fileIndex}"⟩
  else
    resolveVideoPath dataset.root dataset.info.videoPathTemplate videoKey chunkIndex fileIndex

/-- Append a route; the file of another feature is refused. -/
def RouteTable.addRoute (table : RouteTable) (videoKeys : List Text) (videoFile : Text)
    (route : Nat → LerobotVideoRoute) (videoKeyIndex : Nat) : Except BinderException RouteTable :=
  let (videoFileIndex, videoFiles) := indexOrAppend table.videoFiles videoFile
  let routes := table.routes ++ [route videoFileIndex]
  match table.videoFileKeyIndices[videoFileIndex]? with
  | none => .ok ⟨routes, videoFiles, table.videoFileKeyIndices ++ [videoKeyIndex]⟩
  | some previous =>
      if previous ≠ videoKeyIndex then
        .error ⟨s!"LeRobot video path '{String.ofList videoFile}' is shared by feature keys " ++
          s!"'{String.ofList (videoKeys.getD previous [])}' and " ++
          s!"'{String.ofList (videoKeys.getD videoKeyIndex [])}'"⟩
      else .ok ⟨routes, videoFiles, table.videoFileKeyIndices⟩

/-- The inner loop of `Load`: the columns of one feature in a row. -/
def addVideoColumns (dataset : LerobotDatasetMetadata)
    (lanceVideos : AList fun _ : LanceKey => Text) (row : EpisodeRow)
    (episodeIndex episodeLength : Int) (table : RouteTable) (entry : Text × Nat) :
    Except BinderException RouteTable :=
  let (videoKey, videoKeyIndex) := entry
  match row.video videoKey with
  | ⟨none, none, none, none⟩ => .ok table
  | ⟨some chunkIndex, some fileIndex, some fromTimestamp, some toTimestamp⟩ =>
      if chunkIndex < 0 ∨ fileIndex < 0 then
        .error ⟨"LeRobot video chunk and file indices must be non-negative"⟩
      else
        match timestampRange fromTimestamp toTimestamp with
        | none =>
            .error ⟨s!"Invalid LeRobot video timestamp range for episode {episodeIndex} and key " ++
              s!"'{String.ofList videoKey}'"⟩
        | some (fromTimestamp, toTimestamp) => do
            let videoFile ← resolveVideoFile dataset lanceVideos videoKey chunkIndex fileIndex
            table.addRoute dataset.info.videoKeys videoFile
              (fun videoFileIndex => ⟨episodeIndex, videoKeyIndex, videoFileIndex, episodeLength,
                chunkIndex, fileIndex, fromTimestamp, toTimestamp⟩) videoKeyIndex
  | _ => .error ⟨s!"LeRobot video route for episode {episodeIndex} and key " ++
      s!"'{String.ofList videoKey}' is partially NULL"⟩

/-- The loop of `Load` at one row. -/
def addEpisodeRow (dataset : LerobotDatasetMetadata) (lanceVideos : AList fun _ : LanceKey => Text)
    (table : RouteTable) (row : EpisodeRow) : Except BinderException RouteTable :=
  match row.episodeIndex, row.length with
  | some episodeIndex, some episodeLength =>
      if episodeIndex < 0 then .error ⟨"LeRobot episode indices must be non-negative"⟩
      else if episodeLength ≤ 0 then
        .error ⟨s!"LeRobot episode {episodeIndex} length must be positive"⟩
      else
        dataset.info.videoKeys.zipIdx.foldlM
          (addVideoColumns dataset lanceVideos row episodeIndex episodeLength) table
  | _, _ => .error ⟨"LeRobot episode_index and length must not be NULL in video metadata"⟩

/-- The first of two adjacent routes with one episode and feature. -/
def duplicateRoute : List LerobotVideoRoute → Option LerobotVideoRoute
  | previous :: route :: routes =>
      if previous.episodeIndex = route.episodeIndex ∧ previous.videoKeyIndex = route.videoKeyIndex
      then some route
      else duplicateRoute (route :: routes)
  | _ => none

/-- `Load`, from the rows of `videos.lance` and the rows of the episode files that it reads. -/
def load (sort : StdSort videoRouteLess) (dataset : LerobotDatasetMetadata)
    (lanceRows : List LanceVideoRow) (rows : List EpisodeRow) :
    Except BinderException LerobotVideoMetadata :=
  let metadata : LerobotVideoMetadata :=
    { root := dataset.root, videoPathTemplate := dataset.info.videoPathTemplate,
      fps := dataset.info.fps, videoKeys := dataset.info.videoKeys,
      videoFeatureMetadata := dataset.info.videoFeatureMetadata,
      infoFingerprint := dataset.infoFingerprint, episodeFiles := dataset.episodeFiles }
  if dataset.info.totalEpisodes = 0 ∨ dataset.info.videoKeys = [] then .ok metadata
  else do
    let lanceVideos ← (if dataset.info.isLance then lanceRows else []).foldlM addLanceVideo ∅
    let table ← rows.foldlM (addEpisodeRow dataset lanceVideos) {}
    let routes := sort.run table.routes
    match duplicateRoute routes with
    | some route =>
        .error ⟨s!"Duplicate LeRobot video route for episode {route.episodeIndex} and key " ++
          s!"'{String.ofList (dataset.info.videoKeys.getD route.videoKeyIndex [])}'"⟩
    | none => .ok { metadata with routes := routes, videoFiles := table.videoFiles }

/-! ## Searching -/

/-- `GetVideoKey`. -/
def getVideoKey (metadata : LerobotVideoMetadata) (route : LerobotVideoRoute) : Text :=
  metadata.videoKeys.getD route.videoKeyIndex []

/-- `GetVideoFile`. -/
def getVideoFile (metadata : LerobotVideoMetadata) (route : LerobotVideoRoute) : Text :=
  metadata.videoFiles.getD route.videoFileIndex []

/-- The position of a key in the sorted keys. -/
def videoKeyIndex (metadata : LerobotVideoMetadata) (videoKey : Text) : Option Nat :=
  let entry := lowerBound (fun key => decide (key < videoKey)) metadata.videoKeys
  if entry.head? = some videoKey then some (metadata.videoKeys.length - entry.length) else none

/-- The routes of an episode, from `lower_bound` up to the first route of another one. -/
def episodeRoutes (metadata : LerobotVideoMetadata) (episodeIndex : Int) :
    List LerobotVideoRoute :=
  (lowerBound (fun route => decide (route.episodeIndex < episodeIndex)) metadata.routes).takeWhile
    fun route => route.episodeIndex == episodeIndex

/-- `ResolveRoutes`. `requested_key_indices` is only searched, so its order and its duplicates do
not matter. -/
def resolveRoutes (metadata : LerobotVideoMetadata) (episodeIndices : List Int)
    (requestedVideoKeys : List Text) : Except BinderException (List LerobotVideoRoute) := do
  let requestedKeyIndices ← requestedVideoKeys.mapM fun videoKey =>
    match metadata.videoKeyIndex videoKey with
    | some index => .ok index
    | none => .error ⟨s!"Unknown LeRobot video key '{String.ofList videoKey}'"⟩
  .ok (episodeIndices.flatMap fun episodeIndex =>
    (metadata.episodeRoutes episodeIndex).filter fun route =>
      requestedKeyIndices.contains route.videoKeyIndex)

/-- The loop of `FindRoute` over the routes of an episode. -/
def findKeyRoute (videoKeyIndex : Nat) : List LerobotVideoRoute → Option LerobotVideoRoute
  | [] => none
  | route :: routes =>
      if route.videoKeyIndex = videoKeyIndex then some route
      else if videoKeyIndex < route.videoKeyIndex then none
      else findKeyRoute videoKeyIndex routes

/-- `FindRoute`. -/
def findRoute (metadata : LerobotVideoMetadata) (episodeIndex : Int) (videoKey : Text) :
    Option LerobotVideoRoute :=
  (metadata.videoKeyIndex videoKey).bind fun videoKeyIndex =>
    findKeyRoute videoKeyIndex (metadata.episodeRoutes episodeIndex)

/-! ## Valid tables -/

/-- What the columns of a feature in a row say about their route. -/
structure RouteOf (dataset : LerobotDatasetMetadata) (lanceVideos : AList fun _ : LanceKey => Text)
    (videoFiles : List Text) (row : EpisodeRow) (videoKey : Text) (route : LerobotVideoRoute) :
    Prop where
  episodeIndex : row.episodeIndex = some route.episodeIndex
  episodeLength : row.length = some route.episodeLength
  nonnegative : 0 ≤ route.episodeIndex
  positive : 0 < route.episodeLength
  keyIndex : dataset.info.videoKeys[route.videoKeyIndex]? = some videoKey
  columns : row.video videoKey = ⟨some route.chunkIndex, some route.fileIndex,
    some (.finite route.fromTimestamp), some (.finite route.toTimestamp)⟩
  range : 0 ≤ route.fromTimestamp ∧ route.fromTimestamp ≤ route.toTimestamp
  videoFile : ∃ path, resolveVideoFile dataset lanceVideos videoKey route.chunkIndex
    route.fileIndex = .ok path ∧ videoFiles[route.videoFileIndex]? = some path

theorem RouteOf.mono {dataset : LerobotDatasetMetadata} {lanceVideos : AList fun _ : LanceKey => Text}
    {videoFiles videoFiles' : List Text} {row : EpisodeRow} {videoKey : Text}
    {route : LerobotVideoRoute} (h : RouteOf dataset lanceVideos videoFiles row videoKey route)
    (hstarts : videoFiles <+: videoFiles') :
    RouteOf dataset lanceVideos videoFiles' row videoKey route := by
  obtain ⟨path, hpath, hget⟩ := h.videoFile
  exact { h with videoFile := ⟨path, hpath, getElem?_of_prefix hstarts hget⟩ }

/-- The invariant of the route table. -/
structure RoutesValid (metadata : LerobotVideoMetadata) : Prop where
  sorted : metadata.routes.Pairwise fun a b => routeKey a < routeKey b
  keyIndex : ∀ route ∈ metadata.routes, route.videoKeyIndex < metadata.videoKeys.length
  fileIndex : ∀ route ∈ metadata.routes, route.videoFileIndex < metadata.videoFiles.length
  fileKey : ∀ route ∈ metadata.routes, ∀ route' ∈ metadata.routes,
    route.videoFileIndex = route'.videoFileIndex → route.videoKeyIndex = route'.videoKeyIndex
  range : ∀ route ∈ metadata.routes, 0 < route.episodeLength ∧ 0 ≤ route.episodeIndex ∧
    0 ≤ route.fromTimestamp ∧ route.fromTimestamp ≤ route.toTimestamp

/-- The columns of the features in a row. -/
def cells (dataset : LerobotDatasetMetadata) (row : EpisodeRow) : List (EpisodeRow × Text × Nat) :=
  dataset.info.videoKeys.zipIdx.map fun entry => (row, entry)

/-- What the loops keep, by the columns they have read. -/
structure TableOf (dataset : LerobotDatasetMetadata) (lanceVideos : AList fun _ : LanceKey => Text)
    (seen : List (EpisodeRow × Text × Nat)) (table : RouteTable) : Prop where
  sound : ∀ route ∈ table.routes, ∃ cell ∈ seen,
    RouteOf dataset lanceVideos table.videoFiles cell.1 cell.2.1 route
  complete : ∀ cell ∈ seen, cell.1.video cell.2.1 ≠ ⟨none, none, none, none⟩ →
    ∃ route ∈ table.routes, route.videoKeyIndex = cell.2.2 ∧
      RouteOf dataset lanceVideos table.videoFiles cell.1 cell.2.1 route
  keyIndices : table.videoFileKeyIndices.length = table.videoFiles.length
  fileKey : ∀ route ∈ table.routes,
    table.videoFileKeyIndices[route.videoFileIndex]? = some route.videoKeyIndex

section Table

variable {dataset : LerobotDatasetMetadata} {lanceVideos : AList fun _ : LanceKey => Text}
variable {seen : List (EpisodeRow × Text × Nat)} {table table' : RouteTable}

/-- A cell without a route. -/
theorem TableOf.skip (h : TableOf dataset lanceVideos seen table) {row : EpisodeRow}
    {entry : Text × Nat} (hnull : row.video entry.1 = ⟨none, none, none, none⟩) :
    TableOf dataset lanceVideos (seen ++ [(row, entry)]) table := by
  refine ⟨?_, ?_, h.keyIndices, h.fileKey⟩
  · intro route hroute
    obtain ⟨cell, hcell, hof⟩ := h.sound route hroute
    exact ⟨cell, List.mem_append_left _ hcell, hof⟩
  · intro cell hcell hvalue
    rcases List.mem_append.mp hcell with hold | hnew
    · exact h.complete cell hold hvalue
    · rw [List.mem_singleton] at hnew
      subst hnew
      exact absurd hnull hvalue

/-- A cell with a route. -/
theorem TableOf.push (h : TableOf dataset lanceVideos seen table) {row : EpisodeRow}
    {entry : Text × Nat} {route : LerobotVideoRoute} {videoFiles : List Text}
    {videoFileKeyIndices : List Nat} (hfiles : table.videoFiles <+: videoFiles)
    (hkeys : table.videoFileKeyIndices <+: videoFileKeyIndices)
    (hlength : videoFileKeyIndices.length = videoFiles.length)
    (hkey : route.videoKeyIndex = entry.2)
    (hfileKey : videoFileKeyIndices[route.videoFileIndex]? = some route.videoKeyIndex)
    (hof : RouteOf dataset lanceVideos videoFiles row entry.1 route) :
    TableOf dataset lanceVideos (seen ++ [(row, entry)])
      ⟨table.routes ++ [route], videoFiles, videoFileKeyIndices⟩ := by
  refine ⟨?_, ?_, hlength, ?_⟩
  · intro route' hroute'
    rcases List.mem_append.mp hroute' with hold | hnew
    · obtain ⟨cell, hcell, hof'⟩ := h.sound route' hold
      exact ⟨cell, List.mem_append_left _ hcell, hof'.mono hfiles⟩
    · rw [List.mem_singleton] at hnew
      subst hnew
      exact ⟨_, List.mem_append_right _ (List.mem_singleton_self _), hof⟩
  · intro cell hcell hvalue
    rcases List.mem_append.mp hcell with hold | hnew
    · obtain ⟨route', hroute', hkey', hof'⟩ := h.complete cell hold hvalue
      exact ⟨route', List.mem_append_left _ hroute', hkey', hof'.mono hfiles⟩
    · rw [List.mem_singleton] at hnew
      subst hnew
      exact ⟨route, List.mem_append_right _ (List.mem_singleton_self _), hkey, hof⟩
  · intro route' hroute'
    rcases List.mem_append.mp hroute' with hold | hnew
    · exact getElem?_of_prefix hkeys (h.fileKey route' hold)
    · rw [List.mem_singleton] at hnew
      subst hnew
      exact hfileKey

/-- A route is added to the table of its cell, with its file. -/
theorem TableOf.addRoute (h : TableOf dataset lanceVideos seen table) {row : EpisodeRow}
    {entry : Text × Nat} {path : Text} {route : Nat → LerobotVideoRoute}
    (hadd : table.addRoute dataset.info.videoKeys path route entry.2 = .ok table')
    (hkey : ∀ index, (route index).videoKeyIndex = entry.2)
    (hfile : ∀ index, (route index).videoFileIndex = index)
    (hof : ∀ index (videoFiles : List Text), videoFiles[index]? = some path →
      RouteOf dataset lanceVideos videoFiles row entry.1 (route index)) :
    TableOf dataset lanceVideos (seen ++ [(row, entry)]) table' := by
  unfold RouteTable.addRoute at hadd
  rcases indexOrAppend_cases table.videoFiles path with ⟨index, heq, hget⟩ | ⟨heq, -⟩
  · -- the file is known, so it has a feature
    have hlt : index < table.videoFileKeyIndices.length := by
      rw [h.keyIndices]
      exact (List.getElem?_eq_some_iff.mp hget).1
    have hprevious := List.getElem?_eq_getElem hlt
    simp only [heq, hprevious, except_check_eq_ok, not_not] at hadd
    obtain ⟨hsame, hadd⟩ := hadd
    cases hadd
    refine h.push (List.prefix_refl _) (List.prefix_refl _) h.keyIndices (hkey index) ?_
      (hof index _ hget)
    rw [hfile, hkey, hprevious, hsame]
  · have hnone : table.videoFileKeyIndices[table.videoFiles.length]? = none :=
      List.getElem?_eq_none (by rw [h.keyIndices])
    simp only [heq, hnone] at hadd
    cases hadd
    refine h.push (List.prefix_append _ _) (List.prefix_append _ _) ?_ (hkey _) ?_
      (hof _ _ (by simp))
    · rw [List.length_append, List.length_append, h.keyIndices]
      rfl
    · rw [hfile, hkey, ← h.keyIndices]
      simp

theorem timestampRange_eq_some {fromTimestamp toTimestamp : Double} {range : ℚ × ℚ}
    (h : timestampRange fromTimestamp toTimestamp = some range) :
    fromTimestamp = .finite range.1 ∧ toTimestamp = .finite range.2 ∧ 0 ≤ range.1 ∧
      range.1 ≤ range.2 := by
  cases fromTimestamp with
  | infinite negative => cases h
  | nan => cases h
  | finite a =>
      cases toTimestamp with
      | infinite negative => cases h
      | nan => cases h
      | finite b =>
          simp only [timestampRange] at h
          split at h
          · cases h
          · rename_i hrange
            cases h
            rw [not_or, not_lt, not_lt] at hrange
            exact ⟨rfl, rfl, hrange.1, hrange.2⟩

/-- One round of the inner loop. -/
theorem TableOf.addVideoColumns (h : TableOf dataset lanceVideos seen table) {row : EpisodeRow}
    {episodeIndex episodeLength : Int} {entry : Text × Nat}
    (hepisode : row.episodeIndex = some episodeIndex) (hlength : row.length = some episodeLength)
    (hnonneg : 0 ≤ episodeIndex) (hpos : 0 < episodeLength)
    (hkey : dataset.info.videoKeys[entry.2]? = some entry.1)
    (hadd : addVideoColumns dataset lanceVideos row episodeIndex episodeLength table entry =
      .ok table') :
    TableOf dataset lanceVideos (seen ++ [(row, entry)]) table' := by
  unfold LerobotVideoMetadata.addVideoColumns at hadd
  dsimp only at hadd
  split at hadd
  · rename_i hnull
    cases hadd
    exact h.skip hnull
  · rename_i chunkIndex fileIndex fromTimestamp toTimestamp hcolumns
    rw [except_check_eq_ok] at hadd
    obtain ⟨-, hadd⟩ := hadd
    cases hrange : timestampRange fromTimestamp toTimestamp with
    | none =>
        rw [hrange] at hadd
        cases hadd
    | some range =>
        obtain ⟨hfrom, hto, hordered⟩ := timestampRange_eq_some hrange
        rw [hrange] at hadd
        obtain ⟨path, hpath, hadd⟩ := except_bind_eq_ok.mp hadd
        refine h.addRoute hadd (fun _ => rfl) (fun _ => rfl) ?_
        intro index videoFiles hget
        rw [hfrom, hto] at hcolumns
        exact ⟨hepisode, hlength, hnonneg, hpos, hkey, hcolumns, hordered, path, hpath, hget⟩
  · cases hadd

/-- One round of the loop over the rows. -/
theorem TableOf.addEpisodeRow (h : TableOf dataset lanceVideos seen table) {row : EpisodeRow}
    (hadd : addEpisodeRow dataset lanceVideos table row = .ok table') :
    TableOf dataset lanceVideos (seen ++ cells dataset row) table' := by
  unfold LerobotVideoMetadata.addEpisodeRow at hadd
  split at hadd
  · rename_i episodeIndex episodeLength hepisode hlength
    simp only [except_check_eq_ok, not_lt, not_le] at hadd
    obtain ⟨hnonneg, hpos, hadd⟩ := hadd
    refine foldlM_ok (I := fun entries table =>
      TableOf dataset lanceVideos (seen ++ entries.map fun entry => (row, entry)) table) hadd
      (by simpa using h) ?_
    intro entries entry rest table table' hentries hI hround
    have hmem : entry ∈ dataset.info.videoKeys.zipIdx := by simp [hentries]
    have hkey : dataset.info.videoKeys[entry.2]? = some entry.1 :=
      List.mem_zipIdx_iff_getElem?.mp hmem
    rw [List.map_append, ← List.append_assoc]
    exact hI.addVideoColumns hepisode hlength hnonneg hpos hkey hround
  · cases hadd

end Table

/-- Sorted routes without a duplicate are strictly sorted. -/
theorem pairwise_lt_of_duplicateRoute {routes : List LerobotVideoRoute}
    (hsorted : routes.Pairwise fun a b => videoRouteLess b a = false)
    (h : duplicateRoute routes = none) : routes.Pairwise fun a b => routeKey a < routeKey b := by
  have hchain : (routes.map routeKey).IsChain (· < ·) := by
    induction routes using duplicateRoute.induct with
    | case1 previous route routes heq => simp [duplicateRoute, heq] at h
    | case2 previous route routes hne ih =>
        rw [duplicateRoute, if_neg hne] at h
        rw [List.pairwise_cons] at hsorted
        rw [List.map_cons, List.map_cons, List.isChain_cons_cons]
        have hle := hsorted.1 route List.mem_cons_self
        rw [videoRouteLess, decide_eq_false_iff_not, not_lt] at hle
        refine ⟨lt_of_le_of_ne hle ?_, ih hsorted.2 h⟩
        intro hkey
        exact hne (Prod.mk.inj hkey)
    | case3 routes hshort =>
        cases routes with
        | nil => exact List.isChain_nil
        | cons route rest =>
            cases rest with
            | nil => exact List.isChain_singleton _
            | cons next rest => exact absurd rfl (hshort route next rest)
  exact List.pairwise_map.mp (List.isChain_iff_pairwise.mp hchain)

/-- What loading returns. -/
structure LoadedFrom (dataset : LerobotDatasetMetadata) (lanceRows : List LanceVideoRow)
    (rows : List EpisodeRow) (metadata : LerobotVideoMetadata) : Prop where
  root_eq : metadata.root = dataset.root
  fps_eq : metadata.fps = dataset.info.fps
  videoKeys_eq : metadata.videoKeys = dataset.info.videoKeys
  videoFeatureMetadata_eq : metadata.videoFeatureMetadata = dataset.info.videoFeatureMetadata
  infoFingerprint_eq : metadata.infoFingerprint = dataset.infoFingerprint
  episodeFiles_eq : metadata.episodeFiles = dataset.episodeFiles
  sound : ∀ route ∈ metadata.routes, ∃ row ∈ rows, ∃ lanceVideos videoKey,
    RouteOf dataset lanceVideos metadata.videoFiles row videoKey route
  complete : dataset.info.totalEpisodes ≠ 0 → ∀ row ∈ rows, ∀ videoKey ∈ dataset.info.videoKeys,
    row.video videoKey ≠ ⟨none, none, none, none⟩ → ∃ route ∈ metadata.routes, ∃ lanceVideos,
      RouteOf dataset lanceVideos metadata.videoFiles row videoKey route
  valid : metadata.RoutesValid

/-- A sorted table of the routes of the rows is valid. -/
theorem TableOf.valid {dataset : LerobotDatasetMetadata}
    {lanceVideos : AList fun _ : LanceKey => Text} {seen : List (EpisodeRow × Text × Nat)}
    {table : RouteTable} (h : TableOf dataset lanceVideos seen table)
    {metadata : LerobotVideoMetadata} (hkeys : metadata.videoKeys = dataset.info.videoKeys)
    (hroutes : metadata.routes.Perm table.routes) (hfiles : metadata.videoFiles = table.videoFiles)
    (hsorted : metadata.routes.Pairwise fun a b => routeKey a < routeKey b) :
    metadata.RoutesValid := by
  have hof : ∀ route ∈ metadata.routes, ∃ row videoKey,
      RouteOf dataset lanceVideos table.videoFiles row videoKey route := by
    intro route hroute
    obtain ⟨cell, -, hcell⟩ := h.sound route (hroutes.mem_iff.mp hroute)
    exact ⟨_, _, hcell⟩
  refine ⟨hsorted, ?_, ?_, ?_, ?_⟩
  · intro route hroute
    obtain ⟨row, videoKey, hrow⟩ := hof route hroute
    rw [hkeys]
    exact (List.getElem?_eq_some_iff.mp hrow.keyIndex).1
  · intro route hroute
    obtain ⟨row, videoKey, hrow⟩ := hof route hroute
    obtain ⟨path, -, hget⟩ := hrow.videoFile
    rw [hfiles]
    exact (List.getElem?_eq_some_iff.mp hget).1
  · intro route hroute route' hroute' hsame
    have hkey := h.fileKey route (hroutes.mem_iff.mp hroute)
    rw [hsame, h.fileKey route' (hroutes.mem_iff.mp hroute')] at hkey
    exact (Option.some.inj hkey).symm
  · intro route hroute
    obtain ⟨row, videoKey, hrow⟩ := hof route hroute
    exact ⟨hrow.positive, hrow.nonnegative, hrow.range⟩

/-- **A loaded table has the routes of the episode rows, and is valid.** -/
theorem loadedFrom_of_load {sort : StdSort videoRouteLess} {dataset : LerobotDatasetMetadata}
    {lanceRows : List LanceVideoRow} {rows : List EpisodeRow} {metadata : LerobotVideoMetadata}
    (h : load sort dataset lanceRows rows = .ok metadata) :
    LoadedFrom dataset lanceRows rows metadata := by
  unfold load at h
  dsimp only at h
  split at h
  · rename_i hempty
    cases h
    refine ⟨rfl, rfl, rfl, rfl, rfl, rfl, by simp, ?_, ⟨.nil, by simp, by simp, by simp, by simp⟩⟩
    intro hepisodes row _ videoKey hkey
    rcases hempty with hzero | hnone
    · exact absurd hzero hepisodes
    · rw [hnone] at hkey
      cases hkey
  · obtain ⟨lanceVideos, -, h⟩ := except_bind_eq_ok.mp h
    obtain ⟨table, htable, h⟩ := except_bind_eq_ok.mp h
    have hof : TableOf dataset lanceVideos (rows.flatMap (cells dataset)) table := by
      refine foldlM_ok (I := fun rows table =>
        TableOf dataset lanceVideos (rows.flatMap (cells dataset)) table) htable
        ⟨by simp, by simp, rfl, by simp⟩ ?_
      intro seen row rest table table' _ hI hround
      rw [List.flatMap_append, List.flatMap_singleton]
      exact hI.addEpisodeRow hround
    have hperm := sort.perm table.routes
    cases hduplicate : duplicateRoute (sort.run table.routes) with
    | some route =>
        simp only [hduplicate] at h
        cases h
    | none =>
        simp only [hduplicate] at h
        cases h
        refine ⟨rfl, rfl, rfl, rfl, rfl, rfl, ?_, ?_, hof.valid rfl hperm rfl
          (pairwise_lt_of_duplicateRoute (sort.sorted _) hduplicate)⟩
        · intro route hroute
          obtain ⟨cell, hcell, hrow⟩ := hof.sound route (hperm.mem_iff.mp hroute)
          obtain ⟨row, hmem, hcell⟩ := List.mem_flatMap.mp hcell
          obtain ⟨entry, -, rfl⟩ := List.mem_map.mp hcell
          exact ⟨row, hmem, lanceVideos, entry.1, hrow⟩
        · intro _ row hmem videoKey hkey hvalue
          obtain ⟨index, hindex⟩ := List.mem_iff_getElem?.mp hkey
          have hcell : (row, videoKey, index) ∈ rows.flatMap (cells dataset) := by
            apply List.mem_flatMap.mpr
            refine ⟨row, hmem, List.mem_map.mpr ⟨(videoKey, index), ?_, rfl⟩⟩
            exact List.mem_zipIdx_iff_getElem?.mpr hindex
          obtain ⟨route, hroute, -, hrow⟩ := hof.complete _ hcell hvalue
          exact ⟨route, hperm.mem_iff.mpr hroute, lanceVideos, hrow⟩

/-! ## What the searches find -/

section Search

variable {metadata : LerobotVideoMetadata}

theorem episodeRoutes_eq (hvalid : metadata.RoutesValid) (episodeIndex : Int) :
    metadata.episodeRoutes episodeIndex =
      metadata.routes.filter fun route => decide (route.episodeIndex = episodeIndex) := by
  apply takeWhile_lowerBound_eq
  apply hvalid.sorted.imp
  intro a b hlt
  rcases Prod.Lex.lt_iff.mp hlt with hepisode | ⟨hepisode, -⟩
  · exact hepisode.le
  · exact hepisode.le

/-- **A key is found at its position in the sorted keys.** -/
theorem videoKeyIndex_eq_some (hkeys : metadata.videoKeys.Pairwise (· < ·)) {videoKey : Text}
    {index : Nat} :
    metadata.videoKeyIndex videoKey = some index ↔ metadata.videoKeys[index]? = some videoKey := by
  unfold videoKeyIndex
  dsimp only
  constructor
  · intro h
    split at h
    · rename_i hhead
      cases h
      have hmem : videoKey ∈ metadata.videoKeys :=
        (List.dropWhile_sublist _).mem (List.mem_of_head? hhead)
      exact getElem?_lowerBound (by simp) hkeys hmem
    · cases h
  · intro h
    have hmem := List.mem_of_getElem? h
    have hbefore : ∀ key, decide (key < videoKey) = true ↔ key < videoKey := by simp
    obtain ⟨l₁, l₂, hsplit, hbound⟩ := exists_split_lowerBound hbefore hkeys hmem
    have hposition := getElem?_lowerBound hbefore hkeys hmem
    rw [hbound, List.head?_cons, if_pos rfl, ← hbound]
    congr 1
    have hnodup : metadata.videoKeys.Nodup := hkeys.imp fun hlt => ne_of_lt hlt
    obtain ⟨hlt, hget⟩ := List.getElem?_eq_some_iff.mp h
    obtain ⟨hlt', hget'⟩ := List.getElem?_eq_some_iff.mp hposition
    exact (List.Nodup.getElem_inj_iff hnodup).mp (hget'.trans hget.symm)

theorem findKeyRoute_eq_some {videoKeyIndex : Nat} {routes : List LerobotVideoRoute}
    (hsorted : routes.Pairwise fun a b => a.videoKeyIndex < b.videoKeyIndex)
    {route : LerobotVideoRoute} :
    findKeyRoute videoKeyIndex routes = some route ↔
      route ∈ routes ∧ route.videoKeyIndex = videoKeyIndex := by
  induction routes with
  | nil => simp [findKeyRoute]
  | cons first routes ih =>
      rw [List.pairwise_cons] at hsorted
      rw [findKeyRoute, List.mem_cons]
      by_cases hfirst : first.videoKeyIndex = videoKeyIndex
      · rw [if_pos hfirst]
        constructor
        · rintro h
          cases h
          exact ⟨.inl rfl, hfirst⟩
        · rintro ⟨rfl | hmem, hkey⟩
          · rfl
          · have hlt := hsorted.1 route hmem
            omega
      · rw [if_neg hfirst]
        by_cases hpast : videoKeyIndex < first.videoKeyIndex
        · rw [if_pos hpast]
          constructor
          · intro h
            cases h
          · rintro ⟨rfl | hmem, hkey⟩
            · exact absurd hkey hfirst
            · have hlt := hsorted.1 route hmem
              omega
        · rw [if_neg hpast, ih hsorted.2]
          constructor
          · rintro ⟨hmem, hkey⟩
            exact ⟨.inr hmem, hkey⟩
          · rintro ⟨rfl | hmem, hkey⟩
            · exact absurd hkey hfirst
            · exact ⟨hmem, hkey⟩

/-- **The search finds the one route of an episode and feature.** -/
theorem findRoute_eq_some (hvalid : metadata.RoutesValid)
    (hkeys : metadata.videoKeys.Pairwise (· < ·)) {episodeIndex : Int} {videoKey : Text}
    {route : LerobotVideoRoute} :
    metadata.findRoute episodeIndex videoKey = some route ↔ route ∈ metadata.routes ∧
      route.episodeIndex = episodeIndex ∧
      metadata.videoKeys[route.videoKeyIndex]? = some videoKey := by
  have hsorted : (metadata.episodeRoutes episodeIndex).Pairwise
      fun a b => a.videoKeyIndex < b.videoKeyIndex := by
    rw [episodeRoutes_eq hvalid]
    refine (hvalid.sorted.filter _).imp_of_mem ?_
    intro a b ha hb hlt
    rw [List.mem_filter, decide_eq_true_iff] at ha hb
    rcases Prod.Lex.lt_iff.mp hlt with hepisode | ⟨-, hkey⟩
    · change a.episodeIndex < b.episodeIndex at hepisode
      omega
    · exact hkey
  have hmem : ∀ index, findKeyRoute index (metadata.episodeRoutes episodeIndex) = some route ↔
      (route ∈ metadata.routes ∧ route.episodeIndex = episodeIndex) ∧
        route.videoKeyIndex = index := by
    intro index
    rw [findKeyRoute_eq_some hsorted, episodeRoutes_eq hvalid, List.mem_filter, decide_eq_true_iff]
  unfold findRoute
  rw [Option.bind_eq_some_iff]
  constructor
  · rintro ⟨index, hindex, hfind⟩
    obtain ⟨⟨hroute, hepisode⟩, rfl⟩ := (hmem index).mp hfind
    exact ⟨hroute, hepisode, (videoKeyIndex_eq_some hkeys).mp hindex⟩
  · rintro ⟨hroute, hepisode, hkey⟩
    exact ⟨_, (videoKeyIndex_eq_some hkeys).mpr hkey, (hmem _).mpr ⟨⟨hroute, hepisode⟩, rfl⟩⟩

end Search

end LerobotVideoMetadata

end DuckdbLerobot.Storage
