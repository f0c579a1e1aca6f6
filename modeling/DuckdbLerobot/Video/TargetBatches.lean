import DuckdbLerobot.Video.TargetRows

/-!
# Batches of `lerobot_video_targets`

What `BuildTargetBuffers` makes of a batch of rows: `BuiltFrom` says what the buffers are, and
`buildTargetBuffers_spec` when it throws. A batch of a chunk without invalid rows throws only when the
ordinals are used up (`ValidChunk.build_error`).
-/

set_option autoImplicit false

namespace DuckdbLerobot.Video

open DuckdbLerobot.Library DuckdbLerobot.Path DuckdbLerobot.Storage

/-- The target that the loop makes of a row. -/
def RowBuilt (data : LerobotVideoTargetsBindData) (routes : List LerobotVideoRoute) (row : InputRow)
    (target : LerobotDecodeTarget) : Prop :=
  ∃ request route delta, readRow data row = .ok request ∧
    resolveRequest data request = .ok (route, delta) ∧ routes[target.routeIndex]? = some route ∧
    target = rowTarget request route delta target.requestOrdinal target.routeIndex

/-- What the loop has made of the rows. -/
structure RowsBuilt (data : LerobotVideoTargetsBindData) (firstOrdinal : Nat) (rows : List InputRow)
    (batch : BatchTargets) : Prop where
  resolved : List.Forall₂ (RowBuilt data batch.routes) rows batch.targets
  ordinals : batch.targets.map LerobotDecodeTarget.requestOrdinal =
    List.range' firstOrdinal rows.length

section Batch

variable {data : LerobotVideoTargetsBindData}

/-- The loop at one row. -/
theorem RowsBuilt.addRow {firstOrdinal : Nat} {rows : List InputRow} {batch : BatchTargets}
    (h : RowsBuilt data firstOrdinal rows batch) (row : InputRow) :
    Yields (RowsBuilt data firstOrdinal (rows ++ [row]))
      (fun _ => ∀ request resolved, readRow data row = .ok request →
        resolveRequest data request ≠ .ok resolved)
      (addRow data firstOrdinal batch row) := by
  unfold Video.addRow
  cases hread : readRow data row with
  | error e => exact fun _ _ hok => by cases hok
  | ok request =>
      dsimp only [bind, Except.bind]
      cases hresolve : resolveRequest data request with
      | error e =>
          intro request' resolved hok
          cases hok
          simp [hresolve]
      | ok resolved =>
          obtain ⟨route, delta⟩ := resolved
          have hlength := h.resolved.length_eq
          constructor
          · apply List.rel_append
            · apply h.resolved.imp
              rintro row target ⟨request', route', delta', hread', hresolve', hroute', heq⟩
              exact ⟨request', route', delta', hread', hresolve',
                getElem?_of_prefix (List.prefix_append _ _) hroute', heq⟩
            · refine .cons ⟨request, route, delta, hread, hresolve, ?_, rfl⟩ .nil
              exact List.getElem?_concat_length
          · rw [List.map_append, h.ordinals, List.length_append, ← List.range'_append, Nat.mul_comm]
            simp [rowTarget, hlength]

/-- The loop over the rows. -/
theorem addRows_spec (firstOrdinal : Nat) (rows : List InputRow) :
    Yields (RowsBuilt data firstOrdinal rows)
      (fun _ => ∃ row ∈ rows, ∀ request resolved, readRow data row = .ok request →
        resolveRequest data request ≠ .ok resolved)
      (rows.foldlM (addRow data firstOrdinal) {}) := by
  apply foldlM_rule
  · exact ⟨.nil, rfl⟩
  · intro seen row rest batch hrows hbuilt
    apply (hbuilt.addRow row).mono
    · exact fun _ h => h
    · intro e hnone
      exact ⟨row, by simp [hrows], hnone⟩

/-- The files of the targets are those of the rows. -/
theorem RowsBuilt.targetFiles_eq {firstOrdinal : Nat} {rows : List InputRow} {batch : BatchTargets}
    (h : RowsBuilt data firstOrdinal rows batch) :
    targetFiles data.dataset batch.targets = rowFiles data rows := by
  have hepisodes : batch.targets.map LerobotDecodeTarget.episodeIndex =
      rows.filterMap (rowEpisode data) := by
    obtain ⟨hresolved, -⟩ := h
    generalize batch.targets = targets at hresolved
    induction hresolved with
    | nil => rfl
    | @cons row target rows targets hfirst _ ih =>
        obtain ⟨request, route, delta, hread, hresolve, -, heq⟩ := hfirst
        have hcell := (rowResolved_rowTarget hread hresolve target.requestOrdinal
          target.routeIndex).episodeIndex
        rw [← heq] at hcell
        have hepisode : rowEpisode data row = some target.episodeIndex := by
          rw [rowEpisode, hcell]
        rw [List.map_cons, List.filterMap_cons_some hepisode, ih]
  rw [targetFiles, rowFiles, hepisodes]

/-- The timestamps of a target: they are set, or its video timestamp is out of range. -/
theorem timeTarget_spec {printSeconds : Double → String} {routes : List LerobotVideoRoute}
    {timestamps : AList fun _ : LerobotTimestampKey => ℚ} {target : LerobotDecodeTarget}
    {timestamp : ℚ} {route : LerobotVideoRoute}
    (htimestamp : timestamps.lookup (targetKey target) = some timestamp)
    (hroute : routes[target.routeIndex]? = some route) :
    Yields (fun target' => ∃ videoTimestamp,
        videoTimestamp? data.options.tolerance route timestamp = some videoTimestamp ∧
        target' = { target with frameTimestamp := timestamp, videoTimestamp := videoTimestamp })
      (fun _ => videoTimestamp? data.options.tolerance route timestamp = none)
      (timeTarget data printSeconds routes timestamps target) := by
  have hget : routes.getD target.routeIndex default = route := by
    rw [List.getD_eq_getElem?_getD, hroute, Option.getD_some]
  rw [timeTarget, htimestamp]
  dsimp only
  rw [hget]
  cases videoTimestamp? data.options.tolerance route timestamp with
  | none => rfl
  | some videoTimestamp => exact ⟨videoTimestamp, rfl, rfl⟩

/-! ## Buffers -/

/-- A buffer that a decoder can serve: its targets are of one video file, and its clusters have each
of them once. -/
structure BufferReady (routes : List LerobotVideoRoute)
    (buffer : LerobotDecodeBuffer LerobotDecodeTarget) : Prop where
  targets : buffer.targets ≠ []
  clusters : buffer.clusters.flatten = List.range buffer.targets.length
  shard : ∀ target ∈ buffer.targets, ∃ route, routes[target.routeIndex]? = some route ∧
    route.videoFileIndex = buffer.shardIndex

/-- The buffers of a group have its targets, each once. -/
theorem shardBuffers_perm (arithmetic : Arithmetic) (sort : StdSort targetLess)
    (group : Nat × List LerobotDecodeTarget) :
    ((shardBuffers data arithmetic sort group).flatMap LerobotDecodeBuffer.targets).Perm group.2 := by
  conv_rhs => rw [← splitEvery_flatten data.options.targetBufferSize group.2]
  unfold shardBuffers
  generalize splitEvery data.options.targetBufferSize group.2 = parts
  induction parts with
  | nil => exact List.Perm.refl _
  | cons part parts ih =>
      rw [List.map_cons, List.flatMap_cons, List.flatten_cons]
      exact (finalizeDecodeBuffer_targets_perm arithmetic sort _ _).append ih

/-- A buffer of a group has targets of the group. -/
theorem mem_shardBuffers {arithmetic : Arithmetic} {sort : StdSort targetLess}
    {group : Nat × List LerobotDecodeTarget} {buffer : LerobotDecodeBuffer LerobotDecodeTarget}
    (h : buffer ∈ shardBuffers data arithmetic sort group) :
    buffer.shardIndex = group.1 ∧ buffer.targets ≠ [] ∧
      buffer.clusters.flatten = List.range buffer.targets.length ∧
      ∀ target ∈ buffer.targets, target ∈ group.2 := by
  obtain ⟨part, hpart, rfl⟩ := List.mem_map.mp h
  have hperm := finalizeDecodeBuffer_targets_perm arithmetic sort data.options.clusterGap
    ⟨group.1, data.metadata.fps, part, []⟩
  refine ⟨rfl, ?_, ?_, ?_⟩
  · intro hnil
    exact ne_nil_of_mem_splitEvery hpart (List.nil_perm.mp (hnil ▸ hperm))
  · rw [finalizeDecodeBuffer_clusters_flatten, hperm.length_eq]
  · intro target htarget
    rw [← splitEvery_flatten data.options.targetBufferSize group.2]
    exact List.mem_flatten.mpr ⟨part, hpart, hperm.mem_iff.mp htarget⟩

/-- The buffers of a batch have its targets, each once. -/
theorem batchBuffers_perm (arithmetic : Arithmetic) (sort : StdSort targetLess)
    (shardOrder : AnyOrder (Nat × List LerobotDecodeTarget)) (routes : List LerobotVideoRoute)
    (targets : List LerobotDecodeTarget) :
    (((shardOrder.run (targetsByShard routes targets)).flatMap
      (shardBuffers data arithmetic sort)).flatMap LerobotDecodeBuffer.targets).Perm targets := by
  have hgroups := groupBy_perm
    (fun target => some (routes.getD target.routeIndex default).videoFileIndex) targets
  have hall : targets.filter (fun target =>
      (some (routes.getD target.routeIndex default).videoFileIndex).isSome) = targets :=
    List.filter_eq_self.mpr fun _ _ => rfl
  rw [hall] at hgroups
  rw [List.flatMap_assoc]
  have hparts : ((shardOrder.run (targetsByShard routes targets)).flatMap fun group =>
      (shardBuffers data arithmetic sort group).flatMap LerobotDecodeBuffer.targets).Perm
      ((shardOrder.run (targetsByShard routes targets)).flatMap Prod.snd) :=
    List.Perm.flatMap_left _ fun group _ => shardBuffers_perm arithmetic sort group
  exact (hparts.trans ((shardOrder.perm _).flatMap_right _)).trans hgroups

end Batch

/-- **What a batch becomes**: a target for each row, with the ordinals claimed for the batch, in
buffers that hold each target once. -/
structure BuiltFrom {ψ φ : Type} (operator : TargetsOperator ψ φ) (firstOrdinal : Nat)
    (rows : List InputRow) (routes : List LerobotVideoRoute)
    (buffers : List (LerobotDecodeBuffer LerobotDecodeTarget)) : Prop where
  bound : firstOrdinal ≤ int64Maximum - rows.length
  targets : ∃ targets, List.Forall₂ (fun row target => ∃ route,
      routes[target.routeIndex]? = some route ∧ RowAnswered operator.data operator.frames
        (rowFiles operator.data rows) row route target) rows targets ∧
    targets.map LerobotDecodeTarget.requestOrdinal = List.range' firstOrdinal rows.length ∧
    (buffers.flatMap LerobotDecodeBuffer.targets).Perm targets
  ready : ∀ buffer ∈ buffers, BufferReady routes buffer

section Build

variable {ψ φ : Type} {operator : TargetsOperator ψ φ}

/-- The buffers of targets with a route are ready. -/
theorem bufferReady_of_mem {routes : List LerobotVideoRoute} {targets : List LerobotDecodeTarget}
    (hroutes : ∀ target ∈ targets, ∃ route, routes[target.routeIndex]? = some route)
    {shardOrder : AnyOrder (Nat × List LerobotDecodeTarget)}
    {buffer : LerobotDecodeBuffer LerobotDecodeTarget}
    (h : buffer ∈ (shardOrder.run (targetsByShard routes targets)).flatMap
      (shardBuffers operator.data operator.media.arithmetic operator.sort)) : BufferReady routes buffer := by
  obtain ⟨group, hgroup, hbuffer⟩ := List.mem_flatMap.mp h
  obtain ⟨hshard, hne, hclusters, hmem⟩ := mem_shardBuffers hbuffer
  have hgroup' := ((groupBy_spec _ targets).group group ((shardOrder.perm _).mem_iff.mp hgroup)).1
  refine ⟨hne, hclusters, ?_⟩
  intro target htarget
  have hin := hmem target htarget
  rw [hgroup', List.mem_filter, decide_eq_true_eq] at hin
  obtain ⟨route, hroute⟩ := hroutes target hin.1
  have hfile := Option.some.inj hin.2
  rw [List.getD_eq_getElem?_getD, hroute, Option.getD_some] at hfile
  exact ⟨route, hroute, hfile.trans hshard.symm⟩

/-- What a row that is found says about its target. -/
theorem RowFound.of_built {files : List Text} {routes : List LerobotVideoRoute} {row : InputRow}
    {target : LerobotDecodeTarget} (hfound : RowFound operator.data operator.frames files row)
    (hbuilt : RowBuilt operator.data routes row target) :
    ∃ route timestamp, routes[target.routeIndex]? = some route ∧
      OneTimestamp (matchingTimestamps (targetKey target) (rowsOf operator.frames files)) timestamp ∧
      (videoTimestamp? operator.data.options.tolerance route timestamp).isSome := by
  obtain ⟨request, route, delta, hread, hresolve, hroute, heq⟩ := hbuilt
  obtain ⟨request', route', delta', timestamp, hread', hresolve', hone, hrange⟩ := hfound
  rw [hread] at hread'
  cases hread'
  rw [hresolve] at hresolve'
  cases hresolve'
  refine ⟨route, timestamp, hroute, ?_, hrange⟩
  rw [heq]
  exact hone

/-- What `timeTarget` does to a target of the batch. -/
def Timed (operator : TargetsOperator ψ φ) (files : List Text) (routes : List LerobotVideoRoute)
    (target target' : LerobotDecodeTarget) : Prop :=
  ∃ timestamp videoTimestamp,
    OneTimestamp (matchingTimestamps (targetKey target) (rowsOf operator.frames files)) timestamp ∧
    (∀ route, routes[target.routeIndex]? = some route →
      videoTimestamp? operator.data.options.tolerance route timestamp = some videoTimestamp) ∧
    target' = { target with frameTimestamp := timestamp, videoTimestamp := videoTimestamp }

/-- The row of a target that is timed. -/
theorem Timed.answered {files : List Text} {routes : List LerobotVideoRoute} {row : InputRow}
    {target target' : LerobotDecodeTarget} (h : Timed operator files routes target target')
    (hbuilt : RowBuilt operator.data routes row target) :
    ∃ route, routes[target'.routeIndex]? = some route ∧
      RowAnswered operator.data operator.frames files row route target' := by
  obtain ⟨request, route, delta, hread, hresolve, hroute, heq⟩ := hbuilt
  obtain ⟨timestamp, videoTimestamp, hone, hrange, rfl⟩ := h
  have hresolved := rowResolved_rowTarget hread hresolve target.requestOrdinal target.routeIndex
  rw [← heq] at hresolved
  exact ⟨route, hroute,
    { requestId := hresolved.requestId
      episodeIndex := hresolved.episodeIndex
      frameIndex := hresolved.frameIndex
      videoKey := hresolved.videoKey
      deltaIndex := hresolved.deltaIndex
      delta := hresolved.delta
      targetId := hresolved.targetId
      inEpisode := hresolved.inEpisode
      targetFrame := hresolved.targetFrame
      timestamp := hone
      videoTimestamp := hrange route hroute }⟩

/-- Timing the targets keeps their ordinals. -/
theorem timed_ordinals {files : List Text} {routes : List LerobotVideoRoute}
    {targets targets' : List LerobotDecodeTarget}
    (h : List.Forall₂ (Timed operator files routes) targets targets') :
    targets'.map LerobotDecodeTarget.requestOrdinal =
      targets.map LerobotDecodeTarget.requestOrdinal := by
  induction h with
  | nil => rfl
  | cons hfirst _ ih =>
      obtain ⟨timestamp, videoTimestamp, -, -, rfl⟩ := hfirst
      rw [List.map_cons, List.map_cons, ih]

/-- The buffers of timed targets. -/
theorem builtFrom_of_timed {firstOrdinal : Nat} {rows : List InputRow} {batch : BatchTargets}
    {targets : List LerobotDecodeTarget} (hbound : firstOrdinal ≤ int64Maximum - rows.length)
    (hbuilt : RowsBuilt operator.data firstOrdinal rows batch)
    (htimed : List.Forall₂ (Timed operator (rowFiles operator.data rows) batch.routes) batch.targets
      targets) (shardOrder : AnyOrder (Nat × List LerobotDecodeTarget)) :
    BuiltFrom operator firstOrdinal rows batch.routes
      ((shardOrder.run (targetsByShard batch.routes targets)).flatMap
        (shardBuffers operator.data operator.media.arithmetic operator.sort)) := by
  have hanswered : List.Forall₂ (fun row target => ∃ route,
      batch.routes[target.routeIndex]? = some route ∧ RowAnswered operator.data operator.frames
        (rowFiles operator.data rows) row route target) rows targets :=
    forall₂_trans hbuilt.resolved htimed fun row target target' _ hrow htarget =>
      htarget.answered hrow
  refine ⟨hbound, ⟨targets, hanswered, ?_, batchBuffers_perm _ _ _ _ _⟩, ?_⟩
  · rw [← hbuilt.ordinals]
    exact timed_ordinals htimed
  · intro buffer hbuffer
    refine bufferReady_of_mem ?_ hbuffer
    intro target htarget
    obtain ⟨row, -, route, hroute, -⟩ := exists_left_of_forall₂ hanswered htarget
    exact ⟨route, hroute⟩

/-- **`BuildTargetBuffers`** builds the buffers of a batch, or it throws, since the ordinals are used
up, the rows are in no data file, or a row has an error. -/
theorem buildTargetBuffers_spec (choices : BatchChoices operator.frames) (firstOrdinal : Nat)
    (rows : List InputRow) :
    Yields (fun result => BuiltFrom operator firstOrdinal rows result.1 result.2)
      (fun _ => int64Maximum - rows.length < firstOrdinal ∨ rowFiles operator.data rows = [] ∨
        ∃ row ∈ rows, ¬RowFound operator.data operator.frames (rowFiles operator.data rows) row)
      (operator.buildTargetBuffers choices firstOrdinal rows) := by
  unfold TargetsOperator.buildTargetBuffers
  split
  · rename_i hbound
    exact .inl hbound
  rename_i hbound
  apply Yields.bind (Q := RowsBuilt operator.data firstOrdinal rows)
  · apply (addRows_spec firstOrdinal rows).mono
    · exact fun _ h => h
    · rintro e ⟨row, hrow, hnone⟩
      refine .inr (.inr ⟨row, hrow, ?_⟩)
      rintro ⟨request, route, delta, -, hread, hresolve, -⟩
      exact hnone request (route, delta) hread hresolve
  intro batch hbatch
  have hfiles := hbatch.targetFiles_eq
  have htimestamps := readTargetTimestamps_spec choices.serving choices.queryOrder
    operator.data.dataset batch.targets
  cases hread : readTargetTimestamps choices.serving choices.queryOrder operator.data.dataset
      batch.targets with
  | error e =>
      rw [hread] at htimestamps
      rcases htimestamps with hnil | ⟨target, htarget, hnone⟩
      · exact .inr (.inl (hfiles ▸ hnil))
      · obtain ⟨row, hrow, hbuilt⟩ := exists_left_of_forall₂ hbatch.resolved htarget
        refine .inr (.inr ⟨row, hrow, ?_⟩)
        intro hfound
        obtain ⟨route, timestamp, -, hone, -⟩ := hfound.of_built hbuilt
        apply hnone timestamp
        rw [targetRows, hfiles]
        exact hone
  | ok timestamps =>
      rw [hread] at htimestamps
      obtain ⟨-, hlookups⟩ := htimestamps
      apply Yields.bind
        (Q := List.Forall₂ (Timed operator (rowFiles operator.data rows) batch.routes) batch.targets)
      · apply mapM_spec
        intro target htarget
        obtain ⟨timestamp, hone, hlookup⟩ := hlookups target htarget
        rw [targetRows, hfiles] at hone
        obtain ⟨row, hrow, hbuilt⟩ := exists_left_of_forall₂ hbatch.resolved htarget
        have hroute : ∃ route, batch.routes[target.routeIndex]? = some route := by
          obtain ⟨_, route, _, -, -, hroute, -⟩ := hbuilt
          exact ⟨route, hroute⟩
        obtain ⟨route, hroute⟩ := hroute
        apply (timeTarget_spec hlookup hroute).mono
        · rintro target' ⟨videoTimestamp, hrange, heq⟩
          refine ⟨timestamp, videoTimestamp, hone, ?_, heq⟩
          intro route' hroute'
          rw [hroute] at hroute'
          cases hroute'
          exact hrange
        · intro e hrange
          refine .inr (.inr ⟨row, hrow, ?_⟩)
          intro hfound
          obtain ⟨route', timestamp', hroute', hone', hsome⟩ := hfound.of_built hbuilt
          rw [hroute] at hroute'
          cases hroute'
          rw [hone'.unique hone, hrange] at hsome
          cases hsome
      · intro targets htimed
        exact builtFrom_of_timed (not_lt.mp hbound) hbatch htimed choices.shardOrder

end Build

/-! ## Valid chunks -/

/-- A row without an error: it names a frame of an episode and a camera, and the frame has one row, in
the data file of the episode and in none of the other files. -/
def ValidRow (data : LerobotVideoTargetsBindData) (frames : Text → List (FrameRow Double))
    (files : List Text) (row : InputRow) : Prop :=
  ∃ request route delta episodeRoute timestamp, readRow data row = .ok request ∧
    resolveRequest data request = .ok (route, delta) ∧
    data.dataset.findEpisodeRoute request.episodeIndex = some episodeRoute ∧
    OneTimestamp (matchingTimestamps (requestKey request route delta)
      (frames (data.dataset.dataFile episodeRoute))) timestamp ∧
    (∀ file ∈ files, file ≠ data.dataset.dataFile episodeRoute →
      matchingTimestamps (requestKey request route delta) (frames file) = []) ∧
    (videoTimestamp? data.options.tolerance route timestamp).isSome

/-- A chunk without invalid rows. -/
def ValidChunk (data : LerobotVideoTargetsBindData) (frames : Text → List (FrameRow Double))
    (rows : List InputRow) : Prop :=
  ∀ row ∈ rows, ValidRow data frames (rowFiles data rows) row

section Valid

variable {data : LerobotVideoTargetsBindData} {frames : Text → List (FrameRow Double)}

theorem rowEpisode_of_read {row : InputRow} {request : TargetRequest}
    (h : readRow data row = .ok request) : rowEpisode data row = some request.episodeIndex := by
  obtain ⟨requestId, -, h⟩ := except_bind_eq_ok.mp h
  obtain ⟨episodeIndex, hepisodeIndex, h⟩ := except_bind_eq_ok.mp h
  obtain ⟨frameIndex, -, h⟩ := except_bind_eq_ok.mp h
  obtain ⟨videoKey, -, h⟩ := except_bind_eq_ok.mp h
  obtain ⟨deltaIndex, -, h⟩ := except_bind_eq_ok.mp h
  obtain ⟨targetId, -, h⟩ := except_bind_eq_ok.mp h
  cases h
  rw [rowEpisode, readUnifiedInteger_ok hepisodeIndex]

/-- The data file of a row is one of the files of a batch with the row. -/
theorem mem_rowFiles {rows : List InputRow} {row : InputRow} {request : TargetRequest}
    {episodeRoute : LerobotEpisodeRoute} (hrow : row ∈ rows)
    (hread : readRow data row = .ok request)
    (hroute : data.dataset.findEpisodeRoute request.episodeIndex = some episodeRoute) :
    data.dataset.dataFile episodeRoute ∈ rowFiles data rows := by
  apply LerobotDatasetMetadata.mem_resolveDataFiles.mpr
  refine ⟨request.episodeIndex, ?_, episodeRoute, hroute, rfl⟩
  exact mem_sortUnique.mpr (List.mem_filterMap.mpr ⟨row, hrow, rowEpisode_of_read hread⟩)

/-- The files of some rows are files of all rows. -/
theorem rowFiles_subset {batch rows : List InputRow} (h : ∀ row ∈ batch, row ∈ rows) :
    ∀ file ∈ rowFiles data batch, file ∈ rowFiles data rows := by
  intro file hfile
  obtain ⟨episodeIndex, hepisode, route, hroute, rfl⟩ :=
    LerobotDatasetMetadata.mem_resolveDataFiles.mp hfile
  apply LerobotDatasetMetadata.mem_resolveDataFiles.mpr
  refine ⟨episodeIndex, ?_, route, hroute, rfl⟩
  obtain ⟨row, hrow, hrowEpisode⟩ := List.mem_filterMap.mp (mem_sortUnique.mp hepisode)
  exact mem_sortUnique.mpr (List.mem_filterMap.mpr ⟨row, h row hrow, hrowEpisode⟩)

/-- **A row of a valid chunk has no error in any batch.** -/
theorem ValidChunk.found {batch rows : List InputRow} (hvalid : ValidChunk data frames rows)
    (hbatch : ∀ row ∈ batch, row ∈ rows) {row : InputRow} (hrow : row ∈ batch) :
    rowFiles data batch ≠ [] ∧ RowFound data frames (rowFiles data batch) row := by
  obtain ⟨request, route, delta, episodeRoute, timestamp, hread, hresolve, hepisode, hone, hothers,
    hrange⟩ := hvalid row (hbatch row hrow)
  have hfile := mem_rowFiles hrow hread hepisode
  refine ⟨List.ne_nil_of_mem hfile, request, route, delta, timestamp, hread, hresolve, ?_, hrange⟩
  have hnodup : (rowFiles data batch).Nodup := LerobotDatasetMetadata.nodup_resolveDataFiles _
  rw [matchingTimestamps_ownFile frames _ hnodup hfile
    fun file' hfile' hne => hothers file' (rowFiles_subset hbatch file' hfile') hne]
  exact hone

end Valid

end DuckdbLerobot.Video
