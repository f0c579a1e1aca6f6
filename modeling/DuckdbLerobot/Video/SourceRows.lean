import DuckdbLerobot.Library.LeftJoin
import DuckdbLerobot.Video.TargetRows

/-!
# The rows of the source queries

The producers of a scan run its queries, and `BuildTargets` makes targets of each row: one for each route of its
episode. A row of `lerobot_video_frames` is a row of a data file. A row of `lerobot_video_windows` is a requested frame
with a row of the data file, by a left join which also counts the rows of that frame.
-/

set_option autoImplicit false

namespace DuckdbLerobot.Video

open DuckdbLerobot.Library DuckdbLerobot.Path DuckdbLerobot.Storage

/-! ## Rows -/

/-- The columns of a window query. -/
structure WindowRow where
  requestId : Option Int
  requestOrdinal : Option Int
  deltaOrdinal : Option Int
  deltaTimestamp : Option Double
  deltaFrameOffset : Option Int
  isPadding : Option Bool
  episodeIndex : Option Int
  frameIndex : Option Int
  targetFrameIndex : Option Int
  timestamp : Option Double
  matchCount : Option Int

namespace RequestedTarget

/-- The frame that a row of `requested` joins with. -/
def key (requested : RequestedTarget) : LerobotTimestampKey :=
  toLex (requested.episodeIndex, requested.targetFrameIndex)

/-- The condition of the join. -/
def joins (requested : RequestedTarget) (frame : FrameRow Double) : Bool := frame.joins requested.key

/-- The partition of the match count. -/
def ordinals (requested : RequestedTarget) : Nat × Nat := (requested.requestOrdinal, requested.deltaOrdinal)

/-- A row of the result, with a row of the frames or without one. -/
def windowRow (requested : RequestedTarget) (frame : Option (FrameRow Double)) (matchCount : Nat) : WindowRow where
  requestId := some requested.requestId
  requestOrdinal := some requested.requestOrdinal
  deltaOrdinal := some requested.deltaOrdinal
  deltaTimestamp := some (.finite requested.deltaTimestamp)
  deltaFrameOffset := some requested.deltaFrameOffset
  isPadding := some requested.isPadding
  episodeIndex := some requested.episodeIndex
  frameIndex := some requested.frameIndex
  targetFrameIndex := some requested.targetFrameIndex
  timestamp := frame.bind FrameRow.timestamp
  matchCount := some matchCount

end RequestedTarget

namespace WindowQuery

variable (frames : Text → List (FrameRow Double)) (query : WindowQuery)

/-- The rows that the query joins with. -/
def frameRows : List (FrameRow Double) :=
  (frames query.file).filter fun row =>
    Scan.isIn row.episodeIndex query.episodeIndices && Scan.isIn row.frameIndex query.targetFrameIndices

/-- The result of the query, up to the order of its rows. -/
def rows : List WindowRow :=
  (countedJoin RequestedTarget.joins RequestedTarget.ordinals (fun frame => frame.frameIndex.isSome) query.requested
      (query.frameRows frames)).map fun row => row.1.1.windowRow row.1.2 row.2

end WindowQuery

/-- A row of a source query. -/
inductive SourceRow
  | frames (row : FrameRow Double)
  | window (row : WindowRow)

/-- The result of a query, up to the order of its rows. -/
def SourceQuery.rows (frames : Text → List (FrameRow Double)) : SourceQuery → List SourceRow
  | .frames query => ((frames query.file).filter fun row =>
      Scan.isIn row.episodeIndex query.episodeIndices && query.frameIndices.all (Scan.isIn row.frameIndex)).map .frames
  | .window query => (query.rows frames).map .window

/-! ## `BuildTargets` -/

/-- The variables of `BuildTargets`. -/
structure Alignment where
  requestId : Int := 0
  requestOrdinal : Nat := 0
  deltaOrdinal : Nat := 0
  deltaTimestamp : Double := 0
  deltaFrameOffset : Int := 0
  isPadding : Bool := false
  episodeIndex : Int
  frameIndex : Int
  targetFrameIndex : Int
  frameTimestamp : Double

/-- The branch for windows. -/
def readWindowRow : WindowRow → Except InvalidInputException Alignment
  | ⟨some requestId, some requestOrdinal, some deltaOrdinal, some deltaTimestamp, some deltaFrameOffset,
      some isPadding, some episodeIndex, some frameIndex, some targetFrameIndex, timestamp, matchCount⟩ =>
      match matchCount with
      | none => .error ⟨"LeRobot video window match count must not be NULL"⟩
      | some matchCount =>
          match timestamp, decide (matchCount = 1) with
          | some frameTimestamp, true =>
              if requestOrdinal < 0 ∨ deltaOrdinal < 0 then .error ⟨"Invalid LeRobot video window ordinals"⟩
              else .ok
                { requestId := requestId
                  requestOrdinal := requestOrdinal.toNat
                  deltaOrdinal := deltaOrdinal.toNat
                  deltaTimestamp := deltaTimestamp
                  deltaFrameOffset := deltaFrameOffset
                  isPadding := isPadding
                  episodeIndex := episodeIndex
                  frameIndex := frameIndex
                  targetFrameIndex := targetFrameIndex
                  frameTimestamp := frameTimestamp }
          | _, _ =>
              if matchCount = 0 then
                .error ⟨s!"LeRobot episode {episodeIndex} has no Parquet row for frame {targetFrameIndex}"⟩
              else
                .error ⟨s!"LeRobot episode {episodeIndex} has {matchCount} Parquet rows for frame " ++
                  s!"{targetFrameIndex}"⟩
  | _ => .error ⟨"LeRobot video window request columns must not contain NULL"⟩

/-- The branch for frames. -/
def readFrameRow : FrameRow Double → Except InvalidInputException Alignment
  | ⟨some episodeIndex, some frameIndex, some timestamp⟩ => .ok
      { episodeIndex := episodeIndex
        frameIndex := frameIndex
        targetFrameIndex := frameIndex
        frameTimestamp := timestamp }
  | _ => .error ⟨"LeRobot frame alignment columns must not contain NULL"⟩

/-- The branches of `BuildTargets`. -/
def readSourceRow : SourceRow → Except InvalidInputException Alignment
  | .frames row => readFrameRow row
  | .window row => readWindowRow row

/-- The values of the two timestamps, after the checks of a row. -/
def checkAlignment (alignment : Alignment) : Except InvalidInputException (ℚ × ℚ) :=
  match alignment.frameTimestamp.nonnegative?, alignment.deltaTimestamp with
  | some frameTimestamp, .finite deltaTimestamp =>
      if alignment.episodeIndex < 0 ∨ alignment.frameIndex < 0 ∨ alignment.targetFrameIndex < 0 then
        .error ⟨s!"Invalid LeRobot frame alignment metadata for episode {alignment.episodeIndex}, frame " ++
          s!"{alignment.targetFrameIndex}"⟩
      else .ok (frameTimestamp, deltaTimestamp)
  | _, _ => .error ⟨s!"Invalid LeRobot frame alignment metadata for episode {alignment.episodeIndex}, frame " ++
      s!"{alignment.targetFrameIndex}"⟩

/-- `routes_by_episode`, with the positions of the routes. -/
def routesByEpisode (routes : List LerobotVideoRoute) (episodeIndex : Int) : List (LerobotVideoRoute × Nat) :=
  routes.zipIdx.filter fun entry => decide (entry.1.episodeIndex = episodeIndex)

/-- The routes of an episode. -/
def routesOf (routes : List LerobotVideoRoute) (episodeIndex : Int) : List LerobotVideoRoute :=
  routes.filter fun route => decide (route.episodeIndex = episodeIndex)

theorem mem_routesByEpisode {routes : List LerobotVideoRoute} {episodeIndex : Int} {entry : LerobotVideoRoute × Nat}
    (h : entry ∈ routesByEpisode routes episodeIndex) :
    routes[entry.2]? = some entry.1 ∧ entry.1 ∈ routesOf routes episodeIndex := by
  rw [routesByEpisode, List.mem_filter, decide_eq_true_iff, List.mem_zipIdx_iff_getElem?] at h
  refine ⟨h.1, ?_⟩
  rw [routesOf, List.mem_filter, decide_eq_true_iff]
  exact ⟨List.mem_of_getElem? h.1, h.2⟩

theorem map_routesByEpisode (routes : List LerobotVideoRoute) (episodeIndex : Int) :
    (routesByEpisode routes episodeIndex).map Prod.fst = routesOf routes episodeIndex := by
  have hfilter := List.filter_map (f := Prod.fst) (l := routes.zipIdx)
    (p := fun route : LerobotVideoRoute => decide (route.episodeIndex = episodeIndex))
  rw [List.zipIdx_map_fst] at hfilter
  exact hfilter.symm

theorem getD_of_mem_routesByEpisode {routes : List LerobotVideoRoute} {episodeIndex : Int}
    {entry : LerobotVideoRoute × Nat} (h : entry ∈ routesByEpisode routes episodeIndex) :
    routes.getD entry.2 default = entry.1 := by
  rw [List.getD_eq_getElem?_getD, (mem_routesByEpisode h).1, Option.getD_some]

section Build

variable (printSeconds : Double → String) (data : LerobotVideoFramesBindData)

/-- The target of a row and a route. -/
def alignedTarget (alignment : Alignment) (frameTimestamp deltaTimestamp : ℚ) (entry : LerobotVideoRoute × Nat) :
    Except InvalidInputException LerobotDecodeTarget :=
  match videoTimestamp? data.options.tolerance entry.1 frameTimestamp with
  | none => .error ⟨s!"LeRobot episode {alignment.episodeIndex} frame {alignment.targetFrameIndex} timestamp " ++
      s!"{printSeconds (Double.rounded (entry.1.fromTimestamp + frameTimestamp))} falls outside video route " ++
      s!"[{printSeconds (.finite entry.1.fromTimestamp)}, {printSeconds (.finite entry.1.toTimestamp)}] for key " ++
      s!"'{String.ofList (data.metadata.getVideoKey entry.1)}'"⟩
  | some videoTimestamp => .ok
      { requestId := alignment.requestId
        requestOrdinal := alignment.requestOrdinal
        deltaOrdinal := alignment.deltaOrdinal
        deltaTimestamp := deltaTimestamp
        deltaFrameOffset := alignment.deltaFrameOffset
        isPadding := alignment.isPadding
        episodeIndex := alignment.episodeIndex
        frameIndex := alignment.frameIndex
        targetFrameIndex := alignment.targetFrameIndex
        frameTimestamp := frameTimestamp
        videoTimestamp := videoTimestamp
        routeIndex := entry.2 }

/-- `BuildTargets`. -/
def buildTargets (row : SourceRow) : Except InvalidInputException (List LerobotDecodeTarget) := do
  let alignment ← readSourceRow row
  let (frameTimestamp, deltaTimestamp) ← checkAlignment alignment
  (routesByEpisode data.routes alignment.episodeIndex).mapM
    (alignedTarget printSeconds data alignment frameTimestamp deltaTimestamp)

/-- The target of a row at a time of the video. -/
def Alignment.decodeTarget (alignment : Alignment) (frameTimestamp deltaTimestamp videoTimestamp : ℚ)
    (routeIndex : Nat) : LerobotDecodeTarget where
  requestId := alignment.requestId
  requestOrdinal := alignment.requestOrdinal
  deltaOrdinal := alignment.deltaOrdinal
  deltaTimestamp := deltaTimestamp
  deltaFrameOffset := alignment.deltaFrameOffset
  isPadding := alignment.isPadding
  episodeIndex := alignment.episodeIndex
  frameIndex := alignment.frameIndex
  targetFrameIndex := alignment.targetFrameIndex
  frameTimestamp := frameTimestamp
  videoTimestamp := videoTimestamp
  routeIndex := routeIndex

/-- A row has a target for a route exactly if the route has a time for its frame. -/
theorem alignedTarget_eq_ok {printSeconds : Double → String} {data : LerobotVideoFramesBindData}
    {alignment : Alignment} {frameTimestamp deltaTimestamp : ℚ} {entry : LerobotVideoRoute × Nat}
    {target : LerobotDecodeTarget} :
    alignedTarget printSeconds data alignment frameTimestamp deltaTimestamp entry = .ok target ↔
      ∃ videoTimestamp, videoTimestamp? data.options.tolerance entry.1 frameTimestamp = some videoTimestamp ∧
        alignment.decodeTarget frameTimestamp deltaTimestamp videoTimestamp entry.2 = target := by
  unfold alignedTarget
  split
  · rename_i hnone
    constructor
    · intro h
      cases h
    · rintro ⟨_, hsome, -⟩
      rw [hnone] at hsome
      cases hsome
  · rename_i videoTimestamp hsome
    constructor
    · intro h
      exact ⟨videoTimestamp, hsome, Except.ok.inj h⟩
    · rintro ⟨videoTimestamp', hsome', rfl⟩
      rw [hsome] at hsome'
      cases hsome'
      rfl

end Build

/-! ## What a requested frame becomes -/

/-- What a row of a requested frame is read as. -/
def RequestedTarget.alignment (requested : RequestedTarget) (timestamp : Double) : Alignment where
  requestId := requested.requestId
  requestOrdinal := requested.requestOrdinal
  deltaOrdinal := requested.deltaOrdinal
  deltaTimestamp := .finite requested.deltaTimestamp
  deltaFrameOffset := requested.deltaFrameOffset
  isPadding := requested.isPadding
  episodeIndex := requested.episodeIndex
  frameIndex := requested.frameIndex
  targetFrameIndex := requested.targetFrameIndex
  frameTimestamp := timestamp

/-- The rows of a requested frame, among these rows of its data file. -/
def RequestedTarget.rows (frameRows : List (FrameRow Double)) (requested : RequestedTarget) : List SourceRow :=
  (joinOne RequestedTarget.joins frameRows requested).map fun row =>
    .window (requested.windowRow row.2 (frameRows.filter requested.joins).length)

/-- A requested frame of an episode. -/
structure RequestedTarget.InEpisode (requested : RequestedTarget) : Prop where
  episodeIndex : 0 ≤ requested.episodeIndex
  frameIndex : 0 ≤ requested.frameIndex
  targetFrameIndex : 0 ≤ requested.targetFrameIndex

section Requested

variable {printSeconds : Double → String} {data : LerobotVideoFramesBindData} {requested : RequestedTarget}
  {frameRows : List (FrameRow Double)}

theorem readWindowRow_eq_ok {frame : Option (FrameRow Double)} {matchCount : Nat} {alignment : Alignment} :
    readWindowRow (requested.windowRow frame matchCount) = .ok alignment ↔
      matchCount = 1 ∧ ∃ timestamp, frame.bind FrameRow.timestamp = some timestamp ∧
        alignment = requested.alignment timestamp := by
  simp only [readWindowRow, RequestedTarget.windowRow]
  split
  · -- one row with a timestamp; the ordinals of a query are not negative
    rename_i timestamp htimestamp hone
    have hone' : matchCount = 1 := by exact_mod_cast of_decide_eq_true hone
    rw [if_neg (by omega), htimestamp]
    constructor
    · intro h
      cases h
      exact ⟨hone', timestamp, rfl, rfl⟩
    · rintro ⟨-, _, htimestamp', rfl⟩
      cases htimestamp'
      rfl
  · -- no row, several rows, or a row whose timestamp is NULL
    rename_i hnot
    constructor
    · intro h
      split at h <;> cases h
    · rintro ⟨rfl, timestamp, htimestamp, -⟩
      exact absurd rfl (hnot timestamp htimestamp)

theorem checkAlignment_eq_ok (hepisode : requested.InEpisode) {timestamp : Double} {checked : ℚ × ℚ} :
    checkAlignment (requested.alignment timestamp) = .ok checked ↔
      ∃ value, timestamp = .finite value ∧ 0 ≤ value ∧ checked = (value, requested.deltaTimestamp) := by
  have hnonneg : ¬((requested.alignment timestamp).episodeIndex < 0 ∨ (requested.alignment timestamp).frameIndex < 0 ∨
      (requested.alignment timestamp).targetFrameIndex < 0) :=
    not_or.mpr ⟨not_lt.mpr hepisode.episodeIndex,
      not_or.mpr ⟨not_lt.mpr hepisode.frameIndex, not_lt.mpr hepisode.targetFrameIndex⟩⟩
  have hframe : (requested.alignment timestamp).frameTimestamp = timestamp := rfl
  have hdelta : (requested.alignment timestamp).deltaTimestamp = .finite requested.deltaTimestamp := rfl
  rw [checkAlignment, hframe, hdelta]
  cases hvalue : timestamp.nonnegative? with
  | none =>
      constructor
      · intro h
        cases h
      · rintro ⟨value, rfl, hle, -⟩
        rw [nonnegative?_eq_some.mpr ⟨rfl, hle⟩] at hvalue
        cases hvalue
  | some value =>
      obtain ⟨rfl, hle⟩ := nonnegative?_eq_some.mp hvalue
      dsimp only
      rw [if_neg hnonneg]
      constructor
      · intro h
        cases h
        exact ⟨value, rfl, hle, rfl⟩
      · rintro ⟨value', heq, -, rfl⟩
        cases heq
        rfl

/-- What `BuildTargets` makes of a row of a requested frame. -/
theorem buildTargets_window (hepisode : requested.InEpisode) {frame : Option (FrameRow Double)} {matchCount : Nat}
    {targets : List LerobotDecodeTarget} :
    buildTargets printSeconds data (.window (requested.windowRow frame matchCount)) = .ok targets ↔
      matchCount = 1 ∧ ∃ timestamp, frame.bind FrameRow.timestamp = some (.finite timestamp) ∧ 0 ≤ timestamp ∧
        (routesByEpisode data.routes requested.episodeIndex).mapM (alignedTarget printSeconds data
          (requested.alignment (.finite timestamp)) timestamp requested.deltaTimestamp) = .ok targets := by
  simp only [buildTargets, readSourceRow, except_bind_eq_ok, readWindowRow_eq_ok]
  constructor
  · rintro ⟨alignment, ⟨hone, timestamp, htimestamp, rfl⟩, checked, hchecked, htargets⟩
    obtain ⟨value, rfl, hle, rfl⟩ := (checkAlignment_eq_ok hepisode).mp hchecked
    exact ⟨hone, value, htimestamp, hle, htargets⟩
  · rintro ⟨hone, value, htimestamp, hle, htargets⟩
    exact ⟨_, ⟨hone, _, htimestamp, rfl⟩, _, (checkAlignment_eq_ok hepisode).mpr ⟨value, rfl, hle, rfl⟩, htargets⟩

theorem rows_none (h : frameRows.filter requested.joins = []) :
    requested.rows frameRows = [.window (requested.windowRow none 0)] := by
  rw [RequestedTarget.rows, joinOne_none h, h]
  rfl

theorem rows_some (h : frameRows.filter requested.joins ≠ []) :
    requested.rows frameRows = (frameRows.filter requested.joins).map fun frame =>
      .window (requested.windowRow (some frame) (frameRows.filter requested.joins).length) := by
  rw [RequestedTarget.rows, joinOne_some h, List.map_map]
  rfl

theorem matchingTimestamps_requested :
    matchingTimestamps requested.key frameRows = (frameRows.filter requested.joins).map FrameRow.timestamp := rfl

/-- **A requested frame whose one row has a valid timestamp** has one row in the result. -/
theorem rows_of_oneTimestamp {timestamp : ℚ} (h : OneTimestamp (matchingTimestamps requested.key frameRows) timestamp) :
    ∃ frame, requested.rows frameRows = [.window (requested.windowRow (some frame) 1)] ∧
      frame.timestamp = some (.finite timestamp) := by
  have hrows := h.1
  rw [matchingTimestamps_requested] at hrows
  obtain ⟨frame, hmatching, htimestamp⟩ := List.map_eq_singleton_iff.mp hrows
  refine ⟨frame, ?_, htimestamp⟩
  have hsome : frameRows.filter requested.joins ≠ [] := by
    rw [hmatching]
    exact List.cons_ne_nil _ _
  rw [rows_some hsome, hmatching]
  rfl

/-- **The rows of a requested frame are built exactly if it has one row in the data file**, with a valid timestamp. -/
theorem rows_built (hepisode : requested.InEpisode) :
    (∀ row ∈ requested.rows frameRows, ∃ targets, buildTargets printSeconds data row = .ok targets) ↔
      ∃ timestamp targets, OneTimestamp (matchingTimestamps requested.key frameRows) timestamp ∧
        (routesByEpisode data.routes requested.episodeIndex).mapM (alignedTarget printSeconds data
          (requested.alignment (.finite timestamp)) timestamp requested.deltaTimestamp) = .ok targets := by
  constructor
  · intro h
    by_cases hnone : frameRows.filter requested.joins = []
    · -- the left join keeps a row for the request, and its count is zero
      rw [rows_none hnone] at h
      obtain ⟨targets, htargets⟩ := h _ (List.mem_singleton_self _)
      cases ((buildTargets_window hepisode).mp htargets).1
    · -- any of the rows has the count of all of them, so that it is the only one
      rw [rows_some hnone] at h
      obtain ⟨frame, hframe⟩ := List.exists_mem_of_ne_nil _ hnone
      obtain ⟨targets, htargets⟩ := h _ (List.mem_map_of_mem hframe)
      obtain ⟨hone, timestamp, htimestamp, hle, hmap⟩ := (buildTargets_window hepisode).mp htargets
      obtain ⟨only, honly⟩ := List.length_eq_one_iff.mp hone
      rw [honly, List.mem_singleton] at hframe
      refine ⟨timestamp, targets, ⟨?_, hle⟩, hmap⟩
      rw [matchingTimestamps_requested, honly, ← hframe, List.map_singleton]
      exact congrArg (fun t => [t]) htimestamp
  · rintro ⟨timestamp, targets, hone, hmap⟩ row hrow
    obtain ⟨frame, hrows, htimestamp⟩ := rows_of_oneTimestamp hone
    rw [hrows, List.mem_singleton] at hrow
    rw [hrow]
    exact ⟨targets, (buildTargets_window hepisode).mpr ⟨rfl, timestamp, htimestamp, hone.2, hmap⟩⟩

end Requested

/-! ## What a query returns -/

section Query

variable {frames : Text → List (FrameRow Double)} {query : WindowQuery}

/-- A query that selects the frames of all its requested rows. -/
structure WindowQuery.Selects (query : WindowQuery) : Prop where
  ordinals : (query.requested.map RequestedTarget.ordinals).Nodup
  episodeIndices : ∀ requested ∈ query.requested, requested.episodeIndex ∈ query.episodeIndices
  targetFrameIndices : ∀ requested ∈ query.requested, requested.targetFrameIndex ∈ query.targetFrameIndices

theorem joins_iff {requested : RequestedTarget} {frame : FrameRow Double} :
    requested.joins frame = true ↔
      frame.episodeIndex = some requested.episodeIndex ∧ frame.frameIndex = some requested.targetFrameIndex := by
  rw [RequestedTarget.joins, FrameRow.joins, Bool.and_eq_true, beq_iff_eq, beq_iff_eq]
  rfl

/-- The filter of the query leaves the rows of its requested frames. -/
theorem WindowQuery.Selects.filter_frameRows (h : query.Selects) {requested : RequestedTarget}
    (hrequested : requested ∈ query.requested) :
    (query.frameRows frames).filter requested.joins = (frames query.file).filter requested.joins := by
  rw [WindowQuery.frameRows, List.filter_filter]
  apply List.filter_congr
  intro frame _
  cases hjoins : requested.joins frame with
  | false => rfl
  | true =>
      obtain ⟨hepisode, hframe⟩ := joins_iff.mp hjoins
      rw [Bool.true_and, Bool.and_eq_true, Scan.isIn_iff, Scan.isIn_iff]
      exact ⟨⟨_, h.episodeIndices requested hrequested, hepisode⟩, ⟨_, h.targetFrameIndices requested hrequested, hframe⟩⟩

/-- **A window query returns the rows of its requested frames**, and counts the rows of each of them. -/
theorem WindowQuery.Selects.rows_eq (h : query.Selects) :
    (SourceQuery.window query).rows frames = query.requested.flatMap (RequestedTarget.rows (frames query.file)) := by
  -- `count(frames.frame_index)` counts every row that a request joins with
  have hcounted : ∀ requested ∈ query.requested, ∀ frame ∈ query.frameRows frames, requested.joins frame = true →
      frame.frameIndex.isSome = true := by
    intro requested _ frame _ hjoins
    rw [(joins_iff.mp hjoins).2]
    rfl
  rw [SourceQuery.rows, WindowQuery.rows, countedJoin_eq h.ordinals hcounted, List.map_map, List.map_flatMap]
  apply List.flatMap_congr
  intro requested hrequested
  have hfilter : (query.frameRows frames).filter requested.joins = (frames query.file).filter requested.joins :=
    h.filter_frameRows hrequested
  rw [RequestedTarget.rows, joinOne_congr hfilter, hfilter, List.map_map]
  apply List.map_congr_left
  intro row hrow
  rw [Function.comp_apply, Function.comp_apply, left_of_mem_joinOne hrow]

end Query

end DuckdbLerobot.Video
