import DuckdbLerobot.Video.ProducerDelivery
import DuckdbLerobot.Video.SourceRows

/-!
# The scan of a bind

A scan runs the queries of its bind data, and its producers call `BuildTargets`. What the producers deliver is then a
property of the rows of the queries.
-/

set_option autoImplicit false

namespace DuckdbLerobot.Video

open DuckdbLerobot.Library DuckdbLerobot.Path DuckdbLerobot.Storage

/-- The targets that `BuildTargets` makes of a row; none, if it throws. -/
def rowTargets (printSeconds : Double → String) (bindData : LerobotVideoFramesBindData) (row : SourceRow) :
    List LerobotDecodeTarget :=
  (buildTargets printSeconds bindData row).toOption.getD []

/-- The queries of a scan are those of its bind, and its producers call `BuildTargets`. -/
structure ScanOf (scan : VideoScan SourceRow LerobotDecodeTarget InvalidInputException)
    (printSeconds : Double → String) (bindData : LerobotVideoFramesBindData)
    (frames : Text → List (FrameRow Double)) : Prop where
  queries : List.Forall₂ (fun query chunks => (List.flatten chunks).Perm (SourceQuery.rows frames query))
    bindData.frameQueries scan.frameQueries
  build : scan.buildTargets = buildTargets printSeconds bindData

theorem sum_queryRows {ρ : Type} (queries : List (List (List ρ))) :
    (∑ index ∈ Finset.range queries.length, (((queries[index]?).getD []).flatten : Multiset ρ)) =
      (queries.flatMap List.flatten : List ρ) := by
  induction queries with
  | nil => rfl
  | cons chunks queries ih =>
      rw [List.length_cons, Finset.sum_range_succ', List.flatMap_cons, ← Multiset.coe_add, ← ih, add_comm]
      rfl

namespace ScanOf

variable {printSeconds : Double → String} {frames : Text → List (FrameRow Double)}
  {scan : VideoScan SourceRow LerobotDecodeTarget InvalidInputException} {bindData : LerobotVideoFramesBindData}

/-- The rows of a scan are those of its queries. -/
theorem sourceRows (h : ScanOf scan printSeconds bindData frames) :
    scan.sourceRows = (bindData.frameQueries.flatMap (SourceQuery.rows frames) : List SourceRow) := by
  have hperm : (scan.frameQueries.flatMap List.flatten).Perm
      (bindData.frameQueries.flatMap (SourceQuery.rows frames)) := by
    have hqueries := h.queries
    -- induction on the queries and their results, side by side
    generalize bindData.frameQueries = queries at hqueries ⊢
    generalize scan.frameQueries = results at hqueries ⊢
    induction hqueries with
    | nil => exact List.Perm.refl _
    | cons hquery _ ih =>
        rw [List.flatMap_cons, List.flatMap_cons]
        exact hquery.append ih
  calc scan.sourceRows
      = (scan.frameQueries.flatMap List.flatten : List SourceRow) := sum_queryRows scan.frameQueries
    _ = (bindData.frameQueries.flatMap (SourceQuery.rows frames) : List SourceRow) := Multiset.coe_eq_coe.mpr hperm

theorem targetsOf (h : ScanOf scan printSeconds bindData frames) (row : SourceRow) :
    scan.targetsOf row = (rowTargets printSeconds bindData row : List LerobotDecodeTarget) := by
  rw [VideoScan.targetsOf, h.build, rowTargets]
  cases buildTargets printSeconds bindData row <;> rfl

/-- The targets of a scan are those of the rows. -/
theorem sourceTargets (h : ScanOf scan printSeconds bindData frames) {rows : List SourceRow}
    (hrows : scan.sourceRows = (rows : Multiset SourceRow)) :
    scan.sourceTargets = (rows.flatMap (rowTargets printSeconds bindData) : List LerobotDecodeTarget) := by
  rw [VideoScan.sourceTargets, hrows, funext h.targetsOf, Multiset.coe_bind]

end ScanOf

/-! ## A scan with one consumer -/

/-- The results of some queries, with each row in a chunk of its own. -/
def singleRowResults (bindData : LerobotVideoFramesBindData) (frames : Text → List (FrameRow Double)) :
    List (List (List SourceRow)) :=
  bindData.frameQueries.map fun query => (query.rows frames).map fun row => [row]

theorem singleRowResults_ne_nil (bindData : LerobotVideoFramesBindData) (frames : Text → List (FrameRow Double)) :
    ∀ chunks ∈ singleRowResults bindData frames, ∀ chunk ∈ chunks, chunk ≠ [] := by
  intro chunks hchunks chunk hchunk
  obtain ⟨query, -, rfl⟩ := List.mem_map.mp hchunks
  obtain ⟨row, -, rfl⟩ := List.mem_map.mp hchunk
  exact List.cons_ne_nil _ _

/-- A scan of a bind with one producer and one consumer. -/
def singleRowScan (bindData : LerobotVideoFramesBindData) (frames : Text → List (FrameRow Double)) :
    VideoScan SourceRow LerobotDecodeTarget InvalidInputException where
  config :=
    { targetBufferSize := 2
      maxPendingTargets := 1
      fps := 30
      videoFileIndex := fun target => (bindData.routes.getD target.routeIndex default).videoFileIndex
      finalizeDecodeBuffer := id
      targetBufferSize_pos := Nat.two_pos
      maxPendingTargets_pos := Nat.one_pos
      finalize_shardIndex := fun _ => rfl
      finalize_targets := fun _ => List.Perm.refl _ }
  frameQueries := singleRowResults bindData frames
  buildTargets := buildTargets (fun _ => "") bindData
  producerThreads := 1
  consumers := 1
  producerThreads_pos := Nat.one_pos
  consumers_pos := Nat.one_pos
  chunk_ne_nil := singleRowResults_ne_nil bindData frames

theorem singleRowScan_of (bindData : LerobotVideoFramesBindData) (frames : Text → List (FrameRow Double)) :
    ScanOf (singleRowScan bindData frames) (fun _ => "") bindData frames where
  queries := by
    refine List.forall₂_map_right_iff.mpr (List.forall₂_same.mpr fun query _ => List.Perm.of_eq ?_)
    rw [← List.flatMap_def, List.flatMap_singleton']
  build := rfl

/-- A schedule for one query with one row and one target. -/
def singleRowSchedule : List (VideoScanLabel InvalidInputException) :=
  [.testStop 0, .getQuery 0, .fetch 0, .buildTargets 0, .testStop 0, .queueTargets 0 false,
    .getQuery 0, .fetch 0, .testStop 0, .getQuery 0, .producerFinished 0 [0],
    .claimBuffer 0 false, .finishBuffer 0 true, .claimBuffer 0 false]

/-- A test of the schedule gives a run that has claimed one target and has ended. -/
theorem singleRowScan_finished (bindData : LerobotVideoFramesBindData) (frames : Text → List (FrameRow Double))
    (h : ((singleRowScan bindData frames).system.replay singleRowSchedule).any
      (fun s => decide (s.claimedTargets.card = 1) && decide (s.consumers 0 = .finished)) = true) :
    ∃ s, (singleRowScan bindData frames).system.Reachable s ∧ s.claimedTargets.card = 1 ∧
      ∀ consumer < (singleRowScan bindData frames).consumers, s.consumers consumer = .finished := by
  obtain ⟨s, hs, htest⟩ := (singleRowScan bindData frames).system.exists_reachable_of_replay singleRowSchedule _ h
  obtain ⟨hcard, hended⟩ := Bool.and_eq_true_iff.mp htest
  refine ⟨s, hs, of_decide_eq_true hcard, ?_⟩
  intro consumer hconsumer
  obtain rfl : consumer = 0 := Nat.lt_one_iff.mp hconsumer
  exact of_decide_eq_true hended

end DuckdbLerobot.Video
