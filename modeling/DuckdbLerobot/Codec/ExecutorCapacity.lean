import DuckdbLerobot.Codec.ExecutorState
import Mathlib.Algebra.Order.BigOperators.Group.List
import Mathlib.Algebra.Order.Group.Nat

/-!
# Capacity and pool size

What the loops over the live batches compute: `globalCodecCapacityLocked` is a lower bound of the
live host budgets that one of them attains, `desiredWorkerCountLocked` is
`min (largest host budget) (sum of the batches' worker demands)`, and its subtraction never wraps.
Then what the scan of the queue in `tryTakeJobLocked` finds.
-/

set_option autoImplicit false

namespace DuckdbLerobot.Codec

variable {ο κ ε : Type}

namespace LerobotCodecExecutor

variable (s : LerobotCodecExecutor ο κ ε)

/-! ## Host budgets -/

/-- The batches of the list that have remaining jobs. -/
def liveBatches : List Nat := s.batches.filter (live s)

theorem minimumHostBudget_le (batches : List Nat) (capacity : Nat) :
    minimumHostBudget s batches capacity ≤ capacity ∧
      ∀ batch ∈ batches, live s batch = true →
        minimumHostBudget s batches capacity ≤ (s.batchStates batch).hostThreadBudget := by
  induction batches generalizing capacity with
  | nil => exact ⟨Nat.le_refl _, by simp⟩
  | cons head batches ih =>
      unfold minimumHostBudget
      split
      · obtain ⟨hcapacity, hbatches⟩ := ih (min capacity (s.batchStates head).hostThreadBudget)
        refine ⟨Nat.le_trans hcapacity (Nat.min_le_left _ _), ?_⟩
        intro batch hbatch hlive
        rcases List.mem_cons.mp hbatch with rfl | hbatch
        · exact Nat.le_trans hcapacity (Nat.min_le_right _ _)
        · exact hbatches batch hbatch hlive
      · rename_i hdead
        obtain ⟨hcapacity, hbatches⟩ := ih capacity
        refine ⟨hcapacity, ?_⟩
        intro batch hbatch hlive
        rcases List.mem_cons.mp hbatch with rfl | hbatch
        · exact absurd hlive hdead
        · exact hbatches batch hbatch hlive

theorem minimumHostBudget_attained (batches : List Nat) (capacity : Nat) :
    minimumHostBudget s batches capacity = capacity ∨
      ∃ batch ∈ batches, live s batch = true ∧
        minimumHostBudget s batches capacity = (s.batchStates batch).hostThreadBudget := by
  induction batches generalizing capacity with
  | nil => exact .inl rfl
  | cons head batches ih =>
      unfold minimumHostBudget
      split
      · rename_i hlive
        rcases ih (min capacity (s.batchStates head).hostThreadBudget) with
          heq | ⟨batch, hbatch, hbatchLive, heq⟩
        · rw [heq]
          rcases Nat.le_total capacity (s.batchStates head).hostThreadBudget with hle | hle
          · exact .inl (Nat.min_eq_left hle)
          · exact .inr ⟨head, by simp, hlive, Nat.min_eq_right hle⟩
        · exact .inr ⟨batch, List.mem_cons_of_mem _ hbatch, hbatchLive, heq⟩
      · rcases ih capacity with heq | ⟨batch, hbatch, hbatchLive, heq⟩
        · exact .inl heq
        · exact .inr ⟨batch, List.mem_cons_of_mem _ hbatch, hbatchLive, heq⟩

/-- No live batch has a smaller host budget than the capacity. -/
theorem globalCodecCapacityLocked_le {batch : Nat} (hbatch : batch ∈ s.batches)
    (hlive : live s batch = true) :
    (globalCodecCapacityLocked s).1 ≤ (s.batchStates batch).hostThreadBudget := by
  have hmem : batch ∈ s.batches.filter (live s) := List.mem_filter.mpr ⟨hbatch, hlive⟩
  have hne : (s.batches.filter (live s)).isEmpty = false := by
    simpa using List.ne_nil_of_mem hmem
  simp only [globalCodecCapacityLocked, hne, Bool.false_eq_true, if_false]
  exact (minimumHostBudget_le s s.batches idxMaximum).2 batch hbatch hlive

/-- Some live batch has the capacity as its host budget. -/
theorem globalCodecCapacityLocked_attained {batch : Nat} (hbatch : batch ∈ s.batches)
    (hlive : live s batch = true)
    (hhost : (s.batchStates batch).hostThreadBudget < idxMaximum) :
    ∃ least ∈ s.batches, live s least = true ∧
      (globalCodecCapacityLocked s).1 = (s.batchStates least).hostThreadBudget := by
  have hle := globalCodecCapacityLocked_le s hbatch hlive
  have hne : (s.batches.filter (live s)).isEmpty = false := by
    simpa using List.ne_nil_of_mem (List.mem_filter.mpr ⟨hbatch, hlive⟩)
  simp only [globalCodecCapacityLocked, hne, Bool.false_eq_true, if_false] at hle ⊢
  rcases minimumHostBudget_attained s s.batches idxMaximum with heq | hattained
  · omega
  · exact hattained

/-! ## The size of the pool -/

/-- The workers that a batch can use. -/
def workerDemand (batch : Nat) : Nat :=
  min (s.batchStates batch).maxWorkers (s.batchStates batch).remainingJobs

/-- The largest of some host budgets. -/
def largestHostBudget (batches : List Nat) : Nat :=
  (batches.map fun batch => (s.batchStates batch).hostThreadBudget).foldr max 0

theorem maximumHostBudget_eq (batches : List Nat) (capacity : Nat) :
    maximumHostBudget s batches capacity =
      max capacity (largestHostBudget s (batches.filter (live s))) := by
  induction batches generalizing capacity with
  | nil => simp [maximumHostBudget, largestHostBudget]
  | cons head batches ih =>
      by_cases hlive : live s head = true
      · simp only [maximumHostBudget, hlive, if_true, ih, List.filter_cons, largestHostBudget,
          List.map_cons, List.foldr_cons, Nat.max_assoc]
      · simp only [maximumHostBudget, hlive, Bool.false_eq_true, if_false, ih, List.filter_cons]

/-- The values of `desired_workers` at which the loop subtracts it from the capacity. -/
def subtractedCounts (capacity : Nat) : List Nat → Nat → List Nat
  | [], _ => []
  | batch :: batches, desiredWorkers =>
      if live s batch then
        desiredWorkers ::
          if capacity - desiredWorkers ≤ workerDemand s batch then []
          else subtractedCounts capacity batches (desiredWorkers + workerDemand s batch)
      else subtractedCounts capacity batches desiredWorkers

theorem addDesiredWorkers_spec (capacity : Nat) (batches : List Nat) (desiredWorkers : Nat)
    (hle : desiredWorkers ≤ capacity) :
    addDesiredWorkers s capacity batches desiredWorkers =
        min capacity (desiredWorkers + ((batches.filter (live s)).map (workerDemand s)).sum) ∧
      ∀ count ∈ subtractedCounts s capacity batches desiredWorkers, count ≤ capacity := by
  induction batches generalizing desiredWorkers with
  | nil => exact ⟨by simp [addDesiredWorkers, hle], by simp [subtractedCounts]⟩
  | cons head batches ih =>
      by_cases hlive : live s head = true
      · by_cases hfull : capacity - desiredWorkers ≤ workerDemand s head
        · -- the demand so far reaches the capacity, and the loop returns
          have hmin := hfull
          unfold workerDemand at hmin
          refine ⟨?_, ?_⟩
          · simp only [addDesiredWorkers, hlive, if_true, hmin, List.filter_cons, List.map_cons,
              List.sum_cons]
            unfold workerDemand at hfull ⊢
            omega
          · simp [subtractedCounts, hlive, hfull, hle]
        · obtain ⟨hsum, hcounts⟩ := ih (desiredWorkers + workerDemand s head) (by omega)
          have hnot := hfull
          unfold workerDemand at hnot
          refine ⟨?_, ?_⟩
          · simp only [addDesiredWorkers, hlive, if_true, hnot, if_false, List.filter_cons,
              List.map_cons, List.sum_cons]
            rw [← Nat.add_assoc]
            exact hsum
          · intro count hcount
            simp only [subtractedCounts, hlive, if_true, hfull, if_false, List.mem_cons] at hcount
            rcases hcount with rfl | hcount
            · exact hle
            · exact hcounts count hcount
      · obtain ⟨hsum, hcounts⟩ := ih desiredWorkers hle
        refine ⟨?_, ?_⟩
        · simpa [addDesiredWorkers, hlive, List.filter_cons] using hsum
        · simpa [subtractedCounts, hlive] using hcounts

/-- The pool is sized by the largest live host budget and the demand of the live batches. -/
theorem desiredWorkerCountLocked_eq :
    desiredWorkerCountLocked s =
      min (largestHostBudget s (liveBatches s)) (((liveBatches s).map (workerDemand s)).sum) := by
  have hspec := (addDesiredWorkers_spec s (maximumHostBudget s s.batches 0) s.batches 0
    (Nat.zero_le _)).1
  rw [desiredWorkerCountLocked, hspec, maximumHostBudget_eq, Nat.zero_max, Nat.zero_add]
  rfl

/-- The subtraction of `desiredWorkerCountLocked` never wraps. -/
theorem desiredWorkerCountLocked_no_wrap :
    ∀ count ∈ subtractedCounts s (maximumHostBudget s s.batches 0) s.batches 0,
      count ≤ maximumHostBudget s s.batches 0 :=
  (addDesiredWorkers_spec s _ s.batches 0 (Nat.zero_le _)).2

theorem le_largestHostBudget {batches : List Nat} {batch : Nat} (hbatch : batch ∈ batches) :
    (s.batchStates batch).hostThreadBudget ≤ largestHostBudget s batches := by
  induction batches with
  | nil => cases hbatch
  | cons head batches ih =>
      unfold largestHostBudget at ih ⊢
      rw [List.map_cons, List.foldr_cons]
      rcases List.mem_cons.mp hbatch with rfl | hbatch
      · exact Nat.le_max_left _ _
      · exact Nat.le_trans (ih hbatch) (Nat.le_max_right _ _)

/-- A live batch with a positive budget and a positive worker limit needs a worker. -/
theorem desiredWorkerCountLocked_pos (batch : Nat) (hbatch : batch ∈ s.batches)
    (hlive : live s batch = true) (hworkers : 0 < (s.batchStates batch).maxWorkers)
    (hhost : 0 < (s.batchStates batch).hostThreadBudget) : 0 < desiredWorkerCountLocked s := by
  have hmem : batch ∈ liveBatches s := List.mem_filter.mpr ⟨hbatch, hlive⟩
  have hremaining : 0 < (s.batchStates batch).remainingJobs := by
    simp only [live, bne_iff_ne] at hlive
    omega
  have hdemand : 0 < workerDemand s batch := by
    unfold workerDemand
    omega
  have hsum := List.single_le_sum (fun _ _ => Nat.zero_le _) (workerDemand s batch)
    (List.mem_map_of_mem (f := workerDemand s) hmem)
  have hlargest := le_largestHostBudget s hmem
  rw [desiredWorkerCountLocked_eq]
  omega

/-! ## The scan of the queue -/

/-- What the scan finds: the first job that is cancelled or admitted. -/
theorem findJob_some {globalCapacity : Nat} {queue rest : List (LerobotQueuedCodecJob ο)}
    {entry : LerobotQueuedCodecJob ο} {reserved : Bool}
    (h : findJob s globalCapacity queue = some (entry, reserved, rest)) :
    ∃ before after, queue = before ++ entry :: after ∧ rest = before ++ after ∧
      (s.batchStates entry.batch).cancelled = !reserved ∧
      (reserved = true → admits s globalCapacity entry = true) := by
  induction queue generalizing rest with
  | nil => cases h
  | cons head queue ih =>
      unfold findJob at h
      split at h
      · rename_i hcancelled
        cases h
        exact ⟨[], queue, rfl, rfl, hcancelled, fun hfalse => by cases hfalse⟩
      · rename_i hcancelled
        split at h
        · rename_i hadmits
          cases h
          exact ⟨[], queue, rfl, rfl, by simpa using hcancelled, fun _ => hadmits⟩
        · simp only [Option.map_eq_some_iff, Prod.mk.injEq, Prod.exists] at h
          obtain ⟨job, flag, tail, hfound, rfl, rfl, rfl⟩ := h
          obtain ⟨before, after, rfl, rfl, hflag, hadmits⟩ := ih hfound
          exact ⟨head :: before, after, rfl, rfl, hflag, hadmits⟩

theorem findJob_isSome {globalCapacity : Nat} {queue : List (LerobotQueuedCodecJob ο)}
    {entry : LerobotQueuedCodecJob ο} (hentry : entry ∈ queue)
    (h : (s.batchStates entry.batch).cancelled = true ∨ admits s globalCapacity entry = true) :
    (findJob s globalCapacity queue).isSome = true := by
  induction queue with
  | nil => cases hentry
  | cons head queue ih =>
      unfold findJob
      split
      · rfl
      · split
        · rfl
        · rename_i hcancelled hadmits
          rcases List.mem_cons.mp hentry with rfl | hentry
          · rcases h with h | h
            · exact absurd h hcancelled
            · exact absurd h hadmits
          · rw [Option.isSome_map]
            exact ih hentry

/-- The limits that an admitted job respects. -/
theorem admits_iff {globalCapacity : Nat} {entry : LerobotQueuedCodecJob ο} :
    admits s globalCapacity entry = true ↔
      (s.batchStates entry.batch).activeWorkers < (s.batchStates entry.batch).maxWorkers ∧
      (s.batchStates entry.batch).activeCodecThreads + entry.codecThreads ≤
        (s.batchStates entry.batch).codecThreadBudget ∧
      s.activeCodecThreads + entry.codecThreads ≤ globalCapacity := by
  simp only [admits, Bool.not_eq_true', Bool.or_eq_false_iff, decide_eq_false_iff_not, Nat.not_le,
    Nat.not_lt, and_assoc]

/-! ## The shares of the jobs of a batch -/

/-- Each job asks for at least one thread and at most the whole budget. -/
theorem codecThreadsOf_bounds {maxWorkers codecThreadBudget : Nat} (hworkers : 0 < maxWorkers)
    (hle : maxWorkers ≤ codecThreadBudget) (jobIndex : Nat) :
    0 < codecThreadsOf maxWorkers codecThreadBudget jobIndex ∧
      codecThreadsOf maxWorkers codecThreadBudget jobIndex ≤ codecThreadBudget := by
  have hbase : 0 < codecThreadBudget / maxWorkers := Nat.div_pos hle hworkers
  have hdivision := Nat.div_add_mod codecThreadBudget maxWorkers
  have hmul : codecThreadBudget / maxWorkers ≤ maxWorkers * (codecThreadBudget / maxWorkers) :=
    Nat.le_mul_of_pos_left _ hworkers
  unfold codecThreadsOf
  split
  · rename_i hextra
    omega
  · omega

theorem queuedJobs_entries (batch : Nat) {maxWorkers codecThreadBudget : Nat} (hworkers : 0 < maxWorkers)
    (hle : maxWorkers ≤ codecThreadBudget) (jobs : List (LerobotCodecJob ο)) (jobIndex : Nat) :
    ∀ entry ∈ queuedJobs batch maxWorkers codecThreadBudget jobs jobIndex,
      entry.batch = batch ∧ 0 < entry.codecThreads ∧ entry.codecThreads ≤ codecThreadBudget := by
  induction jobs generalizing jobIndex with
  | nil => simp [queuedJobs]
  | cons job jobs ih =>
      intro entry hentry
      rcases List.mem_cons.mp hentry with rfl | hentry
      · exact ⟨rfl, codecThreadsOf_bounds hworkers hle jobIndex⟩
      · exact ih (jobIndex + 1) entry hentry

theorem queuedJobs_indexes (batch maxWorkers codecThreadBudget : Nat)
    (jobs : List (LerobotCodecJob ο)) (jobIndex : Nat) :
    (queuedJobs batch maxWorkers codecThreadBudget jobs jobIndex).map
      LerobotQueuedCodecJob.resultIndex = List.range' jobIndex jobs.length := by
  induction jobs generalizing jobIndex with
  | nil => rfl
  | cons job jobs ih => simp [queuedJobs, ih, List.range'_succ]

end LerobotCodecExecutor

end DuckdbLerobot.Codec
