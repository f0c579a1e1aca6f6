import DuckdbLerobot.Codec.ExecutorLedger

/-!
# Accounting of the codec executor

What an exact ledger says about the executor, in every reachable state:

* `executor_settles_once`: each job is counted exactly once, and behind its wait loop a call has no
  job in the queue or in the hands of a worker;
* `executor_within_budget`: the thread counters are the sums of the reservations, and no budget is
  exceeded;
* `executor_runnable`: when nothing runs, some queued job can be taken.
-/

set_option autoImplicit false

namespace DuckdbLerobot.Codec

open DuckdbLerobot.Library LerobotCodecExecutor

variable {ο κ ε : Type}

namespace Executor

variable {s t : ExecutorState ο κ ε}

/-! ## Settlement -/

theorem count_settledIn (settled : List (Nat × Nat)) (call index : Nat) :
    settled.count (call, index) = (settledIn settled call).count index := by
  induction settled with
  | nil => rfl
  | cons entry settled ih =>
      obtain ⟨batch, place⟩ := entry
      have hcons : settledIn ((batch, place) :: settled) call =
          Footprint.indexIn call (some ⟨⟨batch, place, 0⟩, false, false⟩) +
            settledIn settled call :=
        (settledIn_append [(batch, place)] settled call).trans
          (congrArg (· + _) (settledIn_singleton ⟨batch, place, 0⟩ false false call))
      rw [hcons, Multiset.count_add, ← ih, List.count_cons]
      by_cases hbatch : batch = call
      · subst hbatch
        by_cases hplace : place = index
        · subst hplace
          simp [Footprint.indexIn, Nat.add_comm]
        · simp [Footprint.indexIn, hplace, Ne.symm hplace]
      · simp [Footprint.indexIn, hbatch]

/-- A worker's job in the ledger. -/
theorem footprint_of_holding {worker : Nat} {job : TakenJob ο κ ε}
    (h : s.workers worker = .holding job) : (ledger s).footprints worker =
      some ⟨slotOf job.entry, job.reservedBudget, decide (job.stage = .counting)⟩ := by
  show footprintOf (s.workers worker) = _
  rw [h]
  rfl

/-- Behind its wait loop, nothing of a call's batch is left anywhere. -/
theorem nothing_left (h : LedgerInvariant (ledger s)) {call : Nat}
    (hleft : stageOf (s.calls call).phase = .left) :
    (∀ entry ∈ s.shared.queue, entry.batch ≠ call) ∧
    (∀ worker job, s.workers worker = .holding job → job.entry.batch ≠ call) ∧
    settledIn s.settled call = Multiset.range (s.batch call).results.length := by
  have hstage := h.stages call
  have hcase : (ledger s).stages call = .left := hleft
  rw [hcase] at hstage
  obtain ⟨hqueued, htaken, hdropped⟩ := h.places_of_completed hstage.2
  refine ⟨?_, ?_, ?_⟩
  · rintro entry hentry rfl
    have hmem : entry.resultIndex ∈ queuedIn (ledger s).queue entry.batch := by
      apply Multiset.mem_coe.mpr
      apply List.mem_map.mpr
      exact ⟨slotOf entry, List.mem_filter.mpr ⟨List.mem_map_of_mem hentry, by simp [slotOf]⟩, rfl⟩
    rw [hqueued] at hmem
    exact absurd hmem (Multiset.notMem_zero _)
  · rintro worker job hholding rfl
    exact h.not_left_of_held (footprint_of_holding hholding) hstage.2
  · have hplaces := h.places call
    rw [hqueued, htaken, hdropped, zero_add, zero_add, zero_add] at hplaces
    exact hplaces

/-- Two batches in one queue. The first job of batch 0 fails, its second one is discarded, and a worker
encodes the job of batch 1 all the while. -/
def failingBatchSchedule : List (ExecutorLabel Unit Nat String) :=
  [.execute 0 [⟨0, "front.mp4", "front.raw", 3, ⟨none, ()⟩⟩, ⟨1, "wrist.mp4", "wrist.raw", 3, ⟨none, ()⟩⟩]
      1 1 2 none,
    .execute 1 [⟨0, "other.mp4", "other.raw", 5, ⟨none, ()⟩⟩] 4 2 2 none,
    .tryTakeJob 0, .testCancelled 0, .encodeVideo 0 (.error "broken frame"), .exchangeCancelled 0,
    .testCompleted 0, .testInterrupted 0 false, .checkCancelled 0, .discardQueue 0, .addDiscarded 0,
    .recordError 0, .releaseJob 0, .countJob 0, .tryTakeJob 1, .testCancelled 1,
    .testCompleted 0, .leave 0 false]

/-- The threads that a worker's job has reserved. -/
def reservedThreads : WorkerPhase ο κ ε → Nat
  | .holding job =>
      if job.reservedBudget && job.stage != .counting then job.entry.codecThreads else 0
  | .idle | .exited => 0

/-- The threads that it has reserved of one batch. -/
def reservedThreadsOf (batch : Nat) : WorkerPhase ο κ ε → Nat
  | .holding job => if job.entry.batch = batch then reservedThreads (.holding job) else 0
  | .idle | .exited => 0

/-- Whether it is an active worker of a batch. -/
def activeWorkerOf (batch : Nat) : WorkerPhase ο κ ε → Nat
  | .holding job =>
      if job.entry.batch = batch ∧ job.reservedBudget = true ∧ job.stage ≠ .counting then 1 else 0
  | .idle | .exited => 0

theorem reservedThreads_eq (phase : WorkerPhase ο κ ε) :
    reservedThreads phase = Footprint.threads (footprintOf phase) := by
  cases phase with
  | holding job => cases hstage : job.stage <;> simp [reservedThreads, footprintOf,
      Footprint.threads, slotOf, hstage]
  | idle => rfl
  | exited => rfl

theorem reservedThreadsOf_eq (batch : Nat) (phase : WorkerPhase ο κ ε) :
    reservedThreadsOf batch phase = Footprint.threadsOf batch (footprintOf phase) := by
  cases phase with
  | holding job =>
      simp only [reservedThreadsOf, reservedThreads_eq]
      rfl
  | idle => rfl
  | exited => rfl

theorem activeWorkerOf_eq (batch : Nat) (phase : WorkerPhase ο κ ε) :
    activeWorkerOf batch phase = Footprint.activeIn batch (footprintOf phase) := by
  cases phase with
  | holding job => simp [activeWorkerOf, footprintOf, Footprint.activeIn, slotOf]
  | idle => rfl
  | exited => rfl

/-- What an admission adds, and which limits it respects. -/
theorem admission_spec [Inhabited κ] (h : LedgerInvariant (ledger s)) {worker : Nat}
    (hstep : tryTakeJob s worker = some t) {job : TakenJob ο κ ε}
    (hholding : t.workers worker = .holding job) (hreserved : job.reservedBudget = true) :
    t.shared.activeCodecThreads = s.shared.activeCodecThreads + job.entry.codecThreads ∧
      ∀ batch, (t.batch batch).remainingJobs ≠ 0 →
        t.shared.activeCodecThreads ≤ (t.batch batch).hostThreadBudget := by
  simp only [tryTakeJob, tryTakeJobLocked] at hstep
  split at hstep
  · split at hstep
    · cases hstep
      simp only [ExecutorState.setWorker, Function.update_self] at hholding
      split at hholding <;> cases hholding
    · rename_i entry flag shared hsome
      split at hsome
      · cases hsome
      · rename_i found reserved queue hfind
        simp only [Prod.mk.injEq, Option.some.injEq] at hsome
        obtain ⟨⟨rfl, rfl⟩, rfl⟩ := hsome
        cases hstep
        simp only [ExecutorState.setWorker, Function.update_self,
          WorkerPhase.holding.injEq] at hholding
        subst hholding
        have htrue : reserved = true := hreserved
        subst htrue
        obtain ⟨before, after, -, -, -, hadmits⟩ := findJob_some _ hfind
        have hcapacity := ((admits_iff _).mp (hadmits rfl)).2.2
        refine ⟨rfl, fun batch hremaining => ?_⟩
        -- a reservation changes neither the remaining jobs nor the host budget of a batch
        have hkeep : ∀ {β : Type} (view : LerobotCodecBatchState κ ε → β),
            (∀ state workers threads, view { state with
              activeWorkers := workers, activeCodecThreads := threads } = view state) →
            view (Function.update s.shared.batchStates found.batch
              { s.shared.batchStates found.batch with
                activeWorkers := (s.shared.batchStates found.batch).activeWorkers + 1
                activeCodecThreads := (s.shared.batchStates found.batch).activeCodecThreads +
                  found.codecThreads } batch) = view (s.shared.batchStates batch) :=
          fun view hview => view_update_apply view s.shared.batchStates (hview _ _ _) batch
        have hhost := hkeep LerobotCodecBatchState.hostThreadBudget (fun _ _ _ => rfl)
        have hremaining' := hkeep LerobotCodecBatchState.remainingJobs (fun _ _ _ => rfl)
        have hlive : (s.shared.batchStates batch).remainingJobs ≠ 0 := by
          rw [← hremaining']
          exact hremaining
        refine Nat.le_trans hcapacity (Nat.le_trans
          (globalCodecCapacityLocked_le s.shared (h.listed batch hlive) (by simpa [live])) ?_)
        exact le_of_eq hhost.symm
  · cases hstep

/-- **The thread accounting is exact and within budget.** In every reachable state the global count of
codec threads and the counts of each batch are the sums of what the workers' jobs have reserved; no
batch exceeds its worker limit or its thread budget; an admission leaves the global count within the
host budget of every live batch; no release underflows; and the pool is sized by the largest host
budget and the batches' demands, by a loop whose subtraction never wraps. -/
theorem executor_within_budget [Inhabited κ] (hs : (system ο κ ε).Reachable s) :
    s.shared.activeCodecThreads =
      ∑ worker ∈ Finset.range s.shared.workers, reservedThreads (s.workers worker) ∧
    (∀ batch, (s.batch batch).activeCodecThreads =
        ∑ worker ∈ Finset.range s.shared.workers, reservedThreadsOf batch (s.workers worker) ∧
      (s.batch batch).activeWorkers =
        ∑ worker ∈ Finset.range s.shared.workers, activeWorkerOf batch (s.workers worker)) ∧
    (∀ batch, (s.batch batch).activeWorkers ≤ (s.batch batch).maxWorkers ∧
      (s.batch batch).activeCodecThreads ≤ (s.batch batch).codecThreadBudget) ∧
    (∀ worker t job, (system ο κ ε).step s (.tryTakeJob worker) = some t →
      t.workers worker = .holding job → job.reservedBudget = true →
        ∀ batch, (t.batch batch).remainingJobs ≠ 0 →
          t.shared.activeCodecThreads ≤ (t.batch batch).hostThreadBudget) ∧
    (∀ worker job, s.workers worker = .holding job → job.stage = .releasing →
      job.reservedBudget = true →
        0 < (s.batch job.entry.batch).activeWorkers ∧
        job.entry.codecThreads ≤ (s.batch job.entry.batch).activeCodecThreads ∧
        job.entry.codecThreads ≤ s.shared.activeCodecThreads) ∧
    (desiredWorkerCountLocked s.shared =
        min (largestHostBudget s.shared (liveBatches s.shared))
          ((liveBatches s.shared).map (workerDemand s.shared)).sum ∧
      ∀ count ∈ subtractedCounts s.shared (maximumHostBudget s.shared s.shared.batches 0)
          s.shared.batches 0, count ≤ maximumHostBudget s.shared s.shared.batches 0) := by
  have h := ledgerInvariant_reachable hs
  refine ⟨?_, ?_, h.within, ?_, ?_, desiredWorkerCountLocked_eq _,
    desiredWorkerCountLocked_no_wrap _⟩
  · simp only [reservedThreads_eq]
    exact h.active
  · intro batch
    simp only [reservedThreadsOf_eq, activeWorkerOf_eq]
    exact ⟨h.activeThreads batch, h.activeWorkers batch⟩
  · intro worker t job hstep hholding hreserved
    change step s (.tryTakeJob worker) = some t at hstep
    simp only [step] at hstep
    split at hstep
    · exact (admission_spec h hstep hholding hreserved).2
    · cases hstep
  · intro worker job hholding hstage hreserved
    have hheld := footprint_of_holding hholding
    rw [hstage, hreserved] at hheld
    exact h.reserved_le hheld

/-- The worker of batch 1 has reserved two threads. -/
theorem failingBatch_reserved : ∃ s, (system Unit Nat String).Reachable s ∧
    s.shared.activeCodecThreads = 2 ∧
    ∑ worker ∈ Finset.range s.shared.workers, reservedThreads (s.workers worker) = 2 := by
  obtain ⟨s, hs, htest⟩ := TransitionSystem.exists_reachable_of_replay (system Unit Nat String)
    failingBatchSchedule (fun s => s.shared.activeCodecThreads == 2) (by decide)
  have hactive : s.shared.activeCodecThreads = 2 := by simpa using htest
  refine ⟨s, hs, hactive, ?_⟩
  rw [← (executor_within_budget hs).1]
  exact hactive

/-! ## No starvation -/

/-- When no worker has a job, nothing is reserved. -/
theorem nothing_reserved (h : LedgerInvariant (ledger s))
    (hidle : ∀ worker job, s.workers worker ≠ .holding job) :
    s.shared.activeCodecThreads = 0 ∧ ∀ batch, (s.batch batch).activeWorkers = 0 ∧
      (s.batch batch).activeCodecThreads = 0 ∧ (s.batch batch).remainingJobs =
        s.shared.queue.countP fun entry => entry.batch == batch := by
  have hfootprint : ∀ worker, (ledger s).footprints worker = none := by
    intro worker
    show footprintOf (s.workers worker) = none
    cases hphase : s.workers worker with
    | holding job => exact absurd hphase (hidle worker job)
    | idle => rfl
    | exited => rfl
  have hzero : ∀ share : Option Footprint → Nat, share none = 0 →
      ∑ worker ∈ Finset.range (ledger s).pool, share ((ledger s).footprints worker) = 0 := by
    intro share hnone
    apply Finset.sum_eq_zero
    intro worker _
    rw [hfootprint, hnone]
  refine ⟨h.active.trans (hzero _ rfl), fun batch => ⟨?_, ?_, ?_⟩⟩
  · exact (h.activeWorkers batch).trans (hzero _ rfl)
  · exact (h.activeThreads batch).trans (hzero _ rfl)
  · have hremaining := h.remaining batch
    rw [hzero _ rfl, Nat.add_zero, show (ledger s).queue = s.shared.queue.map slotOf from rfl,
      List.countP_map] at hremaining
    exact hremaining

/-- A queued job keeps its batch live. -/
theorem live_of_queued (h : LedgerInvariant (ledger s)) {entry : LerobotQueuedCodecJob ο}
    (hentry : entry ∈ s.shared.queue) :
    entry.batch ∈ s.shared.batches ∧ live s.shared entry.batch = true ∧
      0 < (s.batch entry.batch).results.length := by
  have hslot : slotOf entry ∈ (ledger s).queue := List.mem_map_of_mem hentry
  have hpositive : 0 < (ledger s).queue.countP fun slot => slot.batch == entry.batch :=
    List.countP_pos_iff.mpr ⟨slotOf entry, hslot, by simp [slotOf]⟩
  have hremaining : (s.batch entry.batch).remainingJobs ≠ 0 := by
    have hle : _ ≤ (s.batch entry.batch).remainingJobs := h.queued_le entry.batch
    omega
  refine ⟨h.listed _ hremaining, ?_, h.jobCount_of_queued hslot⟩
  simp only [live, bne_iff_ne]
  exact hremaining

/-- The thread count of a queued job is between one and the budget of its batch. -/
theorem codecThreads_bounds (h : LedgerInvariant (ledger s)) {entry : LerobotQueuedCodecJob ο}
    (hentry : entry ∈ s.shared.queue) : 1 ≤ entry.codecThreads ∧
      entry.codecThreads ≤ (s.batch entry.batch).codecThreadBudget :=
  h.shares (slotOf entry) (List.mem_map_of_mem hentry)

/-- **Some job can run when nothing runs.** In every reachable state: if the queue is not empty and no
worker has a job, `TryTakeJobLocked` returns a job, and the pool has a worker to take it; and every
queued job asks for at least one thread and at most the budget of its batch, which is within the host
budget that the batch was admitted with. -/
theorem executor_runnable [Inhabited κ] (hs : (system ο κ ε).Reachable s) :
    (s.shared.queue ≠ [] → (∀ worker job, s.workers worker ≠ .holding job) →
      (∃ entry reserved, (tryTakeJobLocked s.shared).1 = some (entry, reserved)) ∧
        0 < s.shared.workers) ∧
    ∀ entry ∈ s.shared.queue, 1 ≤ entry.codecThreads ∧
      entry.codecThreads ≤ (s.batch entry.batch).codecThreadBudget ∧
      (s.batch entry.batch).codecThreadBudget ≤ (s.batch entry.batch).hostThreadBudget := by
  have h := ledgerInvariant_reachable hs
  constructor
  · intro hqueue hidle
    obtain ⟨hactive, hbatches⟩ := nothing_reserved h hidle
    obtain ⟨first, hfirst⟩ := List.exists_mem_of_ne_nil _ hqueue
    obtain ⟨hlisted, hlive, hjobs⟩ := live_of_queued h hfirst
    have hlimit : (s.batch first.batch).hostThreadBudget < idxMaximum := by
      have hbudget := (h.budgets first.batch hjobs).2.2.2
      have hle : hostLimit ≤ idxMaximum := by decide
      exact Nat.lt_of_lt_of_le hbudget hle
    -- the batch with the smallest host budget has a queued job, and that job fits
    obtain ⟨least, hleast, hleastLive, hcapacity⟩ :=
      globalCodecCapacityLocked_attained s.shared hlisted hlive hlimit
    have hremaining : 0 < s.shared.queue.countP fun entry => entry.batch == least := by
      rw [← (hbatches least).2.2]
      simp only [live, bne_iff_ne] at hleastLive
      exact Nat.pos_of_ne_zero hleastLive
    obtain ⟨entry, hentry, hbatch⟩ := List.countP_pos_iff.mp hremaining
    rw [beq_iff_eq] at hbatch
    subst hbatch
    obtain ⟨-, -, hentryJobs⟩ := live_of_queued h hentry
    obtain ⟨hworkers, -, hhost, -⟩ := h.budgets entry.batch hentryJobs
    have hthreads := (codecThreads_bounds h hentry).2
    obtain ⟨hnoWorkers, hnoThreads, -⟩ := hbatches entry.batch
    have hadmits : admits (globalCodecCapacityLocked s.shared).2
        (globalCodecCapacityLocked s.shared).1 entry = true := by
      refine (admits_iff _).mpr ⟨?_, ?_, ?_⟩
      · show (s.batch entry.batch).activeWorkers < (s.batch entry.batch).maxWorkers
        rw [hnoWorkers]
        exact hworkers
      · show (s.batch entry.batch).activeCodecThreads + entry.codecThreads ≤ _
        rw [hnoThreads, Nat.zero_add]
        exact hthreads
      · show s.shared.activeCodecThreads + entry.codecThreads ≤ _
        rw [hactive, Nat.zero_add, hcapacity]
        exact Nat.le_trans hthreads hhost
    have hsome := findJob_isSome (globalCodecCapacityLocked s.shared).2 hentry (.inr hadmits)
    obtain ⟨⟨found, reserved, rest⟩, hfound⟩ := Option.isSome_iff_exists.mp hsome
    have hqueue' : (globalCodecCapacityLocked s.shared).2.queue = s.shared.queue := rfl
    refine ⟨⟨found, reserved, ?_⟩, h.pool (by simpa [ledger] using hqueue)⟩
    simp only [tryTakeJobLocked, hqueue', hfound]
  · intro entry hentry
    obtain ⟨hpositive, hle⟩ := codecThreads_bounds h hentry
    obtain ⟨-, -, hjobs⟩ := live_of_queued h hentry
    exact ⟨hpositive, hle, (h.budgets entry.batch hjobs).2.2.1⟩

/-- The queue of two batches that nobody has started. -/
def twoBatchState : ExecutorState Unit Nat String :=
  ((system Unit Nat String).replay (failingBatchSchedule.take 2)).getD init

theorem twoBatchState_runnable : (∃ entry reserved,
    (tryTakeJobLocked twoBatchState.shared).1 = some (entry, reserved)) ∧
      0 < twoBatchState.shared.workers := by
  have hs : (system Unit Nat String).Reachable twoBatchState :=
    by
    have hreplay : (system Unit Nat String).replay (failingBatchSchedule.take 2) =
        some twoBatchState := rfl
    exact TransitionSystem.reachable_of_replay hreplay
  have hqueue : twoBatchState.shared.queue ≠ [] := by
    intro hempty
    exact absurd (congrArg List.length hempty) (by decide)
  have hidle : ∀ worker job, twoBatchState.workers worker ≠ .holding job := by
    intro worker job hholding
    have hphase : twoBatchState.workers worker = .idle := rfl
    rw [hphase] at hholding
    cases hholding
  exact (executor_runnable hs).1 hqueue hidle

end Executor

end DuckdbLerobot.Codec
