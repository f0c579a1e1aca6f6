import DuckdbLerobot.Codec.ExecutorCapacity
import DuckdbLerobot.Codec.ExecutorSystem
import DuckdbLerobot.Codec.LedgerMoves

/-!
# The executor refines the ledger

`ledger` reads the ledger off a state of the executor. Every step of the executor is a move of the
ledger (`ledgerMove_of_step`), so the ledger of every reachable state is exact.
-/

set_option autoImplicit false

namespace DuckdbLerobot.Codec

open DuckdbLerobot.Library LerobotCodecExecutor

variable {ο κ ε : Type}

namespace Executor

/-! ## The ledger of a state -/

/-- A job as the ledger sees it. -/
def slotOf (entry : LerobotQueuedCodecJob ο) : Slot :=
  ⟨entry.batch, entry.resultIndex, entry.codecThreads⟩

/-- The counters of a batch. -/
def accountOf (state : LerobotCodecBatchState κ ε) : Account where
  jobCount := state.results.length
  maxWorkers := state.maxWorkers
  threadBudget := state.codecThreadBudget
  hostBudget := state.hostThreadBudget
  activeWorkers := state.activeWorkers
  activeThreads := state.activeCodecThreads
  remaining := state.remainingJobs
  completed := state.completedJobs

/-- The job of a worker. Its budget is released before it is counted. -/
def footprintOf : WorkerPhase ο κ ε → Option Footprint
  | .holding job => some ⟨slotOf job.entry, job.reservedBudget, decide (job.stage = .counting)⟩
  | .idle | .exited => none

/-- How far a call is. -/
def stageOf : ExecutePhase κ ε → CallStage
  | .notCalled => .fresh
  | .waiting | .testing | .checking | .discarding => .waiting
  | .adding discardedJobs => .adding discardedJobs
  | .leaving _ | .ended _ => .left

/-- The ledger of a state. -/
def ledger (s : ExecutorState ο κ ε) : Ledger where
  queue := s.shared.queue.map slotOf
  pool := s.shared.workers
  batches := s.shared.batches
  activeThreads := s.shared.activeCodecThreads
  accounts := fun batch => accountOf (s.shared.batchStates batch)
  footprints := fun worker => footprintOf (s.workers worker)
  stages := fun call => stageOf (s.calls call).phase
  requested := fun call => (s.calls call).jobs.length
  discarded := fun call => (s.calls call).discarded
  settled := s.settled

variable (s : ExecutorState ο κ ε)

theorem liveBatches_ledger : (ledger s).liveBatches = liveBatches s.shared := rfl

/-! ## Changes that the ledger does not show -/

/-- A worker goes on with its job. -/
theorem ledger_setWorker {worker : Nat} {phase : WorkerPhase ο κ ε}
    (h : footprintOf phase = footprintOf (s.workers worker)) :
    ledger (s.setWorker worker phase) = ledger s := by
  simp only [ledger, ExecutorState.setWorker, view_update_eq footprintOf s.workers worker phase h]

/-- What the ledger shows of a call. -/
theorem ledger_setCall (call : Nat) (state : ExecuteCall ο κ ε) :
    ledger (s.setCall call state) =
      { ledger s with
        stages := Function.update (ledger s).stages call (stageOf state.phase)
        requested := Function.update (ledger s).requested call state.jobs.length
        discarded := Function.update (ledger s).discarded call state.discarded } := by
  simp only [ledger, ExecutorState.setCall,
    view_update (fun state : ExecuteCall ο κ ε => stageOf state.phase),
    view_update (fun state : ExecuteCall ο κ ε => state.jobs.length),
    view_update (fun state : ExecuteCall ο κ ε => state.discarded)]

/-- A call goes on to another phase. -/
theorem ledger_setCall_phase {call : Nat} {state : ExecuteCall ο κ ε}
    (hjobs : state.jobs = (s.calls call).jobs)
    (hdiscarded : state.discarded = (s.calls call).discarded) :
    ledger (s.setCall call state) =
      { ledger s with stages := Function.update (ledger s).stages call (stageOf state.phase) } := by
  have hrequested : Function.update (ledger s).requested call state.jobs.length =
      (ledger s).requested := by
    rw [hjobs]
    exact Function.update_eq_self _ _
  have hsame : Function.update (ledger s).discarded call state.discarded =
      (ledger s).discarded := by
    rw [hdiscarded]
    exact Function.update_eq_self _ _
  rw [ledger_setCall, hrequested, hsame]

/-- A call goes on within its stage. -/
theorem ledger_setCall_quiet {call : Nat} {state : ExecuteCall ο κ ε}
    (hstage : stageOf state.phase = stageOf (s.calls call).phase)
    (hjobs : state.jobs = (s.calls call).jobs)
    (hdiscarded : state.discarded = (s.calls call).discarded) :
    ledger (s.setCall call state) = ledger s := by
  have hsame : Function.update (ledger s).stages call (stageOf state.phase) =
      (ledger s).stages := by
    rw [hstage]
    exact Function.update_eq_self _ _
  rw [ledger_setCall_phase s hjobs hdiscarded, hsame]

/-- A batch changes in a field that is no counter. -/
theorem ledger_updateBatch {batch : Nat}
    {f : LerobotCodecBatchState κ ε → LerobotCodecBatchState κ ε}
    (h : accountOf (f (s.shared.batchStates batch)) = accountOf (s.shared.batchStates batch)) :
    ledger (s.updateBatch batch f) = ledger s := by
  simp only [ledger, ExecutorState.updateBatch, LerobotCodecExecutor.updateBatch,
    view_update_eq accountOf s.shared.batchStates batch _ h]

/-! ## Every step is a move -/

variable {s} {t : ExecutorState ο κ ε}

section Workers

variable {worker : Nat}

theorem quiet_testCancelled (h : testCancelled s worker = some t) : ledger t = ledger s := by
  simp only [testCancelled] at h
  split at h
  · rename_i entry reserved encoded error hphase
    cases h
    apply ledger_setWorker
    rw [hphase]
    split <;> rfl
  · cases h

theorem quiet_encodeVideo {answer : Except ε κ} (h : encodeVideo s worker answer = some t) :
    ledger t = ledger s := by
  simp only [encodeVideo] at h
  split at h
  · rename_i entry reserved encoded error hphase
    cases h
    apply ledger_setWorker s
    rw [hphase]
    cases answer <;> rfl
  · cases h

theorem quiet_exchangeCancelled (h : exchangeCancelled s worker = some t) :
    ledger t = ledger s := by
  simp only [exchangeCancelled] at h
  split at h
  · rename_i entry reserved encoded hphase
    cases h
    apply ledger_setWorker
    rw [hphase]
    rfl
  · rename_i entry reserved encoded error hphase
    split at h
    · cases h
      apply ledger_setWorker
      rw [hphase]
      rfl
    · cases h
      refine Eq.trans (ledger_setWorker (s.updateBatch entry.batch _) ?_) (ledger_updateBatch s rfl)
      show _ = footprintOf (s.workers worker)
      rw [hphase]
      rfl
  · cases h

theorem quiet_recordError (h : recordError s worker = some t) : ledger t = ledger s := by
  simp only [recordError] at h
  split at h
  · rename_i entry reserved encoded error hphase
    cases h
    refine Eq.trans (ledger_setWorker (s.updateBatch entry.batch _) ?_) (ledger_updateBatch s rfl)
    show _ = footprintOf (s.workers worker)
    rw [hphase]
    rfl
  · cases h

theorem move_tryTakeJob [Inhabited κ] (hworker : worker < s.shared.workers)
    (h : tryTakeJob s worker = some t) : LedgerMove (ledger s) (ledger t) := by
  simp only [tryTakeJob] at h
  split at h
  · rename_i hidle
    have hfree : (ledger s).footprints worker = none := by
      show footprintOf (s.workers worker) = none
      rw [hidle]
      rfl
    simp only [tryTakeJobLocked] at h
    split at h
    · rename_i shared hnone
      split at hnone
      · cases hnone
        cases h
        have hphase : ∀ phase : WorkerPhase ο κ ε, footprintOf phase = none →
            (fun i => footprintOf (Function.update s.workers worker phase i)) =
              fun i => footprintOf (s.workers i) := by
          intro phase hnone
          apply view_update_eq
          rw [hnone, hidle]
          rfl
        have hmove := LedgerMove.prune (L := ledger s)
        rw [liveBatches_ledger] at hmove
        refine cast ?_ hmove
        congr 1
        simp only [ledger, ExecutorState.setWorker]
        congr 1
        exact (hphase _ (by split <;> rfl)).symm
      · cases hnone
    · rename_i entry reserved shared hsome
      split at hsome
      · cases hsome
      · rename_i found flag queue hfind
        simp only [Prod.mk.injEq, Option.some.injEq] at hsome
        obtain ⟨⟨rfl, rfl⟩, rfl⟩ := hsome
        cases h
        obtain ⟨before, after, hqueue, rfl, -, hadmits⟩ := findJob_some _ hfind
        have hqueue' : (ledger s).queue =
            before.map slotOf ++ slotOf found :: after.map slotOf := by
          show s.shared.queue.map slotOf = _
          have hsame : s.shared.queue = before ++ found :: after := hqueue
          rw [hsame, List.map_append, List.map_cons]
        have hlimits : flag = true → _ := fun hflag => (admits_iff _).mp (hadmits hflag)
        have hmove := LedgerMove.take (L := ledger s) flag
          (accountOf (s.shared.batchStates found.batch)) hworker hfree hqueue' rfl
          (fun hflag => (hlimits hflag).1) (fun hflag => (hlimits hflag).2.1)
          (by
            intro hflag batch hbatch hremaining
            have hlive : live s.shared batch = true := by
              simp only [live, bne_iff_ne]
              exact hremaining
            exact Nat.le_trans (hlimits hflag).2.2
              (globalCodecCapacityLocked_le s.shared hbatch hlive))
        refine cast ?_ hmove
        congr 1
        cases flag with
        | false =>
            simp only [ledger, ExecutorState.setWorker, globalCodecCapacityLocked,
              Bool.false_eq_true, if_false, Nat.add_zero, List.map_append,
              view_update footprintOf]
            congr 1
            exact Function.update_eq_self _ _
        | true =>
            simp only [ledger, ExecutorState.setWorker, globalCodecCapacityLocked, if_true, reserve,
              LerobotCodecExecutor.updateBatch, List.map_append, view_update footprintOf,
              view_update accountOf]
            rfl
  · cases h

theorem move_releaseJob (h : releaseJob s worker = some t) :
    LedgerMove (ledger s) (ledger t) := by
  simp only [releaseJob] at h
  split at h
  · rename_i entry reserved encoded error hphase
    cases h
    have hheld : (ledger s).footprints worker = some ⟨slotOf entry, reserved, false⟩ := by
      show footprintOf (s.workers worker) = _
      rw [hphase]
      rfl
    have hmove := LedgerMove.release hheld rfl
    refine cast ?_ hmove
    congr 1
    cases reserved with
    | false =>
        simp only [ledger, ExecutorState.setWorker, LerobotCodecExecutor.releaseJob,
          LerobotCodecExecutor.updateBatch, Bool.false_eq_true, if_false, Nat.sub_zero,
          view_update footprintOf, view_update accountOf]
        rfl
    | true =>
        simp only [ledger, ExecutorState.setWorker, LerobotCodecExecutor.releaseJob,
          LerobotCodecExecutor.updateBatch, if_true, Function.update_self,
          Function.update_idem, view_update footprintOf, view_update accountOf]
        rfl
  · cases h

theorem move_countJob (h : countJob s worker = some t) : LedgerMove (ledger s) (ledger t) := by
  simp only [countJob] at h
  split at h
  · rename_i entry reserved encoded error hphase
    cases h
    have hheld : (ledger s).footprints worker = some ⟨slotOf entry, reserved, true⟩ := by
      show footprintOf (s.workers worker) = _
      rw [hphase]
      rfl
    have hmove := LedgerMove.count hheld rfl
    refine cast ?_ hmove
    congr 1
    simp only [ledger, ExecutorState.setWorker, LerobotCodecExecutor.countJob,
      LerobotCodecExecutor.updateBatch, view_update footprintOf, view_update accountOf]
    congr 2
    simp only [accountOf, slotOf]
    congr 1
    split
    · exact (List.length_set ..).symm
    · rfl
  · cases h

end Workers

section Calls

variable {call : Nat}

theorem move_testCompleted (h : testCompleted s call = some t) :
    LedgerMove (ledger s) (ledger t) := by
  simp only [testCompleted] at h
  split at h
  · rename_i hphase
    cases h
    have hstage : (ledger s).stages call = .waiting := by
      show stageOf (s.calls call).phase = _
      rw [hphase]
      rfl
    split
    · rename_i hcompleted
      have hset : ledger (s.setCall call
          { s.calls call with phase := .leaving (s.batch call).error }) = _ :=
        ledger_setCall_phase s rfl rfl
      rw [hset]
      exact .leave hstage hcompleted
    · have hset : ledger (s.setCall call { s.calls call with phase := .testing }) = ledger s :=
        ledger_setCall_quiet s (by rw [hphase]; rfl) rfl rfl
      rw [hset]
      exact .quiet
  · cases h

theorem quiet_testInterrupted {isInterrupted : Bool}
    (h : testInterrupted s call isInterrupted = some t) : ledger t = ledger s := by
  simp only [testInterrupted] at h
  split at h
  · rename_i hphase
    split at h
    · cases h
      refine Eq.trans (ledger_setCall_quiet (s.updateBatch call _) ?_ rfl rfl)
        (ledger_updateBatch s rfl)
      show _ = stageOf (s.calls call).phase
      rw [hphase]
      rfl
    · cases h
      exact ledger_setCall_quiet s (by rw [hphase]; rfl) rfl rfl
  · cases h

theorem quiet_checkCancelled (h : checkCancelled s call = some t) : ledger t = ledger s := by
  simp only [checkCancelled] at h
  split at h
  · rename_i hphase
    split at h <;> cases h <;> exact ledger_setCall_quiet s (by rw [hphase]; rfl) rfl rfl
  · cases h

/-- The queued jobs of a batch, in the ledger and in the executor. -/
theorem filter_slotOf (queue : List (LerobotQueuedCodecJob ο)) (call : Nat) :
    (queue.map slotOf).filter (fun slot => slot.batch == call) =
      (queue.filter fun entry => entry.batch == call).map slotOf := by
  rw [List.filter_map]
  rfl

theorem move_discardQueue (h : discardQueue s call = some t) :
    LedgerMove (ledger s) (ledger t) := by
  simp only [discardQueue] at h
  split at h
  · rename_i hphase
    cases h
    have hstage : (ledger s).stages call = .waiting := by
      show stageOf (s.calls call).phase = _
      rw [hphase]
      rfl
    have hmove := LedgerMove.discard hstage rfl
    refine cast ?_ hmove
    congr 1
    simp only [ledger, ExecutorState.setCall, LerobotCodecExecutor.discardQueuedJobs,
      LerobotCodecExecutor.updateBatch, view_update accountOf, filter_slotOf, List.length_map,
      List.map_map, view_update (fun state : ExecuteCall ο κ ε => stageOf state.phase),
      view_update (fun state : ExecuteCall ο κ ε => state.discarded)]
    congr 1
    · rw [List.filter_map]
      rfl
    · rw [List.countP_map]
      rfl
    · rw [view_update (fun state : ExecuteCall ο κ ε => state.jobs.length)]
      exact (Function.update_eq_self _ _).symm
  · cases h

theorem move_addDiscarded (h : addDiscarded s call = some t) :
    LedgerMove (ledger s) (ledger t) := by
  simp only [addDiscarded] at h
  split at h
  · rename_i discardedJobs hphase
    cases h
    have hstage : (ledger s).stages call = .adding discardedJobs := by
      show stageOf (s.calls call).phase = _
      rw [hphase]
      rfl
    have hmove := LedgerMove.add hstage rfl
    refine cast ?_ hmove
    congr 1
    simp only [ledger, ExecutorState.setCall, ExecutorState.updateBatch,
      LerobotCodecExecutor.updateBatch, view_update accountOf,
      view_update (fun state : ExecuteCall ο κ ε => stageOf state.phase),
      view_update (fun state : ExecuteCall ο κ ε => state.discarded)]
    congr 1
    rw [view_update (fun state : ExecuteCall ο κ ε => state.jobs.length)]
    exact (Function.update_eq_self _ _).symm
  · cases h

theorem quiet_leave {isInterrupted : Bool} (h : leave s call isInterrupted = some t) :
    ledger t = ledger s := by
  simp only [leave] at h
  split at h
  · rename_i error hphase
    cases h
    exact ledger_setCall_quiet s (by rw [hphase]; rfl) rfl rfl
  · cases h

/-- What the ledger shows of a call that was given its jobs. -/
theorem ledger_setCall_jobs {phase : ExecutePhase κ ε} {jobs : List (LerobotCodecJob ο)} :
    ledger (s.setCall call { s.calls call with phase := phase, jobs := jobs }) =
      { ledger s with
        stages := Function.update (ledger s).stages call (stageOf phase)
        requested := Function.update (ledger s).requested call jobs.length } := by
  have hsame : Function.update (ledger s).discarded call (s.calls call).discarded =
      (ledger s).discarded := Function.update_eq_self _ _
  rw [ledger_setCall, hsame]

/-- A call that ends before it has a batch. -/
theorem move_reject {jobs : List (LerobotCodecJob ο)} {outcome : ExecuteOutcome κ ε} {pool : Nat}
    (hphase : (s.calls call).phase = .notCalled) (hpool : s.shared.workers ≤ pool) :
    LedgerMove (ledger s) (ledger
      { s.setCall call { s.calls call with phase := .ended outcome, jobs := jobs } with
        shared := { s.shared with workers := pool } }) := by
  have hstage : (ledger s).stages call = .fresh := by
    show stageOf (s.calls call).phase = _
    rw [hphase]
    rfl
  have hmove := LedgerMove.reject pool jobs.length hstage hpool
  refine cast ?_ hmove
  congr 1
  have hset : ledger (s.setCall call
      { s.calls call with phase := .ended outcome, jobs := jobs }) = _ := ledger_setCall_jobs
  exact (congrArg (fun L : Ledger => { L with pool := pool }) hset).symm

theorem move_execute [Inhabited κ] {jobs : List (LerobotCodecJob ο)}
    {maxWorkers codecThreadBudget numberOfThreads : Nat} {failure : Option Nat}
    (h : execute s call jobs maxWorkers codecThreadBudget numberOfThreads failure = some t) :
    LedgerMove (ledger s) (ledger t) := by
  simp only [execute] at h
  split at h
  · rename_i hphase
    split at h
    · cases h
    rename_i hthreads
    split at h
    · cases h
      exact move_reject hphase (Nat.le_refl _)
    rename_i hjobs
    split at h
    · cases h
      exact move_reject hphase (Nat.le_refl _)
    rename_i hadmitted
    split at h
    · cases h
      exact move_reject hphase (Nat.le_refl _)
    split at h
    · cases h
      simp only [Bool.or_eq_true, decide_eq_true_eq, not_or, Nat.not_lt] at hadmitted
      have hlength : 0 < jobs.length := List.length_pos_of_ne_nil hjobs
      have hstage : (ledger s).stages call = .fresh := by
        show stageOf (s.calls call).phase = _
        rw [hphase]
        rfl
      have hworkers : 0 < min (min maxWorkers jobs.length) codecThreadBudget := by omega
      have hle : min (min maxWorkers jobs.length) codecThreadBudget ≤ codecThreadBudget :=
        Nat.min_le_right _ _
      have hentries := queuedJobs_entries call hworkers hle jobs 0
      -- the new batch alone needs a worker
      have hpositive : 0 < (s.shared.enqueue (κ := κ) call jobs
          (min (min maxWorkers jobs.length) codecThreadBudget) codecThreadBudget
          (max 1 numberOfThreads)).workers := by
        refine Nat.lt_of_lt_of_le ?_ (Nat.le_max_right _ _)
        refine desiredWorkerCountLocked_pos _ call (by simp) ?_ ?_ ?_
        · simp [live, LerobotCodecBatchState.create, hjobs]
        · simpa [LerobotCodecBatchState.create] using hworkers
        · simp [LerobotCodecBatchState.create]
      have hmove := LedgerMove.enqueue (L := ledger s)
        ((queuedJobs call (min (min maxWorkers jobs.length) codecThreadBudget)
          codecThreadBudget jobs 0).map slotOf) hstage (Nat.le_max_left _ _) hpositive hlength
        hworkers hle hadmitted.2 (by unfold hostLimit; omega)
        (by
          intro slot hslot
          obtain ⟨entry, hentry, rfl⟩ := List.mem_map.mp hslot
          exact hentries entry hentry)
        (by
          rw [List.map_map, List.range_eq_range']
          exact queuedJobs_indexes ..)
      refine cast ?_ hmove
      congr 1
      simp only [ledger, ExecutorState.setCall, LerobotCodecExecutor.enqueue, ensureWorkersLocked,
        view_update accountOf, List.map_append,
        view_update (fun state : ExecuteCall ο κ ε => stageOf state.phase),
        view_update (fun state : ExecuteCall ο κ ε => state.jobs.length)]
      congr 1
      · simp [accountOf, LerobotCodecBatchState.create, Account.open]
      · exact (view_update_eq (fun state : ExecuteCall ο κ ε => state.discarded) s.calls call
          { s.calls call with phase := .waiting, jobs := jobs } rfl).symm
    · split at h
      · rename_i hpool
        cases h
        exact move_reject hphase hpool.1
      · cases h
  · cases h

end Calls

/-- **Every step of the executor is a move of the ledger.** -/
theorem ledgerMove_of_step [Inhabited κ] {l : ExecutorLabel ο κ ε}
    (h : (system ο κ ε).step s l = some t) : LedgerMove (ledger s) (ledger t) := by
  change step s l = some t at h
  cases l with
  | execute call jobs maxWorkers codecThreadBudget numberOfThreads failure => exact move_execute h
  | tryTakeJob worker =>
      simp only [step] at h
      split at h
      · rename_i hworker
        exact move_tryTakeJob hworker h
      · cases h
  | testCancelled worker => exact quiet_testCancelled h ▸ .quiet
  | encodeVideo worker answer => exact quiet_encodeVideo h ▸ .quiet
  | exchangeCancelled worker => exact quiet_exchangeCancelled h ▸ .quiet
  | recordError worker => exact quiet_recordError h ▸ .quiet
  | releaseJob worker => exact move_releaseJob h
  | countJob worker => exact move_countJob h
  | testCompleted call => exact move_testCompleted h
  | testInterrupted call isInterrupted => exact quiet_testInterrupted h ▸ .quiet
  | checkCancelled call => exact quiet_checkCancelled h ▸ .quiet
  | discardQueue call => exact move_discardQueue h
  | addDiscarded call => exact move_addDiscarded h
  | leave call isInterrupted => exact quiet_leave h ▸ .quiet
  | stop =>
      simp only [step, Option.some.injEq] at h
      subst h
      have hsame : ledger { s with shared := s.shared.stop } = ledger s := by
        simp only [ledger, LerobotCodecExecutor.stop]
        congr 1
        funext batch
        split <;> rfl
      exact hsame ▸ .quiet

/-- **The ledger of every reachable state is exact.** -/
theorem ledgerInvariant_reachable [Inhabited κ] (hs : (system ο κ ε).Reachable s) :
    LedgerInvariant (ledger s) :=
  hs.invariant (I := fun s => LedgerInvariant (ledger s)) ledgerInvariant_empty
    fun _ _ _ _ h hstep => ledgerInvariant_move h (ledgerMove_of_step hstep)

end Executor

end DuckdbLerobot.Codec
