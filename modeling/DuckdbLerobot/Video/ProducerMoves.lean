import DuckdbLerobot.Library.Parties
import DuckdbLerobot.Video.ProducerSystem
import Mathlib.Data.Nat.ModEq

/-!
# What one step of a video scan can do

`TaskInvariant` says what the phases of `ExecuteTask` know about the fields of the task. `Move` has
one constructor for each kind of effect that a step has on the whole system, with everything that
the step was guarded by; `move_of_step` is the inversion of the step function. The invariants of a
run are proved over `Move`, so none of them opens the step function again.
-/

set_option autoImplicit false

namespace DuckdbLerobot.Video

open DuckdbLerobot.Library LerobotVideoProducerState

variable {ρ τ ε : Type}

namespace VideoScan

variable (scan : VideoScan ρ τ ε)

/-! ## The targets of the source -/

/-- The targets of one row; none, if it cannot be built. -/
def targetsOf (row : ρ) : Multiset τ :=
  match scan.buildTargets row with
  | .ok targets => targets
  | .error _ => 0

/-- The rows of one query. -/
def queryRows (index : Nat) : Multiset ρ := (scan.queryResult index).flatten

/-- The rows of all queries. -/
def sourceRows : Multiset ρ :=
  ∑ index ∈ Finset.range scan.frameQueries.length, scan.queryRows index

/-- The targets of all rows. -/
def sourceTargets : Multiset τ := scan.sourceRows.bind scan.targetsOf

/-- The queries that a task runs from `nextQuery` on. -/
def upcoming (nextQuery : Nat) : Finset Nat :=
  (Finset.range scan.frameQueries.length).filter fun index =>
    nextQuery ≤ index ∧ index % scan.producerCount = nextQuery % scan.producerCount

/-- The rows that a task has yet to build. -/
def rowsLeft (task : LerobotVideoProducerTask ρ τ ε) : Multiset ρ :=
  (task.currentChunk.drop task.currentRow : List ρ) + ((task.frameResult.getD []).flatten : List ρ) +
    ∑ index ∈ scan.upcoming task.nextQuery, scan.queryRows index

/-- The targets that a task has yet to queue. -/
def remaining (task : LerobotVideoProducerTask ρ τ ε) : Multiset τ :=
  (task.pendingTargets.drop task.pendingTargetPosition : List τ) +
    (scan.rowsLeft task).bind scan.targetsOf

/-- A task that starts a query has the queries after it left. -/
theorem upcoming_of_lt {nextQuery : Nat} (hpos : 0 < scan.producerCount)
    (hlt : nextQuery < scan.frameQueries.length) :
    scan.upcoming nextQuery = insert nextQuery (scan.upcoming (nextQuery + scan.producerCount)) ∧
      nextQuery ∉ scan.upcoming (nextQuery + scan.producerCount) := by
  constructor
  · ext index
    simp only [upcoming, Finset.mem_filter, Finset.mem_range, Finset.mem_insert,
      Nat.add_mod_right]
    constructor
    · rintro ⟨hindex, hle, hmod⟩
      by_cases heq : index = nextQuery
      · exact Or.inl heq
      · -- a later query of the same residue is at least one stride later
        have hdvd : scan.producerCount ∣ index - nextQuery :=
          (Nat.modEq_iff_dvd' hle).mp hmod.symm
        have hstride := Nat.le_of_dvd (by omega) hdvd
        exact Or.inr ⟨hindex, by omega, hmod⟩
    · rintro (rfl | ⟨hindex, hle, hmod⟩)
      · exact ⟨hlt, Nat.le_refl _, rfl⟩
      · exact ⟨hindex, by omega, hmod⟩
  · intro hmem
    have hle := (Finset.mem_filter.mp hmem).2.1
    omega

theorem upcoming_of_ge {nextQuery : Nat} (hge : scan.frameQueries.length ≤ nextQuery) :
    scan.upcoming nextQuery = ∅ := by
  refine Finset.filter_eq_empty_iff.mpr fun index hindex => ?_
  have hlt := Finset.mem_range.mp hindex
  omega

/-- Every query belongs to the task of its residue. -/
theorem sum_upcoming (hpos : 0 < scan.producerCount) :
    ∑ producer ∈ Finset.range scan.producerCount,
        ∑ index ∈ scan.upcoming producer, scan.queryRows index = scan.sourceRows := by
  have hfiber := Finset.sum_fiberwise_of_maps_to
    (s := Finset.range scan.frameQueries.length) (t := Finset.range scan.producerCount)
    (g := fun index => index % scan.producerCount)
    (fun index _ => Finset.mem_range.mpr (Nat.mod_lt index hpos)) scan.queryRows
  refine Eq.trans (Finset.sum_congr rfl fun producer hproducer => ?_) hfiber
  have hlt := Finset.mem_range.mp hproducer
  refine Finset.sum_congr (Finset.filter_congr fun index _ => ?_) fun _ _ => rfl
  rw [Nat.mod_eq_of_lt hlt]
  have hmod := Nat.mod_le index scan.producerCount
  omega

/-! ## What a task knows -/

/-- Whether the task takes a step of its own next. -/
def running : ProducerPhase ε → Bool
  | .blocked | .finished => false
  | _ => true

theorem running_of_inTryBlock {phase : ProducerPhase ε} (h : inTryBlock phase = true) :
    running phase = true := by
  cases phase <;> first | rfl | cases h

theorem not_failing_of_inTryBlock {phase : ProducerPhase ε} (h : inTryBlock phase = true)
    (exception : ε) : phase ≠ .failing exception := by
  rintro rfl
  cases h

/-- What a task knows when it stands at a phase, in a run that was stopped or not. -/
def AtPhase (stopRequested : Bool) (task : LerobotVideoProducerTask ρ τ ε) : Prop :=
  match task.phase with
  | .queue => task.pendingTargetPosition < task.pendingTargets.length
  -- the task looks for rows only when its pending targets are queued
  | .query => task.pendingTargets.length ≤ task.pendingTargetPosition
  | .fetch => task.pendingTargets.length ≤ task.pendingTargetPosition ∧ task.frameResult ≠ none
  | .build => task.pendingTargets.length ≤ task.pendingTargetPosition ∧ task.frameResult ≠ none ∧
      task.currentRow < task.currentChunk.length
  | .stopping => stopRequested = true
  -- a task that ends by itself in a running scan has nothing left
  | .finishing | .finished => stopRequested = false →
      task.pendingTargets.length ≤ task.pendingTargetPosition ∧ scan.rowsLeft task = 0
  | .loopTop | .blocked | .failing _ => True

/-- What holds of the fields of a task. -/
structure TaskInvariant (stopRequested : Bool) (task : LerobotVideoProducerTask ρ τ ε) : Prop where
  position_le : task.pendingTargetPosition ≤ task.pendingTargets.length
  no_rows : task.frameResult = none → task.currentChunk.length ≤ task.currentRow
  chunks_ne_nil : ∀ chunks, task.frameResult = some chunks → ∀ chunk ∈ chunks, chunk ≠ []
  at_phase : scan.AtPhase stopRequested task

/-- A change of phase needs only what the new phase knows. -/
theorem TaskInvariant.setPhase {stopRequested stopRequested' : Bool}
    {task : LerobotVideoProducerTask ρ τ ε} (h : scan.TaskInvariant stopRequested task)
    (phase : ProducerPhase ε) (hphase : scan.AtPhase stopRequested' { task with phase := phase }) :
    scan.TaskInvariant stopRequested' { task with phase := phase } :=
  ⟨h.position_le, h.no_rows, h.chunks_ne_nil, hphase⟩

/-- What a task knows survives the end of the run. -/
theorem TaskInvariant.stopped {task : LerobotVideoProducerTask ρ τ ε} {stopRequested : Bool}
    (h : scan.TaskInvariant stopRequested task) : scan.TaskInvariant true task := by
  refine ⟨h.position_le, h.no_rows, h.chunks_ne_nil, ?_⟩
  have hphase := h.at_phase
  unfold AtPhase at hphase ⊢
  split at hphase <;> simp_all

/-! ## The kinds of steps -/

/-- A task takes rows off its source only to build them, and fails on one that cannot be built. -/
def RowsTaken (task task' : LerobotVideoProducerTask ρ τ ε) : Prop :=
  ∃ taken, scan.rowsLeft task = taken + scan.rowsLeft task' ∧ ∀ row ∈ taken,
    (∃ targets, scan.buildTargets row = .ok targets) ∨ ∃ exception, task'.phase = .failing exception

theorem RowsTaken.of_eq {task task' : LerobotVideoProducerTask ρ τ ε}
    (h : scan.rowsLeft task' = scan.rowsLeft task) : scan.RowsTaken task task' :=
  ⟨0, by rw [h, zero_add], by simp⟩

/-- Why a consumer is in a phase after an answer that handed it no buffer. -/
def Answered (s : VideoScanState ρ τ ε) : ConsumerPhase τ ε → Prop
  | .idle | .waiting => True
  | .finished => s.shared.error = none ∧ (s.shared.sourceExhausted || s.shared.stopRequested) = true ∧
      ∀ buffer ∈ s.shared.readyBuffers, buffer.shardIndex ∈ s.shared.busyShards
  | .failed (some exception) => s.shared.error = some exception
  | .holding _ | .failed none => False

/-- The effect of one step on the system. -/
inductive Move (s : VideoScanState ρ τ ε) : VideoScanState ρ τ ε → Prop
  /-- A producer does something that no other party sees. -/
  | advance {producer : Nat} {task : LerobotVideoProducerTask ρ τ ε}
      (hproducer : producer < scan.producerCount)
      (hold : inTryBlock (s.producers producer).phase = true) (hnew : running task.phase = true)
      (hremaining : scan.remaining task = scan.remaining (s.producers producer))
      (hrows : scan.RowsTaken (s.producers producer) task)
      (htask : scan.TaskInvariant s.shared.stopRequested task) : Move s (s.setTask producer task)
  /-- A producer queues its last pending targets. -/
  | queue {producer : Nat} {task : LerobotVideoProducerTask ρ τ ε} {moved : Multiset τ}
      {shared : LerobotVideoProducerState τ ε} (hproducer : producer < scan.producerCount)
      (hold : inTryBlock (s.producers producer).phase = true) (hnew : running task.phase = true)
      (hstop : s.shared.stopRequested = false) (happends : Appends s.shared shared)
      (hshared : ProducerInvariant scan.config shared)
      (hqueued : shared.queued = moved + s.shared.queued)
      (hremaining : scan.remaining (s.producers producer) = moved + scan.remaining task)
      (hrows : scan.rowsLeft task = scan.rowsLeft (s.producers producer))
      (htask : scan.TaskInvariant false task) :
      Move s ((s.setShared shared).setTask producer task)
  /-- A producer queues some of its pending targets, and is blocked. -/
  | block {producer : Nat} {task : LerobotVideoProducerTask ρ τ ε} {moved : Multiset τ}
      {shared : LerobotVideoProducerState τ ε} (hproducer : producer < scan.producerCount)
      (hold : inTryBlock (s.producers producer).phase = true) (hnew : task.phase = .blocked)
      (hstop : s.shared.stopRequested = false) (happends : Appends s.shared shared)
      (hready : shared.readyBuffers ≠ [])
      (hshared : ProducerInvariant scan.config shared)
      (hqueued : shared.queued = moved + s.shared.queued)
      (hremaining : scan.remaining (s.producers producer) = moved + scan.remaining task)
      (hrows : scan.rowsLeft task = scan.rowsLeft (s.producers producer))
      (htask : scan.TaskInvariant false task) :
      Move s ((s.setShared { shared with
        blockedProducers := shared.blockedProducers ++ [producer] }).setTask producer task)
  /-- A producer stops the run, because it was stopped already or with an error of its own. -/
  | halt {producer : Nat} {error : Option ε} {failures : List ε}
      (hproducer : producer < scan.producerCount)
      (hold : running (s.producers producer).phase = true)
      (herror : s.shared.stopRequested = true ∧ error = s.shared.error ∧ failures = s.failures ∨
        ∃ exception, (s.producers producer).phase = .failing exception ∧
          error = some (s.shared.error.getD exception) ∧ failures = s.failures ++ [exception]) :
      Move s { s with
        shared := { s.shared with error := error, stopRequested := true, blockedProducers := [] }
        toReschedule := s.toReschedule ++ s.shared.blockedProducers
        producers := Function.update s.producers producer
          { s.producers producer with phase := .finishing }
        failures := failures }
  /-- A producer ends. -/
  | finish {producer : Nat} {shared : LerobotVideoProducerState τ ε}
      (hproducer : producer < scan.producerCount)
      (hold : (s.producers producer).phase = .finishing)
      (hactive : shared.activeProducers = s.shared.activeProducers - 1)
      (hexhausted : shared.sourceExhausted =
        (s.shared.sourceExhausted || s.shared.activeProducers - 1 == 0))
      (hstop : shared.stopRequested = s.shared.stopRequested)
      (hshared : ProducerInvariant scan.config shared) (hsettled : Settled s.shared shared) :
      Move s ((s.setShared shared).setTask producer
        { s.producers producer with phase := .finished })
  /-- A blocked producer runs again. -/
  | reschedule {producer : Nat} (hproducer : producer < scan.producerCount)
      (hmem : producer ∈ s.toReschedule) :
      Move s { s.setTask producer { s.producers producer with phase := .loopTop } with
        toReschedule := s.toReschedule.erase producer }
  /-- A consumer claims a buffer, and takes the blocked producers. -/
  | claim {consumer : Nat} {before after : List (LerobotDecodeBuffer τ)}
      {buffer : LerobotDecodeBuffer τ} {shared : LerobotVideoProducerState τ ε}
      (hconsumer : consumer < scan.consumers) (hold : mayClaim (s.consumers consumer) = true)
      (herror : s.shared.error = none)
      (hready : s.shared.readyBuffers = before ++ buffer :: after)
      (hfree : buffer.shardIndex ∉ s.shared.busyShards)
      (heq : shared = { s.shared with
        readyBuffers := before ++ after
        busyShards := insert buffer.shardIndex s.shared.busyShards
        blockedProducers := []
        pendingTargetCount := s.shared.pendingTargetCount - buffer.targets.length })
      (hqueued : s.shared.queued = (buffer.targets : Multiset τ) + shared.queued)
      (hshared : ProducerInvariant scan.config shared) :
      Move s { s.setConsumer consumer (.holding buffer) with
        shared := shared
        toReschedule := s.toReschedule ++ s.shared.blockedProducers
        claims := s.claims ++ [(consumer, buffer)] }
  /-- A consumer is answered without a buffer, or wakes up. -/
  | answer {consumer : Nat} {phase : ConsumerPhase τ ε} (hconsumer : consumer < scan.consumers)
      (hold : mayClaim (s.consumers consumer) = true ∨ s.consumers consumer = .waiting)
      (hnew : Answered s phase) : Move s (s.setConsumer consumer phase)
  /-- A consumer gives its shard back. -/
  | release {consumer : Nat} {buffer : LerobotDecodeBuffer τ} {phase : ConsumerPhase τ ε}
      (hconsumer : consumer < scan.consumers) (hold : s.consumers consumer = .holding buffer)
      (hnew : phase = .idle ∨ phase = .failed none) :
      Move s { s.setConsumer consumer phase with
        shared := LerobotVideoProducerState.finishBuffer s.shared buffer.shardIndex }

/-! ## The steps of a producer that only it sees -/

variable {scan}

section ProducerSteps

variable {s t : VideoScanState ρ τ ε} {producer : Nat}
  (hproducer : producer < scan.producerCount)
  (htask : scan.TaskInvariant s.shared.stopRequested (s.producers producer))

include hproducer htask

theorem move_testStop (h : testStop s producer = some t) : scan.Move s t := by
  simp only [testStop] at h
  split at h
  · rename_i hphase
    have hold : inTryBlock (s.producers producer).phase = true := by rw [hphase]; rfl
    split at h
    · rename_i hstop
      cases h
      exact .advance hproducer hold rfl rfl (.of_eq scan rfl) (htask.setPhase scan _ hstop)
    · split at h
      · rename_i hpending
        cases h
        exact .advance hproducer hold rfl rfl (.of_eq scan rfl) (htask.setPhase scan _ hpending)
      · rename_i hpending
        cases h
        exact .advance hproducer hold rfl rfl (.of_eq scan rfl)
          (htask.setPhase scan _ (Nat.le_of_not_lt hpending))
  · cases h

theorem move_raise {exception : ε} (h : raise s producer exception = some t) : scan.Move s t := by
  simp only [raise] at h
  split at h
  · rename_i hguard
    cases h
    exact .advance hproducer hguard rfl rfl (.of_eq scan rfl) (htask.setPhase scan _ trivial)
  · cases h

theorem move_getQuery (h : scan.getQuery s producer = some t) : scan.Move s t := by
  simp only [getQuery] at h
  have hphase := htask.at_phase
  split at h
  · rename_i hquery hresult
    have hold : inTryBlock (s.producers producer).phase = true := by rw [hquery]; rfl
    have hpending : (s.producers producer).pendingTargets.length ≤
        (s.producers producer).pendingTargetPosition := by simpa only [AtPhase, hquery] using hphase
    have hrows := htask.no_rows hresult
    split at h
    · rename_i hend
      cases h
      refine .advance hproducer hold rfl rfl (.of_eq scan rfl)
        (htask.setPhase scan _ fun hstop => ⟨hpending, ?_⟩)
      simp only [hstop, Bool.false_or, decide_eq_true_eq] at hend
      simp [rowsLeft, hresult, List.drop_of_length_le hrows, scan.upcoming_of_ge hend]
    · rename_i hnext
      cases h
      simp only [Bool.or_eq_true, decide_eq_true_eq, not_or, Nat.not_le] at hnext
      obtain ⟨hinsert, hnotMem⟩ := scan.upcoming_of_lt (by omega) hnext.2
      have hsame : scan.rowsLeft { s.producers producer with
          phase := .fetch
          frameResult := some (scan.queryResult (s.producers producer).nextQuery)
          nextQuery := (s.producers producer).nextQuery + scan.producerCount } =
          scan.rowsLeft (s.producers producer) := by
        simp only [rowsLeft, hresult, hinsert, Finset.sum_insert hnotMem, Option.getD_some,
          Option.getD_none, List.flatten_nil, Multiset.coe_nil, queryRows, add_zero, add_assoc]
      refine .advance hproducer hold rfl (by simp only [remaining, hsame]) (.of_eq scan hsame)
        ⟨htask.position_le, by simp, ?_, hpending, by simp⟩
      intro chunks hchunks
      cases hchunks
      refine scan.chunk_ne_nil _ ?_
      simp only [queryResult, List.getElem?_eq_getElem hnext.2, Option.getD_some]
      exact List.getElem_mem hnext.2
  · rename_i hquery hresult
    have hold : inTryBlock (s.producers producer).phase = true := by rw [hquery]; rfl
    have hpending : (s.producers producer).pendingTargets.length ≤
        (s.producers producer).pendingTargetPosition := by simpa only [AtPhase, hquery] using hphase
    cases h
    exact .advance hproducer hold rfl rfl (.of_eq scan rfl)
      (htask.setPhase scan _ ⟨hpending, by simp [hresult]⟩)
  · cases h

theorem move_fetch (h : fetch s producer = some t) : scan.Move s t := by
  simp only [fetch] at h
  have hphase := htask.at_phase
  split at h
  · rename_i hfetch
    have hold : inTryBlock (s.producers producer).phase = true := by rw [hfetch]; rfl
    simp only [AtPhase, hfetch] at hphase
    obtain ⟨hpending, hsome⟩ := hphase
    split at h
    · rename_i hrow
      cases h
      exact .advance hproducer hold rfl rfl (.of_eq scan rfl)
        (htask.setPhase scan _ ⟨hpending, hsome, hrow⟩)
    · rename_i hrow
      have hused := Nat.le_of_not_lt hrow
      split at h
      · cases h
      · rename_i hresult
        cases h
        have hsame : scan.rowsLeft { s.producers producer with
            phase := .loopTop, frameResult := none, currentChunk := [], currentRow := 0 } =
            scan.rowsLeft (s.producers producer) := by
          simp [rowsLeft, hresult, List.drop_of_length_le hused]
        exact .advance hproducer hold rfl (by simp only [remaining, hsame]) (.of_eq scan hsame)
          ⟨htask.position_le, by simp, by simp, trivial⟩
      · rename_i chunk chunks hresult
        have hne := htask.chunks_ne_nil _ hresult
        cases h
        have hsame : scan.rowsLeft { s.producers producer with
            phase := .build, frameResult := some chunks, currentChunk := chunk, currentRow := 0 } =
            scan.rowsLeft (s.producers producer) := by
          simp [rowsLeft, hresult, List.drop_of_length_le hused]
        refine .advance hproducer hold rfl (by simp only [remaining, hsame]) (.of_eq scan hsame)
          ⟨htask.position_le, by simp, ?_, hpending, by simp,
            List.length_pos_of_ne_nil (hne chunk (by simp))⟩
        intro rest hrest other hother
        cases hrest
        exact hne other (List.mem_cons_of_mem _ hother)
  · cases h

theorem move_buildRow (h : scan.buildRow s producer = some t) : scan.Move s t := by
  simp only [buildRow] at h
  have hphase := htask.at_phase
  split at h
  · rename_i row hbuilding hget
    have hold : inTryBlock (s.producers producer).phase = true := by rw [hbuilding]; rfl
    simp only [AtPhase, hbuilding] at hphase
    obtain ⟨hpending, hsome, -⟩ := hphase
    obtain ⟨hlt, hrow⟩ := List.getElem?_eq_some_iff.mp hget
    -- the current row is the first of the rows left, whatever becomes of its targets
    have htaken : ∀ phase targets, scan.rowsLeft (s.producers producer) =
        {row} + scan.rowsLeft { s.producers producer with
          phase := phase
          pendingTargets := targets
          pendingTargetPosition := 0
          currentRow := (s.producers producer).currentRow + 1 } := by
      intro phase targets
      simp only [rowsLeft, List.drop_eq_getElem_cons hlt, hrow, ← add_assoc]
      rw [← Multiset.cons_coe, ← Multiset.singleton_add]
    split at h
    · rename_i targets hbuild
      cases h
      refine .advance hproducer hold rfl ?_ ⟨{row}, htaken _ _, ?_⟩
        ⟨Nat.zero_le _, fun hnone => absurd hnone hsome, htask.chunks_ne_nil, trivial⟩
      · simp only [remaining, htaken .loopTop targets, List.drop_of_length_le hpending,
          Multiset.add_bind, Multiset.singleton_bind, targetsOf, hbuild, List.drop_zero,
          Multiset.coe_nil, zero_add]
      · intro other hother
        rw [Multiset.mem_singleton.mp hother]
        exact .inl ⟨targets, hbuild⟩
    · rename_i exception hbuild
      cases h
      refine .advance hproducer hold rfl ?_ ⟨{row}, htaken _ _, fun _ _ => .inr ⟨_, rfl⟩⟩
        ⟨Nat.zero_le _, fun hnone => absurd hnone hsome, htask.chunks_ne_nil, trivial⟩
      simp only [remaining, htaken (.failing exception) [], List.drop_of_length_le hpending,
        Multiset.add_bind, Multiset.singleton_bind, targetsOf, hbuild, List.drop_zero,
        Multiset.coe_nil, zero_add]
  · cases h

/-! ## The steps of a producer on the shared state -/

theorem move_queueTargets (hshared : ProducerInvariant scan.config s.shared) {yields : Bool}
    (h : scan.queueTargets s producer yields = some t) : scan.Move s t := by
  simp only [queueTargets] at h
  split at h
  · rename_i hqueue
    have hold : inTryBlock (s.producers producer).phase = true := by rw [hqueue]; rfl
    rcases queueTargets_cases hshared (s.producers producer).pendingTargets
        (s.producers producer).pendingTargetPosition producer htask.position_le with
      ⟨hstop, heq⟩ | ⟨shared, count, hstop, happends, hinv, hqueued, hcases⟩
    · simp only [heq, Option.some.injEq] at h
      subst h
      have hsame : s.setShared s.shared = s := by simp [VideoScanState.setShared]
      rw [hsame]
      refine .advance hproducer hold rfl rfl (.of_eq scan rfl)
        (htask.setPhase scan _ fun hfalse => ?_)
      rw [hstop] at hfalse
      cases hfalse
    · have hsplit : scan.remaining (s.producers producer) =
          (((s.producers producer).pendingTargets.drop
            (s.producers producer).pendingTargetPosition).take count : List τ) +
          scan.remaining { s.producers producer with
            pendingTargetPosition := (s.producers producer).pendingTargetPosition + count } := by
        simp only [remaining, ← add_assoc]
        rw [← List.drop_drop, Multiset.coe_add, List.take_append_drop]
        rfl
      rcases hcases with ⟨hall, heq⟩ | ⟨hlt, hready, heq⟩
      · simp only [heq, Option.some.injEq] at h
        subst h
        refine .queue hproducer hold (by cases yields <;> rfl) hstop happends hinv hqueued ?_ rfl ?_
        · rw [hsplit, hall]
          simp [remaining, rowsLeft]
        · cases yields with
          | true => exact ⟨Nat.zero_le _, htask.no_rows, htask.chunks_ne_nil, trivial⟩
          | false => exact ⟨Nat.zero_le _, htask.no_rows, htask.chunks_ne_nil, Nat.zero_le _⟩
      · simp only [heq, Option.some.injEq] at h
        subst h
        exact .block hproducer hold rfl hstop happends hready hinv hqueued hsplit
          rfl ⟨Nat.le_of_lt hlt, htask.no_rows, htask.chunks_ne_nil, trivial⟩
  · cases h

omit htask in
theorem move_fail (h : fail s producer = some t) : scan.Move s t := by
  simp only [fail] at h
  split at h
  · rename_i exception hphase
    cases h
    have hmove : scan.Move s _ := .halt hproducer (by rw [hphase]; rfl)
      (.inr ⟨exception, hphase, rfl, rfl⟩)
    simpa [LerobotVideoProducerState.fail, LerobotVideoProducerState.requestStop,
      takeBlockedProducers, VideoScanState.setShared] using hmove
  · cases h

theorem move_requestStop (h : requestStop s producer = some t) : scan.Move s t := by
  simp only [requestStop] at h
  split at h
  · rename_i hphase
    cases h
    have hstop := htask.at_phase
    simp only [AtPhase, hphase] at hstop
    have hmove : scan.Move s _ := .halt hproducer (by rw [hphase]; rfl)
      (.inl ⟨hstop, rfl, rfl⟩)
    simpa [LerobotVideoProducerState.requestStop, takeBlockedProducers,
      VideoScanState.setShared] using hmove
  · cases h

omit htask in
theorem move_producerFinished (hshared : ProducerInvariant scan.config s.shared) {order : List Nat}
    (h : scan.producerFinished s producer order = some t) : scan.Move s t := by
  simp only [producerFinished] at h
  split at h
  · rename_i hphase
    split at h
    · rename_i horder
      cases h
      obtain ⟨hactive, hexhausted, hstop, hinv, hsettled⟩ :=
        producerFinished_spec hshared false horder
      exact .finish hproducer hphase hactive hexhausted (by rw [hstop, Bool.or_false]) hinv hsettled
    · cases h
  · cases h

omit htask in
theorem move_reschedule (h : reschedule s producer = some t) : scan.Move s t := by
  simp only [reschedule] at h
  split at h
  · rename_i hmem
    cases h
    exact .reschedule hproducer hmem
  · cases h

end ProducerSteps

/-! ## The steps of a consumer -/

section ConsumerSteps

variable {s t : VideoScanState ρ τ ε} {consumer : Nat} (hconsumer : consumer < scan.consumers)

include hconsumer

theorem move_claimBuffer (hshared : ProducerInvariant scan.config s.shared) {hasOutput : Bool}
    (h : claimBuffer s consumer hasOutput = some t) : scan.Move s t := by
  simp only [claimBuffer] at h
  split at h
  · rename_i hold
    rcases claimBuffer_cases hshared fun _ => true with
      ⟨exception, herror, heq⟩ |
      ⟨before, buffer, after, shared, herror, hready, hfree, -, hclaimed, -, hqueued, hinv, heq⟩ |
      ⟨herror, hall, hend, heq⟩ | ⟨herror, hall, hend, heq⟩
    · simp only [heq, Option.some.injEq] at h
      subst h
      exact .answer hconsumer (.inl hold) herror
    · simp only [heq, Option.some.injEq, List.filter_true] at h
      subst h
      exact .claim hconsumer hold herror hready hfree hclaimed hqueued hinv
    · simp only [heq, Option.some.injEq] at h
      subst h
      exact .answer hconsumer (.inl hold) ⟨herror, hend, hall⟩
    · simp only [heq, Option.some.injEq] at h
      subst h
      refine .answer hconsumer (.inl hold) ?_
      cases hasOutput <;> trivial
  · cases h

theorem move_wake (h : wake s consumer = some t) : scan.Move s t := by
  simp only [wake] at h
  split at h
  · rename_i hwaiting
    split at h
    · cases h
      exact .answer hconsumer (.inr hwaiting) trivial
    · cases h
  · cases h

theorem move_finishBuffer {decoded : Bool} (h : finishBuffer s consumer decoded = some t) :
    scan.Move s t := by
  simp only [finishBuffer] at h
  split at h
  · rename_i buffer hholding
    cases h
    exact .release hconsumer hholding (by cases decoded <;> simp)
  · cases h

end ConsumerSteps

/-- **The inversion of a step.** -/
theorem move_of_step {s t : VideoScanState ρ τ ε} {l : VideoScanLabel ε}
    (hshared : ProducerInvariant scan.config s.shared)
    (htasks : ∀ producer < scan.producerCount,
      scan.TaskInvariant s.shared.stopRequested (s.producers producer))
    (h : scan.system.step s l = some t) : scan.Move s t := by
  change scan.step s l = some t at h
  cases l <;> simp only [step] at h <;> split at h <;> try cases h
  case testStop hp => exact move_testStop hp (htasks _ hp) h
  case queueTargets hp => exact move_queueTargets hp (htasks _ hp) hshared h
  case getQuery hp => exact move_getQuery hp (htasks _ hp) h
  case fetch hp => exact move_fetch hp (htasks _ hp) h
  case buildTargets hp => exact move_buildRow hp (htasks _ hp) h
  case raise hp => exact move_raise hp (htasks _ hp) h
  case requestStop hp => exact move_requestStop hp (htasks _ hp) h
  case fail hp => exact move_fail hp h
  case producerFinished hp => exact move_producerFinished hp hshared h
  case reschedule hp => exact move_reschedule hp h
  case claimBuffer hc => exact move_claimBuffer hc hshared h
  case wake hc => exact move_wake hc h
  case finishBuffer hc => exact move_finishBuffer hc h

end VideoScan

end DuckdbLerobot.Video
