import DuckdbLerobot.Video.ProducerMoves
import Mathlib.Algebra.Order.BigOperators.Group.Finset

/-!
# Agreement of the producers with the shared state

`ProducerSide` says that the flags and counters of `LerobotVideoProducerState` agree with the phases
of the producer tasks: `active_producers` counts the unfinished ones, the source is exhausted when
there is none, the run is stopped when an error is recorded, and the blocked tasks are those on the
list or on their way to be rescheduled. It holds in every reachable state.
-/

set_option autoImplicit false

namespace DuckdbLerobot.Video

open DuckdbLerobot.Library LerobotVideoProducerState

variable {ρ τ ε : Type}

namespace VideoScan

variable (scan : VideoScan ρ τ ε)

/-! ## Producers -/

/-- How much a task adds to `active_producers`. -/
def unfinished (task : LerobotVideoProducerTask ρ τ ε) : Nat :=
  match task.phase with
  | .finished => 0
  | _ => 1

theorem unfinished_of_running {task : LerobotVideoProducerTask ρ τ ε}
    (h : running task.phase = true) : unfinished task = 1 := by
  cases hphase : task.phase <;> simp_all [running, unfinished]

/-- The shared state and the producer tasks agree. -/
structure ProducerSide (s : VideoScanState ρ τ ε) : Prop where
  shared : ProducerInvariant scan.config s.shared
  tasks : ∀ producer < scan.producerCount,
    scan.TaskInvariant s.shared.stopRequested (s.producers producer)
  active : s.shared.activeProducers =
    ∑ producer ∈ Finset.range scan.producerCount, unfinished (s.producers producer)
  exhausted : s.shared.sourceExhausted = (s.shared.activeProducers == 0)
  error : s.shared.error = s.failures.head?
  stop : s.shared.stopRequested = s.shared.error.isSome
  waiting_nodup : (s.shared.blockedProducers ++ s.toReschedule).Nodup
  waiting : ∀ producer, producer ∈ s.shared.blockedProducers ++ s.toReschedule ↔
    producer < scan.producerCount ∧ (s.producers producer).phase = .blocked

theorem producerSide_init : scan.ProducerSide scan.init where
  shared := invariant_create scan.config _ _
  tasks := fun _ _ => ⟨Nat.le_refl _, fun _ => Nat.le_refl _, by simp [init], trivial⟩
  active := by simp [init, create, unfinished, producerCount]
  exhausted := rfl
  error := rfl
  stop := rfl
  waiting_nodup := List.nodup_nil
  waiting := by simp [init, create]

variable {scan}

section

variable {s : VideoScanState ρ τ ε}

/-- The source is not exhausted while a producer is not finished. -/
theorem ProducerSide.not_exhausted (h : scan.ProducerSide s) {producer : Nat}
    (hproducer : producer < scan.producerCount)
    (hphase : unfinished (s.producers producer) = 1) : s.shared.sourceExhausted = false := by
  have hle := Finset.single_le_sum (f := fun i => unfinished (s.producers i))
    (fun _ _ => Nat.zero_le _) (Finset.mem_range.mpr hproducer)
  rw [h.exhausted, h.active, beq_eq_false_iff_ne]
  simp only [hphase] at hle
  omega

/-- Once the source is exhausted, every producer is finished. -/
theorem ProducerSide.finished_of_exhausted (h : scan.ProducerSide s)
    (hexhausted : s.shared.sourceExhausted = true) {producer : Nat}
    (hproducer : producer < scan.producerCount) :
    (s.producers producer).phase = .finished := by
  by_contra hphase
  have hone : unfinished (s.producers producer) = 1 := by
    cases hcase : (s.producers producer).phase <;> simp_all [unfinished]
  rw [h.not_exhausted hproducer hone] at hexhausted
  cases hexhausted

/-- A step of a task that leaves it blocked or not, as it was. -/
theorem waiting_update {waiting : List Nat} {tasks : Nat → LerobotVideoProducerTask ρ τ ε}
    (h : ∀ i, i ∈ waiting ↔ i < scan.producerCount ∧ (tasks i).phase = .blocked)
    {producer : Nat} {task : LerobotVideoProducerTask ρ τ ε}
    (hold : (tasks producer).phase ≠ .blocked) (hnew : task.phase ≠ .blocked) (i : Nat) :
    i ∈ waiting ↔ i < scan.producerCount ∧ (Function.update tasks producer task i).phase = .blocked := by
  rw [h i]
  by_cases hi : i = producer
  · subst hi
    simp [hold, hnew]
  · rw [Function.update_of_ne hi]

theorem ne_blocked_of_running {phase : ProducerPhase ε} (h : running phase = true) :
    phase ≠ .blocked := by
  rintro rfl
  cases h

theorem tasks_update {stopRequested : Bool} {tasks : Nat → LerobotVideoProducerTask ρ τ ε}
    (h : ∀ i < scan.producerCount, scan.TaskInvariant stopRequested (tasks i)) {producer : Nat}
    {task : LerobotVideoProducerTask ρ τ ε} (htask : scan.TaskInvariant stopRequested task) :
    ∀ i < scan.producerCount,
      scan.TaskInvariant stopRequested (Function.update tasks producer task i) :=
  fun i hi => forall_update (P := fun j a => j < scan.producerCount →
    scan.TaskInvariant stopRequested a) h (fun _ => htask) i hi

end

theorem producerSide_move {s t : VideoScanState ρ τ ε} (h : scan.ProducerSide s)
    (hmove : scan.Move s t) : scan.ProducerSide t := by
  cases hmove with
  | advance hproducer hold hnew hremaining hrows htask =>
      replace hold := running_of_inTryBlock hold
      exact
        { h with
          tasks := tasks_update h.tasks htask
          active := h.active.trans (sum_range_update_eq _ _ hproducer
            ((unfinished_of_running hnew).trans (unfinished_of_running hold).symm)).symm
          waiting := waiting_update h.waiting (ne_blocked_of_running hold)
            (ne_blocked_of_running hnew) }
  | @queue producer task _ shared hproducer hold hnew hstop happends hshared _ _ _ htask =>
      replace hold := running_of_inTryBlock hold
      have hwaiting := h.waiting
      rw [← happends.blockedProducers] at hwaiting
      exact
        { shared := hshared
          tasks := by
            have htasks := h.tasks
            rw [hstop] at htasks
            show ∀ i < _, scan.TaskInvariant shared.stopRequested _
            rw [happends.stopRequested, hstop]
            exact tasks_update htasks htask
          active := happends.activeProducers.trans (h.active.trans (sum_range_update_eq _ _ hproducer
            ((unfinished_of_running hnew).trans (unfinished_of_running hold).symm)).symm)
          exhausted := by
            show shared.sourceExhausted = (shared.activeProducers == 0)
            rw [happends.sourceExhausted, happends.activeProducers, h.exhausted]
          error := happends.error.trans h.error
          stop := by
            show shared.stopRequested = shared.error.isSome
            rw [happends.stopRequested, happends.error, h.stop]
          waiting_nodup := by
            show (shared.blockedProducers ++ s.toReschedule).Nodup
            rw [happends.blockedProducers]
            exact h.waiting_nodup
          waiting := waiting_update hwaiting (ne_blocked_of_running hold)
            (ne_blocked_of_running hnew) }
  | @block producer task _ shared hproducer hold hnew hstop happends hready hshared _ _ _ htask =>
      replace hold := running_of_inTryBlock hold
      have hwaiting := h.waiting
      rw [← happends.blockedProducers] at hwaiting
      have hnotMem : producer ∉ shared.blockedProducers ++ s.toReschedule := fun hmem =>
        ne_blocked_of_running hold ((hwaiting producer).mp hmem).2
      have hperm : (shared.blockedProducers ++ [producer] ++ s.toReschedule).Perm
          (producer :: (shared.blockedProducers ++ s.toReschedule)) := by
        rw [List.append_assoc]
        exact List.perm_middle
      exact
        { shared := { hshared with blocked_ready := fun _ _ => hready }
          tasks := by
            have htasks := h.tasks
            rw [hstop] at htasks
            show ∀ i < _, scan.TaskInvariant shared.stopRequested _
            rw [happends.stopRequested, hstop]
            exact tasks_update htasks htask
          active := happends.activeProducers.trans (h.active.trans (sum_range_update_eq _ _ hproducer
            (by rw [unfinished_of_running hold, unfinished, hnew])).symm)
          exhausted := by
            show shared.sourceExhausted = (shared.activeProducers == 0)
            rw [happends.sourceExhausted, happends.activeProducers, h.exhausted]
          error := happends.error.trans h.error
          stop := by
            show shared.stopRequested = shared.error.isSome
            rw [happends.stopRequested, happends.error, h.stop]
          waiting_nodup := by
            show (shared.blockedProducers ++ [producer] ++ s.toReschedule).Nodup
            rw [hperm.nodup_iff, List.nodup_cons, happends.blockedProducers]
            rw [happends.blockedProducers] at hnotMem
            exact ⟨hnotMem, h.waiting_nodup⟩
          waiting := by
            intro i
            show i ∈ shared.blockedProducers ++ [producer] ++ s.toReschedule ↔ i < _ ∧
              (Function.update s.producers producer task i).phase = _
            rw [hperm.mem_iff, List.mem_cons, hwaiting i]
            by_cases hi : i = producer
            · subst hi
              simp [hnew, hproducer]
            · simp [hi] }
  | @halt producer error failures hproducer hold herror =>
      have hperm : (s.toReschedule ++ s.shared.blockedProducers).Perm
          (s.shared.blockedProducers ++ s.toReschedule) := List.perm_append_comm
      have htasks : ∀ i < scan.producerCount, scan.TaskInvariant true (s.producers i) :=
        fun i hi => (h.tasks i hi).stopped
      exact
        { shared :=
            { h.shared.setControl s.shared.activeProducers s.shared.sourceExhausted true
                (fun hfalse => by cases hfalse) with
              blocked_ready := fun _ hne => absurd rfl hne }
          tasks := tasks_update htasks ((htasks producer hproducer).setPhase scan _
            fun hfalse => by cases hfalse)
          active := h.active.trans (sum_range_update_eq _ _ hproducer
            (by rw [unfinished_of_running hold]; rfl)).symm
          exhausted := h.exhausted
          error := by
            show error = failures.head?
            rcases herror with ⟨-, rfl, rfl⟩ | ⟨exception, -, rfl, rfl⟩
            · exact h.error
            · rw [h.error]
              cases s.failures <;> rfl
          stop := by
            show true = error.isSome
            rcases herror with ⟨hstop, rfl, -⟩ | ⟨exception, -, rfl, -⟩
            · rw [← h.stop, hstop]
            · rfl
          waiting_nodup := by
            show ([] ++ (s.toReschedule ++ s.shared.blockedProducers)).Nodup
            rw [List.nil_append, hperm.nodup_iff]
            exact h.waiting_nodup
          waiting := by
            intro i
            show i ∈ [] ++ (s.toReschedule ++ s.shared.blockedProducers) ↔ _
            rw [List.nil_append, hperm.mem_iff]
            exact waiting_update h.waiting (ne_blocked_of_running hold) (by simp) i }
  | @finish producer shared hproducer hold hactive hexhausted hstop hshared hsettled =>
      have hone : unfinished (s.producers producer) = 1 := by rw [unfinished, hold]
      have hnot := h.not_exhausted hproducer hone
      have hwaiting := h.waiting
      rw [← hsettled.blockedProducers] at hwaiting
      obtain ⟨rest, hsum, hsum'⟩ := sum_range_update_split s.producers unfinished hproducer
        { s.producers producer with phase := .finished }
      exact
        { shared := hshared
          tasks := by
            show ∀ i < _, scan.TaskInvariant shared.stopRequested _
            rw [hstop]
            refine tasks_update h.tasks ((h.tasks producer hproducer).setPhase scan _ ?_)
            have hphase := (h.tasks producer hproducer).at_phase
            simp only [AtPhase, hold] at hphase
            exact hphase
          active := by
            refine hactive.trans ?_
            rw [h.active, hsum, hone]
            refine Eq.trans ?_ hsum'.symm
            rw [Nat.add_sub_cancel_left]
            exact (Nat.zero_add rest).symm
          exhausted := by
            show shared.sourceExhausted = (shared.activeProducers == 0)
            rw [hexhausted, hnot, hactive, Bool.false_or]
          error := hsettled.error.trans h.error
          stop := by
            show shared.stopRequested = shared.error.isSome
            rw [hstop, hsettled.error, h.stop]
          waiting_nodup := by
            show (shared.blockedProducers ++ s.toReschedule).Nodup
            rw [hsettled.blockedProducers]
            exact h.waiting_nodup
          waiting := waiting_update hwaiting (by rw [hold]; simp) (by simp) }
  | @reschedule producer hproducer hmem =>
      have hblocked := ((h.waiting producer).mp (List.mem_append_right _ hmem)).2
      have hperm : (s.shared.blockedProducers ++ s.toReschedule).Perm
          (producer :: (s.shared.blockedProducers ++ s.toReschedule.erase producer)) :=
        ((List.perm_cons_erase hmem).append_left _).trans List.perm_middle
      have hnodup := hperm.nodup_iff.mp h.waiting_nodup
      rw [List.nodup_cons] at hnodup
      exact
        { h with
          tasks := tasks_update h.tasks ((h.tasks producer hproducer).setPhase scan _ trivial)
          active := h.active.trans (sum_range_update_eq _ _ hproducer
            (by simp [unfinished, hblocked])).symm
          waiting_nodup := hnodup.2
          waiting := by
            intro i
            have hi := h.waiting i
            rw [hperm.mem_iff, List.mem_cons] at hi
            show i ∈ s.shared.blockedProducers ++ s.toReschedule.erase producer ↔ i < _ ∧
              (Function.update s.producers producer _ i).phase = _
            by_cases hsame : i = producer
            · subst hsame
              simp [hnodup.1]
            · rw [Function.update_of_ne hsame, ← hi]
              simp [hsame] }
  | @claim consumer before after buffer shared hconsumer hold herror hready hfree heq hqueued hshared =>
      have hperm : (s.toReschedule ++ s.shared.blockedProducers).Perm
          (s.shared.blockedProducers ++ s.toReschedule) := List.perm_append_comm
      subst heq
      exact
        { h with
          shared := hshared
          waiting_nodup := by
            show ([] ++ (s.toReschedule ++ s.shared.blockedProducers)).Nodup
            rw [List.nil_append, hperm.nodup_iff]
            exact h.waiting_nodup
          waiting := by
            intro i
            show i ∈ [] ++ (s.toReschedule ++ s.shared.blockedProducers) ↔ _
            rw [List.nil_append, hperm.mem_iff]
            exact h.waiting i }
  | answer hconsumer hold hnew => exact { h with }
  | release hconsumer hold hnew =>
      exact { h with shared := invariant_finishBuffer h.shared _ }

/-- **The producers and the shared state agree in every reachable state.** -/
theorem producerSide_reachable {s : VideoScanState ρ τ ε} (hs : scan.system.Reachable s) :
    scan.ProducerSide s :=
  hs.invariant scan.producerSide_init fun _ _ _ _ h hstep =>
    producerSide_move h (move_of_step h.shared h.tasks hstep)

/-- The kinds of steps from a reachable state. -/
theorem move_of_reachable {s t : VideoScanState ρ τ ε} {l : VideoScanLabel ε}
    (hs : scan.system.Reachable s) (h : scan.system.step s l = some t) : scan.Move s t :=
  move_of_step (producerSide_reachable hs).shared (producerSide_reachable hs).tasks h

end VideoScan

end DuckdbLerobot.Video
