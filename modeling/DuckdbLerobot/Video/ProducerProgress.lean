import DuckdbLerobot.Video.ProducerDelivery

/-!
# Progress of a video scan

Backpressure lets a producer sleep only when a ready buffer exists, a claim wakes every sleeping
producer, and only a claim makes room. So a scan is never stuck: `producer_queue_progress`. A
producer that does not sleep has a step of its own, `enabled_of_running`.
-/

set_option autoImplicit false

namespace DuckdbLerobot.Video

open DuckdbLerobot.Library LerobotVideoProducerState

variable {ρ τ ε : Type}

namespace VideoScan

variable {scan : VideoScan ρ τ ε}

/-! ## Room in the queue -/

/-- Only `ClaimBuffer` hands out buffers. -/
theorem claims_of_step {s t : VideoScanState ρ τ ε} {l : VideoScanLabel ε}
    (h : scan.system.step s l = some t) :
    t.claims = s.claims ∨ ∃ consumer hasOutput, l = .claimBuffer consumer hasOutput := by
  change scan.step s l = some t at h
  cases l with
  | claimBuffer consumer hasOutput => exact .inr ⟨consumer, hasOutput, rfl⟩
  | queueTargets producer yields =>
      refine .inl ?_
      simp only [step, queueTargets] at h
      split at h <;> [split at h; cases h] <;> [split at h; cases h] <;> cases h <;> rfl
  | _ =>
      refine .inl ?_
      simp only [step, testStop, getQuery, fetch, buildRow, raise, requestStop, fail,
        producerFinished, reschedule, wake, finishBuffer] at h
      repeat' split at h
      all_goals first | (cases h; rfl) | cases h

/-- While the run is not stopped, only a claim lowers the number of pending targets. -/
theorem claim_of_pending_lt {s t : VideoScanState ρ τ ε} (hprod : scan.ProducerSide s)
    (hmove : scan.Move s t) (hstop : t.shared.stopRequested = false)
    (hlt : t.shared.pendingTargetCount < s.shared.pendingTargetCount) :
    ∃ consumer buffer, t.claims = s.claims ++ [(consumer, buffer)] := by
  have hcard := hprod.shared.pending_eq
  cases hmove with
  | advance hproducer hold hnew hremaining hrows htask => exact absurd hlt (lt_irrefl _)
  | @queue producer task moved shared hproducer hold hnew hstop happends hshared hqueued hremaining
      hrows htask =>
      have hcard' := hshared.pending_eq
      rw [hqueued, Multiset.card_add] at hcard'
      change shared.pendingTargetCount < _ at hlt
      omega
  | @block producer task moved shared hproducer hold hnew hstop happends hready hshared hqueued
      hremaining hrows htask =>
      have hcard' := hshared.pending_eq
      rw [hqueued, Multiset.card_add] at hcard'
      change shared.pendingTargetCount < _ at hlt
      omega
  | halt hproducer hold herror => exact absurd hlt (lt_irrefl _)
  | @finish producer shared hproducer hold hactive hexhausted hsame hshared hsettled =>
      have hcard' := hshared.pending_eq
      rw [(hsettled.running hstop).2] at hcard'
      change shared.pendingTargetCount < _ at hlt
      omega
  | reschedule hproducer hmem => exact absurd hlt (lt_irrefl _)
  | @claim consumer before after buffer shared hconsumer hold herror hready hfree heq hqueued
      hshared => exact ⟨consumer, buffer, rfl⟩
  | answer hconsumer hold hnew => exact absurd hlt (lt_irrefl _)
  | release hconsumer hold hnew => exact absurd hlt (lt_irrefl _)

/-- A claim that hands out a buffer takes the whole list of blocked producers. -/
theorem blockedProducers_of_claim {s t : VideoScanState ρ τ ε} (hmove : scan.Move s t)
    (hclaims : t.claims ≠ s.claims) : t.shared.blockedProducers = [] ∧
      t.toReschedule = s.toReschedule ++ s.shared.blockedProducers := by
  cases hmove with
  | claim hconsumer hold herror hready hfree heq hqueued hshared =>
      subst heq
      exact ⟨rfl, rfl⟩
  | _ => exact absurd rfl hclaims

/-! ## Enabled steps -/

/-- A producer on its way to run again does. -/
theorem enabled_reschedule {s : VideoScanState ρ τ ε} {producer : Nat}
    (hproducer : producer < scan.producerCount) (hmem : producer ∈ s.toReschedule) :
    scan.system.Enabled s (.reschedule producer) := by
  simp [TransitionSystem.Enabled, system, step, reschedule, hproducer, hmem]

/-- A waiting consumer that may go on does. -/
theorem enabled_wake {s : VideoScanState ρ τ ε} {consumer : Nat}
    (hconsumer : consumer < scan.consumers) (hwaiting : s.consumers consumer = .waiting)
    (hprogress : consumerCanProgress s.shared = true) :
    scan.system.Enabled s (.wake consumer) := by
  simp [TransitionSystem.Enabled, system, step, wake, hconsumer, hwaiting, hprogress]

/-- A producer that neither sleeps nor has finished takes a step. -/
theorem enabled_of_running {s : VideoScanState ρ τ ε} (hprod : scan.ProducerSide s) {producer : Nat}
    (hproducer : producer < scan.producerCount)
    (hrunning : running (s.producers producer).phase = true) :
    ∃ l, scan.system.Enabled s l := by
  have hphase := (hprod.tasks producer hproducer).at_phase
  cases hcase : (s.producers producer).phase with
  | loopTop =>
      refine ⟨.testStop producer, ?_⟩
      simp only [TransitionSystem.Enabled, system, step, hproducer, if_true, testStop, hcase]
      split
      · exact ⟨_, rfl⟩
      · split <;> exact ⟨_, rfl⟩
  | queue =>
      refine ⟨.queueTargets producer false, ?_⟩
      simp only [TransitionSystem.Enabled, system, step, hproducer, if_true, queueTargets, hcase]
      split <;> exact ⟨_, rfl⟩
  | query =>
      refine ⟨.getQuery producer, ?_⟩
      simp only [TransitionSystem.Enabled, system, step, hproducer, if_true, getQuery, hcase]
      cases (s.producers producer).frameResult with
      | none =>
          simp only
          split <;> exact ⟨_, rfl⟩
      | some chunks => exact ⟨_, rfl⟩
  | fetch =>
      simp only [AtPhase, hcase] at hphase
      refine ⟨.fetch producer, ?_⟩
      simp only [TransitionSystem.Enabled, system, step, hproducer, if_true, fetch, hcase]
      split
      · exact ⟨_, rfl⟩
      · cases hresult : (s.producers producer).frameResult with
        | none => exact absurd hresult hphase.2
        | some chunks => cases chunks <;> exact ⟨_, rfl⟩
  | build =>
      simp only [AtPhase, hcase] at hphase
      refine ⟨.buildTargets producer, ?_⟩
      simp only [TransitionSystem.Enabled, system, step, hproducer, if_true, buildRow, hcase,
        List.getElem?_eq_getElem hphase.2.2]
      split <;> exact ⟨_, rfl⟩
  | blocked =>
      rw [hcase] at hrunning
      cases hrunning
  | stopping =>
      refine ⟨.requestStop producer, ?_⟩
      simp only [TransitionSystem.Enabled, system, step, hproducer, if_true, requestStop, hcase]
      exact ⟨_, rfl⟩
  | failing exception =>
      refine ⟨.fail producer, ?_⟩
      simp only [TransitionSystem.Enabled, system, step, hproducer, if_true, fail, hcase]
      exact ⟨_, rfl⟩
  | finishing =>
      refine ⟨.producerFinished producer s.shared.partialBuffers.keys, ?_⟩
      simp only [TransitionSystem.Enabled, system, step, hproducer, if_true, producerFinished, hcase]
      exact ⟨_, if_pos (List.Perm.refl _)⟩
  | finished =>
      rw [hcase] at hrunning
      cases hrunning

/-- Producers that are all asleep or finished, while no consumer holds a buffer: a sleeping producer
is on its way to run again, or a waiting consumer may go on. -/
theorem progress_of_all_asleep {s : VideoScanState ρ τ ε} (hprod : scan.ProducerSide s)
    (hcons : scan.ConsumerSide s) (hstop : s.shared.stopRequested = false)
    (hasleep : ∀ producer < scan.producerCount, (s.producers producer).phase = .finished ∨
      (s.producers producer).phase = .blocked)
    (hfree : ∀ consumer buffer, s.consumers consumer ≠ .holding buffer) :
    (∃ producer < scan.producerCount, producer ∈ s.toReschedule) ∨
      consumerCanProgress s.shared = true := by
  by_cases hall : ∀ producer < scan.producerCount, (s.producers producer).phase = .finished
  · -- every producer is finished, so the source is exhausted
    refine Or.inr (consumerCanProgress_iff.mpr (.inr (.inl ?_)))
    rw [hprod.exhausted, hprod.active, beq_iff_eq]
    refine Finset.sum_eq_zero fun producer hproducer => ?_
    rw [unfinished, hall producer (Finset.mem_range.mp hproducer)]
  · simp only [not_forall] at hall
    obtain ⟨producer, hproducer, hnot⟩ := hall
    have hblocked := (hasleep producer hproducer).resolve_left hnot
    rcases List.mem_append.mp ((hprod.waiting producer).mpr ⟨hproducer, hblocked⟩) with
      hmem | hmem
    · -- a recorded producer leaves a ready buffer, and every shard is free
      have hready := hprod.shared.blocked_ready hstop (List.ne_nil_of_mem hmem)
      obtain ⟨buffer, hbuffer⟩ := List.exists_mem_of_ne_nil _ hready
      refine Or.inr (consumerCanProgress_iff.mpr (.inr (.inr (.inr ⟨buffer, hbuffer, ?_⟩))))
      intro hbusy
      obtain ⟨consumer, held, hheld, -⟩ := (hcons.busy buffer.shardIndex).mp hbusy
      exact hfree consumer held hheld
    · exact Or.inl ⟨producer, hproducer, hmem⟩

/-- A consumer that may go on is not answered `blocked`. -/
theorem claimBuffer_ne_blocked {config : LerobotVideoProducerConfig τ}
    {s : LerobotVideoProducerState τ ε} (h : ProducerInvariant config s)
    (hprogress : consumerCanProgress s = true) (alive : Nat → Bool) :
    (LerobotVideoProducerState.claimBuffer s alive).1 ≠ .ok .blocked := by
  intro hblocked
  rcases claimBuffer_cases h alive with ⟨_, -, heq⟩ | ⟨_, _, _, _, -, -, -, -, -, -, -, -, heq⟩ |
    ⟨-, -, -, heq⟩ | ⟨herror, hall, hend, heq⟩ <;> rw [heq] at hblocked <;> cases hblocked
  simp only [Bool.or_eq_false_iff] at hend
  rcases consumerCanProgress_iff.mp hprogress with h | h | h | ⟨buffer, hbuffer, hfree⟩
  · simp [herror] at h
  · simp [hend.1] at h
  · simp [hend.2] at h
  · exact hfree (hall buffer hbuffer)

/-- **The queue never gets stuck.** In every reachable state in which no stop was requested: a
recorded blocked producer implies a ready buffer; a claim that hands out a buffer takes the whole
list of blocked producers, and no other step lowers the number of pending targets of a run that is
not stopped; and when every unfinished producer is blocked, no consumer holds a buffer and some
consumer waits, a producer can be rescheduled, or the waiting consumer can wake up and is not answered
`blocked` again. -/
theorem producer_queue_progress {s : VideoScanState ρ τ ε} (hs : scan.system.Reachable s)
    (hstop : s.shared.stopRequested = false) :
    (s.shared.blockedProducers ≠ [] → s.shared.readyBuffers ≠ []) ∧
    (∀ consumer hasOutput t, scan.system.step s (.claimBuffer consumer hasOutput) = some t →
      t.claims ≠ s.claims → t.shared.blockedProducers = [] ∧
        t.toReschedule = s.toReschedule ++ s.shared.blockedProducers) ∧
    (∀ l t, scan.system.step s l = some t → t.shared.stopRequested = false →
      t.shared.pendingTargetCount < s.shared.pendingTargetCount →
        (∃ consumer hasOutput, l = .claimBuffer consumer hasOutput) ∧
          ∃ consumer buffer, t.claims = s.claims ++ [(consumer, buffer)]) ∧
    ((∀ producer < scan.producerCount, (s.producers producer).phase = .finished ∨
        (s.producers producer).phase = .blocked) →
      (∀ consumer buffer, s.consumers consumer ≠ .holding buffer) →
      ∀ consumer < scan.consumers, s.consumers consumer = .waiting →
        (∃ producer, scan.system.Enabled s (.reschedule producer)) ∨
          scan.system.Enabled s (.wake consumer) ∧
            (LerobotVideoProducerState.claimBuffer s.shared fun _ => true).1 ≠ .ok .blocked) := by
  have hprod := producerSide_reachable hs
  have hcons := consumerSide_reachable hs
  refine ⟨hprod.shared.blocked_ready hstop, ?_, ?_, ?_⟩
  · exact fun consumer hasOutput t h hclaims =>
      blockedProducers_of_claim (move_of_reachable hs h) hclaims
  · intro l t h hstop' hlt
    obtain ⟨consumer, buffer, hclaims⟩ :=
      claim_of_pending_lt hprod (move_of_reachable hs h) hstop' hlt
    refine ⟨?_, consumer, buffer, hclaims⟩
    rcases claims_of_step h with hsame | hlabel
    · rw [hsame] at hclaims
      simp at hclaims
    · exact hlabel
  · intro hasleep hfree consumer hconsumer hwaiting
    rcases progress_of_all_asleep hprod hcons hstop hasleep hfree with
      ⟨producer, hproducer, hmem⟩ | hprogress
    · exact .inl ⟨producer, enabled_reschedule hproducer hmem⟩
    · exact .inr ⟨enabled_wake hconsumer hwaiting hprogress,
        claimBuffer_ne_blocked hprod.shared hprogress _⟩

/-- The queue is full after one target, and the second producer is blocked. -/
theorem twoRowScan_progress : ∃ s, twoRowScan.system.Reachable s ∧
    s.shared.stopRequested = false ∧ s.shared.blockedProducers ≠ [] ∧ s.shared.readyBuffers ≠ [] := by
  obtain ⟨s, hs, htest⟩ := TransitionSystem.exists_reachable_of_replay twoRowScan.system
    (twoRowSchedule.take 12) (fun s => !s.shared.stopRequested && !s.shared.blockedProducers.isEmpty) (by decide)
  simp only [Bool.and_eq_true, Bool.not_eq_true', List.isEmpty_eq_false_iff] at htest
  obtain ⟨hstop, hblocked⟩ := htest
  exact ⟨s, hs, hstop, hblocked, (producer_queue_progress hs hstop).1 hblocked⟩

end VideoScan

end DuckdbLerobot.Video
