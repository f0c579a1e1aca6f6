import DuckdbLerobot.Video.ProducerAgreement

/-!
# Delivery of the decode targets

Two more invariants hold in every reachable state of a scan.

* `ConsumerSide`: the busy shards are those of the held buffers, and what an answer `finished` means.
* `Delivery`: every target of the source is in exactly one place.

Together with `ProducerSide` they give the main result, `delivery_exactly_once`.
-/

set_option autoImplicit false

namespace DuckdbLerobot.Video

open DuckdbLerobot.Library LerobotVideoProducerState

variable {ρ τ ε : Type}

namespace VideoScan

variable (scan : VideoScan ρ τ ε)

/-! ## Consumers -/

/-- The shared state and the consumers agree. -/
structure ConsumerSide (s : VideoScanState ρ τ ε) : Prop where
  busy : ∀ shardIndex, shardIndex ∈ s.shared.busyShards ↔
    ∃ consumer buffer, s.consumers consumer = .holding buffer ∧ buffer.shardIndex = shardIndex
  in_range : ∀ consumer buffer, s.consumers consumer = .holding buffer → consumer < scan.consumers
  held_once : ∀ consumer consumer' buffer buffer', s.consumers consumer = .holding buffer →
    s.consumers consumer' = .holding buffer' → buffer.shardIndex = buffer'.shardIndex →
    consumer = consumer'
  finished : ∀ consumer, s.consumers consumer = .finished →
    s.shared.sourceExhausted = true ∧ s.shared.error = none
  failed : ∀ consumer exception, s.consumers consumer = .failed (some exception) →
    s.shared.error = some exception
  /-- Only the consumers that have not ended may still find a ready buffer. -/
  ready : s.shared.readyBuffers ≠ [] → ∃ consumer < scan.consumers, s.consumers consumer ≠ .finished
  /-- The last producer has published the partial buffers. -/
  exhausted : s.shared.sourceExhausted = true → s.shared.stopRequested = false →
    s.shared.partialBuffers = ∅

theorem consumerSide_init : scan.ConsumerSide scan.init where
  busy := by simp [init, create]
  in_range := by simp [init]
  held_once := by simp [init]
  finished := by simp [init]
  failed := by simp [init]
  ready := by simp [init, create]
  exhausted := fun _ _ => rfl

variable {scan}

/-- While a producer runs, no consumer has been told that the scan is finished. -/
theorem ConsumerSide.unfinished {s : VideoScanState ρ τ ε} (h : scan.ConsumerSide s)
    (hexhausted : s.shared.sourceExhausted = false) (consumer : Nat) :
    s.consumers consumer ≠ .finished := by
  intro hfinished
  rw [(h.finished consumer hfinished).1] at hexhausted
  cases hexhausted

/-- A change of the shared state that leaves the busy shards and the consumers alone, while a
producer runs. -/
theorem ConsumerSide.setShared {s t : VideoScanState ρ τ ε} (h : scan.ConsumerSide s)
    (hexhausted : s.shared.sourceExhausted = false) (hconsumers : t.consumers = s.consumers)
    (hbusy : t.shared.busyShards = s.shared.busyShards)
    (herror : ∀ exception, s.shared.error = some exception → t.shared.error = some exception)
    (hflushed : t.shared.sourceExhausted = true → t.shared.stopRequested = false →
      t.shared.partialBuffers = ∅) : scan.ConsumerSide t where
  busy := by
    rw [hbusy, hconsumers]
    exact h.busy
  in_range := by
    rw [hconsumers]
    exact h.in_range
  held_once := by
    rw [hconsumers]
    exact h.held_once
  finished := by
    rw [hconsumers]
    exact fun consumer hfinished => absurd hfinished (h.unfinished hexhausted consumer)
  failed := by
    rw [hconsumers]
    exact fun consumer exception hfailed => herror _ (h.failed consumer exception hfailed)
  ready := by
    rw [hconsumers]
    exact fun _ => ⟨0, scan.consumers_pos, h.unfinished hexhausted 0⟩
  exhausted := hflushed

/-- The phase of a consumer that may take the answer of a claim. -/
theorem not_holding_of_mayClaim {phase : ConsumerPhase τ ε}
    (h : mayClaim phase = true ∨ phase = .waiting) (buffer : LerobotDecodeBuffer τ) :
    phase ≠ .holding buffer := by
  rintro rfl
  rcases h with h | h <;> cases h

theorem Answered.not_holding {s : VideoScanState ρ τ ε} {phase : ConsumerPhase τ ε}
    (h : Answered s phase) (buffer : LerobotDecodeBuffer τ) : phase ≠ .holding buffer := by
  rintro rfl
  exact h

section

variable {s : VideoScanState ρ τ ε} (h : scan.ConsumerSide s) {consumer : Nat}

include h

/-- A consumer that holds nothing takes an answer. -/
theorem consumerSide_answer (hprod : scan.ProducerSide s) {phase : ConsumerPhase τ ε}
    (hconsumer : consumer < scan.consumers)
    (hold : mayClaim (s.consumers consumer) = true ∨ s.consumers consumer = .waiting)
    (hnew : Answered s phase) : scan.ConsumerSide (s.setConsumer consumer phase) := by
  have hnot := not_holding_of_mayClaim hold
  have hholding : ∀ other buffer, Function.update s.consumers consumer phase other =
      .holding buffer ↔ s.consumers other = .holding buffer := by
    intro other buffer
    by_cases hother : other = consumer
    · subst hother
      simp [hnot buffer, hnew.not_holding buffer]
    · rw [Function.update_of_ne hother]
  refine ⟨?_, ?_, ?_, ?_, ?_, ?_, h.exhausted⟩
  · intro shardIndex
    simp only [VideoScanState.setConsumer, hholding]
    exact h.busy shardIndex
  · exact fun other buffer hheld => h.in_range other buffer ((hholding _ _).mp hheld)
  · intro first second buffer buffer' hfirst hsecond hshard
    exact h.held_once first second buffer buffer' ((hholding _ _).mp hfirst)
      ((hholding _ _).mp hsecond) hshard
  · refine forall_update (P := fun _ (a : ConsumerPhase τ ε) => a = .finished → s.shared.sourceExhausted = true ∧
      s.shared.error = none) h.finished ?_
    rintro rfl
    obtain ⟨herror, hend, -⟩ := hnew
    rw [hprod.stop, herror, Option.isSome_none, Bool.or_false] at hend
    exact ⟨hend, herror⟩
  · refine forall_update (P := fun _ (a : ConsumerPhase τ ε) => ∀ exception, a = .failed (some exception) →
      s.shared.error = some exception) h.failed ?_
    rintro exception rfl
    exact hnew
  · intro hready
    show ∃ other < scan.consumers, Function.update s.consumers consumer phase other ≠ .finished
    by_cases hfinished : phase = .finished
    · -- the remaining ready buffer is of a shard that another consumer holds
      subst hfinished
      obtain ⟨-, -, hall⟩ := hnew
      obtain ⟨buffer, hbuffer⟩ := List.exists_mem_of_ne_nil _ hready
      obtain ⟨holder, held, hholder, -⟩ := (h.busy buffer.shardIndex).mp (hall buffer hbuffer)
      refine ⟨holder, h.in_range holder held hholder, ?_⟩
      have hne : holder ≠ consumer := by
        rintro rfl
        exact hnot held hholder
      rw [Function.update_of_ne hne, hholder]
      simp
    · exact ⟨consumer, hconsumer, by rwa [Function.update_self]⟩

/-- A consumer that holds nothing claims a buffer of a free shard. -/
theorem consumerSide_claim {before after : List (LerobotDecodeBuffer τ)}
    {buffer : LerobotDecodeBuffer τ} {shared : LerobotVideoProducerState τ ε}
    {t : VideoScanState ρ τ ε} (hconsumer : consumer < scan.consumers)
    (hold : mayClaim (s.consumers consumer) = true)
    (hready : s.shared.readyBuffers = before ++ buffer :: after)
    (hfree : buffer.shardIndex ∉ s.shared.busyShards)
    (hshared : shared = { s.shared with
      readyBuffers := before ++ after
      busyShards := insert buffer.shardIndex s.shared.busyShards
      blockedProducers := []
      pendingTargetCount := s.shared.pendingTargetCount - buffer.targets.length })
    (ht : t.shared = shared)
    (ht' : t.consumers = Function.update s.consumers consumer (.holding buffer)) :
    scan.ConsumerSide t := by
  have hnot := not_holding_of_mayClaim (τ := τ) (.inl hold)
  have hholding : ∀ other held, Function.update s.consumers consumer (.holding buffer) other =
      .holding held ↔ other = consumer ∧ held = buffer ∨
        other ≠ consumer ∧ s.consumers other = .holding held := by
    intro other held
    by_cases hother : other = consumer
    · subst hother
      simp [eq_comm]
    · simp [hother]
  have hfresh : ∀ other held, s.consumers other = .holding held →
      held.shardIndex ≠ buffer.shardIndex := fun other held hheld heq =>
    hfree ((h.busy _).mpr ⟨other, held, hheld, heq⟩)
  subst hshared
  refine ⟨?_, ?_, ?_, ?_, ?_, ?_, ?_⟩
  · intro shardIndex
    rw [ht, ht', Finset.mem_insert, h.busy shardIndex]
    constructor
    · rintro (rfl | ⟨other, held, hheld, hshard⟩)
      · exact ⟨consumer, buffer, Function.update_self .., rfl⟩
      · have hne : other ≠ consumer := by
          rintro rfl
          exact hnot held hheld
        exact ⟨other, held, (hholding _ _).mpr (.inr ⟨hne, hheld⟩), hshard⟩
    · rintro ⟨other, held, hheld, hshard⟩
      rcases (hholding _ _).mp hheld with ⟨-, rfl⟩ | ⟨-, hheld⟩
      · exact Or.inl hshard.symm
      · exact Or.inr ⟨other, held, hheld, hshard⟩
  · rw [ht']
    intro other held hheld
    rcases (hholding _ _).mp hheld with ⟨rfl, -⟩ | ⟨-, hheld⟩
    · exact hconsumer
    · exact h.in_range other held hheld
  · rw [ht']
    intro first second held held' hfirst hsecond hshard
    rcases (hholding _ _).mp hfirst with ⟨rfl, rfl⟩ | ⟨-, hbefore⟩ <;>
      rcases (hholding _ _).mp hsecond with ⟨rfl, rfl⟩ | ⟨-, hbefore'⟩
    · rfl
    · exact absurd hshard.symm (hfresh second held' hbefore')
    · exact absurd hshard (hfresh first held hbefore)
    · exact h.held_once first second held held' hbefore hbefore' hshard
  · rw [ht, ht']
    exact forall_update (P := fun _ (a : ConsumerPhase τ ε) => a = .finished →
      s.shared.sourceExhausted = true ∧ s.shared.error = none) h.finished (by simp)
  · rw [ht, ht']
    exact forall_update (P := fun _ (a : ConsumerPhase τ ε) => ∀ exception,
      a = .failed (some exception) → s.shared.error = some exception) h.failed (by simp)
  · rw [ht']
    exact fun _ => ⟨consumer, hconsumer, by simp⟩
  · rw [ht]
    exact h.exhausted

/-- A consumer gives its shard back. -/
theorem consumerSide_release {buffer : LerobotDecodeBuffer τ} {phase : ConsumerPhase τ ε}
    {t : VideoScanState ρ τ ε} (hold : s.consumers consumer = .holding buffer)
    (hconsumer : consumer < scan.consumers)
    (hnew : phase = .idle ∨ phase = .failed none)
    (ht : t.shared = LerobotVideoProducerState.finishBuffer s.shared buffer.shardIndex)
    (ht' : t.consumers = Function.update s.consumers consumer phase) : scan.ConsumerSide t := by
  have hnot : ∀ held, phase ≠ .holding held := by rcases hnew with rfl | rfl <;> simp
  have hholding : ∀ other held, Function.update s.consumers consumer phase other =
      .holding held ↔ other ≠ consumer ∧ s.consumers other = .holding held := by
    intro other held
    by_cases hother : other = consumer
    · subst hother
      simp [hnot held]
    · simp [hother]
  refine ⟨?_, ?_, ?_, ?_, ?_, ?_, ?_⟩
  · intro shardIndex
    rw [ht, ht']
    simp only [LerobotVideoProducerState.finishBuffer, Finset.mem_erase, h.busy, hholding]
    constructor
    · rintro ⟨hne, other, held, hheld, rfl⟩
      refine ⟨other, held, ⟨?_, hheld⟩, rfl⟩
      rintro rfl
      rw [hold, ConsumerPhase.holding.injEq] at hheld
      exact hne (by rw [hheld])
    · rintro ⟨other, held, ⟨hother, hheld⟩, rfl⟩
      exact ⟨fun hshard => hother (h.held_once other consumer held buffer hheld hold hshard),
        other, held, hheld, rfl⟩
  · rw [ht']
    exact fun other held hheld => h.in_range other held ((hholding _ _).mp hheld).2
  · rw [ht']
    exact fun first second held held' hfirst hsecond hshard =>
      h.held_once first second held held' ((hholding _ _).mp hfirst).2
        ((hholding _ _).mp hsecond).2 hshard
  · rw [ht, ht']
    exact forall_update (P := fun _ (a : ConsumerPhase τ ε) => a = .finished →
      s.shared.sourceExhausted = true ∧ s.shared.error = none) h.finished
      (by rcases hnew with rfl | rfl <;> simp)
  · rw [ht, ht']
    exact forall_update (P := fun _ (a : ConsumerPhase τ ε) => ∀ exception,
      a = .failed (some exception) → s.shared.error = some exception) h.failed
      (by rcases hnew with rfl | rfl <;> simp)
  · rw [ht']
    refine fun _ => ⟨consumer, hconsumer, ?_⟩
    rw [Function.update_self]
    rcases hnew with rfl | rfl <;> simp
  · rw [ht]
    exact h.exhausted

end

theorem consumerSide_move {s t : VideoScanState ρ τ ε} (hprod : scan.ProducerSide s)
    (h : scan.ConsumerSide s) (hmove : scan.Move s t) : scan.ConsumerSide t := by
  cases hmove with
  | advance hproducer hold hnew hremaining hrows htask => exact { h with }
  | queue hproducer hold hnew hstop happends hshared hqueued hremaining hrows htask =>
      have hnot := hprod.not_exhausted hproducer
        (unfinished_of_running (running_of_inTryBlock hold))
      refine h.setShared hnot rfl happends.busyShards (fun _ => happends.error.trans) ?_
      intro hexhausted
      exact absurd (happends.sourceExhausted.symm.trans hexhausted) (by rw [hnot]; simp)
  | block hproducer hold hnew hstop happends hready hshared hqueued hremaining hrows htask =>
      have hnot := hprod.not_exhausted hproducer
        (unfinished_of_running (running_of_inTryBlock hold))
      refine h.setShared hnot rfl happends.busyShards (fun _ => happends.error.trans) ?_
      intro hexhausted
      exact absurd (happends.sourceExhausted.symm.trans hexhausted) (by rw [hnot]; simp)
  | @halt producer error failures hproducer hold herror =>
      have hnot := hprod.not_exhausted hproducer (unfinished_of_running hold)
      refine h.setShared hnot rfl rfl ?_ (fun _ hstop => by cases hstop)
      intro exception hexception
      rcases herror with ⟨-, rfl, -⟩ | ⟨_, -, rfl, -⟩
      · exact hexception
      · show some (s.shared.error.getD _) = _
        rw [hexception, Option.getD_some]
  | @finish producer shared hproducer hold hactive hexhausted hstop hshared hsettled =>
      have hnot := hprod.not_exhausted hproducer (by rw [unfinished, hold])
      refine h.setShared hnot rfl hsettled.busyShards (fun _ => hsettled.error.trans) ?_
      intro hend hrunning
      refine hsettled.last hrunning ?_
      have hlast : shared.sourceExhausted = true := hend
      rw [hexhausted, hnot, Bool.false_or, beq_iff_eq] at hlast
      exact hactive.trans hlast
  | reschedule hproducer hmem => exact { h with }
  | claim hconsumer hold herror hready hfree heq hqueued hshared =>
      exact consumerSide_claim h hconsumer hold hready hfree heq rfl rfl
  | answer hconsumer hold hnew => exact consumerSide_answer h hprod hconsumer hold hnew
  | release hconsumer hold hnew => exact consumerSide_release h hold hconsumer hnew rfl rfl

/-- **The consumers and the shared state agree in every reachable state.** -/
theorem consumerSide_reachable {s : VideoScanState ρ τ ε} (hs : scan.system.Reachable s) :
    scan.ConsumerSide s :=
  hs.invariant scan.consumerSide_init fun _ _ _ hs h hstep =>
    consumerSide_move (producerSide_reachable hs) h (move_of_reachable hs hstep)

/-! ## Targets and buffers -/

end VideoScan

/-- The targets of the claimed buffers. -/
def VideoScanState.claimedTargets (s : VideoScanState ρ τ ε) : Multiset τ :=
  (s.claims.flatMap fun claim => claim.2.targets : List τ)

/-- The claimed buffers. -/
def VideoScanState.claimedBuffers (s : VideoScanState ρ τ ε) : Multiset (LerobotDecodeBuffer τ) :=
  (s.claims.map Prod.snd : List (LerobotDecodeBuffer τ))

namespace VideoScan

variable (scan : VideoScan ρ τ ε)

/-- The targets that no producer has queued yet. -/
def unqueued (tasks : Nat → LerobotVideoProducerTask ρ τ ε) : Multiset τ :=
  ∑ producer ∈ Finset.range scan.producerCount, scan.remaining (tasks producer)

/-- Every target of the source is with its producer, in the queue or with a claimed buffer, and every
published buffer is ready or claimed; only a stopped run loses some. -/
structure Delivery (s : VideoScanState ρ τ ε) : Prop where
  targets : ∃ lost, scan.unqueued s.producers + s.shared.queued + s.claimedTargets + lost =
    scan.sourceTargets ∧ (s.shared.stopRequested = false → lost = 0)
  buffers : ∃ lost : Multiset (LerobotDecodeBuffer τ),
    (s.filled : Multiset (LerobotDecodeBuffer τ)) =
      (s.shared.readyBuffers : Multiset (LerobotDecodeBuffer τ)) + s.claimedBuffers + lost ∧
    (s.shared.stopRequested = false → lost = 0)
  rows : ∀ row ∈ scan.sourceRows, (∃ targets, scan.buildTargets row = .ok targets) ∨
    (∃ producer < scan.producerCount, row ∈ scan.rowsLeft (s.producers producer)) ∨
    s.shared.stopRequested = true ∨
    ∃ producer < scan.producerCount, ∃ exception,
      (s.producers producer).phase = .failing exception

/-- No producer task: there is no query, so there is no row. -/
theorem sourceRows_of_no_producer (h : scan.producerCount = 0) : scan.sourceRows = 0 := by
  have hpos := scan.producerThreads_pos
  have hlen : scan.frameQueries.length = 0 := by
    unfold producerCount at h
    omega
  simp [sourceRows, hlen]

theorem sum_rowsLeft_init :
    ∑ producer ∈ Finset.range scan.producerCount, scan.rowsLeft (scan.init.producers producer) =
      scan.sourceRows := by
  rcases Nat.eq_zero_or_pos scan.producerCount with hzero | hpos
  · rw [scan.sourceRows_of_no_producer hzero, hzero]
    rfl
  · rw [← scan.sum_upcoming hpos]
    refine Finset.sum_congr rfl fun producer _ => ?_
    simp [init, rowsLeft]

theorem delivery_init : scan.Delivery scan.init where
  targets := by
    refine ⟨0, ?_, fun _ => rfl⟩
    have hremaining : ∀ producer, scan.remaining (scan.init.producers producer) =
        (scan.rowsLeft (scan.init.producers producer)).bind scan.targetsOf := by
      intro producer
      simp [remaining, init]
    simp only [unqueued, hremaining, ← sum_bind, scan.sum_rowsLeft_init]
    simp [init, create, queued, partialTargets, readyTargets, VideoScanState.claimedTargets,
      sourceTargets]
  buffers := ⟨0, rfl, fun _ => rfl⟩
  rows := by
    intro row hrow
    rw [← scan.sum_rowsLeft_init] at hrow
    obtain ⟨producer, hproducer, hmem⟩ := Multiset.mem_sum.mp hrow
    exact .inr (.inl ⟨producer, Finset.mem_range.mp hproducer, hmem⟩)

variable {scan}

/-- A task that keeps its rows and does not fail keeps the account of the rows. -/
theorem rows_update {s t : VideoScanState ρ τ ε} (h : scan.Delivery s) {producer : Nat}
    {task : LerobotVideoProducerTask ρ τ ε} (hproducer : producer < scan.producerCount)
    (htasks : t.producers = Function.update s.producers producer task)
    (hstop : s.shared.stopRequested = true → t.shared.stopRequested = true)
    (hrows : scan.RowsTaken (s.producers producer) task)
    (hfailing : (∀ exception, (s.producers producer).phase ≠ .failing exception) ∨
      t.shared.stopRequested = true) :
    ∀ row ∈ scan.sourceRows, (∃ targets, scan.buildTargets row = .ok targets) ∨
      (∃ i < scan.producerCount, row ∈ scan.rowsLeft (t.producers i)) ∨
      t.shared.stopRequested = true ∨
      ∃ i < scan.producerCount, ∃ exception, (t.producers i).phase = .failing exception := by
  intro row hrow
  rw [htasks]
  rcases h.rows row hrow with hbuilt | ⟨i, hi, hleft⟩ | hstopped | ⟨i, hi, exception, hphase⟩
  · exact .inl hbuilt
  · by_cases hsame : i = producer
    · subst hsame
      obtain ⟨taken, hsplit, htaken⟩ := hrows
      rw [hsplit, Multiset.mem_add] at hleft
      rcases hleft with hleft | hleft
      · rcases htaken row hleft with hbuilt | ⟨exception, hfail⟩
        · exact .inl hbuilt
        · exact .inr (.inr (.inr ⟨i, hi, exception, by rw [Function.update_self, hfail]⟩))
      · exact .inr (.inl ⟨i, hi, by rwa [Function.update_self]⟩)
    · exact .inr (.inl ⟨i, hi, by rwa [Function.update_of_ne hsame]⟩)
  · exact .inr (.inr (.inl (hstop hstopped)))
  · rcases hfailing with hnot | hstopped
    · have hne : i ≠ producer := by
        rintro rfl
        exact hnot exception hphase
      exact .inr (.inr (.inr ⟨i, hi, exception, by rwa [Function.update_of_ne hne]⟩))
    · exact .inr (.inr (.inl hstopped))

/-- A producer hands targets to the queue. -/
theorem unqueued_update (tasks : Nat → LerobotVideoProducerTask ρ τ ε) {producer : Nat}
    {task : LerobotVideoProducerTask ρ τ ε} {moved : Multiset τ}
    (hproducer : producer < scan.producerCount)
    (hremaining : scan.remaining (tasks producer) = moved + scan.remaining task) :
    scan.unqueued tasks = moved + scan.unqueued (Function.update tasks producer task) := by
  obtain ⟨rest, hold, hnew⟩ := sum_range_update_split tasks scan.remaining hproducer task
  unfold unqueued
  rw [hold, hnew, hremaining, add_assoc]

/-- A producer changes nothing of what it has left. -/
theorem unqueued_update_eq (tasks : Nat → LerobotVideoProducerTask ρ τ ε) {producer : Nat}
    (task : LerobotVideoProducerTask ρ τ ε) (hproducer : producer < scan.producerCount)
    (hremaining : scan.remaining task = scan.remaining (tasks producer)) :
    scan.unqueued (Function.update tasks producer task) = scan.unqueued tasks :=
  sum_range_update_eq tasks scan.remaining hproducer hremaining

/-- Buffers that were appended to the ready list are recorded as filled. -/
theorem filled_setShared {s : VideoScanState ρ τ ε} (shared : LerobotVideoProducerState τ ε)
    (h : s.shared.readyBuffers <+: shared.readyBuffers) {claimed lost : Multiset _}
    (hfilled : (s.filled : Multiset (LerobotDecodeBuffer τ)) =
      (s.shared.readyBuffers : Multiset (LerobotDecodeBuffer τ)) + claimed + lost) :
    ((s.setShared shared).filled : Multiset (LerobotDecodeBuffer τ)) =
      (shared.readyBuffers : Multiset (LerobotDecodeBuffer τ)) + claimed + lost := by
  obtain ⟨new, hnew⟩ := h
  simp only [VideoScanState.setShared, ← hnew, List.drop_left, ← Multiset.coe_add, hfilled]
  abel

theorem delivery_move {s t : VideoScanState ρ τ ε} (hprod : scan.ProducerSide s)
    (h : scan.Delivery s) (hmove : scan.Move s t) : scan.Delivery t := by
  obtain ⟨lost, htargets, hlost⟩ := h.targets
  obtain ⟨dropped, hbuffers, hdropped⟩ := h.buffers
  cases hmove with
  | advance hproducer hold hnew hremaining hrows htask =>
      have hsum := unqueued_update_eq s.producers _ hproducer hremaining
      exact
        { targets := ⟨lost, by rw [← htargets, ← hsum]; rfl, hlost⟩
          buffers := h.buffers
          rows := rows_update h hproducer rfl id hrows (.inl (not_failing_of_inTryBlock hold)) }
  | @queue producer task moved shared hproducer hold hnew hstop happends hshared hqueued hremaining
      hrows htask =>
      have hsum := unqueued_update s.producers hproducer hremaining
      exact
        { targets := by
            refine ⟨lost, ?_, fun _ => hlost hstop⟩
            show scan.unqueued (Function.update s.producers producer task) + shared.queued +
              s.claimedTargets + lost = _
            rw [← htargets, hsum, hqueued]
            abel
          buffers := ⟨dropped, filled_setShared shared happends.readyBuffers hbuffers,
            fun _ => hdropped hstop⟩
          rows := rows_update h hproducer rfl happends.stopRequested.trans (.of_eq scan hrows)
            (.inl (not_failing_of_inTryBlock hold)) }
  | @block producer task moved shared hproducer hold hnew hstop happends hready hshared hqueued
      hremaining hrows htask =>
      have hsum := unqueued_update s.producers hproducer hremaining
      exact
        { targets := by
            refine ⟨lost, ?_, fun _ => hlost hstop⟩
            show scan.unqueued (Function.update s.producers producer task) + shared.queued +
              s.claimedTargets + lost = _
            rw [← htargets, hsum, hqueued]
            abel
          buffers := ⟨dropped, filled_setShared { shared with
            blockedProducers := shared.blockedProducers ++ [producer] }
            happends.readyBuffers hbuffers, fun _ => hdropped hstop⟩
          rows := rows_update h hproducer rfl happends.stopRequested.trans (.of_eq scan hrows)
            (.inl (not_failing_of_inTryBlock hold)) }
  | @halt producer error failures hproducer hold herror =>
      have hsum := unqueued_update_eq s.producers { s.producers producer with phase := .finishing }
        hproducer rfl
      exact
        { targets := ⟨lost, by rw [← htargets, ← hsum]; rfl, fun hfalse => by cases hfalse⟩
          buffers := ⟨dropped, hbuffers, fun hfalse => by cases hfalse⟩
          rows := rows_update h hproducer rfl (fun _ => rfl) (.of_eq scan rfl) (.inr rfl) }
  | @finish producer shared hproducer hold hactive hexhausted hstop hshared hsettled =>
      have hsum := unqueued_update_eq s.producers { s.producers producer with phase := .finished }
        hproducer rfl
      have hrows := rows_update h (t := (s.setShared shared).setTask producer
        { s.producers producer with phase := .finished }) hproducer rfl
        (fun hstopped => hstop.trans hstopped) (.of_eq scan rfl) (.inl (by simp [hold]))
      cases hstopped : shared.stopRequested with
      | true =>
          -- a stopped run drops what the queue holds
          obtain ⟨hready, hqueued⟩ := hsettled.stopped hstopped
          have hcontra : ((s.setShared shared).setTask producer
              { s.producers producer with phase := .finished }).shared.stopRequested = true := hstopped
          refine ⟨⟨s.shared.queued + lost, ?_, fun hfalse => ?_⟩,
            ⟨(s.shared.readyBuffers : Multiset _) + dropped, ?_, fun hfalse => ?_⟩, hrows⟩
          · show scan.unqueued (Function.update s.producers producer _) + shared.queued +
              s.claimedTargets + _ = _
            rw [hqueued, ← htargets, hsum]
            abel
          · rw [hcontra] at hfalse
            cases hfalse
          · show ((s.filled ++ shared.readyBuffers.drop s.shared.readyBuffers.length : List _) :
              Multiset _) = (shared.readyBuffers : Multiset _) + s.claimedBuffers + _
            rw [hready, List.drop_nil, List.append_nil, hbuffers, Multiset.coe_nil, zero_add]
            abel
          · rw [hcontra] at hfalse
            cases hfalse
      | false =>
          obtain ⟨hkept, hqueued⟩ := hsettled.running hstopped
          have hrunning : s.shared.stopRequested = false := hstop.symm.trans hstopped
          refine ⟨⟨lost, ?_, fun _ => hlost hrunning⟩,
            ⟨dropped, filled_setShared shared hkept hbuffers, fun _ => hdropped hrunning⟩, hrows⟩
          show scan.unqueued (Function.update s.producers producer _) + shared.queued +
            s.claimedTargets + _ = _
          rw [hqueued, ← htargets, hsum]
  | @reschedule producer hproducer hmem =>
      have hblocked := ((hprod.waiting producer).mp (List.mem_append_right _ hmem)).2
      have hsum := unqueued_update_eq s.producers { s.producers producer with phase := .loopTop }
        hproducer rfl
      exact
        { targets := ⟨lost, by rw [← htargets, ← hsum]; rfl, hlost⟩
          buffers := h.buffers
          rows := rows_update h hproducer rfl id (.of_eq scan rfl) (.inl (by simp [hblocked])) }
  | @claim consumer before after buffer shared hconsumer hold herror hready hfree heq hqueued hshared =>
      subst heq
      refine ⟨⟨lost, ?_, hlost⟩, ⟨dropped, ?_, hdropped⟩, h.rows⟩
      · rw [← htargets, hqueued]
        simp only [VideoScanState.claimedTargets, List.flatMap_append, List.flatMap_singleton,
          ← Multiset.coe_add]
        show scan.unqueued s.producers + _ + _ + _ = _
        abel
      · rw [hready] at hbuffers
        simp only [VideoScanState.claimedBuffers, List.map_append, List.map_cons, List.map_nil,
          ← Multiset.coe_add, Multiset.coe_singleton] at hbuffers ⊢
        refine hbuffers.trans ?_
        rw [← Multiset.cons_coe, ← Multiset.singleton_add]
        abel
  | answer hconsumer hold hnew => exact { h with }
  | release hconsumer hold hnew => exact { h with }

/-- **No target is lost or duplicated in a reachable state.** -/
theorem delivery_reachable {s : VideoScanState ρ τ ε} (hs : scan.system.Reachable s) :
    scan.Delivery s :=
  hs.invariant scan.delivery_init fun _ _ _ hs h hstep =>
    delivery_move (producerSide_reachable hs) h (move_of_reachable hs hstep)

/-! ## Exactly once, or an error -/

/-- A target of pairwise different targets is in one claim only. -/
theorem existsUnique_claim {claims : List (Nat × LerobotDecodeBuffer τ)}
    (hnodup : (claims.flatMap fun claim => claim.2.targets).Nodup) {target : τ}
    (htarget : target ∈ claims.flatMap fun claim => claim.2.targets) :
    ∃! index : Fin claims.length, target ∈ (claims.get index).2.targets := by
  obtain ⟨claim, hclaim, hmem⟩ := List.mem_flatMap.mp htarget
  obtain ⟨index, rfl⟩ := List.get_of_mem hclaim
  have hpairwise := (List.nodup_flatMap.mp hnodup).2
  refine ⟨index, hmem, fun other hother => ?_⟩
  rcases Nat.lt_trichotomy other.val index.val with hlt | heq | hgt
  · exact absurd hmem (List.pairwise_iff_getElem.mp hpairwise _ _ other.isLt index.isLt hlt hother)
  · exact Fin.ext heq
  · exact absurd hother (List.pairwise_iff_getElem.mp hpairwise _ _ index.isLt other.isLt hgt hmem)

/-- What a claim answers once a failure is recorded. -/
theorem claimBuffer_of_failure {s : VideoScanState ρ τ ε} (hprod : scan.ProducerSide s)
    {first : ε} (hfirst : s.failures.head? = some first) {consumer : Nat}
    (hconsumer : consumer < scan.consumers) (hclaims : mayClaim (s.consumers consumer) = true)
    (hasOutput : Bool) :
    scan.system.step s (.claimBuffer consumer hasOutput) =
      some (s.setConsumer consumer (.failed (some first))) := by
  have herror : s.shared.error = some first := hprod.error.trans hfirst
  simp [system, step, hconsumer, claimBuffer, hclaims, LerobotVideoProducerState.claimBuffer, herror]

/-- What holds when every consumer has been answered `finished`. -/
structure Delivered (s : VideoScanState ρ τ ε) : Prop where
  failures : s.failures = []
  rows : ∀ row ∈ scan.sourceRows, ∃ targets, scan.buildTargets row = .ok targets
  partialBuffers : s.shared.partialBuffers = ∅
  readyBuffers : s.shared.readyBuffers = []
  pending : s.shared.pendingTargetCount = 0
  targets : s.claimedTargets = scan.sourceTargets
  buffers : s.claimedBuffers = (s.filled : Multiset (LerobotDecodeBuffer τ))

theorem delivered_of_finished {s : VideoScanState ρ τ ε} (hprod : scan.ProducerSide s)
    (hcons : scan.ConsumerSide s) (hdelivery : scan.Delivery s)
    (hfinished : ∀ consumer < scan.consumers, s.consumers consumer = .finished) :
    scan.Delivered s := by
  obtain ⟨hexhausted, herror⟩ := hcons.finished 0 (hfinished 0 scan.consumers_pos)
  have hstop : s.shared.stopRequested = false := by rw [hprod.stop, herror]; rfl
  obtain ⟨lost, htargets, hlost⟩ := hdelivery.targets
  obtain ⟨dropped, hbuffers, hdropped⟩ := hdelivery.buffers
  have hflushed := hcons.exhausted hexhausted hstop
  have hready : s.shared.readyBuffers = [] := by
    by_contra hne
    obtain ⟨consumer, hlt, hnot⟩ := hcons.ready hne
    exact hnot (hfinished consumer hlt)
  have hqueued : s.shared.queued = 0 := by
    simp [queued, partialTargets, readyTargets, hflushed, hready]
  have htask : ∀ producer < scan.producerCount,
      (s.producers producer).pendingTargets.length ≤
          (s.producers producer).pendingTargetPosition ∧
        scan.rowsLeft (s.producers producer) = 0 := by
    intro producer hproducer
    have hphase := (hprod.tasks producer hproducer).at_phase
    simp only [AtPhase, hprod.finished_of_exhausted hexhausted hproducer] at hphase
    exact hphase hstop
  have hunqueued : scan.unqueued s.producers = 0 := by
    refine Finset.sum_eq_zero fun producer hproducer => ?_
    obtain ⟨hpending, hrows⟩ := htask producer (Finset.mem_range.mp hproducer)
    simp [remaining, hrows, List.drop_of_length_le hpending]
  rw [hlost hstop, hqueued, hunqueued, zero_add, zero_add, add_zero] at htargets
  rw [hdropped hstop, hready, Multiset.coe_nil, zero_add, add_zero] at hbuffers
  refine ⟨?_, ?_, hflushed, hready, ?_, htargets, hbuffers.symm⟩
  · have hhead := hprod.error.symm.trans herror
    exact List.head?_eq_none_iff.mp hhead
  · intro row hrow
    rcases hdelivery.rows row hrow with hbuilt | ⟨producer, hproducer, hleft⟩ | hstopped |
      ⟨producer, hproducer, exception, hphase⟩
    · exact hbuilt
    · rw [(htask producer hproducer).2] at hleft
      exact absurd hleft (Multiset.notMem_zero row)
    · rw [hstop] at hstopped
      cases hstopped
    · rw [hprod.finished_of_exhausted hexhausted hproducer] at hphase
      cases hphase
  · rw [hprod.shared.pending_eq, hqueued, Multiset.card_zero]

/-- **Exactly once, or an error.** In every reachable state of every scan: while no failure has
stopped it, each target of the source is either not queued yet, or in the queue, or in one claimed
buffer, and each published buffer is ready or was claimed once; no run claims anything twice; when
every consumer has been answered `finished`, all rows were built and all targets were claimed, and
the queue is empty; once an exception has left a producer, no consumer is answered `finished`; and
once it is recorded, each claim throws the first recorded failure, and none throws another. -/
theorem delivery_exactly_once {s : VideoScanState ρ τ ε} (hs : scan.system.Reachable s) :
    (s.shared.stopRequested = false →
      scan.unqueued s.producers + s.shared.queued + s.claimedTargets = scan.sourceTargets ∧
      (s.filled : Multiset (LerobotDecodeBuffer τ)) =
        (s.shared.readyBuffers : Multiset (LerobotDecodeBuffer τ)) + s.claimedBuffers) ∧
    (s.claimedTargets ≤ scan.sourceTargets ∧
      s.claimedBuffers ≤ (s.filled : Multiset (LerobotDecodeBuffer τ))) ∧
    ((∀ consumer < scan.consumers, s.consumers consumer = .finished) → scan.Delivered s ∧
      (scan.sourceTargets.Nodup → ∀ target ∈ scan.sourceTargets,
        ∃! index : Fin s.claims.length, target ∈ (s.claims.get index).2.targets)) ∧
    (∀ producer < scan.producerCount, ∀ exception,
      (s.producers producer).phase = .failing exception →
        ∀ consumer, s.consumers consumer ≠ .finished) ∧
    (∀ first, s.failures.head? = some first →
      (∀ consumer, s.consumers consumer ≠ .finished) ∧
      (∀ consumer < scan.consumers, mayClaim (s.consumers consumer) = true → ∀ hasOutput,
        scan.system.step s (.claimBuffer consumer hasOutput) =
          some (s.setConsumer consumer (.failed (some first)))) ∧
      (∀ consumer exception, s.consumers consumer = .failed (some exception) → exception = first) ∧
      ((∀ consumer < scan.consumers, s.consumers consumer = .finished ∨
          ∃ exception, s.consumers consumer = .failed exception) →
        (∃ consumer < scan.consumers, s.consumers consumer ≠ .failed none) →
        ∃ consumer < scan.consumers, s.consumers consumer = .failed (some first))) := by
  have hprod := producerSide_reachable hs
  have hcons := consumerSide_reachable hs
  have hdelivery := delivery_reachable hs
  obtain ⟨lost, htargets, hlost⟩ := hdelivery.targets
  obtain ⟨dropped, hbuffers, hdropped⟩ := hdelivery.buffers
  have hthrown : ∀ first, s.failures.head? = some first → ∀ consumer exception,
      s.consumers consumer = .failed (some exception) → exception = first := by
    intro first hfirst consumer exception hfailed
    have herror := hcons.failed consumer exception hfailed
    rw [hprod.error, hfirst, Option.some.injEq] at herror
    exact herror.symm
  have hunfinished : ∀ first, s.failures.head? = some first → ∀ consumer,
      s.consumers consumer ≠ .finished := by
    intro first hfirst consumer hfinished
    have herror := (hcons.finished consumer hfinished).2
    rw [hprod.error, hfirst] at herror
    cases herror
  refine ⟨fun hstop => ?_, ⟨?_, ?_⟩, fun hfinished => ?_, ?_,
    fun first hfirst => ⟨hunfinished first hfirst, ?_, hthrown first hfirst, ?_⟩⟩
  · rw [hlost hstop, add_zero] at htargets
    rw [hdropped hstop, add_zero] at hbuffers
    exact ⟨htargets, hbuffers⟩
  · rw [← htargets]
    exact (Multiset.le_add_left _ _).trans (Multiset.le_add_right _ _)
  · rw [hbuffers]
    exact (Multiset.le_add_left _ _).trans (Multiset.le_add_right _ _)
  · have hdelivered := delivered_of_finished hprod hcons hdelivery hfinished
    refine ⟨hdelivered, fun hnodup target htarget => ?_⟩
    rw [← hdelivered.targets] at hnodup htarget
    exact existsUnique_claim (Multiset.coe_nodup.mp hnodup) (Multiset.mem_coe.mp htarget)
  · intro producer hproducer exception hphase
    exact hcons.unfinished (hprod.not_exhausted hproducer (by rw [unfinished, hphase]))
  · exact fun consumer hconsumer hclaims hasOutput =>
      claimBuffer_of_failure hprod hfirst hconsumer hclaims hasOutput
  · rintro hended ⟨consumer, hconsumer, hnot⟩
    refine ⟨consumer, hconsumer, ?_⟩
    rcases hended consumer hconsumer with hfinished | ⟨exception | exception, hfailed⟩
    · exact absurd hfinished (hunfinished first hfirst consumer)
    · exact absurd hfailed hnot
    · rw [hfailed, hthrown first hfirst consumer exception hfailed]

/-- Two queries of one row each, a queue with room for one target, and two consumers. -/
def twoRowScan : VideoScan Nat Nat Nat where
  config :=
    { targetBufferSize := 2
      maxPendingTargets := 1
      fps := 10
      videoFileIndex := fun target => target
      finalizeDecodeBuffer := id
      targetBufferSize_pos := by decide
      maxPendingTargets_pos := by decide
      finalize_shardIndex := fun _ => rfl
      finalize_targets := fun _ => List.Perm.refl _ }
  frameQueries := [[[0]], [[1]]]
  buildTargets := fun row => .ok [row]
  producerThreads := 2
  consumers := 2
  producerThreads_pos := by decide
  consumers_pos := by decide
  chunk_ne_nil := by decide

/-- The second producer is blocked until the first buffer is claimed. -/
def twoRowSchedule : List (VideoScanLabel Nat) :=
  [.testStop 0, .getQuery 0, .fetch 0, .buildTargets 0, .testStop 0, .queueTargets 0 false,
    .testStop 1, .getQuery 1, .fetch 1, .buildTargets 1, .testStop 1, .queueTargets 1 false,
    .claimBuffer 0 false, .reschedule 1, .testStop 1, .queueTargets 1 true,
    .getQuery 0, .fetch 0, .testStop 0, .getQuery 0, .producerFinished 0 [1],
    .testStop 1, .getQuery 1, .fetch 1, .testStop 1, .getQuery 1, .producerFinished 1 [1],
    .claimBuffer 1 false, .finishBuffer 0 true, .claimBuffer 0 false, .finishBuffer 1 true,
    .claimBuffer 1 false]

theorem twoRowScan_delivered : ∃ s, twoRowScan.system.Reachable s ∧
    (∀ consumer < twoRowScan.consumers, s.consumers consumer = .finished) ∧
    twoRowScan.Delivered s := by
  obtain ⟨s, hs, htest⟩ := TransitionSystem.exists_reachable_of_replay twoRowScan.system
    twoRowSchedule
    (fun s => decide (∀ consumer < twoRowScan.consumers, s.consumers consumer = .finished))
    (by decide)
  have hfinished := of_decide_eq_true htest
  exact ⟨s, hs, hfinished, ((delivery_exactly_once hs).2.2.1 hfinished).1⟩

end VideoScan

end DuckdbLerobot.Video
