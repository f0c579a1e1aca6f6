import DuckdbLerobot.Video.ProducerInvariant

/-!
# The producer queue under any use

The operations of `LerobotVideoProducerState` in any order, by any callers: `queueSystem` has one step
for each call, with arbitrary arguments. `claims` and `filled` are history: the buffers handed out,
and the ready buffers in the order in which they were filled.

`queue_consistent` says that the containers and the counter agree in every reachable state, and that
the buffers of a shard are claimed in the order in which they were filled.
-/

set_option autoImplicit false

namespace DuckdbLerobot.Video

open DuckdbLerobot.Library LerobotVideoProducerState

variable {τ ε : Type}

/-- A call of the queue. `alive` says which weak references to blocked tasks still lock, and `order`
is the order in which the partial buffers are enumerated. -/
inductive QueueOperation (τ ε : Type)
  | queueTargets (targets : List τ) (targetPosition producerTask : Nat)
  | claimBuffer (alive : Nat → Bool)
  | finishBuffer (shardIndex : Nat)
  | producerFinished (abandoned : Bool) (order : List Nat)
  | fail (exception : ε) (alive : Nat → Bool)
  | requestStop (alive : Nat → Bool)

/-- The queue with its history. -/
structure QueueState (τ ε : Type) where
  queue : LerobotVideoProducerState τ ε
  claims : List (LerobotDecodeBuffer τ)
  filled : List (LerobotDecodeBuffer τ)

namespace QueueState

/-- Replace the queue, recording the ready buffers that it gained. -/
def setQueue (s : QueueState τ ε) (queue : LerobotVideoProducerState τ ε) : QueueState τ ε :=
  { s with
    queue := queue
    filled := s.filled ++ queue.readyBuffers.drop s.queue.readyBuffers.length }

/-- A call of `ClaimBuffer`, recording the buffer that it hands out. -/
def claimBuffer (s : QueueState τ ε) (alive : Nat → Bool) : QueueState τ ε :=
  match LerobotVideoProducerState.claimBuffer s.queue alive with
  | (.ok (.claimed buffer), _, queue) => { s with queue := queue, claims := s.claims ++ [buffer] }
  | (_, _, queue) => { s with queue := queue }

variable (config : LerobotVideoProducerConfig τ)

/-- One call. A position is in its list of targets, and `ProducerFinished` asserts that a producer is
active. -/
def apply (s : QueueState τ ε) : QueueOperation τ ε → Option (QueueState τ ε)
  | .queueTargets targets targetPosition producerTask =>
      if targetPosition ≤ targets.length then
        some (s.setQueue
          (LerobotVideoProducerState.queueTargets config s.queue targets targetPosition
            producerTask).2.2)
      else none
  | .claimBuffer alive => some (s.claimBuffer alive)
  | .finishBuffer shardIndex =>
      some (s.setQueue (LerobotVideoProducerState.finishBuffer s.queue shardIndex))
  | .producerFinished abandoned order =>
      if 0 < s.queue.activeProducers ∧ order.Perm s.queue.partialBuffers.keys then
        some (s.setQueue (LerobotVideoProducerState.producerFinished config s.queue abandoned order))
      else none
  | .fail exception alive =>
      some (s.setQueue (LerobotVideoProducerState.fail s.queue exception alive).2)
  | .requestStop alive => some (s.setQueue (LerobotVideoProducerState.requestStop s.queue alive).2)

end QueueState

/-- The queue of a scan with `producerThreads` threads and `queryCount` queries, under any calls. -/
def queueSystem (config : LerobotVideoProducerConfig τ) (producerThreads queryCount : Nat) :
    TransitionSystem (QueueState τ ε) (QueueOperation τ ε) where
  init := ⟨create producerThreads queryCount, [], []⟩
  step := QueueState.apply config

/-! ## The order of the buffers of a shard -/

/-- The buffers of a shard. -/
def ofShard (shardIndex : Nat) (buffers : List (LerobotDecodeBuffer τ)) :
    List (LerobotDecodeBuffer τ) :=
  buffers.filter fun buffer => buffer.shardIndex == shardIndex

@[simp] theorem ofShard_append (shardIndex : Nat) (first second : List (LerobotDecodeBuffer τ)) :
    ofShard shardIndex (first ++ second) = ofShard shardIndex first ++ ofShard shardIndex second :=
  List.filter_append _ _

/-- Handing out the first ready buffer of its shard keeps the order of every shard. -/
theorem ofShard_claim {claims before after : List (LerobotDecodeBuffer τ)}
    {buffer : LerobotDecodeBuffer τ}
    (hfirst : ∀ other ∈ before, other.shardIndex ≠ buffer.shardIndex) (shardIndex : Nat) :
    ofShard shardIndex (claims ++ [buffer] ++ (before ++ after)) =
      ofShard shardIndex (claims ++ (before ++ buffer :: after)) := by
  by_cases hshard : buffer.shardIndex = shardIndex
  · have hnone : ofShard shardIndex before = [] := by
      apply List.filter_eq_nil_iff.mpr
      intro other hother
      simpa [← hshard] using hfirst other hother
    have htake : ofShard shardIndex [buffer] = [buffer] := by simp [ofShard, hshard]
    have hcons : ofShard shardIndex (buffer :: after) = buffer :: ofShard shardIndex after := by
      simp [ofShard, hshard]
    rw [ofShard_append, ofShard_append, ofShard_append, ofShard_append, ofShard_append, hnone, htake,
      hcons]
    simp
  · have hskip : ofShard shardIndex [buffer] = [] := by simp [ofShard, hshard]
    have hcons : ofShard shardIndex (buffer :: after) = ofShard shardIndex after := by
      simp [ofShard, hshard]
    simp only [ofShard_append, hskip, hcons, List.append_nil]

/-- The buffers that left the queue and those that are still ready, against those that were filled. -/
structure InFillOrder (s : QueueState τ ε) : Prop where
  ordered : ∀ shardIndex,
    ofShard shardIndex (s.claims ++ s.queue.readyBuffers) <+: ofShard shardIndex s.filled
  /-- Only a stopped queue drops buffers. -/
  running : s.queue.stopRequested = false → ∀ shardIndex,
    ofShard shardIndex (s.claims ++ s.queue.readyBuffers) = ofShard shardIndex s.filled

/-- Buffers of the queue, and buffers that it handed out. -/
def BufferSound (config : LerobotVideoProducerConfig τ) (buffer : LerobotDecodeBuffer τ) : Prop :=
  (1 ≤ buffer.targets.length ∧ buffer.targets.length ≤ config.targetBufferSize) ∧
    ∀ target ∈ buffer.targets, config.videoFileIndex target = buffer.shardIndex

/-- What the calls keep. -/
structure QueueInvariant (config : LerobotVideoProducerConfig τ) (s : QueueState τ ε) : Prop where
  queue : ProducerInvariant config s.queue
  order : InFillOrder s
  claims : ∀ buffer ∈ s.claims, BufferSound config buffer

section Steps

variable {config : LerobotVideoProducerConfig τ} {s t : QueueState τ ε}

/-- A call that appends to the ready buffers of a running queue. -/
theorem InFillOrder.append (h : InFillOrder s) {queue : LerobotVideoProducerState τ ε}
    (hrunning : s.queue.stopRequested = false)
    (hready : s.queue.readyBuffers <+: queue.readyBuffers) : InFillOrder (s.setQueue queue) := by
  obtain ⟨gained, hgained⟩ := hready
  have hequal (shardIndex : Nat) :
      ofShard shardIndex (s.claims ++ queue.readyBuffers) =
        ofShard shardIndex (s.filled ++ queue.readyBuffers.drop s.queue.readyBuffers.length) := by
    rw [← hgained, List.drop_left, ← List.append_assoc, ofShard_append, h.running hrunning,
      ← ofShard_append]
  constructor
  · intro shardIndex
    exact hequal shardIndex ▸ List.prefix_rfl
  · intro _ shardIndex
    exact hequal shardIndex

/-- A call that leaves the ready buffers alone. -/
theorem InFillOrder.keep (h : InFillOrder s) {queue : LerobotVideoProducerState τ ε}
    (hready : queue.readyBuffers = s.queue.readyBuffers)
    (hstop : queue.stopRequested = false → s.queue.stopRequested = false) :
    InFillOrder (s.setQueue queue) := by
  have hfilled : (s.setQueue queue).filled = s.filled := by
    simp [QueueState.setQueue, hready]
  constructor
  · intro shardIndex
    rw [hfilled]
    exact hready ▸ h.ordered shardIndex
  · intro hrunning shardIndex
    rw [hfilled]
    exact hready ▸ h.running (hstop hrunning) shardIndex

/-- A stopped queue that drops its buffers. -/
theorem InFillOrder.discard (h : InFillOrder s) {queue : LerobotVideoProducerState τ ε}
    (hready : queue.readyBuffers = []) (hstop : queue.stopRequested = true) :
    InFillOrder (s.setQueue queue) := by
  have hfilled : (s.setQueue queue).filled = s.filled := by
    simp [QueueState.setQueue, hready]
  constructor
  · intro shardIndex
    have hordered := h.ordered shardIndex
    rw [ofShard_append] at hordered
    rw [hfilled]
    show ofShard shardIndex (s.claims ++ queue.readyBuffers) <+: _
    rw [hready, List.append_nil]
    exact (List.prefix_append _ _).trans hordered
  · intro hrunning
    exact absurd (hstop.symm.trans hrunning) Bool.noConfusion

/-- A ready buffer is sound. -/
theorem bufferSound_of_ready (h : ProducerInvariant config s.queue) {buffer : LerobotDecodeBuffer τ}
    (hbuffer : buffer ∈ s.queue.readyBuffers) : BufferSound config buffer := by
  obtain ⟨hne, hle⟩ := h.ready_size buffer hbuffer
  exact ⟨⟨List.length_pos_iff.mpr hne, hle⟩, h.ready_shard buffer hbuffer⟩

theorem QueueInvariant.queueTargets (h : QueueInvariant config s) {targets : List τ}
    {targetPosition : Nat} (hposition : targetPosition ≤ targets.length) (producerTask : Nat) :
    QueueInvariant config (s.setQueue
      (LerobotVideoProducerState.queueTargets config s.queue targets targetPosition
        producerTask).2.2) := by
  rcases queueTargets_cases h.queue targets targetPosition producerTask hposition with
    ⟨-, heq⟩ | ⟨u, count, hrunning, happends, hu, -, ⟨-, heq⟩ | ⟨-, hready, heq⟩⟩
  · rw [heq]
    exact ⟨h.queue, h.order.keep rfl id, h.claims⟩
  · rw [heq]
    exact ⟨hu, h.order.append hrunning happends.readyBuffers, h.claims⟩
  · rw [heq]
    exact ⟨{ hu with blocked_ready := fun _ _ => hready },
      h.order.append hrunning happends.readyBuffers, h.claims⟩

theorem QueueInvariant.claimBuffer (h : QueueInvariant config s) (alive : Nat → Bool) :
    QueueInvariant config (s.claimBuffer alive) := by
  unfold QueueState.claimBuffer
  rcases claimBuffer_cases h.queue alive with ⟨sourceError, -, heq⟩ |
    ⟨before, buffer, after, queue, -, hready, hfree, hbefore, rfl, -, -, hqueue, heq⟩ |
    ⟨-, -, -, heq⟩ | ⟨-, -, -, heq⟩
  · rw [heq]
    exact h
  · rw [heq]
    -- Every ready buffer before the claimed one belongs to a busy shard, and its own shard is free.
    have hfirst : ∀ other ∈ before, other.shardIndex ≠ buffer.shardIndex := by
      intro other hother hsame
      exact hfree (hsame ▸ hbefore other hother)
    have hsame (shardIndex : Nat) :
        ofShard shardIndex (s.claims ++ [buffer] ++ (before ++ after)) =
          ofShard shardIndex (s.claims ++ (before ++ buffer :: after)) := ofShard_claim hfirst shardIndex
    refine ⟨hqueue, ⟨?_, ?_⟩, ?_⟩
    · intro shardIndex
      have hordered := h.order.ordered shardIndex
      rw [hready, ← hsame] at hordered
      exact hordered
    · intro hrunning shardIndex
      have hordered := h.order.running hrunning shardIndex
      rw [hready, ← hsame] at hordered
      exact hordered
    · intro other hother
      rcases List.mem_append.mp hother with hother | hother
      · exact h.claims other hother
      · rw [List.mem_singleton.mp hother]
        apply bufferSound_of_ready h.queue
        rw [hready]
        exact List.mem_append_right _ List.mem_cons_self
  · rw [heq]
    exact h
  · rw [heq]
    exact h

theorem QueueInvariant.producerFinished (h : QueueInvariant config s) (abandoned : Bool)
    {order : List Nat} (horder : order.Perm s.queue.partialBuffers.keys) :
    QueueInvariant config (s.setQueue
      (LerobotVideoProducerState.producerFinished config s.queue abandoned order)) := by
  obtain ⟨-, -, hstop, hqueue, hsettled⟩ := producerFinished_spec h.queue abandoned horder
  refine ⟨hqueue, ?_, h.claims⟩
  cases hstopped : (LerobotVideoProducerState.producerFinished config s.queue abandoned
      order).stopRequested with
  | true => exact h.order.discard (hsettled.stopped hstopped).1 hstopped
  | false =>
      rw [hstopped] at hstop
      exact h.order.append (Bool.or_eq_false_iff.mp hstop.symm).1 (hsettled.running hstopped).1

/-- **Every call keeps the invariant.** -/
theorem QueueInvariant.apply (h : QueueInvariant config s) {operation : QueueOperation τ ε}
    (hstep : s.apply config operation = some t) : QueueInvariant config t := by
  cases operation with
  | queueTargets targets targetPosition producerTask =>
      obtain ⟨hposition, heq⟩ := Option.ite_none_right_eq_some.mp hstep
      cases heq
      exact h.queueTargets hposition producerTask
  | claimBuffer alive =>
      cases hstep
      exact h.claimBuffer alive
  | finishBuffer shardIndex =>
      cases hstep
      exact ⟨invariant_finishBuffer h.queue shardIndex, h.order.keep rfl id, h.claims⟩
  | producerFinished abandoned order =>
      obtain ⟨⟨-, horder⟩, heq⟩ := Option.ite_none_right_eq_some.mp hstep
      cases heq
      exact h.producerFinished abandoned horder
  | fail exception alive =>
      cases hstep
      exact ⟨invariant_fail h.queue exception alive,
        h.order.keep rfl fun hfalse => Bool.noConfusion hfalse, h.claims⟩
  | requestStop alive =>
      cases hstep
      exact ⟨invariant_requestStop h.queue alive,
        h.order.keep rfl fun hfalse => Bool.noConfusion hfalse, h.claims⟩

theorem queueInvariant_init (producerThreads queryCount : Nat) :
    QueueInvariant config (queueSystem config producerThreads queryCount :
      TransitionSystem (QueueState τ ε) (QueueOperation τ ε)).init := by
  constructor
  · exact invariant_create config producerThreads queryCount
  · constructor
    · exact fun _ => List.prefix_rfl
    · exact fun _ _ => rfl
  · intro buffer hbuffer
    cases hbuffer

/-- **Every run keeps the invariant.** -/
theorem queueInvariant {producerThreads queryCount : Nat}
    (hs : (queueSystem config producerThreads queryCount).Reachable s) : QueueInvariant config s :=
  hs.invariant (queueInvariant_init producerThreads queryCount)
    fun _ _ _ _ h hstep => h.apply hstep

end Steps

/-! ## Published buffers -/

section Published

variable {config : LerobotVideoProducerConfig τ} {P : LerobotDecodeBuffer τ → Prop}

/-- What holds of every published buffer. -/
def OfPublished (config : LerobotVideoProducerConfig τ) (P : LerobotDecodeBuffer τ → Prop) : Prop :=
  ∀ shardIndex targets, P (published config shardIndex targets)

theorem OfPublished.flushPartialBuffer (h : OfPublished config P)
    {s : LerobotVideoProducerState τ ε} (hs : ∀ buffer ∈ s.readyBuffers, P buffer)
    (shardIndex : Nat) :
    ∀ buffer ∈ (flushPartialBuffer config s shardIndex).readyBuffers, P buffer := by
  rcases flushPartialBuffer_cases config s shardIndex with ⟨heq, -⟩ | ⟨targets, -, -, heq⟩
  · rw [heq]
    exact hs
  · rw [heq]
    exact List.forall_mem_append.mpr ⟨hs, List.forall_mem_singleton.mpr (h shardIndex targets)⟩

theorem OfPublished.queueTarget (h : OfPublished config P)
    {s : LerobotVideoProducerState τ ε} (hs : ∀ buffer ∈ s.readyBuffers, P buffer) (target : τ) :
    ∀ buffer ∈ (queueTarget config s target).readyBuffers, P buffer := by
  rcases queueTarget_cases config s target with ⟨-, heq⟩ | ⟨-, heq⟩
  · rw [heq]
    exact hs
  · rw [heq]
    exact List.forall_mem_append.mpr ⟨hs, List.forall_mem_singleton.mpr (h _ _)⟩

theorem OfPublished.queueWhileRoom (h : OfPublished config P) (targets : List τ)
    {s : LerobotVideoProducerState τ ε} (hs : ∀ buffer ∈ s.readyBuffers, P buffer) :
    ∀ buffer ∈ (queueWhileRoom config s targets).1.readyBuffers, P buffer := by
  induction targets generalizing s with
  | nil => exact hs
  | cons target targets ih =>
      unfold LerobotVideoProducerState.queueWhileRoom
      split
      · exact ih (h.queueTarget hs target)
      · exact hs

theorem OfPublished.flushOldestPartialBuffer (h : OfPublished config P)
    {s : LerobotVideoProducerState τ ε} (hs : ∀ buffer ∈ s.readyBuffers, P buffer) :
    ∀ buffer ∈ (flushOldestPartialBuffer config s).readyBuffers, P buffer := by
  unfold LerobotVideoProducerState.flushOldestPartialBuffer
  split
  · exact hs
  · split
    · exact hs
    · exact h.flushPartialBuffer hs _

theorem OfPublished.flushAllPartialBuffers (h : OfPublished config P) (order : List Nat)
    {s : LerobotVideoProducerState τ ε} (hs : ∀ buffer ∈ s.readyBuffers, P buffer) :
    ∀ buffer ∈ (flushAllPartialBuffers config s order).readyBuffers, P buffer := by
  induction order generalizing s with
  | nil => exact hs
  | cons shardIndex order ih => exact ih (h.flushPartialBuffer hs shardIndex)

theorem OfPublished.queueTargets (h : OfPublished config P)
    {s : LerobotVideoProducerState τ ε} (hs : ∀ buffer ∈ s.readyBuffers, P buffer)
    (targets : List τ) (targetPosition producerTask : Nat) :
    ∀ buffer ∈ (queueTargets config s targets targetPosition producerTask).2.2.readyBuffers,
      P buffer := by
  have hloop := h.queueWhileRoom (targets.drop targetPosition) hs
  unfold LerobotVideoProducerState.queueTargets
  split
  · exact hs
  · dsimp only
    split
    · exact hloop
    · exact h.flushOldestPartialBuffer hloop

theorem OfPublished.producerFinished (h : OfPublished config P)
    {s : LerobotVideoProducerState τ ε} (hs : ∀ buffer ∈ s.readyBuffers, P buffer)
    (abandoned : Bool) (order : List Nat) :
    ∀ buffer ∈ (producerFinished config s abandoned order).readyBuffers, P buffer := by
  have hsettled : ∀ u : LerobotVideoProducerState τ ε, u.readyBuffers = s.readyBuffers →
      ∀ buffer ∈ (settleBuffers config u order).readyBuffers, P buffer := by
    intro u hu
    unfold settleBuffers
    split
    · intro buffer hbuffer
      cases hbuffer
    · split
      · exact h.flushAllPartialBuffers order (hu ▸ hs)
      · exact hu ▸ hs
  unfold LerobotVideoProducerState.producerFinished
  dsimp only
  split
  · exact hsettled _ rfl
  · exact hsettled _ rfl

/-- **What holds of every published buffer holds of the ready and of the claimed ones.** -/
theorem OfPublished.reachable (h : OfPublished config P) {producerThreads queryCount : Nat}
    {s : QueueState τ ε} (hs : (queueSystem config producerThreads queryCount).Reachable s) :
    (∀ buffer ∈ s.claims, P buffer) ∧ ∀ buffer ∈ s.queue.readyBuffers, P buffer := by
  refine hs.invariant (I := fun s => (∀ buffer ∈ s.claims, P buffer) ∧
    ∀ buffer ∈ s.queue.readyBuffers, P buffer) ?_ ?_
  · constructor
    · intro buffer hbuffer
      cases hbuffer
    · intro buffer hbuffer
      cases hbuffer
  · rintro s operation t hs ⟨hclaims, hready⟩ hstep
    cases operation with
    | queueTargets targets targetPosition producerTask =>
        obtain ⟨-, heq⟩ := Option.ite_none_right_eq_some.mp hstep
        cases heq
        exact ⟨hclaims, h.queueTargets hready targets targetPosition producerTask⟩
    | claimBuffer alive =>
        cases hstep
        unfold QueueState.claimBuffer
        rcases claimBuffer_cases (queueInvariant hs).queue alive with ⟨sourceError, -, heq⟩ |
          ⟨before, buffer, after, queue, -, hsplit, -, -, rfl, -, -, -, heq⟩ |
          ⟨-, -, -, heq⟩ | ⟨-, -, -, heq⟩
        · rw [heq]
          exact ⟨hclaims, hready⟩
        · rw [heq]
          rw [hsplit, List.forall_mem_append, List.forall_mem_cons] at hready
          exact ⟨List.forall_mem_append.mpr ⟨hclaims, List.forall_mem_singleton.mpr hready.2.1⟩,
            List.forall_mem_append.mpr ⟨hready.1, hready.2.2⟩⟩
        · rw [heq]
          exact ⟨hclaims, hready⟩
        · rw [heq]
          exact ⟨hclaims, hready⟩
    | finishBuffer shardIndex =>
        cases hstep
        exact ⟨hclaims, hready⟩
    | producerFinished abandoned order =>
        obtain ⟨-, heq⟩ := Option.ite_none_right_eq_some.mp hstep
        cases heq
        exact ⟨hclaims, h.producerFinished hready abandoned order⟩
    | fail exception alive =>
        cases hstep
        exact ⟨hclaims, hready⟩
    | requestStop alive =>
        cases hstep
        exact ⟨hclaims, hready⟩

end Published

/-! ## The containers and the counter -/

/-- **What the containers of the queue and its counter have to do with each other.** -/
structure QueueConsistent (config : LerobotVideoProducerConfig τ) (s : QueueState τ ε) : Prop where
  pending_eq : s.queue.pendingTargetCount =
    s.queue.partialTargets.length + s.queue.readyTargets.length
  pending_le : s.queue.pendingTargetCount ≤ config.maxPendingTargets
  /-- `partial_lru` lists the keys of `partial_buffers`, each once. -/
  lru_keys : (s.queue.partialLru.map LruNode.shardIndex).Perm s.queue.partialBuffers.keys
  lru_nodup : (s.queue.partialLru.map LruNode.shardIndex).Nodup
  /-- The iterators of `partial_lru_entries` point at the nodes of their keys, and no two nodes share
  an address. -/
  entries : ∀ shardIndex address, s.queue.partialLruEntries.lookup shardIndex = some address ↔
    ⟨address, shardIndex⟩ ∈ s.queue.partialLru
  addresses : (s.queue.partialLru.map LruNode.address).Nodup
  partials : ∀ shardIndex targets, s.queue.partialBuffers.lookup shardIndex = some targets →
    (1 ≤ targets.length ∧ targets.length < config.targetBufferSize) ∧
      ∀ target ∈ targets, config.videoFileIndex target = shardIndex
  buffers : ∀ buffer ∈ s.claims ++ s.queue.readyBuffers, BufferSound config buffer
  /-- A claim never subtracts more than is pending. -/
  claimable : ∀ buffer ∈ s.queue.readyBuffers,
    buffer.targets.length ≤ s.queue.pendingTargetCount
  order : InFillOrder s

section Consistent

variable {config : LerobotVideoProducerConfig τ} {s : QueueState τ ε}

theorem LerobotVideoProducerState.LruLinked.lookup_iff {lru : List LruNode}
    {entries : AList fun _ : Nat => Nat} {nextAddress : Nat} (h : LruLinked lru entries nextAddress)
    (shardIndex address : Nat) :
    entries.lookup shardIndex = some address ↔ ⟨address, shardIndex⟩ ∈ lru := by
  constructor
  · intro hlookup
    have hentry := h.linked.mem_iff.mpr (mem_entries_of_lookup hlookup)
    obtain ⟨node, hnode, heq⟩ := List.mem_map.mp hentry
    cases heq
    exact hnode
  · intro hnode
    apply lookup_of_mem_entries
    exact h.linked.mem_iff.mp (List.mem_map_of_mem hnode)

/-- The queue is consistent whenever its invariant holds. -/
theorem QueueInvariant.consistent (h : QueueInvariant config s) : QueueConsistent config s := by
  have hcard : s.queue.pendingTargetCount =
      s.queue.partialTargets.length + s.queue.readyTargets.length := by
    rw [h.queue.pending_eq, queued, Multiset.card_add, Multiset.coe_card, Multiset.coe_card]
  have hkeys : (s.queue.partialLru.map LruNode.shardIndex).Perm s.queue.partialBuffers.keys := by
    have hlinked := (h.queue.lru.linked.map Sigma.fst).trans h.queue.lru_partial
    rwa [List.map_map] at hlinked
  constructor
  · exact hcard
  · exact h.queue.pending_le
  · exact hkeys
  · exact hkeys.nodup_iff.mpr s.queue.partialBuffers.keys_nodup
  · exact h.queue.lru.lookup_iff
  · exact h.queue.lru.addresses
  · intro shardIndex targets hlookup
    obtain ⟨hne, hlt⟩ := h.queue.partial_size shardIndex targets hlookup
    exact ⟨⟨List.length_pos_iff.mpr hne, hlt⟩, h.queue.partial_shard shardIndex targets hlookup⟩
  · intro buffer hbuffer
    rcases List.mem_append.mp hbuffer with hbuffer | hbuffer
    · exact h.claims buffer hbuffer
    · exact bufferSound_of_ready h.queue hbuffer
  · intro buffer hbuffer
    have hpart : buffer.targets.length ≤ s.queue.readyTargets.length :=
      (List.sublist_flatten_of_mem (List.mem_map_of_mem hbuffer)).length_le
    omega
  · exact h.order

/-- **The producer queue is consistent in every reachable state.** -/
theorem queue_consistent {producerThreads queryCount : Nat}
    (hs : (queueSystem config producerThreads queryCount).Reachable s) : QueueConsistent config s :=
  (queueInvariant hs).consistent

end Consistent

/-- Targets that are their own shards, two in a buffer and three in the queue. -/
def smallQueue : LerobotVideoProducerConfig Nat where
  targetBufferSize := 2
  maxPendingTargets := 3
  fps := 10
  videoFileIndex := fun target => target
  finalizeDecodeBuffer := fun buffer => buffer
  targetBufferSize_pos := Nat.two_pos
  maxPendingTargets_pos := Nat.succ_pos 2
  finalize_shardIndex := fun _ => rfl
  finalize_targets := fun _ => List.Perm.refl _

def smallQueueSystem : TransitionSystem (QueueState Nat Nat) (QueueOperation Nat Nat) :=
  queueSystem smallQueue 1 1

/-- The last target waits for room, and the end of the producers fills a buffer with it. -/
def smallQueueCalls : List (QueueOperation Nat Nat) :=
  [.queueTargets [7, 5, 7, 7] 0 0, .claimBuffer fun _ => true, .finishBuffer 7,
    .queueTargets [7, 5, 7, 7] 3 0, .producerFinished false [7], .claimBuffer fun _ => true,
    .claimBuffer fun _ => true]

/-- The buffers of shard 7 are claimed in the order in which they were filled. -/
theorem smallQueue_consistent : ∃ s, smallQueueSystem.Reachable s ∧
    decide (s.claims.map LerobotDecodeBuffer.targets = [[7, 7], [5], [7]]) = true ∧
    QueueConsistent smallQueue s := by
  obtain ⟨s, hs, htest⟩ := TransitionSystem.exists_reachable_of_replay smallQueueSystem
    smallQueueCalls
    (fun s => decide (s.claims.map LerobotDecodeBuffer.targets = [[7, 7], [5], [7]])) (by decide)
  exact ⟨s, hs, htest, queue_consistent hs⟩

end DuckdbLerobot.Video
