import DuckdbLerobot.Video.ProducerState
import Mathlib.Data.Multiset.Basic
import Mathlib.Algebra.Order.Group.Multiset

/-!
# The representation invariant of the video producer state

`ProducerInvariant` says how the counter, the two maps, the recency list and the ready list of
`LerobotVideoProducerState` belong together. Every operation keeps it, in any order of operations
and whoever calls them. The targets that the queue holds are the multiset `queued`; each operation
has one lemma that says what it does to that multiset.
-/

set_option autoImplicit false

namespace DuckdbLerobot.Video

open DuckdbLerobot.Library

variable {τ ε : Type}

namespace LerobotVideoProducerState

/-! ## Held targets -/

/-- The targets in partial buffers. -/
def partialTargets (s : LerobotVideoProducerState τ ε) : List τ :=
  s.partialBuffers.entries.flatMap Sigma.snd

/-- The targets in ready buffers. -/
def readyTargets (s : LerobotVideoProducerState τ ε) : List τ :=
  s.readyBuffers.flatMap LerobotDecodeBuffer.targets

/-- The targets that the queue holds. -/
def queued (s : LerobotVideoProducerState τ ε) : Multiset τ :=
  (s.partialTargets : Multiset τ) + (s.readyTargets : Multiset τ)

/-- The recency list has one node for each entry of its map, the entry's iterator points at that
node, and addresses are used once. -/
structure LruLinked (lru : List LruNode) (entries : AList fun _ : Nat => Nat)
    (nextAddress : Nat) : Prop where
  linked : (lru.map fun node => (⟨node.shardIndex, node.address⟩ : Σ _ : Nat, Nat)).Perm
    entries.entries
  fresh : ∀ node ∈ lru, node.address < nextAddress
  addresses : (lru.map LruNode.address).Nodup

/-- The representation invariant. -/
structure ProducerInvariant (config : LerobotVideoProducerConfig τ)
    (s : LerobotVideoProducerState τ ε) : Prop where
  pending_eq : s.pendingTargetCount = Multiset.card s.queued
  pending_le : s.pendingTargetCount ≤ config.maxPendingTargets
  lru : LruLinked s.partialLru s.partialLruEntries s.nextLruAddress
  lru_partial : s.partialLruEntries.keys.Perm s.partialBuffers.keys
  partial_size : ∀ shardIndex targets, s.partialBuffers.lookup shardIndex = some targets →
    targets ≠ [] ∧ targets.length < config.targetBufferSize
  partial_shard : ∀ shardIndex targets, s.partialBuffers.lookup shardIndex = some targets →
    ∀ target ∈ targets, config.videoFileIndex target = shardIndex
  ready_size : ∀ buffer ∈ s.readyBuffers,
    buffer.targets ≠ [] ∧ buffer.targets.length ≤ config.targetBufferSize
  ready_shard : ∀ buffer ∈ s.readyBuffers, ∀ target ∈ buffer.targets,
    config.videoFileIndex target = buffer.shardIndex
  blocked_ready : s.stopRequested = false → s.blockedProducers ≠ [] → s.readyBuffers ≠ []

theorem lruLinked_empty (nextAddress : Nat) : LruLinked [] ∅ nextAddress :=
  ⟨List.Perm.refl _, by simp, by simp⟩

/-- Forgetting a shard keeps the recency list linked. -/
theorem LruLinked.without {s : LerobotVideoProducerState τ ε}
    (h : LruLinked s.partialLru s.partialLruEntries s.nextLruAddress) (shardIndex : Nat) :
    LruLinked (lruWithout s shardIndex) (s.partialLruEntries.erase shardIndex)
      s.nextLruAddress := by
  unfold lruWithout
  cases hlook : s.partialLruEntries.lookup shardIndex with
  | none =>
      rw [erase_of_lookup_none hlook]
      exact h
  | some address =>
      have hmem := (h.linked.mem_iff).mpr (mem_entries_of_lookup hlook)
      obtain ⟨node, hnode, heq⟩ := List.mem_map.mp hmem
      simp only [Sigma.mk.injEq, heq_eq_eq] at heq
      obtain ⟨hshard, haddress⟩ := heq
      have huniq : ∀ other ∈ s.partialLru, (other.address == address) = true → other = node := by
        intro other hother hb
        have hsame : other.address = node.address := by
          rw [haddress]
          exact beq_iff_eq.mp hb
        exact List.inj_on_of_nodup_map h.addresses hother hnode hsame
      have hperm : s.partialLru.Perm
          (node :: s.partialLru.eraseP fun other => other.address == address) :=
        perm_cons_eraseP hnode (by simp [haddress]) huniq
      refine ⟨?_, ?_, ?_⟩
      · have hmap := hperm.map fun n => (⟨n.shardIndex, n.address⟩ : Σ _ : Nat, Nat)
        rw [List.map_cons, hshard, haddress] at hmap
        exact (hmap.symm.trans (h.linked.trans (entries_perm_of_lookup hlook))).cons_inv
      · exact fun other hother => h.fresh other (List.mem_of_mem_eraseP hother)
      · exact h.addresses.sublist (List.eraseP_sublist.map _)

/-- Moving a shard to the front keeps the recency list linked. -/
theorem LruLinked.touch {s : LerobotVideoProducerState τ ε}
    (h : LruLinked s.partialLru s.partialLruEntries s.nextLruAddress) (shardIndex : Nat) :
    LruLinked (⟨s.nextLruAddress, shardIndex⟩ :: lruWithout s shardIndex)
      (s.partialLruEntries.insert shardIndex s.nextLruAddress) (s.nextLruAddress + 1) := by
  have hw := h.without shardIndex
  refine ⟨?_, ?_, ?_⟩
  · exact (hw.linked.cons _).trans (entries_insert_perm shardIndex s.nextLruAddress).symm
  · intro node hnode
    rcases List.mem_cons.mp hnode with rfl | hnode
    · exact Nat.lt_succ_self _
    · exact Nat.lt_succ_of_lt (hw.fresh node hnode)
  · rw [List.map_cons, List.nodup_cons]
    refine ⟨?_, hw.addresses⟩
    intro hmem
    obtain ⟨node, hnode, haddress⟩ := List.mem_map.mp hmem
    have hlt := hw.fresh node hnode
    simp only at haddress
    omega

/-- A new address is in use nowhere, so a larger bound on addresses is one too. -/
theorem LruLinked.mono {lru : List LruNode} {entries : AList fun _ : Nat => Nat} {n m : Nat}
    (h : LruLinked lru entries n) (hnm : n ≤ m) : LruLinked lru entries m :=
  ⟨h.linked, fun node hnode => Nat.lt_of_lt_of_le (h.fresh node hnode) hnm, h.addresses⟩

/-- A map that is not empty has a node at the back of the recency list. -/
theorem LruLinked.getLast {s : LerobotVideoProducerState τ ε}
    (h : LruLinked s.partialLru s.partialLruEntries s.nextLruAddress)
    (hkeys : s.partialLruEntries.keys.Perm s.partialBuffers.keys)
    (hne : s.partialBuffers.keys ≠ []) :
    ∃ node, s.partialLru.getLast? = some node ∧ node.shardIndex ∈ s.partialBuffers.keys := by
  have hlru : s.partialLru ≠ [] := by
    intro hnil
    have hempty := h.linked
    rw [hnil, List.map_nil] at hempty
    have hentries : s.partialLruEntries.entries = [] := hempty.symm.eq_nil
    have hnone : s.partialLruEntries.keys = [] := by
      simp [AList.keys, List.keys, hentries]
    rw [hnone] at hkeys
    exact hne hkeys.symm.eq_nil
  refine ⟨s.partialLru.getLast hlru, List.getLast?_eq_some_getLast hlru, ?_⟩
  have hmem := List.mem_map_of_mem
    (f := fun node : LruNode => (⟨node.shardIndex, node.address⟩ : Σ _ : Nat, Nat))
    (List.getLast_mem hlru)
  have hkey := List.mem_keys_of_mem ((h.linked.mem_iff).mp hmem)
  exact (hkeys.mem_iff).mp hkey

theorem lruWithout_touch (s : LerobotVideoProducerState τ ε) (shardIndex : Nat) :
    lruWithout (touchPartialBuffer s shardIndex) shardIndex = lruWithout s shardIndex := by
  conv_lhs => unfold lruWithout
  simp [touchPartialBuffer]

/-! ## What each operation does -/

section Operations

variable (config : LerobotVideoProducerConfig τ)

/-- The buffer that flushing `targets` publishes. -/
def published (shardIndex : Nat) (targets : List τ) : LerobotDecodeBuffer τ :=
  config.finalizeDecodeBuffer ⟨shardIndex, config.fps, targets, []⟩

theorem published_shardIndex (shardIndex : Nat) (targets : List τ) :
    (published config shardIndex targets).shardIndex = shardIndex :=
  config.finalize_shardIndex _

theorem published_targets (shardIndex : Nat) (targets : List τ) :
    (published config shardIndex targets).targets.Perm targets :=
  config.finalize_targets _

/-- A flush publishes the shard's partial buffer, or does nothing. -/
theorem flushPartialBuffer_cases (s : LerobotVideoProducerState τ ε) (shardIndex : Nat) :
    (flushPartialBuffer config s shardIndex = s ∧
        ∀ targets, s.partialBuffers.lookup shardIndex = some targets → targets = []) ∨
      ∃ targets, s.partialBuffers.lookup shardIndex = some targets ∧ targets ≠ [] ∧
        flushPartialBuffer config s shardIndex =
          { s with
            partialBuffers := s.partialBuffers.erase shardIndex
            partialLru := lruWithout s shardIndex
            partialLruEntries := s.partialLruEntries.erase shardIndex
            readyBuffers := s.readyBuffers ++ [published config shardIndex targets] } := by
  unfold flushPartialBuffer
  cases hlook : s.partialBuffers.lookup shardIndex with
  | none => exact Or.inl ⟨rfl, by simp⟩
  | some targets =>
      cases targets with
      | nil => exact Or.inl ⟨rfl, by simp⟩
      | cons target targets =>
          exact Or.inr ⟨target :: targets, rfl, by simp, rfl⟩

/-- One target leaves its shard's partial buffer one target longer, or fills and publishes it. -/
theorem queueTarget_cases (s : LerobotVideoProducerState τ ε) (target : τ) :
    let shardIndex := config.videoFileIndex target
    let targets := (s.partialBuffers.lookup shardIndex).getD [] ++ [target]
    (targets.length < config.targetBufferSize ∧
        queueTarget config s target =
          { s with
            partialBuffers := s.partialBuffers.insert shardIndex targets
            partialLru := ⟨s.nextLruAddress, shardIndex⟩ :: lruWithout s shardIndex
            partialLruEntries := s.partialLruEntries.insert shardIndex s.nextLruAddress
            nextLruAddress := s.nextLruAddress + 1
            pendingTargetCount := s.pendingTargetCount + 1 }) ∨
      (config.targetBufferSize ≤ targets.length ∧
        queueTarget config s target =
          { s with
            partialBuffers := s.partialBuffers.erase shardIndex
            partialLru := lruWithout s shardIndex
            partialLruEntries := s.partialLruEntries.erase shardIndex
            nextLruAddress := s.nextLruAddress + 1
            readyBuffers := s.readyBuffers ++ [published config shardIndex targets]
            pendingTargetCount := s.pendingTargetCount + 1 }) := by
  intro shardIndex targets
  by_cases hfull : config.targetBufferSize ≤ targets.length
  · refine Or.inr ⟨hfull, ?_⟩
    have hne : targets ≠ [] := by simp [targets]
    have hstep : queueTarget config s target =
        flushPartialBuffer config
          { touchPartialBuffer
              { s with partialBuffers := s.partialBuffers.insert shardIndex targets } shardIndex with
            pendingTargetCount := s.pendingTargetCount + 1 } shardIndex := if_pos hfull
    rw [hstep]
    rcases flushPartialBuffer_cases config
        { touchPartialBuffer
            { s with partialBuffers := s.partialBuffers.insert shardIndex targets } shardIndex with
          pendingTargetCount := s.pendingTargetCount + 1 } shardIndex with
      ⟨-, hnil⟩ | ⟨targets', hlook, -, heq⟩
    · exact absurd (hnil targets (AList.lookup_insert _)) hne
    · have hlook' : (s.partialBuffers.insert shardIndex targets).lookup shardIndex =
          some targets' := hlook
      rw [AList.lookup_insert, Option.some.injEq] at hlook'
      subst hlook'
      rw [heq]
      have hlru := lruWithout_touch
        { s with partialBuffers := s.partialBuffers.insert shardIndex targets } shardIndex
      simp only [touchPartialBuffer, insert_erase_same] at hlru ⊢
      congr 1
  · refine Or.inl ⟨by omega, ?_⟩
    exact if_neg hfull

/-- The partial targets of one shard, and those of the others. -/
theorem partialTargets_split (s : LerobotVideoProducerState τ ε) (shardIndex : Nat) :
    s.partialTargets.Perm ((s.partialBuffers.lookup shardIndex).getD [] ++
      (s.partialBuffers.erase shardIndex).entries.flatMap Sigma.snd) := by
  unfold partialTargets
  cases hlook : s.partialBuffers.lookup shardIndex with
  | none =>
      rw [erase_of_lookup_none hlook]
      exact List.Perm.refl _
  | some targets => exact (entries_perm_of_lookup hlook).flatMap_right _

/-- Publishing a partial buffer moves its targets to the ready side. -/
theorem readyTargets_append (s : LerobotVideoProducerState τ ε)
    {t : LerobotVideoProducerState τ ε} (shardIndex : Nat) (targets : List τ)
    (hready : t.readyBuffers = s.readyBuffers ++ [published config shardIndex targets]) :
    (t.readyTargets : Multiset τ) = (s.readyTargets : Multiset τ) + (targets : Multiset τ) := by
  unfold readyTargets
  rw [hready, List.flatMap_append, ← Multiset.coe_add]
  congr 1
  rw [List.flatMap_singleton, Multiset.coe_eq_coe]
  exact published_targets config shardIndex targets

theorem queued_flushPartialBuffer (s : LerobotVideoProducerState τ ε) (shardIndex : Nat) :
    (flushPartialBuffer config s shardIndex).queued = s.queued := by
  rcases flushPartialBuffer_cases config s shardIndex with ⟨heq, -⟩ | ⟨targets, hlook, -, heq⟩
  · rw [heq]
  · have hsplit := Multiset.coe_eq_coe.mpr (partialTargets_split s shardIndex)
    rw [hlook, Option.getD_some, ← Multiset.coe_add] at hsplit
    rw [heq]
    unfold queued
    rw [readyTargets_append config s shardIndex targets rfl, hsplit]
    show ((s.partialBuffers.erase shardIndex).entries.flatMap Sigma.snd : Multiset τ) + _ = _
    abel

/-- Queueing a target adds it to the held targets. -/
theorem queued_queueTarget (s : LerobotVideoProducerState τ ε) (target : τ) :
    (queueTarget config s target).queued = target ::ₘ s.queued := by
  have hsplit := Multiset.coe_eq_coe.mpr
    (partialTargets_split s (config.videoFileIndex target))
  rw [← Multiset.coe_add] at hsplit
  rcases queueTarget_cases config s target with ⟨-, heq⟩ | ⟨-, heq⟩
  · have hinsert : (queueTarget config s target).partialTargets.Perm
        (((s.partialBuffers.lookup (config.videoFileIndex target)).getD [] ++ [target]) ++
          (s.partialBuffers.erase (config.videoFileIndex target)).entries.flatMap Sigma.snd) := by
      rw [heq]
      exact (entries_insert_perm _ _).flatMap_right _
    have hready : (queueTarget config s target).readyTargets = s.readyTargets := by
      rw [heq]
      rfl
    unfold queued
    rw [hready, Multiset.coe_eq_coe.mpr hinsert, hsplit, ← Multiset.coe_add, ← Multiset.coe_add,
      Multiset.coe_singleton, ← Multiset.singleton_add]
    abel
  · have hothers : (queueTarget config s target).partialTargets =
        (s.partialBuffers.erase (config.videoFileIndex target)).entries.flatMap Sigma.snd := by
      rw [heq]
      rfl
    have hready := readyTargets_append config s (t := queueTarget config s target)
      (config.videoFileIndex target)
      ((s.partialBuffers.lookup (config.videoFileIndex target)).getD [] ++ [target])
      (by rw [heq])
    unfold queued
    rw [hready, hothers, hsplit, ← Multiset.coe_add, Multiset.coe_singleton,
      ← Multiset.singleton_add]
    abel

/-- What queueing and flushing leave alone: only the maps, the counter and the tail of the ready list
change. -/
structure Appends (s t : LerobotVideoProducerState τ ε) : Prop where
  activeProducers : t.activeProducers = s.activeProducers
  sourceExhausted : t.sourceExhausted = s.sourceExhausted
  stopRequested : t.stopRequested = s.stopRequested
  error : t.error = s.error
  busyShards : t.busyShards = s.busyShards
  blockedProducers : t.blockedProducers = s.blockedProducers
  readyBuffers : s.readyBuffers <+: t.readyBuffers

theorem Appends.refl (s : LerobotVideoProducerState τ ε) : Appends s s :=
  ⟨rfl, rfl, rfl, rfl, rfl, rfl, List.prefix_rfl⟩

theorem Appends.trans {s t u : LerobotVideoProducerState τ ε} (h : Appends s t)
    (h' : Appends t u) : Appends s u :=
  ⟨h'.activeProducers.trans h.activeProducers, h'.sourceExhausted.trans h.sourceExhausted,
    h'.stopRequested.trans h.stopRequested, h'.error.trans h.error,
    h'.busyShards.trans h.busyShards, h'.blockedProducers.trans h.blockedProducers,
    h.readyBuffers.trans h'.readyBuffers⟩

theorem appends_flushPartialBuffer (s : LerobotVideoProducerState τ ε) (shardIndex : Nat) :
    Appends s (flushPartialBuffer config s shardIndex) := by
  rcases flushPartialBuffer_cases config s shardIndex with ⟨heq, -⟩ | ⟨targets, -, -, heq⟩
  · rw [heq]
    exact Appends.refl s
  · rw [heq]
    exact ⟨rfl, rfl, rfl, rfl, rfl, rfl, List.prefix_append _ _⟩

theorem appends_queueTarget (s : LerobotVideoProducerState τ ε) (target : τ) :
    Appends s (queueTarget config s target) := by
  rcases queueTarget_cases config s target with ⟨-, heq⟩ | ⟨-, heq⟩
  · rw [heq]
    exact ⟨rfl, rfl, rfl, rfl, rfl, rfl, List.prefix_rfl⟩
  · rw [heq]
    exact ⟨rfl, rfl, rfl, rfl, rfl, rfl, List.prefix_append _ _⟩

theorem appends_queueWhileRoom (targets : List τ) (s : LerobotVideoProducerState τ ε) :
    Appends s (queueWhileRoom config s targets).1 := by
  induction targets generalizing s with
  | nil => exact Appends.refl s
  | cons target targets ih =>
      unfold queueWhileRoom
      split
      · exact (appends_queueTarget config s target).trans (ih _)
      · exact Appends.refl s

theorem appends_flushOldestPartialBuffer (s : LerobotVideoProducerState τ ε) :
    Appends s (flushOldestPartialBuffer config s) := by
  unfold flushOldestPartialBuffer
  split
  · exact Appends.refl s
  · split
    · exact Appends.refl s
    · exact appends_flushPartialBuffer config s _

theorem appends_flushAllPartialBuffers (order : List Nat) (s : LerobotVideoProducerState τ ε) :
    Appends s (flushAllPartialBuffers config s order) := by
  induction order generalizing s with
  | nil => exact Appends.refl s
  | cons shardIndex order ih =>
      exact (appends_flushPartialBuffer config s shardIndex).trans (ih _)

theorem queued_flushOldestPartialBuffer (s : LerobotVideoProducerState τ ε) :
    (flushOldestPartialBuffer config s).queued = s.queued := by
  unfold flushOldestPartialBuffer
  split
  · rfl
  · split
    · rfl
    · exact queued_flushPartialBuffer config s _

theorem queued_flushAllPartialBuffers (order : List Nat) (s : LerobotVideoProducerState τ ε) :
    (flushAllPartialBuffers config s order).queued = s.queued := by
  induction order generalizing s with
  | nil => rfl
  | cons shardIndex order ih =>
      exact (ih _).trans (queued_flushPartialBuffer config s shardIndex)

/-- Queueing while there is room adds exactly the targets it counts. -/
theorem queued_queueWhileRoom (targets : List τ) (s : LerobotVideoProducerState τ ε) :
    (queueWhileRoom config s targets).1.queued =
      (targets.take (queueWhileRoom config s targets).2 : Multiset τ) + s.queued := by
  induction targets generalizing s with
  | nil => simp [queueWhileRoom]
  | cons target targets ih =>
      unfold queueWhileRoom
      split
      · simp only [List.take_succ_cons, ih, queued_queueTarget]
        rw [← Multiset.cons_coe, Multiset.cons_add, Multiset.add_cons]
      · simp

theorem queueWhileRoom_count_le (targets : List τ) (s : LerobotVideoProducerState τ ε) :
    (queueWhileRoom config s targets).2 ≤ targets.length := by
  induction targets generalizing s with
  | nil => simp [queueWhileRoom]
  | cons target targets ih =>
      unfold queueWhileRoom
      split
      · simpa using ih (queueTarget config s target)
      · simp

/-- Queueing stops early only at the limit. -/
theorem queueWhileRoom_full (targets : List τ) (s : LerobotVideoProducerState τ ε)
    (h : (queueWhileRoom config s targets).2 < targets.length) :
    config.maxPendingTargets ≤ (queueWhileRoom config s targets).1.pendingTargetCount := by
  induction targets generalizing s with
  | nil => simp [queueWhileRoom] at h
  | cons target targets ih =>
      unfold queueWhileRoom at h ⊢
      split at h
      · rename_i hroom
        simp only [List.length_cons, Nat.add_lt_add_iff_right] at h
        simp only [if_pos hroom]
        exact ih _ h
      · rename_i hroom
        simp only [if_neg hroom]
        omega

/-! ## The operations keep the invariant -/

theorem invariant_create (producerThreads queryCount : Nat) :
    ProducerInvariant config
      (create producerThreads queryCount : LerobotVideoProducerState τ ε) where
  pending_eq := rfl
  pending_le := Nat.zero_le _
  lru := lruLinked_empty 0
  lru_partial := List.Perm.refl _
  partial_size := fun _ _ h => by simp [create] at h
  partial_shard := fun _ _ h => by simp [create] at h
  ready_size := fun _ h => by simp [create] at h
  ready_shard := fun _ h => by simp [create] at h
  blocked_ready := fun _ h => absurd rfl h

variable {config}

/-- A published buffer is as large as its targets were many, and of one shard. -/
theorem ready_append {s : LerobotVideoProducerState τ ε} (h : ProducerInvariant config s)
    (shardIndex : Nat) (targets : List τ) (hne : targets ≠ [])
    (hlen : targets.length ≤ config.targetBufferSize)
    (hshard : ∀ target ∈ targets, config.videoFileIndex target = shardIndex) :
    (∀ buffer ∈ s.readyBuffers ++ [published config shardIndex targets],
        buffer.targets ≠ [] ∧ buffer.targets.length ≤ config.targetBufferSize) ∧
      ∀ buffer ∈ s.readyBuffers ++ [published config shardIndex targets],
        ∀ target ∈ buffer.targets, config.videoFileIndex target = buffer.shardIndex := by
  have hperm := published_targets config shardIndex targets
  constructor
  · intro buffer hbuffer
    rcases List.mem_append.mp hbuffer with hbuffer | hbuffer
    · exact h.ready_size buffer hbuffer
    · rw [List.mem_singleton.mp hbuffer]
      refine ⟨fun hnil => hne ?_, by rw [hperm.length_eq]; exact hlen⟩
      rw [hnil] at hperm
      exact hperm.symm.eq_nil
  · intro buffer hbuffer
    rcases List.mem_append.mp hbuffer with hbuffer | hbuffer
    · exact h.ready_shard buffer hbuffer
    · rw [List.mem_singleton.mp hbuffer]
      intro target htarget
      rw [published_shardIndex]
      exact hshard target (hperm.mem_iff.mp htarget)

theorem lookup_erase_of_some {m : AList fun _ : Nat => List τ} {a b : Nat} {targets : List τ}
    (h : (m.erase a).lookup b = some targets) : m.lookup b = some targets := by
  by_cases hba : b = a
  · subst hba
    rw [AList.lookup_erase] at h
    exact absurd h (by simp)
  · rwa [AList.lookup_erase_ne hba] at h

theorem invariant_flushPartialBuffer {s : LerobotVideoProducerState τ ε}
    (h : ProducerInvariant config s) (shardIndex : Nat) :
    ProducerInvariant config (flushPartialBuffer config s shardIndex) := by
  have hqueued := queued_flushPartialBuffer config s shardIndex
  rcases flushPartialBuffer_cases config s shardIndex with ⟨heq, -⟩ | ⟨targets, hlook, -, heq⟩
  · rw [heq]
    exact h
  · obtain ⟨hne, hlen⟩ := h.partial_size shardIndex targets hlook
    obtain ⟨hsize, hshard⟩ := ready_append h shardIndex targets hne (Nat.le_of_lt hlen)
      (h.partial_shard shardIndex targets hlook)
    rw [heq] at hqueued ⊢
    exact
      { pending_eq := by rw [hqueued]; exact h.pending_eq
        pending_le := h.pending_le
        lru := h.lru.without shardIndex
        lru_partial := by
          simp only [AList.keys_erase]
          exact h.lru_partial.erase shardIndex
        partial_size := fun other others hother =>
          h.partial_size other others (lookup_erase_of_some hother)
        partial_shard := fun other others hother =>
          h.partial_shard other others (lookup_erase_of_some hother)
        ready_size := hsize
        ready_shard := hshard
        blocked_ready := fun _ _ => by simp }

theorem invariant_queueTarget {s : LerobotVideoProducerState τ ε} (h : ProducerInvariant config s)
    (hroom : s.pendingTargetCount < config.maxPendingTargets) (target : τ) :
    ProducerInvariant config (queueTarget config s target) := by
  have hqueued := queued_queueTarget config s target
  have hcard : s.pendingTargetCount + 1 = Multiset.card (queueTarget config s target).queued := by
    rw [hqueued, Multiset.card_cons, ← h.pending_eq]
  have hshard : ∀ t ∈ (s.partialBuffers.lookup (config.videoFileIndex target)).getD [] ++ [target],
      config.videoFileIndex t = config.videoFileIndex target := by
    intro t ht
    rcases List.mem_append.mp ht with ht | ht
    · cases hlook : s.partialBuffers.lookup (config.videoFileIndex target) with
      | none => simp [hlook] at ht
      | some targets =>
          rw [hlook, Option.getD_some] at ht
          exact h.partial_shard _ targets hlook t ht
    · rw [List.mem_singleton.mp ht]
  have hprior : ((s.partialBuffers.lookup (config.videoFileIndex target)).getD []).length + 1 ≤
      config.targetBufferSize := by
    cases hlook : s.partialBuffers.lookup (config.videoFileIndex target) with
    | none => exact config.targetBufferSize_pos
    | some targets => exact (h.partial_size _ targets hlook).2
  rcases queueTarget_cases config s target with ⟨hlt, heq⟩ | ⟨-, heq⟩
  · rw [heq] at hcard ⊢
    exact
      { pending_eq := hcard
        pending_le := hroom
        lru := h.lru.touch _
        lru_partial := by
          simp only [AList.keys_insert]
          exact (h.lru_partial.erase _).cons _
        partial_size := by
          intro other others hother
          by_cases hsame : other = config.videoFileIndex target
          · subst hsame
            rw [AList.lookup_insert, Option.some.injEq] at hother
            subst hother
            exact ⟨by simp, hlt⟩
          · rw [AList.lookup_insert_ne hsame] at hother
            exact h.partial_size other others hother
        partial_shard := by
          intro other others hother
          by_cases hsame : other = config.videoFileIndex target
          · subst hsame
            rw [AList.lookup_insert, Option.some.injEq] at hother
            subst hother
            exact hshard
          · rw [AList.lookup_insert_ne hsame] at hother
            exact h.partial_shard other others hother
        ready_size := h.ready_size
        ready_shard := h.ready_shard
        blocked_ready := h.blocked_ready }
  · obtain ⟨hsize, hready⟩ := ready_append h (config.videoFileIndex target)
      ((s.partialBuffers.lookup (config.videoFileIndex target)).getD [] ++ [target])
      (by simp) (by simpa using hprior) hshard
    rw [heq] at hcard ⊢
    exact
      { pending_eq := hcard
        pending_le := hroom
        lru := (h.lru.without _).mono (Nat.le_succ _)
        lru_partial := by
          simp only [AList.keys_erase]
          exact h.lru_partial.erase _
        partial_size := fun other others hother =>
          h.partial_size other others (lookup_erase_of_some hother)
        partial_shard := fun other others hother =>
          h.partial_shard other others (lookup_erase_of_some hother)
        ready_size := hsize
        ready_shard := hready
        blocked_ready := fun _ _ => by simp }

theorem invariant_queueWhileRoom (targets : List τ) {s : LerobotVideoProducerState τ ε}
    (h : ProducerInvariant config s) :
    ProducerInvariant config (queueWhileRoom config s targets).1 := by
  induction targets generalizing s with
  | nil => exact h
  | cons target targets ih =>
      unfold queueWhileRoom
      split
      · rename_i hroom
        exact ih (invariant_queueTarget h hroom target)
      · exact h

theorem invariant_flushOldestPartialBuffer {s : LerobotVideoProducerState τ ε}
    (h : ProducerInvariant config s) :
    ProducerInvariant config (flushOldestPartialBuffer config s) := by
  unfold flushOldestPartialBuffer
  split
  · exact h
  · split
    · exact h
    · exact invariant_flushPartialBuffer h _

theorem invariant_flushAllPartialBuffers (order : List Nat) {s : LerobotVideoProducerState τ ε}
    (h : ProducerInvariant config s) :
    ProducerInvariant config (flushAllPartialBuffers config s order) := by
  induction order generalizing s with
  | nil => exact h
  | cons shardIndex order ih => exact ih (invariant_flushPartialBuffer h shardIndex)

/-- Flushing a shard removes its key. -/
theorem keys_flushPartialBuffer {s : LerobotVideoProducerState τ ε}
    (h : ProducerInvariant config s) (shardIndex : Nat) :
    (flushPartialBuffer config s shardIndex).partialBuffers.keys =
      s.partialBuffers.keys.erase shardIndex := by
  rcases flushPartialBuffer_cases config s shardIndex with ⟨heq, hnil⟩ | ⟨targets, hlook, -, heq⟩
  · have hnone : s.partialBuffers.lookup shardIndex = none := by
      cases hlook : s.partialBuffers.lookup shardIndex with
      | none => rfl
      | some targets => exact absurd (hnil targets hlook) (h.partial_size _ _ hlook).1
    rw [heq, ← AList.keys_erase, erase_of_lookup_none hnone]
  · rw [heq]
    exact AList.keys_erase _ _

theorem keys_flushAllPartialBuffers (order : List Nat) {s : LerobotVideoProducerState τ ε}
    (h : ProducerInvariant config s) :
    (flushAllPartialBuffers config s order).partialBuffers.keys =
      s.partialBuffers.keys.diff order := by
  induction order generalizing s with
  | nil => rfl
  | cons shardIndex order ih =>
      rw [List.diff_cons, ← keys_flushPartialBuffer h]
      exact ih (invariant_flushPartialBuffer h shardIndex)

/-- Flushing every shard leaves no partial target. -/
theorem partialTargets_flushAllPartialBuffers {order : List Nat}
    {s : LerobotVideoProducerState τ ε} (h : ProducerInvariant config s)
    (horder : order.Perm s.partialBuffers.keys) :
    (flushAllPartialBuffers config s order).partialBuffers = ∅ := by
  have hkeys := keys_flushAllPartialBuffers order h
  have hnil : s.partialBuffers.keys.diff order = [] := by
    rw [s.partialBuffers.keys_nodup.sdiff_eq_filter, List.filter_eq_nil_iff]
    intro shardIndex hmem
    simpa using horder.mem_iff.mpr hmem
  rw [hnil] at hkeys
  apply AList.ext
  exact List.map_eq_nil_iff.mp hkeys

/-! ## The operations of a producer -/

/-- Whatever is held, a ready buffer exists once the oldest partial buffer is published. -/
theorem readyBuffers_flushOldest_ne_nil {s : LerobotVideoProducerState τ ε}
    (h : ProducerInvariant config s) (hheld : 0 < Multiset.card s.queued) :
    (flushOldestPartialBuffer config s).readyBuffers ≠ [] := by
  unfold flushOldestPartialBuffer
  by_cases hkeys : s.partialBuffers.keys = []
  · have hentries : s.partialBuffers.entries = [] := List.map_eq_nil_iff.mp hkeys
    have hready : s.readyBuffers ≠ [] := by
      intro hnil
      simp [queued, partialTargets, readyTargets, hentries, hnil] at hheld
    simpa [hkeys] using hready
  · obtain ⟨node, hlast, hnode⟩ := h.lru.getLast h.lru_partial hkeys
    have hempty : s.partialBuffers.keys.isEmpty = false := by simpa using hkeys
    simp only [hempty, Bool.false_eq_true, if_false, hlast]
    have hsome : (s.partialBuffers.lookup node.shardIndex).isSome = true :=
      AList.lookup_isSome.mpr (AList.mem_keys.mpr hnode)
    obtain ⟨targets, hlook⟩ := Option.isSome_iff_exists.mp hsome
    rcases flushPartialBuffer_cases config s node.shardIndex with ⟨-, hnil⟩ | ⟨_, -, -, heq⟩
    · exact absurd (hnil targets hlook) (h.partial_size _ _ hlook).1
    · rw [heq]
      simp

/-- The three answers of `queueTargets`. A blocked producer leaves a ready buffer behind. -/
theorem queueTargets_cases {s : LerobotVideoProducerState τ ε} (h : ProducerInvariant config s)
    (targets : List τ) (position producerTask : Nat) (hposition : position ≤ targets.length) :
    (s.stopRequested = true ∧
        queueTargets config s targets position producerTask = (.stopped, position, s)) ∨
      ∃ t : LerobotVideoProducerState τ ε, ∃ count : Nat, s.stopRequested = false ∧
        Appends s t ∧ ProducerInvariant config t ∧
        t.queued = ((targets.drop position).take count : Multiset τ) + s.queued ∧
        ((position + count = targets.length ∧
            queueTargets config s targets position producerTask = (.queued, targets.length, t)) ∨
          (position + count < targets.length ∧ t.readyBuffers ≠ [] ∧
            queueTargets config s targets position producerTask =
              (.blocked, position + count,
                { t with blockedProducers := t.blockedProducers ++ [producerTask] }))) := by
  by_cases hstop : s.stopRequested = true
  · exact Or.inl ⟨hstop, by simp [queueTargets, hstop]⟩
  refine Or.inr ?_
  have hstop' : s.stopRequested = false := by simpa using hstop
  obtain ⟨u, count, hloop⟩ : ∃ u count,
      queueWhileRoom config s (targets.drop position) = (u, count) := ⟨_, _, rfl⟩
  have hu := invariant_queueWhileRoom (targets.drop position) h
  have hqueued := queued_queueWhileRoom config (targets.drop position) s
  have happends := appends_queueWhileRoom config (targets.drop position) s
  have hcount := queueWhileRoom_count_le config (targets.drop position) s
  have hfull := queueWhileRoom_full config (targets.drop position) s
  rw [hloop] at hu hqueued happends hcount hfull
  simp only [List.length_drop] at hcount hfull
  by_cases hall : position + count = targets.length
  · refine ⟨u, count, hstop', happends, hu, hqueued, Or.inl ⟨hall, ?_⟩⟩
    simp [queueTargets, hstop', hloop, hall]
  · have hlt : position + count < targets.length := by omega
    refine ⟨flushOldestPartialBuffer config u, count, hstop',
      happends.trans (appends_flushOldestPartialBuffer config u),
      invariant_flushOldestPartialBuffer hu,
      (queued_flushOldestPartialBuffer config u).trans hqueued, Or.inr ⟨hlt, ?_, ?_⟩⟩
    · -- at the limit some target is held; publishing the oldest partial buffer makes one ready
      have hpending : 0 < Multiset.card u.queued := by
        rw [← hu.pending_eq]
        exact Nat.lt_of_lt_of_le config.maxPendingTargets_pos (hfull (by omega))
      exact readyBuffers_flushOldest_ne_nil hu hpending
    · simp [queueTargets, hstop', hloop, hall]

/-- The invariant does not read the run flags, except that a stopped run may have blocked producers
and nothing ready. -/
theorem ProducerInvariant.setControl {s : LerobotVideoProducerState τ ε}
    (h : ProducerInvariant config s) (activeProducers : Nat) (sourceExhausted stopRequested : Bool)
    (hstop : stopRequested = false → s.stopRequested = false) :
    ProducerInvariant config
      { s with
        activeProducers := activeProducers
        sourceExhausted := sourceExhausted
        stopRequested := stopRequested } where
  pending_eq := h.pending_eq
  pending_le := h.pending_le
  lru := h.lru
  lru_partial := h.lru_partial
  partial_size := h.partial_size
  partial_shard := h.partial_shard
  ready_size := h.ready_size
  ready_shard := h.ready_shard
  blocked_ready := fun hfalse => h.blocked_ready (hstop hfalse)

theorem invariant_discardBuffers {s : LerobotVideoProducerState τ ε}
    (hstop : s.stopRequested = true) : ProducerInvariant config (discardBuffers s) where
  pending_eq := rfl
  pending_le := Nat.zero_le _
  lru := lruLinked_empty _
  lru_partial := List.Perm.refl _
  partial_size := fun _ _ hlook => by simp [discardBuffers] at hlook
  partial_shard := fun _ _ hlook => by simp [discardBuffers] at hlook
  ready_size := fun _ hmem => by simp [discardBuffers] at hmem
  ready_shard := fun _ hmem => by simp [discardBuffers] at hmem
  blocked_ready := fun hfalse => by
    have hcontra : s.stopRequested = false := hfalse
    simp [hstop] at hcontra

/-- What the end of a producer may do to the buffers of the queue. -/
structure Settled (s t : LerobotVideoProducerState τ ε) : Prop where
  error : t.error = s.error
  busyShards : t.busyShards = s.busyShards
  blockedProducers : t.blockedProducers = s.blockedProducers
  /-- A stopped run drops its buffers. -/
  stopped : t.stopRequested = true → t.readyBuffers = [] ∧ t.queued = 0
  /-- A running one keeps every target and every ready buffer. -/
  running : t.stopRequested = false → s.readyBuffers <+: t.readyBuffers ∧ t.queued = s.queued
  /-- The last producer of a running one leaves no partial buffer. -/
  last : t.stopRequested = false → t.activeProducers = 0 → t.partialBuffers = ∅

theorem settleBuffers_spec {s : LerobotVideoProducerState τ ε} (h : ProducerInvariant config s)
    {order : List Nat} (horder : order.Perm s.partialBuffers.keys) :
    let t := settleBuffers config s order
    t.activeProducers = s.activeProducers ∧ t.sourceExhausted = s.sourceExhausted ∧
      t.stopRequested = s.stopRequested ∧ ProducerInvariant config t ∧ Settled s t := by
  intro t
  by_cases hstop : s.stopRequested = true
  · have ht : t = discardBuffers s := if_pos hstop
    rw [ht]
    have hfalse : (discardBuffers s).stopRequested ≠ false := by simp [discardBuffers, hstop]
    exact ⟨rfl, rfl, rfl, invariant_discardBuffers hstop,
      ⟨rfl, rfl, rfl, fun _ => ⟨rfl, rfl⟩, fun hf => absurd hf hfalse, fun hf => absurd hf hfalse⟩⟩
  · by_cases hzero : s.activeProducers = 0
    · have ht : t = flushAllPartialBuffers config s order := (if_neg hstop).trans (if_pos hzero)
      have happends := appends_flushAllPartialBuffers config order s
      have hqueued := queued_flushAllPartialBuffers config order s
      have hempty := partialTargets_flushAllPartialBuffers h horder
      rw [← ht] at happends hqueued hempty
      exact ⟨happends.activeProducers, happends.sourceExhausted, happends.stopRequested,
        ht ▸ invariant_flushAllPartialBuffers order h,
        ⟨happends.error, happends.busyShards, happends.blockedProducers,
          fun hs => absurd (happends.stopRequested ▸ hs) hstop,
          fun _ => ⟨happends.readyBuffers, hqueued⟩, fun _ _ => hempty⟩⟩
    · have ht : t = s := (if_neg hstop).trans (if_neg hzero)
      rw [ht]
      exact ⟨rfl, rfl, rfl, h,
        ⟨rfl, rfl, rfl, fun hs => absurd hs hstop, fun _ => ⟨List.prefix_rfl, rfl⟩,
          fun _ hz => absurd hz hzero⟩⟩

/-- What the end of a producer does. -/
theorem producerFinished_spec {s : LerobotVideoProducerState τ ε} (h : ProducerInvariant config s)
    (abandoned : Bool) {order : List Nat} (horder : order.Perm s.partialBuffers.keys) :
    let t := producerFinished config s abandoned order
    t.activeProducers = s.activeProducers - 1 ∧
      t.sourceExhausted = (s.sourceExhausted || s.activeProducers - 1 == 0) ∧
      t.stopRequested = (s.stopRequested || abandoned) ∧
      ProducerInvariant config t ∧ Settled s t := by
  intro t
  have hcontrol := h.setControl (s.activeProducers - 1) s.sourceExhausted
    (s.stopRequested || abandoned) (fun hfalse => (Bool.or_eq_false_iff.mp hfalse).1)
  obtain ⟨hactive, hexhausted, hstopped, hinv, hsettled⟩ := settleBuffers_spec hcontrol horder
  by_cases hzero : s.activeProducers - 1 = 0
  · have ht : t = { settleBuffers config _ order with sourceExhausted := true } :=
      if_pos (hactive.trans hzero)
    rw [ht]
    exact ⟨hactive, by simp [hzero], hstopped, hinv.setControl _ true _ id,
      ⟨hsettled.error, hsettled.busyShards, hsettled.blockedProducers, hsettled.stopped,
        hsettled.running, hsettled.last⟩⟩
  · have ht : t = settleBuffers config _ order := if_neg fun hz => hzero (hactive.symm.trans hz)
    rw [ht]
    have hnonzero : (s.activeProducers - 1 == 0) = false := by simpa using hzero
    exact ⟨hactive, by rw [hexhausted, hnonzero, Bool.or_false], hstopped, hinv,
      ⟨hsettled.error, hsettled.busyShards, hsettled.blockedProducers, hsettled.stopped,
        hsettled.running, hsettled.last⟩⟩

theorem invariant_requestStop {s : LerobotVideoProducerState τ ε} (h : ProducerInvariant config s)
    (alive : Nat → Bool) : ProducerInvariant config (requestStop s alive).2 :=
  { h.setControl s.activeProducers s.sourceExhausted true (fun hfalse => by simp at hfalse) with
    blocked_ready := fun _ hne => absurd rfl hne }

theorem invariant_fail {s : LerobotVideoProducerState τ ε} (h : ProducerInvariant config s)
    (exception : ε) (alive : Nat → Bool) : ProducerInvariant config (fail s exception alive).2 :=
  { h.setControl s.activeProducers s.sourceExhausted true (fun hfalse => by simp at hfalse) with
    blocked_ready := fun _ hne => absurd rfl hne }

/-! ## The operations of a consumer -/

/-- The claimed buffer is the first ready one of a free shard. -/
theorem takeReady_some {busyShards : Finset Nat} {buffers rest : List (LerobotDecodeBuffer τ)}
    {buffer : LerobotDecodeBuffer τ} (h : takeReady busyShards buffers = some (buffer, rest)) :
    ∃ before after, buffers = before ++ buffer :: after ∧ rest = before ++ after ∧
      buffer.shardIndex ∉ busyShards ∧ ∀ other ∈ before, other.shardIndex ∈ busyShards := by
  induction buffers generalizing rest with
  | nil => simp [takeReady] at h
  | cons head buffers ih =>
      unfold takeReady at h
      split at h
      · rename_i hbusy
        simp only [Option.map_eq_some_iff, Prod.mk.injEq, Prod.exists] at h
        obtain ⟨result, rest', hrest, rfl, rfl⟩ := h
        obtain ⟨before, after, rfl, rfl, hfree, hbefore⟩ := ih hrest
        refine ⟨head :: before, after, rfl, rfl, hfree, ?_⟩
        intro other hother
        rcases List.mem_cons.mp hother with rfl | hother
        · exact hbusy
        · exact hbefore other hother
      · rename_i hfree
        simp only [Option.some.injEq, Prod.mk.injEq] at h
        obtain ⟨rfl, rfl⟩ := h
        exact ⟨[], buffers, rfl, rfl, hfree, by simp⟩

theorem takeReady_none_iff {busyShards : Finset Nat} {buffers : List (LerobotDecodeBuffer τ)} :
    takeReady busyShards buffers = none ↔ ∀ buffer ∈ buffers, buffer.shardIndex ∈ busyShards := by
  induction buffers with
  | nil => simp [takeReady]
  | cons head buffers ih =>
      unfold takeReady
      by_cases hbusy : head.shardIndex ∈ busyShards
      · simp [hbusy, ih]
      · simp [hbusy]

/-- The answers of `claimBuffer`. -/
theorem claimBuffer_cases {s : LerobotVideoProducerState τ ε} (h : ProducerInvariant config s)
    (alive : Nat → Bool) :
    (∃ sourceError, s.error = some sourceError ∧
        claimBuffer s alive = (.error sourceError, [], s)) ∨
      (∃ before buffer after, ∃ t : LerobotVideoProducerState τ ε, s.error = none ∧
        s.readyBuffers = before ++ buffer :: after ∧ buffer.shardIndex ∉ s.busyShards ∧
        (∀ other ∈ before, other.shardIndex ∈ s.busyShards) ∧
        t = { s with
          readyBuffers := before ++ after
          busyShards := insert buffer.shardIndex s.busyShards
          blockedProducers := []
          pendingTargetCount := s.pendingTargetCount - buffer.targets.length } ∧
        buffer.targets.length ≤ s.pendingTargetCount ∧
        s.queued = (buffer.targets : Multiset τ) + t.queued ∧ ProducerInvariant config t ∧
        claimBuffer s alive = (.ok (.claimed buffer), s.blockedProducers.filter alive, t)) ∨
      (s.error = none ∧ (∀ buffer ∈ s.readyBuffers, buffer.shardIndex ∈ s.busyShards) ∧
        (s.sourceExhausted || s.stopRequested) = true ∧
        claimBuffer s alive = (.ok .finished, [], s)) ∨
      (s.error = none ∧ (∀ buffer ∈ s.readyBuffers, buffer.shardIndex ∈ s.busyShards) ∧
        (s.sourceExhausted || s.stopRequested) = false ∧
        claimBuffer s alive = (.ok .blocked, [], s)) := by
  cases herror : s.error with
  | some sourceError => exact Or.inl ⟨sourceError, rfl, by simp [claimBuffer, herror]⟩
  | none =>
      refine Or.inr ?_
      cases htake : takeReady s.busyShards s.readyBuffers with
      | none =>
          refine Or.inr ?_
          have hall := takeReady_none_iff.mp htake
          cases hend : (s.sourceExhausted || s.stopRequested) with
          | true =>
              exact Or.inl ⟨rfl, hall, rfl, by simp [claimBuffer, herror, tryClaimReady, htake, hend]⟩
          | false =>
              exact Or.inr ⟨rfl, hall, rfl, by simp [claimBuffer, herror, tryClaimReady, htake, hend]⟩
      | some pair =>
          obtain ⟨buffer, rest⟩ := pair
          obtain ⟨before, after, hready, rfl, hfree, hbefore⟩ := takeReady_some htake
          refine Or.inl ⟨before, buffer, after, _, rfl, hready, hfree, hbefore, rfl, ?_⟩
          have hqueued : s.queued = (buffer.targets : Multiset τ) +
              ((s.partialTargets : Multiset τ) +
                ((before ++ after).flatMap LerobotDecodeBuffer.targets : Multiset τ)) := by
            unfold queued readyTargets
            rw [hready]
            simp only [List.flatMap_append, List.flatMap_cons, ← Multiset.coe_add]
            abel
          have hcard := congrArg Multiset.card hqueued
          rw [Multiset.card_add, ← h.pending_eq, Multiset.coe_card] at hcard
          have hsub : ∀ other ∈ before ++ after, other ∈ s.readyBuffers := by
            intro other hother
            rw [hready]
            rcases List.mem_append.mp hother with hother | hother <;> simp [hother]
          refine ⟨by omega, hqueued, ?_, ?_⟩
          · exact
              { pending_eq := by
                  show s.pendingTargetCount - buffer.targets.length = _
                  rw [hcard]
                  exact Nat.add_sub_cancel_left _ _
                pending_le := Nat.le_trans (Nat.sub_le _ _) h.pending_le
                lru := h.lru
                lru_partial := h.lru_partial
                partial_size := h.partial_size
                partial_shard := h.partial_shard
                ready_size := fun other hother => h.ready_size other (hsub other hother)
                ready_shard := fun other hother => h.ready_shard other (hsub other hother)
                blocked_ready := fun _ hne => absurd rfl hne }
          · simp [claimBuffer, herror, tryClaimReady, htake, takeBlockedProducers]

theorem invariant_finishBuffer {s : LerobotVideoProducerState τ ε} (h : ProducerInvariant config s)
    (shardIndex : Nat) : ProducerInvariant config (finishBuffer s shardIndex) :=
  { h with }

/-- A waiting consumer may go on exactly when its claim would not answer `blocked`. -/
theorem consumerCanProgress_iff {s : LerobotVideoProducerState τ ε} :
    consumerCanProgress s = true ↔
      s.error.isSome = true ∨ s.sourceExhausted = true ∨ s.stopRequested = true ∨
        ∃ buffer ∈ s.readyBuffers, buffer.shardIndex ∉ s.busyShards := by
  simp [consumerCanProgress, or_assoc]

end Operations

end LerobotVideoProducerState

end DuckdbLerobot.Video
