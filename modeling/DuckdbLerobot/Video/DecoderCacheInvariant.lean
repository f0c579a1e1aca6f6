import DuckdbLerobot.Video.DecoderCache
import Mathlib.Algebra.Order.BigOperators.Group.Finset

/-!
# The invariant of the decoder cache

The idle decoders are in the order in which they were released (`CacheInvariant`), and the slots are counted for
the idle decoders and for the threads. From this, in every state of every run: a hit takes the decoder of the
shard that was released last, an eviction the one that was released first of all, and threads that have one
decoder at most never wait when there are no more of them than slots (`decoderCache_sound`).
-/

set_option autoImplicit false

namespace DuckdbLerobot.Video

open DuckdbLerobot.Library

/-! ## The lock sections -/

namespace LerobotDecoderCache

variable {cache cache' : LerobotDecoderCache} {order : List CachedDecoder}
  {maxCachedDecoders shardIndex : Nat}

/-- The idle decoders of a cache, the one that was released first at the head. -/
def IdleInOrder (cache : LerobotDecoderCache) (order : List CachedDecoder) : Prop :=
  InOrder CachedDecoder.shardIndex cache.idleLru cache.idleDecoders order

/-- What a lock section of `Acquire` does to the idle decoders and to the slots. -/
inductive AcquireCase (cache : LerobotDecoderCache) (order : List CachedDecoder)
    (maxCachedDecoders shardIndex : Nat) : AcquireOutcome → LerobotDecoderCache → Prop
  | hit {older newer : List CachedDecoder} {decoder : CachedDecoder} {cache' : LerobotDecoderCache}
      (horder : order = older ++ decoder :: newer) (hshard : decoder.shardIndex = shardIndex)
      (hnewer : ∀ other ∈ newer, other.shardIndex ≠ shardIndex)
      (hidle : cache'.IdleInOrder (older ++ newer)) (hcount : cache'.openCount = cache.openCount) :
      AcquireCase cache order maxCachedDecoders shardIndex (.hit decoder) cache'
  | opens (hlt : cache.openCount < maxCachedDecoders) :
      AcquireCase cache order maxCachedDecoders shardIndex .opens
        { cache with openCount := cache.openCount + 1 }
  | evicts {rest : List CachedDecoder} {stale : CachedDecoder} {cache' : LerobotDecoderCache}
      (horder : order = stale :: rest) (hidle : cache'.IdleInOrder rest)
      (hcount : cache'.openCount = cache.openCount) :
      AcquireCase cache order maxCachedDecoders shardIndex (.evicts stale) cache'
  | waits (hfull : maxCachedDecoders ≤ cache.openCount) (horder : order = []) :
      AcquireCase cache order maxCachedDecoders shardIndex .waits cache

/-- **`Acquire`.** No assertion fails. -/
theorem acquire_cases (h : cache.IdleInOrder order) (maxCachedDecoders shardIndex : Nat) :
    AcquireCase cache order maxCachedDecoders shardIndex
      (cache.acquire maxCachedDecoders shardIndex).1 (cache.acquire maxCachedDecoders shardIndex).2 := by
  rw [acquire]
  cases hlast : (cache.idleDecoders.queue shardIndex).getLast? with
  | some decoder =>
      obtain ⟨older, newer, horder, hshard, hnewer, hmem, hidle⟩ := h.popNewest hlast
      dsimp only
      rw [if_pos hmem]
      exact .hit horder hshard hnewer hidle rfl
  | none =>
      dsimp only
      split
      · rename_i hlt
        exact .opens hlt
      · rename_i hfull
        cases holdest : cache.idleLru.getLast? with
        | none => exact .waits (not_lt.mp hfull) (h.eq_nil (List.getLast?_eq_none_iff.mp holdest))
        | some staleShard =>
            obtain ⟨stale, rest, horder, -, hqueue, hidle⟩ := h.popOldest holdest
            dsimp only
            rw [hqueue]
            exact .evicts horder hidle rfl

theorem IdleInOrder.release (h : cache.IdleInOrder order) (decoder : CachedDecoder) :
    (cache.release decoder).IdleInOrder (order ++ [decoder]) := h.push decoder

end LerobotDecoderCache

/-! ## Different decoders -/

/-- Different decoders have different numbers, below the next one. -/
structure Numbered (opened : Nat) (decoders : Multiset CachedDecoder) : Prop where
  nodup : (decoders.map CachedDecoder.number).Nodup
  lt : ∀ decoder ∈ decoders, decoder.number < opened

section Numbered

variable {opened : Nat} {decoders decoders' : Multiset CachedDecoder}

theorem Numbered.of_le (h : Numbered opened decoders) (hle : decoders' ≤ decoders) :
    Numbered opened decoders' where
  nodup := Multiset.nodup_of_le (Multiset.map_le_map hle) h.nodup
  lt decoder hdecoder := h.lt decoder (Multiset.mem_of_le hle hdecoder)

/-- A decoder is made. -/
theorem Numbered.cons (h : Numbered opened decoders) (shardIndex : Nat) :
    Numbered (opened + 1) (⟨opened, shardIndex⟩ ::ₘ decoders) where
  nodup := by
    rw [Multiset.map_cons, Multiset.nodup_cons]
    refine ⟨?_, h.nodup⟩
    intro hmem
    obtain ⟨decoder, hdecoder, hnumber⟩ := Multiset.mem_map.mp hmem
    exact (h.lt decoder hdecoder).ne hnumber
  lt decoder hdecoder := by
    rcases Multiset.mem_cons.mp hdecoder with rfl | hdecoder
    · exact Nat.lt_succ_self opened
    · exact (h.lt decoder hdecoder).trans (Nat.lt_succ_self opened)

end Numbered

/-! ## The invariant -/

/-- The decoders that are checked out. -/
def heldDecoders (threads : Nat) (s : DecoderCacheState) : Multiset CachedDecoder :=
  ∑ i ∈ Finset.range threads, ((s.threads i).held : Multiset CachedDecoder)

/-- The slots of the threads. -/
def sharedSlots (threads : Nat) (s : DecoderCacheState) : Nat :=
  ∑ i ∈ Finset.range threads, (s.threads i).share

/-- What holds of a cache whose idle decoders were released in some order. -/
structure CacheInvariant (threads maxCachedDecoders : Nat) (s : DecoderCacheState)
    (order : List CachedDecoder) : Prop where
  idle : s.cache.IdleInOrder order
  count : s.cache.openCount = order.length + sharedSlots threads s
  bound : s.cache.openCount ≤ maxCachedDecoders
  numbered : Numbered s.opened ((order : Multiset CachedDecoder) + heldDecoders threads s)
  sorted : order.Pairwise fun a b => s.releasedAt a.number < s.releasedAt b.number
  past : ∀ decoder ∈ order, s.releasedAt decoder.number < s.releases

section Steps

variable {threads maxCachedDecoders : Nat} {s t : DecoderCacheState} {order order' : List CachedDecoder}
  {i : Nat} {thread : CacheThread}

theorem initial_cacheInvariant (threads maxCachedDecoders : Nat) :
    CacheInvariant threads maxCachedDecoders {} [] where
  idle := InOrder.empty _
  count := by simp [sharedSlots, CacheThread.share, AcquirePhase.slots]
  bound := Nat.zero_le _
  numbered := by
    have hnone : heldDecoders threads {} = 0 := by simp [heldDecoders]
    rw [hnone]
    exact ⟨Multiset.nodup_zero, fun _ hdecoder => by cases hdecoder⟩
  sorted := .nil
  past _ hdecoder := by cases hdecoder

/-- A step of one thread that makes no decoder and releases none. -/
theorem CacheInvariant.moved (h : CacheInvariant threads maxCachedDecoders s order) (hi : i < threads)
    {cache : LerobotDecoderCache} (hidle : cache.IdleInOrder order')
    (hcount : cache.openCount + order.length + (s.threads i).share =
      s.cache.openCount + order'.length + thread.share)
    (hbound : cache.openCount ≤ maxCachedDecoders) (hsublist : order'.Sublist order)
    (hdecoders : (order' : Multiset CachedDecoder) + thread.held ≤ order + (s.threads i).held) :
    CacheInvariant threads maxCachedDecoders ({ s with cache }.setThread i thread) order' where
  idle := hidle
  count := by
    obtain ⟨rest, hold, hnew⟩ := sum_range_update_split s.threads CacheThread.share hi thread
    have hbefore := h.count
    rw [sharedSlots, hold] at hbefore
    change cache.openCount = order'.length +
      ∑ j ∈ Finset.range threads, (Function.update s.threads i thread j).share
    rw [hnew]
    omega
  bound := hbound
  numbered := by
    obtain ⟨rest, hold, hnew⟩ := sum_range_update_split s.threads
      (fun party => (party.held : Multiset CachedDecoder)) hi thread
    have hbefore := h.numbered
    rw [heldDecoders, hold, ← add_assoc] at hbefore
    apply hbefore.of_le
    change (order' : Multiset CachedDecoder) +
      ∑ j ∈ Finset.range threads, ((Function.update s.threads i thread j).held : Multiset _) ≤ _
    rw [hnew, ← add_assoc]
    exact add_le_add_left hdecoders rest
  sorted := h.sorted.sublist hsublist
  past decoder hdecoder := h.past decoder (hsublist.subset hdecoder)

/-- A step of one thread that leaves the cache alone. -/
theorem CacheInvariant.advanced (h : CacheInvariant threads maxCachedDecoders s order) (hi : i < threads)
    {phase : AcquirePhase} (hslots : phase.slots = (s.threads i).phase.slots) :
    CacheInvariant threads maxCachedDecoders (s.setThread i ⟨phase, (s.threads i).held⟩) order := by
  apply h.moved hi h.idle
  · rw [CacheThread.share, CacheThread.share, hslots]
  · exact h.bound
  · exact .refl _
  · exact le_rfl

theorem CacheInvariant.locked (h : CacheInvariant threads maxCachedDecoders s order) (hi : i < threads)
    {shardIndex : Nat} (hphase : (s.threads i).phase = .locking shardIndex) :
    ∃ order', CacheInvariant threads maxCachedDecoders
      (s.afterLock i shardIndex (s.cache.acquire maxCachedDecoders shardIndex)) order' := by
  have hcases := LerobotDecoderCache.acquire_cases h.idle maxCachedDecoders shardIndex
  have hslots : (s.threads i).phase.slots = 0 := by
    rw [hphase]
    rfl
  generalize s.cache.acquire maxCachedDecoders shardIndex = result at hcases
  obtain ⟨outcome, cache⟩ := result
  dsimp only at hcases
  cases hcases with
  | @hit older newer decoder _ horder hshard hnewer hidle hcount =>
      refine ⟨older ++ newer, h.moved hi hidle ?_ (hcount.trans_le h.bound) ?_ ?_⟩
      · rw [CacheThread.share, CacheThread.share, hslots, hcount, horder]
        simp only [List.length_append, List.length_cons, AcquirePhase.slots]
        omega
      · rw [horder]
        exact (List.sublist_cons_self decoder newer).append_left older
      · rw [horder]
        apply le_of_eq
        simp only [Multiset.coe_add, Multiset.coe_eq_coe]
        exact List.perm_middle.trans (List.perm_middle.append_right (s.threads i).held).symm
  | opens hlt =>
      refine ⟨order, h.moved hi h.idle ?_ hlt (.refl _) le_rfl⟩
      rw [CacheThread.share, CacheThread.share, hslots]
      simp only [AcquirePhase.slots]
      omega
  | @evicts rest stale _ horder hidle hcount =>
      refine ⟨rest, h.moved hi hidle ?_ (hcount.trans_le h.bound) ?_ ?_⟩
      · rw [CacheThread.share, CacheThread.share, hslots, hcount, horder]
        simp only [List.length_cons, AcquirePhase.slots]
        omega
      · rw [horder]
        exact List.sublist_cons_self stale rest
      · rw [horder]
        apply add_le_add_left
        exact (List.sublist_cons_self stale rest).subperm
  | waits hfull horder => exact ⟨order, h⟩

/-- A decoder is made for a thread that has a slot. -/
theorem CacheInvariant.made (h : CacheInvariant threads maxCachedDecoders s order) (hi : i < threads)
    {shardIndex : Nat} (hphase : (s.threads i).phase = .opening shardIndex) :
    CacheInvariant threads maxCachedDecoders (s.afterOpen i shardIndex true) order where
  idle := h.idle
  count := by
    have hcount := h.count
    rw [sharedSlots, ← sum_range_update_eq s.threads CacheThread.share hi
      (a := ⟨.outside, ⟨s.opened, shardIndex⟩ :: (s.threads i).held⟩)
      (by simp [CacheThread.share, hphase, AcquirePhase.slots])] at hcount
    exact hcount
  bound := h.bound
  numbered := by
    obtain ⟨rest, hold, hnew⟩ := sum_range_update_split s.threads
      (fun party => (party.held : Multiset CachedDecoder)) hi
      ⟨.outside, ⟨s.opened, shardIndex⟩ :: (s.threads i).held⟩
    have hnumbered := h.numbered.cons shardIndex
    rw [heldDecoders, hold, ← Multiset.add_cons, ← Multiset.cons_add, Multiset.cons_coe, ← hnew]
      at hnumbered
    exact hnumbered
  sorted := h.sorted
  past := h.past

/-- A thread without a decoder to show for it returns its slot. -/
theorem CacheInvariant.returned (h : CacheInvariant threads maxCachedDecoders s order) (hi : i < threads)
    (hshare : thread.share + 1 = (s.threads i).share) (hheld : thread.held.Sublist (s.threads i).held) :
    CacheInvariant threads maxCachedDecoders
      ({ s with cache := s.cache.returnSlot }.setThread i thread) order := by
  have hpositive : 0 < s.cache.openCount := by
    obtain ⟨rest, hold, -⟩ := sum_range_update_split s.threads CacheThread.share hi thread
    have hcount := h.count
    rw [sharedSlots, hold] at hcount
    omega
  have hidle : s.cache.returnSlot.IdleInOrder order := h.idle
  apply h.moved hi hidle
  · change s.cache.openCount - 1 + order.length + _ = _
    omega
  · exact (Nat.sub_le _ _).trans h.bound
  · exact .refl _
  · exact add_le_add_right hheld.subperm _

/-- **`Release`.** The decoder is now the one that was released last. -/
theorem CacheInvariant.released (h : CacheInvariant threads maxCachedDecoders s order) (hi : i < threads)
    (hphase : (s.threads i).phase = .outside) {decoder : CachedDecoder}
    (hheld : decoder ∈ (s.threads i).held) :
    CacheInvariant threads maxCachedDecoders (s.afterRelease i decoder) (order ++ [decoder]) := by
  obtain ⟨rest, hold, hnew⟩ := sum_range_update_split s.threads
    (fun party => (party.held : Multiset CachedDecoder)) hi ⟨.outside, (s.threads i).held.erase decoder⟩
  have hdecoders : ((order ++ [decoder] : List CachedDecoder) : Multiset CachedDecoder) +
      heldDecoders threads (s.afterRelease i decoder) = order + heldDecoders threads s := by
    change _ + ∑ j ∈ Finset.range threads, ((Function.update s.threads i
      ⟨.outside, (s.threads i).held.erase decoder⟩ j).held : Multiset CachedDecoder) = _
    rw [hnew, heldDecoders, hold, ← add_assoc, ← add_assoc, Multiset.coe_add, Multiset.coe_add]
    congr 1
    rw [Multiset.coe_eq_coe, List.append_assoc]
    exact (List.perm_cons_erase hheld).symm.append_left order
  have hother : ∀ other ∈ order, other.number ≠ decoder.number := by
    intro other hother hnumber
    have hnodup := (hdecoders ▸ h.numbered).nodup
    rw [Multiset.map_add, Multiset.map_coe, List.map_append] at hnodup
    have hlist := (Multiset.nodup_add.mp hnodup).1
    exact (List.nodup_append.mp (Multiset.coe_nodup.mp hlist)).2.2 _ (List.mem_map_of_mem hother) _
      List.mem_cons_self hnumber
  have hstamp : ∀ other ∈ order,
      Function.update s.releasedAt decoder.number s.releases other.number = s.releasedAt other.number :=
    fun other hmem => Function.update_of_ne (hother other hmem) _ _
  exact {
    idle := h.idle.release decoder
    count := by
      obtain ⟨restSlots, holdSlots, hnewSlots⟩ := sum_range_update_split s.threads CacheThread.share hi
        ⟨.outside, (s.threads i).held.erase decoder⟩
      have hcount := h.count
      have hlength := List.length_erase_of_mem hheld
      have hpositive := List.length_pos_of_mem hheld
      rw [sharedSlots, holdSlots, CacheThread.share, hphase] at hcount
      change s.cache.openCount = (order ++ [decoder]).length +
        ∑ j ∈ Finset.range threads, (Function.update s.threads i _ j).share
      rw [hnewSlots, CacheThread.share, List.length_append, List.length_singleton]
      dsimp only
      omega
    bound := h.bound
    numbered := hdecoders ▸ h.numbered
    sorted := by
      apply List.pairwise_append.mpr
      refine ⟨?_, List.pairwise_singleton _ _, ?_⟩
      · apply h.sorted.imp_of_mem
        intro a b ha hb hlt
        change Function.update s.releasedAt decoder.number s.releases a.number <
          Function.update s.releasedAt decoder.number s.releases b.number
        rw [hstamp a ha, hstamp b hb]
        exact hlt
      · intro other hmem last hlast
        cases List.mem_singleton.mp hlast
        change Function.update s.releasedAt decoder.number s.releases other.number <
          Function.update s.releasedAt decoder.number s.releases decoder.number
        rw [hstamp other hmem, Function.update_self]
        exact h.past other hmem
    past := by
      intro other hmem
      change Function.update s.releasedAt decoder.number s.releases other.number < s.releases + 1
      rcases List.mem_append.mp hmem with hmem | hmem
      · rw [hstamp other hmem]
        exact (h.past other hmem).trans (Nat.lt_succ_self _)
      · cases List.mem_singleton.mp hmem
        rw [Function.update_self]
        exact Nat.lt_succ_self _ }

/-- **A step** keeps the invariant. -/
theorem CacheInvariant.step (h : CacheInvariant threads maxCachedDecoders s order)
    {l : DecoderCacheLabel} (hi : l.thread < threads) (hstep : s.next maxCachedDecoders l = some t) :
    ∃ order', CacheInvariant threads maxCachedDecoders t order' := by
  cases l with
  | callAcquire thread shardIndex =>
      change thread < threads at hi
      obtain ⟨hphase, heq⟩ := Option.ite_none_right_eq_some.mp hstep
      cases heq
      exact ⟨order, h.advanced hi (by rw [hphase]; rfl)⟩
  | lockAcquire thread =>
      change thread < threads at hi
      cases hphase : (s.threads thread).phase with
      | locking shardIndex =>
          simp only [DecoderCacheState.next, hphase] at hstep
          cases hstep
          exact h.locked hi hphase
      | _ => simp [DecoderCacheState.next, hphase] at hstep
  | resetStale thread =>
      change thread < threads at hi
      cases hphase : (s.threads thread).phase with
      | closing shardIndex stale =>
          simp only [DecoderCacheState.next, hphase] at hstep
          cases hstep
          exact ⟨order, h.advanced hi (by rw [hphase]; rfl)⟩
      | _ => simp [DecoderCacheState.next, hphase] at hstep
  | openDecoder thread succeeds =>
      change thread < threads at hi
      cases hphase : (s.threads thread).phase with
      | opening shardIndex =>
          simp only [DecoderCacheState.next, hphase] at hstep
          cases hstep
          cases succeeds with
          | true => exact ⟨order, h.made hi hphase⟩
          | false => exact ⟨order, h.advanced hi (by rw [hphase]; rfl)⟩
      | _ => simp [DecoderCacheState.next, hphase] at hstep
  | catchException thread =>
      change thread < threads at hi
      obtain ⟨hphase, heq⟩ := Option.ite_none_right_eq_some.mp hstep
      cases heq
      refine ⟨order, h.returned hi ?_ (.refl _)⟩
      rw [CacheThread.share, CacheThread.share, hphase]
      rfl
  | release thread decoder =>
      change thread < threads at hi
      obtain ⟨hphase, hcall⟩ := Option.ite_none_right_eq_some.mp hstep
      cases decoder with
      | none =>
          cases hcall
          exact ⟨order, h⟩
      | some decoder =>
          obtain ⟨hheld, heq⟩ := Option.ite_none_right_eq_some.mp hcall
          cases heq
          exact ⟨_, h.released hi hphase hheld⟩
  | discard thread decoder =>
      change thread < threads at hi
      obtain ⟨hphase, hcall⟩ := Option.ite_none_right_eq_some.mp hstep
      cases decoder with
      | none =>
          cases hcall
          exact ⟨order, h⟩
      | some decoder =>
          obtain ⟨hheld, heq⟩ := Option.ite_none_right_eq_some.mp hcall
          cases heq
          refine ⟨order, h.returned hi ?_ (List.erase_sublist)⟩
          have hlength := List.length_erase_add_one hheld
          rw [CacheThread.share, CacheThread.share, hphase, ← hlength]
          rfl

theorem cacheInvariant_of_reachable (h : (decoderCacheSystem threads maxCachedDecoders).Reachable s) :
    ∃ order, CacheInvariant threads maxCachedDecoders s order := by
  apply h.invariant
  · exact ⟨[], initial_cacheInvariant threads maxCachedDecoders⟩
  · rintro s l t - ⟨order, hs⟩ hstep
    obtain ⟨hi, hnext⟩ := Option.ite_none_right_eq_some.mp hstep
    exact hs.step hi hnext

end Steps

/-! ## Every state -/

/-- What holds of the cache in every state of a run. -/
structure DecoderCacheSound (threads maxCachedDecoders : Nat) (s : DecoderCacheState) : Prop where
  /-- The slots are those of the idle decoders, of the decoders that are checked out and of the threads that
  open one. -/
  openCount_eq : s.cache.openCount = s.cache.idle.length +
    ∑ i ∈ Finset.range threads, ((s.threads i).held.length + (s.threads i).phase.slots)
  openCount_le : s.cache.openCount ≤ maxCachedDecoders
  shards : (s.cache.idleLru : Multiset Nat) =
    (s.cache.idle : Multiset CachedDecoder).map CachedDecoder.shardIndex
  /-- A hit takes the decoder of the shard that was released last. -/
  hit : ∀ shardIndex decoder cache,
    s.cache.acquire maxCachedDecoders shardIndex = (.hit decoder, cache) →
      decoder.shardIndex = shardIndex ∧ s.cache.idle.Perm (decoder :: cache.idle) ∧
        ∀ other ∈ cache.idle, other.shardIndex = shardIndex →
          s.releasedAt other.number < s.releasedAt decoder.number
  /-- An eviction takes the decoder that was released first of all. -/
  evicts : ∀ shardIndex stale cache,
    s.cache.acquire maxCachedDecoders shardIndex = (.evicts stale, cache) →
      s.cache.idle.Perm (stale :: cache.idle) ∧
        ∀ other ∈ cache.idle, s.releasedAt stale.number < s.releasedAt other.number
  asserted : ∀ shardIndex, (s.cache.acquire maxCachedDecoders shardIndex).1 ≠ .assertionFailed

section Sound

variable {threads maxCachedDecoders : Nat} {s : DecoderCacheState} {order : List CachedDecoder}

theorem CacheInvariant.sound (h : CacheInvariant threads maxCachedDecoders s order) :
    DecoderCacheSound threads maxCachedDecoders s where
  openCount_eq := by
    rw [LerobotDecoderCache.idle, h.idle.perm.length_eq]
    exact h.count
  openCount_le := h.bound
  shards := by
    have hidle : (s.cache.idle : Multiset CachedDecoder) = order := Multiset.coe_eq_coe.mpr h.idle.perm
    rw [hidle, h.idle.keys_eq, Multiset.map_coe]
    exact Multiset.coe_eq_coe.mpr (List.reverse_perm _)
  hit shardIndex decoder cache hacquire := by
    have hcases := LerobotDecoderCache.acquire_cases h.idle maxCachedDecoders shardIndex
    rw [hacquire] at hcases
    cases hcases with
    | @hit older newer _ _ horder hshard hnewer hidle hcount =>
        refine ⟨hshard, ?_, ?_⟩
        · apply h.idle.perm.trans
          rw [horder]
          exact List.perm_middle.trans (hidle.perm.symm.cons decoder)
        · intro other hother hsame
          have hsorted := h.sorted
          rw [horder] at hsorted
          -- a decoder that was released later is of another shard
          rcases List.mem_append.mp (hidle.perm.mem_iff.mp hother) with holder | hmem
          · exact (List.pairwise_append.mp hsorted).2.2 other holder decoder List.mem_cons_self
          · exact absurd hsame (hnewer other hmem)
  evicts shardIndex stale cache hacquire := by
    have hcases := LerobotDecoderCache.acquire_cases h.idle maxCachedDecoders shardIndex
    rw [hacquire] at hcases
    cases hcases with
    | @evicts rest _ _ horder hidle hcount =>
        have hsorted := h.sorted
        rw [horder] at hsorted
        refine ⟨?_, ?_⟩
        · apply h.idle.perm.trans
          rw [horder]
          exact hidle.perm.symm.cons stale
        · intro other hother
          exact List.rel_of_pairwise_cons hsorted (hidle.perm.mem_iff.mp hother)
  asserted shardIndex hfailed := by
    have hcases := LerobotDecoderCache.acquire_cases h.idle maxCachedDecoders shardIndex
    rw [hfailed] at hcases
    cases hcases

/-- A thread that calls `Acquire` without a decoder has one slot at most. -/
def SingleUse (thread : CacheThread) : Prop :=
  match thread.phase with
  | .outside => thread.held.length ≤ 1
  | _ => thread.held = []

theorem SingleUse.share_le {thread : CacheThread} (h : SingleUse thread) : thread.share ≤ 1 := by
  obtain ⟨phase, held⟩ := thread
  cases phase with
  | outside => exact h
  | locking shardIndex =>
      rw [CacheThread.share, show held = [] from h]
      exact Nat.zero_le 1
  | closing shardIndex stale =>
      rw [CacheThread.share, show held = [] from h]
      rfl
  | opening shardIndex =>
      rw [CacheThread.share, show held = [] from h]
      rfl
  | catching =>
      rw [CacheThread.share, show held = [] from h]
      rfl

/-- A step of threads that call `Acquire` without a decoder. -/
theorem singleUse_step {t : DecoderCacheState} {l : DecoderCacheLabel} (h : ∀ i, SingleUse (s.threads i))
    (hallowed : acquiresWithout s l = true) (hstep : s.next maxCachedDecoders l = some t) :
    ∀ i, SingleUse (t.threads i) := by
  cases l with
  | callAcquire thread shardIndex =>
      obtain ⟨-, heq⟩ := Option.ite_none_right_eq_some.mp hstep
      cases heq
      exact forall_update h (List.isEmpty_iff.mp hallowed)
  | lockAcquire thread =>
      cases hphase : (s.threads thread).phase with
      | locking shardIndex =>
          simp only [DecoderCacheState.next, hphase] at hstep
          cases hstep
          have hheld : (s.threads thread).held = [] := by
            have hthread := h thread
            rwa [SingleUse, hphase] at hthread
          generalize s.cache.acquire maxCachedDecoders shardIndex = result
          obtain ⟨outcome, cache⟩ := result
          cases outcome with
          | hit decoder => exact forall_update h (by simp [SingleUse, hheld])
          | opens => exact forall_update h hheld
          | evicts stale => exact forall_update h hheld
          | waits => exact h
          | assertionFailed => exact h
      | _ => simp [DecoderCacheState.next, hphase] at hstep
  | resetStale thread =>
      cases hphase : (s.threads thread).phase with
      | closing shardIndex stale =>
          simp only [DecoderCacheState.next, hphase] at hstep
          cases hstep
          have hheld := h thread
          rw [SingleUse, hphase] at hheld
          exact forall_update h hheld
      | _ => simp [DecoderCacheState.next, hphase] at hstep
  | openDecoder thread succeeds =>
      cases hphase : (s.threads thread).phase with
      | opening shardIndex =>
          simp only [DecoderCacheState.next, hphase] at hstep
          cases hstep
          have hheld : (s.threads thread).held = [] := by
            have hthread := h thread
            rwa [SingleUse, hphase] at hthread
          cases succeeds with
          | true => exact forall_update h (by simp [SingleUse, hheld])
          | false => exact forall_update h hheld
      | _ => simp [DecoderCacheState.next, hphase] at hstep
  | catchException thread =>
      obtain ⟨hphase, heq⟩ := Option.ite_none_right_eq_some.mp hstep
      cases heq
      have hheld := h thread
      rw [SingleUse, hphase] at hheld
      exact forall_update h (by simp [SingleUse, show (s.threads thread).held = [] from hheld])
  | release thread decoder =>
      obtain ⟨hphase, hcall⟩ := Option.ite_none_right_eq_some.mp hstep
      cases decoder with
      | none =>
          cases hcall
          exact h
      | some decoder =>
          obtain ⟨-, heq⟩ := Option.ite_none_right_eq_some.mp hcall
          cases heq
          have hheld := h thread
          rw [SingleUse, hphase] at hheld
          exact forall_update h ((List.length_erase_le).trans hheld)
  | discard thread decoder =>
      obtain ⟨hphase, hcall⟩ := Option.ite_none_right_eq_some.mp hstep
      cases decoder with
      | none =>
          cases hcall
          exact h
      | some decoder =>
          obtain ⟨-, heq⟩ := Option.ite_none_right_eq_some.mp hcall
          cases heq
          have hheld := h thread
          rw [SingleUse, hphase] at hheld
          exact forall_update h ((List.length_erase_le).trans hheld)

theorem singleUse_of_reachable
    (h : ((decoderCacheSystem threads maxCachedDecoders).restrict acquiresWithout).Reachable s) :
    ∀ i, SingleUse (s.threads i) := by
  apply h.invariant
  · exact fun _ => Nat.zero_le 1
  · intro s l t _ hs hstep
    obtain ⟨hallowed, hstep⟩ := TransitionSystem.restrict_step.mp hstep
    obtain ⟨-, hnext⟩ := Option.ite_none_right_eq_some.mp hstep
    exact singleUse_step hs hallowed hnext

/-- A thread with a slot left for it does not wait. -/
theorem acquire_ne_waits (h : CacheInvariant threads maxCachedDecoders s order)
    (hsingle : ∀ i, SingleUse (s.threads i)) (hthreads : threads ≤ maxCachedDecoders) {i shardIndex : Nat}
    (hi : i < threads) (hphase : (s.threads i).phase = .locking shardIndex) :
    (s.cache.acquire maxCachedDecoders shardIndex).1 ≠ .waits := by
  intro hwaits
  have hcases := LerobotDecoderCache.acquire_cases h.idle maxCachedDecoders shardIndex
  rw [hwaits] at hcases
  generalize (s.cache.acquire maxCachedDecoders shardIndex).2 = cache at hcases
  cases hcases with
  | waits hfull horder =>
      have hfree : (s.threads i).share = 0 := by
        have hheld := hsingle i
        rw [SingleUse, hphase] at hheld
        rw [CacheThread.share, hphase, show (s.threads i).held = [] from hheld]
        rfl
      -- the other threads have one slot each at most
      have hlt : sharedSlots threads s < ∑ _j ∈ Finset.range threads, 1 := by
        apply Finset.sum_lt_sum
        · exact fun j _ => (hsingle j).share_le
        · exact ⟨i, Finset.mem_range.mpr hi, by rw [hfree]; exact Nat.one_pos⟩
      have hcount := h.count
      rw [horder, List.length_nil, Nat.zero_add] at hcount
      rw [← Finset.card_eq_sum_ones, Finset.card_range] at hlt
      omega

end Sound

/-- **The decoder cache**, under any interleaving of any number of threads. The slots are counted, and there are
never more of them than allowed; the list of shards is that of the idle decoders; a hit takes the decoder of its
shard that was released last, and an eviction the one that was released first of all. When no more threads than
slots use it, and each calls `Acquire` without a decoder, `Acquire` never waits. -/
theorem decoderCache_sound (threads maxCachedDecoders : Nat) :
    (∀ s, (decoderCacheSystem threads maxCachedDecoders).Reachable s →
      DecoderCacheSound threads maxCachedDecoders s) ∧
    (threads ≤ maxCachedDecoders → ∀ s,
      ((decoderCacheSystem threads maxCachedDecoders).restrict acquiresWithout).Reachable s →
        ∀ thread shardIndex, thread < threads → (s.threads thread).phase = .locking shardIndex →
          (s.cache.acquire maxCachedDecoders shardIndex).1 ≠ .waits) := by
  constructor
  · intro s hs
    obtain ⟨order, h⟩ := cacheInvariant_of_reachable hs
    exact h.sound
  · intro hthreads s hs thread shardIndex hthread hphase
    obtain ⟨order, h⟩ := cacheInvariant_of_reachable hs.of_restrict
    exact acquire_ne_waits h (singleUse_of_reachable hs) hthreads hthread hphase

/-- The threads of `lerobot_video_targets` do not wait for a decoder. -/
theorem acquire_ne_waits_of_maxThreads {decodeThreads maxCachedDecoders : Nat} {s : DecoderCacheState}
    (hs : ((decoderCacheSystem (maxThreads true decodeThreads maxCachedDecoders) maxCachedDecoders).restrict
      acquiresWithout).Reachable s) {thread shardIndex : Nat}
    (hthread : thread < maxThreads true decodeThreads maxCachedDecoders)
    (hphase : (s.threads thread).phase = .locking shardIndex) :
    (s.cache.acquire maxCachedDecoders shardIndex).1 ≠ .waits := by
  obtain ⟨order, h⟩ := cacheInvariant_of_reachable hs.of_restrict
  exact acquire_ne_waits h (singleUse_of_reachable hs) (min_le_right _ _) hthread hphase

/-- A thread leaves two decoders idle. Another one evicts the first of them, and the decoder of its own cannot
be opened. -/
def evictionSchedule : List DecoderCacheLabel :=
  [.callAcquire 0 7, .lockAcquire 0, .openDecoder 0 true, .release 0 (some ⟨0, 7⟩),
    .callAcquire 0 8, .lockAcquire 0, .openDecoder 0 true, .release 0 (some ⟨1, 8⟩),
    .callAcquire 1 9, .lockAcquire 1, .resetStale 1, .openDecoder 1 false, .catchException 1,
    .callAcquire 0 7]

/-- The slot is free again, and the first thread does not wait for it. -/
theorem eviction_sound : ∃ s,
    ((decoderCacheSystem 2 2).restrict acquiresWithout).Reachable s ∧ DecoderCacheSound 2 2 s ∧
      s.cache.idle = [⟨1, 8⟩] ∧ s.cache.openCount = 1 ∧ (s.threads 0).phase = .locking 7 ∧
        (s.cache.acquire 2 7).1 ≠ .waits := by
  obtain ⟨s, hs, htest⟩ := TransitionSystem.exists_reachable_of_replay
    ((decoderCacheSystem 2 2).restrict acquiresWithout) evictionSchedule
    (fun s => decide (s.cache.idle = [⟨1, 8⟩] ∧ s.cache.openCount = 1 ∧
      (s.threads 0).phase = .locking 7)) (by decide)
  obtain ⟨hidle, hcount, hphase⟩ := of_decide_eq_true htest
  exact ⟨s, hs, (decoderCache_sound 2 2).1 s hs.of_restrict, hidle, hcount, hphase,
    (decoderCache_sound 2 2).2 (Nat.le_refl 2) s hs 0 7 (by decide) hphase⟩

end DuckdbLerobot.Video
