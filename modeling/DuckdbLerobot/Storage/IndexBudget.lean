import DuckdbLerobot.Storage.IndexCacheSteps
import Mathlib.Algebra.BigOperators.Group.Finset.Piecewise
import Mathlib.Algebra.Order.BigOperators.Group.Finset

/-!
# The memory of the timestamp indexes

In every state of every run the budget counts the reservations of the indexes whose destructor has not run, and it
stays within the limit, so no subtraction of the lookup underflows. The loop of `Reserve` ends, and it gives up only
when no slot has an index (`indexBudget_exact`).
-/

set_option autoImplicit false

namespace DuckdbLerobot.Storage

open DuckdbLerobot.Library DuckdbLerobot.Path

theorem idxSub_eq {a b : Nat} (hle : b ≤ a) (hlt : a < 2 ^ 64) : idxSub a b = a - b := by
  unfold idxSub
  omega

theorem idxAdd_eq {a b : Nat} (hlt : a + b < 2 ^ 64) : idxAdd a b = a + b := Nat.mod_eq_of_lt hlt

namespace IndexCacheState

/-! ## The invariant -/

/-- Nothing is reserved for an index, and no other thread is about to reserve. -/
structure ReservableBy (s : IndexCacheState) (i index : Nat) : Prop where
  alive : index ∈ s.alive
  bytes : s.bytes index = 0
  exclusive : ∀ j ≠ i, (s.threads j).phase.unreserved ≠ some index

/-- What holds in every state: the objects in use are alive, a load that has reserved nothing has an object of its
own, and the budget is the sum of the reservations. -/
structure BudgetInvariant (threads limit : Nat) (s : IndexCacheState) : Prop where
  idle : ∀ i, threads ≤ i → s.threads i = {}
  slot_lt : ∀ slot, s.SlotInUse threads slot → slot < s.slotCount
  numbered : ∀ index ∈ s.alive, index < s.indexCount
  inUse : ∀ index, s.IndexInUse threads index → index ∈ s.alive
  unreserved : ∀ i index, (s.threads i).phase.unreserved = some index → s.ReservableBy i index
  locked : ∀ i, s.lock = some i ↔ (s.threads i).phase.locks = true
  total : s.budgetBytes = ∑ index ∈ s.alive, s.bytes index
  bound : s.budgetBytes ≤ limit
  granting : ∀ i call since index bytes,
    (s.threads i).phase = .loading call since (.granting index bytes) → s.budgetBytes + bytes ≤ limit

section Steps

variable {threads limit minRequests : Nat} {s t : IndexCacheState} {i : Nat} {thread : IndexThread}

theorem initial_budgetInvariant (threads limit : Nat) (files : Text → FileHistory) :
    BudgetInvariant threads limit { files } where
  idle _ _ := rfl
  slot_lt slot h := by
    rcases h with ⟨entry, hentry, -⟩ | ⟨j, -, hj⟩
    · cases hentry
    · cases hj
  numbered index h := by cases h
  inUse index h := by
    rcases h with ⟨slot, hslot, -⟩ | ⟨j, -, hj⟩
    · exact absurd hslot (Nat.not_lt_zero slot)
    · rcases hj with hj | hj <;> cases hj
  unreserved j index h := by cases h
  locked j := by simp [GetIndexPhase.locks]
  total := by simp
  bound := Nat.zero_le limit
  granting j call since index bytes h := by cases h

/-- A thread that is in a call is one of the scan. -/
theorem BudgetInvariant.lt_of_inside (h : BudgetInvariant threads limit s)
    (hinside : (s.threads i).phase ≠ .outside) : i < threads := by
  by_contra hle
  apply hinside
  rw [h.idle i (not_lt.mp hle)]

theorem BudgetInvariant.lock_ne (h : BudgetInvariant threads limit s)
    (hlocks : (s.threads i).phase.locks = false) : s.lock ≠ some i := by
  intro hlock
  rw [(h.locked i).mp hlock] at hlocks
  cases hlocks

theorem BudgetInvariant.alive_of_refers (h : BudgetInvariant threads limit s) (hi : i < threads) {index : Nat}
    (hrefers : (s.threads i).Refers index) : index ∈ s.alive :=
  h.inUse index (.inr ⟨i, hi, hrefers⟩)

/-- The index of a slot in use is alive. -/
theorem BudgetInvariant.alive_of_slot (h : BudgetInvariant threads limit s) {slot : Nat} {index : LoadedIndex}
    (hslot : s.SlotInUse threads slot) (hindex : (s.slotObjects slot).index = some index) :
    index.number ∈ s.alive := by
  apply h.inUse
  exact .inl ⟨slot, h.slot_lt slot hslot, hslot, by rw [hindex]; rfl⟩

theorem slotInUse_of_lookup {path : Text} {slot : Nat} (h : s.slots.lookup path = some slot) :
    s.SlotInUse threads slot := .inl ⟨_, mem_entries_of_lookup h, rfl⟩

/-! ## Steps of one thread -/

/-- A thread moves on, and may take or return the lock. -/
theorem BudgetInvariant.moved (h : BudgetInvariant threads limit s) (hi : i < threads) {lock : Option Nat}
    (hslot : ∀ slot, thread.phase.slot = some slot → s.SlotInUse threads slot)
    (hrefers : ∀ index, thread.Refers index → index ∈ s.alive)
    (hunreserved : ∀ index, thread.phase.unreserved = some index → s.ReservableBy i index)
    (hlock : lock = some i ↔ thread.phase.locks = true) (hothers : ∀ j ≠ i, lock = some j ↔ s.lock = some j)
    (hgranting : ∀ call since index bytes, thread.phase = .loading call since (.granting index bytes) →
      s.budgetBytes + bytes ≤ limit) :
    BudgetInvariant threads limit ({ s with lock }.setThread i thread) := by
  have hslots : ∀ slot, ({ s with lock }.setThread i thread).SlotInUse threads slot →
      s.SlotInUse threads slot := by
    rintro slot (hentry | ⟨j, hj, hphase⟩)
    · exact .inl hentry
    · revert hphase
      refine update_cases (P := fun _ (party : IndexThread) =>
        party.phase.slot = some slot → s.SlotInUse threads slot) (hslot slot) ?_ j
      intro k _ hk
      by_cases hkt : k < threads
      · exact .inr ⟨k, hkt, hk⟩
      · rw [h.idle k (not_lt.mp hkt)] at hk
        cases hk
  refine ⟨?_, ?_, h.numbered, ?_, ?_, ?_, h.total, h.bound, ?_⟩
  · intro j hj
    exact (Function.update_of_ne (by omega) _ _).trans (h.idle j hj)
  · intro slot hinUse
    exact h.slot_lt slot (hslots slot hinUse)
  · rintro index (⟨slot, hlt, hinUse, hindex⟩ | ⟨j, hj, hindex⟩)
    · exact h.inUse index (.inl ⟨slot, hlt, hslots slot hinUse, hindex⟩)
    · revert hj hindex
      refine update_cases (P := fun j (party : IndexThread) =>
        j < threads → party.Refers index → index ∈ s.alive) (fun _ => hrefers index) ?_ j
      intro k _ hk
      exact h.alive_of_refers hk
  · intro j index hj
    have hindex : s.ReservableBy j index := by
      revert hj
      exact update_cases (P := fun j (party : IndexThread) => party.phase.unreserved = some index →
        s.ReservableBy j index) (hunreserved index) (fun k _ => h.unreserved k index) j
    refine ⟨hindex.alive, hindex.bytes, ?_⟩
    intro k hk
    change (Function.update s.threads i thread k).phase.unreserved ≠ some index
    by_cases hki : k = i
    · subst hki
      rw [Function.update_self]
      intro hthread
      change (Function.update s.threads k thread j).phase.unreserved = some index at hj
      rw [Function.update_of_ne hk.symm] at hj
      exact (hunreserved index hthread).exclusive j hk.symm hj
    · rw [Function.update_of_ne hki]
      exact hindex.exclusive k hk
  · intro j
    refine update_cases (P := fun j (party : IndexThread) => lock = some j ↔ party.phase.locks = true)
      hlock ?_ j
    intro k hk
    exact (hothers k hk).trans (h.locked k)
  · intro j call since index bytes
    refine update_cases (P := fun _ (party : IndexThread) =>
      party.phase = .loading call since (.granting index bytes) → s.budgetBytes + bytes ≤ limit)
      (hgranting call since index bytes) ?_ j
    intro k _
    exact h.granting k call since index bytes

/-- A thread that is in a call moves on, and drops what it does not need any more. -/
theorem BudgetInvariant.advanced (h : BudgetInvariant threads limit s) {phase : GetIndexPhase}
    (hinside : (s.threads i).phase ≠ .outside)
    (hslot : ∀ slot, phase.slot = some slot → (s.threads i).phase.slot = some slot)
    (hindex : ∀ index, phase.index = some index → (s.threads i).phase.index = some index)
    (hunreserved : ∀ index, phase.unreserved = some index → (s.threads i).phase.unreserved = some index)
    (hlocks : phase.locks = (s.threads i).phase.locks)
    (hgranting : ∀ call since index bytes, phase = .loading call since (.granting index bytes) →
      s.budgetBytes + bytes ≤ limit) :
    BudgetInvariant threads limit (s.setPhase i phase) := by
  have hi : i < threads := h.lt_of_inside hinside
  apply h.moved hi
  · intro slot hphase
    exact .inr ⟨i, hi, hslot slot hphase⟩
  · rintro index (hphase | hheld)
    · exact h.alive_of_refers hi (.inl (hindex index hphase))
    · exact h.alive_of_refers hi (.inr hheld)
  · intro index hsome
    exact h.unreserved i index (hunreserved index hsome)
  · rw [hlocks]
    exact h.locked i
  · intro j _
    exact Iff.rfl
  · exact hgranting

/-- A thread that is not in `Reserve` lets go of the index that it has. -/
theorem BudgetInvariant.released (h : BudgetInvariant threads limit s) {phase : GetIndexPhase}
    (hinside : (s.threads i).phase ≠ .outside) (hlocks : (s.threads i).phase.locks = false)
    (hslot : ∀ slot, phase.slot = some slot → (s.threads i).phase.slot = some slot)
    (hindex : phase.index = none) (hunreserved : phase.unreserved = none) (hunlocked : phase.locks = false) :
    BudgetInvariant threads limit (s.setPhase i phase) := by
  apply h.advanced hinside hslot
  · intro index hsome
    rw [hindex] at hsome
    cases hsome
  · intro index hsome
    rw [hunreserved] at hsome
    cases hsome
  · rw [hlocks, hunlocked]
  · intro call since index bytes hphase
    rw [hphase] at hunlocked
    cases hunlocked

/-- A thread gets an index. -/
theorem BudgetInvariant.returned (h : BudgetInvariant threads limit s)
    (hinside : (s.threads i).phase ≠ .outside) (hlocks : (s.threads i).phase.locks = false) {call : IndexCall}
    {index : LoadedIndex} (halive : index.number ∈ s.alive) :
    BudgetInvariant threads limit (s.returnIndex i call index) := by
  apply h.moved (h.lt_of_inside hinside)
  · intro slot hslot
    cases hslot
  · rintro number (hphase | hheld)
    · cases hphase
    · cases hheld
      exact halive
  · intro number hnumber
    cases hnumber
  · exact iff_of_false (h.lock_ne hlocks) Bool.false_ne_true
  · intro j _
    exact Iff.rfl
  · intro call since number bytes hphase
    cases hphase

/-! ## Slots -/

/-- The invariant is not about the clock, the requests and the files. -/
theorem BudgetInvariant.frame (h : BudgetInvariant threads limit s) (clock requests : Nat)
    (files : Text → FileHistory) : BudgetInvariant threads limit { s with clock, requests, files } where
  idle := h.idle
  slot_lt := h.slot_lt
  numbered := h.numbered
  inUse := h.inUse
  unreserved i index hindex :=
    ⟨(h.unreserved i index hindex).alive, (h.unreserved i index hindex).bytes,
      (h.unreserved i index hindex).exclusive⟩
  locked := h.locked
  total := h.total
  bound := h.bound
  granting := h.granting

/-- A slot is written. -/
theorem BudgetInvariant.setSlot (h : BudgetInvariant threads limit s) (slot : Nat) {next : ShardSlot}
    (hindex : ∀ index, next.index = some index → index.number ∈ s.alive) :
    BudgetInvariant threads limit (s.setSlot slot next) where
  idle := h.idle
  slot_lt := h.slot_lt
  numbered := h.numbered
  inUse := by
    rintro number (⟨other, hlt, hinUse, hnumber⟩ | hthread)
    · revert hlt hinUse hnumber
      refine update_cases (P := fun other (object : ShardSlot) => other < s.slotCount →
        s.SlotInUse threads other → object.index.map LoadedIndex.number = some number →
          number ∈ s.alive) ?_ ?_ other
      · intro _ _ hnumber
        obtain ⟨index, hsome, rfl⟩ := Option.map_eq_some_iff.mp hnumber
        exact hindex index hsome
      · intro other _ hlt hinUse hnumber
        exact h.inUse number (.inl ⟨other, hlt, hinUse, hnumber⟩)
    · exact h.inUse number (.inr hthread)
  unreserved i index hindex :=
    ⟨(h.unreserved i index hindex).alive, (h.unreserved i index hindex).bytes,
      (h.unreserved i index hindex).exclusive⟩
  locked := h.locked
  total := h.total
  bound := h.bound
  granting := h.granting

/-- A slot is made and takes a place in the map. -/
theorem BudgetInvariant.newSlot (h : BudgetInvariant threads limit s) {slots : AList fun _ : Text => Nat}
    (hslots : ∀ entry ∈ slots.entries, entry ∈ s.slots.entries ∨ entry.2 = s.slotCount) {object : ShardSlot}
    (hindex : object.index = none) :
    BudgetInvariant threads limit { s with
      slots
      slotObjects := Function.update s.slotObjects s.slotCount object
      slotCount := s.slotCount + 1 } := by
  have hold : ∀ slot, ((∃ entry ∈ slots.entries, entry.2 = slot) ∨
      ∃ i < threads, (s.threads i).phase.slot = some slot) → slot = s.slotCount ∨ s.SlotInUse threads slot := by
    rintro slot (⟨entry, hentry, rfl⟩ | hthread)
    · rcases hslots entry hentry with hentry | heq
      · exact .inr (.inl ⟨entry, hentry, rfl⟩)
      · exact .inl heq
    · exact .inr (.inr hthread)
  refine ⟨h.idle, ?_, h.numbered, ?_, ?_, h.locked, h.total, h.bound, h.granting⟩
  · intro slot hinUse
    rcases hold slot hinUse with rfl | hinUse
    · exact Nat.lt_succ_self s.slotCount
    · exact (h.slot_lt slot hinUse).trans (Nat.lt_succ_self s.slotCount)
  · rintro number (⟨slot, -, hinUse, hnumber⟩ | hthread)
    · -- the new slot has no index
      rcases hold slot hinUse with rfl | hinUse
      · change (Function.update s.slotObjects s.slotCount object s.slotCount).index.map _ = _ at hnumber
        rw [Function.update_self, hindex] at hnumber
        cases hnumber
      · have hlt := h.slot_lt slot hinUse
        change (Function.update s.slotObjects s.slotCount object slot).index.map _ = _ at hnumber
        rw [Function.update_of_ne hlt.ne] at hnumber
        exact h.inUse number (.inl ⟨slot, hlt, hinUse, hnumber⟩)
    · exact h.inUse number (.inr hthread)
  · intro i index hindex
    have hold := h.unreserved i index hindex
    exact ⟨hold.alive, hold.bytes, hold.exclusive⟩

theorem mem_slotsWithRoom {entry : Sigma fun _ : Text => Nat} (h : entry ∈ s.slotsWithRoom.entries) :
    entry ∈ s.slots.entries := by
  unfold slotsWithRoom at h
  split at h
  · split at h
    · exact (List.kerase_sublist _ _).subset h
    · exact h
  · exact h

/-- A new entry, and entries that were there. -/
theorem mem_entries_insert {slots : AList fun _ : Text => Nat} {path : Text} {slot : Nat}
    {entry : Sigma fun _ : Text => Nat} (h : entry ∈ (slots.insert path slot).entries) :
    entry = ⟨path, slot⟩ ∨ entry ∈ slots.entries := by
  rw [AList.entries_insert] at h
  rcases List.mem_cons.mp h with rfl | h
  · exact .inl rfl
  · exact .inr ((List.kerase_sublist _ _).subset h)

theorem BudgetInvariant.found (h : BudgetInvariant threads limit s) (path : Text) :
    BudgetInvariant threads limit (s.findSlot path).2 := by
  unfold findSlot
  split
  · exact h
  · apply h.newSlot
    · intro entry hentry
      rcases mem_entries_insert hentry with rfl | hentry
      · exact .inr rfl
      · exact .inl (mem_slotsWithRoom hentry)
    · rfl

/-- The slot that was found is the one of the path. -/
theorem lookup_findSlot (s : IndexCacheState) (path : Text) :
    (s.findSlot path).2.slots.lookup path = some (s.findSlot path).1 := by
  unfold findSlot
  split
  · assumption
  · exact AList.lookup_insert _

@[simp] theorem findSlot_threads (s : IndexCacheState) (path : Text) :
    (s.findSlot path).2.threads = s.threads := by
  unfold findSlot
  split <;> rfl

@[simp] theorem findSlot_lock (s : IndexCacheState) (path : Text) : (s.findSlot path).2.lock = s.lock := by
  unfold findSlot
  split <;> rfl

/-- The first lock section. -/
theorem BudgetInvariant.entered (h : BudgetInvariant threads limit s) {path : Text}
    (hphase : (s.threads i).phase = .entering path) :
    BudgetInvariant threads limit (s.afterEnter minRequests i path) := by
  have hlookup := lookup_findSlot s path
  have hthread : ((s.findSlot path).2.threads i).phase = .entering path := by
    rw [findSlot_threads]
    exact hphase
  have hfound := h.found path
  unfold afterEnter
  generalize s.findSlot path = found at hlookup hthread hfound
  have hinUse : found.2.SlotInUse threads found.1 := slotInUse_of_lookup hlookup
  have hvisited : BudgetInvariant threads limit (found.2.visitSlot found.1) :=
    (hfound.frame (found.2.clock + 1) found.2.requests found.2.files).setSlot found.1 fun _ hindex =>
      hfound.alive_of_slot hinUse hindex
  have hinside : ((found.2.visitSlot found.1).threads i).phase ≠ .outside := by
    change (found.2.threads i).phase ≠ .outside
    rw [hthread]
    intro heq
    cases heq
  have hlocks : ((found.2.visitSlot found.1).threads i).phase.locks = false := by
    change (found.2.threads i).phase.locks = false
    rw [hthread]
    rfl
  dsimp only
  split
  · exact hvisited.released hinside hlocks (fun _ hslot => by cases hslot) rfl rfl rfl
  · apply hvisited.moved (hvisited.lt_of_inside hinside)
    · intro slot hslot
      cases hslot
      exact hinUse
    · rintro index (hindex | hheld)
      · cases hindex
      · exact hvisited.alive_of_refers (hvisited.lt_of_inside hinside) (.inr hheld)
    · intro index hindex
      cases hindex
    · exact iff_of_false (hvisited.lock_ne hlocks) Bool.false_ne_true
    · intro j _
      exact Iff.rfl
    · intro call since index bytes heq
      cases heq

theorem BudgetInvariant.replaced (h : BudgetInvariant threads limit s) (call : IndexCall) :
    BudgetInvariant threads limit (s.replaceSlot call) := by
  apply h.newSlot
  · intro entry hentry
    rcases mem_entries_insert hentry with rfl | hentry
    · exact .inr rfl
    · exact .inl hentry
  · rfl

/-- The second lock section. -/
theorem BudgetInvariant.compared (h : BudgetInvariant threads limit s) {call : IndexCall}
    (hphase : (s.threads i).phase = .comparing call) :
    BudgetInvariant threads limit (s.afterCompare i call) := by
  have hinside : (s.threads i).phase ≠ .outside := by simp [hphase]
  have hlocks : (s.threads i).phase.locks = false := by simp [hphase, GetIndexPhase.locks, LoadStage.locks]
  have hinUse : s.SlotInUse threads call.slot := .inr ⟨i, h.lt_of_inside hinside, by rw [hphase]; rfl⟩
  unfold afterCompare
  dsimp only
  split
  · exact h.released hinside hlocks (fun _ hslot => by cases hslot) rfl rfl rfl
  · split
    · exact (h.replaced call).released hinside hlocks (fun _ hslot => by cases hslot) rfl rfl rfl
    · split
      · rename_i index hindex
        exact h.returned hinside hlocks (h.alive_of_slot hinUse hindex)
      · rename_i hindex
        split
        · exact h.released hinside hlocks (fun _ hslot => by cases hslot) rfl rfl rfl
        · -- the load begins
          have hmarked : BudgetInvariant threads limit (s.setSlot call.slot
              { s.slotObjects call.slot with fingerprint := some call.fingerprint, loading := true }) := by
            apply h.setSlot
            intro index hsome
            exact h.alive_of_slot hinUse hsome
          apply hmarked.released hinside hlocks
          · intro slot hslot
            change (s.threads i).phase.slot = some slot
            rw [hphase]
            exact hslot
          · rfl
          · rfl
          · rfl

/-! ## Reservations -/

/-- An index object is made. -/
theorem BudgetInvariant.newIndex (h : BudgetInvariant threads limit s) :
    BudgetInvariant threads limit { s with
      bytes := Function.update s.bytes s.indexCount 0
      alive := insert s.indexCount s.alive
      indexCount := s.indexCount + 1 } := by
  have hnew : s.indexCount ∉ s.alive := by
    intro hmem
    exact (h.numbered _ hmem).ne rfl
  have hbytes : ∀ index ∈ s.alive, Function.update s.bytes s.indexCount 0 index = s.bytes index := by
    intro index hindex
    exact Function.update_of_ne (h.numbered index hindex).ne _ _
  refine ⟨h.idle, h.slot_lt, ?_, ?_, ?_, h.locked, ?_, h.bound, h.granting⟩
  · intro index hindex
    rcases Finset.mem_insert.mp hindex with rfl | hindex
    · exact Nat.lt_succ_self _
    · exact (h.numbered index hindex).trans (Nat.lt_succ_self _)
  · intro index hinUse
    exact Finset.mem_insert_of_mem (h.inUse index hinUse)
  · intro j index hindex
    have hold := h.unreserved j index hindex
    exact ⟨Finset.mem_insert_of_mem hold.alive, (hbytes index hold.alive).trans hold.bytes, hold.exclusive⟩
  · change s.budgetBytes = ∑ index ∈ insert s.indexCount s.alive, Function.update s.bytes s.indexCount 0 index
    rw [Finset.sum_insert hnew, Function.update_self, Finset.sum_congr rfl hbytes, zero_add]
    exact h.total

/-- The rows were counted. -/
theorem BudgetInvariant.counted (h : BudgetInvariant threads limit s) {call : IndexCall} {since : Nat}
    (hphase : (s.threads i).phase = .loading call since .counting) (rowCount : Nat) :
    BudgetInvariant threads limit (s.afterCount limit i call since rowCount) := by
  have hinside : (s.threads i).phase ≠ .outside := by simp [hphase]
  have hlocks : (s.threads i).phase.locks = false := by simp [hphase, GetIndexPhase.locks, LoadStage.locks]
  have hslot : ∀ slot, some call.slot = some slot → (s.threads i).phase.slot = some slot := by
    intro slot hslot
    rw [hphase]
    exact hslot
  have hi := h.lt_of_inside hinside
  unfold afterCount
  split
  · exact h.released hinside hlocks hslot rfl rfl rfl
  · have hnone : ∀ j, (s.threads j).phase.unreserved ≠ some s.indexCount := by
      intro j hj
      exact (h.numbered _ (h.unreserved j _ hj).alive).ne rfl
    apply h.newIndex.moved hi
    · intro slot hsome
      exact .inr ⟨i, hi, hslot slot hsome⟩
    · rintro index (hindex | hheld)
      · cases hindex
        exact Finset.mem_insert_self _ _
      · exact Finset.mem_insert_of_mem (h.alive_of_refers hi (.inr hheld))
    · intro index hindex
      cases hindex
      exact ⟨Finset.mem_insert_self _ _, Function.update_self _ _ _, fun j _ => hnone j⟩
    · exact iff_of_false (h.lock_ne hlocks) Bool.false_ne_true
    · intro j _
      exact Iff.rfl
    · intro call since index bytes heq
      cases heq

/-- The lock of `Reserve` is taken. -/
theorem BudgetInvariant.reserveLocked (h : BudgetInvariant threads limit s) {call : IndexCall}
    {since index bytes : Nat} (hlock : s.lock = none)
    (hphase : (s.threads i).phase = .loading call since (.reserving index bytes)) :
    BudgetInvariant threads limit
      ({ s with lock := some i }.setPhase i (.loading call since (.testing index bytes))) := by
  have hi : i < threads := h.lt_of_inside (by simp [hphase])
  apply h.moved hi
  · intro slot hslot
    exact .inr ⟨i, hi, by rw [hphase]; exact hslot⟩
  · rintro other (hindex | hheld)
    · exact h.alive_of_refers hi (.inl (by rw [hphase]; exact hindex))
    · exact h.alive_of_refers hi (.inr hheld)
  · intro other hindex
    exact h.unreserved i other (by rw [hphase]; exact hindex)
  · exact iff_of_true rfl rfl
  · intro j hj
    rw [hlock, Option.some.injEq]
    exact iff_of_false hj.symm fun hnone => by cases hnone
  · intro call since index bytes heq
    cases heq

/-- A round of the loop in `Reserve` tests the room. -/
theorem BudgetInvariant.tested (h : BudgetInvariant threads limit s) (hlimit : limit < 2 ^ 64)
    {call : IndexCall} {since index bytes : Nat}
    (hphase : (s.threads i).phase = .loading call since (.testing index bytes)) {stage : LoadStage}
    (hstage : stage = .evicting index bytes ∨
      stage = .granting index bytes ∧ bytes ≤ idxSub limit s.budgetBytes) :
    BudgetInvariant threads limit (s.setPhase i (.loading call since stage)) := by
  have hsame : stage.index = some index ∧ stage.unreserved = some index ∧ stage.locks = true := by
    rcases hstage with rfl | ⟨rfl, -⟩ <;> exact ⟨rfl, rfl, rfl⟩
  apply h.advanced (by simp [hphase])
  · intro slot hslot
    rw [hphase]
    exact hslot
  · intro other hindex
    rw [hphase]
    exact hsame.1.symm.trans hindex
  · intro other hindex
    rw [hphase]
    exact hsame.2.1.symm.trans hindex
  · rw [hphase]
    exact hsame.2.2
  · intro call since index bytes heq
    rcases hstage with rfl | ⟨rfl, hroom⟩
    · cases heq
    · cases heq
      rw [idxSub_eq h.bound hlimit] at hroom
      exact Nat.add_le_of_le_sub' h.bound hroom

/-- The body of the loop in `Reserve`. -/
theorem BudgetInvariant.evicted (h : BudgetInvariant threads limit s) {call : IndexCall}
    {since index bytes : Nat} (hphase : (s.threads i).phase = .loading call since (.evicting index bytes)) :
    BudgetInvariant threads limit (s.afterEvict i call since index bytes) := by
  have hinside : (s.threads i).phase ≠ .outside := by simp [hphase]
  have hi := h.lt_of_inside hinside
  unfold afterEvict
  split
  · -- `Reserve` returns false, and the object is gone with the locals of `Load`
    apply h.moved hi
    · intro slot hslot
      exact .inr ⟨i, hi, by rw [hphase]; exact hslot⟩
    · rintro other (hindex | hheld)
      · cases hindex
      · exact h.alive_of_refers hi (.inr hheld)
    · intro other hindex
      cases hindex
    · exact iff_of_false (fun hnone => by cases hnone) Bool.false_ne_true
    · intro j hj
      have hlock : s.lock = some i := (h.locked i).mpr (by rw [hphase]; rfl)
      rw [hlock, Option.some.injEq]
      exact iff_of_false (fun hnone => by cases hnone) hj.symm
    · intro call since index bytes heq
      cases heq
  · rename_i oldest _
    have hreset : BudgetInvariant threads limit (s.setSlot oldest.2
        { s.slotObjects oldest.2 with index := none, skipped := true }) := by
      apply h.setSlot
      intro other hsome
      cases hsome
    apply hreset.advanced hinside
    · intro slot hslot
      change (s.threads i).phase.slot = some slot
      rw [hphase]
      exact hslot
    · intro other hindex
      change (s.threads i).phase.index = some other
      rw [hphase]
      exact hindex
    · intro other hindex
      change (s.threads i).phase.unreserved = some other
      rw [hphase]
      exact hindex
    · change true = (s.threads i).phase.locks
      rw [hphase]
      rfl
    · intro call since index bytes heq
      cases heq

/-- The bytes of an object are counted. -/
theorem BudgetInvariant.reserved (h : BudgetInvariant threads limit s) {index bytes : Nat}
    (halive : index ∈ s.alive) (hzero : s.bytes index = 0)
    (hnone : ∀ j, (s.threads j).phase.unreserved ≠ some index) (hlock : s.lock = none)
    (hroom : s.budgetBytes + bytes ≤ limit) :
    BudgetInvariant threads limit { s with
      bytes := Function.update s.bytes index bytes
      budgetBytes := s.budgetBytes + bytes } := by
  refine ⟨h.idle, h.slot_lt, h.numbered, h.inUse, ?_, h.locked, ?_, hroom, ?_⟩
  · intro j other hother
    have hold := h.unreserved j other hother
    have hne : other ≠ index := by
      rintro rfl
      exact hnone j hother
    exact ⟨hold.alive, (Function.update_of_ne hne _ _).trans hold.bytes, hold.exclusive⟩
  · have hsplit := Finset.add_sum_erase s.alive s.bytes halive
    change s.budgetBytes + bytes = ∑ other ∈ s.alive, Function.update s.bytes index bytes other
    rw [Finset.sum_update_of_mem halive, Finset.sdiff_singleton_eq_erase, h.total, ← hsplit, hzero]
    ring
  · -- no thread is in `Reserve`
    intro j call since other bytes hphase
    have hlocked : s.lock = some j := (h.locked j).mpr (by rw [hphase]; rfl)
    rw [hlock] at hlocked
    cases hlocked

/-- **A reservation.** Nothing was reserved since the room was tested, so the sum does not overflow. -/
theorem BudgetInvariant.granted (h : BudgetInvariant threads limit s) (hlimit : limit < 2 ^ 64)
    {call : IndexCall} {since index bytes : Nat}
    (hphase : (s.threads i).phase = .loading call since (.granting index bytes)) :
    (s.afterGrant i call since index bytes).budgetBytes = s.budgetBytes + bytes ∧
      BudgetInvariant threads limit (s.afterGrant i call since index bytes) := by
  have hi : i < threads := h.lt_of_inside (by simp [hphase])
  have hroom := h.granting i call since index bytes hphase
  have hindex : s.ReservableBy i index := h.unreserved i index (by rw [hphase]; rfl)
  have hlock : s.lock = some i := (h.locked i).mpr (by rw [hphase]; rfl)
  have hbudget : idxAdd s.budgetBytes bytes = s.budgetBytes + bytes := idxAdd_eq (by omega)
  have hreturned : BudgetInvariant threads limit
      ({ s with lock := none }.setPhase i (.loading call since (.allocating index))) := by
    apply h.moved hi
    · intro slot hslot
      exact .inr ⟨i, hi, by rw [hphase]; exact hslot⟩
    · rintro other (hother | hheld)
      · exact h.alive_of_refers hi (.inl (by rw [hphase]; exact hother))
      · exact h.alive_of_refers hi (.inr hheld)
    · intro other hother
      cases hother
    · exact iff_of_false (fun hnone => by cases hnone) Bool.false_ne_true
    · intro j hj
      rw [hlock, Option.some.injEq]
      exact iff_of_false (fun hnone => by cases hnone) hj.symm
    · intro call since index bytes heq
      cases heq
  refine ⟨hbudget, ?_⟩
  unfold afterGrant
  rw [hbudget]
  apply hreturned.reserved hindex.alive hindex.bytes _ rfl hroom
  exact update_cases (P := fun _ (party : IndexThread) => party.phase.unreserved ≠ some index)
    (fun hnone => by cases hnone) hindex.exclusive

/-- **The destructor of an index.** What it returns was counted, so the difference does not underflow. -/
theorem BudgetInvariant.destroyed (h : BudgetInvariant threads limit s) (hlimit : limit < 2 ^ 64)
    {index : Nat} (halive : index ∈ s.alive) (hunused : ¬s.IndexInUse threads index) :
    (s.afterDestroy index).budgetBytes + s.bytes index = s.budgetBytes ∧
      BudgetInvariant threads limit (s.afterDestroy index) := by
  have hsplit := Finset.add_sum_erase s.alive s.bytes halive
  rw [← h.total] at hsplit
  have hbound := h.bound
  have hbudget : idxSub s.budgetBytes (s.bytes index) = s.budgetBytes - s.bytes index :=
    idxSub_eq (by omega) (by omega)
  have hkept : ∀ other, s.IndexInUse threads other → other ∈ s.alive.erase index := by
    intro other hinUse
    apply Finset.mem_erase_of_ne_of_mem _ (h.inUse other hinUse)
    rintro rfl
    exact hunused hinUse
  refine ⟨?_, h.idle, h.slot_lt, ?_, hkept, ?_, h.locked, ?_, ?_, ?_⟩
  · change idxSub s.budgetBytes (s.bytes index) + s.bytes index = s.budgetBytes
    omega
  · intro other hother
    exact h.numbered other (Finset.mem_of_mem_erase hother)
  · intro j other hother
    change (s.threads j).phase.unreserved = some other at hother
    have hold := h.unreserved j other hother
    have hinside : (s.threads j).phase ≠ .outside := by
      intro houtside
      rw [houtside] at hother
      cases hother
    have hrefers : (s.threads j).Refers other := .inl (GetIndexPhase.index_of_unreserved hother)
    exact ⟨hkept other (.inr ⟨j, h.lt_of_inside hinside, hrefers⟩), hold.bytes, hold.exclusive⟩
  · change idxSub s.budgetBytes (s.bytes index) = ∑ other ∈ s.alive.erase index, s.bytes other
    omega
  · change idxSub s.budgetBytes (s.bytes index) ≤ limit
    omega
  · intro j call since other bytes hphase
    have hroom := h.granting j call since other bytes hphase
    change idxSub s.budgetBytes (s.bytes index) + bytes ≤ limit
    omega

/-! ## The end of a load -/

/-- The third lock section. -/
theorem BudgetInvariant.published (h : BudgetInvariant threads limit s) {call : IndexCall}
    {index : Option LoadedIndex} {unchanged : Bool}
    (hphase : (s.threads i).phase = .publishing call index unchanged) :
    BudgetInvariant threads limit (s.afterPublish i call index unchanged) := by
  have hinside : (s.threads i).phase ≠ .outside := by simp [hphase]
  have hlocks : (s.threads i).phase.locks = false := by simp [hphase, GetIndexPhase.locks]
  have hi := h.lt_of_inside hinside
  have hinUse : s.SlotInUse threads call.slot := .inr ⟨i, hi, by rw [hphase]; rfl⟩
  have hindex : ∀ other, index = some other → other.number ∈ s.alive := by
    rintro other rfl
    exact h.alive_of_refers hi (.inl (by rw [hphase]; rfl))
  unfold afterPublish
  dsimp only
  split
  · have hcleared : BudgetInvariant threads limit
        (s.setSlot call.slot { s.slotObjects call.slot with loading := false }) :=
      h.setSlot _ fun other hsome => h.alive_of_slot hinUse hsome
    exact hcleared.released hinside hlocks (fun _ hslot => by cases hslot) rfl rfl rfl
  · have hset : BudgetInvariant threads limit (s.setSlot call.slot
        { s.slotObjects call.slot with loading := false, skipped := index.isNone, index }) :=
      h.setSlot _ hindex
    split
    · exact hset.returned hinside hlocks (hindex _ rfl)
    · exact hset.released hinside hlocks (fun _ hslot => by cases hslot) rfl rfl rfl

/-- The lock section of the exception handler. -/
theorem BudgetInvariant.caught (h : BudgetInvariant threads limit s) {call : IndexCall}
    (hphase : (s.threads i).phase = .catching call) : BudgetInvariant threads limit (s.afterCatch i call) := by
  have hinside : (s.threads i).phase ≠ .outside := by simp [hphase]
  have hlocks : (s.threads i).phase.locks = false := by simp [hphase, GetIndexPhase.locks]
  have hinUse : s.SlotInUse threads call.slot := .inr ⟨i, h.lt_of_inside hinside, by rw [hphase]; rfl⟩
  have hcleared : BudgetInvariant threads limit
      (s.setSlot call.slot { s.slotObjects call.slot with loading := false }) :=
    h.setSlot _ fun other hsome => h.alive_of_slot hinUse hsome
  exact hcleared.released hinside hlocks (fun _ hslot => by cases hslot) rfl rfl rfl

/-! ## All steps -/

/-- Every step keeps the invariant. -/
theorem BudgetInvariant.step (h : BudgetInvariant threads limit s) (hlimit : limit < 2 ^ 64)
    {l : IndexCacheLabel} (hthread : l.thread.all (· < threads) = true)
    (hstep : IndexStep threads limit minRequests s l t) : BudgetInvariant threads limit t := by
  cases hstep with
  | refused _ => exact h
  | @called i path interrupted hcall =>
      have hi : i < threads := by simpa [IndexCacheLabel.thread] using hthread
      apply h.moved hi
      · intro slot hslot
        cases hslot
      · rintro index (hindex | hheld)
        · cases hindex
        · exact h.alive_of_refers hi (.inr hheld)
      · intro index hindex
        cases hindex
      · exact iff_of_false (h.lock_ne (by simp [hcall, GetIndexPhase.locks])) Bool.false_ne_true
      · intro j _
        exact Iff.rfl
      · intro call since index bytes heq
        cases heq
  | entered hlock hphase => exact h.entered hphase
  | fingerprinted hphase =>
      apply h.released <;> first | rfl | simp [hphase, GetIndexPhase.slot, GetIndexPhase.locks]
  | unopened hphase =>
      apply h.released <;> first | rfl | simp [hphase, GetIndexPhase.slot, GetIndexPhase.locks]
  | compared hlock hphase => exact h.compared hphase
  | counted hphase => exact h.counted hphase _
  | locked hlock hphase => exact h.reserveLocked hlock hphase
  | full hphase => exact h.tested hlimit hphase (.inl rfl)
  | room hphase hroom => exact h.tested hlimit hphase (.inr ⟨rfl, hroom⟩)
  | evicted hphase => exact h.evicted hphase
  | granted hphase => exact (h.granted hlimit hphase).2
  | unallocated hphase =>
      apply h.released <;> first | rfl | simp [hphase, GetIndexPhase.slot, GetIndexPhase.locks, LoadStage.locks]
  | allocated hphase =>
      apply h.advanced <;>
        simp [hphase, GetIndexPhase.slot, GetIndexPhase.index, GetIndexPhase.unreserved, GetIndexPhase.locks,
          LoadStage.index, LoadStage.unreserved, LoadStage.locks]
  | grew hphase =>
      apply h.released <;> first | rfl | simp [hphase, GetIndexPhase.slot, GetIndexPhase.locks, LoadStage.locks]
  | loaded hphase =>
      apply h.advanced <;>
        simp [hphase, GetIndexPhase.slot, GetIndexPhase.index, GetIndexPhase.unreserved, GetIndexPhase.locks,
          LoadStage.index, LoadStage.locks]
  | rethrown hphase hstage =>
      apply h.released <;>
        first | rfl | simp [hphase, GetIndexPhase.slot, GetIndexPhase.locks, LoadStage.locks_of_unreserved hstage]
  | swallowed hphase hstage =>
      apply h.released <;>
        first | rfl | simp [hphase, GetIndexPhase.slot, GetIndexPhase.locks, LoadStage.locks_of_unreserved hstage]
  | verified hphase =>
      apply h.advanced <;>
        simp [hphase, GetIndexPhase.slot, GetIndexPhase.index, GetIndexPhase.unreserved, GetIndexPhase.locks]
  | unverified hphase =>
      apply h.released <;> first | rfl | simp [hphase, GetIndexPhase.slot, GetIndexPhase.locks]
  | published hlock hphase => exact h.published hphase
  | caught hlock hphase => exact h.caught hphase
  | @dropped i held hthreadHeld =>
      have hi : i < threads := by simpa [IndexCacheLabel.thread] using hthread
      apply h.moved hi
      · intro slot hslot
        cases hslot
      · rintro index (hindex | hheld)
        · cases hindex
        · cases hheld
      · intro index hindex
        cases hindex
      · exact iff_of_false (h.lock_ne (by simp [hthreadHeld, GetIndexPhase.locks])) Bool.false_ne_true
      · intro j _
        exact Iff.rfl
      · intro call since index bytes heq
        cases heq
  | requested _ requests => exact h.frame s.clock requests s.files
  | destroyed halive hunused => exact (h.destroyed hlimit halive hunused).2
  | changed hnew => exact h.frame s.clock s.requests _

/-! ## The loop of `Reserve` -/

/-- The slots with an index. -/
def indexedSlots (s : IndexCacheState) : Nat :=
  s.slots.entries.countP fun entry => (s.slotObjects entry.2).index.isSome

/-- The steps that a thread in `Reserve` can take at most. -/
def reserveRounds (i : Nat) (s : IndexCacheState) : Nat := (s.threads i).phase.roundsLeft s.indexedSlots

/-- Nothing is evicted only when no slot has an index. -/
theorem oldestIndexed_eq_none (h : s.oldestIndexed = none) {path : Text} {slot : Nat}
    (hslot : s.slots.lookup path = some slot) : (s.slotObjects slot).index = none := by
  have hempty := List.filter_eq_nil_iff.mp (List.argmin_eq_none.mp h) _ (mem_entries_of_lookup hslot)
  simpa using hempty

theorem oldestIndexed_eq_some {oldest : Sigma fun _ : Text => Nat} (h : s.oldestIndexed = some oldest) :
    oldest ∈ s.slots.entries ∧ (s.slotObjects oldest.2).index.isSome = true :=
  List.mem_filter.mp (List.argmin_mem h)

/-- An eviction leaves fewer slots with an index. -/
theorem indexedSlots_evict {oldest : Sigma fun _ : Text => Nat} (h : s.oldestIndexed = some oldest)
    (skipped : Bool) :
    (s.setSlot oldest.2 { s.slotObjects oldest.2 with index := none, skipped }).indexedSlots <
      s.indexedSlots := by
  obtain ⟨hmem, hsome⟩ := oldestIndexed_eq_some h
  apply countP_lt_countP _ hmem
  · change (Function.update s.slotObjects oldest.2 _ oldest.2).index.isSome = false
    rw [Function.update_self]
    rfl
  · exact hsome
  · intro entry _
    exact update_cases (P := fun slot (object : ShardSlot) =>
      object.index.isSome = true → (s.slotObjects slot).index.isSome = true)
      (fun hnone => by cases hnone) (fun _ _ => id) entry.2

@[simp] theorem reserveRounds_setPhase (s : IndexCacheState) (i : Nat) (phase : GetIndexPhase) :
    (s.setPhase i phase).reserveRounds i = phase.roundsLeft s.indexedSlots := by
  change (Function.update s.threads i ⟨phase, _⟩ i).phase.roundsLeft _ = _
  rw [Function.update_self]
  rfl

theorem reserveRounds_of_phase {phase : GetIndexPhase} (hphase : (s.threads i).phase = phase) :
    s.reserveRounds i = phase.roundsLeft s.indexedSlots := by
  rw [reserveRounds, hphase]

/-- **A step in `Reserve`**, of the thread that has the lock or of another one. -/
theorem BudgetInvariant.rounds (h : BudgetInvariant threads limit s) (hlock : s.lock = some i)
    {l : IndexCacheLabel} (hstep : IndexStep threads limit minRequests s l t) :
    t.reserveRounds i ≤ s.reserveRounds i ∧
      (l.thread = some i → t.reserveRounds i < s.reserveRounds i) := by
  have hlocks : (s.threads i).phase.locks = true := (h.locked i).mp hlock
  have hsame : ∀ {j}, (s.threads j).phase.locks = true → j = i := by
    intro j hj
    have hheld := (h.locked j).mpr hj
    rw [hlock] at hheld
    exact (Option.some.inj hheld).symm
  -- the other threads do not change the slots
  have hother : ∀ {j : Nat} {u : IndexCacheState}, (s.threads j).phase.locks = false →
      u.slots = s.slots → u.slotObjects = s.slotObjects → (∀ k ≠ j, u.threads k = s.threads k) →
      u.reserveRounds i ≤ s.reserveRounds i ∧ (some j = some i → u.reserveRounds i < s.reserveRounds i) := by
    intro j u hunlocked hslots hobjects hthreads
    have hne : i ≠ j := by
      rintro rfl
      rw [hlocks] at hunlocked
      cases hunlocked
    constructor
    · unfold reserveRounds indexedSlots
      rw [hthreads i hne, hslots, hobjects]
    · intro heq
      exact absurd (Option.some.inj heq).symm hne
  have hunlocked : ∀ {j : Nat} {phase : GetIndexPhase}, (s.threads j).phase = phase → phase.locks = false →
      (s.threads j).phase.locks = false := by
    intro j phase hphase hfalse
    rw [hphase]
    exact hfalse
  have hfree : ∀ {P : Prop}, s.lock = none → P := by
    intro P hnone
    rw [hnone] at hlock
    cases hlock
  have hmoved : ∀ {j : Nat} {phase next : GetIndexPhase}, (s.threads j).phase = phase →
      phase.locks = false → (s.setPhase j next).reserveRounds i ≤ s.reserveRounds i ∧
        (some j = some i → (s.setPhase j next).reserveRounds i < s.reserveRounds i) := by
    intro j phase next hphase hfalse
    exact hother (hunlocked hphase hfalse) rfl rfl fun k hk => Function.update_of_ne hk _ _
  cases hstep with
  | refused hthread => exact hother (hunlocked (by rw [hthread]) rfl) rfl rfl fun _ _ => rfl
  | called hthread => exact hmoved (by rw [hthread]) rfl
  | entered hnone _ => exact hfree hnone
  | fingerprinted hphase => exact hmoved hphase rfl
  | unopened hphase => exact hmoved hphase rfl
  | compared hnone _ => exact hfree hnone
  | @counted j rowCount since call hphase =>
      apply hother (hunlocked hphase rfl)
      all_goals unfold afterCount
      · split <;> rfl
      · split <;> rfl
      · intro k hk
        split <;> exact Function.update_of_ne hk _ _
  | locked hnone _ => exact hfree hnone
  | full hphase =>
      obtain rfl := hsame (by rw [hphase]; rfl)
      rw [reserveRounds_setPhase, reserveRounds_of_phase hphase]
      simp [GetIndexPhase.roundsLeft, LoadStage.roundsLeft]
  | room hphase hroom =>
      obtain rfl := hsame (by rw [hphase]; rfl)
      rw [reserveRounds_setPhase, reserveRounds_of_phase hphase]
      simp [GetIndexPhase.roundsLeft, LoadStage.roundsLeft]
  | @evicted j since index bytes call hphase =>
      obtain rfl := hsame (by rw [hphase]; rfl)
      rw [reserveRounds_of_phase hphase]
      unfold afterEvict
      split
      · rw [reserveRounds_setPhase]
        simp [GetIndexPhase.roundsLeft, LoadStage.roundsLeft]
      · rename_i oldest holdest
        have hfewer := indexedSlots_evict holdest true
        dsimp only at hfewer
        rw [reserveRounds_setPhase]
        simp only [GetIndexPhase.roundsLeft, LoadStage.roundsLeft]
        omega
  | granted hphase =>
      obtain rfl := hsame (by rw [hphase]; rfl)
      rw [afterGrant, reserveRounds_setPhase, reserveRounds_of_phase hphase]
      simp [GetIndexPhase.roundsLeft, LoadStage.roundsLeft]
  | unallocated hphase => exact hmoved hphase rfl
  | allocated hphase => exact hmoved hphase rfl
  | grew hphase => exact hmoved hphase rfl
  | loaded hphase => exact hmoved hphase rfl
  | rethrown hphase hstage => exact hmoved hphase (LoadStage.locks_of_unreserved hstage)
  | swallowed hphase hstage => exact hmoved hphase (LoadStage.locks_of_unreserved hstage)
  | verified hphase => exact hmoved hphase rfl
  | unverified hphase => exact hmoved hphase rfl
  | published hnone _ => exact hfree hnone
  | caught hnone _ => exact hfree hnone
  | dropped hthread =>
      exact hother (hunlocked (by rw [hthread]) rfl) rfl rfl fun k hk => Function.update_of_ne hk _ _
  | requested hthread _ => exact hother (hunlocked (by rw [hthread]) rfl) rfl rfl fun _ _ => rfl
  | destroyed _ _ => exact ⟨le_rfl, fun hnone => by cases hnone⟩
  | changed _ => exact ⟨le_rfl, fun hnone => by cases hnone⟩

/-- The thread that has the lock of `Reserve` can always go on. -/
theorem BudgetInvariant.progress (h : BudgetInvariant threads limit s) (hlock : s.lock = some i)
    (minRequests : Nat) :
    ∃ l t, l.thread = some i ∧ s.next threads limit minRequests l = some t := by
  have hlocks := (h.locked i).mp hlock
  cases hphase : (s.threads i).phase with
  | loading call since stage =>
      rw [hphase] at hlocks
      cases stage with
      | testing index bytes =>
          by_cases hfull : idxSub limit s.budgetBytes < bytes
          · exact ⟨.testRoom i, _, rfl, by simp only [next, hphase]; exact if_pos hfull⟩
          · exact ⟨.testRoom i, _, rfl, by simp only [next, hphase]; exact if_neg hfull⟩
      | evicting index bytes => exact ⟨.evictOldest i, _, rfl, by simp only [next, hphase]; rfl⟩
      | granting index bytes => exact ⟨.grant i, _, rfl, by simp only [next, hphase]; rfl⟩
      | _ => cases hlocks
  | _ =>
      rw [hphase] at hlocks
      cases hlocks

end Steps

end IndexCacheState

/-! ## All runs -/

/-- **The budget in a state**: it is exact and bounded, and `Reserve` ends. -/
structure IndexBudgetExact (T : TransitionSystem IndexCacheState IndexCacheLabel) (threads limit : Nat)
    (s : IndexCacheState) : Prop where
  /-- The budget is what the objects that are alive have reserved. -/
  total : s.budgetBytes = ∑ index ∈ s.alive, s.bytes index
  /-- What a slot, a load or a reader refers to is alive. -/
  alive : ∀ index, s.IndexInUse threads index → index ∈ s.alive
  bound : s.budgetBytes ≤ limit
  /-- The difference in `Reserve` does not underflow. -/
  room : idxSub limit s.budgetBytes + s.budgetBytes = limit
  /-- The subtraction of a destructor does not underflow. -/
  destroyed : ∀ index t, T.step s (.destroyIndex index) = some t →
    s.bytes index ≤ s.budgetBytes ∧ t.budgetBytes + s.bytes index = s.budgetBytes
  /-- The addition of a reservation does not overflow. -/
  granted : ∀ i t, T.step s (.grant i) = some t → s.budgetBytes ≤ t.budgetBytes ∧ t.budgetBytes ≤ limit
  /-- The thread in `Reserve` can go on, -/
  progress : ∀ i, s.lock = some i → ∃ l t, l.thread = some i ∧ T.step s l = some t
  /-- and takes a bounded number of steps there, whatever the others do meanwhile. -/
  rounds : ∀ i ls t, T.RunWhile (fun u => u.lock = some i) s ls t →
    ls.countP (fun l => l.thread = some i) ≤ 2 * s.indexedSlots + 2
  /-- When it gives up, no slot has an index. -/
  gaveUp : ∀ i t, T.step s (.evictOldest i) = some t → t.lock = none →
    ∀ path slot, s.slots.lookup path = some slot → (s.slotObjects slot).index = none

section Runs

variable {threads maxBytes minRequests : Nat} {files : Text → FileHistory} {s t : IndexCacheState}

theorem indexLimit_lt (maxBytes : Nat) : min maxBytes maxIndexBytes < 2 ^ 64 :=
  (Nat.min_le_right _ _).trans_lt (by decide)

/-- A step of the system is a step of a thread of the scan. -/
theorem indexCacheSystem_step {l : IndexCacheLabel}
    (h : (indexCacheSystem threads maxBytes minRequests files).step s l = some t) :
    l.thread.all (· < threads) = true ∧
      IndexCacheState.IndexStep threads (min maxBytes maxIndexBytes) minRequests s l t := by
  change (if l.thread.all (· < threads) then s.next threads (min maxBytes maxIndexBytes) minRequests l
    else none) = some t at h
  split at h
  · rename_i hthread
    exact ⟨hthread, IndexCacheState.next_cases h⟩
  · cases h

theorem reachable_budgetInvariant (h : (indexCacheSystem threads maxBytes minRequests files).Reachable s) :
    IndexCacheState.BudgetInvariant threads (min maxBytes maxIndexBytes) s := by
  apply h.invariant
  · exact IndexCacheState.initial_budgetInvariant threads _ files
  · intro u l t _ hu hstep
    have hcases := indexCacheSystem_step hstep
    exact hu.step (indexLimit_lt maxBytes) hcases.1 hcases.2

/-- **The memory budget of the indexes is exact and bounded.** -/
theorem indexBudget_exact (h : (indexCacheSystem threads maxBytes minRequests files).Reachable s) :
    IndexBudgetExact (indexCacheSystem threads maxBytes minRequests files) threads
      (min maxBytes maxIndexBytes) s := by
  have hinv := reachable_budgetInvariant h
  have hlimit := indexLimit_lt maxBytes
  refine ⟨hinv.total, hinv.inUse, hinv.bound, ?_, ?_, ?_, ?_, ?_, ?_⟩
  · rw [idxSub_eq hinv.bound hlimit]
    exact Nat.sub_add_cancel hinv.bound
  · intro index t hstep
    cases (indexCacheSystem_step hstep).2 with
    | destroyed halive hunused =>
        have hreturned := (hinv.destroyed hlimit halive hunused).1
        exact ⟨by omega, hreturned⟩
  · intro i t hstep
    cases (indexCacheSystem_step hstep).2 with
    | granted hphase =>
        obtain ⟨hbudget, hnext⟩ := hinv.granted hlimit hphase
        exact ⟨by omega, hnext.bound⟩
  · intro i hlock
    obtain ⟨l, t, hl, hstep⟩ := hinv.progress hlock minRequests
    have hi : i < threads := by
      apply hinv.lt_of_inside
      intro houtside
      have hlocks := (hinv.locked i).mp hlock
      rw [houtside] at hlocks
      cases hlocks
    refine ⟨l, t, hl, ?_⟩
    change (if l.thread.all (· < threads) then _ else none) = some t
    rw [hl, if_pos (by simpa using hi)]
    exact hstep
  · intro i ls t hrun
    have hcount : ls.countP (fun l => l.thread = some i) ≤ s.reserveRounds i := by
      apply hrun.countP_le (IndexCacheState.reserveRounds i) _ hinv
      intro u l v hu hlock hstep
      have hcases := indexCacheSystem_step hstep
      have hrounds := hu.rounds hlock hcases.2
      exact ⟨hu.step hlimit hcases.1 hcases.2, hrounds.1, fun hown => hrounds.2 (by simpa using hown)⟩
    exact hcount.trans (GetIndexPhase.roundsLeft_le _ _)
  · intro i t hstep hlock path slot hslot
    cases (indexCacheSystem_step hstep).2 with
    | @evicted _ since index bytes call hphase =>
        have hheld : s.lock = some i := (hinv.locked i).mpr (by rw [hphase]; rfl)
        unfold IndexCacheState.afterEvict at hlock
        split at hlock
        · rename_i hnone
          exact IndexCacheState.oldestIndexed_eq_none hnone hslot
        · change s.lock = none at hlock
          rw [hheld] at hlock
          cases hlock

end Runs

/-- A file that is not changed. -/
def shardHistory : FileHistory where
  fingerprints := [⟨64, 0, []⟩]
  ne_nil := by simp
  nodup := by simp

/-- The first and the second visit of a file, and the third one, which loads an index of two rows. -/
def loadSchedule (thread : Nat) (path : Text) : List IndexCacheLabel :=
  [.callGetIndex thread path false, .lockEnter thread, .callGetIndex thread path false, .lockEnter thread,
    .callGetIndex thread path false, .lockEnter thread, .readFingerprint thread true, .lockCompare thread,
    .countRows thread 2, .lockReserve thread, .testRoom thread, .grant thread, .allocate thread false,
    .readRows thread false, .readFingerprint thread true, .lockPublish thread]

/-- The budget after a load, in a lookup with room for two rows. -/
theorem loadSchedule_budget :
    ∃ s, (indexCacheSystem 2 64 0 fun _ => shardHistory).Reachable s ∧ s.budgetBytes = 64 ∧
      IndexBudgetExact (indexCacheSystem 2 64 0 fun _ => shardHistory) 2 (min 64 maxIndexBytes) s := by
  obtain ⟨s, hs, hbytes⟩ := TransitionSystem.exists_reachable_of_replay
    (indexCacheSystem 2 64 0 fun _ => shardHistory) (loadSchedule 0 "data".toList)
    (fun s => s.budgetBytes == 64) (by decide +kernel)
  exact ⟨s, hs, by simpa using hbytes, indexBudget_exact hs⟩

end DuckdbLerobot.Storage
