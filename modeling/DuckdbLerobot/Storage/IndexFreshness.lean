import DuckdbLerobot.Storage.IndexBudget

/-!
# Fresh timestamp indexes

In every state of every run, an index that `GetIndex` has returned was built while the file had the version that
this call has observed, one thread at most loads for a slot and clears `loading` when it leaves, and what was loaded
for a slot that is not in the map any more is not published (`indexes_fresh`).
-/

set_option autoImplicit false

namespace DuckdbLerobot.Storage

open DuckdbLerobot.Library DuckdbLerobot.Path

/-! ## Versions of a file -/

namespace FileHistory

variable {file : FileHistory} {version version' : Nat} {fingerprint : FileFingerprint}

theorem getElem?_version (file : FileHistory) : file.fingerprints[file.version]? = some file.current := by
  rw [version, ← List.getLast?_eq_getElem?]
  exact List.getLast?_eq_some_getLast file.ne_nil

theorem le_version (h : file.fingerprints[version]? = some fingerprint) : version ≤ file.version := by
  have hlt := (List.getElem?_eq_some_iff.mp h).1
  exact Nat.le_sub_one_of_lt hlt

/-- A fingerprint is the one of one version. -/
theorem version_unique (h : file.fingerprints[version]? = some fingerprint)
    (h' : file.fingerprints[version']? = some fingerprint) : version = version' :=
  (List.getElem?_inj (List.getElem?_eq_some_iff.mp h).1 file.nodup).mp (h.trans h'.symm)

/-- The versions so far are kept. -/
theorem getElem?_change (hnew : fingerprint ∉ file.fingerprints) {fingerprint' : FileFingerprint}
    (h : file.fingerprints[version]? = some fingerprint') :
    (file.change fingerprint hnew).fingerprints[version]? = some fingerprint' := by
  change (file.fingerprints ++ [fingerprint])[version]? = some fingerprint'
  rw [List.getElem?_append_left (List.getElem?_eq_some_iff.mp h).1]
  exact h

theorem version_le_change (hnew : fingerprint ∉ file.fingerprints) :
    file.version ≤ (file.change fingerprint hnew).version := by
  simp [version, change]

end FileHistory

namespace IndexCacheState

/-! ## The invariant -/

/-- An index was built while the file had some version, with some fingerprint. -/
structure BuiltAt (s : IndexCacheState) (path : Text) (fingerprint : FileFingerprint) (version : Nat)
    (index : LoadedIndex) : Prop where
  fingerprint : (s.files path).fingerprints[version]? = some fingerprint
  builtFrom : index.builtFrom = version
  builtTo : index.builtTo = version

/-- The slot of a call is one of its path, and its fingerprint the one that it has observed. -/
structure CallAt (s : IndexCacheState) (call : IndexCall) : Prop where
  slot_lt : call.slot < s.slotCount
  path : (s.slotObjects call.slot).path = call.path
  fingerprint : (s.files call.path).fingerprints[call.observed]? = some call.fingerprint

/-- A call that loads: its slot has its fingerprint, and no index. -/
structure LoaderAt (s : IndexCacheState) (call : IndexCall) : Prop extends CallAt s call where
  marked : (s.slotObjects call.slot).fingerprint = some call.fingerprint
  empty : (s.slotObjects call.slot).index = none

/-- What holds of a thread in a phase. -/
def PhaseFresh (s : IndexCacheState) : GetIndexPhase → Prop
  | .outside => True
  | .entering _ => True
  | .fingerprinting path slot => slot < s.slotCount ∧ (s.slotObjects slot).path = path
  | .comparing call => s.CallAt call
  | .loading call since _ => s.LoaderAt call ∧ call.observed ≤ since ∧ since ≤ (s.files call.path).version
  | .verifying call index => s.LoaderAt call ∧ ∀ loaded, index = some loaded →
      call.observed ≤ loaded.builtFrom ∧ loaded.builtFrom ≤ loaded.builtTo ∧
        loaded.builtTo ≤ (s.files call.path).version
  | .publishing call index unchanged => s.LoaderAt call ∧ (unchanged = true → ∀ loaded, index = some loaded →
      s.BuiltAt call.path call.fingerprint call.observed loaded)
  | .catching call => s.LoaderAt call

/-- What holds of a thread: while it is in a call it has no index. -/
structure ThreadFresh (s : IndexCacheState) (thread : IndexThread) : Prop where
  phase : s.PhaseFresh thread.phase
  held : ∀ held, thread.held = some held →
    s.BuiltAt held.path held.fingerprint held.observed held.index
  inside : thread.phase ≠ .outside → thread.held = none

/-- The index of a slot was built at the fingerprint of the slot. -/
def SlotFresh (s : IndexCacheState) (slot : ShardSlot) : Prop :=
  ∀ index, slot.index = some index →
    ∃ fingerprint version, slot.fingerprint = some fingerprint ∧ s.BuiltAt slot.path fingerprint version index

/-- The slot that a thread loads for. -/
def loads (s : IndexCacheState) (i : Nat) : Option Nat := (s.threads i).phase.loader.map IndexCall.slot

/-- **The invariant.** -/
structure FreshInvariant (s : IndexCacheState) : Prop where
  tracked : ∀ path slot, s.slots.lookup path = some slot →
    slot < s.slotCount ∧ (s.slotObjects slot).path = path
  size : s.slots.entries.length ≤ maxTrackedShards
  slots : ∀ slot, s.SlotFresh (s.slotObjects slot)
  threads : ∀ i, s.ThreadFresh (s.threads i)
  loading : ∀ slot, (s.slotObjects slot).loading = true ↔ ∃ i, s.loads i = some slot
  single : ∀ i j slot, s.loads i = some slot → s.loads j = some slot → i = j

theorem initial_freshInvariant (files : Text → FileHistory) : FreshInvariant { files } where
  tracked path slot h := by cases h
  size := Nat.zero_le _
  slots slot index h := by cases h
  threads i := ⟨trivial, fun _ h => (by cases h), fun h => absurd rfl h⟩
  loading slot := by simp [loads, GetIndexPhase.loader]
  single i j slot h := by cases h

section Steps

variable {s t : IndexCacheState} {i : Nat} {thread : IndexThread} {path : Text} {call : IndexCall}

theorem PhaseFresh.loader {phase : GetIndexPhase} (h : s.PhaseFresh phase) (hloader : phase.loader = some call) :
    s.LoaderAt call := by
  cases phase with
  | loading call' _ _ => cases hloader; exact h.1
  | verifying call' _ => cases hloader; exact h.1
  | publishing call' _ _ => cases hloader; exact h.1
  | catching call' => cases hloader; exact h
  | _ => cases hloader

theorem loads_lt (h : FreshInvariant s) {slot : Nat} (hloads : s.loads i = some slot) : slot < s.slotCount := by
  obtain ⟨call, hcall, rfl⟩ := Option.map_eq_some_iff.mp hloads
  exact ((h.threads i).phase.loader hcall).slot_lt

/-! ## What later states keep -/

/-- What of a state the threads rely on: slots and versions are not taken back. -/
structure Extends (s t : IndexCacheState) : Prop where
  slotCount : s.slotCount ≤ t.slotCount
  path : ∀ slot < s.slotCount, (t.slotObjects slot).path = (s.slotObjects slot).path
  version : ∀ path, (s.files path).version ≤ (t.files path).version
  fingerprint : ∀ path (version : Nat) fingerprint, (s.files path).fingerprints[version]? = some fingerprint →
    (t.files path).fingerprints[version]? = some fingerprint

theorem Extends.trans {u : IndexCacheState} (h : Extends s t) (h' : Extends t u) : Extends s u where
  slotCount := h.slotCount.trans h'.slotCount
  path slot hlt := (h'.path slot (hlt.trans_le h.slotCount)).trans (h.path slot hlt)
  version path := (h.version path).trans (h'.version path)
  fingerprint path version fingerprint hfound := h'.fingerprint _ _ _ (h.fingerprint _ _ _ hfound)

theorem BuiltAt.extend {fingerprint : FileFingerprint} {version : Nat} {index : LoadedIndex}
    (h : s.BuiltAt path fingerprint version index) (hext : Extends s t) :
    t.BuiltAt path fingerprint version index :=
  ⟨hext.fingerprint _ _ _ h.fingerprint, h.builtFrom, h.builtTo⟩

theorem CallAt.extend (h : s.CallAt call) (hext : Extends s t) : t.CallAt call where
  slot_lt := h.slot_lt.trans_le hext.slotCount
  path := (hext.path _ h.slot_lt).trans h.path
  fingerprint := hext.fingerprint _ _ _ h.fingerprint

/-- A slot that is loaded for is not changed by others. -/
theorem LoaderAt.extend (h : s.LoaderAt call) (hext : Extends s t)
    (hmarked : (t.slotObjects call.slot).fingerprint = (s.slotObjects call.slot).fingerprint)
    (hempty : (t.slotObjects call.slot).index = none) : t.LoaderAt call where
  toCallAt := h.toCallAt.extend hext
  marked := hmarked.trans h.marked
  empty := hempty

theorem ThreadFresh.extend (h : s.ThreadFresh thread) (hext : Extends s t)
    (hloader : ∀ call, thread.phase.loader = some call →
      (t.slotObjects call.slot).fingerprint = (s.slotObjects call.slot).fingerprint ∧
        (t.slotObjects call.slot).index = none) : t.ThreadFresh thread := by
  refine ⟨?_, fun held hheld => (h.held held hheld).extend hext, h.inside⟩
  obtain ⟨hphase, -, -⟩ := h
  cases hthread : thread.phase with
  | outside => trivial
  | entering path => trivial
  | fingerprinting path slot =>
      rw [hthread] at hphase
      exact ⟨hphase.1.trans_le hext.slotCount, (hext.path _ hphase.1).trans hphase.2⟩
  | comparing call =>
      rw [hthread] at hphase
      exact CallAt.extend hphase hext
  | loading call since stage =>
      rw [hthread] at hphase hloader
      obtain ⟨hmarked, hempty⟩ := hloader call rfl
      exact ⟨hphase.1.extend hext hmarked hempty, hphase.2.1, hphase.2.2.trans (hext.version _)⟩
  | verifying call index =>
      rw [hthread] at hphase hloader
      obtain ⟨hmarked, hempty⟩ := hloader call rfl
      refine ⟨hphase.1.extend hext hmarked hempty, ?_⟩
      intro loaded hloaded
      obtain ⟨hfrom, hle, hto⟩ := hphase.2 loaded hloaded
      exact ⟨hfrom, hle, hto.trans (hext.version _)⟩
  | publishing call index unchanged =>
      rw [hthread] at hphase hloader
      obtain ⟨hmarked, hempty⟩ := hloader call rfl
      exact ⟨hphase.1.extend hext hmarked hempty, fun hunchanged loaded hloaded =>
        (hphase.2 hunchanged loaded hloaded).extend hext⟩
  | catching call =>
      rw [hthread] at hphase hloader
      obtain ⟨hmarked, hempty⟩ := hloader call rfl
      exact LoaderAt.extend hphase hext hmarked hempty

theorem SlotFresh.extend {slot : ShardSlot} (h : s.SlotFresh slot) (hext : Extends s t) : t.SlotFresh slot := by
  intro index hindex
  obtain ⟨fingerprint, version, hfingerprint, hbuilt⟩ := h index hindex
  exact ⟨fingerprint, version, hfingerprint, hbuilt.extend hext⟩

theorem extends_setSlot {slot : Nat} {next : ShardSlot} (hpath : next.path = (s.slotObjects slot).path) :
    Extends s (s.setSlot slot next) where
  slotCount := le_rfl
  path other _ := update_cases (P := fun other (object : ShardSlot) =>
    object.path = (s.slotObjects other).path) hpath (fun _ _ => rfl) other
  version _ := le_rfl
  fingerprint _ _ _ := id

/-! ## Kinds of steps -/

/-- The invariant is about slots, files and threads. -/
theorem FreshInvariant.frame (h : FreshInvariant s) (lock : Option Nat) (clock requests : Nat)
    (bytes : Nat → Nat) (alive : Finset Nat) (indexCount budgetBytes : Nat) :
    FreshInvariant { s with lock, clock, requests, bytes, alive, indexCount, budgetBytes } := by
  have hext : Extends s { s with lock, clock, requests, bytes, alive, indexCount, budgetBytes } :=
    ⟨le_rfl, fun _ _ => rfl, fun _ => le_rfl, fun _ _ _ => id⟩
  refine ⟨h.tracked, h.size, fun slot => (h.slots slot).extend hext, ?_, h.loading, h.single⟩
  intro i
  apply (h.threads i).extend hext
  intro call hcall
  exact ⟨rfl, ((h.threads i).phase.loader hcall).empty⟩

/-- A thread moves on, and loads for the slot for which it did. -/
theorem FreshInvariant.moved (h : FreshInvariant s) (hthread : s.ThreadFresh thread)
    (hloads : thread.phase.loader.map IndexCall.slot = s.loads i) :
    FreshInvariant (s.setThread i thread) := by
  have hall : ∀ j, (s.setThread i thread).loads j = s.loads j := by
    intro j
    exact update_cases (P := fun j (party : IndexThread) => party.phase.loader.map IndexCall.slot = s.loads j)
      hloads (fun _ _ => rfl) j
  have hext : Extends s (s.setThread i thread) := ⟨le_rfl, fun _ _ => rfl, fun _ => le_rfl, fun _ _ _ => id⟩
  refine ⟨h.tracked, h.size, fun slot => (h.slots slot).extend hext, ?_, ?_, ?_⟩
  · intro j
    have hfresh : s.ThreadFresh (Function.update s.threads i thread j) :=
      update_cases (P := fun _ (party : IndexThread) => s.ThreadFresh party) hthread
        (fun j _ => h.threads j) j
    apply hfresh.extend hext
    intro call hcall
    exact ⟨rfl, (hfresh.phase.loader hcall).empty⟩
  · intro slot
    simp only [hall]
    exact h.loading slot
  · intro j k slot hj hk
    rw [hall] at hj hk
    exact h.single j k slot hj hk

/-- A slot is used or evicted: its path, its fingerprint and `loading` stay. -/
theorem FreshInvariant.touched (h : FreshInvariant s) (slot : Nat) {next : ShardSlot}
    (hpath : next.path = (s.slotObjects slot).path)
    (hfingerprint : next.fingerprint = (s.slotObjects slot).fingerprint)
    (hloading : next.loading = (s.slotObjects slot).loading)
    (hindex : next.index = (s.slotObjects slot).index ∨ next.index = none) :
    FreshInvariant (s.setSlot slot next) := by
  have hext := extends_setSlot hpath
  have hfresh : s.SlotFresh next := by
    intro index hsome
    rcases hindex with hindex | hindex
    · rw [hpath, hfingerprint]
      exact h.slots slot index (hindex.symm.trans hsome)
    · rw [hindex] at hsome
      cases hsome
  refine ⟨?_, h.size, ?_, ?_, ?_, h.single⟩
  · intro path other hlookup
    obtain ⟨hlt, heq⟩ := h.tracked path other hlookup
    exact ⟨hlt, (hext.path other hlt).trans heq⟩
  · intro other
    exact (update_cases (P := fun _ (object : ShardSlot) => s.SlotFresh object) hfresh
      (fun other _ => h.slots other) other).extend hext
  · intro j
    apply (h.threads j).extend hext
    intro call hcall
    have hempty := ((h.threads j).phase.loader hcall).empty
    refine update_cases (P := fun other (object : ShardSlot) => (s.slotObjects other).index = none →
      object.fingerprint = (s.slotObjects other).fingerprint ∧ object.index = none) ?_ ?_ call.slot hempty
    · intro hnone
      rw [hnone, or_self_iff] at hindex
      exact ⟨hfingerprint, hindex⟩
    · intro other _ hnone
      exact ⟨rfl, hnone⟩
  · intro other
    exact update_cases (P := fun other (object : ShardSlot) =>
      object.loading = true ↔ ∃ i, s.loads i = some other)
      (by rw [hloading]; exact h.loading slot) (fun other _ => h.loading other) other

/-- A thread writes a slot for which no other thread loads. -/
theorem FreshInvariant.written (h : FreshInvariant s) {slot : Nat} {next : ShardSlot}
    (hpath : next.path = (s.slotObjects slot).path) (hfresh : s.SlotFresh next)
    (hothers : ∀ j ≠ i, s.loads j ≠ some slot) (hbefore : ∀ other, s.loads i = some other → other = slot)
    (hafter : thread.phase.loader.map IndexCall.slot = if next.loading then some slot else none)
    (hthread : (s.setSlot slot next).ThreadFresh thread) :
    FreshInvariant ((s.setSlot slot next).setThread i thread) := by
  have hext := extends_setSlot hpath
  have hnext : Extends (s.setSlot slot next) ((s.setSlot slot next).setThread i thread) :=
    ⟨le_rfl, fun _ _ => rfl, fun _ => le_rfl, fun _ _ _ => id⟩
  have hall : ∀ j other, ((s.setSlot slot next).setThread i thread).loads j = some other ↔
      j = i ∧ other = slot ∧ next.loading = true ∨ j ≠ i ∧ s.loads j = some other := by
    intro j other
    change (Function.update s.threads i thread j).phase.loader.map IndexCall.slot = some other ↔ _
    by_cases hj : j = i
    · subst hj
      rw [Function.update_self, hafter]
      by_cases hloading : next.loading = true <;> simp [hloading, eq_comm]
    · rw [Function.update_of_ne hj]
      simp [hj, loads]
  refine ⟨?_, h.size, ?_, ?_, ?_, ?_⟩
  · intro path other hlookup
    obtain ⟨hlt, heq⟩ := h.tracked path other hlookup
    exact ⟨hlt, (hext.path other hlt).trans heq⟩
  · intro other
    exact (update_cases (P := fun _ (object : ShardSlot) => s.SlotFresh object) hfresh
      (fun other _ => h.slots other) other).extend (hext.trans hnext)
  · intro j
    refine update_cases (P := fun _ (party : IndexThread) =>
      ((s.setSlot slot next).setThread i thread).ThreadFresh party) ?_ ?_ j
    · apply hthread.extend hnext
      intro call hcall
      exact ⟨rfl, (hthread.phase.loader hcall).empty⟩
    · -- another thread loads for another slot
      intro j hj
      apply (h.threads j).extend (hext.trans hnext)
      intro call hcall
      have hne : call.slot ≠ slot := by
        rintro rfl
        exact hothers j hj (by rw [loads, hcall]; rfl)
      change (Function.update s.slotObjects slot next call.slot).fingerprint = _ ∧
        (Function.update s.slotObjects slot next call.slot).index = none
      rw [Function.update_of_ne hne]
      exact ⟨rfl, ((h.threads j).phase.loader hcall).empty⟩
  · intro other
    simp only [hall]
    refine update_cases (P := fun other (object : ShardSlot) => object.loading = true ↔
      ∃ j, j = i ∧ other = slot ∧ next.loading = true ∨ j ≠ i ∧ s.loads j = some other) ?_ ?_ other
    · constructor
      · intro hloading
        exact ⟨i, .inl ⟨rfl, rfl, hloading⟩⟩
      · rintro ⟨j, ⟨-, -, hloading⟩ | ⟨hj, hloads⟩⟩
        · exact hloading
        · exact absurd hloads (hothers j hj)
    · intro other hother
      rw [h.loading other]
      constructor
      · rintro ⟨j, hloads⟩
        refine ⟨j, .inr ⟨?_, hloads⟩⟩
        rintro rfl
        exact hother (hbefore other hloads)
      · rintro ⟨j, ⟨-, heq, -⟩ | ⟨-, hloads⟩⟩
        · exact absurd heq hother
        · exact ⟨j, hloads⟩
  · intro j k other hj hk
    rw [hall] at hj hk
    rcases hj with ⟨rfl, rfl, -⟩ | ⟨hji, hj⟩ <;> rcases hk with ⟨rfl, heq, -⟩ | ⟨hki, hk⟩
    · rfl
    · exact absurd hk (hothers k hki)
    · subst heq
      exact absurd hj (hothers j hji)
    · exact h.single j k other hj hk

/-- A slot is made and takes a place in the map. -/
theorem FreshInvariant.newSlot (h : FreshInvariant s) {slots : AList fun _ : Text => Nat} {next : ShardSlot}
    (hslots : ∀ path slot, slots.lookup path = some slot →
      s.slots.lookup path = some slot ∨ slot = s.slotCount ∧ next.path = path)
    (hsize : slots.entries.length ≤ maxTrackedShards) (hindex : next.index = none)
    (hloading : next.loading = false) :
    FreshInvariant { s with
      slots
      slotObjects := Function.update s.slotObjects s.slotCount next
      slotCount := s.slotCount + 1 } := by
  have hold : ∀ slot < s.slotCount, Function.update s.slotObjects s.slotCount next slot = s.slotObjects slot :=
    fun slot hlt => Function.update_of_ne hlt.ne _ _
  have hext : Extends s { s with
      slots
      slotObjects := Function.update s.slotObjects s.slotCount next
      slotCount := s.slotCount + 1 } :=
    ⟨Nat.le_succ _, fun slot hlt => congrArg ShardSlot.path (hold slot hlt), fun _ => le_rfl, fun _ _ _ => id⟩
  refine ⟨?_, hsize, ?_, ?_, ?_, h.single⟩
  · intro path slot hlookup
    rcases hslots path slot hlookup with hlookup | ⟨rfl, hpath⟩
    · obtain ⟨hlt, heq⟩ := h.tracked path slot hlookup
      exact ⟨hlt.trans (Nat.lt_succ_self _), (hext.path slot hlt).trans heq⟩
    · refine ⟨Nat.lt_succ_self _, ?_⟩
      change (Function.update s.slotObjects s.slotCount next s.slotCount).path = path
      rw [Function.update_self]
      exact hpath
  · intro slot
    refine (update_cases (P := fun _ (object : ShardSlot) => s.SlotFresh object) ?_
      (fun slot _ => h.slots slot) slot).extend hext
    intro index hsome
    rw [hindex] at hsome
    cases hsome
  · intro j
    apply (h.threads j).extend hext
    intro call hcall
    have hloader := (h.threads j).phase.loader hcall
    change (Function.update s.slotObjects s.slotCount next call.slot).fingerprint = _ ∧
      (Function.update s.slotObjects s.slotCount next call.slot).index = none
    rw [hold _ hloader.slot_lt]
    exact ⟨rfl, hloader.empty⟩
  · intro slot
    refine update_cases (P := fun slot (object : ShardSlot) =>
      object.loading = true ↔ ∃ i, s.loads i = some slot) ?_ (fun slot _ => h.loading slot) slot
    rw [hloading]
    refine iff_of_false Bool.false_ne_true ?_
    rintro ⟨j, hloads⟩
    exact (loads_lt h hloads).ne rfl

/-- A file is replaced. -/
theorem FreshInvariant.changed (h : FreshInvariant s) {fingerprint : FileFingerprint}
    (hnew : fingerprint ∉ (s.files path).fingerprints) :
    FreshInvariant { s with files := Function.update s.files path ((s.files path).change fingerprint hnew) } := by
  have hext : Extends s
      { s with files := Function.update s.files path ((s.files path).change fingerprint hnew) } := by
    refine ⟨le_rfl, fun _ _ => rfl, ?_, ?_⟩
    · intro other
      by_cases hother : other = path
      · subst hother
        change (s.files other).version ≤ (Function.update s.files other _ other).version
        rw [Function.update_self]
        exact FileHistory.version_le_change hnew
      · change (s.files other).version ≤ (Function.update s.files path _ other).version
        rw [Function.update_of_ne hother]
    · intro other version found hfound
      by_cases hother : other = path
      · subst hother
        change (Function.update s.files other _ other).fingerprints[version]? = some found
        rw [Function.update_self]
        exact FileHistory.getElem?_change hnew hfound
      · change (Function.update s.files path _ other).fingerprints[version]? = some found
        rw [Function.update_of_ne hother]
        exact hfound
  refine ⟨h.tracked, h.size, fun slot => (h.slots slot).extend hext, ?_, h.loading, h.single⟩
  intro i
  apply (h.threads i).extend hext
  intro call hcall
  exact ⟨rfl, ((h.threads i).phase.loader hcall).empty⟩

/-! ## The lock sections -/

/-- At `MAX_TRACKED_SHARDS` a slot goes. -/
theorem length_slotsWithRoom (hsize : s.slots.entries.length ≤ maxTrackedShards) :
    s.slotsWithRoom.entries.length < maxTrackedShards := by
  unfold slotsWithRoom
  split
  · rename_i hfull
    split
    · rename_i oldest holdest
      have hmem := List.argmin_mem holdest
      have hlength := (entries_perm_of_lookup (lookup_of_mem_entries hmem)).length_eq
      rw [List.length_cons] at hlength
      omega
    · rename_i hnone
      rw [List.argmin_eq_none.mp hnone] at hfull
      cases hfull
  · omega

theorem length_entries_insert_le (slots : AList fun _ : Text => Nat) (path : Text) (slot : Nat) :
    (slots.insert path slot).entries.length ≤ slots.entries.length + 1 := by
  rw [AList.entries_insert, List.length_cons]
  exact Nat.succ_le_succ (List.kerase_sublist _ _).length_le

theorem lookup_slotsWithRoom {slot : Nat} (h : s.slotsWithRoom.lookup path = some slot) :
    s.slots.lookup path = some slot :=
  lookup_of_mem_entries (mem_slotsWithRoom (mem_entries_of_lookup h))

theorem FreshInvariant.found (h : FreshInvariant s) (path : Text) : FreshInvariant (s.findSlot path).2 := by
  unfold findSlot
  split
  · exact h
  · apply h.newSlot
    · intro other slot hlookup
      by_cases hother : other = path
      · subst hother
        rw [AList.lookup_insert] at hlookup
        exact .inr ⟨(Option.some.inj hlookup).symm, rfl⟩
      · rw [AList.lookup_insert_ne hother] at hlookup
        exact .inl (lookup_slotsWithRoom hlookup)
    · exact (length_entries_insert_le _ _ _).trans (length_slotsWithRoom h.size)
    · rfl
    · rfl

/-- The first lock section. -/
theorem FreshInvariant.entered (h : FreshInvariant s) (hphase : (s.threads i).phase = .entering path)
    (minRequests : Nat) : FreshInvariant (s.afterEnter minRequests i path) := by
  have hlookup := lookup_findSlot s path
  have hthread : (s.findSlot path).2.threads i = s.threads i := by rw [findSlot_threads]
  have hfound := h.found path
  have hheld : (s.threads i).held = none := (h.threads i).inside (by simp [hphase])
  unfold afterEnter
  generalize s.findSlot path = found at hlookup hthread hfound
  have hvisited : FreshInvariant (found.2.visitSlot found.1) :=
    (hfound.frame found.2.lock (found.2.clock + 1) found.2.requests found.2.bytes found.2.alive
      found.2.indexCount found.2.budgetBytes).touched found.1 rfl rfl rfl (.inl rfl)
  have hnone : ((found.2.visitSlot found.1).threads i).held = none := by
    change (found.2.threads i).held = none
    rw [hthread]
    exact hheld
  have hloads : (found.2.visitSlot found.1).loads i = none := by
    change ((found.2.threads i).phase.loader.map IndexCall.slot) = none
    rw [hthread, hphase]
    rfl
  have hfresh : ∀ {phase : GetIndexPhase}, (found.2.visitSlot found.1).PhaseFresh phase →
      phase.loader = none → FreshInvariant ((found.2.visitSlot found.1).setPhase i phase) := by
    intro phase hphaseFresh hloader
    apply hvisited.moved
    · refine ⟨hphaseFresh, ?_, fun _ => hnone⟩
      intro held hsome
      rw [hnone] at hsome
      cases hsome
    · rw [hloader, hloads]
      rfl
  dsimp only
  split
  · exact hfresh trivial rfl
  · exact hfresh (hvisited.tracked path found.1 hlookup) rfl

/-- A call that ends, or has not begun to load, without an index. -/
theorem FreshInvariant.quiet (h : FreshInvariant s) (hinside : (s.threads i).phase ≠ .outside)
    (hloads : s.loads i = none) {phase : GetIndexPhase} (hphase : s.PhaseFresh phase)
    (hloader : phase.loader = none) : FreshInvariant (s.setPhase i phase) := by
  have hnone := (h.threads i).inside hinside
  apply h.moved
  · refine ⟨hphase, ?_, fun _ => hnone⟩
    intro held hsome
    rw [hnone] at hsome
    cases hsome
  · rw [hloader, hloads]
    rfl

/-- The second lock section. -/
theorem FreshInvariant.compared (h : FreshInvariant s) (hphase : (s.threads i).phase = .comparing call) :
    FreshInvariant (s.afterCompare i call) := by
  have hinside : (s.threads i).phase ≠ .outside := by simp [hphase]
  have hloads : s.loads i = none := by simp [loads, hphase, GetIndexPhase.loader]
  have hcall : s.CallAt call := by
    have hfresh := (h.threads i).phase
    rw [hphase] at hfresh
    exact hfresh
  unfold afterCompare
  dsimp only
  split
  · exact h.quiet hinside hloads trivial rfl
  · rename_i hcurrent
    obtain ⟨hlookup, hfree⟩ := not_or.mp hcurrent
    rw [not_not] at hlookup
    split
    · -- the slot is replaced, and has neither an index nor a loader
      have hreplaced : FreshInvariant (s.replaceSlot call) := by
        apply h.newSlot
        · intro path slot hslot
          by_cases hpath : path = call.path
          · subst hpath
            rw [AList.lookup_insert] at hslot
            exact .inr ⟨(Option.some.inj hslot).symm, rfl⟩
          · rw [AList.lookup_insert_ne hpath] at hslot
            exact .inl hslot
        · have hperm := (entries_perm_of_lookup hlookup).length_eq
          have hsize := h.size
          rw [List.length_cons] at hperm
          rw [AList.entries_insert, List.length_cons]
          change (s.slots.erase call.path).entries.length + 1 ≤ maxTrackedShards
          omega
        · rfl
        · rfl
      exact hreplaced.quiet hinside hloads trivial rfl
    · rename_i hsame
      split
      · -- the index was built at the fingerprint that this call has observed
        rename_i index hindex
        obtain ⟨fingerprint, version, hfingerprint, hbuilt⟩ := h.slots call.slot index hindex
        have heq : fingerprint = call.fingerprint := by
          by_contra hne
          apply hsame
          rw [hfingerprint]
          exact ⟨by simp, fun hsome => hne (Option.some.inj hsome)⟩
        subst heq
        rw [hcall.path] at hbuilt
        have hversion := FileHistory.version_unique hbuilt.fingerprint hcall.fingerprint
        subst hversion
        apply h.moved
        · refine ⟨trivial, ?_, fun hne => absurd rfl hne⟩
          intro held hheld
          cases hheld
          exact hbuilt
        · exact hloads.symm
      · rename_i hindex
        split
        · exact h.quiet hinside hloads trivial rfl
        · -- nobody loads for the slot, and this call begins to
          have hothers : ∀ j ≠ i, s.loads j ≠ some call.slot := by
            intro j _ hj
            exact hfree ((h.loading call.slot).mpr ⟨j, hj⟩)
          apply h.written
          · rfl
          · intro index hsome
            change (s.slotObjects call.slot).index = some index at hsome
            rw [hindex] at hsome
            cases hsome
          · exact hothers
          · intro other hother
            rw [hloads] at hother
            cases hother
          · rfl
          · refine ⟨⟨⟨hcall.extend (extends_setSlot rfl), ?_, ?_⟩, ?_, le_rfl⟩, ?_, ?_⟩
            · change (Function.update s.slotObjects call.slot _ call.slot).fingerprint = _
              rw [Function.update_self]
            · change (Function.update s.slotObjects call.slot _ call.slot).index = none
              rw [Function.update_self]
              exact hindex
            · exact FileHistory.le_version hcall.fingerprint
            · intro held hheld
              exact ((h.threads i).held held hheld).extend (extends_setSlot rfl)
            · intro _
              exact (h.threads i).inside hinside

/-- A loader leaves, and writes its slot. -/
theorem FreshInvariant.unmarked (h : FreshInvariant s) (hloader : (s.threads i).phase.loader = some call)
    {next : ShardSlot} (hpath : next.path = (s.slotObjects call.slot).path) (hloading : next.loading = false)
    (hfresh : s.SlotFresh next) {held : Option HeldIndex}
    (hheld : ∀ returned, held = some returned →
      s.BuiltAt returned.path returned.fingerprint returned.observed returned.index) :
    FreshInvariant ((s.setSlot call.slot next).setThread i ⟨.outside, held⟩) := by
  have hloads : s.loads i = some call.slot := by rw [loads, hloader]; rfl
  apply h.written hpath hfresh
  · intro j hj hsome
    exact hj (h.single j i call.slot hsome hloads)
  · intro other hother
    rw [hloads] at hother
    exact (Option.some.inj hother).symm
  · rw [hloading]
    rfl
  · refine ⟨trivial, ?_, fun hne => absurd rfl hne⟩
    intro returned hreturned
    exact (hheld returned hreturned).extend (extends_setSlot hpath)

/-- The third lock section. -/
theorem FreshInvariant.published (h : FreshInvariant s) {index : Option LoadedIndex} {unchanged : Bool}
    (hphase : (s.threads i).phase = .publishing call index unchanged) :
    FreshInvariant (s.afterPublish i call index unchanged) := by
  have hnone : (s.threads i).held = none := (h.threads i).inside (by simp [hphase])
  have hloader : (s.threads i).phase.loader = some call := by simp [hphase, GetIndexPhase.loader]
  have hfresh := (h.threads i).phase
  rw [hphase] at hfresh
  obtain ⟨hcall, hbuilt⟩ := hfresh
  have hnothing : ∀ returned, (s.threads i).held = some returned →
      s.BuiltAt returned.path returned.fingerprint returned.observed returned.index := by
    intro returned hreturned
    rw [hnone] at hreturned
    cases hreturned
  unfold afterPublish
  dsimp only
  split
  · apply h.unmarked hloader
    · rfl
    · rfl
    · exact h.slots call.slot
    · exact hnothing
  · rename_i hcurrent
    have hunchanged : unchanged = true := by
      by_contra hchanged
      exact hcurrent (.inl (by simpa using hchanged))
    have hslot : s.SlotFresh
        { s.slotObjects call.slot with loading := false, skipped := index.isNone, index } := by
      intro loaded hloaded
      refine ⟨call.fingerprint, call.observed, hcall.marked, ?_⟩
      change s.BuiltAt (s.slotObjects call.slot).path call.fingerprint call.observed loaded
      rw [hcall.path]
      exact hbuilt hunchanged loaded hloaded
    split
    · rename_i loaded
      apply h.unmarked hloader
      · rfl
      · rfl
      · exact hslot
      · intro returned hreturned
        cases hreturned
        exact hbuilt hunchanged loaded rfl
    · apply h.unmarked hloader
      · rfl
      · rfl
      · exact hslot
      · exact hnothing

/-- The lock section of the exception handler. -/
theorem FreshInvariant.caught (h : FreshInvariant s) (hphase : (s.threads i).phase = .catching call) :
    FreshInvariant (s.afterCatch i call) := by
  have hloader : (s.threads i).phase.loader = some call := by simp [hphase, GetIndexPhase.loader]
  apply h.unmarked hloader
  · rfl
  · rfl
  · exact h.slots call.slot
  · exact (h.threads i).held

/-! ## All steps -/

/-- A loader moves on. -/
theorem FreshInvariant.advanced (h : FreshInvariant s) (hloader : (s.threads i).phase.loader = some call)
    {phase : GetIndexPhase} (hphase : s.PhaseFresh phase) (hnext : phase.loader = some call) :
    FreshInvariant (s.setPhase i phase) := by
  have hinside : (s.threads i).phase ≠ .outside := by
    intro houtside
    rw [houtside] at hloader
    cases hloader
  apply h.moved
  · exact ⟨hphase, (h.threads i).held, fun _ => (h.threads i).inside hinside⟩
  · rw [loads, hloader, hnext]

/-- A thread moves on in `Load`. -/
theorem FreshInvariant.staged (h : FreshInvariant s) {since : Nat} {stage : LoadStage}
    (hphase : (s.threads i).phase = .loading call since stage) (next : LoadStage) :
    FreshInvariant (s.setPhase i (.loading call since next)) := by
  have hfresh := (h.threads i).phase
  rw [hphase] at hfresh
  exact h.advanced (by simp [hphase, GetIndexPhase.loader]) hfresh rfl

/-- A load ends without an index. -/
theorem FreshInvariant.abandoned (h : FreshInvariant s) {since : Nat} {stage : LoadStage}
    (hphase : (s.threads i).phase = .loading call since stage) :
    FreshInvariant (s.setPhase i (.verifying call none)) := by
  have hfresh := (h.threads i).phase
  rw [hphase] at hfresh
  refine h.advanced (by simp [hphase, GetIndexPhase.loader]) ⟨hfresh.1, ?_⟩ rfl
  intro loaded hloaded
  cases hloaded

/-- A load ends with an index, which was built since the call has observed the file. -/
theorem FreshInvariant.loaded (h : FreshInvariant s) {since index : Nat} {stage : LoadStage}
    (hphase : (s.threads i).phase = .loading call since stage) :
    FreshInvariant (s.setPhase i (.verifying call (some ⟨index, since, (s.files call.path).version⟩))) := by
  have hfresh := (h.threads i).phase
  rw [hphase] at hfresh
  obtain ⟨hcall, hobserved, hsince⟩ := hfresh
  refine h.advanced (by simp [hphase, GetIndexPhase.loader]) ⟨hcall, ?_⟩ rfl
  intro loaded hloaded
  cases hloaded
  exact ⟨hobserved, hsince, le_rfl⟩

/-- **The second fingerprint.** If it is the first one again, the file has not changed since, so neither has it
while the index was built. -/
theorem FreshInvariant.verified (h : FreshInvariant s) {index : Option LoadedIndex}
    (hphase : (s.threads i).phase = .verifying call index) :
    FreshInvariant (s.setPhase i
      (.publishing call index ((s.files call.path).current = call.fingerprint))) := by
  have hfresh := (h.threads i).phase
  rw [hphase] at hfresh
  obtain ⟨hcall, hbuilt⟩ := hfresh
  refine h.advanced (by simp [hphase, GetIndexPhase.loader]) ⟨hcall, ?_⟩ rfl
  intro hunchanged loaded hloaded
  obtain ⟨hfrom, hle, hto⟩ := hbuilt loaded hloaded
  have hcurrent := FileHistory.getElem?_version (s.files call.path)
  rw [of_decide_eq_true hunchanged] at hcurrent
  have hversion := FileHistory.version_unique hcurrent hcall.fingerprint
  exact ⟨hcall.fingerprint, by omega, by omega⟩

/-- Every step keeps the invariant. -/
theorem FreshInvariant.step (h : FreshInvariant s) {threads limit minRequests : Nat} {l : IndexCacheLabel}
    (hstep : IndexStep threads limit minRequests s l t) : FreshInvariant t := by
  have hloads : ∀ {j : Nat} {phase : GetIndexPhase}, (s.threads j).phase = phase → phase.loader = none →
      s.loads j = none := by
    intro j phase hphase hnone
    rw [loads, hphase, hnone]
    rfl
  cases hstep with
  | refused _ => exact h
  | @called i path interrupted hthread =>
      apply h.moved
      · refine ⟨trivial, (h.threads i).held, fun _ => ?_⟩
        rw [hthread]
      · rw [loads, hthread]
        rfl
  | entered hlock hphase => exact h.entered hphase minRequests
  | @fingerprinted i path slot hphase =>
      have hfresh := (h.threads i).phase
      rw [hphase] at hfresh
      exact h.quiet (by simp [hphase]) (hloads hphase rfl)
        ⟨hfresh.1, hfresh.2, FileHistory.getElem?_version _⟩ rfl
  | unopened hphase => exact h.quiet (by simp [hphase]) (hloads hphase rfl) trivial rfl
  | compared hlock hphase => exact h.compared hphase
  | counted hphase =>
      unfold afterCount
      split
      · exact h.abandoned hphase
      · exact (h.frame s.lock s.clock s.requests (Function.update s.bytes s.indexCount 0)
          (insert s.indexCount s.alive) (s.indexCount + 1) s.budgetBytes).staged hphase _
  | @locked i since index bytes call hlock hphase =>
      exact (h.frame (some i) s.clock s.requests s.bytes s.alive s.indexCount s.budgetBytes).staged hphase _
  | full hphase => exact h.staged hphase _
  | room hphase hroom => exact h.staged hphase _
  | evicted hphase =>
      unfold afterEvict
      split
      · exact (h.frame none s.clock s.requests s.bytes s.alive s.indexCount s.budgetBytes).abandoned hphase
      · rename_i oldest _
        have hreset : FreshInvariant (s.setSlot oldest.2
            { s.slotObjects oldest.2 with index := none, skipped := true }) :=
          h.touched oldest.2 rfl rfl rfl (.inr rfl)
        exact hreset.staged hphase _
  | granted hphase => exact (h.frame none s.clock s.requests _ s.alive s.indexCount _).staged hphase _
  | unallocated hphase => exact h.abandoned hphase
  | allocated hphase => exact h.staged hphase _
  | grew hphase => exact h.abandoned hphase
  | loaded hphase => exact h.loaded hphase
  | @rethrown i since stage call interrupted type hphase hstage =>
      have hfresh := (h.threads i).phase
      rw [hphase] at hfresh
      exact h.advanced (by simp [hphase, GetIndexPhase.loader]) hfresh.1 rfl
  | swallowed hphase hstage => exact h.abandoned hphase
  | verified hphase => exact h.verified hphase
  | @unverified i call index hphase =>
      have hfresh := (h.threads i).phase
      rw [hphase] at hfresh
      exact h.advanced (by simp [hphase, GetIndexPhase.loader]) hfresh.1 rfl
  | published hlock hphase => exact h.published hphase
  | caught hlock hphase => exact h.caught hphase
  | dropped hthread =>
      apply h.moved
      · exact ⟨trivial, fun held hheld => (by cases hheld), fun hne => absurd rfl hne⟩
      · rw [loads, hthread]
  | requested _ requests => exact h.frame s.lock s.clock requests s.bytes s.alive s.indexCount s.budgetBytes
  | destroyed halive hunused => exact h.frame s.lock s.clock s.requests s.bytes _ s.indexCount _
  | changed hnew => exact h.changed hnew

/-! ## Slots that are gone -/

/-- A slot that was replaced or evicted, without an index. -/
structure Detached (s : IndexCacheState) (slot : Nat) : Prop where
  slot_lt : slot < s.slotCount
  gone : s.slots.lookup (s.slotObjects slot).path ≠ some slot
  empty : (s.slotObjects slot).index = none

section Detached

variable {slot : Nat}

/-- A slot that is gone is not written, or without an index. -/
theorem Detached.setSlot (h : s.Detached slot) {other : Nat} {next : ShardSlot}
    (hpath : next.path = (s.slotObjects other).path) (hindex : other = slot → next.index = none) :
    (s.setSlot other next).Detached slot := by
  have hobject : (Function.update s.slotObjects other next slot).path = (s.slotObjects slot).path ∧
      (Function.update s.slotObjects other next slot).index = none := by
    by_cases hslot : slot = other
    · subst hslot
      rw [Function.update_self]
      exact ⟨hpath, hindex rfl⟩
    · rw [Function.update_of_ne hslot]
      exact ⟨rfl, h.empty⟩
  refine ⟨h.slot_lt, ?_, hobject.2⟩
  change s.slots.lookup (Function.update s.slotObjects other next slot).path ≠ some slot
  rw [hobject.1]
  exact h.gone

/-- A new slot does not bring it back. -/
theorem Detached.newSlot (h : s.Detached slot) {slots : AList fun _ : Text => Nat} {next : ShardSlot}
    (hslots : ∀ path, slots.lookup path = some slot → s.slots.lookup path = some slot) :
    Detached { s with
      slots
      slotObjects := Function.update s.slotObjects s.slotCount next
      slotCount := s.slotCount + 1 } slot := by
  have hobject : Function.update s.slotObjects s.slotCount next slot = s.slotObjects slot :=
    Function.update_of_ne h.slot_lt.ne _ _
  refine ⟨h.slot_lt.trans (Nat.lt_succ_self _), ?_, ?_⟩
  · change slots.lookup (Function.update s.slotObjects s.slotCount next slot).path ≠ some slot
    rw [hobject]
    exact fun hlookup => h.gone (hslots _ hlookup)
  · change (Function.update s.slotObjects s.slotCount next slot).index = none
    rw [hobject]
    exact h.empty

/-- The slot of an insertion is a new one. -/
theorem Detached.lookup_insert (h : s.Detached slot) {slots : AList fun _ : Text => Nat} {path path' : Text}
    (hlookup : (slots.insert path s.slotCount).lookup path' = some slot) : slots.lookup path' = some slot := by
  by_cases hpath : path' = path
  · subst hpath
    rw [AList.lookup_insert] at hlookup
    exact absurd (Option.some.inj hlookup).symm h.slot_lt.ne
  · rwa [AList.lookup_insert_ne hpath] at hlookup

/-- **A slot that is gone stays gone, and gets no index.** -/
theorem Detached.step (h : s.Detached slot) (hfresh : FreshInvariant s) {threads limit minRequests : Nat}
    {l : IndexCacheLabel} (hstep : IndexStep threads limit minRequests s l t) : t.Detached slot := by
  -- most steps leave the slots alone
  have hkept : ∀ {u : IndexCacheState}, u.slots = s.slots → u.slotObjects = s.slotObjects →
      u.slotCount = s.slotCount → u.Detached slot := by
    intro u hslots hobjects hcount
    refine ⟨?_, ?_, ?_⟩
    · rw [hcount]
      exact h.slot_lt
    · rw [hslots, hobjects]
      exact h.gone
    · rw [hobjects]
      exact h.empty
  have hsame : ∀ {u : IndexCacheState} (thread : Nat) (next : IndexThread), u.Detached slot →
      (u.setThread thread next).Detached slot := fun _ _ hu => ⟨hu.slot_lt, hu.gone, hu.empty⟩
  cases hstep with
  | @entered i path hlock hphase =>
      have hfound : (s.findSlot path).2.Detached slot := by
        unfold findSlot
        split
        · exact h
        · exact h.newSlot fun path' hlookup => lookup_slotsWithRoom (h.lookup_insert hlookup)
      have hvisited : ((s.findSlot path).2.visitSlot (s.findSlot path).1).Detached slot := by
        have hclock : Detached { (s.findSlot path).2 with clock := (s.findSlot path).2.clock + 1 } slot :=
          ⟨hfound.slot_lt, hfound.gone, hfound.empty⟩
        apply hclock.setSlot
        · rfl
        · intro heq
          change ((s.findSlot path).2.slotObjects (s.findSlot path).1).index = none
          rw [heq]
          exact hfound.empty
      unfold afterEnter
      dsimp only
      split <;> exact hsame _ _ hvisited
  | @compared i call hlock hphase =>
      unfold afterCompare
      dsimp only
      split
      · exact hsame _ _ h
      · split
        · exact hsame _ _ (h.newSlot fun path hlookup => h.lookup_insert hlookup)
        · split
          · exact hsame _ _ h
          · rename_i hindex
            split
            · exact hsame _ _ h
            · exact hsame _ _ (h.setSlot rfl fun _ => hindex)
  | counted _ =>
      unfold afterCount
      split <;> exact hkept rfl rfl rfl
  | evicted _ =>
      unfold afterEvict
      split
      · exact hkept rfl rfl rfl
      · exact hsame _ _ (h.setSlot rfl fun _ => rfl)
  | @published i call index unchanged hlock hphase =>
      have hcall : s.LoaderAt call :=
        (hfresh.threads i).phase.loader (by simp [hphase, GetIndexPhase.loader])
      unfold afterPublish
      dsimp only
      split
      · exact hsame _ _ (h.setSlot rfl fun _ => hcall.empty)
      · rename_i hcurrent
        -- the slot that is published is the one in the map
        have hne : call.slot ≠ slot := by
          rintro rfl
          apply h.gone
          rw [hcall.path]
          exact not_not.mp (not_or.mp hcurrent).2
        split <;> exact hsame _ _ (h.setSlot rfl fun heq => absurd heq hne)
  | @caught i call hlock hphase =>
      have hcall : s.LoaderAt call :=
        (hfresh.threads i).phase.loader (by simp [hphase, GetIndexPhase.loader])
      exact hsame _ _ (h.setSlot rfl fun _ => hcall.empty)
  | _ => exact hkept rfl rfl rfl

end Detached

end Steps

end IndexCacheState

/-! ## All runs -/

/-- **What `GetIndex` guarantees in a state.** -/
structure IndexesFresh (T : TransitionSystem IndexCacheState IndexCacheLabel) (s : IndexCacheState) : Prop where
  /-- An index that was returned was built at the version that the call has observed. -/
  held : ∀ i held, (s.threads i).held = some held →
    (s.files held.path).fingerprints[held.observed]? = some held.fingerprint ∧
      held.index.builtFrom = held.observed ∧ held.index.builtTo = held.observed
  /-- One load of a slot is in progress at most. -/
  single : ∀ i j call call', (s.threads i).phase.loader = some call → (s.threads j).phase.loader = some call' →
    call.slot = call'.slot → i = j
  /-- `loading` is set while one is, and cleared when it has ended in any way. -/
  loading : ∀ slot, (s.slotObjects slot).loading = true ↔
    ∃ i call, (s.threads i).phase.loader = some call ∧ call.slot = slot
  /-- When the slot of a load was replaced or evicted, nothing is ever published in it, -/
  unpublished : ∀ i call, (s.threads i).phase.loader = some call →
    s.slots.lookup call.path ≠ some call.slot →
      ∀ (ls : List IndexCacheLabel) t, ls.foldlM T.step s = some t → (t.slotObjects call.slot).index = none
  /-- and the caller gets nothing. -/
  unreturned : ∀ i call, (s.threads i).phase.loader = some call →
    s.slots.lookup call.path ≠ some call.slot →
      ∀ t, T.step s (.lockPublish i) = some t → (t.threads i).held = none
  /-- There are not too many slots. -/
  size : s.slots.entries.length ≤ maxTrackedShards

section Runs

variable {threads maxBytes minRequests : Nat} {files : Text → FileHistory} {s : IndexCacheState}

theorem reachable_freshInvariant (h : (indexCacheSystem threads maxBytes minRequests files).Reachable s) :
    IndexCacheState.FreshInvariant s := by
  apply h.invariant
  · exact IndexCacheState.initial_freshInvariant files
  · intro u l t _ hu hstep
    exact hu.step (indexCacheSystem_step hstep).2

/-- A slot that is gone gets no index in the rest of the run. -/
theorem detached_forever (hinv : IndexCacheState.FreshInvariant s) {slot : Nat} (h : s.Detached slot)
    {ls : List IndexCacheLabel} {t : IndexCacheState}
    (hrun : ls.foldlM (indexCacheSystem threads maxBytes minRequests files).step s = some t) :
    t.Detached slot := by
  have hboth : IndexCacheState.FreshInvariant t ∧ t.Detached slot := by
    refine TransitionSystem.foldlM_invariant
      (I := fun u => IndexCacheState.FreshInvariant u ∧ u.Detached slot) ?_ ⟨hinv, h⟩ hrun
    rintro u l v ⟨hu, hdetached⟩ hstep
    have hcases := (indexCacheSystem_step hstep).2
    exact ⟨hu.step hcases, hdetached.step hu hcases⟩
  exact hboth.2

/-- **Cached timestamp indexes are never stale.** -/
theorem indexes_fresh (h : (indexCacheSystem threads maxBytes minRequests files).Reachable s) :
    IndexesFresh (indexCacheSystem threads maxBytes minRequests files) s := by
  have hinv := reachable_freshInvariant h
  have hloads : ∀ {i : Nat} {call : IndexCall}, (s.threads i).phase.loader = some call →
      s.loads i = some call.slot := by
    intro i call hcall
    rw [IndexCacheState.loads, hcall]
    rfl
  refine ⟨?_, ?_, ?_, ?_, ?_, hinv.size⟩
  · intro i held hheld
    have hbuilt := (hinv.threads i).held held hheld
    exact ⟨hbuilt.fingerprint, hbuilt.builtFrom, hbuilt.builtTo⟩
  · intro i j call call' hcall hcall' hslot
    apply hinv.single i j call.slot (hloads hcall)
    rw [hslot]
    exact hloads hcall'
  · intro slot
    rw [hinv.loading slot]
    constructor
    · rintro ⟨i, hi⟩
      obtain ⟨call, hcall, hslot⟩ := Option.map_eq_some_iff.mp hi
      exact ⟨i, call, hcall, hslot⟩
    · rintro ⟨i, call, hcall, rfl⟩
      exact ⟨i, hloads hcall⟩
  · intro i call hcall hgone ls t hrun
    have hloader := (hinv.threads i).phase.loader hcall
    have hdetached : s.Detached call.slot := by
      refine ⟨hloader.slot_lt, ?_, hloader.empty⟩
      rw [hloader.path]
      exact hgone
    exact (detached_forever hinv hdetached hrun).empty
  · intro i call hcall hgone t hstep
    have hnone : (s.threads i).held = none := by
      apply (hinv.threads i).inside
      intro houtside
      rw [houtside] at hcall
      cases hcall
    cases (indexCacheSystem_step hstep).2 with
    | @published _ call' index unchanged hlock hphase =>
        rw [hphase] at hcall
        cases hcall
        unfold IndexCacheState.afterPublish
        dsimp only
        rw [if_pos (.inr hgone)]
        change (Function.update s.threads i ⟨.outside, (s.threads i).held⟩ i).held = none
        rw [Function.update_self]
        exact hnone

end Runs

/-- A thread holds an index, another one finds it. -/
theorem loadSchedule_fresh :
    ∃ s, (indexCacheSystem 2 64 0 fun _ => shardHistory).Reachable s ∧
      (s.threads 1).held.map (fun held => held.index) = some ⟨0, 0, 0⟩ ∧
      IndexesFresh (indexCacheSystem 2 64 0 fun _ => shardHistory) s := by
  obtain ⟨s, hs, hheld⟩ := TransitionSystem.exists_reachable_of_replay
    (indexCacheSystem 2 64 0 fun _ => shardHistory)
    (loadSchedule 0 "data".toList ++ [.callGetIndex 1 "data".toList false, .lockEnter 1,
      .readFingerprint 1 true, .lockCompare 1])
    (fun s => (s.threads 1).held.map (fun held => held.index) == some ⟨0, 0, 0⟩) (by decide +kernel)
  exact ⟨s, hs, by simpa using hheld, indexes_fresh hs⟩

end DuckdbLerobot.Storage
