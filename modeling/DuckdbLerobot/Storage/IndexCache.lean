import DuckdbLerobot.Library.Containers
import DuckdbLerobot.Library.TransitionSystem
import DuckdbLerobot.Storage.DatasetInfo
import Mathlib.Data.Finset.Erase
import Mathlib.Data.Finset.Insert
import Mathlib.Data.List.MinMax

/-!
# The cache of timestamp indexes

The threads of a scan share `LerobotTimestampLookup`. `GetIndex` tracks the files in slots, and loads the index of
a file that is used often. It has three lock sections: it takes the slot, it begins a load or finds an index, and
it publishes what was loaded. The fingerprint of the file is read before the second and before the third, without
the lock, and other threads may do anything in between. A load reserves memory in `Reserve`, which holds the lock
while it evicts indexes of other slots.

A lock section is one step, but each round of the loop in `Reserve` is two: the destructor of an index returns its
reservation without the lock, between any two steps. It runs at some time after the last reference is gone.

Slots and indexes are numbered in the order in which they are made. The path of a slot, the versions of a file
and what is said of them in a call are history. No step depends on them.
-/

set_option autoImplicit false

namespace DuckdbLerobot.Storage

open DuckdbLerobot.Library DuckdbLerobot.Path

/-- `MAX_INDEX_BYTES`. -/
def maxIndexBytes : Nat := 32 * 1024 * 1024

/-- `MAX_TRACKED_SHARDS`. -/
def maxTrackedShards : Nat := 64

/-- `INDEX_ON_VISIT`. -/
def indexOnVisit : Nat := 3

/-- `sizeof(IndexRow)`: two integers, a double and a flag. -/
def indexRowBytes : Nat := 32

/-- `idx_t` addition. -/
def idxAdd (a b : Nat) : Nat := (a + b) % 2 ^ 64

/-- `idx_t` subtraction. -/
def idxSub (a b : Nat) : Nat := (a + 2 ^ 64 - b) % 2 ^ 64

/-! ## Files -/

/-- The fingerprints that a file has had, the oldest first. No two versions have the same. -/
structure FileHistory where
  fingerprints : List FileFingerprint
  ne_nil : fingerprints ≠ []
  nodup : fingerprints.Nodup

namespace FileHistory

variable (file : FileHistory)

/-- The fingerprint of the file now. -/
def current : FileFingerprint := file.fingerprints.getLast file.ne_nil

/-- The number of the version that the file has now. -/
def version : Nat := file.fingerprints.length - 1

/-- The file is replaced. -/
def change (fingerprint : FileFingerprint) (hnew : fingerprint ∉ file.fingerprints) : FileHistory where
  fingerprints := file.fingerprints ++ [fingerprint]
  ne_nil := by simp
  nodup := List.nodup_append.mpr ⟨file.nodup, List.nodup_singleton fingerprint, by
    intro a ha b hb hab
    rw [List.mem_singleton] at hb
    exact hnew (hb ▸ hab ▸ ha)⟩

end FileHistory

/-! ## Slots and calls -/

/-- A loaded index, as its users see it: the object, and the versions that the file had when `Load` began and
when it ended. -/
structure LoadedIndex where
  number : Nat
  builtFrom : Nat
  builtTo : Nat
  deriving DecidableEq

/-- `ShardSlot`, with the path that it was made for. -/
structure ShardSlot where
  path : Text
  fingerprint : Option FileFingerprint := none
  visits : Nat := 0
  lastUse : Nat := 0
  loading : Bool := false
  skipped : Bool := false
  index : Option LoadedIndex := none

/-- The locals of `GetIndex` when the fingerprint was read, with the version that was observed. -/
structure IndexCall where
  path : Text
  slot : Nat
  fingerprint : FileFingerprint
  observed : Nat

/-- Where a thread stands in `Load`. -/
inductive LoadStage
  /-- In the query that counts the rows. -/
  | counting
  /-- Before the lock of `Reserve`. -/
  | reserving (index bytes : Nat)
  /-- Before the condition of the loop in `Reserve`. -/
  | testing (index bytes : Nat)
  /-- In the body of the loop. -/
  | evicting (index bytes : Nat)
  /-- After the loop. -/
  | granting (index bytes : Nat)
  | allocating (index : Nat)
  | reading (index : Nat)

/-- Where a thread stands in `GetIndex`. -/
inductive GetIndexPhase
  | outside
  /-- Before the first lock section. -/
  | entering (path : Text)
  /-- Before `ReadFingerprint`. -/
  | fingerprinting (path : Text) (slot : Nat)
  /-- Before the second lock section. -/
  | comparing (call : IndexCall)
  /-- In `Load`, which began when the file had some version. -/
  | loading (call : IndexCall) (since : Nat) (stage : LoadStage)
  /-- Before the second `ReadFingerprint`. -/
  | verifying (call : IndexCall) (index : Option LoadedIndex)
  /-- Before the third lock section. -/
  | publishing (call : IndexCall) (index : Option LoadedIndex) (unchanged : Bool)
  /-- In the handler of an exception. -/
  | catching (call : IndexCall)

/-- An index that `GetIndex` has returned, with the fingerprint and the version that this call observed. -/
structure HeldIndex where
  path : Text
  fingerprint : FileFingerprint
  observed : Nat
  index : LoadedIndex

/-- A thread, with the index that it uses. -/
structure IndexThread where
  phase : GetIndexPhase := .outside
  held : Option HeldIndex := none

/-- The type of an exception of `Load`. -/
inductive LoadExceptionType
  | outOfMemory
  | conversion
  | invalidInput
  | io
  | other
  deriving DecidableEq

/-- The lookup, its threads and the files. -/
structure IndexCacheState where
  /-- The thread in `Reserve`. -/
  lock : Option Nat := none
  slots : AList fun _ : Text => Nat := ∅
  clock : Nat := 0
  requests : Nat := 0
  slotObjects : Nat → ShardSlot := fun _ => { path := [] }
  slotCount : Nat := 0
  /-- `bytes` of the indexes. -/
  bytes : Nat → Nat := fun _ => 0
  /-- The indexes whose destructor has not run. -/
  alive : Finset Nat := ∅
  indexCount : Nat := 0
  budgetBytes : Nat := 0
  files : Text → FileHistory
  threads : Nat → IndexThread := fun _ => {}

/-- A step of a thread, of a destructor, or of the world. -/
inductive IndexCacheLabel
  /-- `CheckInterrupted` throws when the query is interrupted. -/
  | callGetIndex (thread : Nat) (path : Text) (interrupted : Bool)
  | lockEnter (thread : Nat)
  | readFingerprint (thread : Nat) (succeeds : Bool)
  | lockCompare (thread : Nat)
  | countRows (thread rowCount : Nat)
  | lockReserve (thread : Nat)
  | testRoom (thread : Nat)
  | evictOldest (thread : Nat)
  | grant (thread : Nat)
  | allocate (thread : Nat) (outOfMemory : Bool)
  /-- The file may have more rows than were counted. -/
  | readRows (thread : Nat) (grew : Bool)
  | loadThrows (thread : Nat) (interrupted : Bool) (type : LoadExceptionType)
  | lockPublish (thread : Nat)
  | lockCatch (thread : Nat)
  /-- The caller of `GetIndex` is done with the index. -/
  | dropIndex (thread : Nat)
  /-- `Lookup` begins. -/
  | countRequests (thread requestCount : Nat)
  | destroyIndex (index : Nat)
  | changeFile (path : Text) (fingerprint : FileFingerprint)

/-- The thread of a step. -/
def IndexCacheLabel.thread : IndexCacheLabel → Option Nat
  | callGetIndex thread _ _ => some thread
  | lockEnter thread => some thread
  | readFingerprint thread _ => some thread
  | lockCompare thread => some thread
  | countRows thread _ => some thread
  | lockReserve thread => some thread
  | testRoom thread => some thread
  | evictOldest thread => some thread
  | grant thread => some thread
  | allocate thread _ => some thread
  | readRows thread _ => some thread
  | loadThrows thread _ _ => some thread
  | lockPublish thread => some thread
  | lockCatch thread => some thread
  | dropIndex thread => some thread
  | countRequests thread _ => some thread
  | destroyIndex _ => none
  | changeFile _ _ => none

/-! ## References -/

/-- The index object of a load that has one. -/
def LoadStage.index : LoadStage → Option Nat
  | counting => none
  | reserving index _ => some index
  | testing index _ => some index
  | evicting index _ => some index
  | granting index _ => some index
  | allocating index => some index
  | reading index => some index

/-- The slot that a thread refers to. -/
def GetIndexPhase.slot : GetIndexPhase → Option Nat
  | outside => none
  | entering _ => none
  | fingerprinting _ slot => some slot
  | comparing call => some call.slot
  | loading call _ _ => some call.slot
  | verifying call _ => some call.slot
  | publishing call _ _ => some call.slot
  | catching call => some call.slot

/-- The index that a call refers to. -/
def GetIndexPhase.index : GetIndexPhase → Option Nat
  | loading _ _ stage => stage.index
  | verifying _ index => index.map LoadedIndex.number
  | publishing _ index _ => index.map LoadedIndex.number
  | _ => none

/-- A thread refers to an index. -/
def IndexThread.Refers (thread : IndexThread) (index : Nat) : Prop :=
  thread.phase.index = some index ∨ thread.held.map (fun held => held.index.number) = some index

instance (thread : IndexThread) (index : Nat) : Decidable (thread.Refers index) :=
  inferInstanceAs (Decidable (_ ∨ _))

namespace IndexCacheState

variable (s : IndexCacheState)

/-- A slot is in the map, or a thread refers to it. -/
def SlotInUse (threads slot : Nat) : Prop :=
  (∃ entry ∈ s.slots.entries, entry.2 = slot) ∨ ∃ i < threads, (s.threads i).phase.slot = some slot

instance (threads slot : Nat) : Decidable (s.SlotInUse threads slot) :=
  inferInstanceAs (Decidable (_ ∨ _))

/-- A slot in use or a thread refers to an index. -/
def IndexInUse (threads index : Nat) : Prop :=
  (∃ slot < s.slotCount, s.SlotInUse threads slot ∧
    (s.slotObjects slot).index.map LoadedIndex.number = some index) ∨
  ∃ i < threads, (s.threads i).Refers index

instance (threads index : Nat) : Decidable (s.IndexInUse threads index) :=
  inferInstanceAs (Decidable (_ ∨ _))

/-! ## The steps -/

def setThread (thread : Nat) (next : IndexThread) : IndexCacheState :=
  { s with threads := Function.update s.threads thread next }

def setPhase (thread : Nat) (phase : GetIndexPhase) : IndexCacheState :=
  s.setThread thread ⟨phase, (s.threads thread).held⟩

def setSlot (slot : Nat) (next : ShardSlot) : IndexCacheState :=
  { s with slotObjects := Function.update s.slotObjects slot next }

/-- `GetIndex` returns an index. -/
def returnIndex (thread : Nat) (call : IndexCall) (index : LoadedIndex) : IndexCacheState :=
  s.setThread thread ⟨.outside, some ⟨call.path, call.fingerprint, call.observed, index⟩⟩

/-- The slots when a slot is made: at `MAX_TRACKED_SHARDS` the one that was used first goes. -/
def slotsWithRoom : AList fun _ : Text => Nat :=
  if s.slots.entries.length = maxTrackedShards then
    match s.slots.entries.argmin fun entry => (s.slotObjects entry.2).lastUse with
    | some oldest => s.slots.erase oldest.1
    | none => s.slots
  else s.slots

/-- The slot of a path, in the first lock section. -/
def findSlot (path : Text) : Nat × IndexCacheState :=
  match s.slots.lookup path with
  | some slot => (slot, s)
  | none =>
      (s.slotCount, { s with
        slots := s.slotsWithRoom.insert path s.slotCount
        slotObjects := Function.update s.slotObjects s.slotCount { path }
        slotCount := s.slotCount + 1 })

/-- `last_use` and `visits`. -/
def visitSlot (slot : Nat) : IndexCacheState :=
  { s with clock := s.clock + 1 }.setSlot slot
    { s.slotObjects slot with
      lastUse := s.clock + 1
      visits := (s.slotObjects slot).visits + 1 }

/-- The first lock section. -/
def afterEnter (minRequests thread : Nat) (path : Text) : IndexCacheState :=
  let slot := (s.findSlot path).1
  let t := (s.findSlot path).2.visitSlot slot
  if (t.slotObjects slot).visits < indexOnVisit ∨ t.requests < minRequests ∨ (t.slotObjects slot).loading then
    t.setPhase thread .outside
  else t.setPhase thread (.fingerprinting path slot)

/-- The slot of a file that was changed is replaced. -/
def replaceSlot (call : IndexCall) : IndexCacheState :=
  { s with
    slots := s.slots.insert call.path s.slotCount
    slotObjects := Function.update s.slotObjects s.slotCount
      { path := call.path
        fingerprint := some call.fingerprint
        visits := 1
        lastUse := (s.slotObjects call.slot).lastUse }
    slotCount := s.slotCount + 1 }

/-- The second lock section. -/
def afterCompare (thread : Nat) (call : IndexCall) : IndexCacheState :=
  let slot := s.slotObjects call.slot
  if s.slots.lookup call.path ≠ some call.slot ∨ slot.loading then s.setPhase thread .outside
  else if slot.fingerprint ≠ none ∧ slot.fingerprint ≠ some call.fingerprint then
    (s.replaceSlot call).setPhase thread .outside
  else
    match slot.index with
    | some index => s.returnIndex thread call index
    | none =>
        if slot.skipped then s.setPhase thread .outside
        else
          (s.setSlot call.slot { slot with fingerprint := some call.fingerprint, loading := true }).setPhase
            thread (.loading call (s.files call.path).version .counting)

/-- After the rows were counted. The index object is made for `Reserve`. -/
def afterCount (limit thread : Nat) (call : IndexCall) (since rowCount : Nat) : IndexCacheState :=
  if limit / indexRowBytes < rowCount then s.setPhase thread (.verifying call none)
  else
    { s with
      bytes := Function.update s.bytes s.indexCount 0
      alive := insert s.indexCount s.alive
      indexCount := s.indexCount + 1 }.setPhase thread
        (.loading call since (.reserving s.indexCount (rowCount * indexRowBytes)))

/-- The slot with an index that was used first. -/
def oldestIndexed : Option (Sigma fun _ : Text => Nat) :=
  (s.slots.entries.filter fun entry => (s.slotObjects entry.2).index.isSome).argmin
    fun entry => (s.slotObjects entry.2).lastUse

/-- The body of the loop in `Reserve`. -/
def afterEvict (thread : Nat) (call : IndexCall) (since index bytes : Nat) : IndexCacheState :=
  match s.oldestIndexed with
  | none => { s with lock := none }.setPhase thread (.verifying call none)
  | some oldest =>
      (s.setSlot oldest.2 { s.slotObjects oldest.2 with index := none, skipped := true }).setPhase thread
        (.loading call since (.testing index bytes))

/-- After the loop in `Reserve`. -/
def afterGrant (thread : Nat) (call : IndexCall) (since index bytes : Nat) : IndexCacheState :=
  { s with
    lock := none
    bytes := Function.update s.bytes index bytes
    budgetBytes := idxAdd s.budgetBytes bytes }.setPhase thread (.loading call since (.allocating index))

/-- After an exception in `Load`. -/
def afterThrow (thread : Nat) (call : IndexCall) (interrupted : Bool) (type : LoadExceptionType) :
    IndexCacheState :=
  if interrupted ∨ type = .other then s.setPhase thread (.catching call)
  else s.setPhase thread (.verifying call none)

/-- The third lock section. -/
def afterPublish (thread : Nat) (call : IndexCall) (index : Option LoadedIndex) (unchanged : Bool) :
    IndexCacheState :=
  let slot := s.slotObjects call.slot
  if !unchanged ∨ s.slots.lookup call.path ≠ some call.slot then
    (s.setSlot call.slot { slot with loading := false }).setPhase thread .outside
  else
    let t := s.setSlot call.slot { slot with loading := false, skipped := index.isNone, index }
    match index with
    | some index => t.returnIndex thread call index
    | none => t.setPhase thread .outside

/-- The lock section of the exception handler. -/
def afterCatch (thread : Nat) (call : IndexCall) : IndexCacheState :=
  (s.setSlot call.slot { s.slotObjects call.slot with loading := false }).setPhase thread .outside

/-- The destructor of an index. -/
def afterDestroy (index : Nat) : IndexCacheState :=
  { s with
    alive := s.alive.erase index
    budgetBytes := idxSub s.budgetBytes (s.bytes index) }

/-- A step. -/
def next (threads limit minRequests : Nat) : IndexCacheLabel → Option IndexCacheState
  | .callGetIndex thread path interrupted =>
      match s.threads thread with
      | ⟨.outside, none⟩ =>
          if limit = 0 ∨ interrupted then some s else some (s.setPhase thread (.entering path))
      | _ => none
  | .lockEnter thread =>
      match s.lock, (s.threads thread).phase with
      | none, .entering path => some (s.afterEnter minRequests thread path)
      | _, _ => none
  | .readFingerprint thread succeeds =>
      match (s.threads thread).phase with
      | .fingerprinting path slot =>
          if succeeds then
            some (s.setPhase thread
              (.comparing ⟨path, slot, (s.files path).current, (s.files path).version⟩))
          else some (s.setPhase thread .outside)
      | .verifying call index =>
          if succeeds then
            some (s.setPhase thread
              (.publishing call index ((s.files call.path).current = call.fingerprint)))
          else some (s.setPhase thread (.catching call))
      | _ => none
  | .lockCompare thread =>
      match s.lock, (s.threads thread).phase with
      | none, .comparing call => some (s.afterCompare thread call)
      | _, _ => none
  | .countRows thread rowCount =>
      match (s.threads thread).phase with
      | .loading call since .counting => some (s.afterCount limit thread call since rowCount)
      | _ => none
  | .lockReserve thread =>
      match s.lock, (s.threads thread).phase with
      | none, .loading call since (.reserving index bytes) =>
          some ({ s with lock := some thread }.setPhase thread (.loading call since (.testing index bytes)))
      | _, _ => none
  | .testRoom thread =>
      match (s.threads thread).phase with
      | .loading call since (.testing index bytes) =>
          if idxSub limit s.budgetBytes < bytes then
            some (s.setPhase thread (.loading call since (.evicting index bytes)))
          else some (s.setPhase thread (.loading call since (.granting index bytes)))
      | _ => none
  | .evictOldest thread =>
      match (s.threads thread).phase with
      | .loading call since (.evicting index bytes) => some (s.afterEvict thread call since index bytes)
      | _ => none
  | .grant thread =>
      match (s.threads thread).phase with
      | .loading call since (.granting index bytes) => some (s.afterGrant thread call since index bytes)
      | _ => none
  | .allocate thread outOfMemory =>
      match (s.threads thread).phase with
      | .loading call since (.allocating index) =>
          if s.bytes index ≠ 0 ∧ outOfMemory then some (s.setPhase thread (.verifying call none))
          else some (s.setPhase thread (.loading call since (.reading index)))
      | _ => none
  | .readRows thread grew =>
      match (s.threads thread).phase with
      | .loading call since (.reading index) =>
          if grew then some (s.setPhase thread (.verifying call none))
          else some (s.setPhase thread
            (.verifying call (some ⟨index, since, (s.files call.path).version⟩)))
      | _ => none
  | .loadThrows thread interrupted type =>
      match (s.threads thread).phase with
      | .loading call _ .counting => some (s.afterThrow thread call interrupted type)
      | .loading call _ (.allocating _) => some (s.afterThrow thread call interrupted type)
      | .loading call _ (.reading _) => some (s.afterThrow thread call interrupted type)
      | _ => none
  | .lockPublish thread =>
      match s.lock, (s.threads thread).phase with
      | none, .publishing call index unchanged => some (s.afterPublish thread call index unchanged)
      | _, _ => none
  | .lockCatch thread =>
      match s.lock, (s.threads thread).phase with
      | none, .catching call => some (s.afterCatch thread call)
      | _, _ => none
  | .dropIndex thread =>
      match s.threads thread with
      | ⟨.outside, some _⟩ => some (s.setThread thread {})
      | _ => none
  | .countRequests thread requestCount =>
      match s.threads thread with
      | ⟨.outside, none⟩ =>
          if s.requests < minRequests then
            some { s with requests := s.requests + min (minRequests - s.requests) requestCount }
          else some s
      | _ => none
  | .destroyIndex index =>
      if index ∈ s.alive ∧ ¬s.IndexInUse threads index then some (s.afterDestroy index) else none
  | .changeFile path fingerprint =>
      if hnew : fingerprint ∉ (s.files path).fingerprints then
        some { s with files := Function.update s.files path ((s.files path).change fingerprint hnew) }
      else none

end IndexCacheState

/-- A lookup with its files, as they are at first. -/
def indexCacheSystem (threads maxBytes minRequests : Nat) (files : Text → FileHistory) :
    TransitionSystem IndexCacheState IndexCacheLabel where
  init := { files }
  step s l :=
    if l.thread.all (· < threads) then s.next threads (min maxBytes maxIndexBytes) minRequests l else none

end DuckdbLerobot.Storage
