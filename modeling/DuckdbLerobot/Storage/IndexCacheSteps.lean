import DuckdbLerobot.Library.Parties
import DuckdbLerobot.Storage.IndexCache

/-!
# The steps of the timestamp index cache

Every step of the cache is one of the cases of `IndexStep`. The invariants are proved by these cases.
-/

set_option autoImplicit false

namespace DuckdbLerobot.Storage

open DuckdbLerobot.Library DuckdbLerobot.Path

/-! ## Where a thread stands -/

/-- The index object of a load that has reserved nothing yet. -/
def LoadStage.unreserved : LoadStage → Option Nat
  | counting => none
  | reserving index _ => some index
  | testing index _ => some index
  | evicting index _ => some index
  | granting index _ => some index
  | allocating _ => none
  | reading _ => none

/-- The thread has the lock of `Reserve`. -/
def LoadStage.locks : LoadStage → Bool
  | testing _ _ => true
  | evicting _ _ => true
  | granting _ _ => true
  | _ => false

def GetIndexPhase.unreserved : GetIndexPhase → Option Nat
  | loading _ _ stage => stage.unreserved
  | _ => none

def GetIndexPhase.locks : GetIndexPhase → Bool
  | loading _ _ stage => stage.locks
  | _ => false

/-- The call of a thread that has set `loading`. -/
def GetIndexPhase.loader : GetIndexPhase → Option IndexCall
  | loading call _ _ => some call
  | verifying call _ => some call
  | publishing call _ _ => some call
  | catching call => some call
  | _ => none

/-- The steps that a thread in `Reserve` can take at most, by the slots with an index. -/
def LoadStage.roundsLeft (indexed : Nat) : LoadStage → Nat
  | testing _ _ => 2 * indexed + 2
  | evicting _ _ => 2 * indexed + 1
  | granting _ _ => 1
  | _ => 0

def GetIndexPhase.roundsLeft (indexed : Nat) : GetIndexPhase → Nat
  | loading _ _ stage => stage.roundsLeft indexed
  | _ => 0

theorem GetIndexPhase.roundsLeft_le (indexed : Nat) (phase : GetIndexPhase) :
    phase.roundsLeft indexed ≤ 2 * indexed + 2 := by
  cases phase with
  | loading call since stage => cases stage <;> simp [roundsLeft, LoadStage.roundsLeft]
  | _ => exact Nat.zero_le _

theorem LoadStage.locks_of_unreserved {stage : LoadStage} (h : stage.unreserved = none) :
    stage.locks = false := by
  cases stage <;> first | rfl | cases h

theorem GetIndexPhase.index_of_unreserved {phase : GetIndexPhase} {index : Nat}
    (h : phase.unreserved = some index) : phase.index = some index := by
  cases phase with
  | loading call since stage =>
      cases stage <;> first | exact h | cases h
  | _ => cases h

theorem GetIndexPhase.slot_of_loader {phase : GetIndexPhase} {call : IndexCall}
    (h : phase.loader = some call) : phase.slot = some call.slot := by
  cases phase with
  | loading call' _ _ => cases h; rfl
  | verifying call' _ => cases h; rfl
  | publishing call' _ _ => cases h; rfl
  | catching call' => cases h; rfl
  | _ => cases h

/-! ## The cases -/

namespace IndexCacheState

/-- A step of the cache. -/
inductive IndexStep (threads limit minRequests : Nat) (s : IndexCacheState) :
    IndexCacheLabel → IndexCacheState → Prop
  | refused {i : Nat} {path : Text} {interrupted : Bool} (hthread : s.threads i = ⟨.outside, none⟩) :
      IndexStep threads limit minRequests s (.callGetIndex i path interrupted) s
  | called {i : Nat} {path : Text} {interrupted : Bool} (hthread : s.threads i = ⟨.outside, none⟩) :
      IndexStep threads limit minRequests s (.callGetIndex i path interrupted) (s.setPhase i (.entering path))
  | entered {i : Nat} {path : Text} (hlock : s.lock = none) (hphase : (s.threads i).phase = .entering path) :
      IndexStep threads limit minRequests s (.lockEnter i) (s.afterEnter minRequests i path)
  | fingerprinted {i : Nat} {path : Text} {slot : Nat}
      (hphase : (s.threads i).phase = .fingerprinting path slot) :
      IndexStep threads limit minRequests s (.readFingerprint i true)
        (s.setPhase i (.comparing ⟨path, slot, (s.files path).current, (s.files path).version⟩))
  | unopened {i : Nat} {path : Text} {slot : Nat}
      (hphase : (s.threads i).phase = .fingerprinting path slot) :
      IndexStep threads limit minRequests s (.readFingerprint i false) (s.setPhase i .outside)
  | compared {i : Nat} {call : IndexCall} (hlock : s.lock = none)
      (hphase : (s.threads i).phase = .comparing call) :
      IndexStep threads limit minRequests s (.lockCompare i) (s.afterCompare i call)
  | counted {i rowCount since : Nat} {call : IndexCall}
      (hphase : (s.threads i).phase = .loading call since .counting) :
      IndexStep threads limit minRequests s (.countRows i rowCount) (s.afterCount limit i call since rowCount)
  | locked {i since index bytes : Nat} {call : IndexCall} (hlock : s.lock = none)
      (hphase : (s.threads i).phase = .loading call since (.reserving index bytes)) :
      IndexStep threads limit minRequests s (.lockReserve i)
        ({ s with lock := some i }.setPhase i (.loading call since (.testing index bytes)))
  | full {i since index bytes : Nat} {call : IndexCall}
      (hphase : (s.threads i).phase = .loading call since (.testing index bytes)) :
      IndexStep threads limit minRequests s (.testRoom i)
        (s.setPhase i (.loading call since (.evicting index bytes)))
  | room {i since index bytes : Nat} {call : IndexCall}
      (hphase : (s.threads i).phase = .loading call since (.testing index bytes))
      (hroom : bytes ≤ idxSub limit s.budgetBytes) :
      IndexStep threads limit minRequests s (.testRoom i)
        (s.setPhase i (.loading call since (.granting index bytes)))
  | evicted {i since index bytes : Nat} {call : IndexCall}
      (hphase : (s.threads i).phase = .loading call since (.evicting index bytes)) :
      IndexStep threads limit minRequests s (.evictOldest i) (s.afterEvict i call since index bytes)
  | granted {i since index bytes : Nat} {call : IndexCall}
      (hphase : (s.threads i).phase = .loading call since (.granting index bytes)) :
      IndexStep threads limit minRequests s (.grant i) (s.afterGrant i call since index bytes)
  | unallocated {i since index : Nat} {outOfMemory : Bool} {call : IndexCall}
      (hphase : (s.threads i).phase = .loading call since (.allocating index)) :
      IndexStep threads limit minRequests s (.allocate i outOfMemory) (s.setPhase i (.verifying call none))
  | allocated {i since index : Nat} {outOfMemory : Bool} {call : IndexCall}
      (hphase : (s.threads i).phase = .loading call since (.allocating index)) :
      IndexStep threads limit minRequests s (.allocate i outOfMemory)
        (s.setPhase i (.loading call since (.reading index)))
  | grew {i since index : Nat} {call : IndexCall}
      (hphase : (s.threads i).phase = .loading call since (.reading index)) :
      IndexStep threads limit minRequests s (.readRows i true) (s.setPhase i (.verifying call none))
  | loaded {i since index : Nat} {call : IndexCall}
      (hphase : (s.threads i).phase = .loading call since (.reading index)) :
      IndexStep threads limit minRequests s (.readRows i false)
        (s.setPhase i (.verifying call (some ⟨index, since, (s.files call.path).version⟩)))
  | rethrown {i since : Nat} {stage : LoadStage} {call : IndexCall} {interrupted : Bool}
      {type : LoadExceptionType} (hphase : (s.threads i).phase = .loading call since stage)
      (hstage : stage.unreserved = none) :
      IndexStep threads limit minRequests s (.loadThrows i interrupted type) (s.setPhase i (.catching call))
  | swallowed {i since : Nat} {stage : LoadStage} {call : IndexCall} {interrupted : Bool}
      {type : LoadExceptionType} (hphase : (s.threads i).phase = .loading call since stage)
      (hstage : stage.unreserved = none) :
      IndexStep threads limit minRequests s (.loadThrows i interrupted type)
        (s.setPhase i (.verifying call none))
  | verified {i : Nat} {call : IndexCall} {index : Option LoadedIndex}
      (hphase : (s.threads i).phase = .verifying call index) :
      IndexStep threads limit minRequests s (.readFingerprint i true)
        (s.setPhase i (.publishing call index ((s.files call.path).current = call.fingerprint)))
  | unverified {i : Nat} {call : IndexCall} {index : Option LoadedIndex}
      (hphase : (s.threads i).phase = .verifying call index) :
      IndexStep threads limit minRequests s (.readFingerprint i false) (s.setPhase i (.catching call))
  | published {i : Nat} {call : IndexCall} {index : Option LoadedIndex} {unchanged : Bool}
      (hlock : s.lock = none) (hphase : (s.threads i).phase = .publishing call index unchanged) :
      IndexStep threads limit minRequests s (.lockPublish i) (s.afterPublish i call index unchanged)
  | caught {i : Nat} {call : IndexCall} (hlock : s.lock = none)
      (hphase : (s.threads i).phase = .catching call) :
      IndexStep threads limit minRequests s (.lockCatch i) (s.afterCatch i call)
  | dropped {i : Nat} {held : HeldIndex} (hthread : s.threads i = ⟨.outside, some held⟩) :
      IndexStep threads limit minRequests s (.dropIndex i) (s.setThread i {})
  | requested {i requestCount : Nat} (hthread : s.threads i = ⟨.outside, none⟩) (requests : Nat) :
      IndexStep threads limit minRequests s (.countRequests i requestCount) { s with requests }
  | destroyed {index : Nat} (halive : index ∈ s.alive) (hunused : ¬s.IndexInUse threads index) :
      IndexStep threads limit minRequests s (.destroyIndex index) (s.afterDestroy index)
  | changed {path : Text} {fingerprint : FileFingerprint}
      (hnew : fingerprint ∉ (s.files path).fingerprints) :
      IndexStep threads limit minRequests s (.changeFile path fingerprint)
        { s with files := Function.update s.files path ((s.files path).change fingerprint hnew) }

variable {threads limit minRequests : Nat} {s t : IndexCacheState}

/-- **Every step is one of the cases.** -/
theorem next_cases {l : IndexCacheLabel} (h : s.next threads limit minRequests l = some t) :
    IndexStep threads limit minRequests s l t := by
  cases l with
  | callGetIndex i path interrupted =>
      simp only [next] at h
      split at h
      · rename_i hthread
        split at h
        · cases h
          exact .refused hthread
        · cases h
          exact .called hthread
      · cases h
  | lockEnter i =>
      simp only [next] at h
      split at h
      · rename_i hlock hphase
        cases h
        exact .entered hlock hphase
      · cases h
  | readFingerprint i succeeds =>
      simp only [next] at h
      split at h
      · rename_i hphase
        cases succeeds <;> cases h
        · exact .unopened hphase
        · exact .fingerprinted hphase
      · rename_i hphase
        cases succeeds <;> cases h
        · exact .unverified hphase
        · exact .verified hphase
      · cases h
  | lockCompare i =>
      simp only [next] at h
      split at h
      · rename_i hlock hphase
        cases h
        exact .compared hlock hphase
      · cases h
  | countRows i rowCount =>
      simp only [next] at h
      split at h
      · rename_i hphase
        cases h
        exact .counted hphase
      · cases h
  | lockReserve i =>
      simp only [next] at h
      split at h
      · rename_i hlock hphase
        cases h
        exact .locked hlock hphase
      · cases h
  | testRoom i =>
      simp only [next] at h
      split at h
      · rename_i hphase
        split at h
        · cases h
          exact .full hphase
        · rename_i hroom
          cases h
          exact .room hphase (not_lt.mp hroom)
      · cases h
  | evictOldest i =>
      simp only [next] at h
      split at h
      · rename_i hphase
        cases h
        exact .evicted hphase
      · cases h
  | grant i =>
      simp only [next] at h
      split at h
      · rename_i hphase
        cases h
        exact .granted hphase
      · cases h
  | allocate i outOfMemory =>
      simp only [next] at h
      split at h
      · rename_i hphase
        split at h
        · cases h
          exact .unallocated hphase
        · cases h
          exact .allocated hphase
      · cases h
  | readRows i grew =>
      simp only [next] at h
      split at h
      · rename_i hphase
        cases grew <;> cases h
        · exact .loaded hphase
        · exact .grew hphase
      · cases h
  | loadThrows i interrupted type =>
      have hthrow : ∀ {call : IndexCall} {since : Nat} {stage : LoadStage},
          (s.threads i).phase = .loading call since stage → stage.unreserved = none →
          some (s.afterThrow i call interrupted type) = some t →
          IndexStep threads limit minRequests s (.loadThrows i interrupted type) t := by
        intro call since stage hphase hstage heq
        unfold afterThrow at heq
        split at heq
        · cases heq
          exact .rethrown hphase hstage
        · cases heq
          exact .swallowed hphase hstage
      simp only [next] at h
      split at h
      · rename_i hphase
        exact hthrow hphase rfl h
      · rename_i hphase
        exact hthrow hphase rfl h
      · rename_i hphase
        exact hthrow hphase rfl h
      · cases h
  | lockPublish i =>
      simp only [next] at h
      split at h
      · rename_i hlock hphase
        cases h
        exact .published hlock hphase
      · cases h
  | lockCatch i =>
      simp only [next] at h
      split at h
      · rename_i hlock hphase
        cases h
        exact .caught hlock hphase
      · cases h
  | dropIndex i =>
      simp only [next] at h
      split at h
      · rename_i hthread
        cases h
        exact .dropped hthread
      · cases h
  | countRequests i requestCount =>
      simp only [next] at h
      split at h
      · rename_i hthread
        split at h
        · cases h
          exact .requested hthread _
        · cases h
          exact .requested hthread s.requests
      · cases h
  | destroyIndex index =>
      simp only [next] at h
      split at h
      · rename_i hguard
        cases h
        exact .destroyed hguard.1 hguard.2
      · cases h
  | changeFile path fingerprint =>
      simp only [next] at h
      split at h
      · rename_i hnew
        cases h
        exact .changed hnew
      · cases h

end IndexCacheState

end DuckdbLerobot.Storage
