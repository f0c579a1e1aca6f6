import DuckdbLerobot.Library.KeyedQueues
import DuckdbLerobot.Library.Parties
import DuckdbLerobot.Library.TransitionSystem

/-!
# The decoder cache

The threads of a scan share `LerobotDecoderCache`. `Acquire` takes an idle decoder of its shard, or a slot for a
new one; when there is no slot, the slot of an idle decoder of another shard. The decoder that it evicts is
closed and the new one is opened outside the lock, so other threads may do anything in between.

A lock section is one step, and so is what a thread does between two of them. Waits and notifications are left
out: a thread that waits may look again at any time. `releases` and `releasedAt` are history: how often
`Release` was called, and when a decoder was released for the last time. No step depends on them.
-/

set_option autoImplicit false

namespace DuckdbLerobot.Video

open DuckdbLerobot.Library

/-- An open decoder, as the cache sees it: the object, by the number of objects that were made before, and
`GetShardIndex`. -/
structure CachedDecoder where
  number : Nat
  shardIndex : Nat
  deriving DecidableEq

/-- `LerobotDecoderCache`. The queue of a shard that has no idle decoder is erased. -/
structure LerobotDecoderCache where
  openCount : Nat := 0
  /-- The newest first. -/
  idleLru : List Nat := []
  idleDecoders : Queues Nat CachedDecoder := ∅

/-- How a lock section of `Acquire` ends. -/
inductive AcquireOutcome
  | hit (decoder : CachedDecoder)
  /-- There was a slot for a new decoder. -/
  | opens
  | evicts (stale : CachedDecoder)
  | waits
  | assertionFailed
  deriving DecidableEq

namespace LerobotDecoderCache

variable (cache : LerobotDecoderCache)

/-- The idle decoders. -/
def idle : List CachedDecoder := cache.idleDecoders.queued

/-- A round of the loop in the lock section of `Acquire`. -/
def acquire (maxCachedDecoders shardIndex : Nat) : AcquireOutcome × LerobotDecoderCache :=
  let queue := cache.idleDecoders.queue shardIndex
  match queue.getLast? with
  | some decoder =>
      if shardIndex ∈ cache.idleLru then
        (.hit decoder, { cache with
          idleLru := cache.idleLru.erase shardIndex
          idleDecoders := cache.idleDecoders.replace shardIndex queue.dropLast })
      else (.assertionFailed, cache)
  | none =>
      if cache.openCount < maxCachedDecoders then
        (.opens, { cache with openCount := cache.openCount + 1 })
      else
        match cache.idleLru.getLast? with
        | none => (.waits, cache)
        | some staleShard =>
            match cache.idleDecoders.queue staleShard with
            | [] => (.assertionFailed, cache)
            | stale :: rest =>
                (.evicts stale, { cache with
                  idleLru := cache.idleLru.dropLast
                  idleDecoders := cache.idleDecoders.replace staleShard rest })

/-- The lock section of `Release`. The shard is the one of the decoder. -/
def release (decoder : CachedDecoder) : LerobotDecoderCache :=
  { cache with
    idleLru := decoder.shardIndex :: cache.idleLru
    idleDecoders := cache.idleDecoders.replace decoder.shardIndex
      (cache.idleDecoders.queue decoder.shardIndex ++ [decoder]) }

/-- The lock section of `Discard`, and the one of `Acquire` after an exception. -/
def returnSlot : LerobotDecoderCache := { cache with openCount := cache.openCount - 1 }

end LerobotDecoderCache

/-! ## The threads -/

/-- Where a thread stands in `Acquire`. -/
inductive AcquirePhase
  | outside
  /-- Before the lock section, or waiting in it. -/
  | locking (shardIndex : Nat)
  /-- Before `stale_decoder.reset()`. -/
  | closing (shardIndex : Nat) (stale : CachedDecoder)
  /-- In the constructor of the decoder. -/
  | opening (shardIndex : Nat)
  /-- The constructor has thrown. -/
  | catching
  deriving DecidableEq

/-- The slots that a thread has in `Acquire`. -/
def AcquirePhase.slots : AcquirePhase → Nat
  | outside => 0
  | locking _ => 0
  | _ => 1

/-- A thread, with the decoders that it has checked out. -/
structure CacheThread where
  phase : AcquirePhase := .outside
  held : List CachedDecoder := []

/-- The slots that a thread takes. -/
def CacheThread.share (thread : CacheThread) : Nat := thread.held.length + thread.phase.slots

/-- The cache, its threads and the history. -/
structure DecoderCacheState where
  cache : LerobotDecoderCache := {}
  threads : Nat → CacheThread := fun _ => {}
  /-- How many decoders were made. -/
  opened : Nat := 0
  releases : Nat := 0
  releasedAt : Nat → Nat := fun _ => 0

/-- A step of a thread. -/
inductive DecoderCacheLabel
  | callAcquire (thread shardIndex : Nat)
  | lockAcquire (thread : Nat)
  | resetStale (thread : Nat)
  | openDecoder (thread : Nat) (succeeds : Bool)
  | catchException (thread : Nat)
  /-- Nothing happens without a decoder. -/
  | release (thread : Nat) (decoder : Option CachedDecoder)
  | discard (thread : Nat) (decoder : Option CachedDecoder)

/-- The thread of a step. -/
def DecoderCacheLabel.thread : DecoderCacheLabel → Nat
  | callAcquire thread _ => thread
  | lockAcquire thread => thread
  | resetStale thread => thread
  | openDecoder thread _ => thread
  | catchException thread => thread
  | release thread _ => thread
  | discard thread _ => thread

namespace DecoderCacheState

variable (s : DecoderCacheState)

/-- Replace one thread. -/
def setThread (thread : Nat) (next : CacheThread) : DecoderCacheState :=
  { s with threads := Function.update s.threads thread next }

/-- After the lock section of `Acquire`. -/
def afterLock (thread shardIndex : Nat) : AcquireOutcome × LerobotDecoderCache → DecoderCacheState
  | (.hit decoder, cache) =>
      { s with cache }.setThread thread ⟨.outside, decoder :: (s.threads thread).held⟩
  | (.opens, cache) => { s with cache }.setThread thread ⟨.opening shardIndex, (s.threads thread).held⟩
  | (.evicts stale, cache) =>
      { s with cache }.setThread thread ⟨.closing shardIndex stale, (s.threads thread).held⟩
  | (.waits, cache) => { s with cache }
  | (.assertionFailed, cache) => { s with cache }

/-- After the constructor of a decoder. -/
def afterOpen (thread shardIndex : Nat) (succeeds : Bool) : DecoderCacheState :=
  if succeeds then
    { s with opened := s.opened + 1 }.setThread thread
      ⟨.outside, ⟨s.opened, shardIndex⟩ :: (s.threads thread).held⟩
  else s.setThread thread ⟨.catching, (s.threads thread).held⟩

/-- After `Release` of a decoder. -/
def afterRelease (thread : Nat) (decoder : CachedDecoder) : DecoderCacheState :=
  { s with
    cache := s.cache.release decoder
    releases := s.releases + 1
    releasedAt := Function.update s.releasedAt decoder.number s.releases }.setThread thread
      ⟨.outside, (s.threads thread).held.erase decoder⟩

/-- After `Discard` of a decoder. -/
def afterDiscard (thread : Nat) (decoder : CachedDecoder) : DecoderCacheState :=
  { s with cache := s.cache.returnSlot }.setThread thread
    ⟨.outside, (s.threads thread).held.erase decoder⟩

/-- A call with a decoder that the thread may not have. -/
def withDecoder (thread : Nat) (after : CachedDecoder → DecoderCacheState) :
    Option CachedDecoder → Option DecoderCacheState
  | none => some s
  | some decoder => if decoder ∈ (s.threads thread).held then some (after decoder) else none

/-- A step of a thread of the scan. -/
def next (maxCachedDecoders : Nat) : DecoderCacheLabel → Option DecoderCacheState
  | .callAcquire thread shardIndex =>
      if (s.threads thread).phase = .outside then
        some (s.setThread thread ⟨.locking shardIndex, (s.threads thread).held⟩)
      else none
  | .lockAcquire thread =>
      match (s.threads thread).phase with
      | .locking shardIndex =>
          some (s.afterLock thread shardIndex (s.cache.acquire maxCachedDecoders shardIndex))
      | _ => none
  | .resetStale thread =>
      match (s.threads thread).phase with
      | .closing shardIndex _ => some (s.setThread thread ⟨.opening shardIndex, (s.threads thread).held⟩)
      | _ => none
  | .openDecoder thread succeeds =>
      match (s.threads thread).phase with
      | .opening shardIndex => some (s.afterOpen thread shardIndex succeeds)
      | _ => none
  | .catchException thread =>
      if (s.threads thread).phase = .catching then
        some ({ s with cache := s.cache.returnSlot }.setThread thread ⟨.outside, (s.threads thread).held⟩)
      else none
  | .release thread decoder =>
      if (s.threads thread).phase = .outside then s.withDecoder thread (s.afterRelease thread) decoder
      else none
  | .discard thread decoder =>
      if (s.threads thread).phase = .outside then s.withDecoder thread (s.afterDiscard thread) decoder
      else none

end DecoderCacheState

/-- A cache with some number of threads. -/
def decoderCacheSystem (threads maxCachedDecoders : Nat) :
    TransitionSystem DecoderCacheState DecoderCacheLabel where
  init := {}
  step s l := if l.thread < threads then s.next maxCachedDecoders l else none

/-- A thread calls `Acquire` when it has no decoder. -/
def acquiresWithout (s : DecoderCacheState) : DecoderCacheLabel → Bool
  | .callAcquire thread _ => (s.threads thread).held.isEmpty
  | _ => true

/-- `MaxThreads` of `lerobot_video_targets`. -/
def maxThreads (needsDecode : Bool) (decodeThreads maxCachedDecoders : Nat) : Nat :=
  if needsDecode then min decodeThreads maxCachedDecoders else decodeThreads

end DuckdbLerobot.Video
