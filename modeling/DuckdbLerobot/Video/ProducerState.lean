import DuckdbLerobot.Library.TransitionSystem
import DuckdbLerobot.Video.DecodeBuffer
import Mathlib.Data.Finset.Basic

/-!
# The video producer state

`LerobotVideoProducerState` is the queue between the producer tasks, which turn source rows into
decode targets, and the consumers, which claim full decode buffers. Every operation of this file
runs under the state's lock, so it is one function from states to states.

The target type is a parameter: the queue reads nothing of a target but the shard it belongs to.

* Producers: `queueTargets`, `producerFinished`, `fail`.
* Consumers: `claimBuffer`, `finishBuffer`, `consumerCanProgress`.
* The caller: `requestStop`.

The counters of `LerobotVideoDecodeMetrics` are left out: no branch reads them.
-/

set_option autoImplicit false

namespace DuckdbLerobot.Video

open DuckdbLerobot.Library

variable {τ ε : Type}

/-- The part of `LerobotVideoProducerConfig` that the queue reads. The bounds are those that
`GetLerobotVideoOptions` enforces. -/
structure LerobotVideoProducerConfig (τ : Type) where
  targetBufferSize : Nat
  maxPendingTargets : Nat
  fps : Int
  /-- `routes[target.route_index].video_file_index`. -/
  videoFileIndex : τ → Nat
  finalizeDecodeBuffer : LerobotDecodeBuffer τ → LerobotDecodeBuffer τ
  targetBufferSize_pos : 0 < targetBufferSize
  maxPendingTargets_pos : 0 < maxPendingTargets
  finalize_shardIndex : ∀ buffer, (finalizeDecodeBuffer buffer).shardIndex = buffer.shardIndex
  finalize_targets : ∀ buffer, (finalizeDecodeBuffer buffer).targets.Perm buffer.targets

/-- A node of the list `partial_lru`. An iterator is the node's address. -/
structure LruNode where
  address : Nat
  shardIndex : Nat
  deriving DecidableEq

/-- The fields that the lock protects. Producer tasks are named by their index. -/
structure LerobotVideoProducerState (τ ε : Type) where
  activeProducers : Nat
  sourceExhausted : Bool
  stopRequested : Bool
  error : Option ε
  partialBuffers : AList fun _ : Nat => List τ
  partialLru : List LruNode
  partialLruEntries : AList fun _ : Nat => Nat
  /-- The address of the next list node. -/
  nextLruAddress : Nat
  readyBuffers : List (LerobotDecodeBuffer τ)
  busyShards : Finset Nat
  blockedProducers : List Nat
  pendingTargetCount : Nat

/-- `LerobotTargetQueueResult`. -/
inductive LerobotTargetQueueResult
  | queued
  | blocked
  | stopped
  deriving DecidableEq

/-- `LerobotBufferClaimResult`, with the claimed buffer. -/
inductive LerobotBufferClaimResult (τ : Type)
  | claimed (buffer : LerobotDecodeBuffer τ)
  | blocked
  | finished

namespace LerobotVideoProducerState

/-- The state for `queryCount` frame queries and at most `producerThreads` producers. -/
def create (producerThreads queryCount : Nat) : LerobotVideoProducerState τ ε :=
  let activeProducers := min producerThreads queryCount
  { activeProducers := activeProducers
    sourceExhausted := activeProducers == 0
    stopRequested := false
    error := none
    partialBuffers := ∅
    partialLru := []
    partialLruEntries := ∅
    nextLruAddress := 0
    readyBuffers := []
    busyShards := ∅
    blockedProducers := []
    pendingTargetCount := 0 }

section Producers

variable (config : LerobotVideoProducerConfig τ)

/-- The recency list without the node that the map holds for a shard. -/
def lruWithout (s : LerobotVideoProducerState τ ε) (shardIndex : Nat) : List LruNode :=
  match s.partialLruEntries.lookup shardIndex with
  | some address => s.partialLru.eraseP fun node => node.address == address
  | none => s.partialLru

/-- Move a shard to the front of the recency list. -/
def touchPartialBuffer (s : LerobotVideoProducerState τ ε) (shardIndex : Nat) :
    LerobotVideoProducerState τ ε :=
  { s with
    partialLru := ⟨s.nextLruAddress, shardIndex⟩ :: lruWithout s shardIndex
    partialLruEntries := s.partialLruEntries.insert shardIndex s.nextLruAddress
    nextLruAddress := s.nextLruAddress + 1 }

/-- Turn the partial buffer of a shard into a ready buffer. -/
def flushPartialBuffer (s : LerobotVideoProducerState τ ε) (shardIndex : Nat) :
    LerobotVideoProducerState τ ε :=
  match s.partialBuffers.lookup shardIndex with
  | none => s
  | some [] => s
  | some targets =>
      { s with
        partialBuffers := s.partialBuffers.erase shardIndex
        partialLru := lruWithout s shardIndex
        partialLruEntries := s.partialLruEntries.erase shardIndex
        readyBuffers := s.readyBuffers ++
          [config.finalizeDecodeBuffer ⟨shardIndex, config.fps, targets, []⟩] }

/-- Publish the least recently touched partial buffer, if there is a partial buffer. -/
def flushOldestPartialBuffer (s : LerobotVideoProducerState τ ε) : LerobotVideoProducerState τ ε :=
  if s.partialBuffers.keys.isEmpty then s
  else
    match s.partialLru.getLast? with
    | none => s
    | some node => flushPartialBuffer config s node.shardIndex

/-- Publish every partial buffer, in the enumeration order of the map. -/
def flushAllPartialBuffers (s : LerobotVideoProducerState τ ε) (order : List Nat) :
    LerobotVideoProducerState τ ε :=
  order.foldl (flushPartialBuffer config) s

/-- Add one target to its shard's partial buffer, which is flushed when it is full. -/
def queueTarget (s : LerobotVideoProducerState τ ε) (target : τ) : LerobotVideoProducerState τ ε :=
  let shardIndex := config.videoFileIndex target
  let targets := (s.partialBuffers.lookup shardIndex).getD [] ++ [target]
  let s := touchPartialBuffer
    { s with partialBuffers := s.partialBuffers.insert shardIndex targets } shardIndex
  let s := { s with pendingTargetCount := s.pendingTargetCount + 1 }
  if config.targetBufferSize ≤ targets.length then flushPartialBuffer config s shardIndex else s

/-- The loop of `queueTargets`: queue targets while there is room. The second component counts the
targets queued. -/
def queueWhileRoom : LerobotVideoProducerState τ ε → List τ → LerobotVideoProducerState τ ε × Nat
  | s, [] => (s, 0)
  | s, target :: targets =>
      if s.pendingTargetCount < config.maxPendingTargets then
        let (s, count) := queueWhileRoom (queueTarget config s target) targets
        (s, count + 1)
      else (s, 0)

/-- Queue the targets from `targetPosition` on. The result carries the new position; a producer that
finds no room is recorded as blocked after one partial buffer has been published. -/
def queueTargets (s : LerobotVideoProducerState τ ε) (targets : List τ) (targetPosition : Nat)
    (producerTask : Nat) : LerobotTargetQueueResult × Nat × LerobotVideoProducerState τ ε :=
  if s.stopRequested then (.stopped, targetPosition, s)
  else
    let (s, count) := queueWhileRoom config s (targets.drop targetPosition)
    let targetPosition := targetPosition + count
    if targetPosition = targets.length then (.queued, targetPosition, s)
    else
      let s := flushOldestPartialBuffer config s
      (.blocked, targetPosition, { s with blockedProducers := s.blockedProducers ++ [producerTask] })

/-- Drop every partial and ready buffer. Buffers that consumers hold keep their busy shards. -/
def discardBuffers (s : LerobotVideoProducerState τ ε) : LerobotVideoProducerState τ ε :=
  { s with
    partialBuffers := ∅
    partialLru := []
    partialLruEntries := ∅
    readyBuffers := []
    pendingTargetCount := 0 }

/-- What the end of a producer does to the buffers: a stopped run drops them, and the last producer
publishes the partial ones. -/
def settleBuffers (s : LerobotVideoProducerState τ ε) (order : List Nat) :
    LerobotVideoProducerState τ ε :=
  if s.stopRequested then discardBuffers s
  else if s.activeProducers = 0 then flushAllPartialBuffers config s order
  else s

/-- A producer ends. `order` is the enumeration order of the partial buffers. -/
def producerFinished (s : LerobotVideoProducerState τ ε) (abandoned : Bool) (order : List Nat) :
    LerobotVideoProducerState τ ε :=
  let s := settleBuffers config
    { s with
      stopRequested := s.stopRequested || abandoned
      activeProducers := s.activeProducers - 1 } order
  if s.activeProducers = 0 then { s with sourceExhausted := true } else s

end Producers

/-- The live blocked producers, and the state without them. `alive` says whose weak reference still
locks. -/
def takeBlockedProducers (s : LerobotVideoProducerState τ ε) (alive : Nat → Bool) :
    List Nat × LerobotVideoProducerState τ ε :=
  (s.blockedProducers.filter alive, { s with blockedProducers := [] })

/-- Stop the run; the result is the producers to reschedule. -/
def requestStop (s : LerobotVideoProducerState τ ε) (alive : Nat → Bool) :
    List Nat × LerobotVideoProducerState τ ε :=
  takeBlockedProducers { s with stopRequested := true } alive

/-- Record an error, keeping an earlier one, and stop the run. -/
def fail (s : LerobotVideoProducerState τ ε) (exception : ε) (alive : Nat → Bool) :
    List Nat × LerobotVideoProducerState τ ε :=
  requestStop { s with error := some (s.error.getD exception) } alive

/-- The first ready buffer whose shard nobody holds, and the ready buffers without it. -/
def takeReady (busyShards : Finset Nat) : List (LerobotDecodeBuffer τ) →
    Option (LerobotDecodeBuffer τ × List (LerobotDecodeBuffer τ))
  | [] => none
  | buffer :: buffers =>
      if buffer.shardIndex ∈ busyShards then
        (takeReady busyShards buffers).map fun (result, rest) => (result, buffer :: rest)
      else some (buffer, buffers)

/-- Claim the first ready buffer of a free shard. -/
def tryClaimReady (s : LerobotVideoProducerState τ ε) :
    Option (LerobotDecodeBuffer τ × LerobotVideoProducerState τ ε) :=
  (takeReady s.busyShards s.readyBuffers).map fun (buffer, readyBuffers) =>
    (buffer, { s with
      readyBuffers := readyBuffers
      busyShards := insert buffer.shardIndex s.busyShards
      pendingTargetCount := s.pendingTargetCount - buffer.targets.length })

/-- What a consumer's claim answers or throws, the producers it reschedules, and the state after
it. -/
def claimBuffer (s : LerobotVideoProducerState τ ε) (alive : Nat → Bool) :
    Except ε (LerobotBufferClaimResult τ) × List Nat × LerobotVideoProducerState τ ε :=
  match s.error with
  | some sourceError => (.error sourceError, [], s)
  | none =>
      match tryClaimReady s with
      | some (buffer, s) =>
          let (producersToWake, s) := takeBlockedProducers s alive
          (.ok (.claimed buffer), producersToWake, s)
      | none =>
          if s.sourceExhausted || s.stopRequested then (.ok .finished, [], s)
          else (.ok .blocked, [], s)

/-- A consumer gives its shard back. -/
def finishBuffer (s : LerobotVideoProducerState τ ε) (shardIndex : Nat) :
    LerobotVideoProducerState τ ε :=
  { s with busyShards := s.busyShards.erase shardIndex }

/-- The condition a waiting consumer waits for. -/
def consumerCanProgress (s : LerobotVideoProducerState τ ε) : Bool :=
  s.error.isSome || s.sourceExhausted || s.stopRequested ||
    s.readyBuffers.any fun buffer => decide (buffer.shardIndex ∉ s.busyShards)

end LerobotVideoProducerState

end DuckdbLerobot.Video
