import DuckdbLerobot.Library.TransitionSystem
import Mathlib.Algebra.Ring.Nat
import Mathlib.Data.List.Basic
import Mathlib.Order.Basic

/-!
# The shared state of the codec executor

`LerobotCodecExecutor::Impl` keeps one queue for the jobs of all running batches and a pool of
workers. This file has its data and the functions that run under its lock.

A batch is named by the `Execute` call that owns it. `batches` of the source holds weak references.
A reference that has expired is of a batch with no remaining job, because queued and taken jobs own
their batch, so both reasons to skip an entry of that list are the test for remaining jobs here.

The encoder's options other than its thread count, and what it reports of an encoded video, are
parameters: the executor only passes them on.
-/

set_option autoImplicit false

namespace DuckdbLerobot.Codec

variable {ο κ ε : Type}

/-- The options of an encoder. -/
structure LerobotVideoEncodeOptions (ο : Type) where
  encoderThreads : Option Nat
  others : ο
  deriving DecidableEq

/-- One video to encode. -/
structure LerobotCodecJob (ο : Type) where
  featureIndex : Nat
  outputPath : String
  rawFramesPath : String
  frameCount : Nat
  options : LerobotVideoEncodeOptions ο
  deriving DecidableEq

/-- One encoded video. -/
structure LerobotCodecResult (κ : Type) where
  featureIndex : Nat := 0
  outputPath : String := ""
  encoded : κ
  deriving DecidableEq

/-- The state that the jobs of one `Execute` call share. -/
structure LerobotCodecBatchState (κ ε : Type) where
  results : List (LerobotCodecResult κ)
  error : Option ε
  completedJobs : Nat
  cancelled : Bool
  maxWorkers : Nat
  codecThreadBudget : Nat
  hostThreadBudget : Nat
  activeWorkers : Nat
  activeCodecThreads : Nat
  remainingJobs : Nat

/-- A job in the queue. -/
structure LerobotQueuedCodecJob (ο : Type) where
  batch : Nat
  job : LerobotCodecJob ο
  resultIndex : Nat
  codecThreads : Nat

/-- The fields of `Impl`, and the batch states that its pointers reach. -/
structure LerobotCodecExecutor (ο κ ε : Type) where
  queue : List (LerobotQueuedCodecJob ο)
  /-- The size of the pool. -/
  workers : Nat
  batches : List Nat
  activeCodecThreads : Nat
  stopping : Bool
  batchStates : Nat → LerobotCodecBatchState κ ε

/-- `NumericLimits<idx_t>::Maximum()`. -/
def idxMaximum : Nat := 2 ^ 64 - 1

/-- The state that `Execute` creates for a batch of `jobCount` jobs. -/
def LerobotCodecBatchState.create [Inhabited κ]
    (jobCount maxWorkers codecThreadBudget hostThreadBudget : Nat) :
    LerobotCodecBatchState κ ε where
  results := List.replicate jobCount { encoded := default }
  error := none
  completedJobs := 0
  cancelled := false
  maxWorkers := maxWorkers
  codecThreadBudget := codecThreadBudget
  hostThreadBudget := hostThreadBudget
  activeWorkers := 0
  activeCodecThreads := 0
  remainingJobs := jobCount

namespace LerobotCodecExecutor

variable (s : LerobotCodecExecutor ο κ ε)

/-- Change the state of one batch. -/
def updateBatch (batch : Nat) (f : LerobotCodecBatchState κ ε → LerobotCodecBatchState κ ε) :
    LerobotCodecExecutor ο κ ε :=
  { s with batchStates := Function.update s.batchStates batch (f (s.batchStates batch)) }

/-! ## Capacity -/

/-- Whether a batch has remaining jobs. -/
def live (batch : Nat) : Bool := (s.batchStates batch).remainingJobs != 0

/-- The loop of `globalCodecCapacityLocked` over the live batches. -/
def minimumHostBudget : List Nat → Nat → Nat
  | [], capacity => capacity
  | batch :: batches, capacity =>
      if live s batch then
        minimumHostBudget batches (min capacity (s.batchStates batch).hostThreadBudget)
      else minimumHostBudget batches capacity

/-- The smallest host budget of the live batches. The source drops the other entries of `batches`
in the same loop. -/
def globalCodecCapacityLocked : Nat × LerobotCodecExecutor ο κ ε :=
  let batches := s.batches.filter (live s)
  (if batches.isEmpty then 1 else minimumHostBudget s s.batches idxMaximum,
    { s with batches := batches })

/-- The largest host budget of the live batches. -/
def maximumHostBudget : List Nat → Nat → Nat
  | [], capacity => capacity
  | batch :: batches, capacity =>
      if live s batch then
        maximumHostBudget batches (max capacity (s.batchStates batch).hostThreadBudget)
      else maximumHostBudget batches capacity

/-- The second loop of `desiredWorkerCountLocked`. -/
def addDesiredWorkers (capacity : Nat) : List Nat → Nat → Nat
  | [], desiredWorkers => desiredWorkers
  | batch :: batches, desiredWorkers =>
      if live s batch then
        let batchWorkers := min (s.batchStates batch).maxWorkers (s.batchStates batch).remainingJobs
        if capacity - desiredWorkers ≤ batchWorkers then capacity
        else addDesiredWorkers capacity batches (desiredWorkers + batchWorkers)
      else addDesiredWorkers capacity batches desiredWorkers

/-- The size that the pool should have. -/
def desiredWorkerCountLocked : Nat :=
  addDesiredWorkers s (maximumHostBudget s s.batches 0) s.batches 0

/-- Grow the pool. -/
def ensureWorkersLocked : LerobotCodecExecutor ο κ ε :=
  { s with workers := max s.workers (desiredWorkerCountLocked s) }

/-! ## Taking, discarding and completing jobs -/

/-- Whether the budgets admit a job of a batch that is not cancelled. -/
def admits (globalCapacity : Nat) (entry : LerobotQueuedCodecJob ο) : Bool :=
  let batch := s.batchStates entry.batch
  !(decide (batch.maxWorkers ≤ batch.activeWorkers) ||
    decide (batch.codecThreadBudget < batch.activeCodecThreads + entry.codecThreads) ||
    decide (globalCapacity < s.activeCodecThreads + entry.codecThreads))

/-- The loop of `tryTakeJobLocked`: the first job that is cancelled or admitted, whether it is
admitted, and the other jobs. -/
def findJob (globalCapacity : Nat) : List (LerobotQueuedCodecJob ο) →
    Option (LerobotQueuedCodecJob ο × Bool × List (LerobotQueuedCodecJob ο))
  | [] => none
  | entry :: queue =>
      if (s.batchStates entry.batch).cancelled then some (entry, false, queue)
      else if admits s globalCapacity entry then some (entry, true, queue)
      else (findJob globalCapacity queue).map fun (job, reserved, rest) =>
        (job, reserved, entry :: rest)

/-- Reserve the budget of a job. -/
def reserve (entry : LerobotQueuedCodecJob ο) : LerobotCodecExecutor ο κ ε :=
  { s.updateBatch entry.batch fun batch => { batch with
      activeWorkers := batch.activeWorkers + 1
      activeCodecThreads := batch.activeCodecThreads + entry.codecThreads } with
    activeCodecThreads := s.activeCodecThreads + entry.codecThreads }

/-- Take a job from the queue. A job of a cancelled batch is taken without a budget. -/
def tryTakeJobLocked :
    Option (LerobotQueuedCodecJob ο × Bool) × LerobotCodecExecutor ο κ ε :=
  let (globalCapacity, s) := globalCodecCapacityLocked s
  match findJob s globalCapacity s.queue with
  | none => (none, s)
  | some (entry, reservedBudget, queue) =>
      let s := { s with queue := queue }
      (some (entry, reservedBudget), if reservedBudget then reserve s entry else s)

/-- The lock section of `DiscardCancelledJobs`: drop the queued jobs of a batch. -/
def discardQueuedJobs (batch : Nat) : LerobotCodecExecutor ο κ ε :=
  let discardedJobs := s.queue.countP fun entry => entry.batch == batch
  { s.updateBatch batch fun state =>
      { state with remainingJobs := state.remainingJobs - discardedJobs } with
    queue := s.queue.filter fun entry => entry.batch != batch }

/-- The lock section of `CompleteJob`: release the budget of a job. -/
def releaseJob (entry : LerobotQueuedCodecJob ο) (reservedBudget : Bool) :
    LerobotCodecExecutor ο κ ε :=
  let s := if reservedBudget then
      { s.updateBatch entry.batch fun batch => { batch with
          activeWorkers := batch.activeWorkers - 1
          activeCodecThreads := batch.activeCodecThreads - entry.codecThreads } with
        activeCodecThreads := s.activeCodecThreads - entry.codecThreads }
    else s
  s.updateBatch entry.batch fun batch => { batch with remainingJobs := batch.remainingJobs - 1 }

/-- The result section of `CompleteJob`: fill the result slot of a job that was encoded, and count
the job. -/
def countJob (entry : LerobotQueuedCodecJob ο) (encoded : κ) (error : Option ε) :
    LerobotCodecExecutor ο κ ε :=
  s.updateBatch entry.batch fun batch => { batch with
    results := if error.isNone && !batch.cancelled then
        batch.results.set entry.resultIndex
          ⟨entry.job.featureIndex, entry.job.outputPath, encoded⟩
      else batch.results
    completedJobs := batch.completedJobs + 1 }

/-! ## Enqueueing -/

/-- The thread count of the job at `jobIndex`. -/
def codecThreadsOf (maxWorkers codecThreadBudget jobIndex : Nat) : Nat :=
  codecThreadBudget / maxWorkers +
    if jobIndex % maxWorkers < codecThreadBudget % maxWorkers then 1 else 0

/-- The queue entries of a batch, from the job at `jobIndex` on. -/
def queuedJobs (batch maxWorkers codecThreadBudget : Nat) :
    List (LerobotCodecJob ο) → Nat → List (LerobotQueuedCodecJob ο)
  | [], _ => []
  | job :: jobs, jobIndex =>
      let codecThreads := codecThreadsOf maxWorkers codecThreadBudget jobIndex
      ⟨batch, { job with options := { job.options with encoderThreads := some codecThreads } },
        jobIndex, codecThreads⟩ :: queuedJobs batch maxWorkers codecThreadBudget jobs (jobIndex + 1)

/-- The lock section of `Execute`, if nothing in it throws: create the batch, queue its jobs and
grow the pool. -/
def enqueue [Inhabited κ] (batch : Nat) (jobs : List (LerobotCodecJob ο))
    (maxWorkers codecThreadBudget hostThreadBudget : Nat) : LerobotCodecExecutor ο κ ε :=
  ensureWorkersLocked
    { s with
      batchStates := Function.update s.batchStates batch
        (LerobotCodecBatchState.create jobs.length maxWorkers codecThreadBudget hostThreadBudget)
      batches := s.batches ++ [batch]
      queue := s.queue ++ queuedJobs batch maxWorkers codecThreadBudget jobs 0 }

/-- The destructor up to its join: the pool stops and every batch is cancelled. -/
def stop : LerobotCodecExecutor ο κ ε :=
  { s with
    stopping := true
    batchStates := fun batch =>
      if batch ∈ s.batches then { s.batchStates batch with cancelled := true }
      else s.batchStates batch }

end LerobotCodecExecutor

end DuckdbLerobot.Codec
