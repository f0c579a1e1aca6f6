import DuckdbLerobot.Video.ProducerInvariant
import Mathlib.Algebra.BigOperators.Group.Finset.Basic

/-!
# Producer tasks and consumers

The producer tasks (`LerobotVideoProducerTask::ExecuteTask`) and the consumers
(`ProduceLerobotVideoFrames`) of one video scan, interleaved at their accesses to
`LerobotVideoProducerState`: one access is one step, and what a party does between two accesses
belongs to the step before or after it. The scan is not interrupted and not abandoned.

The source is a parameter: what each frame query yields, in chunks of rows, and the function that
builds the targets of a row. A query that fails, a row that cannot be built and any other exception
in the body of `ExecuteTask` is a `raise` step.

`claims`, `filled` and `failures` are history: the buffers handed out, the buffers published, and
the exceptions that `Fail` received. No step reads them.
-/

set_option autoImplicit false

namespace DuckdbLerobot.Video

open DuckdbLerobot.Library LerobotVideoProducerState

variable {ρ τ ε : Type}

/-- The bind data of a scan, the results of its frame queries, and its parallelism. -/
structure VideoScan (ρ τ ε : Type) where
  config : LerobotVideoProducerConfig τ
  /-- The chunks of rows that each frame query yields. `Fetch` yields no empty chunk. -/
  frameQueries : List (List (List ρ))
  buildTargets : ρ → Except ε (List τ)
  producerThreads : Nat
  consumers : Nat
  producerThreads_pos : 0 < producerThreads
  consumers_pos : 0 < consumers
  chunk_ne_nil : ∀ chunks ∈ frameQueries, ∀ chunk ∈ chunks, chunk ≠ []

/-- Where a producer task stands in `ExecuteTask`. -/
inductive ProducerPhase (ε : Type)
  /-- Before the stop test at the head of the loop. -/
  | loopTop
  /-- Before `QueueTargets`. -/
  | queue
  /-- Before `GetQuery`, if the task has no query result. -/
  | query
  /-- Before `Fetch`, if the chunk is used up. -/
  | fetch
  /-- Before `BuildTargets` of the current row. -/
  | build
  /-- Returned `TASK_BLOCKED`. -/
  | blocked
  /-- Before `RequestStop`. -/
  | stopping
  /-- In the exception handler, before `Fail`. -/
  | failing (exception : ε)
  /-- Before `ProducerFinished`. -/
  | finishing
  | finished
  deriving DecidableEq

/-- The fields of a producer task. The stride is the number of producers of the scan. -/
structure LerobotVideoProducerTask (ρ τ ε : Type) where
  phase : ProducerPhase ε
  frameResult : Option (List (List ρ))
  currentChunk : List ρ
  currentRow : Nat
  pendingTargets : List τ
  pendingTargetPosition : Nat
  nextQuery : Nat

/-- Where a consumer stands. -/
inductive ConsumerPhase (τ ε : Type)
  /-- It claims a buffer next. -/
  | idle
  /-- Its last claim was blocked and it had no row to return. -/
  | waiting
  | holding (buffer : LerobotDecodeBuffer τ)
  /-- Its last claim answered `finished`. -/
  | finished
  /-- An exception left it: the one its claim threw, or one of its decoder (`none`). -/
  | failed (exception : Option ε)
  deriving DecidableEq

/-- The shared state, the parties, the producers that a claim or a failure took off the list of
blocked producers and has not rescheduled yet, and the history. -/
structure VideoScanState (ρ τ ε : Type) where
  shared : LerobotVideoProducerState τ ε
  producers : Nat → LerobotVideoProducerTask ρ τ ε
  consumers : Nat → ConsumerPhase τ ε
  toReschedule : List Nat
  claims : List (Nat × LerobotDecodeBuffer τ)
  filled : List (LerobotDecodeBuffer τ)
  failures : List ε

/-- A step: the party that takes it, and the choices that the schedule makes for it. -/
inductive VideoScanLabel (ε : Type)
  | testStop (producer : Nat)
  /-- `yields`: the task slice ends here, and the next one starts at the head of the loop. -/
  | queueTargets (producer : Nat) (yields : Bool)
  | getQuery (producer : Nat)
  | fetch (producer : Nat)
  | buildTargets (producer : Nat)
  | raise (producer : Nat) (exception : ε)
  | requestStop (producer : Nat)
  | fail (producer : Nat)
  /-- `order` enumerates the partial buffers. -/
  | producerFinished (producer : Nat) (order : List Nat)
  | reschedule (producer : Nat)
  /-- `hasOutput`: the consumer has rows to return, so a blocked claim does not make it wait. -/
  | claimBuffer (consumer : Nat) (hasOutput : Bool)
  | wake (consumer : Nat)
  /-- `decoded`: whether the buffer was decoded to its end, or the decoder threw. -/
  | finishBuffer (consumer : Nat) (decoded : Bool)

namespace VideoScan

variable (scan : VideoScan ρ τ ε)

/-- The number of producer tasks, which is also the query stride. -/
def producerCount : Nat := min scan.producerThreads scan.frameQueries.length

/-- What query `index` yields. -/
def queryResult (index : Nat) : List (List ρ) := (scan.frameQueries[index]?).getD []

/-- The initial state: every task starts at the query of its own index. -/
def init : VideoScanState ρ τ ε where
  shared := create scan.producerThreads scan.frameQueries.length
  producers := fun producer => ⟨.loopTop, none, [], 0, [], 0, producer⟩
  consumers := fun _ => .idle
  toReschedule := []
  claims := []
  filled := []
  failures := []

end VideoScan

namespace VideoScanState

variable (s : VideoScanState ρ τ ε)

/-- Replace one task. -/
def setTask (producer : Nat) (task : LerobotVideoProducerTask ρ τ ε) : VideoScanState ρ τ ε :=
  { s with producers := Function.update s.producers producer task }

/-- Replace one consumer's phase. -/
def setConsumer (consumer : Nat) (phase : ConsumerPhase τ ε) : VideoScanState ρ τ ε :=
  { s with consumers := Function.update s.consumers consumer phase }

/-- Replace the shared state, recording the ready buffers it gained. -/
def setShared (shared : LerobotVideoProducerState τ ε) : VideoScanState ρ τ ε :=
  { s with
    shared := shared
    filled := s.filled ++ shared.readyBuffers.drop s.shared.readyBuffers.length }

end VideoScanState

namespace VideoScan

variable (scan : VideoScan ρ τ ε)

/-- The stop test at the head of the loop. -/
def testStop (s : VideoScanState ρ τ ε) (producer : Nat) : Option (VideoScanState ρ τ ε) :=
  let task := s.producers producer
  match task.phase with
  | .loopTop =>
      if s.shared.stopRequested then some (s.setTask producer { task with phase := .stopping })
      else if task.pendingTargetPosition < task.pendingTargets.length then
        some (s.setTask producer { task with phase := .queue })
      else some (s.setTask producer { task with phase := .query })
  | _ => none

/-- One call of `QueueTargets`. -/
def queueTargets (s : VideoScanState ρ τ ε) (producer : Nat) (yields : Bool) :
    Option (VideoScanState ρ τ ε) :=
  let task := s.producers producer
  match task.phase with
  | .queue =>
      let (result, position, shared) := LerobotVideoProducerState.queueTargets scan.config s.shared
        task.pendingTargets task.pendingTargetPosition producer
      let s := s.setShared shared
      match result with
      | .blocked => some (s.setTask producer
          { task with phase := .blocked, pendingTargetPosition := position })
      | .stopped => some (s.setTask producer { task with phase := .finishing })
      | .queued => some (s.setTask producer
          { task with
            phase := if yields then .loopTop else .query
            pendingTargets := []
            pendingTargetPosition := 0 })
  | _ => none

/-- Start the next query of the task, if it has no query result. -/
def getQuery (s : VideoScanState ρ τ ε) (producer : Nat) : Option (VideoScanState ρ τ ε) :=
  let task := s.producers producer
  match task.phase, task.frameResult with
  | .query, none =>
      if s.shared.stopRequested || scan.frameQueries.length ≤ task.nextQuery then
        some (s.setTask producer { task with phase := .finishing })
      else
        some (s.setTask producer
          { task with
            phase := .fetch
            frameResult := some (scan.queryResult task.nextQuery)
            nextQuery := task.nextQuery + scan.producerCount })
  | .query, some _ => some (s.setTask producer { task with phase := .fetch })
  | _, _ => none

/-- Fetch the next chunk, if the current one is used up. A query at its end is dropped. -/
def fetch (s : VideoScanState ρ τ ε) (producer : Nat) : Option (VideoScanState ρ τ ε) :=
  let task := s.producers producer
  match task.phase with
  | .fetch =>
      if task.currentRow < task.currentChunk.length then
        some (s.setTask producer { task with phase := .build })
      else
        match task.frameResult with
        | none => none
        | some [] => some (s.setTask producer
            { task with phase := .loopTop, frameResult := none, currentChunk := [], currentRow := 0 })
        | some (chunk :: chunks) => some (s.setTask producer
            { task with
              phase := .build
              frameResult := some chunks
              currentChunk := chunk
              currentRow := 0 })
  | _ => none

/-- Build the targets of the current row. -/
def buildRow (s : VideoScanState ρ τ ε) (producer : Nat) : Option (VideoScanState ρ τ ε) :=
  let task := s.producers producer
  match task.phase, task.currentChunk[task.currentRow]? with
  | .build, some row =>
      let task := { task with
        pendingTargets := []
        pendingTargetPosition := 0
        currentRow := task.currentRow + 1 }
      match scan.buildTargets row with
      | .ok targets =>
          some (s.setTask producer { task with phase := .loopTop, pendingTargets := targets })
      | .error exception => some (s.setTask producer { task with phase := .failing exception })
  | _, _ => none

/-- Whether the task is in the body that the exception handler of `ExecuteTask` guards. -/
def inTryBlock : ProducerPhase ε → Bool
  | .loopTop | .queue | .query | .fetch | .build => true
  | _ => false

/-- An exception leaves the body of `ExecuteTask`. -/
def raise (s : VideoScanState ρ τ ε) (producer : Nat) (exception : ε) :
    Option (VideoScanState ρ τ ε) :=
  let task := s.producers producer
  if inTryBlock task.phase then some (s.setTask producer { task with phase := .failing exception })
  else none

/-- `RequestStop` of a task that saw the stop flag. -/
def requestStop (s : VideoScanState ρ τ ε) (producer : Nat) : Option (VideoScanState ρ τ ε) :=
  let task := s.producers producer
  match task.phase with
  | .stopping =>
      let (producersToWake, shared) :=
        LerobotVideoProducerState.requestStop s.shared fun _ => true
      some { s.setShared shared with
        toReschedule := s.toReschedule ++ producersToWake
        producers := Function.update s.producers producer { task with phase := .finishing } }
  | _ => none

/-- `Fail` in the exception handler. -/
def fail (s : VideoScanState ρ τ ε) (producer : Nat) : Option (VideoScanState ρ τ ε) :=
  let task := s.producers producer
  match task.phase with
  | .failing exception =>
      let (producersToWake, shared) :=
        LerobotVideoProducerState.fail s.shared exception fun _ => true
      some { s.setShared shared with
        toReschedule := s.toReschedule ++ producersToWake
        producers := Function.update s.producers producer { task with phase := .finishing }
        failures := s.failures ++ [exception] }
  | _ => none

/-- `ProducerFinished` of a task that ends by itself. -/
def producerFinished (s : VideoScanState ρ τ ε) (producer : Nat) (order : List Nat) :
    Option (VideoScanState ρ τ ε) :=
  let task := s.producers producer
  match task.phase with
  | .finishing =>
      if order.Perm s.shared.partialBuffers.keys then
        some ((s.setShared (LerobotVideoProducerState.producerFinished scan.config s.shared false
          order)).setTask producer { task with phase := .finished })
      else none
  | _ => none

/-- A blocked task that was taken off the list runs again, from the head of the loop. -/
def reschedule (s : VideoScanState ρ τ ε) (producer : Nat) : Option (VideoScanState ρ τ ε) :=
  let task := s.producers producer
  if producer ∈ s.toReschedule then
    some { s.setTask producer { task with phase := .loopTop } with
      toReschedule := s.toReschedule.erase producer }
  else none

/-- Whether a consumer in this phase calls `ClaimBuffer` next. A consumer that was answered
`finished` while it had rows to return asks again. -/
def mayClaim : ConsumerPhase τ ε → Bool
  | .idle | .finished => true
  | _ => false

/-- One call of `ClaimBuffer`. -/
def claimBuffer (s : VideoScanState ρ τ ε) (consumer : Nat) (hasOutput : Bool) :
    Option (VideoScanState ρ τ ε) :=
  if mayClaim (s.consumers consumer) then
    match LerobotVideoProducerState.claimBuffer s.shared fun _ => true with
    | (.error exception, _, _) => some (s.setConsumer consumer (.failed (some exception)))
    | (.ok .finished, _, _) => some (s.setConsumer consumer .finished)
    | (.ok .blocked, _, _) =>
        some (s.setConsumer consumer (if hasOutput then .idle else .waiting))
    | (.ok (.claimed buffer), producersToWake, shared) =>
        some { s.setConsumer consumer (.holding buffer) with
          shared := shared
          toReschedule := s.toReschedule ++ producersToWake
          claims := s.claims ++ [(consumer, buffer)] }
  else none

/-- A waiting consumer sees that it can go on. -/
def wake (s : VideoScanState ρ τ ε) (consumer : Nat) : Option (VideoScanState ρ τ ε) :=
  match s.consumers consumer with
  | .waiting => if consumerCanProgress s.shared then some (s.setConsumer consumer .idle) else none
  | _ => none

/-- A consumer is done with its buffer. -/
def finishBuffer (s : VideoScanState ρ τ ε) (consumer : Nat) (decoded : Bool) :
    Option (VideoScanState ρ τ ε) :=
  match s.consumers consumer with
  | .holding buffer =>
      some { s.setConsumer consumer (if decoded then .idle else .failed none) with
        shared := LerobotVideoProducerState.finishBuffer s.shared buffer.shardIndex }
  | _ => none

/-- One step of the party that the label names. -/
def step (s : VideoScanState ρ τ ε) : VideoScanLabel ε → Option (VideoScanState ρ τ ε)
  | .testStop producer => if producer < scan.producerCount then testStop s producer else none
  | .queueTargets producer yields =>
      if producer < scan.producerCount then scan.queueTargets s producer yields else none
  | .getQuery producer => if producer < scan.producerCount then scan.getQuery s producer else none
  | .fetch producer => if producer < scan.producerCount then fetch s producer else none
  | .buildTargets producer =>
      if producer < scan.producerCount then scan.buildRow s producer else none
  | .raise producer exception =>
      if producer < scan.producerCount then raise s producer exception else none
  | .requestStop producer => if producer < scan.producerCount then requestStop s producer else none
  | .fail producer => if producer < scan.producerCount then fail s producer else none
  | .producerFinished producer order =>
      if producer < scan.producerCount then scan.producerFinished s producer order else none
  | .reschedule producer => if producer < scan.producerCount then reschedule s producer else none
  | .claimBuffer consumer hasOutput =>
      if consumer < scan.consumers then claimBuffer s consumer hasOutput else none
  | .wake consumer => if consumer < scan.consumers then wake s consumer else none
  | .finishBuffer consumer decoded =>
      if consumer < scan.consumers then finishBuffer s consumer decoded else none

/-- The transition system of a scan. -/
def system : TransitionSystem (VideoScanState ρ τ ε) (VideoScanLabel ε) where
  init := scan.init
  step := scan.step

end VideoScan

end DuckdbLerobot.Video
