import DuckdbLerobot.Codec.ExecutorState

/-!
# Workers and `Execute` calls

The workers of the pool (`WorkerLoop`) and any number of `Execute` calls, interleaved at their
accesses to shared state: a lock section, an access to the atomic flag `cancelled`, or a section of
a batch's result lock is one step. Calls and batches have the same numbers. The mutual exclusion of
the result lock is not modelled, so the steps of a call that the source takes under one hold of that
lock interleave here with the sections of the workers as well.

Waits and notifications are left out: a worker may look for a job, and a call may test its counter,
at any time.

`encodings`, `settled`, `cancellers`, and of each call `jobs`, `discarded` and `sawInterrupt`, are
history: the answers of the encoder, the jobs counted in `completed_jobs`, the jobs whose failure
cancelled their batch, the argument, the jobs dropped by the last discard, and whether the call saw
an interrupt. No step reads them.
-/

set_option autoImplicit false

namespace DuckdbLerobot.Codec

open DuckdbLerobot.Library

variable {ο κ ε : Type}

/-- Where a worker stands with a job. -/
inductive JobStage
  /-- Before it tests `cancelled`. -/
  | taken
  /-- In `EncodeVideo`. -/
  | encoding
  /-- At the head of `CompleteJob`. -/
  | completing
  /-- It has cancelled the batch, and records the error next. -/
  | recording
  /-- Before it releases the budget. -/
  | releasing
  /-- Before the job is counted. -/
  | counting
  deriving DecidableEq

/-- The local variables of a worker that has taken a job. -/
structure TakenJob (ο κ ε : Type) where
  entry : LerobotQueuedCodecJob ο
  reservedBudget : Bool
  stage : JobStage
  encoded : κ
  error : Option ε

/-- A worker waits for a job, has one, or has left its loop. -/
inductive WorkerPhase (ο κ ε : Type)
  | idle
  | holding (job : TakenJob ο κ ε)
  | exited

/-- How an `Execute` call ends. -/
inductive ExecuteOutcome (κ ε : Type)
  | returned (results : List (LerobotCodecResult κ))
  | interruptException
  /-- The error of a job is rethrown. -/
  | jobError (error : ε)
  /-- `InvalidInputException`: the arguments are refused. -/
  | invalidInput
  /-- `InternalException`: the executor is stopping. -/
  | stoppingException
  /-- An exception of the container or thread constructors in the lock section. -/
  | enqueueException

/-- Where an `Execute` call stands. -/
inductive ExecutePhase (κ ε : Type)
  | notCalled
  /-- At the head of the wait loop. -/
  | waiting
  /-- Before it asks the context for an interrupt. -/
  | testing
  /-- Before it tests `cancelled`. -/
  | checking
  /-- Before the lock section of `DiscardCancelledJobs`. -/
  | discarding
  /-- Before the result section of `DiscardCancelledJobs`. -/
  | adding (discardedJobs : Nat)
  /-- After the loop, with the error it copied. -/
  | leaving (error : Option ε)
  | ended (outcome : ExecuteOutcome κ ε)

/-- The local variables of a call, and its history. -/
structure ExecuteCall (ο κ ε : Type) where
  phase : ExecutePhase κ ε
  interrupted : Bool
  discardedQueue : Bool
  jobs : List (LerobotCodecJob ο)
  discarded : List Nat
  sawInterrupt : Bool

/-- The executor, its workers and its callers. -/
structure ExecutorState (ο κ ε : Type) where
  shared : LerobotCodecExecutor ο κ ε
  workers : Nat → WorkerPhase ο κ ε
  calls : Nat → ExecuteCall ο κ ε
  encodings : List (Nat × Nat × LerobotCodecJob ο × Except ε κ)
  settled : List (Nat × Nat)
  cancellers : List (Nat × Nat × ε)

/-- A step: the worker or call that takes it, and what the environment answers it. -/
inductive ExecutorLabel (ο κ ε : Type)
  /-- `Execute`, up to the wait loop. `numberOfThreads` is the thread limit of the database;
  `failure` is the size of the pool at which the lock section throws. -/
  | execute (call : Nat) (jobs : List (LerobotCodecJob ο)) (maxWorkers codecThreadBudget : Nat)
      (numberOfThreads : Nat) (failure : Option Nat)
  | tryTakeJob (worker : Nat)
  | testCancelled (worker : Nat)
  | encodeVideo (worker : Nat) (answer : Except ε κ)
  | exchangeCancelled (worker : Nat)
  | recordError (worker : Nat)
  | releaseJob (worker : Nat)
  | countJob (worker : Nat)
  | testCompleted (call : Nat)
  | testInterrupted (call : Nat) (isInterrupted : Bool)
  | checkCancelled (call : Nat)
  | discardQueue (call : Nat)
  | addDiscarded (call : Nat)
  | leave (call : Nat) (isInterrupted : Bool)
  | stop

namespace ExecutorState

variable (s : ExecutorState ο κ ε)

/-- Replace one worker's phase. -/
def setWorker (worker : Nat) (phase : WorkerPhase ο κ ε) : ExecutorState ο κ ε :=
  { s with workers := Function.update s.workers worker phase }

/-- Replace one call. -/
def setCall (call : Nat) (state : ExecuteCall ο κ ε) : ExecutorState ο κ ε :=
  { s with calls := Function.update s.calls call state }

/-- The state of one batch. -/
def batch (call : Nat) : LerobotCodecBatchState κ ε := s.shared.batchStates call

/-- Change the state of one batch. -/
def updateBatch (call : Nat) (f : LerobotCodecBatchState κ ε → LerobotCodecBatchState κ ε) :
    ExecutorState ο κ ε :=
  { s with shared := s.shared.updateBatch call f }

end ExecutorState

namespace Executor

/-- No batch, no worker, no call. -/
def init [Inhabited κ] : ExecutorState ο κ ε where
  shared :=
    { queue := []
      workers := 0
      batches := []
      activeCodecThreads := 0
      stopping := false
      batchStates := fun _ => LerobotCodecBatchState.create 0 0 0 0 }
  workers := fun _ => .idle
  calls := fun _ => ⟨.notCalled, false, false, [], [], false⟩
  encodings := []
  settled := []
  cancellers := []

/-- `Execute` up to its wait loop. The thread limit of the database is a signed integer. -/
def execute [Inhabited κ] (s : ExecutorState ο κ ε) (call : Nat) (jobs : List (LerobotCodecJob ο))
    (maxWorkers codecThreadBudget numberOfThreads : Nat) (failure : Option Nat) :
    Option (ExecutorState ο κ ε) :=
  match (s.calls call).phase with
  | .notCalled =>
      let finish (outcome : ExecuteOutcome κ ε) :=
        s.setCall call { s.calls call with phase := .ended outcome, jobs := jobs }
      if 2 ^ 63 ≤ numberOfThreads then none
      else if jobs = [] then some (finish (.returned []))
      else
        let hostThreadBudget := max 1 numberOfThreads
        if maxWorkers = 0 || codecThreadBudget = 0 || hostThreadBudget < codecThreadBudget then
          some (finish .invalidInput)
        else
          let maxWorkers := min (min maxWorkers jobs.length) codecThreadBudget
          if s.shared.stopping then some (finish .stoppingException)
          else
            let shared := s.shared.enqueue call jobs maxWorkers codecThreadBudget hostThreadBudget
            match failure with
            | none => some { s.setCall call { s.calls call with phase := .waiting, jobs := jobs } with
                shared := shared }
            | some workers =>
                -- the catch block takes the batch and its jobs back; started workers stay
                if s.shared.workers ≤ workers ∧ workers ≤ shared.workers then
                  some { finish .enqueueException with
                    shared := { s.shared with workers := workers } }
                else none
  | _ => none

/-- A worker looks for a job; without one it leaves its loop if the executor is stopping. -/
def tryTakeJob [Inhabited κ] (s : ExecutorState ο κ ε) (worker : Nat) :
    Option (ExecutorState ο κ ε) :=
  match s.workers worker with
  | .idle =>
      match s.shared.tryTakeJobLocked with
      | (none, shared) => some
          { s.setWorker worker (if shared.stopping then .exited else .idle) with shared := shared }
      | (some (entry, reservedBudget), shared) => some
          { s.setWorker worker (.holding ⟨entry, reservedBudget, .taken, default, none⟩) with
            shared := shared }
  | _ => none

/-- The test of `cancelled` before the encoder is called. -/
def testCancelled (s : ExecutorState ο κ ε) (worker : Nat) : Option (ExecutorState ο κ ε) :=
  match s.workers worker with
  | .holding ⟨entry, reservedBudget, .taken, encoded, error⟩ =>
      let stage := if (s.batch entry.batch).cancelled then .completing else .encoding
      some (s.setWorker worker (.holding ⟨entry, reservedBudget, stage, encoded, error⟩))
  | _ => none

/-- `EncodeVideo` answers or throws. -/
def encodeVideo (s : ExecutorState ο κ ε) (worker : Nat) (answer : Except ε κ) :
    Option (ExecutorState ο κ ε) :=
  match s.workers worker with
  | .holding ⟨entry, reservedBudget, .encoding, encoded, error⟩ =>
      let job := match answer with
        | .ok result => ⟨entry, reservedBudget, .completing, result, error⟩
        | .error exception => ⟨entry, reservedBudget, .completing, encoded, some exception⟩
      some { s.setWorker worker (.holding job) with
        encodings := s.encodings ++ [(entry.batch, entry.resultIndex, entry.job, answer)] }
  | _ => none

/-- The first statement of `CompleteJob`: the first failing job of a batch cancels it. -/
def exchangeCancelled (s : ExecutorState ο κ ε) (worker : Nat) : Option (ExecutorState ο κ ε) :=
  match s.workers worker with
  | .holding ⟨entry, reservedBudget, .completing, encoded, none⟩ =>
      some (s.setWorker worker (.holding ⟨entry, reservedBudget, .releasing, encoded, none⟩))
  | .holding ⟨entry, reservedBudget, .completing, encoded, some error⟩ =>
      if (s.batch entry.batch).cancelled then
        some (s.setWorker worker (.holding ⟨entry, reservedBudget, .releasing, encoded, some error⟩))
      else
        let s := s.updateBatch entry.batch fun batch => { batch with cancelled := true }
        some { s.setWorker worker (.holding ⟨entry, reservedBudget, .recording, encoded, some error⟩)
          with cancellers := s.cancellers ++ [(entry.batch, entry.resultIndex, error)] }
  | _ => none

/-- The job that cancelled the batch records its error. -/
def recordError (s : ExecutorState ο κ ε) (worker : Nat) : Option (ExecutorState ο κ ε) :=
  match s.workers worker with
  | .holding ⟨entry, reservedBudget, .recording, encoded, error⟩ =>
      let s := s.updateBatch entry.batch fun batch => { batch with error := error }
      some (s.setWorker worker (.holding ⟨entry, reservedBudget, .releasing, encoded, error⟩))
  | _ => none

/-- The lock section of `CompleteJob`. -/
def releaseJob (s : ExecutorState ο κ ε) (worker : Nat) : Option (ExecutorState ο κ ε) :=
  match s.workers worker with
  | .holding ⟨entry, reservedBudget, .releasing, encoded, error⟩ => some
      { s.setWorker worker (.holding ⟨entry, reservedBudget, .counting, encoded, error⟩) with
        shared := s.shared.releaseJob entry reservedBudget }
  | _ => none

/-- The result section of `CompleteJob`. -/
def countJob (s : ExecutorState ο κ ε) (worker : Nat) : Option (ExecutorState ο κ ε) :=
  match s.workers worker with
  | .holding ⟨entry, _, .counting, encoded, error⟩ => some
      { s.setWorker worker .idle with
        shared := s.shared.countJob entry encoded error
        settled := s.settled ++ [(entry.batch, entry.resultIndex)] }
  | _ => none

/-- The condition of the wait loop; behind the loop the call copies the batch's error. -/
def testCompleted (s : ExecutorState ο κ ε) (call : Nat) : Option (ExecutorState ο κ ε) :=
  match (s.calls call).phase with
  | .waiting =>
      let phase := if (s.batch call).completedJobs = (s.batch call).results.length then
          .leaving (s.batch call).error
        else .testing
      some (s.setCall call { s.calls call with phase := phase })
  | _ => none

/-- The interrupt test in the wait loop. -/
def testInterrupted (s : ExecutorState ο κ ε) (call : Nat) (isInterrupted : Bool) :
    Option (ExecutorState ο κ ε) :=
  match (s.calls call).phase with
  | .testing =>
      if isInterrupted then
        let s := s.updateBatch call fun batch => { batch with cancelled := true }
        some (s.setCall call
          { s.calls call with phase := .checking, interrupted := true, sawInterrupt := true })
      else some (s.setCall call { s.calls call with phase := .checking })
  | _ => none

/-- The test whether to discard the queued jobs, which a call does once. -/
def checkCancelled (s : ExecutorState ο κ ε) (call : Nat) : Option (ExecutorState ο κ ε) :=
  match (s.calls call).phase with
  | .checking =>
      if !(s.calls call).discardedQueue && (s.batch call).cancelled then
        some (s.setCall call { s.calls call with phase := .discarding, discardedQueue := true })
      else some (s.setCall call { s.calls call with phase := .waiting })
  | _ => none

/-- The lock section of `DiscardCancelledJobs`. -/
def discardQueue (s : ExecutorState ο κ ε) (call : Nat) : Option (ExecutorState ο κ ε) :=
  match (s.calls call).phase with
  | .discarding =>
      let entries := s.shared.queue.filter fun entry => entry.batch == call
      some { s.setCall call { s.calls call with
          phase := .adding entries.length
          discarded := entries.map LerobotQueuedCodecJob.resultIndex } with
        shared := s.shared.discardQueuedJobs call }
  | _ => none

/-- The result section of `DiscardCancelledJobs`. -/
def addDiscarded (s : ExecutorState ο κ ε) (call : Nat) : Option (ExecutorState ο κ ε) :=
  match (s.calls call).phase with
  | .adding discardedJobs =>
      let s := s.updateBatch call fun batch =>
        { batch with completedJobs := batch.completedJobs + discardedJobs }
      some { s.setCall call { s.calls call with phase := .waiting, discarded := [] } with
        settled := s.settled ++ (s.calls call).discarded.map fun index => (call, index) }
  | _ => none

/-- The end of `Execute`. -/
def leave (s : ExecutorState ο κ ε) (call : Nat) (isInterrupted : Bool) :
    Option (ExecutorState ο κ ε) :=
  match (s.calls call).phase with
  | .leaving error =>
      let outcome := if (s.calls call).interrupted || isInterrupted then .interruptException
        else
          match error with
          | some error => .jobError error
          | none => .returned (s.batch call).results
      some (s.setCall call { s.calls call with
        phase := .ended outcome
        sawInterrupt := (s.calls call).sawInterrupt || isInterrupted })
  | _ => none

/-- One step of the party that the label names. -/
def step [Inhabited κ] (s : ExecutorState ο κ ε) :
    ExecutorLabel ο κ ε → Option (ExecutorState ο κ ε)
  | .execute call jobs maxWorkers codecThreadBudget numberOfThreads failure =>
      execute s call jobs maxWorkers codecThreadBudget numberOfThreads failure
  | .tryTakeJob worker => if worker < s.shared.workers then tryTakeJob s worker else none
  | .testCancelled worker => testCancelled s worker
  | .encodeVideo worker answer => encodeVideo s worker answer
  | .exchangeCancelled worker => exchangeCancelled s worker
  | .recordError worker => recordError s worker
  | .releaseJob worker => releaseJob s worker
  | .countJob worker => countJob s worker
  | .testCompleted call => testCompleted s call
  | .testInterrupted call isInterrupted => testInterrupted s call isInterrupted
  | .checkCancelled call => checkCancelled s call
  | .discardQueue call => discardQueue s call
  | .addDiscarded call => addDiscarded s call
  | .leave call isInterrupted => leave s call isInterrupted
  | .stop => some { s with shared := s.shared.stop }

/-- The transition system of the executor. -/
def system (ο κ ε : Type) [Inhabited κ] :
    TransitionSystem (ExecutorState ο κ ε) (ExecutorLabel ο κ ε) where
  init := init
  step := step

end Executor

end DuckdbLerobot.Codec
