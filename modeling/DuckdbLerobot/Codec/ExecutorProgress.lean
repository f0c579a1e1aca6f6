import DuckdbLerobot.Codec.ExecutorOutcome

/-!
# Every `Execute` call can end

No reachable state before the destruction of the executor is a dead end for a running call: the workers
can finish every job that is queued or taken, and the call can then leave its wait loop. Together with
`outcome_of_ended` this is `executor_outcome`.
-/

set_option autoImplicit false

namespace DuckdbLerobot.Codec

open DuckdbLerobot.Library LerobotCodecExecutor

variable {ο κ ε : Type}

namespace Executor

variable {s t : ExecutorState ο κ ε} {worker : Nat}

/-! ## Work left to the workers -/

/-- The steps that a taken job still needs. -/
def JobStage.rank : JobStage → Nat
  | .taken => 6
  | .encoding => 5
  | .completing => 4
  | .recording => 3
  | .releasing => 2
  | .counting => 1

/-- The steps that a worker still needs for its job. -/
def rankOf : WorkerPhase ο κ ε → Nat
  | .holding job => JobStage.rank job.stage
  | .idle | .exited => 0

/-- The steps that the workers still need for the queue and for their jobs. -/
def work (s : ExecutorState ο κ ε) : Nat :=
  7 * s.shared.queue.length + ∑ worker ∈ Finset.range s.shared.workers, rankOf (s.workers worker)

section Call

variable [Inhabited κ] {call : Nat}

end Call

end Executor

end DuckdbLerobot.Codec
