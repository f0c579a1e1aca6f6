import DuckdbLerobot.Library.TransitionSystem
import DuckdbLerobot.Video.TargetBatches

/-!
# The operator `lerobot_video_targets`

DuckDB feeds chunks of input rows to parallel workers. A worker calls `LerobotVideoTargetsFunction`
with its chunk until the call returns `NEED_MORE_INPUT`. A call writes output rows until it has a full
batch, until a frame does not fit the byte limit, or until the chunk is used up.

A step is one round of the loop of a call (`callRound`). The workers share one counter only, the next
target ordinal.
-/

set_option autoImplicit false

namespace DuckdbLerobot.Video

open DuckdbLerobot.Library DuckdbLerobot.Path DuckdbLerobot.Storage

/-! ## A call -/

/-- `LerobotVideoTargetsLocalState`, with `have_decoded` in the option. -/
structure LerobotVideoTargetsLocalState (ψ φ : Type) where
  inputInitialized : Bool := false
  inputPosition : Nat := 0
  routes : List LerobotVideoRoute := []
  buffers : List (LerobotDecodeBuffer LerobotDecodeTarget) := []
  buffer : Option (LerobotDecodeBuffer LerobotDecodeTarget) := none
  targetPosition : Nat := 0
  decoder : Option (LerobotShardDecoder ψ φ) := none
  decoded : Option DecodedVideoFrame := none

/-- What a call has written so far. -/
structure TargetsCall where
  output : List OutputRow := []
  outputBytes : Nat := 0

/-- What the environment decides for a round: the choices for a batch, and the decoder that
`AcquireDecoder` finds in the cache or opens. -/
structure RoundChoices (ψ φ : Type) (frames : Text → List (FrameRow Double)) where
  batch : BatchChoices frames
  acquired : Except String (LerobotShardDecoder ψ φ)

/-- What a round of the loop of a call does. -/
inductive CallRound (ψ φ : Type)
  | again (state : LerobotVideoTargetsLocalState ψ φ) (call : TargetsCall)
  | leave
  | thrown (e : TargetsException)

namespace LerobotVideoTargetsLocalState

variable {ψ φ : Type}

/-- `InitializeInput`, when the input is not initialized. -/
def beginCall (state : LerobotVideoTargetsLocalState ψ φ) : LerobotVideoTargetsLocalState ψ φ :=
  if state.inputInitialized then state
  else { state with inputPosition := 0, inputInitialized := true }

@[simp] theorem beginCall_buffers (state : LerobotVideoTargetsLocalState ψ φ) :
    state.beginCall.buffers = state.buffers := by
  unfold beginCall
  split
  · rfl
  · rfl

@[simp] theorem beginCall_buffer (state : LerobotVideoTargetsLocalState ψ φ) :
    state.beginCall.buffer = state.buffer := by
  unfold beginCall
  split
  · rfl
  · rfl

@[simp] theorem beginCall_inputInitialized (state : LerobotVideoTargetsLocalState ψ φ) :
    state.beginCall.inputInitialized = true := by
  unfold beginCall
  split
  · rename_i hinitialized
    exact hinitialized
  · rfl

/-- `InputFinished`. -/
def inputFinished (state : LerobotVideoTargetsLocalState ψ φ) (rows : List InputRow) : Bool :=
  state.inputInitialized && decide (rows.length ≤ state.inputPosition) && state.buffers.isEmpty &&
    state.buffer.isNone

/-- `FinishInput`. -/
def finishInput (state : LerobotVideoTargetsLocalState ψ φ) : LerobotVideoTargetsLocalState ψ φ :=
  { state with
    inputInitialized := false
    inputPosition := 0
    routes := []
    buffers := []
    buffer := none }

/-- The row that is written for a target. -/
def outputRow (state : LerobotVideoTargetsLocalState ψ φ) (target : LerobotDecodeTarget)
    (decoded : Option DecodedVideoFrame) : OutputRow :=
  ⟨target, state.routes.getD target.routeIndex default, decoded⟩

end LerobotVideoTargetsLocalState

namespace TargetsOperator

variable {ψ φ : Type} (operator : TargetsOperator ψ φ)

/-- The rows of the next batch. -/
def nextBatch (rows : List InputRow) (state : LerobotVideoTargetsLocalState ψ φ) : List InputRow :=
  (rows.drop state.inputPosition).take operator.data.options.maxPendingTargets

/-- The loop at the next batch. `ClaimTargetOrdinals` adds to the counter modulo 2^64. -/
def buildRound (choices : BatchChoices operator.frames) (rows : List InputRow) (nextOrdinal : Nat)
    (state : LerobotVideoTargetsLocalState ψ φ) (call : TargetsCall) : Nat × CallRound ψ φ :=
  let batch := operator.nextBatch rows state
  ((nextOrdinal + batch.length) % 2 ^ 64,
    match operator.buildTargetBuffers choices nextOrdinal batch with
    | .error e => .thrown e
    | .ok (routes, buffers) => .again { state with
        inputPosition := state.inputPosition + batch.length
        routes := routes
        buffers := state.buffers ++ buffers } call)

/-- The loop at the next buffer. The decoder that is acquired is one of the shard of the route. -/
def takeRound (acquired : Except String (LerobotShardDecoder ψ φ))
    (buffer : LerobotDecodeBuffer LerobotDecodeTarget)
    (buffers : List (LerobotDecodeBuffer LerobotDecodeTarget))
    (state : LerobotVideoTargetsLocalState ψ φ) (call : TargetsCall) : Option (CallRound ψ φ) :=
  let state := { state with
    buffer := some buffer, buffers := buffers, targetPosition := 0, decoded := none }
  if operator.needsDecode = false then some (.again state call)
  else
    let route := buffer.targets.head?.bind fun target => state.routes[target.routeIndex]?
    match route, acquired with
    | none, _ => none
    | some _, .error message => some (.thrown (.decode (.media message)))
    | some route, .ok decoder =>
        if decoder.shardIndex ≠ route.videoFileIndex then none
        else
          match decoder.beginBuffer operator.media buffer with
          | .error e => some (.thrown (.decode e))
          | .ok decoder => some (.again { state with decoder := some decoder } call)

/-- The loop at a buffer, without decoding: the rows of its next targets. -/
def writeRound (buffer : LerobotDecodeBuffer LerobotDecodeTarget)
    (state : LerobotVideoTargetsLocalState ψ φ) (call : TargetsCall) : CallRound ψ φ :=
  let targets := (buffer.targets.drop state.targetPosition).take
    (operator.data.options.outputBatchSize - call.output.length)
  let targetPosition := state.targetPosition + targets.length
  .again
    { state with
      targetPosition := targetPosition
      buffer := if buffer.targets.length ≤ targetPosition then none else some buffer }
    { call with output := call.output ++ targets.map fun target => state.outputRow target none }

/-- The loop at a decoded frame: the row of its target, when its pixels fit. -/
def writeDecodedRound (buffer : LerobotDecodeBuffer LerobotDecodeTarget)
    (decoded : DecodedVideoFrame) (state : LerobotVideoTargetsLocalState ψ φ) (call : TargetsCall) :
    Option (CallRound ψ φ) :=
  let maxOutputBytes := operator.data.options.maxOutputBytes
  if 0 < call.output.length ∧
      maxOutputBytes - min call.outputBytes maxOutputBytes < pixelBytes decoded then some .leave
  else
    match buffer.targets[decoded.targetIndex]? with
    | none => none
    | some target => some (.again { state with decoded := none }
        ⟨call.output ++ [state.outputRow target (some decoded)], call.outputBytes + pixelBytes decoded⟩)

/-- The loop at a buffer, with decoding: the next frame. -/
def decodeRound (buffer : LerobotDecodeBuffer LerobotDecodeTarget)
    (state : LerobotVideoTargetsLocalState ψ φ) (call : TargetsCall) : Option (CallRound ψ φ) :=
  match state.decoder with
  | none => none
  | some decoder =>
      match decoder.next operator.media buffer with
      | .error e => some (.thrown (.decode e))
      | .ok (none, _) => some (.again { state with buffer := none, decoder := none } call)
      | .ok (some decoded, decoder) =>
          some (.again { state with decoder := some decoder, decoded := some decoded } call)

/-- A round of the loop of `LerobotVideoTargetsFunction`, with the ordinal after it. It is `none` where
the choices do not fit, or where the code would read an object that is not there. -/
def callRound (choices : RoundChoices ψ φ operator.frames) (rows : List InputRow) (nextOrdinal : Nat)
    (state : LerobotVideoTargetsLocalState ψ φ) (call : TargetsCall) :
    Option (Nat × CallRound ψ φ) :=
  if operator.data.options.outputBatchSize ≤ call.output.length then some (nextOrdinal, .leave)
  else
    match state.buffer with
    | none =>
        match state.buffers with
        | [] =>
            if rows.length ≤ state.inputPosition then some (nextOrdinal, .leave)
            else some (operator.buildRound choices.batch rows nextOrdinal state call)
        | buffer :: buffers =>
            (operator.takeRound choices.acquired buffer buffers state call).map (nextOrdinal, ·)
    | some buffer =>
        if operator.needsDecode = false then
          some (nextOrdinal, operator.writeRound buffer state call)
        else
          match state.decoded with
          | some decoded =>
              (operator.writeDecodedRound buffer decoded state call).map (nextOrdinal, ·)
          | none => (operator.decodeRound buffer state call).map (nextOrdinal, ·)

end TargetsOperator

/-! ## Workers -/

/-- A chunk that a worker has finished, with the output rows of its calls. -/
structure FinishedChunk where
  rows : List InputRow
  outputs : List OutputRow

/-- A worker: its chunk, the call it is in, and the output rows of its earlier calls for the chunk. -/
structure TargetsWorker (ψ φ : Type) where
  state : LerobotVideoTargetsLocalState ψ φ := {}
  chunk : Option (List InputRow) := none
  call : TargetsCall := {}
  emitted : List OutputRow := []
  finished : List FinishedChunk := []
  failed : Option TargetsException := none

namespace TargetsWorker

variable {ψ φ : Type}

/-- The end of a call: the result is `NEED_MORE_INPUT` when the chunk is used up. Otherwise it is
`HAVE_MORE_OUTPUT`, and the next call for the chunk begins. -/
def endCall (worker : TargetsWorker ψ φ) (rows : List InputRow) : TargetsWorker ψ φ :=
  let outputs := worker.emitted ++ worker.call.output
  if worker.state.inputFinished rows then
    { worker with
      state := worker.state.finishInput
      chunk := none
      call := {}
      emitted := []
      finished := ⟨rows, outputs⟩ :: worker.finished }
  else { worker with state := worker.state.beginCall, call := {}, emitted := outputs }

/-- A worker after a round. One that has thrown ends its query, and its state is not read again. -/
def afterRound (worker : TargetsWorker ψ φ) (rows : List InputRow) :
    CallRound ψ φ → TargetsWorker ψ φ
  | .again state call => { worker with state := state, call := call }
  | .leave => worker.endCall rows
  | .thrown e => { worker with failed := some e }

end TargetsWorker

/-- What a worker does next. -/
inductive TargetsAction (ψ φ : Type) (frames : Text → List (FrameRow Double))
  | feed (rows : List InputRow)
  | proceed (choices : RoundChoices ψ φ frames)

/-- The state of the operator. -/
structure TargetsState (ψ φ : Type) where
  nextOrdinal : Nat := 0
  workers : Nat → TargetsWorker ψ φ := fun _ => {}

namespace TargetsOperator

variable {ψ φ : Type} (operator : TargetsOperator ψ φ)

/-- A step of a worker, with the ordinal after it. A chunk has at most `STANDARD_VECTOR_SIZE` rows. -/
def workerStep (nextOrdinal : Nat) (worker : TargetsWorker ψ φ) :
    TargetsAction ψ φ operator.frames → Option (Nat × TargetsWorker ψ φ)
  | .feed rows =>
      if worker.chunk.isNone ∧ worker.failed.isNone ∧ rows.length ≤ standardVectorSize then
        some (nextOrdinal, { worker with state := worker.state.beginCall, chunk := some rows })
      else none
  | .proceed choices =>
      match worker.chunk, worker.failed with
      | some rows, none =>
          (operator.callRound choices rows nextOrdinal worker.state worker.call).map fun result =>
            (result.1, worker.afterRound rows result.2)
      | _, _ => none

/-- A step of the operator: one of its workers takes one. -/
def step (state : TargetsState ψ φ) (label : Nat × TargetsAction ψ φ operator.frames) :
    Option (TargetsState ψ φ) :=
  if label.1 < operator.threads then
    (operator.workerStep state.nextOrdinal (state.workers label.1) label.2).map fun result =>
      ⟨result.1, Function.update state.workers label.1 result.2⟩
  else none

/-- The operator with its workers. -/
def system : TransitionSystem (TargetsState ψ φ) (Nat × TargetsAction ψ φ operator.frames) where
  init := {}
  step := operator.step

end TargetsOperator

end DuckdbLerobot.Video
