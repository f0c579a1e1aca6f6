import DuckdbLerobot.Video.DecoderUse
import DuckdbLerobot.Video.OutputColumns
import DuckdbLerobot.Video.ProducerQueue

/-!
# The table functions `lerobot_video_frames` and `lerobot_video_windows`

The consumers of a scan call `LerobotVideoFramesFunction`, each in its own thread. A call collects a
chunk of rows (`ProduceLerobotVideoFrames`), and filters it. The rows are those of the decode buffers
that the consumer claims from the producer queue, one buffer after the other.

A step of a consumer is what it does between two accesses to the queue, or one round of the loop of
`ProduceLerobotVideoFrames`. The producer side of the queue is the environment: it may call the queue
at any time, in any way. A decoder is any decoder of the shard, since the decoder cache may return
one that other consumers have used.
-/

set_option autoImplicit false

namespace DuckdbLerobot.Video

open DuckdbLerobot.Library DuckdbLerobot.Path DuckdbLerobot.Storage

variable {ψ φ ε : Type}

/-- The bind data of a scan, its projected columns and filters, and what it uses of its environment.
`haveFfmpeg` is `LEROBOT_HAVE_FFMPEG`. The options are those that `GetLerobotVideoOptions` accepts, and
a converted image has at least one byte for each of its pixels. -/
structure FramesOperator (ψ φ : Type) where
  metadata : LerobotVideoMetadata
  routes : List LerobotVideoRoute
  options : LerobotVideoOptions
  columns : VideoColumns
  filters : List VideoFilter
  filterExpression : Option VideoFilterExpression
  queryCount : Nat
  haveFfmpeg : Bool
  synchronous : Bool
  sort : StdSort targetLess
  media : Media ψ φ
  outputBatchSize_pos : 0 < options.outputBatchSize
  targetBufferSize_pos : 0 < options.targetBufferSize
  maxPendingTargets_pos : 0 < options.maxPendingTargets
  filterExpression_eq : buildVideoFilterExpression columns filters = .ok filterExpression
  convert_ne_nil : ∀ frame width height pixels,
    media.convert frame width height = .ok pixels → pixels ≠ []

/-- What leaves a call as an exception. -/
inductive FramesException (ε : Type)
  | source (exception : ε)
  | decode (e : DecodeException)
  | missingExtension
  | interrupted

/-- `LerobotVideoFramesLocalState`, with `have_decoded` in the option. -/
structure LerobotVideoFramesLocalState (ψ φ : Type) where
  buffer : Option (LerobotDecodeBuffer LerobotDecodeTarget) := none
  targetPosition : Nat := 0
  decoder : Option (LerobotShardDecoder ψ φ) := none
  decoded : Option DecodedVideoFrame := none

/-- What `ProduceLerobotVideoFrames` has written so far. -/
structure FramesCall where
  output : List OutputRow := []
  outputBytes : Nat := 0

/-- `LerobotVideoProduceResult`. -/
inductive LerobotVideoProduceResult
  | haveOutput
  | blocked
  | finished
  deriving DecidableEq

/-- Where a consumer stands. -/
inductive FramesControl (ε : Type)
  /-- Before the next call. -/
  | returned
  /-- At the loop of `ProduceLerobotVideoFrames`. -/
  | producing
  /-- After a claim, before the decoder is acquired. -/
  | preparing
  /-- Before `FinishBuffer`. Then the loop goes on, or the exception is thrown. -/
  | releasing (exception : Option (FramesException ε))
  /-- Waiting for a buffer. -/
  | waiting
  /-- The last call has returned `FINISHED`. -/
  | finished
  | thrown (exception : FramesException ε)

/-- A consumer, with its history: the buffers that it has claimed, the shards that it has called
`FinishBuffer` for, the chunks of `ProduceLerobotVideoFrames`, and the outputs that it has returned. -/
structure FramesConsumer (ψ φ ε : Type) where
  state : LerobotVideoFramesLocalState ψ φ := {}
  control : FramesControl ε := .returned
  call : FramesCall := {}
  claimed : List (LerobotDecodeBuffer LerobotDecodeTarget) := []
  released : List Nat := []
  chunks : List (List OutputRow) := []
  emitted : List (List OutputRow) := []

/-- What the environment decides for a step of a consumer: the blocked producers that are still alive,
the decoder that is acquired, which may have been used before, and an exception such as that of an
interrupted query. -/
structure FramesChoices (operator : FramesOperator ψ φ) where
  alive : Nat → Bool
  acquired : Except String { decoder : LerobotShardDecoder ψ φ //
    decoder.Used operator.media operator.columns.needsPixels }
  raised : Option DecodeException

/-- What a consumer does next. -/
inductive FramesAction (operator : FramesOperator ψ φ)
  | call
  | proceed (choices : FramesChoices operator)
  | resume
  | interrupt (alive : Nat → Bool)

namespace FramesOperator

variable (operator : FramesOperator ψ φ)

/-- `NeedsDecode`. -/
def needsDecode : Bool := operator.columns.needsDecode operator.options

/-- The part of the bind data that the queue reads. -/
def config : LerobotVideoProducerConfig LerobotDecodeTarget where
  targetBufferSize := operator.options.targetBufferSize
  maxPendingTargets := operator.options.maxPendingTargets
  fps := operator.metadata.fps
  videoFileIndex := fun target =>
    (operator.routes.getD target.routeIndex default).videoFileIndex
  finalizeDecodeBuffer :=
    finalizeDecodeBuffer operator.media.arithmetic operator.sort operator.options.clusterGap
  targetBufferSize_pos := operator.targetBufferSize_pos
  maxPendingTargets_pos := operator.maxPendingTargets_pos
  finalize_shardIndex := fun _ => rfl
  finalize_targets := finalizeDecodeBuffer_targets_perm operator.media.arithmetic operator.sort
    operator.options.clusterGap

/-- The row that is written for a target. -/
def outputRow (target : LerobotDecodeTarget) (decoded : Option DecodedVideoFrame) : OutputRow :=
  ⟨target, operator.routes.getD target.routeIndex default, decoded⟩

/-- `ApplyFilters` of a chunk. -/
def filtered (rows : List OutputRow) : List OutputRow :=
  applyFilters operator.filterExpression
    (fun row => writeVideoTarget operator.metadata operator.options row operator.columns) rows

/-! ## A step of a consumer -/

/-- The end of `ProduceLerobotVideoFrames`, and what `LerobotVideoFramesFunction` does with the chunk:
it returns the rows that pass the filters, it ends, it waits, or it collects another chunk. -/
def endProduce (result : LerobotVideoProduceResult) (consumer : FramesConsumer ψ φ ε) :
    FramesConsumer ψ φ ε :=
  let rows := consumer.call.output
  let output := operator.filtered rows
  let consumer := { consumer with chunks := consumer.chunks ++ [rows], call := {} }
  let result := if rows = [] then result else .haveOutput
  if output ≠ [] then
    { consumer with control := .returned, emitted := consumer.emitted ++ [output] }
  else
    match result with
    | .finished => { consumer with control := .finished }
    | .blocked => { consumer with control := .waiting }
    | .haveOutput => { consumer with control := .producing }

/-- The loop without a buffer: the answer of `ClaimBuffer`. -/
def claimRound (answer : Except ε (LerobotBufferClaimResult LerobotDecodeTarget))
    (consumer : FramesConsumer ψ φ ε) : FramesConsumer ψ φ ε :=
  match answer with
  | .error exception => { consumer with control := .thrown (.source exception) }
  | .ok .blocked => operator.endProduce .blocked consumer
  | .ok .finished => operator.endProduce .finished consumer
  | .ok (.claimed buffer) =>
      let state := { consumer.state with
        buffer := some buffer, targetPosition := 0, decoded := none }
      let consumer := { consumer with state := state, claimed := consumer.claimed ++ [buffer] }
      if operator.needsDecode = false then consumer
      else if operator.haveFfmpeg = false then
        { consumer with control := .releasing (some .missingExtension) }
      else { consumer with control := .preparing }

/-- `AcquireDecoder` and `BeginBuffer`, with their handler: the exception, or the decoder. The decoder
that is acquired is one of the shard. -/
def prepareRound (choices : FramesChoices operator) (buffer : LerobotDecodeBuffer LerobotDecodeTarget)
    (consumer : FramesConsumer ψ φ ε) : Option (FramesConsumer ψ φ ε) :=
  let thrown (e : DecodeException) :=
    some { consumer with control := .releasing (some (.decode e)) }
  match choices.raised, choices.acquired with
  | some e, _ => thrown e
  | none, .error message => thrown (.media message)
  | none, .ok acquired =>
      if acquired.val.shardIndex ≠ buffer.shardIndex then none
      else
        match acquired.val.beginBuffer operator.media buffer with
        | .error e => thrown e
        | .ok decoder => some { consumer with
            state := { consumer.state with decoder := some decoder }
            control := .producing }

/-- The loop at a buffer, without decoding: the rows of its next targets. -/
def writeRound (buffer : LerobotDecodeBuffer LerobotDecodeTarget)
    (consumer : FramesConsumer ψ φ ε) : FramesConsumer ψ φ ε :=
  let targets := (buffer.targets.drop consumer.state.targetPosition).take
    (operator.options.outputBatchSize - consumer.call.output.length)
  let targetPosition := consumer.state.targetPosition + targets.length
  let output := consumer.call.output ++ targets.map fun target => operator.outputRow target none
  { consumer with
    state := { consumer.state with targetPosition := targetPosition }
    call := { consumer.call with output := output }
    control := if buffer.targets.length ≤ targetPosition then .releasing none else .producing }

/-- The loop at a buffer, with decoding: the next frame. -/
def decodeRound (choices : FramesChoices operator) (buffer : LerobotDecodeBuffer LerobotDecodeTarget)
    (consumer : FramesConsumer ψ φ ε) : Option (FramesConsumer ψ φ ε) :=
  let thrown (e : DecodeException) :=
    some { consumer with control := .releasing (some (.decode e)) }
  match choices.raised, consumer.state.decoder with
  | _, none => none
  | some e, some _ => thrown e
  | none, some decoder =>
      match decoder.next operator.media buffer with
      | .error e => thrown e
      | .ok (none, _) => some { consumer with control := .releasing none }
      | .ok (some decoded, decoder) => some { consumer with
          state := { consumer.state with decoder := some decoder, decoded := some decoded } }

/-- The loop at a decoded frame: the row of its target, when its pixels fit. -/
def writeDecodedRound (buffer : LerobotDecodeBuffer LerobotDecodeTarget)
    (decoded : DecodedVideoFrame) (consumer : FramesConsumer ψ φ ε) :
    Option (FramesConsumer ψ φ ε) :=
  let call := consumer.call
  let maxOutputBytes := operator.options.maxOutputBytes
  if 0 < call.output.length ∧
      maxOutputBytes - min call.outputBytes maxOutputBytes < pixelBytes decoded then
    some (operator.endProduce .haveOutput consumer)
  else
    match buffer.targets[decoded.targetIndex]? with
    | none => none
    | some target => some { consumer with
        state := { consumer.state with decoded := none }
        call := ⟨call.output ++ [operator.outputRow target (some decoded)],
          call.outputBytes + pixelBytes decoded⟩ }

/-- A round of the loop at a buffer. -/
def bufferRound (choices : FramesChoices operator) (buffer : LerobotDecodeBuffer LerobotDecodeTarget)
    (consumer : FramesConsumer ψ φ ε) : Option (FramesConsumer ψ φ ε) :=
  if operator.needsDecode = false then some (operator.writeRound buffer consumer)
  else
    match consumer.state.decoded with
    | some decoded => operator.writeDecodedRound buffer decoded consumer
    | none => operator.decodeRound choices buffer consumer

/-- `FinishBuffer`, and what the local state forgets. The decoder goes back to the cache, or is
discarded. -/
def releaseRound (buffer : LerobotDecodeBuffer LerobotDecodeTarget)
    (exception : Option (FramesException ε)) (consumer : FramesConsumer ψ φ ε) :
    FramesConsumer ψ φ ε :=
  { consumer with
    state := { consumer.state with buffer := none, decoder := none }
    control := exception.elim .producing .thrown
    released := consumer.released ++ [buffer.shardIndex] }

end FramesOperator

/-! ## The consumers of a scan -/

/-- The queue and the consumers. -/
structure FramesState (ψ φ ε : Type) where
  queue : QueueState LerobotDecodeTarget ε
  consumers : Nat → FramesConsumer ψ φ ε

/-- A step: a call of a producer or of the caller, or a step of a consumer. -/
inductive FramesLabel (operator : FramesOperator ψ φ) (ε : Type)
  | environment (operation : QueueOperation LerobotDecodeTarget ε)
  | consumer (index : Nat) (action : FramesAction operator)

/-- The calls of the queue that are not the consumers'. -/
def QueueOperation.OfProducer {τ : Type} : QueueOperation τ ε → Bool
  | .claimBuffer _ => false
  | .finishBuffer _ => false
  | _ => true

namespace FramesOperator

variable (operator : FramesOperator ψ φ)

/-- A step of a consumer, with the queue after it. -/
def consumerStep (queue : QueueState LerobotDecodeTarget ε) (consumer : FramesConsumer ψ φ ε) :
    FramesAction operator → Option (QueueState LerobotDecodeTarget ε × FramesConsumer ψ φ ε)
  | .call =>
      match consumer.control with
      | .returned => some (queue, { consumer with control := .producing })
      | _ => none
  | .proceed choices =>
      match consumer.control, consumer.state.buffer with
      | .producing, buffer =>
          if operator.options.outputBatchSize ≤ consumer.call.output.length then
            some (queue, operator.endProduce .haveOutput consumer)
          else
            match buffer with
            | none => some (queue.claimBuffer choices.alive, operator.claimRound
                (LerobotVideoProducerState.claimBuffer queue.queue choices.alive).1 consumer)
            | some buffer => (operator.bufferRound choices buffer consumer).map (queue, ·)
      | .preparing, some buffer => (operator.prepareRound choices buffer consumer).map (queue, ·)
      | .releasing exception, some buffer => some
          (queue.setQueue (LerobotVideoProducerState.finishBuffer queue.queue buffer.shardIndex),
            releaseRound buffer exception consumer)
      | _, _ => none
  | .resume =>
      match consumer.control with
      | .waiting =>
          if LerobotVideoProducerState.consumerCanProgress queue.queue then
            some (queue, { consumer with control := .producing })
          else none
      | _ => none
  | .interrupt alive =>
      match consumer.control with
      | .waiting => some
          (queue.setQueue (LerobotVideoProducerState.requestStop queue.queue alive).2,
            if operator.synchronous then { consumer with control := .thrown .interrupted }
            else consumer)
      | _ => none

/-- A step of the scan. -/
def step (s : FramesState ψ φ ε) : FramesLabel operator ε → Option (FramesState ψ φ ε)
  | .environment operation =>
      if operation.OfProducer then
        (s.queue.apply operator.config operation).map fun queue => { s with queue := queue }
      else none
  | .consumer index action =>
      (operator.consumerStep s.queue (s.consumers index) action).map fun result =>
        ⟨result.1, Function.update s.consumers index result.2⟩

/-- A scan with any number of consumers. -/
def system (ε : Type) : TransitionSystem (FramesState ψ φ ε) (FramesLabel operator ε) where
  init := ⟨(queueSystem operator.config operator.options.producerThreads operator.queryCount).init,
    fun _ => {}⟩
  step := operator.step

end FramesOperator

end DuckdbLerobot.Video
