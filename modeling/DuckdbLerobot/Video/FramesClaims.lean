import DuckdbLerobot.Video.FramesOperator

/-!
# Which consumer holds which shard

Every buffer that a consumer has claimed is given back by one `FinishBuffer` for its shard, on every
path: `ConsumerReady` counts the claims against the releases. A step of a consumer is one of
`ConsumerCase`, and what it does to the busy shards is one of `ShardMove`.
-/

set_option autoImplicit false

namespace DuckdbLerobot.Video

open DuckdbLerobot.Library DuckdbLerobot.Path DuckdbLerobot.Storage

variable {ψ φ ε : Type}

namespace FramesControl

/-- A consumer that waits, has ended or has thrown holds no buffer. -/
def MayHold : FramesControl ε → Prop
  | waiting => False
  | finished => False
  | thrown _ => False
  | _ => True

/-- A consumer on the way to a decoder or to `FinishBuffer` holds one. -/
def MustHold : FramesControl ε → Prop
  | preparing => True
  | releasing _ => True
  | _ => False

/-- A consumer that goes on with the rows of its buffer. -/
def Writes : FramesControl ε → Prop
  | returned => True
  | producing => True
  | _ => False

end FramesControl

namespace FramesConsumer

/-- The shard of the buffer that a consumer holds. -/
def heldShard (consumer : FramesConsumer ψ φ ε) : Option Nat :=
  consumer.state.buffer.map LerobotDecodeBuffer.shardIndex

/-- The targets of a buffer that are still to be written when frames are decoded, by index. -/
def remainingIndexes (consumer : FramesConsumer ψ φ ε)
    (buffer : LerobotDecodeBuffer LerobotDecodeTarget) : List Nat :=
  (consumer.state.decoded.map DecodedVideoFrame.targetIndex).toList ++
    consumer.state.decoder.elim [] fun decoder => decoder.remaining buffer

/-- A step that leaves the buffer with the consumer. -/
structure Keeps (consumer consumer' : FramesConsumer ψ φ ε) : Prop where
  buffer : consumer'.state.buffer = consumer.state.buffer
  claimed : consumer'.claimed = consumer.claimed
  released : consumer'.released = consumer.released

end FramesConsumer

/-- A buffer as the queue hands it out. -/
structure BufferIndexed (buffer : LerobotDecodeBuffer LerobotDecodeTarget) : Prop where
  targets : buffer.targets ≠ []
  clusters : buffer.clusters.flatten = List.range buffer.targets.length

theorem BufferIndexed.clusters_ne_nil {buffer : LerobotDecodeBuffer LerobotDecodeTarget}
    (h : BufferIndexed buffer) : buffer.clusters ≠ [] := by
  intro hnil
  have hclusters := h.clusters
  rw [hnil, List.flatten_nil] at hclusters
  have hlength := congrArg List.length hclusters
  rw [List.length_range] at hlength
  exact h.targets (List.length_eq_zero_iff.mp hlength.symm)

namespace FramesOperator

variable (operator : FramesOperator ψ φ)

/-- The buffer of a consumer with its decoder. -/
structure Serving (consumer : FramesConsumer ψ φ ε)
    (buffer : LerobotDecodeBuffer LerobotDecodeTarget) : Prop where
  decoder : ∃ decoder, consumer.state.decoder = some decoder ∧
    decoder.Used operator.media operator.columns.needsPixels
  indexes : ∀ index ∈ consumer.remainingIndexes buffer, index < buffer.targets.length

/-- The invariant of a consumer. -/
structure ConsumerReady (consumer : FramesConsumer ψ φ ε) : Prop where
  claims : consumer.claimed.map LerobotDecodeBuffer.shardIndex =
    consumer.released ++ consumer.heldShard.toList
  mayHold : ¬consumer.control.MayHold → consumer.state.buffer = none
  mustHold : consumer.control.MustHold → consumer.state.buffer ≠ none
  indexed : ∀ buffer, consumer.state.buffer = some buffer → BufferIndexed buffer
  undecoded : consumer.control = .preparing → consumer.state.decoded = none
  serving : ∀ buffer, consumer.state.buffer = some buffer → consumer.control.Writes →
    operator.needsDecode = true → operator.Serving consumer buffer

variable {operator} in
theorem consumerReady_init : operator.ConsumerReady ({} : FramesConsumer ψ φ ε) := by
  constructor
  · rfl
  · exact fun _ => rfl
  · exact fun hmust => hmust.elim
  · exact fun buffer hnone => by cases hnone
  · exact fun hcontrol => by cases hcontrol
  · exact fun buffer hnone => by cases hnone

/-! ## What a step of a consumer does -/

/-- The cases of a step of a consumer. -/
inductive ConsumerCase (queue : QueueState LerobotDecodeTarget ε) (consumer : FramesConsumer ψ φ ε) :
    QueueState LerobotDecodeTarget ε → FramesConsumer ψ φ ε → Prop
  | call (hcontrol : consumer.control = .returned) :
      ConsumerCase queue consumer queue { consumer with control := .producing }
  | leave (hcontrol : consumer.control = .producing) (houtput : consumer.call.output ≠ []) :
      ConsumerCase queue consumer queue (operator.endProduce .haveOutput consumer)
  | claim (alive : Nat → Bool) (hcontrol : consumer.control = .producing)
      (hbuffer : consumer.state.buffer = none) :
      ConsumerCase queue consumer (queue.claimBuffer alive) (operator.claimRound
        (LerobotVideoProducerState.claimBuffer queue.queue alive).1 consumer)
  | prepare {buffer : LerobotDecodeBuffer LerobotDecodeTarget}
      {decoder decoder' : LerobotShardDecoder ψ φ} (hcontrol : consumer.control = .preparing)
      (hbuffer : consumer.state.buffer = some buffer)
      (hused : decoder.Used operator.media operator.columns.needsPixels)
      (hshard : decoder.shardIndex = buffer.shardIndex)
      (hbegin : decoder.beginBuffer operator.media buffer = .ok decoder') :
      ConsumerCase queue consumer queue { consumer with
        state := { consumer.state with decoder := some decoder' }
        control := .producing }
  | raise {buffer : LerobotDecodeBuffer LerobotDecodeTarget} (e : DecodeException)
      (hcontrol : consumer.control = .preparing ∨ consumer.control = .producing)
      (hbuffer : consumer.state.buffer = some buffer) :
      ConsumerCase queue consumer queue
        { consumer with control := .releasing (some (.decode e)) }
  | write {buffer : LerobotDecodeBuffer LerobotDecodeTarget}
      (hcontrol : consumer.control = .producing) (hbuffer : consumer.state.buffer = some buffer)
      (hdecode : operator.needsDecode = false)
      (hcount : consumer.call.output.length < operator.options.outputBatchSize) :
      ConsumerCase queue consumer queue (operator.writeRound buffer consumer)
  | decode {buffer : LerobotDecodeBuffer LerobotDecodeTarget}
      {decoder decoder' : LerobotShardDecoder ψ φ} {decoded : DecodedVideoFrame}
      (hcontrol : consumer.control = .producing) (hbuffer : consumer.state.buffer = some buffer)
      (hdecode : operator.needsDecode = true) (hdecoded : consumer.state.decoded = none)
      (hdecoder : consumer.state.decoder = some decoder)
      (hnext : decoder.next operator.media buffer = .ok (some decoded, decoder')) :
      ConsumerCase queue consumer queue { consumer with
        state := { consumer.state with decoder := some decoder', decoded := some decoded } }
  | exhaust {buffer : LerobotDecodeBuffer LerobotDecodeTarget}
      {decoder decoder' : LerobotShardDecoder ψ φ} (hcontrol : consumer.control = .producing)
      (hbuffer : consumer.state.buffer = some buffer) (hdecode : operator.needsDecode = true)
      (hdecoded : consumer.state.decoded = none) (hdecoder : consumer.state.decoder = some decoder)
      (hnext : decoder.next operator.media buffer = .ok (none, decoder')) :
      ConsumerCase queue consumer queue { consumer with control := .releasing none }
  | writeDecoded {buffer : LerobotDecodeBuffer LerobotDecodeTarget} {decoded : DecodedVideoFrame}
      {target : LerobotDecodeTarget} (hcontrol : consumer.control = .producing)
      (hbuffer : consumer.state.buffer = some buffer) (hdecode : operator.needsDecode = true)
      (hdecoded : consumer.state.decoded = some decoded)
      (hcount : consumer.call.output.length < operator.options.outputBatchSize)
      (hfits : consumer.call.output ≠ [] →
        pixelBytes decoded ≤ operator.options.maxOutputBytes -
          min consumer.call.outputBytes operator.options.maxOutputBytes)
      (htarget : buffer.targets[decoded.targetIndex]? = some target) :
      ConsumerCase queue consumer queue { consumer with
        state := { consumer.state with decoded := none }
        call := ⟨consumer.call.output ++ [operator.outputRow target (some decoded)],
          consumer.call.outputBytes + pixelBytes decoded⟩ }
  | release {buffer : LerobotDecodeBuffer LerobotDecodeTarget}
      {exception : Option (FramesException ε)} (hcontrol : consumer.control = .releasing exception)
      (hbuffer : consumer.state.buffer = some buffer) :
      ConsumerCase queue consumer
        (queue.setQueue (LerobotVideoProducerState.finishBuffer queue.queue buffer.shardIndex))
        (releaseRound buffer exception consumer)
  | resume (hcontrol : consumer.control = .waiting) :
      ConsumerCase queue consumer queue { consumer with control := .producing }
  | interrupt (alive : Nat → Bool) (hcontrol : consumer.control = .waiting) :
      ConsumerCase queue consumer
        (queue.setQueue (LerobotVideoProducerState.requestStop queue.queue alive).2)
        (if operator.synchronous then { consumer with control := .thrown .interrupted }
          else consumer)

section Cases

variable {operator} {queue queue' : QueueState LerobotDecodeTarget ε}
  {consumer consumer' : FramesConsumer ψ φ ε}

theorem prepareRound_case {choices : FramesChoices operator}
    {buffer : LerobotDecodeBuffer LerobotDecodeTarget} (hcontrol : consumer.control = .preparing)
    (hbuffer : consumer.state.buffer = some buffer)
    (h : operator.prepareRound choices buffer consumer = some consumer') :
    operator.ConsumerCase queue consumer queue consumer' := by
  unfold prepareRound at h
  dsimp only at h
  split at h
  · cases h
    exact .raise _ (.inl hcontrol) hbuffer
  · cases h
    exact .raise _ (.inl hcontrol) hbuffer
  · rename_i acquired _ _
    split at h
    · cases h
    · rename_i hshard
      split at h
      · cases h
        exact .raise _ (.inl hcontrol) hbuffer
      · rename_i decoder' hbegin
        cases h
        exact .prepare hcontrol hbuffer acquired.property (not_not.mp hshard) hbegin

theorem decodeRound_case {choices : FramesChoices operator}
    {buffer : LerobotDecodeBuffer LerobotDecodeTarget} (hcontrol : consumer.control = .producing)
    (hbuffer : consumer.state.buffer = some buffer) (hdecode : operator.needsDecode = true)
    (hdecoded : consumer.state.decoded = none)
    (h : operator.decodeRound choices buffer consumer = some consumer') :
    operator.ConsumerCase queue consumer queue consumer' := by
  unfold decodeRound at h
  dsimp only at h
  split at h
  · cases h
  · cases h
    exact .raise _ (.inr hcontrol) hbuffer
  · rename_i decoder _ hdecoder
    split at h
    · cases h
      exact .raise _ (.inr hcontrol) hbuffer
    · rename_i hnext
      cases h
      exact .exhaust hcontrol hbuffer hdecode hdecoded hdecoder hnext
    · rename_i hnext
      cases h
      exact .decode hcontrol hbuffer hdecode hdecoded hdecoder hnext

theorem writeDecodedRound_case {buffer : LerobotDecodeBuffer LerobotDecodeTarget}
    {decoded : DecodedVideoFrame} (hcontrol : consumer.control = .producing)
    (hbuffer : consumer.state.buffer = some buffer) (hdecode : operator.needsDecode = true)
    (hdecoded : consumer.state.decoded = some decoded)
    (hcount : consumer.call.output.length < operator.options.outputBatchSize)
    (h : operator.writeDecodedRound buffer decoded consumer = some consumer') :
    operator.ConsumerCase queue consumer queue consumer' := by
  unfold writeDecodedRound at h
  dsimp only at h
  split at h
  · rename_i hfull
    cases h
    exact .leave hcontrol (List.ne_nil_of_length_pos hfull.1)
  · rename_i hfits
    split at h
    · cases h
    · rename_i target htarget
      cases h
      refine .writeDecoded hcontrol hbuffer hdecode hdecoded hcount ?_ htarget
      intro houtput
      exact not_lt.mp fun hlt => hfits ⟨List.length_pos_iff.mpr houtput, hlt⟩

/-- **What a step of a consumer can do.** -/
theorem consumerStep_case {action : FramesAction operator}
    (h : operator.consumerStep queue consumer action = some (queue', consumer')) :
    operator.ConsumerCase queue consumer queue' consumer' := by
  cases action with
  | call =>
      simp only [consumerStep] at h
      split at h
      · rename_i hcontrol
        cases h
        exact .call hcontrol
      · cases h
  | proceed choices =>
      simp only [consumerStep] at h
      split at h
      · rename_i hcontrol
        split at h
        · rename_i hfull
          cases h
          refine .leave hcontrol (List.ne_nil_of_length_pos ?_)
          exact operator.outputBatchSize_pos.trans_le hfull
        · rename_i hcount
          split at h
          · rename_i hbuffer
            cases h
            exact .claim choices.alive hcontrol hbuffer
          · rename_i buffer hbuffer
            obtain ⟨consumer'', hround, heq⟩ := Option.map_eq_some_iff.mp h
            cases heq
            unfold bufferRound at hround
            split at hround
            · rename_i hdecode
              cases hround
              exact .write hcontrol hbuffer hdecode (not_le.mp hcount)
            · rename_i hdecode
              have hdecode' : operator.needsDecode = true := Bool.of_not_eq_false hdecode
              split at hround
              · rename_i hdecoded
                exact writeDecodedRound_case hcontrol hbuffer hdecode' hdecoded (not_le.mp hcount)
                  hround
              · rename_i hdecoded
                exact decodeRound_case hcontrol hbuffer hdecode' hdecoded hround
      · rename_i hcontrol hbuffer
        obtain ⟨consumer'', hround, heq⟩ := Option.map_eq_some_iff.mp h
        cases heq
        exact prepareRound_case hcontrol hbuffer hround
      · rename_i hcontrol hbuffer
        cases h
        exact .release hcontrol hbuffer
      · cases h
  | resume =>
      simp only [consumerStep] at h
      split at h
      · rename_i hcontrol
        obtain ⟨-, heq⟩ := Option.ite_none_right_eq_some.mp h
        cases heq
        exact .resume hcontrol
      · cases h
  | interrupt alive =>
      simp only [consumerStep] at h
      split at h
      · rename_i hcontrol
        cases h
        exact .interrupt alive hcontrol
      · cases h

/-! ## The end of a chunk -/

/-- What the end of a chunk leaves. The rows are returned, or filtered away, or there were none. -/
structure EndsChunk (operator : FramesOperator ψ φ) (result : LerobotVideoProduceResult)
    (consumer consumer' : FramesConsumer ψ φ ε) : Prop where
  state : consumer'.state = consumer.state
  claimed : consumer'.claimed = consumer.claimed
  released : consumer'.released = consumer.released
  call : consumer'.call = {}
  chunks : consumer'.chunks = consumer.chunks ++ [consumer.call.output]
  emitted : consumer'.emitted.flatten =
    consumer.emitted.flatten ++ operator.filtered consumer.call.output
  control : consumer'.control = .returned ∨ consumer'.control = .producing ∨
    consumer.call.output = [] ∧
      (result = .finished ∧ consumer'.control = .finished ∨
        result = .blocked ∧ consumer'.control = .waiting)

theorem endProduce_spec (operator : FramesOperator ψ φ) (result : LerobotVideoProduceResult)
    (consumer : FramesConsumer ψ φ ε) :
    operator.EndsChunk result consumer (operator.endProduce result consumer) := by
  unfold endProduce
  dsimp only
  split
  · exact
      { state := rfl
        claimed := rfl
        released := rfl
        call := rfl
        chunks := rfl
        emitted := by rw [List.flatten_append, List.flatten_singleton]
        control := .inl rfl }
  · rename_i hempty
    rw [ne_eq, not_not] at hempty
    have hnone : consumer.emitted.flatten =
        consumer.emitted.flatten ++ operator.filtered consumer.call.output := by
      rw [hempty, List.append_nil]
    by_cases hrows : consumer.call.output = []
    · rw [if_pos hrows]
      cases result with
      | haveOutput => exact ⟨rfl, rfl, rfl, rfl, rfl, hnone, .inr (.inl rfl)⟩
      | blocked => exact ⟨rfl, rfl, rfl, rfl, rfl, hnone, .inr (.inr ⟨hrows, .inr ⟨rfl, rfl⟩⟩)⟩
      | finished => exact ⟨rfl, rfl, rfl, rfl, rfl, hnone, .inr (.inr ⟨hrows, .inl ⟨rfl, rfl⟩⟩)⟩
    · rw [if_neg hrows]
      exact ⟨rfl, rfl, rfl, rfl, rfl, hnone, .inr (.inl rfl)⟩

/-- The end of a chunk keeps the invariant, and holds no buffer where it has no rows. -/
theorem ConsumerReady.endsChunk (h : operator.ConsumerReady consumer)
    (hcontrol : consumer.control = .producing) {result : LerobotVideoProduceResult}
    (hends : operator.EndsChunk result consumer consumer')
    (hbuffer : result = .haveOutput ∨ consumer.state.buffer = none) :
    operator.ConsumerReady consumer' := by
  have hheld : consumer'.heldShard = consumer.heldShard := by
    rw [FramesConsumer.heldShard, hends.state]
    rfl
  have hwrites : consumer.control.Writes := hcontrol ▸ trivial
  have hserving : ∀ buffer, consumer'.state.buffer = some buffer →
      operator.needsDecode = true → operator.Serving consumer' buffer := by
    intro buffer hsome hdecode
    rw [hends.state] at hsome
    obtain ⟨hdecoder, hindexes⟩ := h.serving buffer hsome hwrites hdecode
    constructor
    · rw [hends.state]
      exact hdecoder
    · rw [FramesConsumer.remainingIndexes, hends.state]
      exact hindexes
  refine
    { claims := by rw [hends.claimed, hends.released, hheld, h.claims]
      mayHold := ?_
      mustHold := ?_
      indexed := by rw [hends.state]; exact h.indexed
      undecoded := ?_
      serving := fun buffer hsome _ => hserving buffer hsome }
  · intro hmay
    rw [hends.state]
    rcases hends.control with hreturned | hproducing | ⟨-, hresult⟩
    · rw [hreturned] at hmay
      exact absurd trivial hmay
    · rw [hproducing] at hmay
      exact absurd trivial hmay
    · rcases hbuffer with houtput | hnone
      · rcases hresult with ⟨heq, -⟩ | ⟨heq, -⟩
        · cases houtput.symm.trans heq
        · cases houtput.symm.trans heq
      · exact hnone
  · intro hmust
    rcases hends.control with hcontrol' | hcontrol' | ⟨-, ⟨-, hcontrol'⟩ | ⟨-, hcontrol'⟩⟩
    all_goals
      rw [hcontrol'] at hmust
      exact hmust.elim
  · intro hpreparing
    rcases hends.control with hcontrol' | hcontrol' | ⟨-, ⟨-, hcontrol'⟩ | ⟨-, hcontrol'⟩⟩
    all_goals
      rw [hcontrol'] at hpreparing
      cases hpreparing

/-! ## What a step does to the shards -/

/-- A step keeps the shard of the consumer, claims a free one, or gives it back. -/
inductive ShardMove (queue : QueueState LerobotDecodeTarget ε) (consumer : FramesConsumer ψ φ ε)
    (queue' : QueueState LerobotDecodeTarget ε) (consumer' : FramesConsumer ψ φ ε) : Prop
  | keep (hheld : consumer'.heldShard = consumer.heldShard)
      (hreleased : consumer'.released = consumer.released)
      (hbusy : queue'.queue.busyShards = queue.queue.busyShards)
  | claim (shardIndex : Nat) (hnone : consumer.heldShard = none)
      (hheld : consumer'.heldShard = some shardIndex)
      (hreleased : consumer'.released = consumer.released)
      (hfree : shardIndex ∉ queue.queue.busyShards)
      (hbusy : queue'.queue.busyShards = insert shardIndex queue.queue.busyShards)
  | release (shardIndex : Nat) (hheld : consumer.heldShard = some shardIndex)
      (hnone : consumer'.heldShard = none)
      (hreleased : consumer'.released = consumer.released ++ [shardIndex])
      (hbusy : queue'.queue.busyShards = queue.queue.busyShards.erase shardIndex)

/-- The answers of `ClaimBuffer`. -/
theorem claimBuffer_answer
    (hinvariant : LerobotVideoProducerState.ProducerInvariant operator.config queue.queue)
    (alive : Nat → Bool) :
    (∃ answer, (LerobotVideoProducerState.claimBuffer queue.queue alive).1 = answer ∧
        (∀ buffer, answer ≠ .ok (.claimed buffer)) ∧ queue.claimBuffer alive = queue) ∨
      ∃ buffer ∈ queue.queue.readyBuffers,
        (LerobotVideoProducerState.claimBuffer queue.queue alive).1 = .ok (.claimed buffer) ∧
        buffer.shardIndex ∉ queue.queue.busyShards ∧
        (queue.claimBuffer alive).queue.busyShards =
          insert buffer.shardIndex queue.queue.busyShards := by
  unfold QueueState.claimBuffer
  rcases LerobotVideoProducerState.claimBuffer_cases hinvariant alive with ⟨sourceError, -, heq⟩ |
    ⟨before, buffer, after, queue', -, hready, hfree, -, rfl, -, -, -, heq⟩ | ⟨-, -, -, heq⟩ |
    ⟨-, -, -, heq⟩
  · rw [heq]
    exact .inl ⟨_, rfl, (fun buffer hclaimed => by cases hclaimed), rfl⟩
  · rw [heq]
    refine .inr ⟨buffer, ?_, rfl, hfree, rfl⟩
    rw [hready]
    exact List.mem_append_right _ List.mem_cons_self
  · rw [heq]
    exact .inl ⟨_, rfl, (fun buffer hclaimed => by cases hclaimed), rfl⟩
  · rw [heq]
    exact .inl ⟨_, rfl, (fun buffer hclaimed => by cases hclaimed), rfl⟩

/-- A claim gives nothing back. -/
theorem claimRound_released (operator : FramesOperator ψ φ)
    (answer : Except ε (LerobotBufferClaimResult LerobotDecodeTarget))
    (consumer : FramesConsumer ψ φ ε) :
    (operator.claimRound answer consumer).released = consumer.released := by
  unfold claimRound
  split
  · rfl
  · exact (endProduce_spec operator .blocked consumer).released
  · exact (endProduce_spec operator .finished consumer).released
  · dsimp only
    split
    · rfl
    · split
      · rfl
      · rfl

/-- A consumer that has claimed a buffer. -/
theorem ConsumerReady.claimed (h : operator.ConsumerReady consumer)
    (hcontrol : consumer.control = .producing) (hbuffer : consumer.state.buffer = none)
    {buffer : LerobotDecodeBuffer LerobotDecodeTarget} (hindexed : BufferIndexed buffer) :
    operator.ConsumerReady (operator.claimRound (.ok (.claimed buffer)) consumer) ∧
      (operator.claimRound (.ok (.claimed buffer)) consumer).heldShard = some buffer.shardIndex := by
  have hnone : consumer.heldShard = none := by rw [FramesConsumer.heldShard, hbuffer]; rfl
  have hclaims : (consumer.claimed ++ [buffer]).map LerobotDecodeBuffer.shardIndex =
      consumer.released ++ [buffer.shardIndex] := by
    rw [List.map_append, h.claims, hnone]
    simp
  have hindexed' : ∀ buffer', some buffer = some buffer' → BufferIndexed buffer' := by
    intro buffer' heq
    cases heq
    exact hindexed
  unfold claimRound
  dsimp only
  split
  · rename_i hdecode
    refine ⟨⟨hclaims, ?_, ?_, hindexed', ?_, ?_⟩, rfl⟩
    · exact fun hmay => absurd (hcontrol ▸ trivial) hmay
    · exact fun _ hsome => by cases hsome
    · exact fun _ => rfl
    · intro buffer' _ _ hdecode'
      rw [hdecode] at hdecode'
      cases hdecode'
  · split
    · refine ⟨⟨hclaims, fun hmay => absurd trivial hmay, ?_, hindexed', ?_, ?_⟩, rfl⟩
      · exact fun _ hsome => by cases hsome
      · exact fun hpreparing => by cases hpreparing
      · exact fun _ _ hwrites => hwrites.elim
    · refine ⟨⟨hclaims, fun hmay => absurd trivial hmay, ?_, hindexed', ?_, ?_⟩, rfl⟩
      · exact fun _ hsome => by cases hsome
      · exact fun _ => rfl
      · exact fun _ _ hwrites => hwrites.elim

/-- A consumer without a buffer, wherever it goes on. -/
theorem ConsumerReady.setControl (h : operator.ConsumerReady consumer)
    (hbuffer : consumer.state.buffer = none) {control : FramesControl ε} (hmust : ¬control.MustHold) :
    operator.ConsumerReady { consumer with control := control } where
  claims := h.claims
  mayHold _ := hbuffer
  mustHold := fun hholds => absurd hholds hmust
  indexed := h.indexed
  undecoded := fun hpreparing => by
    have hpreparing' : control = .preparing := hpreparing
    subst hpreparing'
    exact absurd trivial hmust
  serving := fun buffer hsome => by cases hbuffer.symm.trans hsome

/-- A consumer that goes on to `FinishBuffer`. -/
theorem ConsumerReady.releasing (h : operator.ConsumerReady consumer)
    {buffer : LerobotDecodeBuffer LerobotDecodeTarget} (hbuffer : consumer.state.buffer = some buffer)
    (exception : Option (FramesException ε)) :
    operator.ConsumerReady { consumer with control := .releasing exception } where
  claims := h.claims
  mayHold := fun hmay => absurd trivial hmay
  mustHold := fun _ hnone => by cases hbuffer.symm.trans hnone
  indexed := h.indexed
  undecoded := fun hpreparing => by cases hpreparing
  serving := fun _ _ hwrites => hwrites.elim

/-- A consumer that goes on with the rows of its buffer. -/
theorem ConsumerReady.writes (h : operator.ConsumerReady consumer)
    (hbuffer : consumer'.state.buffer = consumer.state.buffer)
    (hclaimed : consumer'.claimed = consumer.claimed)
    (hreleased : consumer'.released = consumer.released) (hcontrol : consumer'.control = .producing)
    (hserving : ∀ buffer, consumer'.state.buffer = some buffer → operator.needsDecode = true →
      operator.Serving consumer' buffer) :
    operator.ConsumerReady consumer' where
  claims := by
    rw [hclaimed, hreleased, FramesConsumer.heldShard, hbuffer]
    exact h.claims
  mayHold := fun hmay => absurd (hcontrol ▸ trivial) hmay
  mustHold := fun hmust => by
    rw [hcontrol] at hmust
    exact hmust.elim
  indexed := hbuffer ▸ h.indexed
  undecoded := fun hpreparing => by cases hcontrol.symm.trans hpreparing
  serving := fun buffer hsome _ => hserving buffer hsome

/-- A consumer with the decoder that it has acquired. -/
theorem ConsumerReady.prepared (h : operator.ConsumerReady consumer)
    {buffer : LerobotDecodeBuffer LerobotDecodeTarget} {decoder decoder' : LerobotShardDecoder ψ φ}
    (hcontrol : consumer.control = .preparing) (hbuffer : consumer.state.buffer = some buffer)
    (hused : decoder.Used operator.media operator.columns.needsPixels)
    (hshard : decoder.shardIndex = buffer.shardIndex)
    (hbegin : decoder.beginBuffer operator.media buffer = .ok decoder') :
    operator.ConsumerReady ({ consumer with
      state := { consumer.state with decoder := some decoder' }
      control := .producing } : FramesConsumer ψ φ ε) := by
  have hindexed := h.indexed buffer hbuffer
  have hspec : Yields (fun begun => begun.remaining buffer = buffer.clusters.flatten ∧
      begun.shardIndex = decoder.shardIndex) DecodeException.Expected
      (decoder.beginBuffer operator.media buffer) :=
    LerobotShardDecoder.beginBuffer_spec hshard.symm hindexed.targets hindexed.clusters_ne_nil
  rw [hbegin] at hspec
  have hremaining : decoder'.remaining buffer = List.range buffer.targets.length :=
    hspec.1.trans hindexed.clusters
  refine h.writes rfl rfl rfl rfl ?_
  intro buffer' hsome _
  obtain rfl : buffer = buffer' := Option.some.inj (hbuffer.symm.trans hsome)
  refine ⟨⟨decoder', rfl, hused.begun hbegin⟩, ?_⟩
  intro index hindex
  have hindexes : index ∈ (consumer.state.decoded.map DecodedVideoFrame.targetIndex).toList ++
      decoder'.remaining buffer := hindex
  rw [h.undecoded hcontrol, hremaining] at hindexes
  exact List.mem_range.mp hindexes

/-- A consumer with the next frame. -/
theorem ConsumerReady.decoded (h : operator.ConsumerReady consumer)
    {buffer : LerobotDecodeBuffer LerobotDecodeTarget} {decoder decoder' : LerobotShardDecoder ψ φ}
    {decoded : DecodedVideoFrame} (hcontrol : consumer.control = .producing)
    (hbuffer : consumer.state.buffer = some buffer) (hdecode : operator.needsDecode = true)
    (hdecoded : consumer.state.decoded = none) (hdecoder : consumer.state.decoder = some decoder)
    (hnext : decoder.next operator.media buffer = .ok (some decoded, decoder')) :
    operator.ConsumerReady { consumer with
      state := { consumer.state with decoder := some decoder', decoded := some decoded } } := by
  obtain ⟨⟨decoder'', hsame, hused⟩, hindexes⟩ :=
    h.serving buffer hbuffer (hcontrol ▸ trivial) hdecode
  obtain rfl : decoder = decoder'' := Option.some.inj (hdecoder.symm.trans hsame)
  have hserved : decoder.remaining buffer = decoded.targetIndex :: decoder'.remaining buffer :=
    (LerobotShardDecoder.next_keeps hnext).1
  rw [FramesConsumer.remainingIndexes, hdecoded, hdecoder] at hindexes
  refine h.writes rfl rfl rfl hcontrol ?_
  intro buffer' hsome _
  obtain rfl : buffer = buffer' := Option.some.inj (hbuffer.symm.trans hsome)
  refine ⟨⟨decoder', rfl, hused.advanced hnext⟩, ?_⟩
  intro index hindex
  have hall : index ∈ decoder.remaining buffer := by
    rw [hserved]
    exact hindex
  exact hindexes index hall

/-- A consumer that has written a frame. -/
theorem ConsumerReady.wrote (h : operator.ConsumerReady consumer) {call : FramesCall}
    (hcontrol : consumer.control = .producing) :
    operator.ConsumerReady { consumer with
      state := { consumer.state with decoded := none }
      call := call } := by
  refine h.writes rfl rfl rfl hcontrol ?_
  intro buffer hsome hdecode
  obtain ⟨hdecoder, hindexes⟩ := h.serving buffer hsome (hcontrol ▸ trivial) hdecode
  refine ⟨hdecoder, ?_⟩
  intro index hindex
  exact hindexes index (List.mem_append_right _ hindex)

/-- A consumer that has given its buffer back. -/
theorem ConsumerReady.released (h : operator.ConsumerReady consumer)
    {buffer : LerobotDecodeBuffer LerobotDecodeTarget} (hbuffer : consumer.state.buffer = some buffer)
    (exception : Option (FramesException ε)) :
    operator.ConsumerReady (releaseRound buffer exception consumer) where
  claims := by
    have hclaims := h.claims
    rw [FramesConsumer.heldShard, hbuffer] at hclaims
    exact hclaims.trans (List.append_nil _).symm
  mayHold := fun _ => rfl
  mustHold := fun hmust => by
    cases exception with
    | none => exact hmust.elim
    | some e => exact hmust.elim
  indexed := fun _ hnone => by cases hnone
  undecoded := fun hpreparing => by
    cases exception with
    | none => cases hpreparing
    | some e => cases hpreparing
  serving := fun _ hnone => by cases hnone

/-- A step that keeps the buffer. -/
theorem ShardMove.keepBuffer (hbuffer : consumer'.state.buffer = consumer.state.buffer)
    (hreleased : consumer'.released = consumer.released)
    (hbusy : queue'.queue.busyShards = queue.queue.busyShards) :
    ShardMove queue consumer queue' consumer' :=
  .keep (congrArg (Option.map LerobotDecodeBuffer.shardIndex) hbuffer) hreleased hbusy

/-- The answer of `ClaimBuffer`. -/
theorem ConsumerReady.claim (h : operator.ConsumerReady consumer)
    (hinvariant : LerobotVideoProducerState.ProducerInvariant operator.config queue.queue)
    (hindexed : ∀ buffer ∈ queue.queue.readyBuffers, BufferIndexed buffer) (alive : Nat → Bool)
    (hcontrol : consumer.control = .producing) (hbuffer : consumer.state.buffer = none) :
    operator.ConsumerReady (operator.claimRound
        (LerobotVideoProducerState.claimBuffer queue.queue alive).1 consumer) ∧
      ShardMove queue consumer (queue.claimBuffer alive) (operator.claimRound
        (LerobotVideoProducerState.claimBuffer queue.queue alive).1 consumer) := by
  rcases claimBuffer_answer hinvariant alive with ⟨answer, hanswer, hclaimed, hqueue⟩ |
    ⟨buffer, hready, hanswer, hfree, hbusy⟩
  · rw [hanswer, hqueue]
    have hends (result : LerobotVideoProduceResult) :
        operator.ConsumerReady (operator.endProduce result consumer) ∧
          ShardMove queue consumer queue (operator.endProduce result consumer) := by
      have hspec := endProduce_spec operator result consumer
      exact ⟨h.endsChunk hcontrol hspec (.inr hbuffer),
        .keepBuffer (congrArg _ hspec.state) hspec.released rfl⟩
    cases answer with
    | error exception =>
        exact ⟨h.setControl hbuffer id, .keepBuffer rfl rfl rfl⟩
    | ok result =>
        cases result with
        | claimed buffer => exact absurd rfl (hclaimed buffer)
        | blocked => exact hends .blocked
        | finished => exact hends .finished
  · rw [hanswer]
    obtain ⟨hready', hheld⟩ := h.claimed hcontrol hbuffer (hindexed buffer hready)
    have hnone : consumer.heldShard = none := by rw [FramesConsumer.heldShard, hbuffer]; rfl
    exact ⟨hready', .claim buffer.shardIndex hnone hheld (claimRound_released _ _ _) hfree hbusy⟩

/-- **Each step of a consumer keeps its invariant**, and moves at most one shard. -/
theorem ConsumerReady.step (h : operator.ConsumerReady consumer)
    (hinvariant : LerobotVideoProducerState.ProducerInvariant operator.config queue.queue)
    (hindexed : ∀ buffer ∈ queue.queue.readyBuffers, BufferIndexed buffer)
    (hstep : operator.ConsumerCase queue consumer queue' consumer') :
    operator.ConsumerReady consumer' ∧ ShardMove queue consumer queue' consumer' := by
  cases hstep with
  | call hcontrol =>
      refine ⟨h.writes rfl rfl rfl rfl ?_, .keepBuffer rfl rfl rfl⟩
      intro buffer hsome hdecode
      obtain ⟨hdecoder, hindexes⟩ := h.serving buffer hsome (hcontrol ▸ trivial) hdecode
      exact ⟨hdecoder, hindexes⟩
  | leave hcontrol houtput =>
      have hspec := endProduce_spec operator .haveOutput consumer
      exact ⟨h.endsChunk hcontrol hspec (.inl rfl),
        .keepBuffer (congrArg _ hspec.state) hspec.released rfl⟩
  | claim alive hcontrol hbuffer => exact h.claim hinvariant hindexed alive hcontrol hbuffer
  | prepare hcontrol hbuffer hused hshard hbegin =>
      exact ⟨h.prepared hcontrol hbuffer hused hshard hbegin, .keepBuffer rfl rfl rfl⟩
  | raise e hcontrol hbuffer => exact ⟨h.releasing hbuffer _, .keepBuffer rfl rfl rfl⟩
  | write hcontrol hbuffer hdecode hcount =>
      refine ⟨?_, .keepBuffer rfl rfl rfl⟩
      unfold writeRound
      dsimp only
      split
      · have hwritten := h.releasing hbuffer none
        exact
          { claims := hwritten.claims
            mayHold := hwritten.mayHold
            mustHold := hwritten.mustHold
            indexed := hwritten.indexed
            undecoded := fun hpreparing => by cases hpreparing
            serving := fun _ _ hwrites => hwrites.elim }
      · refine h.writes rfl rfl rfl rfl ?_
        intro buffer hsome hdecode'
        cases hdecode.symm.trans hdecode'
  | decode hcontrol hbuffer hdecode hdecoded hdecoder hnext =>
      exact ⟨h.decoded hcontrol hbuffer hdecode hdecoded hdecoder hnext, .keepBuffer rfl rfl rfl⟩
  | exhaust hcontrol hbuffer hdecode hdecoded hdecoder hnext =>
      exact ⟨h.releasing hbuffer none, .keepBuffer rfl rfl rfl⟩
  | writeDecoded hcontrol hbuffer hdecode hdecoded hcount hfits htarget =>
      exact ⟨h.wrote hcontrol, .keepBuffer rfl rfl rfl⟩
  | @release buffer exception hcontrol hbuffer =>
      refine ⟨h.released hbuffer exception, .release buffer.shardIndex ?_ rfl rfl rfl⟩
      rw [FramesConsumer.heldShard, hbuffer]
      rfl
  | resume hcontrol =>
      have hnone := h.mayHold (by rw [hcontrol]; exact id)
      exact ⟨h.setControl hnone id, .keepBuffer rfl rfl rfl⟩
  | interrupt alive hcontrol =>
      have hnone := h.mayHold (by rw [hcontrol]; exact id)
      split
      · exact ⟨h.setControl hnone id, .keepBuffer rfl rfl rfl⟩
      · exact ⟨h, .keepBuffer rfl rfl rfl⟩

end Cases

end FramesOperator

end DuckdbLerobot.Video
