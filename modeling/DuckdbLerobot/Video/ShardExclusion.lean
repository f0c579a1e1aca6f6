import DuckdbLerobot.Library.Parties
import DuckdbLerobot.Video.FramesClaims

/-!
# Shards are exclusive

In every state of a scan, whatever the producers and the decoders do: the busy shards of the queue are
those that a consumer holds, no two consumers hold the same one, and `FinishBuffer` is only called for
a busy one. A consumer that holds a buffer gives it back, once (`shards_exclusive`).
-/

set_option autoImplicit false

namespace DuckdbLerobot.Video

open DuckdbLerobot.Library DuckdbLerobot.Path DuckdbLerobot.Storage

variable {ψ φ ε : Type}

/-- The calls of the producers leave the busy shards alone. -/
theorem busyShards_apply {config : LerobotVideoProducerConfig LerobotDecodeTarget}
    {queue queue' : QueueState LerobotDecodeTarget ε}
    (h : LerobotVideoProducerState.ProducerInvariant config queue.queue)
    {operation : QueueOperation LerobotDecodeTarget ε} (hproducer : operation.OfProducer = true)
    (happly : queue.apply config operation = some queue') :
    queue'.queue.busyShards = queue.queue.busyShards := by
  cases operation with
  | claimBuffer alive => cases hproducer
  | finishBuffer shardIndex => cases hproducer
  | queueTargets targets targetPosition producerTask =>
      obtain ⟨hposition, heq⟩ := Option.ite_none_right_eq_some.mp happly
      cases heq
      rcases LerobotVideoProducerState.queueTargets_cases h targets targetPosition producerTask
        hposition with ⟨-, heq⟩ | ⟨u, count, -, happends, -, -, ⟨-, heq⟩ | ⟨-, -, heq⟩⟩
      · exact congrArg (fun answer => answer.2.2.busyShards) heq
      · exact (congrArg (fun answer => answer.2.2.busyShards) heq).trans happends.busyShards
      · exact (congrArg (fun answer => answer.2.2.busyShards) heq).trans happends.busyShards
  | producerFinished abandoned order =>
      obtain ⟨⟨-, horder⟩, heq⟩ := Option.ite_none_right_eq_some.mp happly
      cases heq
      exact (LerobotVideoProducerState.producerFinished_spec h abandoned horder).2.2.2.2.busyShards
  | fail exception alive =>
      cases happly
      rfl
  | requestStop alive =>
      cases happly
      rfl

namespace FramesOperator

variable (operator : FramesOperator ψ φ)

/-- The invariant of a scan. -/
structure ScanReady (s : FramesState ψ φ ε) : Prop where
  queue : (queueSystem operator.config operator.options.producerThreads
    operator.queryCount).Reachable s.queue
  consumers : ∀ index, operator.ConsumerReady (s.consumers index)
  owned : OwnedBy s.queue.queue.busyShards fun index => (s.consumers index).heldShard

section Scan

variable {operator} {s t : FramesState ψ φ ε}

/-- The ready buffers of the queue are indexed by their clusters. -/
theorem bufferIndexed_of_ready {queue : QueueState LerobotDecodeTarget ε}
    (hqueue : (queueSystem operator.config operator.options.producerThreads
      operator.queryCount).Reachable queue) :
    ∀ buffer ∈ queue.queue.readyBuffers, BufferIndexed buffer := by
  have hclusters : OfPublished operator.config
      fun buffer => buffer.clusters.flatten = List.range buffer.targets.length := by
    intro shardIndex targets
    have hperm := LerobotVideoProducerState.published_targets operator.config shardIndex targets
    rw [hperm.length_eq]
    exact finalizeDecodeBuffer_clusters_flatten _ _ _ _
  intro buffer hbuffer
  have hsound := bufferSound_of_ready (queueInvariant hqueue).queue hbuffer
  exact ⟨List.ne_nil_of_length_pos hsound.1.1, (hclusters.reachable hqueue).2 buffer hbuffer⟩

/-- The queue after a step of a consumer. -/
theorem ConsumerCase.queue_step {queue queue' : QueueState LerobotDecodeTarget ε}
    {consumer consumer' : FramesConsumer ψ φ ε}
    (h : operator.ConsumerCase queue consumer queue' consumer') :
    queue' = queue ∨ ∃ operation, queue.apply operator.config operation = some queue' := by
  cases h with
  | claim alive _ _ => exact .inr ⟨.claimBuffer alive, rfl⟩
  | @release buffer _ _ _ => exact .inr ⟨.finishBuffer buffer.shardIndex, rfl⟩
  | interrupt alive _ => exact .inr ⟨.requestStop alive, rfl⟩
  | _ => exact .inl rfl

/-- A step of a consumer moves its own shard only. -/
theorem ScanReady.move (h : operator.ScanReady s) {index : Nat}
    {queue' : QueueState LerobotDecodeTarget ε} {consumer' : FramesConsumer ψ φ ε}
    (hmove : ShardMove s.queue (s.consumers index) queue' consumer') :
    OwnedBy queue'.queue.busyShards
      fun other => (Function.update s.consumers index consumer' other).heldShard := by
  rw [view_update FramesConsumer.heldShard s.consumers index consumer']
  cases hmove with
  | keep hheld hreleased hbusy =>
      rw [hheld, hbusy, Function.update_eq_self]
      exact h.owned
  | claim shardIndex hnone hheld hreleased hfree hbusy =>
      rw [hheld, hbusy]
      exact h.owned.take hnone hfree
  | release shardIndex hheld hnone hreleased hbusy =>
      rw [hnone, hbusy]
      exact h.owned.giveBack hheld

/-- **Each step keeps the invariant.** -/
theorem ScanReady.step (h : operator.ScanReady s) {label : FramesLabel operator ε}
    (hstep : operator.step s label = some t) : operator.ScanReady t := by
  have hinvariant := (queueInvariant h.queue).queue
  cases label with
  | environment operation =>
      obtain ⟨hproducer, hmap⟩ := Option.ite_none_right_eq_some.mp hstep
      obtain ⟨queue, happly, rfl⟩ := Option.map_eq_some_iff.mp hmap
      refine ⟨h.queue.step happly, h.consumers, ?_⟩
      rw [busyShards_apply hinvariant hproducer happly]
      exact h.owned
  | consumer index action =>
      obtain ⟨⟨queue, consumer⟩, hconsumer, rfl⟩ := Option.map_eq_some_iff.mp hstep
      have hcase := consumerStep_case hconsumer
      obtain ⟨hready, hmove⟩ := (h.consumers index).step hinvariant (bufferIndexed_of_ready h.queue) hcase
      refine ⟨?_, forall_update h.consumers hready, h.move hmove⟩
      rcases hcase.queue_step with hsame | ⟨operation, happly⟩
      · exact hsame ▸ h.queue
      · exact h.queue.step happly

theorem scanReady_init : operator.ScanReady (operator.system ε).init :=
  ⟨.init, fun _ => consumerReady_init, ownedBy_none⟩

/-- **Every run keeps the invariant.** -/
theorem scanReady (hs : (operator.system ε).Reachable s) : operator.ScanReady s :=
  hs.invariant scanReady_init fun _ _ _ _ h hstep => h.step hstep

end Scan

/-! ## A held buffer is given back -/

section Release

/-- A step of a consumer, whatever its decoder does, and whatever state the other parties have brought
the queue to. -/
def ConsumerMoves (consumer consumer' : FramesConsumer ψ φ ε) : Prop :=
  ∃ queue queue' action, (queueSystem operator.config operator.options.producerThreads
      operator.queryCount).Reachable queue ∧
    operator.consumerStep queue consumer action = some (queue', consumer')

/-- How far a consumer is from `FinishBuffer`: on the way to its decoder, at its rows, or there. -/
def stage (consumer : FramesConsumer ψ φ ε) : Nat :=
  match consumer.control with
  | .preparing => 2
  | .releasing _ => 0
  | _ => 1

/-- The rounds that the buffer of a consumer still needs. -/
def work (consumer : FramesConsumer ψ φ ε) : Nat :=
  match consumer.state.buffer with
  | none => 0
  | some buffer =>
      if operator.needsDecode = false then buffer.targets.length - consumer.state.targetPosition
      else consumer.state.decoded.elim 0 (fun _ => 1) +
        2 * consumer.state.decoder.elim 0 fun decoder => (decoder.remaining buffer).length

/-- The rows that are not returned yet, and whether the next call has to come. -/
def unreturned (consumer : FramesConsumer ψ φ ε) : Nat :=
  2 * consumer.call.output.length +
    match consumer.control with
    | .returned => 1
    | _ => 0

/-- What a step of a consumer that holds a buffer lowers. -/
def rank (consumer : FramesConsumer ψ φ ε) : Nat ×ₗ Nat ×ₗ Nat :=
  toLex (stage consumer, toLex (operator.work consumer, unreturned consumer))

variable {operator} {consumer consumer' : FramesConsumer ψ φ ε}

theorem rank_lt_of_stage (h : stage consumer' < stage consumer) :
    operator.rank consumer' < operator.rank consumer :=
  Prod.Lex.left _ _ h

theorem rank_lt_of_work (hstage : stage consumer' = stage consumer)
    (h : operator.work consumer' < operator.work consumer) :
    operator.rank consumer' < operator.rank consumer := by
  rw [rank, rank, hstage]
  exact Prod.Lex.right _ (Prod.Lex.left _ _ h)

theorem rank_lt_of_unreturned (hstage : stage consumer' = stage consumer)
    (hwork : operator.work consumer' = operator.work consumer)
    (h : unreturned consumer' < unreturned consumer) :
    operator.rank consumer' < operator.rank consumer := by
  rw [rank, rank, hstage, hwork]
  exact Prod.Lex.right _ (Prod.Lex.right _ h)

theorem work_write {buffer : LerobotDecodeBuffer LerobotDecodeTarget}
    (hdecode : operator.needsDecode = false) (hbuffer : consumer.state.buffer = some buffer) :
    operator.work consumer = buffer.targets.length - consumer.state.targetPosition := by
  rw [work, hbuffer]
  exact if_pos hdecode

theorem work_decode {buffer : LerobotDecodeBuffer LerobotDecodeTarget}
    (hdecode : operator.needsDecode = true) (hbuffer : consumer.state.buffer = some buffer) :
    operator.work consumer = consumer.state.decoded.elim 0 (fun _ => 1) +
      2 * consumer.state.decoder.elim 0 fun decoder => (decoder.remaining buffer).length := by
  rw [work, hbuffer]
  exact if_neg (by simp [hdecode])

/-- A step of a consumer that holds a buffer gives it back, or brings that nearer. -/
theorem rank_step {queue queue' : QueueState LerobotDecodeTarget ε}
    {buffer : LerobotDecodeBuffer LerobotDecodeTarget} (hheld : consumer.state.buffer = some buffer)
    (hready : operator.ConsumerReady consumer)
    (h : operator.ConsumerCase queue consumer queue' consumer') :
    consumer'.released = consumer.released ++ [buffer.shardIndex] ∨
      consumer'.state.buffer = some buffer ∧ consumer'.released = consumer.released ∧
        operator.rank consumer' < operator.rank consumer := by
  cases h with
  | call hcontrol =>
      refine .inr ⟨hheld, rfl, rank_lt_of_unreturned ?_ rfl ?_⟩
      · rw [stage, stage, hcontrol]
      · rw [unreturned, unreturned, hcontrol]
        exact Nat.lt_succ_self _
  | leave hcontrol houtput =>
      have hends := endProduce_spec operator .haveOutput consumer
      have hpositive := List.length_pos_of_ne_nil houtput
      have hcontrol' : (operator.endProduce .haveOutput consumer).control = .returned ∨
          (operator.endProduce .haveOutput consumer).control = .producing := by
        rcases hends.control with hreturned | hproducing | ⟨hempty, -⟩
        · exact .inl hreturned
        · exact .inr hproducing
        · exact absurd hempty houtput
      refine .inr ⟨hends.state ▸ hheld, hends.released, rank_lt_of_unreturned ?_ ?_ ?_⟩
      · rw [stage, stage, hcontrol]
        rcases hcontrol' with heq | heq
        · rw [heq]
        · rw [heq]
      · rw [work, work, hends.state]
      · rw [unreturned, unreturned, hends.call, hcontrol]
        dsimp only [List.length_nil]
        split <;> omega
  | claim alive hcontrol hbuffer => cases hheld.symm.trans hbuffer
  | prepare hcontrol hbuffer hused hshard hbegin =>
      refine .inr ⟨hheld, rfl, rank_lt_of_stage ?_⟩
      rw [stage, stage, hcontrol]
      exact Nat.lt_succ_self 1
  | raise e hcontrol hbuffer =>
      refine .inr ⟨hheld, rfl, rank_lt_of_stage ?_⟩
      rcases hcontrol with hpreparing | hproducing
      · rw [stage, stage, hpreparing]
        exact Nat.two_pos
      · rw [stage, stage, hproducing]
        exact Nat.one_pos
  | @write buffer' hcontrol hbuffer hdecode hcount =>
      obtain rfl : buffer = buffer' := Option.some.inj (hheld.symm.trans hbuffer)
      refine .inr ⟨hheld, rfl, ?_⟩
      have hlength : ((buffer.targets.drop consumer.state.targetPosition).take
          (operator.options.outputBatchSize - consumer.call.output.length)).length =
          min (operator.options.outputBatchSize - consumer.call.output.length)
            (buffer.targets.length - consumer.state.targetPosition) := by
        rw [List.length_take, List.length_drop]
      unfold writeRound
      dsimp only
      split
      · apply rank_lt_of_stage
        rw [stage, stage, hcontrol]
        exact Nat.one_pos
      · -- rows are written, since neither the chunk is full nor the buffer used up
        rename_i hmore
        apply rank_lt_of_work
        · rw [stage, stage, hcontrol]
        · refine lt_of_eq_of_lt (work_write hdecode hheld) ?_
          rw [work_write hdecode hheld]
          dsimp only
          omega
  | @decode buffer' decoder decoder' decoded hcontrol hbuffer hdecode hdecoded hdecoder hnext =>
      obtain rfl : buffer = buffer' := Option.some.inj (hheld.symm.trans hbuffer)
      have hserved : decoder.remaining buffer = decoded.targetIndex :: decoder'.remaining buffer :=
        (LerobotShardDecoder.next_keeps hnext).1
      refine .inr ⟨hheld, rfl, rank_lt_of_work ?_ ?_⟩
      · rw [stage, stage, hcontrol]
      · refine lt_of_eq_of_lt (work_decode hdecode hheld) ?_
        rw [work_decode hdecode hheld, hdecoded, hdecoder]
        dsimp only [Option.elim]
        rw [hserved, List.length_cons]
        omega
  | exhaust hcontrol hbuffer hdecode hdecoded hdecoder hnext =>
      refine .inr ⟨hheld, rfl, rank_lt_of_stage ?_⟩
      rw [stage, stage, hcontrol]
      exact Nat.one_pos
  | @writeDecoded buffer' decoded target hcontrol hbuffer hdecode hdecoded hcount hfits htarget =>
      refine .inr ⟨hheld, rfl, rank_lt_of_work ?_ ?_⟩
      · rw [stage, stage, hcontrol]
      · refine lt_of_eq_of_lt (work_decode hdecode hheld) ?_
        rw [work_decode hdecode hheld, hdecoded]
        dsimp only [Option.elim]
        omega
  | @release buffer' exception hcontrol hbuffer =>
      obtain rfl : buffer = buffer' := Option.some.inj (hheld.symm.trans hbuffer)
      exact .inl rfl
  | resume hcontrol =>
      have hnone := hready.mayHold (by rw [hcontrol]; exact id)
      cases hheld.symm.trans hnone
  | interrupt alive hcontrol =>
      have hnone := hready.mayHold (by rw [hcontrol]; exact id)
      cases hheld.symm.trans hnone

theorem writeDecodedRound_enabled (operator : FramesOperator ψ φ)
    {buffer : LerobotDecodeBuffer LerobotDecodeTarget} {decoded : DecodedVideoFrame}
    (hindex : decoded.targetIndex < buffer.targets.length) (consumer : FramesConsumer ψ φ ε) :
    ∃ result, operator.writeDecodedRound buffer decoded consumer = some result := by
  unfold writeDecodedRound
  rw [List.getElem?_eq_getElem hindex]
  dsimp only
  split
  · exact ⟨_, rfl⟩
  · exact ⟨_, rfl⟩

/-- A consumer that holds a buffer can take a step. -/
theorem consumerStep_enabled {buffer : LerobotDecodeBuffer LerobotDecodeTarget}
    (hheld : consumer.state.buffer = some buffer) (hready : operator.ConsumerReady consumer)
    (queue : QueueState LerobotDecodeTarget ε) :
    ∃ action result, operator.consumerStep queue consumer action = some result := by
  -- An exception of the decoder is always possible.
  let choices : FramesChoices operator :=
    ⟨fun _ => true, .error "", some (.media "")⟩
  cases hcontrol : consumer.control with
  | returned => exact ⟨.call, _, by simp only [consumerStep, hcontrol]; rfl⟩
  | producing =>
      refine ⟨.proceed choices, ?_⟩
      simp only [consumerStep, hcontrol, hheld]
      split
      · exact ⟨_, rfl⟩
      · unfold bufferRound
        by_cases hdecode : operator.needsDecode = false
        · rw [if_pos hdecode]
          exact ⟨_, rfl⟩
        · rw [if_neg hdecode]
          obtain ⟨⟨decoder, hdecoder, -⟩, hindexes⟩ :=
            hready.serving buffer hheld (hcontrol ▸ trivial) (Bool.of_not_eq_false hdecode)
          cases hdecoded : consumer.state.decoded with
          | none =>
              have hraise : operator.decodeRound choices buffer consumer =
                  some { consumer with control := .releasing (some (.decode (.media ""))) } := by
                unfold decodeRound
                rw [hdecoder]
              rw [hraise]
              exact ⟨_, rfl⟩
          | some decoded =>
              have hindex : decoded.targetIndex < buffer.targets.length := by
                apply hindexes
                rw [FramesConsumer.remainingIndexes, hdecoded]
                exact List.mem_cons_self
              obtain ⟨result, hwrite⟩ := writeDecodedRound_enabled operator hindex consumer
              simp only [hwrite, Option.map_some]
              exact ⟨_, rfl⟩
  | preparing =>
      refine ⟨.proceed choices, ?_⟩
      simp only [consumerStep, hcontrol, hheld]
      exact ⟨_, rfl⟩
  | releasing exception =>
      refine ⟨.proceed choices, ?_⟩
      simp only [consumerStep, hcontrol, hheld]
      exact ⟨_, rfl⟩
  | waiting =>
      have hnone := hready.mayHold (by rw [hcontrol]; exact id)
      cases hheld.symm.trans hnone
  | finished =>
      have hnone := hready.mayHold (by rw [hcontrol]; exact id)
      cases hheld.symm.trans hnone
  | thrown exception =>
      have hnone := hready.mayHold (by rw [hcontrol]; exact id)
      cases hheld.symm.trans hnone

/-- **A held buffer is given back**, whatever happens. -/
theorem release_inevitable {buffer : LerobotDecodeBuffer LerobotDecodeTarget}
    (hheld : consumer.state.buffer = some buffer) (hready : operator.ConsumerReady consumer) :
    Inevitable operator.ConsumerMoves
      (fun consumer' => consumer'.released = consumer.released ++ [buffer.shardIndex]) consumer := by
  refine Inevitable.of_measure (I := fun consumer' => operator.ConsumerReady consumer' ∧
    consumer'.state.buffer = some buffer ∧ consumer'.released = consumer.released)
    operator.rank ?_ ⟨hready, hheld, rfl⟩
  rintro now ⟨hready, hheld, hreleased⟩
  refine .inr ⟨?_, ?_⟩
  · obtain ⟨action, result, hstep⟩ := consumerStep_enabled hheld hready
      (queueSystem operator.config operator.options.producerThreads operator.queryCount).init
    exact ⟨result.2, _, result.1, action, .init, hstep⟩
  · rintro next ⟨queue, queue', action, hqueue, hstep⟩
    have hcase := consumerStep_case hstep
    have hready' := (hready.step (queueInvariant hqueue).queue (bufferIndexed_of_ready hqueue)
      hcase).1
    rcases rank_step hheld hready hcase with hdone | ⟨hheld', hreleased', hrank⟩
    · exact .inl (hreleased ▸ hdone)
    · exact .inr ⟨⟨hready', hheld', hreleased'.trans hreleased⟩, hrank⟩

end Release

/-! ## Exclusivity -/

/-- A call of `FinishBuffer`: the shard was busy, and is no longer. -/
def FinishesShard (queue queue' : QueueState LerobotDecodeTarget ε)
    (consumer consumer' : FramesConsumer ψ φ ε) : Prop :=
  ∃ shardIndex ∈ queue.queue.busyShards, consumer'.released = consumer.released ++ [shardIndex] ∧
    queue'.queue.busyShards = queue.queue.busyShards.erase shardIndex

/-- **What holds of the shards at any time.** -/
structure ShardsExclusive (s : FramesState ψ φ ε) : Prop where
  /-- At most one consumer holds a buffer of a shard. -/
  exclusive : ∀ i j shardIndex, (s.consumers i).heldShard = some shardIndex →
    (s.consumers j).heldShard = some shardIndex → i = j
  busy : ∀ shardIndex, shardIndex ∈ s.queue.queue.busyShards ↔
    ∃ i, (s.consumers i).heldShard = some shardIndex
  /-- Every claim but that of the buffer at hand is followed by one `FinishBuffer` for its shard. -/
  paired : ∀ i, (s.consumers i).claimed.map LerobotDecodeBuffer.shardIndex =
    (s.consumers i).released ++ (s.consumers i).heldShard.toList
  /-- Who waits, has ended or has thrown holds no buffer. -/
  ended : ∀ i, ¬(s.consumers i).control.MayHold → (s.consumers i).heldShard = none
  /-- The `FinishBuffer` for the buffer at hand comes. -/
  finishes : ∀ i shardIndex, (s.consumers i).heldShard = some shardIndex →
    Inevitable operator.ConsumerMoves
      (fun consumer => consumer.released = (s.consumers i).released ++ [shardIndex]) (s.consumers i)
  /-- `FinishBuffer` is only called for a busy shard. -/
  finish_busy : ∀ label t, operator.step s label = some t → ∀ i,
    (t.consumers i).released = (s.consumers i).released ∨
      FinishesShard s.queue t.queue (s.consumers i) (t.consumers i)

section Exclusive

variable {operator} {s t : FramesState ψ φ ε}

/-- A step calls `FinishBuffer` for a busy shard only. -/
theorem ScanReady.finish_busy (h : operator.ScanReady s) {label : FramesLabel operator ε}
    (hstep : operator.step s label = some t) (i : Nat) :
    (t.consumers i).released = (s.consumers i).released ∨
      FinishesShard s.queue t.queue (s.consumers i) (t.consumers i) := by
  cases label with
  | environment operation =>
      obtain ⟨-, hmap⟩ := Option.ite_none_right_eq_some.mp hstep
      obtain ⟨queue, -, rfl⟩ := Option.map_eq_some_iff.mp hmap
      exact .inl rfl
  | consumer index action =>
      obtain ⟨⟨queue, consumer⟩, hconsumer, rfl⟩ := Option.map_eq_some_iff.mp hstep
      have hmove := ((h.consumers index).step (queueInvariant h.queue).queue
        (bufferIndexed_of_ready h.queue) (consumerStep_case hconsumer)).2
      by_cases hi : i = index
      · subst hi
        dsimp only
        rw [Function.update_self]
        cases hmove with
        | keep hheld hreleased hbusy => exact .inl hreleased
        | claim shardIndex hnone hheld hreleased hfree hbusy => exact .inl hreleased
        | release shardIndex hheld hnone hreleased hbusy =>
            exact .inr ⟨shardIndex, (h.owned.inUse shardIndex).mpr ⟨i, hheld⟩, hreleased, hbusy⟩
      · exact .inl (congrArg FramesConsumer.released (Function.update_of_ne hi consumer s.consumers))

/-- **Shards are exclusive, and every claim is followed by one `FinishBuffer`**, in every state of a
scan with any number of consumers, whatever the producers and the decoders do. -/
theorem shards_exclusive (hs : (operator.system ε).Reachable s) : operator.ShardsExclusive s := by
  have h := scanReady hs
  constructor
  · exact h.owned.exclusive
  · exact h.owned.inUse
  · exact fun i => (h.consumers i).claims
  · intro i hmay
    rw [FramesConsumer.heldShard, (h.consumers i).mayHold hmay]
    rfl
  · intro i shardIndex hheld
    obtain ⟨buffer, hbuffer, rfl⟩ := Option.map_eq_some_iff.mp hheld
    exact release_inevitable hbuffer (h.consumers i)
  · exact fun label t hstep => h.finish_busy hstep

end Exclusive

end FramesOperator

/-- Two episodes with one frame each, in two video files. -/
def twoShards : LerobotVideoMetadata where
  root := "/data".toList
  videoPathTemplate := []
  fps := 1
  videoKeys := ["c".toList]
  videoFeatureMetadata := [{}]
  routes := [⟨0, 0, 0, 1, 0, 0, 0, 1⟩, ⟨1, 0, 1, 1, 0, 1, 0, 1⟩]
  videoFiles := ["v".toList, "w".toList]
  infoFingerprint := ⟨0, 0, []⟩
  episodeFiles := []

/-- Videos that cannot be decoded. -/
def brokenMedia : Media Unit Unit where
  arithmetic := .ieee
  seek _ _ := .error "broken"
  receive _ := .error "broken"
  convert _ _ _ := .error "broken"
  gray12le := 0
  printSeconds _ := ""

theorem twoShardsPending_pos : 0 < 3 := Nat.succ_pos 2

/-- A scan of the images of this dataset. -/
def twoShardsScan : FramesOperator Unit Unit where
  metadata := twoShards
  routes := twoShards.routes
  options :=
    { tolerance := 0
      clusterGap := 1
      width := 0
      height := 0
      outputBatchSize := 2
      targetBufferSize := 1
      maxCachedDecoders := 1
      decodeThreads := 1
      producerThreads := 1
      maxPendingTargets := 3
      maxOutputBytes := 1
      codecThreads := 1
      depthOutputUnit := .meters }
  columns := .frames [.frameIndex, .image]
  filters := []
  filterExpression := none
  queryCount := 1
  haveFfmpeg := true
  synchronous := true
  sort := targetSort
  media := brokenMedia
  outputBatchSize_pos := Nat.two_pos
  targetBufferSize_pos := Nat.one_pos
  maxPendingTargets_pos := twoShardsPending_pos
  filterExpression_eq := rfl
  convert_ne_nil := fun _ _ _ _ hconvert => by cases hconvert

/-- The target of an episode of this dataset. -/
def shardTarget (episode : Nat) : LerobotDecodeTarget where
  episodeIndex := episode
  frameIndex := 0
  targetFrameIndex := 0
  frameTimestamp := 0
  videoTimestamp := 0
  routeIndex := episode

/-- A decoder that cannot be opened. -/
def noDecoder : FramesChoices twoShardsScan := ⟨fun _ => true, .error "broken", none⟩

/-- Two consumers claim a buffer each, and one of them fails to get its decoder. -/
def twoShardsSchedule : List (FramesLabel twoShardsScan Unit) :=
  [.environment (.queueTargets [shardTarget 0, shardTarget 1, shardTarget 0] 0 0),
    .consumer 0 .call, .consumer 1 .call, .consumer 0 (.proceed noDecoder),
    .consumer 1 (.proceed noDecoder), .consumer 0 (.proceed noDecoder),
    .consumer 0 (.proceed noDecoder)]

/-- The failed consumer has given its shard back, the other one holds its own. -/
theorem twoShards_exclusive : ∃ s, (twoShardsScan.system Unit).Reachable s ∧
    ((s.consumers 0).released, (s.consumers 0).heldShard, (s.consumers 1).heldShard) =
      ([0], none, some 1) ∧
    twoShardsScan.ShardsExclusive s := by
  obtain ⟨s, hs, htest⟩ := (twoShardsScan.system Unit).exists_reachable_of_replay twoShardsSchedule
    (fun s => decide (((s.consumers 0).released, (s.consumers 0).heldShard,
      (s.consumers 1).heldShard) = ([0], none, some 1))) (by decide +kernel)
  exact ⟨s, hs, of_decide_eq_true htest, FramesOperator.shards_exclusive hs⟩

end DuckdbLerobot.Video
