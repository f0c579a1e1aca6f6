import DuckdbLerobot.Video.ShardExclusion

/-!
# What the scans deliver

The rows that a consumer produces are those of the targets of its buffers, in turn, each with the frame
that `Next` has returned for it (`Delivers`). They are cut into chunks of limited size (`ChunkFits`),
and each chunk is filtered. A frame that does not fit is kept for the next chunk.
-/

set_option autoImplicit false

namespace DuckdbLerobot.Video

open DuckdbLerobot.Library DuckdbLerobot.Path DuckdbLerobot.Storage

variable {ψ φ ε : Type}

/-! ## The rows of a buffer -/

/-- The frames that a decoder returns for a buffer, from `BeginBuffer` on. -/
inductive Decodes (media : Media ψ φ) (buffer : LerobotDecodeBuffer LerobotDecodeTarget) :
    List DecodedVideoFrame → LerobotShardDecoder ψ φ → Prop
  | begun {decoder decoder' : LerobotShardDecoder ψ φ}
      (hbegin : decoder.beginBuffer media buffer = .ok decoder') : Decodes media buffer [] decoder'
  | served {frames : List DecodedVideoFrame} {frame : DecodedVideoFrame}
      {decoder decoder' : LerobotShardDecoder ψ φ} (h : Decodes media buffer frames decoder)
      (hnext : decoder.next media buffer = .ok (some frame, decoder')) :
      Decodes media buffer (frames ++ [frame]) decoder'

/-- The targets of a buffer are decoded one after the other. -/
theorem Decodes.indexes {media : Media ψ φ} {buffer : LerobotDecodeBuffer LerobotDecodeTarget}
    (hbuffer : BufferIndexed buffer) {frames : List DecodedVideoFrame}
    {decoder : LerobotShardDecoder ψ φ} (h : Decodes media buffer frames decoder) :
    frames.map DecodedVideoFrame.targetIndex ++ decoder.remaining buffer =
      List.range buffer.targets.length := by
  induction h with
  | @begun decoder decoder' hbegin =>
      have hshard : buffer.shardIndex = decoder.shardIndex := by
        by_contra hne
        rw [LerobotShardDecoder.beginBuffer, if_pos (.inl hne)] at hbegin
        cases hbegin
      have hspec : Yields (fun begun => begun.remaining buffer = buffer.clusters.flatten ∧
          begun.shardIndex = decoder.shardIndex) DecodeException.Expected
          (decoder.beginBuffer media buffer) :=
        LerobotShardDecoder.beginBuffer_spec hshard hbuffer.targets hbuffer.clusters_ne_nil
      rw [hbegin] at hspec
      exact hspec.1.trans hbuffer.clusters
  | @served frames frame decoder decoder' h hnext ih =>
      have hserved : decoder.remaining buffer = frame.targetIndex :: decoder'.remaining buffer :=
        (LerobotShardDecoder.next_keeps hnext).1
      rw [List.map_append, List.append_assoc, ← ih, hserved]
      rfl

/-- The next frame is that of the next target. -/
theorem Decodes.targetIndex_eq {media : Media ψ φ}
    {buffer : LerobotDecodeBuffer LerobotDecodeTarget} (hbuffer : BufferIndexed buffer)
    {frames : List DecodedVideoFrame} {frame : DecodedVideoFrame} {decoder : LerobotShardDecoder ψ φ}
    (h : Decodes media buffer (frames ++ [frame]) decoder) : frame.targetIndex = frames.length := by
  have hindexes := h.indexes hbuffer
  rw [List.map_append, List.append_assoc] at hindexes
  have hget : (List.range buffer.targets.length)[frames.length]? = some frame.targetIndex := by
    rw [← hindexes, List.getElem?_append_right (List.length_map _).le, List.length_map, Nat.sub_self]
    rfl
  obtain ⟨hlt, heq⟩ := List.getElem?_eq_some_iff.mp hget
  rw [List.getElem_range] at heq
  exact heq.symm

namespace FramesOperator

variable (operator : FramesOperator ψ φ)

/-- What is written with the targets of a buffer: the frame of each target, or nothing. -/
inductive Answered (buffer : LerobotDecodeBuffer LerobotDecodeTarget) :
    List (Option DecodedVideoFrame) → Prop
  | undecoded (hdecode : operator.needsDecode = false) :
      Answered buffer (List.replicate buffer.targets.length none)
  | decoded (hdecode : operator.needsDecode = true) {frames : List DecodedVideoFrame}
      {decoder : LerobotShardDecoder ψ φ} (h : Decodes operator.media buffer frames decoder)
      (hindexes : frames.map DecodedVideoFrame.targetIndex = List.range buffer.targets.length) :
      Answered buffer (frames.map some)

/-- The rows of a buffer: one for each target, in order. -/
def Emits (buffer : LerobotDecodeBuffer LerobotDecodeTarget) (rows : List OutputRow) : Prop :=
  ∃ answers, operator.Answered buffer answers ∧
    rows = List.zipWith operator.outputRow buffer.targets answers

/-- The answers so far for the buffer at hand. -/
inductive Answering (consumer : FramesConsumer ψ φ ε)
    (buffer : LerobotDecodeBuffer LerobotDecodeTarget) : List (Option DecodedVideoFrame) → Prop
  | preparing (hcontrol : consumer.control = .preparing) (hdecode : operator.needsDecode = true) :
      Answering consumer buffer []
  | writing (hcontrol : consumer.control.Writes) (hdecode : operator.needsDecode = false)
      (hposition : consumer.state.targetPosition ≤ buffer.targets.length) :
      Answering consumer buffer (List.replicate consumer.state.targetPosition none)
  | decoding (hcontrol : consumer.control.Writes) (hdecode : operator.needsDecode = true)
      {frames : List DecodedVideoFrame} {decoder : LerobotShardDecoder ψ φ}
      (hdecoder : consumer.state.decoder = some decoder)
      (h : Decodes operator.media buffer (frames ++ consumer.state.decoded.toList) decoder) :
      Answering consumer buffer (frames.map some)
  | complete (hcontrol : consumer.control = .releasing none)
      {answers : List (Option DecodedVideoFrame)} (h : operator.Answered buffer answers) :
      Answering consumer buffer answers

/-- The rows so far of the buffer at hand. -/
def AtHand (consumer : FramesConsumer ψ φ ε) (rows : List OutputRow) : Prop :=
  match consumer.state.buffer with
  | none => rows = []
  | some buffer => ∃ answers, operator.Answering consumer buffer answers ∧
      rows = List.zipWith operator.outputRow buffer.targets answers

/-- The rows of a consumer: those of the buffers that it has finished, and of the one at hand. -/
structure Serves (consumer : FramesConsumer ψ φ ε)
    (finished : List (LerobotDecodeBuffer LerobotDecodeTarget)) (served : List (List OutputRow))
    (current : List OutputRow) : Prop where
  claimed : consumer.claimed = finished ++ consumer.state.buffer.toList
  finished : List.Forall₂ operator.Emits finished served
  rows : consumer.chunks.flatten ++ consumer.call.output = served.flatten ++ current
  atHand : operator.AtHand consumer current

end FramesOperator

/-- A consumer on which an exception was thrown. -/
def FramesControl.Failed : FramesControl ε → Prop
  | releasing exception => exception ≠ none
  | thrown _ => True
  | _ => False

namespace FramesOperator

variable (operator : FramesOperator ψ φ)

/-- What a consumer has delivered so far. -/
def Delivers (consumer : FramesConsumer ψ φ ε) : Prop :=
  ¬consumer.control.Failed → ∃ finished served current,
    operator.Serves consumer finished served current

section Serves

variable {operator} {queue queue' : QueueState LerobotDecodeTarget ε}
  {consumer consumer' : FramesConsumer ψ φ ε}
  {finished : List (LerobotDecodeBuffer LerobotDecodeTarget)} {served : List (List OutputRow)}
  {current : List OutputRow}

theorem delivers_init : operator.Delivers ({} : FramesConsumer ψ φ ε) :=
  fun _ => ⟨[], [], [], rfl, .nil, rfl, rfl⟩

/-- Each target of a buffer has one answer. -/
theorem Answered.length_eq {buffer : LerobotDecodeBuffer LerobotDecodeTarget}
    {answers : List (Option DecodedVideoFrame)} (h : operator.Answered buffer answers) :
    answers.length = buffer.targets.length := by
  cases h with
  | undecoded hdecode => exact List.length_replicate
  | @decoded frames decoder hdecode h hindexes =>
      have hcount := congrArg List.length hindexes
      rw [List.length_map, List.length_range] at hcount
      rw [List.length_map, hcount]

/-- The rows of a buffer are those of its targets. -/
theorem Emits.targets {buffer : LerobotDecodeBuffer LerobotDecodeTarget} {rows : List OutputRow}
    (h : operator.Emits buffer rows) : rows.map OutputRow.target = buffer.targets := by
  obtain ⟨answers, hanswers, rfl⟩ := h
  rw [map_zipWith_left (fun _ _ => rfl), hanswers.length_eq, List.take_length]

/-- The rows of some buffers are those of their targets. -/
theorem emits_targets {buffers : List (LerobotDecodeBuffer LerobotDecodeTarget)}
    (h : List.Forall₂ operator.Emits buffers served) :
    served.flatten.map OutputRow.target = buffers.flatMap LerobotDecodeBuffer.targets := by
  induction h with
  | nil => rfl
  | cons hemits _ ih => rw [List.flatten_cons, List.map_append, hemits.targets, ih, List.flatMap_cons]

/-- The rows so far of the buffer at hand are those of its first targets. -/
theorem AtHand.targets (h : operator.AtHand consumer current) :
    current.map OutputRow.target <+:
      consumer.state.buffer.toList.flatMap LerobotDecodeBuffer.targets := by
  unfold AtHand at h
  split at h
  · subst h
    exact List.nil_prefix
  · rename_i buffer hbuffer
    obtain ⟨answers, -, rfl⟩ := h
    rw [map_zipWith_left (fun _ _ => rfl), hbuffer]
    simpa using List.take_prefix answers.length buffer.targets

/-- The rows of a consumer are those of the targets of its buffers, in order. -/
theorem Serves.targets (h : operator.Serves consumer finished served current) :
    (consumer.chunks.flatten ++ consumer.call.output).map OutputRow.target <+:
      consumer.claimed.flatMap LerobotDecodeBuffer.targets := by
  rw [h.rows, List.map_append, emits_targets h.finished, h.claimed, List.flatMap_append]
  exact (List.prefix_append_right_inj _).mpr h.atHand.targets

/-! ## A step keeps what is delivered -/

/-- A step that leaves the buffer with the consumer, and appends rows. -/
theorem Serves.extend (h : operator.Serves consumer finished served current)
    {buffer : LerobotDecodeBuffer LerobotDecodeTarget} (hbuffer : consumer.state.buffer = some buffer)
    (rows : List OutputRow) (answers : List (Option DecodedVideoFrame))
    (hbuffer' : consumer'.state.buffer = some buffer) (hclaimed : consumer'.claimed = consumer.claimed)
    (hrows : consumer'.chunks.flatten ++ consumer'.call.output =
      consumer.chunks.flatten ++ consumer.call.output ++ rows)
    (hanswers : operator.Answering consumer' buffer answers)
    (hcurrent : current ++ rows = List.zipWith operator.outputRow buffer.targets answers) :
    operator.Serves consumer' finished served (current ++ rows) where
  claimed := by rw [hclaimed, hbuffer', ← hbuffer, h.claimed]
  finished := h.finished
  rows := by rw [hrows, h.rows, List.append_assoc]
  atHand := by
    rw [AtHand, hbuffer']
    exact ⟨answers, hanswers, hcurrent⟩

/-- The answers so far, of a consumer that goes on. -/
theorem Serves.answering (h : operator.Serves consumer finished served current)
    {buffer : LerobotDecodeBuffer LerobotDecodeTarget}
    (hbuffer : consumer.state.buffer = some buffer) :
    ∃ answers, operator.Answering consumer buffer answers ∧
      current = List.zipWith operator.outputRow buffer.targets answers := by
  have hatHand := h.atHand
  rwa [AtHand, hbuffer] at hatHand

/-- A consumer without a buffer has delivered the rows of all its buffers. -/
theorem Serves.of_no_buffer (h : operator.Serves consumer finished served current)
    (hbuffer : consumer.state.buffer = none) :
    List.Forall₂ operator.Emits consumer.claimed served ∧
      consumer.chunks.flatten ++ consumer.call.output = served.flatten := by
  have hclaimed := h.claimed
  rw [hbuffer, Option.toList_none, List.append_nil] at hclaimed
  have hatHand := h.atHand
  rw [AtHand, hbuffer] at hatHand
  have hcurrent : current = [] := hatHand
  refine ⟨hclaimed ▸ h.finished, ?_⟩
  rw [h.rows, hcurrent, List.append_nil]

/-- The answers stay the same where the state does. -/
theorem Answering.writes {buffer : LerobotDecodeBuffer LerobotDecodeTarget}
    {answers : List (Option DecodedVideoFrame)} (h : operator.Answering consumer buffer answers)
    (hwrites : consumer.control.Writes) (hstate : consumer'.state = consumer.state)
    (hwrites' : consumer'.control.Writes) : operator.Answering consumer' buffer answers := by
  cases h with
  | preparing hcontrol _ =>
      rw [hcontrol] at hwrites
      exact hwrites.elim
  | writing _ hdecode hposition =>
      rw [← hstate] at hposition ⊢
      exact .writing hwrites' hdecode hposition
  | decoding _ hdecode hdecoder hdecodes =>
      rw [← hstate] at hdecoder hdecodes
      exact .decoding hwrites' hdecode hdecoder hdecodes
  | complete hcontrol _ =>
      rw [hcontrol] at hwrites
      exact hwrites.elim

/-- The end of a chunk moves rows from the call to the chunks. -/
theorem Serves.endsChunk (h : operator.Serves consumer finished served current)
    (hcontrol : consumer.control = .producing) {result : LerobotVideoProduceResult}
    (hends : operator.EndsChunk result consumer consumer')
    (hbuffer : result = .haveOutput ∨ consumer.state.buffer = none) :
    operator.Serves consumer' finished served current where
  claimed := by rw [hends.claimed, hends.state, h.claimed]
  finished := h.finished
  rows := by
    rw [hends.chunks, hends.call, List.append_nil, List.flatten_append, List.flatten_singleton, h.rows]
  atHand := by
    have hatHand := h.atHand
    cases hsome : consumer.state.buffer with
    | none =>
        rw [AtHand, hsome] at hatHand
        rw [AtHand, hends.state, hsome]
        exact hatHand
    | some buffer =>
        obtain ⟨answers, hanswers, hcurrent⟩ := h.answering hsome
        rw [AtHand, hends.state, hsome]
        refine ⟨answers, hanswers.writes (hcontrol ▸ trivial) hends.state ?_, hcurrent⟩
        rcases hends.control with hreturned | hproducing | ⟨-, hresult⟩
        · exact hreturned ▸ trivial
        · exact hproducing ▸ trivial
        · rcases hbuffer with rfl | hnone
          · rcases hresult with ⟨hresult, -⟩ | ⟨hresult, -⟩
            · cases hresult
            · cases hresult
          · cases hsome.symm.trans hnone

/-- The answer of `ClaimBuffer`: the rows of the buffers so far are complete. -/
theorem Serves.claimRound (h : operator.Serves consumer finished served current)
    (hcontrol : consumer.control = .producing) (hbuffer : consumer.state.buffer = none)
    (answer : Except ε (LerobotBufferClaimResult LerobotDecodeTarget)) :
    operator.Delivers (operator.claimRound answer consumer) := by
  intro hfailed
  obtain ⟨hemits, hrows⟩ := h.of_no_buffer hbuffer
  have hends (result : LerobotVideoProduceResult) :
      ∃ finished served current,
        operator.Serves (operator.endProduce result consumer) finished served current :=
    ⟨finished, served, current,
      h.endsChunk hcontrol (endProduce_spec operator result consumer) (.inr hbuffer)⟩
  unfold FramesOperator.claimRound at hfailed ⊢
  split at hfailed
  · exact absurd trivial hfailed
  · exact hends .blocked
  · exact hends .finished
  · rename_i buffer
    dsimp only at hfailed ⊢
    refine ⟨consumer.claimed, served, [], ?_⟩
    split
    · rename_i hdecode
      refine ⟨rfl, hemits, hrows.trans (List.append_nil _).symm, ?_⟩
      exact ⟨[], .writing (hcontrol ▸ trivial) hdecode (Nat.zero_le _), List.zipWith_nil_right.symm⟩
    · split
      · -- the missing extension
        rename_i hdecode hffmpeg
        rw [if_neg hdecode, if_pos hffmpeg] at hfailed
        exact absurd (by simp [FramesControl.Failed]) hfailed
      · refine ⟨rfl, hemits, hrows.trans (List.append_nil _).symm, ?_⟩
        exact ⟨[], .preparing rfl (Bool.of_not_eq_false ‹_›), List.zipWith_nil_right.symm⟩

/-- A round without decoding writes the next rows of the buffer. -/
theorem Serves.writeRound (h : operator.Serves consumer finished served current)
    {buffer : LerobotDecodeBuffer LerobotDecodeTarget} (hcontrol : consumer.control = .producing)
    (hbuffer : consumer.state.buffer = some buffer) (hdecode : operator.needsDecode = false) :
    operator.Delivers (operator.writeRound buffer consumer) := by
  intro _
  obtain ⟨answers, hanswers, hcurrent⟩ := h.answering hbuffer
  cases hanswers with
  | preparing hpreparing _ => cases hcontrol.symm.trans hpreparing
  | decoding _ hdecode' _ _ => cases hdecode.symm.trans hdecode'
  | complete hcomplete _ => cases hcontrol.symm.trans hcomplete
  | writing _ _ hposition =>
      let targets := (buffer.targets.drop consumer.state.targetPosition).take
        (operator.options.outputBatchSize - consumer.call.output.length)
      have htargets : (buffer.targets.drop consumer.state.targetPosition).take targets.length =
          targets := (List.prefix_iff_eq_take.mp (List.take_prefix _ _)).symm
      have hposition' : consumer.state.targetPosition + targets.length ≤ buffer.targets.length := by
        have hle : targets.length ≤ (buffer.targets.drop consumer.state.targetPosition).length :=
          List.length_take_le' _ _
        rw [List.length_drop] at hle
        omega
      have hrows : current ++ targets.map (fun target => operator.outputRow target none) =
          List.zipWith operator.outputRow buffer.targets
            (List.replicate (consumer.state.targetPosition + targets.length) none) := by
        rw [hcurrent, zipWith_replicate_right, zipWith_replicate_right, List.take_add, htargets,
          List.map_append]
      refine ⟨finished, served, _, h.extend hbuffer
        (targets.map fun target => operator.outputRow target none) _ hbuffer rfl ?_ ?_ hrows⟩
      · exact (List.append_assoc _ _ _).symm
      · unfold FramesOperator.writeRound
        dsimp only
        split
        · rename_i hend
          -- all targets of the buffer are written
          have hcount : consumer.state.targetPosition + targets.length = buffer.targets.length :=
            le_antisymm hposition' hend
          rw [hcount]
          exact .complete rfl (.undecoded hdecode)
        · exact .writing trivial hdecode hposition'

/-- The next frame is kept until its row is written. -/
theorem Serves.decoded (h : operator.Serves consumer finished served current)
    {buffer : LerobotDecodeBuffer LerobotDecodeTarget} {decoder decoder' : LerobotShardDecoder ψ φ}
    {decoded : DecodedVideoFrame} (hcontrol : consumer.control = .producing)
    (hbuffer : consumer.state.buffer = some buffer) (hdecode : operator.needsDecode = true)
    (hdecoded : consumer.state.decoded = none) (hdecoder : consumer.state.decoder = some decoder)
    (hnext : decoder.next operator.media buffer = .ok (some decoded, decoder')) :
    operator.Delivers { consumer with
      state := { consumer.state with decoder := some decoder', decoded := some decoded } } := by
  intro _
  obtain ⟨answers, hanswers, hcurrent⟩ := h.answering hbuffer
  cases hanswers with
  | preparing hpreparing _ => cases hcontrol.symm.trans hpreparing
  | writing _ hdecode' _ => cases hdecode.symm.trans hdecode'
  | complete hcomplete _ => cases hcontrol.symm.trans hcomplete
  | @decoding _ _ frames decoder'' hdecoder'' hdecodes =>
      obtain rfl : decoder = decoder'' := Option.some.inj (hdecoder.symm.trans hdecoder'')
      rw [hdecoded, Option.toList_none, List.append_nil] at hdecodes
      refine ⟨finished, served, _, h.extend hbuffer [] (frames.map some) hbuffer rfl ?_ ?_ ?_⟩
      · exact (List.append_nil _).symm
      · exact .decoding (hcontrol ▸ trivial) hdecode rfl (hdecodes.served hnext)
      · exact (List.append_nil _).trans hcurrent

/-- After the last frame, the rows of the buffer are complete. -/
theorem Serves.exhausted (h : operator.Serves consumer finished served current)
    {buffer : LerobotDecodeBuffer LerobotDecodeTarget} {decoder decoder' : LerobotShardDecoder ψ φ}
    (hindexed : BufferIndexed buffer) (hcontrol : consumer.control = .producing)
    (hbuffer : consumer.state.buffer = some buffer) (hdecode : operator.needsDecode = true)
    (hdecoded : consumer.state.decoded = none) (hdecoder : consumer.state.decoder = some decoder)
    (hnext : decoder.next operator.media buffer = .ok (none, decoder')) :
    operator.Delivers ({ consumer with control := .releasing none } : FramesConsumer ψ φ ε) := by
  intro _
  obtain ⟨answers, hanswers, hcurrent⟩ := h.answering hbuffer
  cases hanswers with
  | preparing hpreparing _ => cases hcontrol.symm.trans hpreparing
  | writing _ hdecode' _ => cases hdecode.symm.trans hdecode'
  | complete hcomplete _ => cases hcontrol.symm.trans hcomplete
  | @decoding _ _ frames decoder'' hdecoder'' hdecodes =>
      obtain rfl : decoder = decoder'' := Option.some.inj (hdecoder.symm.trans hdecoder'')
      rw [hdecoded, Option.toList_none, List.append_nil] at hdecodes
      have hremaining : decoder.remaining buffer = [] := (LerobotShardDecoder.next_keeps hnext).1
      have hindexes := hdecodes.indexes hindexed
      rw [hremaining, List.append_nil] at hindexes
      refine ⟨finished, served, _, h.extend hbuffer [] (frames.map some) hbuffer rfl ?_ ?_ ?_⟩
      · exact (List.append_nil _).symm
      · exact .complete rfl (.decoded hdecode hdecodes hindexes)
      · exact (List.append_nil _).trans hcurrent

/-- A kept frame is written with the next target. -/
theorem Serves.wroteDecoded (h : operator.Serves consumer finished served current)
    {buffer : LerobotDecodeBuffer LerobotDecodeTarget} {decoded : DecodedVideoFrame}
    {target : LerobotDecodeTarget} (hindexed : BufferIndexed buffer)
    (hcontrol : consumer.control = .producing) (hbuffer : consumer.state.buffer = some buffer)
    (hdecode : operator.needsDecode = true) (hdecoded : consumer.state.decoded = some decoded)
    (htarget : buffer.targets[decoded.targetIndex]? = some target) (outputBytes : Nat) :
    operator.Delivers { consumer with
      state := { consumer.state with decoded := none }
      call := ⟨consumer.call.output ++ [operator.outputRow target (some decoded)], outputBytes⟩ } := by
  intro _
  obtain ⟨answers, hanswers, hcurrent⟩ := h.answering hbuffer
  cases hanswers with
  | preparing hpreparing _ => cases hcontrol.symm.trans hpreparing
  | writing _ hdecode' _ => cases hdecode.symm.trans hdecode'
  | complete hcomplete _ => cases hcontrol.symm.trans hcomplete
  | @decoding _ _ frames decoder hdecoder hdecodes =>
      rw [hdecoded, Option.toList_some] at hdecodes
      have hnext : buffer.targets[(frames.map some).length]? = some target := by
        rw [List.length_map, ← hdecodes.targetIndex_eq hindexed, htarget]
      refine ⟨finished, served, _, h.extend hbuffer [operator.outputRow target (some decoded)]
        ((frames ++ [decoded]).map some) hbuffer rfl ?_ ?_ ?_⟩
      · exact (List.append_assoc _ _ _).symm
      · refine .decoding (hcontrol ▸ trivial) hdecode hdecoder ?_
        rw [Option.toList_none, List.append_nil]
        exact hdecodes
      · rw [hcurrent, List.map_append, List.map_singleton, zipWith_concat_right hnext]

/-- With `FinishBuffer`, the buffer counts as finished. -/
theorem Serves.released (h : operator.Serves consumer finished served current)
    {buffer : LerobotDecodeBuffer LerobotDecodeTarget} {exception : Option (FramesException ε)}
    (hcontrol : consumer.control = .releasing exception)
    (hbuffer : consumer.state.buffer = some buffer) :
    operator.Delivers (releaseRound buffer exception consumer) := by
  intro hfailed
  cases exception with
  | some e => exact absurd trivial hfailed
  | none =>
      obtain ⟨answers, hanswers, hcurrent⟩ := h.answering hbuffer
      cases hanswers with
      | preparing hpreparing _ => cases hcontrol.symm.trans hpreparing
      | writing hwrites _ _ =>
          rw [hcontrol] at hwrites
          exact hwrites.elim
      | decoding hwrites _ _ _ =>
          rw [hcontrol] at hwrites
          exact hwrites.elim
      | complete _ hanswered =>
          have hclaimed := h.claimed
          rw [hbuffer] at hclaimed
          refine ⟨finished ++ [buffer], served ++ [current], [], ?_⟩
          constructor
          · exact hclaimed.trans (List.append_nil _).symm
          · exact List.rel_append h.finished (.cons ⟨answers, hanswered, hcurrent⟩ .nil)
          · refine h.rows.trans ?_
            rw [List.flatten_append, List.flatten_singleton, List.append_nil]
          · rfl

/-- A consumer without a buffer, wherever it goes on. -/
theorem Serves.setControl (h : operator.Serves consumer finished served current)
    (hbuffer : consumer.state.buffer = none) (control : FramesControl ε) :
    operator.Serves { consumer with control := control } finished served current where
  claimed := h.claimed
  finished := h.finished
  rows := h.rows
  atHand := by
    have hatHand := h.atHand
    unfold AtHand at hatHand ⊢
    dsimp only
    rw [hbuffer] at hatHand ⊢
    exact hatHand

/-- The next call goes on where the last one has ended. -/
theorem Serves.called (h : operator.Serves consumer finished served current)
    (hcontrol : consumer.control = .returned) :
    operator.Serves ({ consumer with control := .producing } : FramesConsumer ψ φ ε) finished served
      current := by
  cases hbuffer : consumer.state.buffer with
  | none => exact h.setControl hbuffer _
  | some buffer =>
      obtain ⟨answers, hanswers, hcurrent⟩ := h.answering hbuffer
      refine
        { claimed := h.claimed
          finished := h.finished
          rows := h.rows
          atHand := ?_ }
      unfold AtHand
      dsimp only
      rw [hbuffer]
      exact ⟨answers, hanswers.writes (hcontrol ▸ trivial) rfl trivial, hcurrent⟩

/-- The decoder is ready for the first target. -/
theorem Serves.prepared (h : operator.Serves consumer finished served current)
    {buffer : LerobotDecodeBuffer LerobotDecodeTarget} {decoder decoder' : LerobotShardDecoder ψ φ}
    (hcontrol : consumer.control = .preparing) (hbuffer : consumer.state.buffer = some buffer)
    (hdecoded : consumer.state.decoded = none)
    (hbegin : decoder.beginBuffer operator.media buffer = .ok decoder') :
    operator.Delivers ({ consumer with
      state := { consumer.state with decoder := some decoder' }
      control := .producing } : FramesConsumer ψ φ ε) := by
  intro _
  obtain ⟨answers, hanswers, hcurrent⟩ := h.answering hbuffer
  cases hanswers with
  | writing hwrites _ _ =>
      rw [hcontrol] at hwrites
      exact hwrites.elim
  | decoding hwrites _ _ _ =>
      rw [hcontrol] at hwrites
      exact hwrites.elim
  | complete hcomplete _ => cases hcontrol.symm.trans hcomplete
  | preparing _ hdecode =>
      refine ⟨finished, served, _, h.extend hbuffer [] (List.map some []) hbuffer rfl ?_ ?_ ?_⟩
      · exact (List.append_nil _).symm
      · have hdecodes : Decodes operator.media buffer ([] ++ consumer.state.decoded.toList)
            decoder' := by
          rw [hdecoded]
          exact .begun hbegin
        refine .decoding ?_ hdecode ?_ hdecodes
        · exact trivial
        · rfl
      · exact (List.append_nil _).trans hcurrent

/-- **A step keeps what is delivered.** -/
theorem Delivers.step (h : operator.Delivers consumer) (hready : operator.ConsumerReady consumer)
    (hcase : operator.ConsumerCase queue consumer queue' consumer') : operator.Delivers consumer' := by
  -- A consumer on which no exception was thrown, with the rows that it has served.
  have hserves (hcontrol : ¬consumer.control.Failed) := h hcontrol
  have hproducing (hcontrol : consumer.control = .producing) : ¬consumer.control.Failed := by
    rw [hcontrol]
    exact id
  cases hcase with
  | call hcontrol =>
      intro _
      obtain ⟨finished, served, current, hserved⟩ := hserves (by rw [hcontrol]; exact id)
      exact ⟨finished, served, current, hserved.called hcontrol⟩
  | leave hcontrol houtput =>
      intro _
      obtain ⟨finished, served, current, hserved⟩ := hserves (hproducing hcontrol)
      exact ⟨finished, served, current,
        hserved.endsChunk hcontrol (endProduce_spec operator .haveOutput consumer) (.inl rfl)⟩
  | claim alive hcontrol hbuffer =>
      obtain ⟨finished, served, current, hserved⟩ := hserves (hproducing hcontrol)
      exact hserved.claimRound hcontrol hbuffer _
  | prepare hcontrol hbuffer hused hshard hbegin =>
      obtain ⟨finished, served, current, hserved⟩ := hserves (by rw [hcontrol]; exact id)
      exact hserved.prepared hcontrol hbuffer (hready.undecoded hcontrol) hbegin
  | raise e hcontrol hbuffer => exact fun hfailed => absurd (Option.some_ne_none _) hfailed
  | write hcontrol hbuffer hdecode hcount =>
      obtain ⟨finished, served, current, hserved⟩ := hserves (hproducing hcontrol)
      exact hserved.writeRound hcontrol hbuffer hdecode
  | decode hcontrol hbuffer hdecode hdecoded hdecoder hnext =>
      obtain ⟨finished, served, current, hserved⟩ := hserves (hproducing hcontrol)
      exact hserved.decoded hcontrol hbuffer hdecode hdecoded hdecoder hnext
  | exhaust hcontrol hbuffer hdecode hdecoded hdecoder hnext =>
      obtain ⟨finished, served, current, hserved⟩ := hserves (hproducing hcontrol)
      exact hserved.exhausted (hready.indexed _ hbuffer) hcontrol hbuffer hdecode hdecoded hdecoder hnext
  | writeDecoded hcontrol hbuffer hdecode hdecoded hcount hfits htarget =>
      obtain ⟨finished, served, current, hserved⟩ := hserves (hproducing hcontrol)
      exact hserved.wroteDecoded (hready.indexed _ hbuffer) hcontrol hbuffer hdecode hdecoded htarget _
  | @release buffer exception hcontrol hbuffer =>
      intro hfailed
      cases exception with
      | some e => exact absurd trivial hfailed
      | none =>
          obtain ⟨finished, served, current, hserved⟩ := hserves (by rw [hcontrol]; exact fun h => h rfl)
          exact hserved.released hcontrol hbuffer hfailed
  | resume hcontrol =>
      intro _
      have hnone := hready.mayHold (by rw [hcontrol]; exact id)
      obtain ⟨finished, served, current, hserved⟩ := hserves (by rw [hcontrol]; exact id)
      exact ⟨finished, served, current, hserved.setControl hnone _⟩
  | interrupt alive hcontrol =>
      split
      · exact fun hfailed => absurd trivial hfailed
      · exact h

end Serves

/-! ## The chunks -/

/-- The bytes of the image of a row. -/
def imageBytes (row : OutputRow) : Nat := row.decoded.elim 0 pixelBytes

/-- A chunk within the limits: one that is too large has a single row. -/
structure ChunkFits (rows : List OutputRow) : Prop where
  rows_le : rows.length ≤ operator.options.outputBatchSize
  bytes_le : rows.length ≤ 1 ∨ (rows.map imageBytes).sum ≤ operator.options.maxOutputBytes

/-- A row passes the pushed-down filters when every one of them is true. -/
def passes (row : OutputRow) : Bool :=
  operator.filters.all fun filter =>
    filter.evaluate (writeVideoTarget operator.metadata operator.options row operator.columns) ==
      some true

/-- What holds of the chunks of a consumer. -/
structure Batched (consumer : FramesConsumer ψ φ ε) : Prop where
  chunks : ∀ rows ∈ consumer.chunks, operator.ChunkFits rows
  call : operator.ChunkFits consumer.call.output
  outputBytes : consumer.call.outputBytes = (consumer.call.output.map imageBytes).sum
  imageless : operator.columns.needsPixels = false ∨ operator.needsDecode = false →
    (consumer.call.output.map imageBytes).sum = 0
  decoded : ∀ decoded, consumer.state.decoded = some decoded →
    decoded.PixelsSound operator.columns.needsPixels
  emitted : consumer.emitted.flatten = consumer.chunks.flatten.filter operator.passes
  ended : consumer.control = .finished → consumer.call.output = []

section Batched

variable {operator} {queue queue' : QueueState LerobotDecodeTarget ε}
  {consumer consumer' : FramesConsumer ψ φ ε}

theorem filtered_eq (operator : FramesOperator ψ φ) (rows : List OutputRow) :
    operator.filtered rows = rows.filter operator.passes :=
  applyFilters_eq operator.filterExpression_eq _ rows

theorem chunkFits_nil : operator.ChunkFits [] where
  rows_le := Nat.zero_le _
  bytes_le := .inl (Nat.zero_le 1)

theorem batched_init : operator.Batched ({} : FramesConsumer ψ φ ε) where
  chunks := fun rows hrows => by cases hrows
  call := chunkFits_nil
  outputBytes := rfl
  imageless := fun _ => rfl
  decoded := fun decoded hnone => by cases hnone
  emitted := rfl
  ended := fun _ => rfl

/-- A step that leaves the chunks and the call alone. -/
theorem Batched.keep (h : operator.Batched consumer) (hchunks : consumer'.chunks = consumer.chunks)
    (hemitted : consumer'.emitted = consumer.emitted) (hcall : consumer'.call = consumer.call)
    (hdecoded : ∀ decoded, consumer'.state.decoded = some decoded →
      decoded.PixelsSound operator.columns.needsPixels)
    (hended : consumer'.control ≠ .finished) : operator.Batched consumer' where
  chunks := hchunks ▸ h.chunks
  call := hcall ▸ h.call
  outputBytes := hcall ▸ h.outputBytes
  imageless := hcall ▸ h.imageless
  decoded := hdecoded
  emitted := by rw [hemitted, hchunks, h.emitted]
  ended := fun hfinished => absurd hfinished hended

/-- The end of a chunk. -/
theorem Batched.endsChunk (h : operator.Batched consumer) {result : LerobotVideoProduceResult}
    (hends : operator.EndsChunk result consumer consumer') : operator.Batched consumer' where
  chunks := by
    intro rows hrows
    rw [hends.chunks] at hrows
    rcases List.mem_append.mp hrows with hrows | hrows
    · exact h.chunks rows hrows
    · rw [List.mem_singleton.mp hrows]
      exact h.call
  call := by
    rw [hends.call]
    exact chunkFits_nil
  outputBytes := by
    rw [hends.call]
    rfl
  imageless := fun _ => by
    rw [hends.call]
    rfl
  decoded := by
    rw [hends.state]
    exact h.decoded
  emitted := by
    rw [hends.emitted, hends.chunks, h.emitted, filtered_eq, List.flatten_append,
      List.flatten_singleton, List.filter_append]
  ended := fun _ => by rw [hends.call]

/-- The rows of a round without decoding. -/
theorem Batched.writeRound (h : operator.Batched consumer)
    {buffer : LerobotDecodeBuffer LerobotDecodeTarget} (hdecode : operator.needsDecode = false)
    (hcount : consumer.call.output.length < operator.options.outputBatchSize) :
    operator.Batched (operator.writeRound buffer consumer) := by
  let targets := (buffer.targets.drop consumer.state.targetPosition).take
    (operator.options.outputBatchSize - consumer.call.output.length)
  have hsum : ((consumer.call.output ++
      targets.map fun target => operator.outputRow target none).map imageBytes).sum = 0 := by
    rw [List.map_append, List.sum_append, h.imageless (.inr hdecode), List.map_map, Nat.zero_add]
    apply List.sum_eq_zero
    intro bytes hbytes
    obtain ⟨target, -, rfl⟩ := List.mem_map.mp hbytes
    rfl
  constructor
  · exact h.chunks
  · constructor
    · have hlength : targets.length ≤
          operator.options.outputBatchSize - consumer.call.output.length := List.length_take_le _ _
      refine (List.length_append.trans ?_).le.trans
        (Nat.add_le_of_le_sub' hcount.le hlength)
      rw [List.length_map]
    · exact .inr (hsum.le.trans (Nat.zero_le _))
  · exact (h.outputBytes.trans (h.imageless (.inr hdecode))).trans hsum.symm
  · exact fun _ => hsum
  · exact h.decoded
  · exact h.emitted
  · intro hfinished
    unfold FramesOperator.writeRound at hfinished
    dsimp only at hfinished
    split at hfinished
    · cases hfinished
    · cases hfinished

/-- A frame whose pixels fit. -/
theorem Batched.wroteDecoded (h : operator.Batched consumer) {decoded : DecodedVideoFrame}
    (hdecode : operator.needsDecode = true) (hcontrol : consumer.control = .producing)
    (hdecoded : consumer.state.decoded = some decoded)
    (hcount : consumer.call.output.length < operator.options.outputBatchSize)
    (hfits : consumer.call.output ≠ [] →
      pixelBytes decoded ≤ operator.options.maxOutputBytes -
        min consumer.call.outputBytes operator.options.maxOutputBytes)
    (target : LerobotDecodeTarget) :
    operator.Batched { consumer with
      state := { consumer.state with decoded := none }
      call := ⟨consumer.call.output ++ [operator.outputRow target (some decoded)],
        consumer.call.outputBytes + pixelBytes decoded⟩ } := by
  have hsound := h.decoded decoded hdecoded
  have hsum : ((consumer.call.output ++ [operator.outputRow target (some decoded)]).map
      imageBytes).sum = (consumer.call.output.map imageBytes).sum + pixelBytes decoded := by
    rw [List.map_append, List.sum_append]
    rfl
  have hempty (hpixels : operator.columns.needsPixels = false) : pixelBytes decoded = 0 := by
    rw [DecodedVideoFrame.PixelsSound, hpixels] at hsound
    rw [pixelBytes, show decoded.pixels = none from hsound]
    rfl
  constructor
  · exact h.chunks
  · constructor
    · rw [List.length_append, List.length_singleton]
      exact hcount
    · dsimp only
      rw [hsum, ← h.outputBytes]
      by_cases houtput : consumer.call.output = []
      · left
        rw [houtput]
        rfl
      · right
        have hle := hfits houtput
        cases hpixels : operator.columns.needsPixels with
        | false =>
            rw [hempty hpixels, h.outputBytes, h.imageless (.inl hpixels)]
            exact Nat.zero_le _
        | true =>
            -- The frame has pixels, so the limit was not reached before it.
            rw [DecodedVideoFrame.PixelsSound, hpixels] at hsound
            obtain ⟨pixels, hsome, hne⟩ := hsound
            have hpositive : 0 < pixelBytes decoded := by
              rw [pixelBytes, hsome]
              exact List.length_pos_iff.mpr hne
            omega
  · dsimp only
    rw [hsum, h.outputBytes]
  · rintro (hpixels | hdecode')
    · dsimp only
      rw [hsum, h.imageless (.inl hpixels), hempty hpixels]
    · cases hdecode.symm.trans hdecode'
  · exact fun decoded hnone => by cases hnone
  · exact h.emitted
  · exact fun hfinished => by cases hcontrol.symm.trans hfinished

/-- The answer of `ClaimBuffer`. -/
theorem Batched.claimRound (h : operator.Batched consumer) (hcontrol : consumer.control = .producing)
    (answer : Except ε (LerobotBufferClaimResult LerobotDecodeTarget)) :
    operator.Batched (operator.claimRound answer consumer) := by
  unfold FramesOperator.claimRound
  split
  · exact h.keep rfl rfl rfl h.decoded (fun hfinished => by cases hfinished)
  · exact h.endsChunk (endProduce_spec operator .blocked consumer)
  · exact h.endsChunk (endProduce_spec operator .finished consumer)
  · dsimp only
    split
    · exact h.keep rfl rfl rfl (fun _ hnone => by cases hnone)
        (fun hfinished => by cases hcontrol.symm.trans hfinished)
    · split
      · exact h.keep rfl rfl rfl (fun _ hnone => by cases hnone) (fun hfinished => by cases hfinished)
      · exact h.keep rfl rfl rfl (fun _ hnone => by cases hnone) (fun hfinished => by cases hfinished)

/-- **A step keeps the chunks within the limits, and filters them.** -/
theorem Batched.step (h : operator.Batched consumer) (hready : operator.ConsumerReady consumer)
    (hcase : operator.ConsumerCase queue consumer queue' consumer') : operator.Batched consumer' := by
  cases hcase with
  | call hcontrol => exact h.keep rfl rfl rfl h.decoded (fun hfinished => by cases hfinished)
  | leave hcontrol houtput => exact h.endsChunk (endProduce_spec operator .haveOutput consumer)
  | claim alive hcontrol hbuffer => exact h.claimRound hcontrol _
  | prepare hcontrol hbuffer hused hshard hbegin =>
      exact h.keep rfl rfl rfl h.decoded (fun hfinished => by cases hfinished)
  | raise e hcontrol hbuffer =>
      exact h.keep rfl rfl rfl h.decoded (fun hfinished => by cases hfinished)
  | write hcontrol hbuffer hdecode hcount => exact h.writeRound hdecode hcount
  | @decode buffer decoder decoder' decoded hcontrol hbuffer hdecode hdecoded hdecoder hnext =>
      obtain ⟨⟨decoder'', hdecoder'', hused⟩, -⟩ :=
        hready.serving buffer hbuffer (hcontrol ▸ trivial) hdecode
      obtain rfl : decoder = decoder'' := Option.some.inj (hdecoder.symm.trans hdecoder'')
      refine h.keep rfl rfl rfl ?_ (fun hfinished => by cases hcontrol.symm.trans hfinished)
      intro decoded' heq
      cases heq
      exact hused.next_pixels operator.convert_ne_nil hnext
  | exhaust hcontrol hbuffer hdecode hdecoded hdecoder hnext =>
      exact h.keep rfl rfl rfl h.decoded (fun hfinished => by cases hfinished)
  | writeDecoded hcontrol hbuffer hdecode hdecoded hcount hfits htarget =>
      exact h.wroteDecoded hdecode hcontrol hdecoded hcount hfits _
  | @release buffer exception hcontrol hbuffer =>
      refine h.keep rfl rfl rfl h.decoded ?_
      cases exception with
      | none => exact fun hfinished => by cases hfinished
      | some e => exact fun hfinished => by cases hfinished
  | resume hcontrol => exact h.keep rfl rfl rfl h.decoded (fun hfinished => by cases hfinished)
  | interrupt alive hcontrol =>
      split
      · exact h.keep rfl rfl rfl h.decoded (fun hfinished => by cases hfinished)
      · exact h

end Batched

/-! ## Runs -/

/-- **What a consumer has produced**, at any time. Where no exception was thrown: -/
structure OutputDelivered (consumer : FramesConsumer ψ φ ε) : Prop where
  /-- The rows are those of the buffers, the last of which may be at hand. -/
  serves : operator.Delivers consumer
  /-- Every target of these buffers has one row at most, in order. -/
  targets : ¬consumer.control.Failed →
    (consumer.chunks.flatten ++ consumer.call.output).map OutputRow.target <+:
      consumer.claimed.flatMap LerobotDecodeBuffer.targets
  /-- Without a buffer at hand, it has one row exactly. -/
  complete : ¬consumer.control.Failed → consumer.state.buffer = none →
    (consumer.chunks.flatten ++ consumer.call.output).map OutputRow.target =
      consumer.claimed.flatMap LerobotDecodeBuffer.targets
  fits : ∀ rows ∈ consumer.chunks, operator.ChunkFits rows
  filtered : consumer.emitted.flatten = consumer.chunks.flatten.filter operator.passes
  /-- At the end, all rows of all buffers are in the chunks. -/
  finished : consumer.control = .finished → ∃ served,
    List.Forall₂ operator.Emits consumer.claimed served ∧ consumer.chunks.flatten = served.flatten

section Runs

variable {operator} {s t : FramesState ψ φ ε}

theorem batched_delivers (hs : (operator.system ε).Reachable s) :
    ∀ index, operator.Delivers (s.consumers index) ∧ operator.Batched (s.consumers index) := by
  induction hs with
  | init => exact fun _ => ⟨delivers_init, batched_init⟩
  | @step s t label hs hstep h =>
      have hready := scanReady hs
      cases label with
      | environment operation =>
          obtain ⟨-, hmap⟩ := Option.ite_none_right_eq_some.mp hstep
          obtain ⟨queue, -, rfl⟩ := Option.map_eq_some_iff.mp hmap
          exact h
      | consumer index action =>
          obtain ⟨⟨queue, consumer⟩, hconsumer, rfl⟩ := Option.map_eq_some_iff.mp hstep
          have hcase := consumerStep_case hconsumer
          refine forall_update (P := fun _ consumer => operator.Delivers consumer ∧
            operator.Batched consumer) h ?_
          constructor
          · exact (h index).1.step (hready.consumers index) hcase
          · exact (h index).2.step (hready.consumers index) hcase

/-- A consumer without a buffer has written a row for every target. -/
theorem Delivers.complete {consumer : FramesConsumer ψ φ ε} (h : operator.Delivers consumer)
    (hfailed : ¬consumer.control.Failed) (hbuffer : consumer.state.buffer = none) :
    (consumer.chunks.flatten ++ consumer.call.output).map OutputRow.target =
      consumer.claimed.flatMap LerobotDecodeBuffer.targets := by
  obtain ⟨finished, served, current, hserved⟩ := h hfailed
  obtain ⟨hemits, hrows⟩ := hserved.of_no_buffer hbuffer
  rw [hrows, emits_targets hemits]

theorem outputDelivered (hs : (operator.system ε).Reachable s) (index : Nat) :
    operator.OutputDelivered (s.consumers index) := by
  obtain ⟨hdelivers, hbatched⟩ := batched_delivers hs index
  have hready := (scanReady hs).consumers index
  constructor
  · exact hdelivers
  · intro hfailed
    obtain ⟨finished, served, current, hserved⟩ := hdelivers hfailed
    exact hserved.targets
  · exact fun hfailed hbuffer => hdelivers.complete hfailed hbuffer
  · exact hbatched.chunks
  · exact hbatched.emitted
  · intro hfinished
    obtain ⟨finished, served, current, hserved⟩ := hdelivers (by rw [hfinished]; exact id)
    obtain ⟨hemits, hrows⟩ := hserved.of_no_buffer (hready.mayHold (by rw [hfinished]; exact id))
    rw [hbatched.ended hfinished, List.append_nil] at hrows
    exact ⟨served, hemits, hrows⟩

/-- A claim that ends the consumer. -/
theorem claimRound_finished {consumer : FramesConsumer ψ φ ε}
    {answer : Except ε (LerobotBufferClaimResult LerobotDecodeTarget)}
    (hcontrol : consumer.control = .producing)
    (h : (operator.claimRound answer consumer).control = .finished) :
    answer = .ok .finished ∧ consumer.call.output = [] := by
  have hends {result : LerobotVideoProduceResult}
      (h : (operator.endProduce result consumer).control = .finished) :
      consumer.call.output = [] ∧ result = .finished := by
    rcases (endProduce_spec operator result consumer).control with hreturned | hproducing |
      ⟨hempty, ⟨hresult, -⟩ | ⟨-, hwaiting⟩⟩
    · cases h.symm.trans hreturned
    · cases h.symm.trans hproducing
    · exact ⟨hempty, hresult⟩
    · cases h.symm.trans hwaiting
  unfold FramesOperator.claimRound at h
  split at h
  · cases h
  · cases (hends h).2
  · exact ⟨rfl, (hends h).1⟩
  · dsimp only at h
    split at h
    · cases hcontrol.symm.trans h
    · split at h
      · cases h
      · cases h

/-- A step that ends a consumer finds nothing that it could claim. -/
theorem nothing_left (hs : (operator.system ε).Reachable s) {label : FramesLabel operator ε}
    (hstep : operator.step s label = some t) {index : Nat}
    (hfinished : (t.consumers index).control = .finished)
    (hrunning : (s.consumers index).control ≠ .finished) :
    (s.queue.queue.sourceExhausted || s.queue.queue.stopRequested) = true ∧
      ∀ buffer ∈ s.queue.queue.readyBuffers, ∃ other, other ≠ index ∧
        (s.consumers other).heldShard = some buffer.shardIndex := by
  have hready := scanReady hs
  cases label with
  | environment operation =>
      obtain ⟨-, hmap⟩ := Option.ite_none_right_eq_some.mp hstep
      obtain ⟨queue, -, rfl⟩ := Option.map_eq_some_iff.mp hmap
      exact absurd hfinished hrunning
  | consumer index' action =>
      obtain ⟨⟨queue, consumer⟩, hconsumer, rfl⟩ := Option.map_eq_some_iff.mp hstep
      dsimp only at hfinished
      obtain rfl : index = index' := by
        by_contra hne
        rw [Function.update_of_ne hne] at hfinished
        exact hrunning hfinished
      rw [Function.update_self] at hfinished
      cases consumerStep_case hconsumer with
      | claim alive hcontrol hbuffer =>
          obtain ⟨hanswer, -⟩ := claimRound_finished hcontrol hfinished
          rcases LerobotVideoProducerState.claimBuffer_cases (queueInvariant hready.queue).queue
              alive with ⟨_, -, heq⟩ | ⟨_, _, _, _, -, -, -, -, -, -, -, -, heq⟩ |
              ⟨-, hbusy, hend, -⟩ | ⟨-, -, -, heq⟩
          · rw [heq] at hanswer
            cases hanswer
          · rw [heq] at hanswer
            cases hanswer
          · refine ⟨hend, ?_⟩
            intro buffer hmem
            obtain ⟨other, hheld⟩ := (hready.owned.inUse _).mp (hbusy buffer hmem)
            refine ⟨other, ?_, hheld⟩
            rintro rfl
            rw [FramesConsumer.heldShard, hbuffer] at hheld
            cases hheld
          · rw [heq] at hanswer
            cases hanswer
      | call hcontrol => cases hfinished
      | leave hcontrol houtput =>
          rcases (endProduce_spec operator .haveOutput (s.consumers index)).control with hreturned |
            hproducing | ⟨hempty, -⟩
          · cases hfinished.symm.trans hreturned
          · cases hfinished.symm.trans hproducing
          · exact absurd hempty houtput
      | prepare hcontrol hbuffer hused hshard hbegin => cases hfinished
      | raise e hcontrol hbuffer => cases hfinished
      | write hcontrol hbuffer hdecode hcount =>
          unfold FramesOperator.writeRound at hfinished
          dsimp only at hfinished
          split at hfinished
          · cases hfinished
          · cases hfinished
      | decode hcontrol hbuffer hdecode hdecoded hdecoder hnext => exact absurd hfinished hrunning
      | exhaust hcontrol hbuffer hdecode hdecoded hdecoder hnext => cases hfinished
      | writeDecoded hcontrol hbuffer hdecode hdecoded hcount hfits htarget =>
          exact absurd hfinished hrunning
      | @release buffer exception hcontrol hbuffer =>
          cases exception with
          | none => cases hfinished
          | some e => cases hfinished
      | resume hcontrol => cases hfinished
      | interrupt alive hcontrol =>
          split at hfinished
          · cases hfinished
          · exact absurd hfinished hrunning

/-- **Batching loses and repeats nothing, and respects its limits.** In every state of a scan: the rows
of a consumer are those of the targets of its buffers, in order, each with the frame decoded for it;
the chunks are within the limits; the output is the rows that pass the filters; and a consumer ends
only when all rows of its buffers are out, and what is left is with another consumer. -/
theorem output_batches (hs : (operator.system ε).Reachable s) (index : Nat) :
    operator.OutputDelivered (s.consumers index) ∧
      ∀ label t, operator.step s label = some t → (t.consumers index).control = .finished →
        (s.consumers index).control ≠ .finished →
          (s.queue.queue.sourceExhausted || s.queue.queue.stopRequested) = true ∧
            ∀ buffer ∈ s.queue.queue.readyBuffers, ∃ other, other ≠ index ∧
              (s.consumers other).heldShard = some buffer.shardIndex := by
  constructor
  · exact outputDelivered hs index
  · exact fun label t hstep hfinished hrunning => nothing_left hs hstep hfinished hrunning

end Runs

end FramesOperator

/-- The rows of the second episode, one in each chunk. -/
def filteredScan : FramesOperator Unit Unit :=
  let filter : VideoFilter := ⟨1, fun value => some (value == some (.bigint 1))⟩
  { twoShardsScan with
    options := { twoShardsScan.options with outputBatchSize := 1 }
    columns := .frames [.frameIndex, .episodeIndex]
    filters := [filter]
    filterExpression := some (.single filter)
    haveFfmpeg := false
    outputBatchSize_pos := Nat.one_pos
    filterExpression_eq := rfl }

/-- A consumer goes on. -/
def proceedFiltered : FramesLabel filteredScan Unit :=
  .consumer 0 (.proceed ⟨fun _ => true, .error "broken", none⟩)

/-- A consumer writes the rows of both buffers, and then finds the queue empty. -/
def filteredSchedule : List (FramesLabel filteredScan Unit) :=
  [.environment (.queueTargets [shardTarget 0, shardTarget 1] 0 0),
    .environment (.producerFinished false []), .consumer 0 .call] ++
  List.replicate 8 proceedFiltered ++ [.consumer 0 .call, proceedFiltered]

/-- The row of the first episode is filtered away. -/
theorem filteredScan_batches : ∃ s, (filteredScan.system Unit).Reachable s ∧
    ((s.consumers 0).emitted.map fun rows => rows.map fun row => row.target.episodeIndex) = [[1]] ∧
    filteredScan.OutputDelivered (s.consumers 0) := by
  obtain ⟨s, hs, htest⟩ := (filteredScan.system Unit).exists_reachable_of_replay filteredSchedule
    (fun s => decide (((s.consumers 0).emitted.map fun rows => rows.map fun row =>
      row.target.episodeIndex) = [[1]])) (by decide +kernel)
  exact ⟨s, hs, of_decide_eq_true htest, (FramesOperator.output_batches hs 0).1⟩

end DuckdbLerobot.Video
