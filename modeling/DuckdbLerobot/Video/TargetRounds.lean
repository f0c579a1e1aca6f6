import DuckdbLerobot.Video.TargetsOperator

/-!
# What a round of a call does

`callRound_cases` says what a round of the loop of `LerobotVideoTargetsFunction` can do with the
targets of the worker: write some of them (`Moves`), build the next batch, end the call, or throw.
The later modules use this case distinction only.
-/

set_option autoImplicit false

namespace DuckdbLerobot.Video

open DuckdbLerobot.Library DuckdbLerobot.Path DuckdbLerobot.Storage

variable {ψ φ : Type}

namespace LerobotVideoTargetsLocalState

/-- The targets of a buffer that are still to be written when frames are decoded, by index: that of the
decoded frame, and those that the decoder still has to serve. -/
def remainingIndexes (state : LerobotVideoTargetsLocalState ψ φ)
    (buffer : LerobotDecodeBuffer LerobotDecodeTarget) : List Nat :=
  (state.decoded.map DecodedVideoFrame.targetIndex).toList ++
    state.decoder.elim [] fun decoder => decoder.remaining buffer

end LerobotVideoTargetsLocalState

namespace TargetsOperator

variable (operator : TargetsOperator ψ φ)

/-- The targets of the current buffer that are still to be written. -/
def currentTargets (state : LerobotVideoTargetsLocalState ψ φ) : List LerobotDecodeTarget :=
  match state.buffer with
  | none => []
  | some buffer =>
      if operator.needsDecode = false then buffer.targets.drop state.targetPosition
      else (state.remainingIndexes buffer).filterMap (buffer.targets[·]?)

/-- The targets that are still to be written. -/
def pending (state : LerobotVideoTargetsLocalState ψ φ) : List LerobotDecodeTarget :=
  operator.currentTargets state ++ state.buffers.flatMap LerobotDecodeBuffer.targets

/-- The rounds that the current buffer needs at most. -/
def currentWork (state : LerobotVideoTargetsLocalState ψ φ) : Nat :=
  match state.buffer with
  | none => 0
  | some buffer =>
      if operator.needsDecode = false then 1 + (buffer.targets.length - state.targetPosition)
      else 1 + state.decoded.elim 0 (fun _ => 1) +
        2 * state.decoder.elim 0 fun decoder => (decoder.remaining buffer).length

/-- The buffers of a state can be served, and the current one has a decoder if it needs one. -/
structure StateReady (state : LerobotVideoTargetsLocalState ψ φ) : Prop where
  ready : ∀ buffer ∈ state.buffers, BufferReady state.routes buffer
  current : ∀ buffer, state.buffer = some buffer → operator.needsDecode = true →
    state.decoder.isSome ∧ ∀ index ∈ state.remainingIndexes buffer, index < buffer.targets.length

/-- What a round does that writes rows, or that goes on to the next buffer or frame. -/
structure Moves (state state' : LerobotVideoTargetsLocalState ψ φ) (written : List OutputRow) :
    Prop where
  routes : state'.routes = state.routes
  inputInitialized : state'.inputInitialized = state.inputInitialized
  inputPosition : state'.inputPosition = state.inputPosition
  ready : operator.StateReady state'
  pending : operator.pending state = written.map OutputRow.target ++ operator.pending state'
  written : ∀ row ∈ written, row.route = state.routes.getD row.target.routeIndex default
  work : state'.buffers.length < state.buffers.length ∨
    state'.buffers = state.buffers ∧ operator.currentWork state' < operator.currentWork state

/-- The cases of a round. -/
inductive RoundCase (rows : List InputRow) (nextOrdinal : Nat)
    (state : LerobotVideoTargetsLocalState ψ φ) (call : TargetsCall) : Nat → CallRound ψ φ → Prop
  | leave (h : call.output ≠ [] ∨
      state.buffer = none ∧ state.buffers = [] ∧ rows.length ≤ state.inputPosition) :
      RoundCase rows nextOrdinal state call nextOrdinal .leave
  | move {state' : LerobotVideoTargetsLocalState ψ φ} {written : List OutputRow} {bytes : Nat}
      (h : operator.Moves state state' written) :
      RoundCase rows nextOrdinal state call nextOrdinal (.again state' ⟨call.output ++ written, bytes⟩)
  | decodeError {e : DecodeException} (hdecode : operator.needsDecode = true) (h : e.Expected) :
      RoundCase rows nextOrdinal state call nextOrdinal (.thrown (.decode e))
  | build {routes : List LerobotVideoRoute} {buffers : List (LerobotDecodeBuffer LerobotDecodeTarget)}
      (hbuffer : state.buffer = none) (hbuffers : state.buffers = [])
      (hrows : state.inputPosition < rows.length)
      (h : BuiltFrom operator nextOrdinal (operator.nextBatch rows state) routes buffers) :
      RoundCase rows nextOrdinal state call
        ((nextOrdinal + (operator.nextBatch rows state).length) % 2 ^ 64)
        (.again { state with
          inputPosition := state.inputPosition + (operator.nextBatch rows state).length
          routes := routes
          buffers := buffers } call)
  | buildError {choices : BatchChoices operator.frames} {e : TargetsException}
      (hrows : state.inputPosition < rows.length)
      (h : operator.buildTargetBuffers choices nextOrdinal (operator.nextBatch rows state) =
        .error e) :
      RoundCase rows nextOrdinal state call
        ((nextOrdinal + (operator.nextBatch rows state).length) % 2 ^ 64) (.thrown e)

section Rounds

variable {operator} {state : LerobotVideoTargetsLocalState ψ φ} {call : TargetsCall}

/-- The targets at all indexes. -/
theorem filterMap_range_getElem {α : Type} (l : List α) :
    (List.range l.length).filterMap (l[·]?) = l := by
  induction l with
  | nil => rfl
  | cons a l ih =>
      rw [List.length_cons, List.range_succ_eq_map, List.filterMap_cons_some (by rfl),
        List.filterMap_map]
      congr 1

/-- A round that writes nothing. -/
theorem RoundCase.skip {rows : List InputRow} {nextOrdinal : Nat}
    {state' : LerobotVideoTargetsLocalState ψ φ} (h : operator.Moves state state' []) :
    operator.RoundCase rows nextOrdinal state call nextOrdinal (.again state' call) := by
  have hmove : operator.RoundCase rows nextOrdinal state call nextOrdinal
      (.again state' ⟨call.output ++ [], call.outputBytes⟩) := .move h
  rwa [List.append_nil] at hmove

theorem no_written : ∀ row ∈ ([] : List OutputRow),
    row.route = state.routes.getD row.target.routeIndex default := by
  intro row hrow
  cases hrow

/-! ## Without decoding -/

theorem currentTargets_write {buffer : LerobotDecodeBuffer LerobotDecodeTarget}
    (hdecode : operator.needsDecode = false) (hbuffer : state.buffer = some buffer) :
    operator.currentTargets state = buffer.targets.drop state.targetPosition := by
  rw [currentTargets, hbuffer]
  exact if_pos hdecode

theorem currentWork_write {buffer : LerobotDecodeBuffer LerobotDecodeTarget}
    (hdecode : operator.needsDecode = false) (hbuffer : state.buffer = some buffer) :
    operator.currentWork state = 1 + (buffer.targets.length - state.targetPosition) := by
  rw [currentWork, hbuffer]
  exact if_pos hdecode

theorem writeRound_case {buffer : LerobotDecodeBuffer LerobotDecodeTarget}
    (hready : operator.StateReady state) (hdecode : operator.needsDecode = false)
    (hbuffer : state.buffer = some buffer)
    (hcount : call.output.length < operator.data.options.outputBatchSize)
    (rows : List InputRow) (nextOrdinal : Nat) :
    operator.RoundCase rows nextOrdinal state call nextOrdinal
      (operator.writeRound buffer state call) := by
  have hlength : ((buffer.targets.drop state.targetPosition).take
      (operator.data.options.outputBatchSize - call.output.length)).length =
      min (operator.data.options.outputBatchSize - call.output.length)
        (buffer.targets.length - state.targetPosition) := by
    rw [List.length_take, List.length_drop]
  have hsplit := List.take_append_drop (operator.data.options.outputBatchSize - call.output.length)
    (buffer.targets.drop state.targetPosition)
  unfold writeRound
  dsimp only
  generalize htaken : (buffer.targets.drop state.targetPosition).take
    (operator.data.options.outputBatchSize - call.output.length) = taken at hlength hsplit
  have hrest : buffer.targets.drop state.targetPosition =
      taken ++ buffer.targets.drop (state.targetPosition + taken.length) := by
    rw [← List.drop_drop, ← hsplit, List.drop_left]
  apply RoundCase.move
  refine
    { routes := rfl
      inputInitialized := rfl
      inputPosition := rfl
      ready := ⟨hready.ready, ?_⟩
      pending := ?_
      written := ?_
      work := .inr ⟨rfl, ?_⟩ }
  · intro buffer' _ htrue
    rw [hdecode] at htrue
    cases htrue
  · rw [pending, currentTargets_write hdecode hbuffer, hrest, List.map_map, List.append_assoc,
      pending]
    have hmap : List.map (OutputRow.target ∘ fun target => state.outputRow target none) taken = taken :=
      List.map_id taken
    rw [hmap]
    congr 2
    unfold currentTargets
    dsimp only
    split
    · rename_i hnone
      exact List.drop_eq_nil_of_le (by simpa using hnone)
    · rename_i buffer' hsome
      obtain ⟨-, rfl⟩ : _ ∧ buffer = buffer' := by simpa using hsome
      rw [if_pos hdecode]
  · intro row hrow
    obtain ⟨target, -, rfl⟩ := List.mem_map.mp hrow
    rfl
  · -- either rows are written, or the buffer is done
    rw [currentWork_write hdecode hbuffer, currentWork]
    dsimp only
    split
    · omega
    · rename_i buffer' hsome
      obtain ⟨hmore, rfl⟩ : _ ∧ buffer = buffer' := by simpa using hsome
      rw [if_pos hdecode]
      omega

/-! ## With decoding -/

theorem currentTargets_decode {buffer : LerobotDecodeBuffer LerobotDecodeTarget}
    (hdecode : operator.needsDecode = true) (hbuffer : state.buffer = some buffer) :
    operator.currentTargets state = (state.remainingIndexes buffer).filterMap (buffer.targets[·]?) := by
  rw [currentTargets, hbuffer]
  exact if_neg (by simp [hdecode])

theorem currentWork_decode {buffer : LerobotDecodeBuffer LerobotDecodeTarget}
    (hdecode : operator.needsDecode = true) (hbuffer : state.buffer = some buffer) :
    operator.currentWork state = 1 + state.decoded.elim 0 (fun _ => 1) +
      2 * state.decoder.elim 0 fun decoder => (decoder.remaining buffer).length := by
  rw [currentWork, hbuffer]
  exact if_neg (by simp [hdecode])

theorem writeDecodedRound_case {buffer : LerobotDecodeBuffer LerobotDecodeTarget}
    {decoded : DecodedVideoFrame} (hready : operator.StateReady state)
    (hdecode : operator.needsDecode = true) (hbuffer : state.buffer = some buffer)
    (hdecoded : state.decoded = some decoded) (rows : List InputRow) (nextOrdinal : Nat)
    (call : TargetsCall) :
    ∃ result, operator.writeDecodedRound buffer decoded state call = some result ∧
      operator.RoundCase rows nextOrdinal state call nextOrdinal result := by
  have hindexes : state.remainingIndexes buffer = decoded.targetIndex ::
      state.decoder.elim [] fun decoder => decoder.remaining buffer := by
    rw [LerobotVideoTargetsLocalState.remainingIndexes, hdecoded]
    rfl
  obtain ⟨hdecoder, hbound⟩ := hready.current buffer hbuffer hdecode
  rw [hindexes] at hbound
  obtain ⟨target, htarget⟩ : ∃ target, buffer.targets[decoded.targetIndex]? = some target :=
    ⟨_, List.getElem?_eq_getElem (hbound _ List.mem_cons_self)⟩
  unfold writeDecodedRound
  dsimp only
  split
  · rename_i hfull
    exact ⟨.leave, rfl, .leave (.inl (List.ne_nil_of_length_pos hfull.1))⟩
  · rw [htarget]
    refine ⟨_, rfl, .move ?_⟩
    refine
      { routes := rfl
        inputInitialized := rfl
        inputPosition := rfl
        ready := ⟨hready.ready, ?_⟩
        pending := ?_
        written := ?_
        work := .inr ⟨rfl, ?_⟩ }
    · intro buffer' hbuffer' _
      obtain rfl : buffer = buffer' := Option.some.inj (hbuffer.symm.trans hbuffer')
      exact ⟨hdecoder, fun index hindex => hbound index (List.mem_cons_of_mem _ hindex)⟩
    · have hafter : operator.currentTargets { state with decoded := none } =
          (state.decoder.elim [] fun decoder => decoder.remaining buffer).filterMap
            (buffer.targets[·]?) :=
        currentTargets_decode hdecode hbuffer
      rw [pending, currentTargets_decode hdecode hbuffer, hindexes,
        List.filterMap_cons_some htarget, pending, hafter]
      rfl
    · intro row hrow
      obtain rfl := List.mem_singleton.mp hrow
      rfl
    · have hafter : operator.currentWork { state with decoded := none } =
          1 + 0 + 2 * state.decoder.elim 0 fun decoder => (decoder.remaining buffer).length :=
        currentWork_decode hdecode hbuffer
      rw [hafter, currentWork_decode hdecode hbuffer, hdecoded]
      dsimp only [Option.elim]
      omega

theorem decodeRound_case {buffer : LerobotDecodeBuffer LerobotDecodeTarget}
    (hready : operator.StateReady state) (hdecode : operator.needsDecode = true)
    (hbuffer : state.buffer = some buffer) (hdecoded : state.decoded = none)
    (rows : List InputRow) (nextOrdinal : Nat) (call : TargetsCall) :
    ∃ result, operator.decodeRound buffer state call = some result ∧
      operator.RoundCase rows nextOrdinal state call nextOrdinal result := by
  obtain ⟨hsome, hbound⟩ := hready.current buffer hbuffer hdecode
  obtain ⟨decoder, hdecoder⟩ := Option.isSome_iff_exists.mp hsome
  have hindexes : state.remainingIndexes buffer = decoder.remaining buffer := by
    rw [LerobotVideoTargetsLocalState.remainingIndexes, hdecoded, hdecoder]
    rfl
  rw [hindexes] at hbound
  rw [decodeRound, hdecoder]
  dsimp only
  cases hnext : decoder.next operator.media buffer with
  | error e =>
      exact ⟨_, rfl, .decodeError hdecode (LerobotShardDecoder.next_error hnext)⟩
  | ok served =>
      obtain ⟨served, decoder'⟩ := served
      have hkeeps := LerobotShardDecoder.next_keeps hnext
      cases served with
      | none =>
          -- the last target of the buffer is served
          have hlast : decoder.remaining buffer = [] := hkeeps.1
          refine ⟨_, rfl, ?_⟩
          refine .skip
            { routes := rfl
              inputInitialized := rfl
              inputPosition := rfl
              ready := ⟨hready.ready, fun _ hnone => by cases hnone⟩
              pending := ?_
              written := no_written
              work := .inr ⟨rfl, ?_⟩ }
          · rw [pending, currentTargets_decode hdecode hbuffer, hindexes, hlast]
            rfl
          · rw [currentWork_decode hdecode hbuffer]
            exact Nat.lt_of_lt_of_le Nat.one_pos (by omega)
      | some decoded =>
          have hserved : decoder.remaining buffer = decoded.targetIndex :: decoder'.remaining buffer :=
            hkeeps.1
          refine ⟨_, rfl, ?_⟩
          refine .skip
            { routes := rfl
              inputInitialized := rfl
              inputPosition := rfl
              ready := ⟨hready.ready, ?_⟩
              pending := ?_
              written := no_written
              work := .inr ⟨rfl, ?_⟩ }
          · intro buffer' hbuffer' _
            obtain rfl : buffer = buffer' := Option.some.inj (hbuffer.symm.trans hbuffer')
            rw [hserved] at hbound
            exact ⟨rfl, hbound⟩
          · have hafter : operator.currentTargets
                { state with decoder := some decoder', decoded := some decoded } =
                  (decoded.targetIndex :: decoder'.remaining buffer).filterMap (buffer.targets[·]?) :=
              currentTargets_decode hdecode hbuffer
            rw [pending, currentTargets_decode hdecode hbuffer, hindexes, hserved, pending, hafter]
            rfl
          · have hafter : operator.currentWork
                { state with decoder := some decoder', decoded := some decoded } =
                  1 + 1 + 2 * (decoder'.remaining buffer).length :=
              currentWork_decode hdecode hbuffer
            rw [hafter, currentWork_decode hdecode hbuffer, hdecoded, hdecoder]
            dsimp only [Option.elim]
            rw [hserved, List.length_cons]
            omega

/-! ## The next buffer -/

theorem takeRound_case {acquired : Except String (LerobotShardDecoder ψ φ)}
    {buffer : LerobotDecodeBuffer LerobotDecodeTarget}
    {buffers : List (LerobotDecodeBuffer LerobotDecodeTarget)} (hready : operator.StateReady state)
    (hbuffer : state.buffer = none) (hbuffers : state.buffers = buffer :: buffers)
    (rows : List InputRow) (nextOrdinal : Nat) {result : CallRound ψ φ}
    (h : operator.takeRound acquired buffer buffers state call = some result) :
    operator.RoundCase rows nextOrdinal state call nextOrdinal result := by
  have hrest : ∀ buffer' ∈ buffers, BufferReady state.routes buffer' := by
    intro buffer' hmem
    exact hready.ready buffer' (hbuffers ▸ List.mem_cons_of_mem _ hmem)
  have hfirst : BufferReady state.routes buffer :=
    hready.ready buffer (hbuffers ▸ List.mem_cons_self)
  have hpending : operator.pending state =
      buffer.targets ++ buffers.flatMap LerobotDecodeBuffer.targets := by
    rw [pending, currentTargets, hbuffer, hbuffers]
    rfl
  have hshorter : buffers.length < state.buffers.length := by
    rw [hbuffers]
    exact Nat.lt_succ_self _
  unfold takeRound at h
  dsimp only at h
  split at h
  · rename_i hdecode
    cases h
    refine .skip
      { routes := rfl
        inputInitialized := rfl
        inputPosition := rfl
        ready := ⟨hrest, ?_⟩
        pending := ?_
        written := no_written
        work := .inl hshorter }
    · intro buffer' _ htrue
      rw [hdecode] at htrue
      cases htrue
    · have hafter : operator.currentTargets { state with
          buffer := some buffer, buffers := buffers, targetPosition := 0, decoded := none } =
            buffer.targets.drop 0 :=
        currentTargets_write hdecode rfl
      rw [hpending, pending, hafter]
      rfl
  · rename_i hdecode
    rw [Bool.not_eq_false] at hdecode
    split at h
    · cases h
    · cases h
      exact .decodeError hdecode fun message hinternal => by cases hinternal
    · rename_i route decoder hroute
      obtain ⟨target, hhead, hroute⟩ := Option.bind_eq_some_iff.mp hroute
      obtain ⟨route', hroute', hshard⟩ := hfirst.shard target (List.mem_of_mem_head? hhead)
      obtain rfl : route = route' := Option.some.inj (hroute.symm.trans hroute')
      split at h
      · cases h
      · rename_i hfits
        rw [ne_eq, not_not] at hfits
        have hclusters : buffer.clusters ≠ [] := by
          intro hnil
          have hflat := hfirst.clusters
          rw [hnil, List.flatten_nil, eq_comm, List.range_eq_nil, List.length_eq_zero_iff] at hflat
          exact hfirst.targets hflat
        have hbegin : Yields _ _ (decoder.beginBuffer operator.media buffer) :=
          LerobotShardDecoder.beginBuffer_spec (hshard.symm.trans hfits.symm) hfirst.targets hclusters
        split at h
        · rename_i e hthrown
          cases h
          rw [hthrown] at hbegin
          exact .decodeError hdecode hbegin
        · rename_i decoder' hbegun
          cases h
          rw [hbegun] at hbegin
          obtain ⟨hremaining, -⟩ := hbegin
          rw [hfirst.clusters] at hremaining
          refine .skip
            { routes := rfl
              inputInitialized := rfl
              inputPosition := rfl
              ready := ⟨hrest, ?_⟩
              pending := ?_
              written := no_written
              work := .inl hshorter }
          · rintro buffer' hbuffer' -
            obtain rfl : buffer = buffer' := Option.some.inj hbuffer'
            refine ⟨rfl, ?_⟩
            intro index hindex
            have hmem : index ∈ decoder'.remaining buffer := hindex
            rw [hremaining] at hmem
            exact List.mem_range.mp hmem
          · have hafter : operator.currentTargets { state with
                buffer := some buffer, buffers := buffers, targetPosition := 0,
                decoder := some decoder', decoded := none } =
                  (decoder'.remaining buffer).filterMap (buffer.targets[·]?) :=
              currentTargets_decode hdecode rfl
            rw [hpending, pending, hafter, hremaining, filterMap_range_getElem]
            rfl

/-! ## A round -/

theorem buildRound_case (choices : BatchChoices operator.frames) (hbuffer : state.buffer = none)
    (hbuffers : state.buffers = []) {rows : List InputRow} (hrows : state.inputPosition < rows.length)
    (nextOrdinal : Nat) (call : TargetsCall) :
    operator.RoundCase rows nextOrdinal state call
      (operator.buildRound choices rows nextOrdinal state call).1
      (operator.buildRound choices rows nextOrdinal state call).2 := by
  unfold buildRound
  dsimp only
  have hspec := buildTargetBuffers_spec choices nextOrdinal (operator.nextBatch rows state)
  cases hbuild : operator.buildTargetBuffers choices nextOrdinal (operator.nextBatch rows state) with
  | error e => exact .buildError hrows hbuild
  | ok result =>
      obtain ⟨routes, buffers⟩ := result
      rw [hbuild] at hspec
      dsimp only
      rw [hbuffers, List.nil_append]
      exact .build hbuffer hbuffers hrows hspec

/-- **What a round does.** -/
theorem callRound_case (hready : operator.StateReady state)
    {choices : RoundChoices ψ φ operator.frames} {rows : List InputRow} {nextOrdinal nextOrdinal' : Nat}
    {result : CallRound ψ φ}
    (h : operator.callRound choices rows nextOrdinal state call = some (nextOrdinal', result)) :
    operator.RoundCase rows nextOrdinal state call nextOrdinal' result := by
  unfold callRound at h
  split at h
  · rename_i hfull
    cases h
    refine .leave (.inl (List.ne_nil_of_length_pos ?_))
    exact Nat.lt_of_lt_of_le operator.outputBatchSize_pos hfull
  rename_i hcount
  rw [not_le] at hcount
  split at h
  · rename_i hbuffer
    split at h
    · rename_i hbuffers
      split at h
      · rename_i hused
        cases h
        exact .leave (.inr ⟨hbuffer, hbuffers, hused⟩)
      · rename_i hrows
        have hround := Option.some.inj h
        have hcase := buildRound_case choices.batch hbuffer hbuffers (not_le.mp hrows) nextOrdinal
          call
        rw [hround] at hcase
        exact hcase
    · rename_i buffer buffers hbuffers
      obtain ⟨result', htake, heq⟩ := Option.map_eq_some_iff.mp h
      cases heq
      exact takeRound_case hready hbuffer hbuffers rows nextOrdinal htake
  · rename_i buffer hbuffer
    split at h
    · rename_i hdecode
      cases h
      exact writeRound_case hready hdecode hbuffer hcount rows nextOrdinal
    · rename_i hdecode
      rw [Bool.not_eq_false] at hdecode
      split at h
      · rename_i decoded hdecoded
        obtain ⟨result', hwrite, heq⟩ := Option.map_eq_some_iff.mp h
        cases heq
        obtain ⟨result'', hwrite', hcase⟩ :=
          writeDecodedRound_case hready hdecode hbuffer hdecoded rows nextOrdinal call
        cases hwrite.symm.trans hwrite'
        exact hcase
      · rename_i hdecoded
        obtain ⟨result', hnext, heq⟩ := Option.map_eq_some_iff.mp h
        cases heq
        obtain ⟨result'', hnext', hcase⟩ :=
          decodeRound_case hready hdecode hbuffer hdecoded rows nextOrdinal call
        cases hnext.symm.trans hnext'
        exact hcase

/-- The choices of an environment without indexes and without decoders. -/
def someChoices (operator : TargetsOperator ψ φ) : RoundChoices ψ φ operator.frames where
  batch :=
    { serving := { index := fun _ => none, loaded := fun _ _ h => by cases h }
      queryOrder := ⟨id, List.Perm.refl⟩
      shardOrder := ⟨id, List.Perm.refl⟩ }
  acquired := .error ""

end Rounds

end TargetsOperator

end DuckdbLerobot.Video
