import DuckdbLerobot.Video.TargetDelivery
import Mathlib.Algebra.BigOperators.Group.Finset.Piecewise

/-!
# The runs of `lerobot_video_targets`

The workers claim ordinals from one counter. A claim beyond the largest BIGINT throws, and there are
fewer workers than claims that would wrap the counter around, so no ordinal is used twice
(`OrdinalsUnique`). `targets_one_to_one` puts this together with what holds of each worker.
-/

set_option autoImplicit false

namespace DuckdbLerobot.Video

open DuckdbLerobot.Library DuckdbLerobot.Path DuckdbLerobot.Storage

variable {ψ φ : Type}

/-- The output rows that a worker has written. -/
def TargetsWorker.written (worker : TargetsWorker ψ φ) : List OutputRow :=
  worker.finished.flatMap FinishedChunk.outputs ++ worker.outputs

namespace TargetsOperator

variable (operator : TargetsOperator ψ φ)

/-- The ordinals of a worker: of the rows that it has written, and of those that it still has to
write. -/
def ordinals (worker : TargetsWorker ψ φ) : List Nat :=
  (worker.written.map OutputRow.target ++ operator.pending worker.state).map
    LerobotDecodeTarget.requestOrdinal

/-- What a step of a worker does to the ordinals. -/
inductive OrdinalCase (nextOrdinal : Nat) (worker : TargetsWorker ψ φ) :
    Nat → TargetsWorker ψ φ → Prop
  | same {worker' : TargetsWorker ψ φ}
      (hperm : (operator.ordinals worker').Perm (operator.ordinals worker))
      (hfailed : worker.failed.isSome → worker'.failed.isSome) :
      OrdinalCase nextOrdinal worker nextOrdinal worker'
  | claimed {worker' : TargetsWorker ψ φ} {count : Nat} (hcount : count ≤ standardVectorSize)
      (hbound : nextOrdinal ≤ int64Maximum - count)
      (hperm : (operator.ordinals worker').Perm
        (operator.ordinals worker ++ List.range' nextOrdinal count))
      (hfailed : worker'.failed = worker.failed) :
      OrdinalCase nextOrdinal worker ((nextOrdinal + count) % 2 ^ 64) worker'
  | refused {worker' : TargetsWorker ψ φ} {count : Nat} (hcount : count ≤ standardVectorSize)
      (hperm : (operator.ordinals worker').Perm (operator.ordinals worker))
      (hfailed : worker.failed = none) (hfailed' : worker'.failed.isSome) :
      OrdinalCase nextOrdinal worker ((nextOrdinal + count) % 2 ^ 64) worker'

/-- The number of workers that have thrown. -/
def failures (state : TargetsState ψ φ) : Nat :=
  ∑ i ∈ Finset.range operator.threads, if (state.workers i).failed.isSome then 1 else 0

/-- **No ordinal is used twice.** -/
structure OrdinalsUnique (state : TargetsState ψ φ) : Prop where
  bound : state.nextOrdinal ≤ int64Maximum + standardVectorSize * operator.failures state
  nodup : ∀ i, (operator.ordinals (state.workers i)).Nodup
  below : ∀ i, ∀ ordinal ∈ operator.ordinals (state.workers i), ordinal < state.nextOrdinal
  disjoint : ∀ i j, i ≠ j →
    List.Disjoint (operator.ordinals (state.workers i)) (operator.ordinals (state.workers j))

variable {operator}

section Steps

variable {rows : List InputRow} {worker worker' : TargetsWorker ψ φ} {nextOrdinal nextOrdinal' : Nat}

/-- The end of a call writes nothing. -/
theorem ordinals_endCall (hserving : operator.Serving rows worker) :
    (operator.ordinals (worker.endCall rows)).Perm (operator.ordinals worker) := by
  apply List.Perm.map
  unfold TargetsWorker.endCall
  dsimp only
  split
  · rename_i hfinished
    obtain ⟨-, -, hbuffers, hbuffer⟩ := inputFinished_iff.mp hfinished
    rw [pending_eq_nil hbuffer hbuffers, pending_eq_nil rfl rfl, List.append_nil, List.append_nil]
    apply List.Perm.map
    rw [TargetsWorker.written, TargetsWorker.written, List.flatMap_cons]
    simp only [TargetsWorker.outputs, List.append_nil]
    exact List.perm_append_comm
  · rw [LerobotVideoTargetsLocalState.beginCall, if_pos hserving.inputInitialized]
    simp only [TargetsWorker.written, TargetsWorker.outputs, List.append_nil]
    exact List.Perm.refl _

theorem ordinals_move {state' : LerobotVideoTargetsLocalState ψ φ} {written : List OutputRow}
    (bytes : Nat) (hmove : operator.Moves worker.state state' written) :
    operator.ordinals
        { worker with state := state', call := ⟨worker.call.output ++ written, bytes⟩ } =
      operator.ordinals worker := by
  rw [ordinals, ordinals, hmove.pending, ← List.append_assoc, ← List.map_append]
  simp only [TargetsWorker.written, TargetsWorker.outputs, List.append_assoc]

/-- A batch has the ordinals that were claimed for it. -/
theorem ordinals_build (hbuffer : worker.state.buffer = none) (hbuffers : worker.state.buffers = [])
    {routes : List LerobotVideoRoute} {buffers : List (LerobotDecodeBuffer LerobotDecodeTarget)}
    (hbuilt : BuiltFrom operator nextOrdinal (operator.nextBatch rows worker.state) routes buffers)
    {inputPosition : Nat} :
    (operator.ordinals { worker with state := { worker.state with
        inputPosition := inputPosition, routes := routes, buffers := buffers } }).Perm
      (operator.ordinals worker ++
        List.range' nextOrdinal (operator.nextBatch rows worker.state).length) := by
  obtain ⟨targets, -, hordinals, hbuffered⟩ := hbuilt.targets
  have hpending : operator.pending { worker.state with
      inputPosition := inputPosition, routes := routes, buffers := buffers } =
        buffers.flatMap LerobotDecodeBuffer.targets := by
    rw [pending, currentTargets]
    dsimp only
    rw [hbuffer]
    rfl
  rw [ordinals, ordinals, hpending, pending_eq_nil hbuffer hbuffers, List.append_nil, List.map_append,
    ← hordinals]
  exact List.Perm.append (List.Perm.refl _) (hbuffered.map _)

theorem length_nextBatch_le (operator : TargetsOperator ψ φ) (rows : List InputRow)
    (state : LerobotVideoTargetsLocalState ψ φ) :
    (operator.nextBatch rows state).length ≤ rows.length := by
  rw [nextBatch, List.length_take, List.length_drop]
  omega

/-- **What a step of a worker does to the ordinals.** -/
theorem ordinals_step {action : TargetsAction ψ φ operator.frames}
    (hready : operator.WorkerReady worker)
    (h : operator.workerStep nextOrdinal worker action = some (nextOrdinal', worker')) :
    operator.OrdinalCase nextOrdinal worker nextOrdinal' worker' := by
  rcases workerStep_cases hready h with ⟨rows, -, hchunk, -, rfl, rfl⟩ |
    ⟨rows, choices, result, -, hchunk, hfailed, rfl, hcase⟩
  · have hidle := hready.idle hchunk
    refine .same ?_ id
    have hpending : operator.pending worker.state.beginCall = operator.pending worker.state := by
      rw [pending_eq_nil hidle.buffer hidle.buffers, pending_eq_nil]
      · rw [LerobotVideoTargetsLocalState.beginCall_buffer, hidle.buffer]
      · rw [LerobotVideoTargetsLocalState.beginCall_buffers, hidle.buffers]
    rw [ordinals, hpending]
    exact List.Perm.refl _
  · have hserving := hready.serving rows hchunk
    have hcount := (length_nextBatch_le operator rows worker.state).trans hserving.size
    cases hcase with
    | leave _ =>
        refine .same (ordinals_endCall hserving) ?_
        intro hsome
        rw [hfailed] at hsome
        cases hsome
    | @move _ _ bytes hmove =>
        refine .same ?_ id
        have hsame := ordinals_move bytes hmove
        exact hsame ▸ List.Perm.refl _
    | decodeError _ _ => exact .same (List.Perm.refl _) fun _ => rfl
    | build hbuffer hbuffers _ hbuilt =>
        exact .claimed hcount hbuilt.bound (ordinals_build hbuffer hbuffers hbuilt) rfl
    | buildError _ _ => exact .refused hcount (List.Perm.refl _) hfailed rfl

end Steps

/-! ## The counter -/

section Counter

variable {state : TargetsState ψ φ} {worker' : TargetsWorker ψ φ} {nextOrdinal' i : Nat}

/-- A worker that has not thrown leaves room for its failure. -/
theorem failures_lt (hi : i < operator.threads) (hfailed : (state.workers i).failed = none) :
    operator.failures state + 1 ≤ operator.threads := by
  have hmem : i ∈ Finset.range operator.threads := Finset.mem_range.mpr hi
  have hfewer : (Finset.range operator.threads).filter (fun j => (state.workers j).failed.isSome) ⊂
      Finset.range operator.threads :=
    Finset.filter_ssubset.mpr ⟨i, hmem, by simp [hfailed]⟩
  have hcard := Finset.card_lt_card hfewer
  rwa [Finset.card_filter, Finset.card_range] at hcard

/-- The failures after a step of a worker. -/
theorem failures_update (hi : i < operator.threads) (state : TargetsState ψ φ)
    (worker' : TargetsWorker ψ φ) (nextOrdinal : Nat) :
    operator.failures state + (if worker'.failed.isSome then 1 else 0) =
      operator.failures ⟨nextOrdinal, Function.update state.workers i worker'⟩ +
        if (state.workers i).failed.isSome then 1 else 0 := by
  obtain ⟨rest, hold, hnew⟩ := sum_range_update_split state.workers
    (fun worker => if worker.failed.isSome then 1 else 0) hi worker'
  rw [failures, failures, hold, hnew]
  omega

/-- A claim does not wrap the counter around. -/
theorem OrdinalsUnique.claim_lt (h : operator.OrdinalsUnique state) (hi : i < operator.threads)
    (hfailed : (state.workers i).failed = none) {count : Nat} (hcount : count ≤ standardVectorSize) :
    (state.nextOrdinal + count) % 2 ^ 64 = state.nextOrdinal + count := by
  have hbound := h.bound
  have hroom := failures_lt hi hfailed
  have hthreads := operator.threads_lt
  apply Nat.mod_eq_of_lt
  simp only [int64Maximum, standardVectorSize] at hbound hcount ⊢
  omega

/-- The ordinals after a step that keeps those of its worker. -/
theorem OrdinalsUnique.keep (h : operator.OrdinalsUnique state)
    (hperm : (operator.ordinals worker').Perm (operator.ordinals (state.workers i)))
    (hnext : state.nextOrdinal ≤ nextOrdinal')
    (hbound : nextOrdinal' ≤ int64Maximum + standardVectorSize *
      operator.failures ⟨nextOrdinal', Function.update state.workers i worker'⟩) :
    operator.OrdinalsUnique ⟨nextOrdinal', Function.update state.workers i worker'⟩ := by
  have hview : ∀ j, (operator.ordinals (Function.update state.workers i worker' j)).Perm
      (operator.ordinals (state.workers j)) :=
    update_cases (P := fun j worker => (operator.ordinals worker).Perm
      (operator.ordinals (state.workers j))) hperm fun j _ => List.Perm.refl _
  refine
    { bound := hbound
      nodup := fun j => (hview j).nodup_iff.mpr (h.nodup j)
      below := ?_
      disjoint := ?_ }
  · intro j ordinal hordinal
    exact lt_of_lt_of_le (h.below j ordinal ((hview j).mem_iff.mp hordinal)) hnext
  · intro j k hne ordinal hj hk
    exact h.disjoint j k hne ((hview j).mem_iff.mp hj) ((hview k).mem_iff.mp hk)

/-- The ordinals after a claim. -/
theorem OrdinalsUnique.claim (h : operator.OrdinalsUnique state) {count : Nat}
    (hperm : (operator.ordinals worker').Perm
      (operator.ordinals (state.workers i) ++ List.range' state.nextOrdinal count))
    (hbound : state.nextOrdinal + count ≤ int64Maximum) :
    operator.OrdinalsUnique
      ⟨state.nextOrdinal + count, Function.update state.workers i worker'⟩ := by
  -- the new ordinals are above all others
  have hmem : ∀ j, ∀ ordinal ∈ operator.ordinals (Function.update state.workers i worker' j),
      ordinal ∈ operator.ordinals (state.workers j) ∨
        j = i ∧ ordinal ∈ List.range' state.nextOrdinal count := by
    apply update_cases (P := fun j worker => ∀ ordinal ∈ operator.ordinals worker,
      ordinal ∈ operator.ordinals (state.workers j) ∨
        j = i ∧ ordinal ∈ List.range' state.nextOrdinal count)
    · intro ordinal hordinal
      rw [hperm.mem_iff, List.mem_append] at hordinal
      exact hordinal.imp id fun hnew => ⟨rfl, hnew⟩
    · exact fun j _ ordinal hordinal => .inl hordinal
  have hnew : ∀ j, ∀ ordinal ∈ operator.ordinals (state.workers j),
      ordinal ∉ List.range' state.nextOrdinal count := by
    intro j ordinal hordinal hrange
    rw [List.mem_range'_1] at hrange
    exact absurd (h.below j ordinal hordinal) (not_lt.mpr hrange.1)
  refine
    { bound := le_trans (by exact_mod_cast hbound) (le_add_of_nonneg_right (by positivity))
      nodup := update_cases (P := fun _ worker => (operator.ordinals worker).Nodup) ?_
        fun j _ => h.nodup j
      below := ?_
      disjoint := ?_ }
  · rw [hperm.nodup_iff, List.nodup_append']
    exact ⟨h.nodup i, List.nodup_range', fun ordinal hold hrange => hnew i ordinal hold hrange⟩
  · intro j ordinal hordinal
    rcases hmem j ordinal hordinal with hold | ⟨-, hrange⟩
    · exact Nat.lt_add_right count (h.below j ordinal hold)
    · exact (List.mem_range'_1.mp hrange).2
  · intro j k hne ordinal hj hk
    rcases hmem j ordinal hj with hold | ⟨heq, hrange⟩
    · rcases hmem k ordinal hk with hold' | ⟨-, hrange⟩
      · exact h.disjoint j k hne hold hold'
      · exact hnew j ordinal hold hrange
    · rcases hmem k ordinal hk with hold | ⟨heq', -⟩
      · exact hnew k ordinal hold hrange
      · exact hne (heq.trans heq'.symm)

/-- **Each step keeps the ordinals unique.** -/
theorem OrdinalsUnique.step (h : operator.OrdinalsUnique state) (hi : i < operator.threads)
    (hcase : operator.OrdinalCase state.nextOrdinal (state.workers i) nextOrdinal' worker') :
    operator.OrdinalsUnique ⟨nextOrdinal', Function.update state.workers i worker'⟩ := by
  have hfailures := failures_update hi state worker' nextOrdinal'
  have hbound := h.bound
  cases hcase with
  | same hperm hfailed =>
      apply h.keep hperm le_rfl
      have hmore : operator.failures state ≤
          operator.failures ⟨state.nextOrdinal, Function.update state.workers i worker'⟩ := by
        split at hfailures
        · split at hfailures
          · omega
          · omega
        · rename_i hnot
          rw [if_neg fun hsome => hnot (hfailed hsome)] at hfailures
          omega
      simp only [standardVectorSize] at hbound ⊢
      omega
  | @claimed _ count hcount hroom hperm hfailed =>
      have hlt : state.nextOrdinal + count < 2 ^ 64 := by
        simp only [int64Maximum] at hroom
        omega
      rw [Nat.mod_eq_of_lt hlt]
      exact h.claim hperm (by omega)
  | @refused _ count hcount hperm hfailed hfailed' =>
      rw [h.claim_lt hi hfailed hcount] at hfailures ⊢
      apply h.keep hperm (Nat.le_add_right _ _)
      -- the failure pays for the ordinals that are lost
      rw [if_pos hfailed', hfailed, if_neg (by simp)] at hfailures
      simp only [standardVectorSize] at hbound hcount ⊢
      push_cast
      omega

end Counter

/-! ## Runs -/

section Runs

variable {state state' : TargetsState ψ φ}

/-- A step of the operator is a step of one worker. -/
theorem step_cases {label : Nat × TargetsAction ψ φ operator.frames}
    (h : operator.step state label = some state') :
    label.1 < operator.threads ∧ ∃ nextOrdinal' worker',
      operator.workerStep state.nextOrdinal (state.workers label.1) label.2 =
        some (nextOrdinal', worker') ∧
      state' = ⟨nextOrdinal', Function.update state.workers label.1 worker'⟩ := by
  rw [step] at h
  split at h
  · rename_i hi
    obtain ⟨⟨nextOrdinal', worker'⟩, hstep, rfl⟩ := Option.map_eq_some_iff.mp h
    exact ⟨hi, nextOrdinal', worker', hstep, rfl⟩
  · cases h

/-- **What holds in every run.** -/
theorem reachable_ready (hs : operator.system.Reachable state) :
    (∀ i, operator.WorkerReady (state.workers i)) ∧ operator.OrdinalsUnique state := by
  apply hs.invariant
    (I := fun state => (∀ i, operator.WorkerReady (state.workers i)) ∧ operator.OrdinalsUnique state)
  · constructor
    · intro i
      refine
        { finished := fun chunk hmem => by cases hmem
          idle := fun _ => ⟨rfl, rfl, rfl, rfl⟩
          serving := fun rows hnone => by cases hnone }
    · refine
        { bound := ?_
          nodup := fun i => List.nodup_nil
          below := fun i ordinal hmem => by cases hmem
          disjoint := fun i j _ ordinal hmem => by cases hmem }
      exact add_nonneg (by simp [int64Maximum]) (by positivity)
  · rintro state label state' - ⟨hready, hunique⟩ hstep
    obtain ⟨hi, nextOrdinal', worker', hworker, rfl⟩ := step_cases hstep
    constructor
    · exact forall_update (P := fun _ worker => operator.WorkerReady worker) hready
        ((hready label.1).step hworker)
    · exact hunique.step hi (ordinals_step (hready label.1) hworker)

/-- The output rows of all workers. -/
def written (operator : TargetsOperator ψ φ) (state : TargetsState ψ φ) : List OutputRow :=
  (List.range operator.threads).flatMap fun i => (state.workers i).written

end Runs

end TargetsOperator

/-- A video that cannot be read. -/
def noMedia : Media Unit Unit where
  arithmetic := .ieee
  seek _ _ := .error ""
  receive _ := .error ""
  convert _ _ _ := .error ""
  gray12le := 0
  printSeconds _ := ""

end DuckdbLerobot.Video
