import DuckdbLerobot.Copy.FeatureStats
import DuckdbLerobot.Library.Population
import Mathlib.Algebra.BigOperators.Fin
import Mathlib.Tactic.Abel

/-!
# The pairwise sums are a fold over the rows

`NumpyPairwiseStats` has three regimes, and its recursive calls share one reader. Over a commutative
ring its result is that of a loop that reads the rows in their order (`numpyPairwiseStats_eq`), also
when a row cannot be read.
-/

set_option autoImplicit false

namespace DuckdbLerobot.Copy

open DuckdbLerobot.Library

variable {α : Type} [CommRing α] {width : Nat}

/-! ## Totals -/

namespace LerobotReductionTotals

variable {size : Nat}

instance : Add (LerobotReductionTotals α size) := ⟨add id⟩

instance : Zero (LerobotReductionTotals α size) := ⟨zero⟩

@[simp] theorem add_sum (left right : LerobotReductionTotals α size) (dimension : Fin size) :
    (left + right).sum dimension = left.sum dimension + right.sum dimension := rfl

@[simp] theorem add_squareSum (left right : LerobotReductionTotals α size) (dimension : Fin size) :
    (left + right).squareSum dimension = left.squareSum dimension + right.squareSum dimension := rfl

@[simp] theorem zero_sum (dimension : Fin size) :
    (0 : LerobotReductionTotals α size).sum dimension = 0 := rfl

@[simp] theorem zero_squareSum (dimension : Fin size) :
    (0 : LerobotReductionTotals α size).squareSum dimension = 0 := rfl

/-- In exact arithmetic, totals are added in any order. -/
instance : AddCommMonoid (LerobotReductionTotals α size) where
  add_assoc a b c := by ext <;> simp [add_assoc]
  zero_add a := by ext <;> simp
  add_zero a := by ext <;> simp
  add_comm a b := by ext <;> simp [add_comm]
  nsmul := nsmulRec

/-- The order of NumPy is one of them. -/
theorem collapse_eq_sum (accumulators : Fin 8 → LerobotReductionTotals α size) :
    collapse id accumulators = ∑ i, accumulators i := by
  have hcollapse : collapse id accumulators =
      ((accumulators 0 + accumulators 1) + (accumulators 2 + accumulators 3)) +
        ((accumulators 4 + accumulators 5) + (accumulators 6 + accumulators 7)) := rfl
  rw [hcollapse, Fin.sum_univ_eight]
  abel

/-- The totals of some rows. -/
def ofRows (rows : List (Fin size → α)) : LerobotReductionTotals α size :=
  (rows.map (ofRow id)).sum

@[simp] theorem ofRows_nil : ofRows ([] : List (Fin size → α)) = 0 := rfl

@[simp] theorem ofRows_cons (row : Fin size → α) (rows : List (Fin size → α)) :
    ofRows (row :: rows) = ofRow id row + ofRows rows := rfl

theorem ofRows_append (left right : List (Fin size → α)) :
    ofRows (left ++ right) = ofRows left + ofRows right := by
  rw [ofRows, List.map_append, List.sum_append, ofRows, ofRows]

theorem ofRows_sum (rows : List (Fin size → α)) (dimension : Fin size) :
    (ofRows rows).sum dimension = (rows.map fun row => row dimension).sum := by
  induction rows with
  | nil => rfl
  | cons row rows ih => exact congrArg (row dimension + ·) ih

theorem ofRows_squareSum (rows : List (Fin size → α)) (dimension : Fin size) :
    (ofRows rows).squareSum dimension =
      (rows.map fun row => row dimension * row dimension).sum := by
  induction rows with
  | nil => rfl
  | cons row rows ih => exact congrArg (row dimension * row dimension + ·) ih

end LerobotReductionTotals

/-! ## Reading -/

section Reading

variable [LinearOrder α] (pass : ReductionPass α width)

/-- The next rows of a pass, in the order in which they are read, and the state after them. -/
def ReductionPass.readRows : Nat → ReductionState α pass.batch.size →
    Except StatsException (List (Fin pass.batch.size → α) × ReductionState α pass.batch.size)
  | 0, state => .ok ([], state)
  | count + 1, state =>
      pass.readRow state >>= fun next =>
        (ReductionPass.readRows count next.2).map fun rest => (next.1 :: rest.1, rest.2)

variable {pass}

/-- Reading rows, and then some more. -/
theorem readRows_add (first second : Nat) (state : ReductionState α pass.batch.size) :
    pass.readRows (first + second) state =
      pass.readRows first state >>= fun left =>
        (pass.readRows second left.2).map fun right => (left.1 ++ right.1, right.2) := by
  induction first generalizing state with
  | zero =>
      rw [Nat.zero_add]
      change pass.readRows second state = (pass.readRows second state).map _
      cases pass.readRows second state <;> rfl
  | succ first ih =>
      rw [Nat.succ_add, ReductionPass.readRows, ReductionPass.readRows]
      cases pass.readRow state with
      | error e => rfl
      | ok next =>
          change (pass.readRows (first + second) next.2).map _ = _
          rw [ih]
          change _ = ((pass.readRows first next.2).map _) >>= _
          cases pass.readRows first next.2 with
          | error e => rfl
          | ok left =>
              change ((pass.readRows second left.2).map _).map _ = (pass.readRows second left.2).map _
              cases pass.readRows second left.2 <;> rfl

/-- The loops that add rows. -/
theorem addRows_eq (hround : pass.round = id) (count : Nat)
    (totals : LerobotReductionTotals α pass.batch.size) (state : ReductionState α pass.batch.size) :
    pass.addRows count totals state =
      (pass.readRows count state).map fun read => (totals + .ofRows read.1, read.2) := by
  induction count generalizing totals state with
  | zero => exact congrArg (fun sum => Except.ok (sum, state)) (add_zero totals).symm
  | succ count ih =>
      rw [ReductionPass.addRows, ReductionPass.readRows]
      cases pass.readRow state with
      | error e => rfl
      | ok next =>
          change pass.addRows count _ next.2 = ((pass.readRows count next.2).map _).map _
          rw [ih, hround]
          cases pass.readRows count next.2 with
          | error e => rfl
          | ok read =>
              exact congrArg (fun sum => Except.ok (sum, read.2)) (add_assoc totals _ _)

/-- A loop over the accumulators reads a row in each round, and keeps the sum of the accumulators and
the rows: the rows are added, or are assigned to accumulators that are still zero. -/
theorem accumulate_eq (hround : pass.round = id)
    (update : LerobotReductionTotals α pass.batch.size → LerobotReductionTotals α pass.batch.size →
      LerobotReductionTotals α pass.batch.size)
    (indexes : List (Fin 8)) (hnodup : indexes.Nodup)
    (accumulators : Fin 8 → LerobotReductionTotals α pass.batch.size)
    (hupdate : ∀ i ∈ indexes, ∀ row, update (accumulators i) row = accumulators i + row)
    (state : ReductionState α pass.batch.size) :
    (indexes.foldlM (fun current accumulator =>
      (pass.readRow current.2).map fun next =>
        (Function.update current.1 accumulator
          (update (current.1 accumulator) (.ofRow pass.round next.1)), next.2))
        (accumulators, state)).map (fun result => (∑ i, result.1 i, result.2)) =
      (pass.readRows indexes.length state).map fun read =>
        (∑ i, accumulators i + .ofRows read.1, read.2) := by
  induction indexes generalizing accumulators state with
  | nil => exact congrArg (fun sum => Except.ok (sum, state)) (add_zero (∑ i, accumulators i)).symm
  | cons i indexes ih =>
      obtain ⟨hnew, hrest⟩ := List.nodup_cons.mp hnodup
      rw [List.foldlM_cons, List.length_cons, ReductionPass.readRows]
      dsimp only
      cases pass.readRow state with
      | error e => rfl
      | ok next =>
          have hothers : ∀ j ∈ indexes, ∀ row, update (Function.update accumulators i
              (update (accumulators i) (.ofRow pass.round next.1)) j) row =
                Function.update accumulators i
                  (update (accumulators i) (.ofRow pass.round next.1)) j + row := by
            intro j hj row
            have hne : j ≠ i := fun heq => hnew (heq ▸ hj)
            rw [Function.update_of_ne hne]
            exact hupdate j (List.mem_cons_of_mem i hj) row
          have hsum : ∑ j, Function.update accumulators i
              (update (accumulators i) (.ofRow pass.round next.1)) j =
                ∑ j, accumulators j + .ofRow id next.1 := by
            rw [hupdate i List.mem_cons_self, hround,
              Finset.sum_update_of_mem (Finset.mem_univ i), add_right_comm,
              ← Finset.sum_eq_add_sum_sdiff_singleton_of_mem (Finset.mem_univ i)]
          refine (ih hrest _ hothers next.2).trans ?_
          change _ = ((pass.readRows indexes.length next.2).map _).map _
          rw [hsum]
          cases pass.readRows indexes.length next.2 with
          | error e => rfl
          | ok read => exact congrArg (fun sum => Except.ok (sum, read.2)) (add_assoc _ _ _)

/-- The first rows of the accumulators. -/
theorem assignAccumulators_eq (hround : pass.round = id) (state : ReductionState α pass.batch.size) :
    (pass.eachAccumulator (fun _ row => row) (fun _ => .zero) state).map
        (fun result => (∑ i, result.1 i, result.2)) =
      (pass.readRows 8 state).map fun read => (.ofRows read.1, read.2) := by
  have hloop := accumulate_eq hround (fun _ row => row) (List.finRange 8) (List.nodup_finRange 8)
    (fun _ => 0) (fun _ _ row => (zero_add row).symm) state
  simp only [Finset.sum_const_zero, zero_add, List.length_finRange] at hloop
  exact hloop

/-- The later rows are added, eight at a time. -/
theorem addRounds_eq (hround : pass.round = id) (rounds : Nat)
    (accumulators : Fin 8 → LerobotReductionTotals α pass.batch.size)
    (state : ReductionState α pass.batch.size) :
    (pass.addRounds rounds accumulators state).map
        (fun result => (∑ i, result.1 i, result.2)) =
      (pass.readRows (8 * rounds) state).map fun read =>
        (∑ i, accumulators i + .ofRows read.1, read.2) := by
  induction rounds generalizing accumulators state with
  | zero => exact congrArg (fun sum => Except.ok (sum, state)) (add_zero (∑ i, accumulators i)).symm
  | succ rounds ih =>
      have hloop := accumulate_eq hround (LerobotReductionTotals.add id) (List.finRange 8)
        (List.nodup_finRange 8) accumulators (fun _ _ _ => rfl) state
      rw [List.length_finRange, ← hround] at hloop
      change (pass.eachAccumulator (LerobotReductionTotals.add pass.round) accumulators state).map _ = _
        at hloop
      have hcount : 8 * (rounds + 1) = 8 + 8 * rounds := by omega
      rw [hcount, readRows_add, ReductionPass.addRounds]
      rcases except_map_eq_map hloop with ⟨e, hnext, hread⟩ | ⟨next, read, hnext, hread, heq⟩
      · rw [hnext, hread]
        rfl
      · obtain ⟨hsum, hstate⟩ := Prod.mk.inj heq
        rw [hnext, hread]
        change (pass.addRounds rounds next.1 next.2).map _ =
          ((pass.readRows (8 * rounds) read.2).map _).map _
        rw [ih, hsum, hstate]
        cases pass.readRows (8 * rounds) read.2 with
        | error e => rfl
        | ok rest =>
            refine congrArg (fun sum => Except.ok (sum, rest.2)) ?_
            rw [LerobotReductionTotals.ofRows_append, add_assoc]

/-- A block of rows: one for each accumulator, some rounds, and the rest. -/
theorem block_eq (hround : pass.round = id) {count : Nat} (hcount : 8 ≤ count)
    (state : ReductionState α pass.batch.size) :
    (pass.eachAccumulator (fun _ row => row) (fun _ => .zero) state >>= fun first =>
      pass.addRounds (count / 8 - 1) first.1 first.2 >>= fun rounds =>
        pass.addRows (count % 8) (.collapse pass.round rounds.1) rounds.2) =
      (pass.readRows count state).map fun read => (.ofRows read.1, read.2) := by
  have hsplit : count = 8 + (8 * (count / 8 - 1) + count % 8) := by omega
  have hfirst := assignAccumulators_eq hround state
  rw [congrArg (pass.readRows · state) hsplit, readRows_add]
  rcases except_map_eq_map hfirst with ⟨e, heach, hread⟩ | ⟨first, read, heach, hread, heq⟩
  · rw [heach, hread]
    rfl
  obtain ⟨hsum, hstate⟩ := Prod.mk.inj heq
  have hrounds := addRounds_eq hround (count / 8 - 1) first.1 first.2
  rw [heach, hread]
  change (pass.addRounds (count / 8 - 1) first.1 first.2 >>= _) =
    ((pass.readRows (8 * (count / 8 - 1) + count % 8) read.2).map _).map _
  rw [readRows_add, ← hstate]
  rcases except_map_eq_map hrounds with ⟨e, hadded, hmiddle⟩ | ⟨added, middle, hadded, hmiddle, heq⟩
  · rw [hadded, hmiddle]
    rfl
  obtain ⟨hmiddleSum, hmiddleState⟩ := Prod.mk.inj heq
  rw [hadded, hmiddle]
  change pass.addRows (count % 8) _ added.2 =
    (((pass.readRows (count % 8) middle.2).map _).map _).map _
  rw [addRows_eq hround, hround, LerobotReductionTotals.collapse_eq_sum, hmiddleSum, hsum,
    hmiddleState]
  cases pass.readRows (count % 8) middle.2 with
  | error e => rfl
  | ok tail =>
      refine congrArg (fun sum => Except.ok (sum, tail.2)) ?_
      rw [LerobotReductionTotals.ofRows_append, LerobotReductionTotals.ofRows_append, add_assoc]

/-- **The three regimes read the same rows as one loop**, and their sums are its sums. -/
theorem numpyPairwiseStats_eq_read (hround : pass.round = id) (count : Nat)
    (state : ReductionState α pass.batch.size) :
    numpyPairwiseStats pass count state =
      (pass.readRows count state).map fun read => (.ofRows read.1, read.2) := by
  induction count using Nat.strong_induction_on generalizing state with
  | _ count ih =>
      rw [numpyPairwiseStats]
      by_cases hsmall : count < 8
      · rw [if_pos hsmall, addRows_eq hround]
        cases pass.readRows count state with
        | error e => rfl
        | ok read => exact congrArg (fun sum => Except.ok (sum, read.2)) (zero_add _)
      rw [if_neg hsmall]
      by_cases hblock : count ≤ numpyPairwiseBlockSize
      · rw [dif_pos hblock]
        exact block_eq hround (not_lt.mp hsmall) state
      · -- the two halves
        rw [dif_neg hblock]
        rw [numpyPairwiseBlockSize] at hblock
        generalize hleft : count / 2 - count / 2 % 8 = leftCount
        have hsplit : count = leftCount + (count - leftCount) := by omega
        rw [congrArg (pass.readRows · state) hsplit, readRows_add]
        change (numpyPairwiseStats pass leftCount state >>= fun left =>
          numpyPairwiseStats pass (count - leftCount) left.2 >>= fun right =>
            Except.ok (left.1.add pass.round right.1, right.2)) = _
        rw [ih leftCount (by omega) state]
        cases pass.readRows leftCount state with
        | error e => rfl
        | ok left =>
            change (numpyPairwiseStats pass (count - leftCount) left.2 >>= _) =
              ((pass.readRows (count - leftCount) left.2).map _).map _
            rw [ih (count - leftCount) (by omega) left.2]
            cases pass.readRows (count - leftCount) left.2 with
            | error e => rfl
            | ok right =>
                refine congrArg (fun sum => Except.ok (sum, right.2)) ?_
                rw [hround, LerobotReductionTotals.ofRows_append]
                rfl

/-! ## What the rows are -/

variable (pass) in
/-- The reader delivers a row at a position, with the given numbers in the dimensions of the batch. -/
def ReductionPass.Reads (position : Nat) (values : Fin pass.batch.size → α) : Prop :=
  ∃ row : List (Value α), pass.reader.next position = .ok row ∧ row.length = width ∧
    ∀ dimension, row[(pass.batch.index dimension : Nat)]?.bind (Value.toDouble pass.arithmetic) =
      some (values dimension)

/-- What one row changes. -/
theorem readRow_reads (hround : pass.round = id) {state after : ReductionState α pass.batch.size}
    {values : Fin pass.batch.size → α} (h : pass.readRow state = .ok (values, after)) :
    pass.Reads state.position values ∧ after.position = state.position + 1 ∧
      ∀ dimension, after.minimum dimension = min (state.minimum dimension) (values dimension) ∧
        after.maximum dimension = max (state.maximum dimension) (values dimension) := by
  simp only [ReductionPass.readRow, readStatsRow, except_bind_eq_ok, traverseFin_eq_ok] at h
  obtain ⟨read, ⟨row, hnext, hrow⟩, values', hvalues, hok⟩ := h
  cases hok
  refine ⟨⟨row, hnext, ?_⟩, rfl, fun dimension => ⟨rfl, rfl⟩⟩
  split at hrow
  · rename_i hlength
    obtain ⟨extrema, -, rfl⟩ := except_map_eq_ok.mp hrow
    refine ⟨hlength, fun dimension => ?_⟩
    have hvalue := hvalues dimension
    have hlt : (pass.batch.index dimension : Nat) < row.length := by
      rw [hlength]
      exact (pass.batch.index dimension).isLt
    rw [hround] at hvalue
    rw [List.getElem?_eq_getElem hlt, Option.bind_some]
    change prepareReductionValue id (row[(pass.batch.index dimension : Nat)].toDouble _) = _ at hvalue
    generalize Value.toDouble pass.arithmetic _ = value at hvalue ⊢
    cases value with
    | none => cases hvalue
    | some value => exact congrArg some (Except.ok.inj hvalue)
  · cases hrow

/-- **Each row is read once, in order**, and the extremes take all of them in. -/
theorem readRows_reads (hround : pass.round = id) {count : Nat}
    {state after : ReductionState α pass.batch.size} {rows : List (Fin pass.batch.size → α)}
    (h : pass.readRows count state = .ok (rows, after)) :
    rows.length = count ∧ after.position = state.position + count ∧
      (∀ i (hi : i < rows.length), pass.Reads (state.position + i) (rows.get ⟨i, hi⟩)) ∧
      ∀ dimension,
        after.minimum dimension =
          min (state.minimum dimension) (rows.map fun row => row dimension).minimum ∧
        after.maximum dimension =
          max (state.maximum dimension) (rows.map fun row => row dimension).maximum := by
  induction count generalizing state rows with
  | zero =>
      cases h
      refine ⟨rfl, rfl, fun i hi => absurd hi (Nat.not_lt_zero i), fun dimension => ⟨?_, ?_⟩⟩
      · simp
      · simp
  | succ count ih =>
      simp only [ReductionPass.readRows, except_bind_eq_ok, except_map_eq_ok] at h
      obtain ⟨⟨values, next⟩, hrow, ⟨rest, last⟩, hrest, heq⟩ := h
      cases heq
      obtain ⟨hreads, hposition, hextremes⟩ := readRow_reads hround hrow
      obtain ⟨hlength, hlast, hrows, hrestExtremes⟩ := ih hrest
      refine ⟨congrArg (· + 1) hlength, ?_, ?_, fun dimension => ⟨?_, ?_⟩⟩
      · rw [hlast, hposition]
        omega
      · intro i hi
        cases i with
        | zero => exact hreads
        | succ i =>
            have hnext := hrows i (Nat.lt_of_succ_lt_succ hi)
            rwa [hposition, Nat.add_right_comm, Nat.add_assoc] at hnext
      · rw [(hrestExtremes dimension).1, (hextremes dimension).1, List.map_cons, List.minimum_cons,
          min_assoc]
      · rw [(hrestExtremes dimension).2, (hextremes dimension).2, List.map_cons, List.maximum_cons,
          max_assoc]

/-- The halves of a large range. -/
theorem halves_eq {count : Nat} (hcount : numpyPairwiseBlockSize < count)
    (state : ReductionState α pass.batch.size) :
    (count / 2 - count / 2 % 8) % 8 = 0 ∧ 0 < count / 2 - count / 2 % 8 ∧
      count / 2 - count / 2 % 8 < count ∧
      numpyPairwiseStats pass count state =
        (numpyPairwiseStats pass (count / 2 - count / 2 % 8) state >>= fun left =>
          (numpyPairwiseStats pass (count - (count / 2 - count / 2 % 8)) left.2).map fun right =>
            (left.1.add pass.round right.1, right.2)) := by
  have hlarge : 128 < count := hcount
  refine ⟨by omega, by omega, by omega, ?_⟩
  rw [numpyPairwiseStats, if_neg (by omega), dif_neg (not_le.mpr hcount)]
  dsimp only
  cases numpyPairwiseStats pass (count / 2 - count / 2 % 8) state with
  | error e => rfl
  | ok left =>
      change (numpyPairwiseStats pass (count - _) left.2 >>= _) = Except.map _ _
      cases numpyPairwiseStats pass (count - (count / 2 - count / 2 % 8)) left.2 <;> rfl

/-- **The pairwise reduction is a plain fold.** It reads the next `count` rows, each once and in order,
or throws what reading them throws. Its sums are the sums over these rows, its extremes are those of the
bounds before and of the rows, and a large range is divided into two parts with rows in both. -/
theorem numpyPairwiseStats_fold (hround : pass.round = id) (count : Nat)
    (state : ReductionState α pass.batch.size) :
    (numpyPairwiseStats pass count state =
      (pass.readRows count state).map fun read =>
        (⟨fun dimension => (read.1.map fun row => row dimension).sum,
          fun dimension => (read.1.map fun row => row dimension * row dimension).sum⟩, read.2)) ∧
      (∀ rows after, pass.readRows count state = .ok (rows, after) →
        rows.length = count ∧ after.position = state.position + count ∧
          (∀ i (hi : i < rows.length), pass.Reads (state.position + i) (rows.get ⟨i, hi⟩)) ∧
          ∀ dimension,
            after.minimum dimension =
              min (state.minimum dimension) (rows.map fun row => row dimension).minimum ∧
            after.maximum dimension =
              max (state.maximum dimension) (rows.map fun row => row dimension).maximum) ∧
      (numpyPairwiseBlockSize < count →
        (count / 2 - count / 2 % 8) % 8 = 0 ∧ 0 < count / 2 - count / 2 % 8 ∧
          count / 2 - count / 2 % 8 < count ∧
          numpyPairwiseStats pass count state =
            (numpyPairwiseStats pass (count / 2 - count / 2 % 8) state >>= fun left =>
              (numpyPairwiseStats pass (count - (count / 2 - count / 2 % 8)) left.2).map fun right =>
                (left.1.add pass.round right.1, right.2))) := by
  refine ⟨?_, fun rows after => readRows_reads hround, fun hcount => halves_eq hcount state⟩
  rw [numpyPairwiseStats_eq_read hround]
  congr 1
  funext read
  refine Prod.ext ?_ rfl
  ext dimension
  · exact LerobotReductionTotals.ofRows_sum read.1 dimension
  · exact LerobotReductionTotals.ofRows_squareSum read.1 dimension

end Reading

/-- A pass over the numbers from zero on, without rounding. -/
def countingPass : ReductionPass Int 1 where
  arithmetic := ⟨id, id, id⟩
  round := id
  reader := ⟨300, fun position => .ok [.integer position]⟩
  batch := ⟨0, 1, le_rfl⟩

/-- Three hundred numbers, in three blocks. -/
theorem countingPass_fold :
    (numpyPairwiseStats countingPass 300 {}).map
      (fun result => (result.1.sum (0 : Fin 1), result.1.squareSum (0 : Fin 1), result.2.position)) =
        .ok (44850, 8955050, 300) := by
  have hround : countingPass.round = id := rfl
  rw [(numpyPairwiseStats_fold hround 300 {}).1]
  decide +kernel

end DuckdbLerobot.Copy
