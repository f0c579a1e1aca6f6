import DuckdbLerobot.Copy.FeatureStats

/-!
# What the statistics throw

The statistics read the rows at the positions below the count of a reader, and no others. When these rows
can be read and have the width of the feature, an exception is one of their own (`computeStats_yields`).
-/

set_option autoImplicit false

namespace DuckdbLerobot.Copy

open DuckdbLerobot.Library DuckdbLerobot.Path DuckdbLerobot.Storage

variable {α : Type} {width : Nat}

/-- Each row of the reader can be read and has the width of the feature. -/
def LerobotStatsRowReader.Readable (reader : LerobotStatsRowReader α) (width : Nat) : Prop :=
  ∀ position, position < reader.count →
    ∃ row, reader.next position = .ok row ∧ row.length = width

/-- What the statistics throw themselves. -/
def statsExceptions : List StatsException :=
  [.invalidInput "LeRobot numeric features cannot contain NaN or infinity",
    .internal "LeRobot statistics value count is empty or too large"]

/-- The exceptions that are allowed. -/
abbrev OwnException (exception : StatsException) : Prop := exception ∈ statsExceptions

theorem nanException_mem :
    OwnException (.invalidInput "LeRobot numeric features cannot contain NaN or infinity") :=
  List.mem_cons_self

theorem prepareReductionValue_yields (round : α → α) (value : Option α) :
    Yields (fun _ => True) OwnException (prepareReductionValue round value) := by
  cases value with
  | none => exact nanException_mem
  | some value => exact trivial

section Pass

variable [CommRing α]

/-- A row that is read without the exact extrema. -/
theorem readStatsRow_ok (arithmetic : StatsArithmetic α) {reader : LerobotStatsRowReader α}
    (h : reader.Readable width) {position : Nat} (hlt : position < reader.count) :
    ∃ values, readStatsRow arithmetic reader width position none = .ok (values, none) := by
  obtain ⟨row, hrow, hlength⟩ := h position hlt
  rw [readStatsRow, hrow]
  change ∃ values, (if h : row.length = width then _ else _) = _
  rw [dif_pos hlength]
  exact ⟨_, rfl⟩

variable [LinearOrder α] {pass : ReductionPass α width}

/-- A pass that collects no exact extrema, at a position. -/
def ReductionState.At {size : Nat} (position : Nat) (state : ReductionState α size) : Prop :=
  state.position = position ∧ state.exactExtrema = none

theorem readRow_yields (h : pass.reader.Readable width) {position : Nat}
    {state : ReductionState α pass.batch.size} (hstate : state.At position)
    (hlt : position < pass.reader.count) :
    Yields (fun next => next.2.At (position + 1)) OwnException (pass.readRow state) := by
  obtain ⟨hposition, hextrema⟩ := hstate
  rw [ReductionPass.readRow, hposition, hextrema]
  obtain ⟨values, hvalues⟩ := readStatsRow_ok pass.arithmetic h hlt
  rw [hvalues]
  apply (traverseFin_yields fun dimension => prepareReductionValue_yields pass.round _).bind
  intro row _
  exact ⟨rfl, rfl⟩

theorem addRows_yields (h : pass.reader.Readable width) (count : Nat) :
    ∀ {position : Nat} (totals) {state}, state.At position →
      position + count ≤ pass.reader.count →
      Yields (fun result => result.2.At (position + count)) OwnException
        (pass.addRows count totals state) := by
  induction count with
  | zero => exact fun _ _ hstate _ => hstate
  | succ count ih =>
      intro position totals state hstate hcount
      apply (readRow_yields h hstate (by omega)).bind
      intro next hnext
      have hrest := ih (totals.add pass.round (.ofRow pass.round next.1)) hnext (by omega)
      rwa [Nat.add_right_comm, Nat.add_assoc] at hrest

theorem eachAccumulator_yields (h : pass.reader.Readable width) {position : Nat}
    (update : LerobotReductionTotals α pass.batch.size → LerobotReductionTotals α pass.batch.size →
      LerobotReductionTotals α pass.batch.size)
    (accumulators : Fin 8 → LerobotReductionTotals α pass.batch.size)
    {state : ReductionState α pass.batch.size} (hstate : state.At position)
    (hcount : position + 8 ≤ pass.reader.count) :
    Yields (fun result => result.2.At (position + 8)) OwnException
      (pass.eachAccumulator update accumulators state) := by
  have hloop := foldlM_rule (l := List.finRange 8) (b := (accumulators, state)) (E := OwnException)
    (f := fun current accumulator => (pass.readRow current.2).map fun next =>
      (Function.update current.1 accumulator
        (update (current.1 accumulator) (.ofRow pass.round next.1)), next.2))
    (I := fun seen current => current.2.At (position + seen.length)) hstate ?_
  · rwa [List.length_finRange] at hloop
  · intro seen accumulator rest current hsplit hcurrent
    have hlength := congrArg List.length hsplit
    rw [List.length_finRange, List.length_append, List.length_cons] at hlength
    apply (readRow_yields h hcurrent (by omega)).map
    intro next hnext
    rw [List.length_append, List.length_singleton]
    exact hnext

theorem addRounds_yields (h : pass.reader.Readable width) (rounds : Nat) :
    ∀ {position : Nat} (accumulators) {state}, state.At position →
      position + 8 * rounds ≤ pass.reader.count →
      Yields (fun result => result.2.At (position + 8 * rounds)) OwnException
        (pass.addRounds rounds accumulators state) := by
  induction rounds with
  | zero => exact fun _ _ hstate _ => hstate
  | succ rounds ih =>
      intro position accumulators state hstate hcount
      apply (eachAccumulator_yields h _ accumulators hstate (by omega)).bind
      intro next hnext
      have hrest := ih next.1 hnext (by omega)
      have hposition : position + 8 + 8 * rounds = position + 8 * (rounds + 1) := by omega
      rwa [hposition] at hrest

theorem numpyPairwiseStats_yields (h : pass.reader.Readable width) (count : Nat) :
    ∀ {position : Nat} {state}, state.At position → position + count ≤ pass.reader.count →
      Yields (fun result => result.2.At (position + count)) OwnException
        (numpyPairwiseStats pass count state) := by
  induction count using Nat.strong_induction_on with
  | _ count ih =>
      intro position state hstate hcount
      rw [numpyPairwiseStats]
      split
      · exact addRows_yields h count _ hstate hcount
      · split
        · rename_i hsmall hblock
          apply (eachAccumulator_yields h _ _ hstate (by omega)).bind
          intro first hfirst
          apply (addRounds_yields h (count / 8 - 1) _ hfirst (by omega)).bind
          intro rounds hrounds
          have hrest := addRows_yields h (count % 8) (.collapse pass.round rounds.1) hrounds
            (by omega)
          have hposition : position + 8 + 8 * (count / 8 - 1) + count % 8 = position + count := by
            omega
          rwa [hposition] at hrest
        · rename_i hsmall hblock
          rw [numpyPairwiseBlockSize] at hblock
          apply (ih (count / 2 - count / 2 % 8) (by omega) hstate (by omega)).bind
          intro left hleft
          apply (ih (count - (count / 2 - count / 2 % 8)) (by omega) hleft (by omega)).bind
          intro right hright
          have hposition : position + (count / 2 - count / 2 % 8) +
              (count - (count / 2 - count / 2 % 8)) = position + count := by omega
          rwa [hposition] at hright

end Pass

section Statistics

variable [Field α] [LinearOrder α] {pass : ReductionPass α width}

theorem buildHistogram_yields (h : pass.reader.Readable width)
    (edges : Fin pass.batch.size → List α) :
    Yields (fun _ => True) OwnException (buildHistogram pass edges) := by
  rw [buildHistogram]
  apply foldlM_rule (I := fun _ _ => True) trivial
  intro seen position rest counts hsplit _
  have hmem : position ∈ List.range pass.reader.count := by rw [hsplit]; simp
  obtain ⟨values, hvalues⟩ := readStatsRow_ok pass.arithmetic h (List.mem_range.mp hmem)
  rw [hvalues]
  apply (traverseFin_yields fun dimension => prepareReductionValue_yields pass.round _).map
  exact fun _ _ => trivial

theorem passStats_yields (h : pass.reader.Readable width) (useFloat32 : Bool)
    {state : ReductionState α pass.batch.size} (hstate : state.At 0) (hne : 0 < pass.reader.count) :
    Yields (fun result => result.2.exactExtrema = none) OwnException
      (pass.stats useFloat32 state) := by
  rw [ReductionPass.stats]
  split
  · apply (readRow_yields h hstate hne).map
    exact fun _ hnext => hnext.2
  · apply (numpyPairwiseStats_yields h pass.reader.count hstate (by omega)).bind
    intro totals htotals
    rw [BatchStats.ofTotals]
    cases hbuild : buildHistogram pass _ with
    | error e =>
        have hyields := buildHistogram_yields h fun dimension : Fin pass.batch.size =>
          histogramEdges pass.round ((totals.2.minimum dimension).untopD 0)
            ((totals.2.maximum dimension).unbotD 0)
        rw [hbuild] at hyields
        exact hyields
    | ok histogram => exact htotals.2

/-- The loop over the batches. -/
theorem computeBatches_yields {arithmetic : StatsArithmetic α} {round : α → α}
    {reader : LerobotStatsRowReader α} (h : reader.Readable width) (hne : 0 < reader.count)
    (useFloat32 : Bool) (offset : Nat) (result : LerobotFeatureStats α)
    (extrema : LerobotExactExtrema α) :
    Yields (fun _ => True) OwnException
      (computeBatches arithmetic round reader width useFloat32 false offset result extrema) := by
  induction hd : width - offset using Nat.strong_induction_on generalizing offset result extrema with
  | _ remaining ih =>
      subst hd
      rw [computeBatches]
      split
      · rename_i hlt
        refine (passStats_yields h useFloat32 ⟨rfl, rfl⟩ hne).bind ?_
        intro batch _
        refine ih _ ?_ _ _ _ rfl
        rw [lerobotStatsDimensionBatchSize]
        omega
      · exact trivial

/-- **The exceptions of the statistics**, without integer extrema. -/
theorem computeStats_yields {arithmetic : StatsArithmetic α} {reader : LerobotStatsRowReader α}
    {feature : LerobotFeature} {outputCount : Nat} (h : reader.Readable width) (hwidth : 0 < width)
    (houtput : 0 < outputCount) (hextrema : hasIntegerExtrema feature = .ok false) :
    Yields (fun _ => True) OwnException
      (computeStats arithmetic reader width outputCount feature) := by
  have htyped : ∀ (round : α → α) (useFloat32 : Bool), Yields (fun _ => True) OwnException
      (computeStatsTyped arithmetic round reader width outputCount useFloat32 false) := by
    intro round useFloat32
    rw [computeStatsTyped, if_neg (by omega)]
    split
    · exact List.mem_cons_of_mem _ List.mem_cons_self
    · rename_i hcount
      apply (computeBatches_yields h (by omega) useFloat32 0 _ _).bind
      intro computed _
      exact trivial
  rw [computeStats, hextrema]
  change Yields _ _ (if usesFloat32Statistics feature then _ else _)
  split
  · exact htyped arithmetic.float32 true
  · exact htyped arithmetic.double false

end Statistics

end DuckdbLerobot.Copy
