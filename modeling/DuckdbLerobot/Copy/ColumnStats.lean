import DuckdbLerobot.Copy.RowPasses

/-!
# The statistics of wide features

A batch handles its dimensions side by side, and its operations act on each of them alone. A pass over
wide rows and a pass over one of their columns therefore make the same computations, whatever the
arithmetic is, and `computeStatsTyped_columns` compares the statistics of the two.
-/

set_option autoImplicit false

namespace DuckdbLerobot.Copy

open DuckdbLerobot.Library DuckdbLerobot.Path DuckdbLerobot.Storage

variable {α : Type} {width width' : Nat}

/-! ## Some dimensions of the totals -/

namespace LerobotReductionTotals

variable {m n : Nat}

/-- The totals of some of the dimensions. -/
def select (index : Fin m → Fin n) (totals : LerobotReductionTotals α n) :
    LerobotReductionTotals α m :=
  ⟨fun dimension => totals.sum (index dimension), fun dimension => totals.squareSum (index dimension)⟩

end LerobotReductionTotals

section Lanes

variable [CommRing α] [LinearOrder α]

/-- Two passes that read the same number of rows, where the second one reads some of the dimensions of
the first. The states are those after each number of rows. -/
structure SideBySide (pass : ReductionPass α width) (other : ReductionPass α width')
    (index : Fin other.batch.size → Fin pass.batch.size) (count : Nat)
    (after : Nat → ReductionState α pass.batch.size)
    (after' : Nat → ReductionState α other.batch.size) : Prop where
  round_eq : other.round = pass.round
  readRow : ∀ position, position < count → ∃ values,
    pass.readRow (after position) = .ok (values, after (position + 1)) ∧
      other.readRow (after' position) =
        .ok (fun dimension => values (index dimension), after' (position + 1))

variable {pass : ReductionPass α width} {other : ReductionPass α width'}
  {index : Fin other.batch.size → Fin pass.batch.size} {count : Nat}
  {after : Nat → ReductionState α pass.batch.size}
  {after' : Nat → ReductionState α other.batch.size}

/-- The loops that add rows. -/
theorem SideBySide.addRows (h : SideBySide pass other index count after after') (added : Nat) :
    ∀ position totals, position + added ≤ count → ∃ result,
      pass.addRows added totals (after position) = .ok (result, after (position + added)) ∧
        other.addRows added (totals.select index) (after' position) =
          .ok (result.select index, after' (position + added)) := by
  induction added with
  | zero => exact fun position totals _ => ⟨totals, rfl, rfl⟩
  | succ added ih =>
      intro position totals hcount
      obtain ⟨values, hread, hread'⟩ := h.readRow position (by omega)
      obtain ⟨result, hrest, hrest'⟩ :=
        ih (position + 1) (totals.add pass.round (.ofRow pass.round values)) (by omega)
      have hposition : position + 1 + added = position + (added + 1) := by omega
      rw [hposition] at hrest hrest'
      refine ⟨result, ?_, ?_⟩
      · rw [ReductionPass.addRows, hread]
        exact hrest
      · rw [ReductionPass.addRows, hread', h.round_eq]
        exact hrest'

/-- A loop over the accumulators, for an update that acts on each dimension alone. -/
theorem SideBySide.accumulate (h : SideBySide pass other index count after after')
    (update : LerobotReductionTotals α pass.batch.size → LerobotReductionTotals α pass.batch.size →
      LerobotReductionTotals α pass.batch.size)
    (update' : LerobotReductionTotals α other.batch.size → LerobotReductionTotals α other.batch.size →
      LerobotReductionTotals α other.batch.size)
    (hupdate : ∀ totals row,
      (update totals row).select index = update' (totals.select index) (row.select index))
    (indexes : List (Fin 8)) :
    ∀ position accumulators, position + indexes.length ≤ count → ∃ result,
      indexes.foldlM (fun current accumulator =>
          (pass.readRow current.2).map fun next =>
            (Function.update current.1 accumulator
              (update (current.1 accumulator) (.ofRow pass.round next.1)), next.2))
          (accumulators, after position) = .ok (result, after (position + indexes.length)) ∧
        indexes.foldlM (fun current accumulator =>
          (other.readRow current.2).map fun next =>
            (Function.update current.1 accumulator
              (update' (current.1 accumulator) (.ofRow other.round next.1)), next.2))
          (fun i => (accumulators i).select index, after' position) =
            .ok (fun i => (result i).select index, after' (position + indexes.length)) := by
  induction indexes with
  | nil => exact fun position accumulators _ => ⟨accumulators, rfl, rfl⟩
  | cons accumulator indexes ih =>
      intro position accumulators hcount
      rw [List.length_cons] at hcount
      obtain ⟨values, hread, hread'⟩ := h.readRow position (by omega)
      let updated := Function.update accumulators accumulator
        (update (accumulators accumulator) (.ofRow pass.round values))
      obtain ⟨result, hrest, hrest'⟩ := ih (position + 1) updated (by omega)
      have hposition : position + 1 + indexes.length = position + (indexes.length + 1) := by omega
      have hselect : (fun i => (updated i).select index) =
          Function.update (fun i => (accumulators i).select index) accumulator
            (update' ((accumulators accumulator).select index)
              (.ofRow other.round fun dimension => values (index dimension))) := by
        rw [h.round_eq]
        refine (Function.comp_update (LerobotReductionTotals.select index) _ _ _).trans ?_
        rw [hupdate]
        rfl
      rw [hposition] at hrest hrest'
      rw [hselect] at hrest'
      refine ⟨result, ?_, ?_⟩
      · rw [List.foldlM_cons]
        dsimp only
        rw [hread]
        exact hrest
      · rw [List.foldlM_cons]
        dsimp only
        rw [hread']
        exact hrest'

/-- The rounds of eight rows. -/
theorem SideBySide.addRounds (h : SideBySide pass other index count after after') (rounds : Nat) :
    ∀ position accumulators, position + 8 * rounds ≤ count → ∃ result,
      pass.addRounds rounds accumulators (after position) =
          .ok (result, after (position + 8 * rounds)) ∧
        other.addRounds rounds (fun i => (accumulators i).select index) (after' position) =
          .ok (fun i => (result i).select index, after' (position + 8 * rounds)) := by
  induction rounds with
  | zero => exact fun position accumulators _ => ⟨accumulators, rfl, rfl⟩
  | succ rounds ih =>
      intro position accumulators hcount
      have hadd : ∀ totals row : LerobotReductionTotals α pass.batch.size,
          (totals.add pass.round row).select index =
            (totals.select index).add other.round (row.select index) := by
        intro totals row
        rw [h.round_eq]
        rfl
      obtain ⟨next, heach, heach'⟩ := h.accumulate _ _ hadd (List.finRange 8) position accumulators
        (by rw [List.length_finRange]; omega)
      rw [List.length_finRange] at heach heach'
      obtain ⟨result, hrest, hrest'⟩ := ih (position + 8) next (by omega)
      have hposition : position + 8 + 8 * rounds = position + 8 * (rounds + 1) := by omega
      rw [hposition] at hrest hrest'
      refine ⟨result, ?_, ?_⟩
      · rw [ReductionPass.addRounds, ReductionPass.eachAccumulator, heach]
        exact hrest
      · rw [ReductionPass.addRounds, ReductionPass.eachAccumulator, heach']
        exact hrest'

/-- **The pairwise sums of a dimension** are the pairwise sums of a pass over it. -/
theorem SideBySide.numpyPairwiseStats (h : SideBySide pass other index count after after')
    (added : Nat) :
    ∀ position, position + added ≤ count → ∃ result,
      numpyPairwiseStats pass added (after position) = .ok (result, after (position + added)) ∧
        numpyPairwiseStats other added (after' position) =
          .ok (result.select index, after' (position + added)) := by
  induction added using Nat.strong_induction_on with
  | _ added ih =>
      intro position hcount
      by_cases hsmall : added < 8
      · -- the loop starts with the totals of no row
        obtain ⟨result, hrows, hrows'⟩ := h.addRows added position .zero hcount
        refine ⟨result, ?_, ?_⟩
        · rw [Copy.numpyPairwiseStats, if_pos hsmall]
          exact hrows
        · rw [Copy.numpyPairwiseStats, if_pos hsmall]
          exact hrows'
      by_cases hblock : added ≤ numpyPairwiseBlockSize
      · obtain ⟨first, hfirst, hfirst'⟩ := h.accumulate (fun _ row => row) (fun _ row => row)
          (fun _ _ => rfl) (List.finRange 8) position (fun _ => .zero)
          (by rw [List.length_finRange]; omega)
        rw [List.length_finRange] at hfirst hfirst'
        obtain ⟨rounds, hrounds, hrounds'⟩ :=
          h.addRounds (added / 8 - 1) (position + 8) first (by omega)
        obtain ⟨result, hrows, hrows'⟩ := h.addRows (added % 8)
          (position + 8 + 8 * (added / 8 - 1)) (.collapse pass.round rounds) (by omega)
        have hposition : position + 8 + 8 * (added / 8 - 1) + added % 8 = position + added := by omega
        rw [hposition] at hrows hrows'
        refine ⟨result, ?_, ?_⟩
        · rw [Copy.numpyPairwiseStats, if_neg hsmall, dif_pos hblock, ReductionPass.eachAccumulator]
          rw [hfirst]
          change (pass.addRounds _ first (after (position + 8)) >>= _) = _
          rw [hrounds]
          exact hrows
        · rw [Copy.numpyPairwiseStats, if_neg hsmall, dif_pos hblock, ReductionPass.eachAccumulator]
          change (List.foldlM _ ((fun i => LerobotReductionTotals.select index .zero), _) _ >>= _) = _
          rw [hfirst']
          change (other.addRounds _ _ (after' (position + 8)) >>= _) = _
          rw [hrounds', h.round_eq]
          exact hrows'
      · have hlarge := hblock
        rw [numpyPairwiseBlockSize] at hlarge
        obtain ⟨left, hleft, hleft'⟩ := ih (added / 2 - added / 2 % 8) (by omega) position (by omega)
        obtain ⟨right, hright, hright'⟩ := ih (added - (added / 2 - added / 2 % 8)) (by omega)
          (position + (added / 2 - added / 2 % 8)) (by omega)
        have hposition : position + (added / 2 - added / 2 % 8) +
            (added - (added / 2 - added / 2 % 8)) = position + added := by omega
        rw [hposition] at hright hright'
        refine ⟨left.add pass.round right, ?_, ?_⟩
        · rw [(halves_eq (not_le.mp hblock) _).2.2.2, hleft]
          change (Copy.numpyPairwiseStats pass _ _).map _ = _
          rw [hright]
          rfl
        · rw [(halves_eq (not_le.mp hblock) _).2.2.2, hleft']
          change (Copy.numpyPairwiseStats other _ _).map _ = _
          rw [hright', h.round_eq]
          rfl

end Lanes

/-! ## One batch -/

section Batch

variable [Field α] {pass : ReductionPass α width} {other : ReductionPass α width'}
  {index : Fin other.batch.size → Fin pass.batch.size} {collects collects' : Bool}
  {rows : List (Fin width → Value α)} {g : (Fin width → Value α) → (Fin width' → Value α)}

/-- The statistics of some of the dimensions. -/
structure BatchStats.Selects {m n : Nat} (index : Fin m → Fin n) (stats : BatchStats α n)
    (selected : BatchStats α m) : Prop where
  min_eq : selected.min = fun dimension => stats.min (index dimension)
  max_eq : selected.max = fun dimension => stats.max (index dimension)
  mean_eq : selected.mean = fun dimension => stats.mean (index dimension)
  stddev_eq : selected.stddev = fun dimension => stats.stddev (index dimension)
  quantile_eq : ∀ quantile, selected.quantile quantile =
    fun dimension => stats.quantile quantile (index dimension)

/-- Two passes in the same arithmetic. The rows of the second one are made of those of the first. -/
structure SamePass (pass : ReductionPass α width) (other : ReductionPass α width')
    (index : Fin other.batch.size → Fin pass.batch.size)
    (g : (Fin width → Value α) → (Fin width' → Value α)) : Prop where
  arithmetic_eq : other.arithmetic = pass.arithmetic
  round_eq : other.round = pass.round
  values_eq : ∀ row dimension,
    g row (other.batch.index dimension) = row (pass.batch.index (index dimension))

theorem SamePass.castRow (h : SamePass pass other index g) (row : Fin width → Value α) :
    other.castRow (g row) = fun dimension => pass.castRow row (index dimension) := by
  funext dimension
  simp only [ReductionPass.castRow, h.values_eq, h.arithmetic_eq, h.round_eq]

theorem SamePass.castColumn (h : SamePass pass other index g) (rows : List (Fin width → Value α))
    (dimension : Fin other.batch.size) :
    castColumn other.arithmetic other.round (rows.map g) (other.batch.index dimension) =
      castColumn pass.arithmetic pass.round rows (pass.batch.index (index dimension)) := by
  simp only [Copy.castColumn, List.map_map, h.arithmetic_eq, h.round_eq]
  refine congrArg (List.map · rows) (funext fun row => ?_)
  exact congrArg (Value.cast pass.arithmetic pass.round) (h.values_eq row dimension)

variable [LinearOrder α]

/-- Both passes read their rows. -/
theorem SamePass.sideBySide (h : SamePass pass other index g)
    (hrows : RowsOf pass.arithmetic pass.reader collects rows)
    (hrows' : RowsOf other.arithmetic other.reader collects' (rows.map g)) :
    SideBySide pass other index rows.length (fun position => pass.after collects (rows.take position))
      (fun position => other.after collects' ((rows.map g).take position)) where
  round_eq := h.round_eq
  readRow := by
    intro position hlt
    have hsplit : rows = rows.take position ++ rows[position] :: rows.drop (position + 1) := by
      rw [List.getElem_cons_drop, List.take_append_drop]
    have hsplit' : rows.map g = (rows.map g).take position ++
        g rows[position] :: (rows.map g).drop (position + 1) := by
      conv_lhs => rw [hsplit]
      rw [List.map_append, List.map_cons, List.map_take, List.map_drop]
    have htake : (rows.map g).take position ++ [g rows[position]] =
        (rows.map g).take (position + 1) := by
      rw [List.take_succ_eq_append_getElem (by rw [List.length_map]; exact hlt), List.getElem_map]
    refine ⟨pass.castRow rows[position], ?_, ?_⟩
    · rw [readRow_after hrows hsplit, List.take_succ_eq_append_getElem hlt]
    · rw [readRow_after hrows' hsplit', htake, h.castRow]

/-- **A batch acts on its dimensions side by side**: a pass over some of them has the statistics that
the batch has for these. -/
theorem SamePass.stats (h : SamePass pass other index g)
    (hrows : RowsOf pass.arithmetic pass.reader collects rows)
    (hrows' : RowsOf other.arithmetic other.reader collects' (rows.map g)) (hne : rows ≠ [])
    (useFloat32 : Bool) :
    ∃ stats selected,
      pass.stats useFloat32 (pass.after collects []) = .ok (stats, pass.after collects rows) ∧
        other.stats useFloat32 (other.after collects' []) =
          .ok (selected, other.after collects' (rows.map g)) ∧
        stats.Selects index selected := by
  have hcount := hrows.delivers.count_eq
  have hcount' := hrows'.delivers.count_eq
  rw [List.length_map] at hcount'
  have hside := h.sideBySide hrows hrows'
  by_cases hone : rows.length = 1
  · -- one row is read, and is all of its statistics
    obtain ⟨row, rfl⟩ := List.length_eq_one_iff.mp hone
    obtain ⟨values, hread, hread'⟩ := hside.readRow 0 Nat.one_pos
    refine ⟨.ofRow values, .ofRow fun dimension => values (index dimension), ?_, ?_, ?_⟩
    · rw [ReductionPass.stats, if_pos (hcount.trans hone)]
      exact congrArg (Except.map _) hread
    · rw [ReductionPass.stats, if_pos (hcount'.trans hone)]
      exact congrArg (Except.map _) hread'
    · exact ⟨rfl, rfl, rfl, rfl, fun _ => rfl⟩
  · obtain ⟨totals, htotals, htotals'⟩ := hside.numpyPairwiseStats rows.length 0 (by omega)
    rw [Nat.zero_add] at htotals htotals'
    have hlength : (rows.map g).length = rows.length := List.length_map _
    rw [List.take_length] at htotals
    rw [← hlength, List.take_length] at htotals'
    refine ⟨pass.statsOf useFloat32 rows totals,
      other.statsOf useFloat32 (rows.map g) (totals.select index), ?_, ?_, ?_⟩
    · rw [ReductionPass.stats, if_neg (by rwa [hcount]), hcount]
      change Copy.numpyPairwiseStats pass rows.length (pass.after collects (rows.take 0)) >>= _ = _
      rw [htotals]
      exact congrArg (Except.map _) (ofTotals_eq hrows.delivers useFloat32 collects totals)
    · rw [ReductionPass.stats, if_neg (by rwa [hcount']), hcount', ← hlength]
      change Copy.numpyPairwiseStats other _ (other.after collects' ((rows.map g).take 0)) >>= _ = _
      rw [htotals']
      exact congrArg (Except.map _) (ofTotals_eq hrows'.delivers useFloat32 collects' _)
    · constructor
      · funext dimension
        exact congrArg List.minimum (h.castColumn rows dimension)
      · funext dimension
        exact congrArg List.maximum (h.castColumn rows dimension)
      · funext dimension
        simp only [ReductionPass.statsOf, hlength, h.round_eq]
        rfl
      · funext dimension
        simp only [ReductionPass.statsOf, hlength, h.round_eq, h.arithmetic_eq]
        rfl
      · intro quantile
        funext dimension
        simp only [ReductionPass.statsOf, h.castColumn]
        rw [h.round_eq, h.arithmetic_eq]

end Batch

/-! ## The loop over the batches -/

section Batches

variable {integral : Bool} {whole : BatchStats α width} {outputCount : Nat}

/-- A batch of all dimensions. -/
abbrev DimensionBatch.all (width : Nat) : DimensionBatch width := ⟨0, width, (Nat.zero_add width).le⟩

@[simp] theorem DimensionBatch.all_index (dimension : Fin width) :
    (DimensionBatch.all width).index dimension = dimension :=
  Fin.ext (Nat.zero_add _)

/-- The statistics hold the first dimensions of `whole`. -/
structure DescribesDimensions (integral : Bool) (whole : BatchStats α width) (outputCount offset : Nat)
    (stats : LerobotFeatureStats α) : Prop where
  count_eq : stats.count = outputCount
  mean_eq : stats.mean = (List.ofFn whole.mean).take offset
  stddev_eq : stats.stddev = (List.ofFn whole.stddev).take offset
  min_eq : stats.min = if integral then [] else (List.ofFn whole.min).take offset
  max_eq : stats.max = if integral then [] else (List.ofFn whole.max).take offset
  quantiles_eq : ∀ quantile, stats.quantiles quantile =
    (List.ofFn (whole.quantile quantile)).take offset
  integerMin_eq : stats.integerMin = []
  integerMax_eq : stats.integerMax = []

/-- The dimensions of a batch come after the ones before it. -/
theorem take_append_batch {β : Type} (batch : DimensionBatch width) (f : Fin width → β) :
    (List.ofFn f).take batch.offset ++ List.ofFn (fun dimension => f (batch.index dimension)) =
      (List.ofFn f).take (batch.offset + batch.size) := by
  have hfits := batch.fits
  apply List.ext_getElem
  · simp only [List.length_append, List.length_take, List.length_ofFn]
    omega
  · intro i hi hi'
    rw [List.getElem_append, List.getElem_take, List.getElem_ofFn]
    split
    · rw [List.getElem_take, List.getElem_ofFn]
    · rename_i hbatch
      rw [List.length_take, List.length_ofFn, min_eq_left (by omega)] at hbatch
      rw [List.getElem_ofFn]
      refine congrArg f (Fin.ext ?_)
      simp only [DimensionBatch.index, List.length_take, List.length_ofFn]
      omega

/-- A batch adds its dimensions. -/
theorem DescribesDimensions.append {batch : DimensionBatch width} {result : LerobotFeatureStats α}
    {stats : BatchStats α batch.size}
    (h : DescribesDimensions integral whole outputCount batch.offset result)
    (hstats : whole.Selects batch.index stats) :
    DescribesDimensions integral whole outputCount (batch.offset + batch.size)
      (result.append integral stats) where
  count_eq := h.count_eq
  mean_eq := by
    rw [← take_append_batch, ← h.mean_eq, ← hstats.mean_eq]
    rfl
  stddev_eq := by
    rw [← take_append_batch, ← h.stddev_eq, ← hstats.stddev_eq]
    rfl
  min_eq := by
    rw [LerobotFeatureStats.append, h.min_eq]
    cases integral with
    | false => rw [hstats.min_eq]; exact take_append_batch batch _
    | true => rfl
  max_eq := by
    rw [LerobotFeatureStats.append, h.max_eq]
    cases integral with
    | false => rw [hstats.max_eq]; exact take_append_batch batch _
    | true => rfl
  quantiles_eq quantile := by
    rw [← take_append_batch, ← h.quantiles_eq, ← hstats.quantile_eq]
    rfl
  integerMin_eq := h.integerMin_eq
  integerMax_eq := h.integerMax_eq

variable [Field α] [LinearOrder α] {arithmetic : StatsArithmetic α} {round : α → α}
  {reader : LerobotStatsRowReader α} {rows : List (Fin width → Value α)}

/-- The state in which a batch starts. -/
theorem initialState_eq (pass : ReductionPass α width) (collects : Bool)
    {extrema : LerobotExactExtrema α} (hextrema : collects = true → extrema = {}) :
    ({ exactExtrema := if collects then some extrema else none } : ReductionState α pass.batch.size) =
      pass.after collects [] := by
  cases collects with
  | false => rfl
  | true =>
      rw [hextrema rfl]
      rfl

/-- **The loop over the batches** has the result of one batch of all dimensions. -/
theorem computeBatches_eq (h : RowsOf arithmetic reader integral rows) (hne : rows ≠ [])
    (useFloat32 : Bool)
    (hwhole : ∀ (batch : DimensionBatch width) (collects : Bool), (collects = true → integral = true) →
      ∃ stats, (ReductionPass.mk arithmetic round reader batch).stats useFloat32
          ((ReductionPass.mk arithmetic round reader batch).after collects []) =
        .ok (stats, (ReductionPass.mk arithmetic round reader batch).after collects rows) ∧
          whole.Selects batch.index stats)
    (offset : Nat) (result : LerobotFeatureStats α) (extrema : LerobotExactExtrema α)
    (hoffset : offset ≤ width)
    (hresult : DescribesDimensions integral whole outputCount offset result)
    (hextrema : extrema = if integral && offset != 0 then exactExtremaOf rows else {}) :
    ∃ computed,
      computeBatches arithmetic round reader width useFloat32 integral offset result extrema =
        .ok computed ∧
      DescribesDimensions integral whole outputCount width computed.1 ∧
      (integral = true → computed.2 = exactExtremaOf rows) := by
  induction hd : width - offset using Nat.strong_induction_on generalizing offset result extrema with
  | _ remaining ih =>
      subst hd
      have hwidth := h.width_pos
      rw [computeBatches]
      by_cases hlt : offset < width
      · rw [dif_pos hlt]
        have hsize : 0 < min lerobotStatsDimensionBatchSize (width - offset) := by
          rw [lerobotStatsDimensionBatchSize]
          omega
        let batch : DimensionBatch width :=
          ⟨offset, min lerobotStatsDimensionBatchSize (width - offset), by omega⟩
        have hcollects : (integral && offset == 0) = true → extrema = {} := by
          intro hfirst
          have hzero : offset = 0 := by simpa using (Bool.and_eq_true_iff.mp hfirst).2
          rw [hextrema, hzero]
          simp
        obtain ⟨stats, hstats, hselects⟩ := hwhole batch (integral && offset == 0)
          fun hfirst => (Bool.and_eq_true_iff.mp hfirst).1
        rw [← initialState_eq _ _ hcollects] at hstats
        change ∃ computed,
          ((ReductionPass.mk arithmetic round reader batch).stats useFloat32 _ >>= _) = _ ∧ _
        rw [hstats]
        refine ih _ ?_ (batch.offset + batch.size) (result.append integral stats) _ ?_
          (hresult.append hselects) ?_ rfl
        · change width - (offset + min lerobotStatsDimensionBatchSize (width - offset)) < _
          omega
        · exact batch.fits
        · have hpositive : (batch.offset + batch.size != 0) = true := by
            simp only [bne_iff_ne]
            exact (Nat.add_pos_right offset hsize).ne'
          rw [hpositive, Bool.and_true]
          by_cases hzero : offset = 0
          · cases integral <;> simp [ReductionPass.after, hextrema, hzero]
          · cases integral <;> simp [ReductionPass.after, hextrema, hzero]
      · have hend : offset = width := by omega
        subst hend
        rw [dif_neg hlt]
        refine ⟨_, rfl, hresult, ?_⟩
        intro hintegral
        rw [hextrema, hintegral]
        simp [hwidth.ne']

/-- The statistics of a feature are those of one batch of all dimensions. A feature with integer extrema
has no floating ones. -/
structure DescribesWhole (integral : Bool) (rows : List (Fin width → Value α))
    (whole : BatchStats α width) (outputCount : Nat) (stats : LerobotFeatureStats α) : Prop where
  count_eq : stats.count = outputCount
  mean_eq : stats.mean = List.ofFn whole.mean
  stddev_eq : stats.stddev = List.ofFn whole.stddev
  min_eq : stats.min = if integral then [] else List.ofFn whole.min
  max_eq : stats.max = if integral then [] else List.ofFn whole.max
  quantiles_eq : ∀ quantile, stats.quantiles quantile = List.ofFn (whole.quantile quantile)
  integerMin_eq : stats.integerMin = if integral then (exactExtremaOf rows).minimum else []
  integerMax_eq : stats.integerMax = if integral then (exactExtremaOf rows).maximum else []

/-- A pass over all dimensions at once. -/
abbrev wholePass (arithmetic : StatsArithmetic α) (round : α → α) (reader : LerobotStatsRowReader α)
    (width : Nat) : ReductionPass α width :=
  ⟨arithmetic, round, reader, .all width⟩

/-- **`ComputeStatsTyped` divides the dimensions invisibly.** -/
theorem computeStatsTyped_whole (round : α → α) (h : RowsOf arithmetic reader integral rows)
    (hne : rows ≠ []) (hcount : (rows.length : Int) ≤ int64Maximum) (houtput : outputCount ≠ 0)
    (useFloat32 : Bool) :
    ∃ (whole : BatchStats α width) (stats : LerobotFeatureStats α),
      (wholePass arithmetic round reader width).stats useFloat32
          ((wholePass arithmetic round reader width).after integral []) =
        .ok (whole, (wholePass arithmetic round reader width).after integral rows) ∧
      computeStatsTyped arithmetic round reader width outputCount useFloat32 integral = .ok stats ∧
      DescribesWhole integral rows whole outputCount stats := by
  have hwidth := h.width_pos
  have hlength : rows.length ≠ 0 := mt List.length_eq_zero_iff.mp hne
  have hreader := h.delivers.count_eq
  have hsame : ∀ batch : DimensionBatch width,
      SamePass (wholePass arithmetic round reader width) ⟨arithmetic, round, reader, batch⟩
        batch.index id := by
    intro batch
    refine ⟨rfl, rfl, fun row dimension => ?_⟩
    exact congrArg row (DimensionBatch.all_index (batch.index dimension)).symm
  have hbatch : ∀ (batch : DimensionBatch width) (collects : Bool),
      (collects = true → integral = true) →
      ∃ (whole : BatchStats α width) (stats : BatchStats α batch.size),
        (wholePass arithmetic round reader width).stats useFloat32
            ((wholePass arithmetic round reader width).after integral []) =
          .ok (whole, (wholePass arithmetic round reader width).after integral rows) ∧
        (ReductionPass.mk arithmetic round reader batch).stats useFloat32
            ((ReductionPass.mk arithmetic round reader batch).after collects []) =
          .ok (stats, (ReductionPass.mk arithmetic round reader batch).after collects rows) ∧
        whole.Selects batch.index stats := by
    intro batch collects hcollects
    have hrows : RowsOf arithmetic reader collects (rows.map id) := by
      rw [List.map_id]
      exact h.mono hcollects
    have hstats := (hsame batch).stats h hrows hne useFloat32
    rwa [List.map_id] at hstats
  obtain ⟨whole, -, hwhole, -⟩ := hbatch (.all width) integral id
  have hselects : ∀ (batch : DimensionBatch width) (collects : Bool),
      (collects = true → integral = true) → ∃ stats,
        (ReductionPass.mk arithmetic round reader batch).stats useFloat32
            ((ReductionPass.mk arithmetic round reader batch).after collects []) =
          .ok (stats, (ReductionPass.mk arithmetic round reader batch).after collects rows) ∧
        whole.Selects batch.index stats := by
    intro batch collects hcollects
    obtain ⟨whole', stats, hwhole', hstats, hselects⟩ := hbatch batch collects hcollects
    obtain rfl : whole = whole' := (Prod.mk.inj (Except.ok.inj (hwhole.symm.trans hwhole'))).1
    exact ⟨stats, hstats, hselects⟩
  have hinit : DescribesDimensions integral whole outputCount 0
      { count := outputCount
        quantileIsFloat32 := fun _ => useFloat32
        stddevIsFloat32 := useFloat32 } :=
    ⟨rfl, by simp, by simp, by simp, by simp, fun _ => by simp, rfl, rfl⟩
  obtain ⟨computed, hcomputed, hdescribes, hextrema⟩ := computeBatches_eq h hne useFloat32 hselects 0
    _ {} (Nat.zero_le _) hinit (by simp)
  have htake : ∀ {β : Type} (f : Fin width → β), (List.ofFn f).take width = List.ofFn f :=
    fun f => List.take_of_length_le (List.length_ofFn).le
  have hmean := hdescribes.mean_eq
  have hstddev := hdescribes.stddev_eq
  have hmin := hdescribes.min_eq
  have hmax := hdescribes.max_eq
  have hquantiles := hdescribes.quantiles_eq
  simp only [htake] at hmean hstddev hmin hmax hquantiles
  refine ⟨whole, ?_⟩
  rw [computeStatsTyped, if_neg (by omega), if_neg (by omega), hcomputed]
  cases integral with
  | false =>
      exact ⟨_, hwhole, rfl, hdescribes.count_eq, hmean, hstddev, hmin, hmax, hquantiles,
        hdescribes.integerMin_eq, hdescribes.integerMax_eq⟩
  | true =>
      have hexact := hextrema rfl
      have hlengths : (exactExtremaOf rows).minimum.length = width ∧
          (exactExtremaOf rows).maximum.length = width := by
        rw [exactExtremaOf_of_ne_nil hne]
        simp
      change ∃ stats, _ ∧ (if computed.2.minimum.length ≠ width ∨ computed.2.maximum.length ≠ width
        then _ else _) = _ ∧ _
      rw [hexact, if_neg (by rw [hlengths.1, hlengths.2]; simp)]
      exact ⟨_, hwhole, rfl, hdescribes.count_eq, hmean, hstddev, hmin, hmax, hquantiles, rfl, rfl⟩

end Batches

/-! ## Columns -/

section Columns

variable {integral : Bool} {rows : List (Fin width → Value α)} {whole : BatchStats α width}
  {outputCount : Nat}

/-- The statistics of one column are those of a dimension. -/
structure LerobotFeatureStats.AtDimension (stats : LerobotFeatureStats α) (dimension : Nat)
    (alone : LerobotFeatureStats α) : Prop where
  mean_eq : alone.mean = stats.mean[dimension]?.toList
  stddev_eq : alone.stddev = stats.stddev[dimension]?.toList
  min_eq : alone.min = stats.min[dimension]?.toList
  max_eq : alone.max = stats.max[dimension]?.toList
  quantiles_eq : ∀ quantile,
    alone.quantiles quantile = (stats.quantiles quantile)[dimension]?.toList
  integerMin_eq : alone.integerMin = stats.integerMin[dimension]?.toList
  integerMax_eq : alone.integerMax = stats.integerMax[dimension]?.toList

/-- The rows of one column. -/
def columnRows (rows : List (Fin width → Value α)) (dimension : Fin width) :
    List (Fin 1 → Value α) :=
  rows.map fun row _ => row dimension

theorem getElem?_ofFn_toList {β : Type} (f : Fin width → β) (dimension : Fin width) :
    (List.ofFn f)[(dimension : Nat)]?.toList = List.ofFn fun _ : Fin 1 => f dimension := by
  simp [List.ofFn_succ]

theorem exactExtremaOf_columnRows (hne : rows ≠ []) (dimension : Fin width) :
    (exactExtremaOf (columnRows rows dimension)).minimum =
        (exactExtremaOf rows).minimum[(dimension : Nat)]?.toList ∧
      (exactExtremaOf (columnRows rows dimension)).maximum =
        (exactExtremaOf rows).maximum[(dimension : Nat)]?.toList := by
  have hcolumn : columnRows rows dimension ≠ [] := mt List.map_eq_nil_iff.mp hne
  have hintegers : ∀ first, integers (columnRows rows dimension) first = integers rows dimension :=
    fun _ => List.map_map
  rw [exactExtremaOf_of_ne_nil hne, exactExtremaOf_of_ne_nil hcolumn]
  simp only [getElem?_ofFn_toList, hintegers, and_self]

/-- The statistics of a column, when they are computed for this column only. -/
theorem DescribesWhole.atDimension {stats alone : LerobotFeatureStats α} {column : BatchStats α 1}
    (h : DescribesWhole integral rows whole outputCount stats) (hne : rows ≠ [])
    (dimension : Fin width)
    (halone : DescribesWhole integral (columnRows rows dimension) column outputCount alone)
    (hselects : whole.Selects (fun _ => dimension) column) : stats.AtDimension dimension alone where
  mean_eq := by
    rw [halone.mean_eq, h.mean_eq, hselects.mean_eq, getElem?_ofFn_toList]
  stddev_eq := by
    rw [halone.stddev_eq, h.stddev_eq, hselects.stddev_eq, getElem?_ofFn_toList]
  min_eq := by
    rw [halone.min_eq, h.min_eq, hselects.min_eq]
    cases integral with
    | false => exact (getElem?_ofFn_toList whole.min dimension).symm
    | true => rfl
  max_eq := by
    rw [halone.max_eq, h.max_eq, hselects.max_eq]
    cases integral with
    | false => exact (getElem?_ofFn_toList whole.max dimension).symm
    | true => rfl
  quantiles_eq quantile := by
    rw [halone.quantiles_eq, h.quantiles_eq, hselects.quantile_eq, getElem?_ofFn_toList]
  integerMin_eq := by
    rw [halone.integerMin_eq, h.integerMin_eq]
    cases integral with
    | false => rfl
    | true => exact (exactExtremaOf_columnRows hne dimension).1
  integerMax_eq := by
    rw [halone.integerMax_eq, h.integerMax_eq]
    cases integral with
    | false => rfl
    | true => exact (exactExtremaOf_columnRows hne dimension).2

/-- The integer extrema of a dimension. -/
theorem DescribesWhole.integerExtrema {stats : LerobotFeatureStats α}
    (h : DescribesWhole true rows whole outputCount stats) (hne : rows ≠ [])
    (dimension : Fin width) :
    ∃ minimum maximum,
      stats.integerMin[(dimension : Nat)]? = some (.integer minimum) ∧
        IsLeast {x | x ∈ integers rows dimension} minimum ∧
      stats.integerMax[(dimension : Nat)]? = some (.integer maximum) ∧
        IsGreatest {x | x ∈ integers rows dimension} maximum := by
  have hintegers : integers rows dimension ≠ [] := mt List.map_eq_nil_iff.mp hne
  refine ⟨_, _, ?_, isLeast_minimum hintegers 0, ?_, isGreatest_maximum hintegers 0⟩
  · rw [h.integerMin_eq, if_pos rfl, exactExtremaOf_of_ne_nil hne]
    simp
  · rw [h.integerMax_eq, if_pos rfl, exactExtremaOf_of_ne_nil hne]
    simp

variable [Field α] [LinearOrder α] {arithmetic : StatsArithmetic α}
  {reader : LerobotStatsRowReader α}

/-- **The statistics of a dimension are those of its column**, and its integer extrema are the exact
extremes of the column. -/
theorem computeStatsTyped_columns (round : α → α) (h : RowsOf arithmetic reader integral rows)
    (hne : rows ≠ []) (hcount : (rows.length : Int) ≤ int64Maximum) (houtput : outputCount ≠ 0)
    (useFloat32 : Bool) :
    ∃ stats,
      computeStatsTyped arithmetic round reader width outputCount useFloat32 integral = .ok stats ∧
      stats.mean.length = width ∧
      (∀ (dimension : Fin width) (single : LerobotStatsRowReader α),
        DeliversRows arithmetic single (columnRows rows dimension) →
        ∃ alone, computeStatsTyped arithmetic round single 1 outputCount useFloat32 integral =
            .ok alone ∧
          stats.AtDimension dimension alone) ∧
      (integral = true → ∀ dimension : Fin width, ∃ minimum maximum,
        stats.integerMin[(dimension : Nat)]? = some (.integer minimum) ∧
          IsLeast {x | x ∈ integers rows dimension} minimum ∧
        stats.integerMax[(dimension : Nat)]? = some (.integer maximum) ∧
          IsGreatest {x | x ∈ integers rows dimension} maximum) := by
  obtain ⟨whole, stats, hwhole, hstats, hdescribes⟩ :=
    computeStatsTyped_whole round h hne hcount houtput useFloat32
  refine ⟨stats, hstats, ?_, ?_, ?_⟩
  · rw [hdescribes.mean_eq, List.length_ofFn]
  · intro dimension single hsingle
    have hcolumn : columnRows rows dimension ≠ [] := mt List.map_eq_nil_iff.mp hne
    have hrows : RowsOf arithmetic single integral (columnRows rows dimension) := by
      refine ⟨Nat.one_pos, hsingle, fun hintegral row hrow first => ?_⟩
      obtain ⟨wide, hwide, rfl⟩ := List.mem_map.mp hrow
      exact h.integers hintegral wide hwide dimension
    obtain ⟨column, alone, hcolumnStats, halone, hdescribesAlone⟩ :=
      computeStatsTyped_whole round hrows hcolumn (by rwa [columnRows, List.length_map]) houtput
        useFloat32
    have hsame : SamePass (wholePass arithmetic round reader width)
        (wholePass arithmetic round single 1) (fun _ => dimension) fun row _ => row dimension :=
      ⟨rfl, rfl, fun row _ => congrArg row (DimensionBatch.all_index dimension).symm⟩
    obtain ⟨whole', column', hwhole', hcolumn', hselects⟩ := hsame.stats h hrows hne useFloat32
    obtain rfl : whole = whole' := (Prod.mk.inj (Except.ok.inj (hwhole.symm.trans hwhole'))).1
    obtain rfl : column = column' :=
      (Prod.mk.inj (Except.ok.inj (hcolumnStats.symm.trans hcolumn'))).1
    exact ⟨alone, halone, hdescribes.atDimension hne dimension hdescribesAlone hselects⟩
  · rintro rfl dimension
    exact hdescribes.integerExtrema hne dimension

end Columns

/-- A reader of some rows. -/
def listReader (rows : List (Fin width → Value α)) : LerobotStatsRowReader α where
  count := rows.length
  next position :=
    match rows[position]? with
    | none => .error (.internal "LeRobot statistics reader advanced past the collection")
    | some row => .ok (List.ofFn row)

theorem listReader_delivers [CommRing α] {arithmetic : StatsArithmetic α}
    {rows : List (Fin width → Value α)}
    (hfinite : ∀ row ∈ rows, ∀ dimension, ((row dimension).toDouble arithmetic).isSome = true) :
    DeliversRows arithmetic (listReader rows) rows where
  count_eq := rfl
  next_eq := by
    intro position h
    simp [listReader, h]
  finite := hfinite

/-- Two rows with seventy integers. -/
def wideRows : List (Fin 70 → Value ℚ) :=
  [fun dimension => .integer dimension, fun dimension => .integer (100 - dimension)]

/-- The statistics of a dimension of the second batch. -/
theorem wideRows_columns :
    ∃ stats alone,
      computeStatsTyped ⟨id, id, id⟩ id (listReader wideRows) 70 2 false true = .ok stats ∧
      computeStatsTyped ⟨id, id, id⟩ id
        (listReader [fun _ : Fin 1 => .integer 66, fun _ => .integer 34]) 1 2 false true = .ok alone ∧
      stats.AtDimension 66 alone ∧ stats.integerMin[66]? = some (.integer 34) ∧
      stats.integerMax[66]? = some (.integer 66) := by
  have hintegers : ∀ row ∈ wideRows, ∀ dimension,
      row dimension = .integer (row dimension).asInteger := by
    simp [wideRows, Value.asInteger]
  have hfinite : ∀ row ∈ wideRows, ∀ dimension,
      ((row dimension).toDouble ⟨id, id, id⟩).isSome = true := by
    simp [wideRows, Value.toDouble]
  obtain ⟨stats, hstats, -, hcolumns, hexact⟩ := computeStatsTyped_columns id
    ⟨Nat.succ_pos 69, listReader_delivers hfinite, fun _ => hintegers⟩ (List.cons_ne_nil _ _)
    (by decide) (show 2 ≠ 0 by decide) false
  obtain ⟨alone, halone, hdimension⟩ := hcolumns 66
    (listReader [fun _ : Fin 1 => .integer 66, fun _ => .integer 34])
    (listReader_delivers (by simp [Value.toDouble]))
  obtain ⟨minimum, maximum, hminimum, hleast, hmaximum, hgreatest⟩ := hexact rfl 66
  have hcolumn : integers wideRows 66 = [66, 34] := by rfl
  rw [hcolumn] at hleast hgreatest
  refine ⟨stats, alone, hstats, halone, hdimension, ?_, ?_⟩
  · have heq : minimum = 34 := hleast.unique ⟨by simp, by simp [lowerBounds]⟩
    rw [← heq]
    exact hminimum
  · have heq : maximum = 66 := hgreatest.unique ⟨by simp, by simp [upperBounds]⟩
    rw [← heq]
    exact hmaximum

end DuckdbLerobot.Copy
