import DuckdbLerobot.Copy.RowPasses
import Mathlib.Analysis.Real.Sqrt

/-!
# What a pass over the rows computes

A pass reads the rows in their order, whatever the shape of its recursion. In exact arithmetic its sums
are the sums over all rows (`numpyPairwiseStats_eq`), and its extremes are the extremes of all rows.
-/

set_option autoImplicit false

namespace DuckdbLerobot.Copy

open DuckdbLerobot.Library DuckdbLerobot.Path DuckdbLerobot.Storage

/-- Exact real arithmetic. -/
noncomputable def StatsArithmetic.exact : StatsArithmetic ℝ := ⟨id, id, Real.sqrt⟩

/-! ## Rows -/

/-- The number of a finite value. -/
noncomputable def Value.number (value : Value ℝ) : ℝ := (value.toDouble .exact).getD 0

variable {width : Nat}

/-- The numbers of the rows in one dimension. -/
noncomputable def column (rows : List (Fin width → Value ℝ)) (dimension : Fin width) : List ℝ :=
  rows.map fun row => (row dimension).number

/-- A reader delivers rows with the given values, and all of them are finite. -/
structure Delivers (reader : LerobotStatsRowReader ℝ) (rows : List (Fin width → Value ℝ)) : Prop where
  count_eq : reader.count = rows.length
  next_eq : ∀ position (h : position < rows.length),
    reader.next position = .ok (List.ofFn (rows.get ⟨position, h⟩))
  finite : ∀ row ∈ rows, ∀ dimension, ((row dimension).toDouble .exact).isSome = true

section Rows

variable {rows : List (Fin width → Value ℝ)} {reader : LerobotStatsRowReader ℝ}

@[simp] theorem column_append (xs ys : List (Fin width → Value ℝ)) (dimension : Fin width) :
    column (xs ++ ys) dimension = column xs dimension ++ column ys dimension :=
  List.map_append

@[simp] theorem length_column (xs : List (Fin width → Value ℝ)) (dimension : Fin width) :
    (column xs dimension).length = xs.length :=
  List.length_map _

theorem Delivers.deliversRows (h : Delivers reader rows) : DeliversRows .exact reader rows :=
  ⟨h.count_eq, h.next_eq, h.finite⟩

end Rows

/-! ## One pass -/

/-- A pass in exact arithmetic. -/
noncomputable abbrev exactPass (reader : LerobotStatsRowReader ℝ) (batch : DimensionBatch width) :
    ReductionPass ℝ width :=
  ⟨.exact, id, reader, batch⟩

/-- The numbers of a row in the dimensions of a batch. -/
noncomputable def rowNumbers (batch : DimensionBatch width) (row : Fin width → Value ℝ) :
    Fin batch.size → ℝ :=
  fun dimension => (row (batch.index dimension)).number

/-- The state of a pass after some rows. -/
noncomputable def stateAfter (batch : DimensionBatch width) (collects : Bool)
    (seen : List (Fin width → Value ℝ)) : ReductionState ℝ batch.size where
  position := seen.length
  minimum dimension := (column seen (batch.index dimension)).minimum
  maximum dimension := (column seen (batch.index dimension)).maximum
  exactExtrema := if collects then some (exactExtremaOf seen) else none

/-- A pass over rows that its reader delivers. When it collects the exact extrema, the values are
integers. -/
structure PassOver (reader : LerobotStatsRowReader ℝ) (collects : Bool)
    (rows : List (Fin width → Value ℝ)) : Prop where
  width_pos : 0 < width
  delivers : Delivers reader rows
  integers : collects = true → ∀ row ∈ rows, ∀ dimension,
    row dimension = .integer (row dimension).asInteger

section Pass

variable {reader : LerobotStatsRowReader ℝ} {collects : Bool}
  {rows seen rest : List (Fin width → Value ℝ)} {row : Fin width → Value ℝ}
  (batch : DimensionBatch width)

theorem PassOver.rowsOf (h : PassOver reader collects rows) : RowsOf .exact reader collects rows :=
  ⟨h.width_pos, h.delivers.deliversRows, h.integers⟩

/-- **One row of a pass.** -/
theorem readRow_eq (h : PassOver reader collects rows) (hrows : rows = seen ++ row :: rest) :
    (exactPass reader batch).readRow (stateAfter batch collects seen) =
      .ok (rowNumbers batch row, stateAfter batch collects (seen ++ [row])) := by
  have hrow : (exactPass reader batch).readRow ((exactPass reader batch).after collects seen) = _ :=
    readRow_after h.rowsOf hrows
  exact hrow

/-- The rows of a pass, as it reads them. -/
theorem readRows_eq (h : PassOver reader collects rows) (added : List (Fin width → Value ℝ))
    (seen rest : List (Fin width → Value ℝ)) (hrows : rows = seen ++ (added ++ rest)) :
    (exactPass reader batch).readRows added.length (stateAfter batch collects seen) =
      .ok (added.map (rowNumbers batch), stateAfter batch collects (seen ++ added)) := by
  induction added generalizing seen with
  | nil =>
      rw [List.append_nil]
      rfl
  | cons row added ih =>
      have hfirst : rows = seen ++ row :: (added ++ rest) := hrows
      have hnext : rows = (seen ++ [row]) ++ (added ++ rest) := by simp [hrows]
      rw [List.length_cons, ReductionPass.readRows, readRow_eq batch h hfirst]
      change ((exactPass reader batch).readRows added.length
        (stateAfter batch collects (seen ++ [row]))).map _ = _
      rw [ih (seen ++ [row]) hnext, List.append_assoc]
      rfl

/-- **The pairwise sums are the sums over all rows.** -/
theorem numpyPairwiseStats_eq (h : PassOver reader collects rows) :
    numpyPairwiseStats (exactPass reader batch) rows.length (stateAfter batch collects []) =
      .ok (.ofRows (rows.map (rowNumbers batch)), stateAfter batch collects rows) := by
  have hrows : rows = [] ++ (rows ++ []) := (List.append_nil rows).symm
  rw [numpyPairwiseStats_eq_read rfl, readRows_eq batch h rows [] [] hrows]
  rfl

/-- The sums in a dimension of the batch. -/
theorem ofRows_column (rows : List (Fin width → Value ℝ)) (dimension : Fin batch.size) :
    (LerobotReductionTotals.ofRows (rows.map (rowNumbers batch))).sum dimension =
        (column rows (batch.index dimension)).sum ∧
      (LerobotReductionTotals.ofRows (rows.map (rowNumbers batch))).squareSum dimension =
        ((column rows (batch.index dimension)).map fun x => x * x).sum := by
  rw [LerobotReductionTotals.ofRows_sum, LerobotReductionTotals.ofRows_squareSum, List.map_map,
    List.map_map, column, List.map_map]
  exact ⟨rfl, rfl⟩

/-! ## The statistics of a pass -/

/-- The statistics of a batch are those of the rows, in the dimensions of the batch. -/
structure DescribesBatch (rows : List (Fin width → Value ℝ)) (stats : BatchStats ℝ batch.size) :
    Prop where
  min_eq : stats.min = fun dimension => (column rows (batch.index dimension)).minimum
  max_eq : stats.max = fun dimension => (column rows (batch.index dimension)).maximum
  mean_eq : stats.mean = fun dimension => mean (column rows (batch.index dimension))
  stddev_eq : stats.stddev = fun dimension => √(variance (column rows (batch.index dimension)))

theorem rowStddev_eq {population : List ℝ} (hne : population ≠ []) :
    rowStddev .exact id population.length population.sum (population.map fun x => x * x).sum =
      √(variance population) := by
  have hvariance := variance_eq hne
  rw [mean] at hvariance
  change √(max 0 ((population.map fun x => x * x).sum / population.length -
    population.sum / population.length * (population.sum / population.length))) = _
  rw [← hvariance, max_eq_right (variance_nonneg population)]

/-- The statistics of a pass over one row. -/
theorem passStats_singleton (h : PassOver reader collects [row]) (useFloat32 : Bool) :
    (exactPass reader batch).stats useFloat32 (stateAfter batch collects []) =
      .ok (.ofRow (rowNumbers batch row), stateAfter batch collects [row]) := by
  have hcount : reader.count = 1 := h.delivers.count_eq
  have hrow : [row] = [] ++ row :: [] := rfl
  rw [ReductionPass.stats, if_pos hcount, readRow_eq batch h hrow]
  rfl

/-- The statistics of a pass over several rows. -/
theorem passStats_of_length_ne_one (h : PassOver reader collects rows) (hone : rows.length ≠ 1)
    (useFloat32 : Bool) :
    (exactPass reader batch).stats useFloat32 (stateAfter batch collects []) =
      .ok ((exactPass reader batch).statsOf useFloat32 rows (.ofRows (rows.map (rowNumbers batch))),
        stateAfter batch collects rows) := by
  have hcount := h.delivers.count_eq
  have htotals := numpyPairwiseStats_eq batch h
  have hstats : BatchStats.ofTotals (exactPass reader batch) useFloat32
      (.ofRows (rows.map (rowNumbers batch))) ((exactPass reader batch).after collects rows) = _ :=
    ofTotals_eq h.delivers.deliversRows useFloat32 collects _
  rw [ReductionPass.stats, if_neg (by rwa [hcount]), hcount, htotals]
  exact congrArg (Except.map _) hstats

/-- **The statistics of a pass.** -/
theorem passStats_eq (h : PassOver reader collects rows) (hne : rows ≠ []) (useFloat32 : Bool) :
    ∃ stats, (exactPass reader batch).stats useFloat32 (stateAfter batch collects []) =
      .ok (stats, stateAfter batch collects rows) ∧ DescribesBatch batch rows stats := by
  by_cases hone : rows.length = 1
  · obtain ⟨row, rfl⟩ := List.length_eq_one_iff.mp hone
    refine ⟨_, passStats_singleton batch h useFloat32, ?_⟩
    constructor
    · rfl
    · rfl
    · funext dimension
      exact (mean_singleton _).symm
    · funext dimension
      change (0 : ℝ) = √(variance [_])
      rw [variance_singleton, Real.sqrt_zero]
  · refine ⟨_, passStats_of_length_ne_one batch h hone useFloat32, ?_⟩
    constructor
    · rfl
    · rfl
    · funext dimension
      change (LerobotReductionTotals.ofRows _).sum dimension / (rows.length : ℝ) = _
      rw [(ofRows_column batch rows dimension).1, mean, length_column]
    · funext dimension
      have hcolumn : column rows (batch.index dimension) ≠ [] := mt List.map_eq_nil_iff.mp hne
      change rowStddev .exact id rows.length _ _ = _
      rw [(ofRows_column batch rows dimension).1, (ofRows_column batch rows dimension).2,
        ← length_column rows (batch.index dimension), rowStddev_eq hcolumn]

end Pass

end DuckdbLerobot.Copy
