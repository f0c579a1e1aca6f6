import DuckdbLerobot.Copy.PairwiseFold
import Mathlib.Data.Int.ConditionallyCompleteOrder

/-!
# A pass over rows

A reader delivers rows, and each of their values is finite. A pass over these rows does not throw, and
its state after some of them is a function of these (`readRow_after`), in any arithmetic.
-/

set_option autoImplicit false

namespace DuckdbLerobot.Copy

open DuckdbLerobot.Library

variable {α : Type} {width : Nat}

/-! ## Integer extrema -/

/-- The integer of a value of an integral type. -/
def Value.asInteger : Value α → Int
  | .integer value => value
  | _ => 0

/-- The integers of the rows in one dimension. -/
def integers (rows : List (Fin width → Value α)) (dimension : Fin width) : List Int :=
  rows.map fun row => (row dimension).asInteger

/-- The integer extrema of the rows. -/
noncomputable def exactExtremaOf (rows : List (Fin width → Value α)) : LerobotExactExtrema α :=
  if rows = [] then {}
  else
    { minimum := List.ofFn fun dimension => .integer ((integers rows dimension).minimum.untopD 0)
      maximum := List.ofFn fun dimension => .integer ((integers rows dimension).maximum.unbotD 0) }

section Extrema

variable {rows seen : List (Fin width → Value α)} {row : Fin width → Value α}

@[simp] theorem integers_append (xs ys : List (Fin width → Value α)) (dimension : Fin width) :
    integers (xs ++ ys) dimension = integers xs dimension ++ integers ys dimension :=
  List.map_append

theorem keepLess_integer (value minimum : Int) :
    (Value.integer value : Value α).keepLess (.integer minimum) = .integer (min minimum value) := by
  rw [Value.keepLess, Value.less]
  by_cases hless : value < minimum
  · rw [decide_eq_true hless, if_pos rfl, min_eq_right hless.le]
  · rw [decide_eq_false hless, if_neg Bool.false_ne_true, min_eq_left (not_lt.mp hless)]

theorem keepGreater_integer (value maximum : Int) :
    (Value.integer value : Value α).keepGreater (.integer maximum) =
      .integer (max maximum value) := by
  rw [Value.keepGreater, Value.less]
  by_cases hless : maximum < value
  · rw [decide_eq_true hless, if_pos rfl, max_eq_right hless.le]
  · rw [decide_eq_false hless, if_neg Bool.false_ne_true, max_eq_left (not_lt.mp hless)]

/-- Two vectors with the same index type, element by element. -/
theorem zipWith_ofFn {β γ δ : Type} {n : Nat} (f : β → γ → δ) (xs : Fin n → β) (ys : Fin n → γ) :
    List.zipWith f (List.ofFn xs) (List.ofFn ys) = List.ofFn fun i => f (xs i) (ys i) := by
  apply List.ext_getElem
  · simp
  · intro i hi hi'
    simp

theorem exactExtremaOf_of_ne_nil (hne : rows ≠ []) :
    exactExtremaOf rows =
      { minimum := List.ofFn fun dimension => .integer ((integers rows dimension).minimum.untopD 0)
        maximum := List.ofFn fun dimension =>
          .integer ((integers rows dimension).maximum.unbotD 0) } :=
  if_neg hne

/-- One more row for the exact extrema. -/
theorem exactExtremaOf_add (hwidth : 0 < width)
    (hintegers : ∀ dimension, row dimension = .integer (row dimension).asInteger) :
    (exactExtremaOf seen).add width (List.ofFn row) = .ok (exactExtremaOf (seen ++ [row])) := by
  have hlength : (List.ofFn row).length = width := List.length_ofFn
  have hrow : List.ofFn row = List.ofFn fun dimension => Value.integer (row dimension).asInteger :=
    congrArg List.ofFn (funext hintegers)
  have hnext := exactExtremaOf_of_ne_nil
    (List.append_ne_nil_of_right_ne_nil seen (List.cons_ne_nil row []))
  rw [hnext, LerobotExactExtrema.add, if_neg (not_not.mpr hlength)]
  by_cases hseen : seen = []
  · -- the first row is copied
    subst hseen
    rw [if_pos (show (exactExtremaOf []).minimum.isEmpty = true from rfl), hrow]
    simp [integers]
  · have hold : ∀ dimension, integers seen dimension ≠ [] :=
      fun _ => mt List.map_eq_nil_iff.mp hseen
    have hnew : ∀ dimension, integers [row] dimension ≠ [] := fun _ => List.cons_ne_nil _ _
    rw [exactExtremaOf_of_ne_nil hseen, if_neg, if_neg (by simp)]
    · simp only [hrow, zipWith_ofFn, keepLess_integer, keepGreater_integer, integers_append,
        untopD_minimum_append (hold _) (hnew _), unbotD_maximum_append (hold _) (hnew _)]
      simp [integers]
    · simp [List.isEmpty_iff, List.ofFn_eq_nil_iff, hwidth.ne']

end Extrema

/-! ## Rows that a reader delivers -/

section Rows

variable [CommRing α]

/-- The number of a finite value, in the type `T`. -/
def Value.cast (arithmetic : StatsArithmetic α) (round : α → α) (value : Value α) : α :=
  round ((value.toDouble arithmetic).getD 0)

/-- The numbers of the rows in one dimension. -/
def castColumn (arithmetic : StatsArithmetic α) (round : α → α) (rows : List (Fin width → Value α))
    (dimension : Fin width) : List α :=
  rows.map fun row => (row dimension).cast arithmetic round

/-- A reader delivers rows with the given values, and all of them are finite. -/
structure DeliversRows (arithmetic : StatsArithmetic α) (reader : LerobotStatsRowReader α)
    (rows : List (Fin width → Value α)) : Prop where
  count_eq : reader.count = rows.length
  next_eq : ∀ position (h : position < rows.length),
    reader.next position = .ok (List.ofFn (rows.get ⟨position, h⟩))
  finite : ∀ row ∈ rows, ∀ dimension, ((row dimension).toDouble arithmetic).isSome = true

/-- The rows of a feature. When its integer extrema are collected, the values are integers. -/
structure RowsOf (arithmetic : StatsArithmetic α) (reader : LerobotStatsRowReader α)
    (collects : Bool) (rows : List (Fin width → Value α)) : Prop where
  width_pos : 0 < width
  delivers : DeliversRows arithmetic reader rows
  integers : collects = true → ∀ row ∈ rows, ∀ dimension,
    row dimension = .integer (row dimension).asInteger

variable {arithmetic : StatsArithmetic α} {round : α → α} {reader : LerobotStatsRowReader α}
  {collects : Bool} {rows seen rest : List (Fin width → Value α)} {row : Fin width → Value α}

@[simp] theorem castColumn_append (xs ys : List (Fin width → Value α)) (dimension : Fin width) :
    castColumn arithmetic round (xs ++ ys) dimension =
      castColumn arithmetic round xs dimension ++ castColumn arithmetic round ys dimension :=
  List.map_append

@[simp] theorem length_castColumn (xs : List (Fin width → Value α)) (dimension : Fin width) :
    (castColumn arithmetic round xs dimension).length = xs.length :=
  List.length_map _

theorem RowsOf.mono {other : Bool} (h : RowsOf arithmetic reader collects rows)
    (hother : other = true → collects = true) : RowsOf arithmetic reader other rows :=
  ⟨h.width_pos, h.delivers, fun h' => h.integers (hother h')⟩

theorem DeliversRows.next_append (h : DeliversRows arithmetic reader rows)
    (hrows : rows = seen ++ row :: rest) : reader.next seen.length = .ok (List.ofFn row) := by
  have hlt : seen.length < rows.length := by
    rw [hrows, List.length_append, List.length_cons]
    omega
  rw [h.next_eq seen.length hlt]
  subst hrows
  simp

theorem DeliversRows.toDouble_eq (h : DeliversRows arithmetic reader rows) (hrow : row ∈ rows)
    (dimension : Fin width) :
    (row dimension).toDouble arithmetic = some (((row dimension).toDouble arithmetic).getD 0) := by
  obtain ⟨value, hvalue⟩ := Option.isSome_iff_exists.mp (h.finite row hrow dimension)
  rw [hvalue, Option.getD_some]

/-- What `ReadStatsRow` returns at a row. -/
theorem readStatsRow_of_delivers (h : DeliversRows arithmetic reader rows)
    (hrows : rows = seen ++ row :: rest) (extrema : Option (LerobotExactExtrema α)) :
    readStatsRow arithmetic reader width seen.length extrema =
      (addExactRow width (List.ofFn row) extrema).map fun extrema =>
        (fun dimension => some (((row dimension).toDouble arithmetic).getD 0), extrema) := by
  have hrow : row ∈ rows := by rw [hrows]; simp
  have hlength : (List.ofFn row).length = width := List.length_ofFn
  have hvalues : (fun dimension : Fin width =>
      ((List.ofFn row).get (dimension.cast hlength.symm)).toDouble arithmetic) =
        fun dimension => some (((row dimension).toDouble arithmetic).getD 0) := by
    funext dimension
    rw [← h.toDouble_eq hrow dimension]
    simp
  rw [readStatsRow, h.next_append hrows]
  change (if hlength : (List.ofFn row).length = width then _ else _) = _
  rw [dif_pos hlength, hvalues]

end Rows

/-! ## Passes -/

section Pass

variable [CommRing α] (pass : ReductionPass α width)

/-- The numbers of a row in the dimensions of the batch. -/
def ReductionPass.castRow (row : Fin width → Value α) : Fin pass.batch.size → α :=
  fun dimension => (row (pass.batch.index dimension)).cast pass.arithmetic pass.round

/-- The casts of a row do not throw. -/
theorem prepareRow_eq (row : Fin width → Value α) :
    (traverseFin fun dimension => prepareReductionValue pass.round
      (some (((row (pass.batch.index dimension)).toDouble pass.arithmetic).getD 0))) =
        .ok (pass.castRow row) :=
  traverseFin_eq_ok.mpr fun _ => rfl

variable [LinearOrder α]

/-- The state of a pass after some rows. -/
noncomputable def ReductionPass.after (collects : Bool) (seen : List (Fin width → Value α)) :
    ReductionState α pass.batch.size where
  position := seen.length
  minimum dimension :=
    (castColumn pass.arithmetic pass.round seen (pass.batch.index dimension)).minimum
  maximum dimension :=
    (castColumn pass.arithmetic pass.round seen (pass.batch.index dimension)).maximum
  exactExtrema := if collects then some (exactExtremaOf seen) else none

variable {pass} {collects : Bool} {rows seen rest : List (Fin width → Value α)}
  {row : Fin width → Value α}

/-- **One row of a pass.** -/
theorem readRow_after (h : RowsOf pass.arithmetic pass.reader collects rows)
    (hrows : rows = seen ++ row :: rest) :
    pass.readRow (pass.after collects seen) =
      .ok (pass.castRow row, pass.after collects (seen ++ [row])) := by
  have hrow : row ∈ rows := by rw [hrows]; simp
  have hextrema : addExactRow width (List.ofFn row) (pass.after collects seen).exactExtrema =
      .ok (pass.after collects (seen ++ [row])).exactExtrema := by
    cases hcollects : collects with
    | false => rfl
    | true =>
        exact congrArg (Except.map some)
          (exactExtremaOf_add h.width_pos (h.integers hcollects row hrow))
  rw [ReductionPass.readRow]
  change (readStatsRow pass.arithmetic pass.reader width seen.length _ >>= _) = _
  rw [readStatsRow_of_delivers h.delivers hrows, hextrema]
  change ((traverseFin fun dimension => prepareReductionValue pass.round
    (some (((row (pass.batch.index dimension)).toDouble pass.arithmetic).getD 0))) >>= _) = _
  rw [prepareRow_eq]
  refine congrArg Except.ok (Prod.ext rfl ?_)
  simp [ReductionPass.after, castColumn, List.minimum_concat, List.maximum_concat,
    ReductionPass.castRow]

end Pass

/-! ## Histograms -/

section Histogram

variable [LinearOrder α]

/-- The counts of the bins for some values. -/
def histogramCounts (edges values : List α) : List Int :=
  values.foldl (fun counts value => counts.modify (histogramBin edges value) (· + 1))
    (List.replicate lerobotQuantileBinCount 0)

theorem histogramCounts_append (edges values later : List α) :
    histogramCounts edges (values ++ later) =
      later.foldl (fun counts value => counts.modify (histogramBin edges value) (· + 1))
        (histogramCounts edges values) :=
  List.foldl_append

variable [Field α] {pass : ReductionPass α width} {rows : List (Fin width → Value α)}

/-- **The histograms of a pass.** -/
theorem buildHistogram_eq (h : DeliversRows pass.arithmetic pass.reader rows)
    (edges : Fin pass.batch.size → List α) :
    buildHistogram pass edges = .ok fun dimension =>
      histogramCounts (edges dimension)
        (castColumn pass.arithmetic pass.round rows (pass.batch.index dimension)) := by
  have hloop := foldlM_total (l := List.range pass.reader.count)
    (f := fun (counts : Fin pass.batch.size → List Int) position =>
      readStatsRow pass.arithmetic pass.reader width position none >>= fun row =>
        (traverseFin fun dimension =>
          prepareReductionValue pass.round (row.1 (pass.batch.index dimension))).map fun values =>
            fun dimension =>
              (counts dimension).modify (histogramBin (edges dimension) (values dimension)) (· + 1))
    (b := fun _ => List.replicate lerobotQuantileBinCount 0)
    (I := fun done counts => counts = fun dimension => histogramCounts (edges dimension)
      (castColumn pass.arithmetic pass.round (rows.take done.length) (pass.batch.index dimension)))
    rfl ?_
  · obtain ⟨counts, hcounts, heq⟩ := hloop
    rw [List.length_range, h.count_eq, List.take_length] at heq
    rw [buildHistogram, hcounts, heq]
  · rintro done position later counts hsplit rfl
    have hposition : position = done.length := by
      have hget := congrArg (fun l => l[done.length]?) hsplit
      have hlt : done.length < pass.reader.count := by
        have hlength := congrArg List.length hsplit
        rw [List.length_range, List.length_append, List.length_cons] at hlength
        omega
      simpa [List.getElem?_range hlt] using hget.symm
    have hlt : done.length < rows.length := by
      have hmem : position ∈ List.range pass.reader.count := by rw [hsplit]; simp
      rwa [List.mem_range, h.count_eq, hposition] at hmem
    have hrows : rows = rows.take done.length ++ rows[done.length] :: rows.drop (done.length + 1) := by
      rw [List.getElem_cons_drop, List.take_append_drop]
    have hread := readStatsRow_of_delivers h hrows none
    rw [List.length_take, min_eq_left hlt.le] at hread
    rw [hposition, hread]
    change ∃ counts', (traverseFin fun dimension => prepareReductionValue pass.round
      (some (((rows[done.length] (pass.batch.index dimension)).toDouble pass.arithmetic).getD 0))).map
        _ = _ ∧ _
    rw [prepareRow_eq]
    refine ⟨_, rfl, ?_⟩
    funext dimension
    rw [List.length_append, List.length_singleton, List.take_succ_eq_append_getElem hlt,
      castColumn_append, histogramCounts_append]
    rfl

/-! ## Quantiles -/

/-- The edges of the bins for some values. -/
def columnEdges (round : α → α) (values : List α) : List α :=
  histogramEdges round (values.minimum.untopD 0) (values.maximum.unbotD 0)

/-- A quantile of some values, and whether it counts as a `float`. -/
def columnQuantile (arithmetic : StatsArithmetic α) (round : α → α) (useFloat32 : Bool)
    (values : List α) (quantile : Quantile) : α × Bool :=
  histogramQuantile arithmetic round (histogramCounts (columnEdges round values) values)
    (columnEdges round values) values.length quantile.fraction useFloat32

/-- The statistics of a pass over several rows, from their sums. -/
def ReductionPass.statsOf (pass : ReductionPass α width) (useFloat32 : Bool)
    (rows : List (Fin width → Value α)) (totals : LerobotReductionTotals α pass.batch.size) :
    BatchStats α pass.batch.size :=
  let column dimension := castColumn pass.arithmetic pass.round rows (pass.batch.index dimension)
  { min := fun dimension => (column dimension).minimum
    max := fun dimension => (column dimension).maximum
    mean := fun dimension => rowMean pass.round rows.length (totals.sum dimension)
    stddev := fun dimension => rowStddev pass.arithmetic pass.round rows.length
      (totals.sum dimension) (totals.squareSum dimension)
    quantile := fun quantile dimension =>
      (columnQuantile pass.arithmetic pass.round useFloat32 (column dimension) quantile).1
    quantileIsFloat32 := fun quantile =>
      (List.finRange pass.batch.size).all fun dimension =>
        (columnQuantile pass.arithmetic pass.round useFloat32 (column dimension) quantile).2 }

theorem ofTotals_eq (h : DeliversRows pass.arithmetic pass.reader rows) (useFloat32 collects : Bool)
    (totals : LerobotReductionTotals α pass.batch.size) :
    BatchStats.ofTotals pass useFloat32 totals (pass.after collects rows) =
      .ok (pass.statsOf useFloat32 rows totals) := by
  rw [BatchStats.ofTotals, buildHistogram_eq h, h.count_eq]
  refine congrArg Except.ok ?_
  simp only [ReductionPass.statsOf, columnQuantile, length_castColumn]
  rfl

end Histogram

end DuckdbLerobot.Copy
