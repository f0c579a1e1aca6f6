import DuckdbLerobot.Copy.StatsPasses
import DuckdbLerobot.Library.Tally
import Mathlib.Algebra.Order.Floor.Semiring

/-!
# The quantiles of a histogram

In exact arithmetic the edges of a histogram are equidistant, and each value is counted in the bin that
contains it. A quantile is looked up in the running count of the bins: it is in the bin of the order
statistic with its rank (`columnQuantile_placed`), and grows with its fraction (`columnQuantile_mono`).
-/

set_option autoImplicit false

namespace DuckdbLerobot.Copy

open DuckdbLerobot.Library DuckdbLerobot.Storage

/-! ## Bins -/

section Bins

variable {lo hi v w : ℝ}

/-- The distance of the outermost edges from the extremes. -/
noncomputable def margin : ℝ := 1 / (10 ^ 10 : Nat)

/-- The width of the bins between two extremes. -/
noncomputable def binWidth (lo hi : ℝ) : ℝ :=
  (hi + margin - (lo - margin)) / lerobotQuantileBinCount

/-- The lower edge of a bin. -/
noncomputable def edge (lo hi : ℝ) (bin : Nat) : ℝ := bin * binWidth lo hi + (lo - margin)

theorem margin_eq : margin = 1 / 10 ^ 10 := by
  rw [margin, Nat.cast_pow, Nat.cast_ofNat]

theorem margin_pos : 0 < margin := by
  rw [margin_eq]
  norm_num

theorem binCount_pos : (0 : ℝ) < lerobotQuantileBinCount := by
  rw [lerobotQuantileBinCount]
  norm_num

theorem binWidth_pos (h : lo ≤ hi) : 0 < binWidth lo hi := by
  apply div_pos ?_ binCount_pos
  linarith [margin_pos]

theorem edge_zero (lo hi : ℝ) : edge lo hi 0 = lo - margin := by simp [edge]

theorem edge_last (lo hi : ℝ) : edge lo hi lerobotQuantileBinCount = hi + margin := by
  rw [edge, binWidth, mul_div_cancel₀ _ binCount_pos.ne']
  ring

theorem edge_strictMono (h : lo ≤ hi) : StrictMono (edge lo hi) := by
  intro bin other hlt
  have hwidth := mul_lt_mul_of_pos_right (Nat.cast_lt (α := ℝ).mpr hlt) (binWidth_pos h)
  rw [edge, edge]
  linarith

/-- The edges of a histogram are equidistant. -/
theorem histogramEdges_eq (lo hi : ℝ) :
    histogramEdges id lo hi = (List.range (lerobotQuantileBinCount + 1)).map (edge lo hi) := by
  apply List.map_congr_left
  intro bin _
  by_cases hlast : bin = lerobotQuantileBinCount
  · -- the last edge is assigned
    subst hlast
    rw [if_pos rfl, edge_last, margin_eq]
    rfl
  · rw [if_neg hlast, edge, binWidth, margin_eq]
    rfl

theorem getElem_histogramEdges {bin : Nat} (h : bin < (histogramEdges id lo hi).length) :
    (histogramEdges id lo hi)[bin] = edge lo hi bin := by
  simp only [histogramEdges_eq, List.getElem_map, List.getElem_range]

theorem length_histogramEdges (lo hi : ℝ) :
    (histogramEdges id lo hi).length = lerobotQuantileBinCount + 1 := by
  rw [histogramEdges_eq, List.length_map, List.length_range]

theorem getElem?_histogramEdges (lo hi : ℝ) {bin : Nat} (h : bin ≤ lerobotQuantileBinCount) :
    (histogramEdges id lo hi)[bin]? = some (edge lo hi bin) := by
  have hlt : bin < (histogramEdges id lo hi).length := by
    rw [length_histogramEdges]
    omega
  rw [List.getElem?_eq_getElem hlt, getElem_histogramEdges]

/-- **The bin of a value** is the one that contains it. -/
theorem histogramBin_spec (hlo : lo ≤ v) (hhi : v ≤ hi) :
    histogramBin (histogramEdges id lo hi) v < lerobotQuantileBinCount ∧
      edge lo hi (histogramBin (histogramEdges id lo hi) v) ≤ v ∧
      v < edge lo hi (histogramBin (histogramEdges id lo hi) v + 1) := by
  have hmono := edge_strictMono (hlo.trans hhi)
  have hlength := length_histogramEdges lo hi
  have hsmall := margin_pos
  let below : ℝ → Bool := fun e => !decide (v < e)
  have hinitial : (histogramEdges id lo hi).Pairwise fun a b => below b = true → below a = true := by
    rw [histogramEdges_eq]
    refine List.pairwise_map.mpr (List.pairwise_lt_range.imp fun hlt hbelow => ?_)
    simp only [below, Bool.not_eq_true', decide_eq_false_iff_not, not_lt] at hbelow ⊢
    exact (hmono hlt).le.trans hbelow
  have hiterator : (histogramEdges id lo hi).length -
      (upperBound (fun e => decide (v < e)) (histogramEdges id lo hi)).length =
        (histogramEdges id lo hi).countP below :=
    (length_upperBound _).trans (length_takeWhile_eq_countP hinitial)
  -- an edge is not above the value when its index is below the iterator
  have hedge : ∀ bin, bin ≤ lerobotQuantileBinCount →
      (edge lo hi bin ≤ v ↔ bin < (histogramEdges id lo hi).countP below) := by
    intro bin hbin
    have hlt : bin < (histogramEdges id lo hi).length := by omega
    rw [← getElem_iff_lt_countP hinitial hlt, getElem_histogramEdges hlt]
    simp [below]
  have hfirst : 0 < (histogramEdges id lo hi).countP below := by
    rw [← hedge 0 (Nat.zero_le _), edge_zero]
    linarith
  have hlast : (histogramEdges id lo hi).countP below ≤ lerobotQuantileBinCount := by
    rw [← not_lt, ← hedge _ le_rfl, edge_last]
    linarith
  have hbin : histogramBin (histogramEdges id lo hi) v =
      (histogramEdges id lo hi).countP below - 1 := by
    rw [histogramBin, hiterator, if_neg hfirst.ne', if_neg (by omega)]
  rw [hbin]
  generalize (histogramEdges id lo hi).countP below = iterator at hedge hfirst hlast
  refine ⟨by omega, ?_, ?_⟩
  · rw [hedge (iterator - 1) (by omega)]
    omega
  · rw [← not_le, hedge (iterator - 1 + 1) (by omega)]
    omega

/-- Bins are ordered as the values in them. -/
theorem histogramBin_mono (hlo : lo ≤ v) (hvw : v ≤ w) (hhi : w ≤ hi) :
    histogramBin (histogramEdges id lo hi) v ≤ histogramBin (histogramEdges id lo hi) w := by
  obtain ⟨-, hv, -⟩ := histogramBin_spec hlo (hvw.trans hhi)
  obtain ⟨-, -, hw⟩ := histogramBin_spec (hlo.trans hvw) hhi
  have hlt := (edge_strictMono (hlo.trans (hvw.trans hhi))).lt_iff_lt.mp (hv.trans_lt (hvw.trans_lt hw))
  omega

end Bins

/-! ## Running counts -/

/-- The running count of the bins reaches a number in this bin. -/
structure ReachesAt (below : Nat → Nat) (target : ℝ) (bin : Nat) : Prop where
  before : (below bin : ℝ) < target
  reached : target ≤ below (bin + 1)

/-- The number that is interpolated in a bin; the first bin has its lower edge. -/
noncomputable def interpolate (edges : Nat → ℝ) (below : Nat → Nat) (target : ℝ) (bin : Nat) : ℝ :=
  if bin = 0 then edges 0
  else edges bin + (target - below bin) / ((below (bin + 1) : ℝ) - below bin) *
    (edges (bin + 1) - edges bin)

section Running

variable {edges : Nat → ℝ} {below : Nat → Nat} {target target' : ℝ} {bin bin' n : Nat}

theorem exists_reachesAt (hzero : below 0 = 0) (hpos : 0 < target) (hle : target ≤ below n) :
    ∃ bin < n, ReachesAt below target bin := by
  induction n with
  | zero =>
      rw [hzero, Nat.cast_zero] at hle
      exact absurd hle (not_le.mpr hpos)
  | succ n ih =>
      by_cases hn : target ≤ below n
      · obtain ⟨bin, hbin, hreaches⟩ := ih hn
        exact ⟨bin, Nat.lt_succ_of_lt hbin, hreaches⟩
      · exact ⟨n, Nat.lt_succ_self n, not_le.mp hn, hle⟩

/-- The part of a bin that is below the number. -/
theorem ReachesAt.fraction_mem (h : ReachesAt below target bin) :
    0 < (target - below bin) / ((below (bin + 1) : ℝ) - below bin) ∧
      (target - below bin) / ((below (bin + 1) : ℝ) - below bin) ≤ 1 := by
  have hbefore := h.before
  have hreached := h.reached
  have hpos : 0 < (below (bin + 1) : ℝ) - below bin := by linarith
  constructor
  · exact div_pos (by linarith) hpos
  · rw [div_le_one hpos]
    linarith

/-- The number is in the closed bin. -/
theorem ReachesAt.interpolate_mem (h : ReachesAt below target bin) (hedges : StrictMono edges) :
    edges bin ≤ interpolate edges below target bin ∧
      interpolate edges below target bin ≤ edges (bin + 1) := by
  have hwidth := sub_pos.mpr (hedges (Nat.lt_succ_self bin))
  rw [interpolate]
  split
  · rename_i hzero
    subst hzero
    exact ⟨le_rfl, (hedges (Nat.lt_succ_self 0)).le⟩
  · obtain ⟨hpos, hle⟩ := h.fraction_mem
    constructor
    · exact le_add_of_nonneg_right (mul_pos hpos hwidth).le
    · have hpart := mul_le_of_le_one_left hwidth.le hle
      linarith

/-- A larger number is reached in the same bin or in a later one. -/
theorem ReachesAt.bin_le (h : ReachesAt below target bin) (h' : ReachesAt below target' bin')
    (hbelow : Monotone below) (hle : target ≤ target') : bin ≤ bin' := by
  by_contra hlt
  have hnext := Nat.cast_le (α := ℝ).mpr (hbelow (not_le.mp hlt))
  have hreached := h'.reached
  have hbefore := h.before
  linarith

/-- **Interpolation is monotone**: inside a bin, and over the edge of the next one. -/
theorem ReachesAt.interpolate_mono (h : ReachesAt below target bin)
    (h' : ReachesAt below target' bin') (hbelow : Monotone below) (hedges : StrictMono edges)
    (hle : target ≤ target') :
    interpolate edges below target bin ≤ interpolate edges below target' bin' := by
  rcases (h.bin_le h' hbelow hle).eq_or_lt with rfl | hlt
  · rw [interpolate, interpolate]
    split
    · exact le_rfl
    · have hbefore := h.before
      have hreached := h.reached
      have hpos : 0 < (below (bin + 1) : ℝ) - below bin := by linarith
      have hwidth := sub_pos.mpr (hedges (Nat.lt_succ_self bin))
      gcongr
  · calc interpolate edges below target bin
        ≤ edges (bin + 1) := (h.interpolate_mem hedges).2
      _ ≤ edges bin' := hedges.monotone hlt
      _ ≤ interpolate edges below target' bin' := (h'.interpolate_mem hedges).1

end Running

/-! ## The search for a quantile -/

/-- The loop of `HistogramQuantile` stops at the first bin whose running count reaches the number. -/
theorem histogramQuantileFrom_eq (edges : List ℝ) (target : ℝ) (useFloat32 : Bool)
    (histogram : List Int) :
    ∀ (bin i : Nat) (before : Int), i < histogram.length →
      (∀ j, j < i → ((before + (histogram.take (j + 1)).sum : Int) : ℝ) < target) →
      target ≤ ((before + (histogram.take (i + 1)).sum : Int) : ℝ) →
      (histogramQuantileFrom .exact id edges target useFloat32 bin before histogram).1 =
        if bin + i = 0 ∨ histogram.getD i 0 = 0 then edges.getD (bin + i) 0
        else edges.getD (bin + i) 0 +
          (target - ((before + (histogram.take i).sum : Int) : ℝ)) / (histogram.getD i 0 : Int) *
            (edges.getD (bin + i + 1) 0 - edges.getD (bin + i) 0) := by
  induction histogram with
  | nil => exact fun _ i _ hi => absurd hi (Nat.not_lt_zero i)
  | cons inBin histogram ih =>
      intro bin i before hi hbefore hreached
      rw [histogramQuantileFrom]
      cases i with
      | zero =>
          have hstop : ¬((before + inBin : Int) : ℝ) < target := by simpa using hreached
          change (if ((before + inBin : Int) : ℝ) < target then _ else _ : ℝ × Bool).1 = _
          rw [if_neg hstop]
          simp only [List.getD_cons_zero, List.take_zero, List.sum_nil, add_zero]
          split <;> rfl
      | succ i =>
          have hskip : ((before + inBin : Int) : ℝ) < target := by
            simpa using hbefore 0 (Nat.succ_pos i)
          change (if ((before + inBin : Int) : ℝ) < target then _ else _ : ℝ × Bool).1 = _
          have hbin : bin + 1 + i = bin + (i + 1) := by omega
          rw [if_pos hskip, ih (bin + 1) i (before + inBin) (Nat.lt_of_succ_lt_succ hi), hbin]
          · simp only [List.getD_cons_succ, List.take_succ_cons, List.sum_cons, add_assoc]
          · intro j hj
            have hlater := hbefore (j + 1) (Nat.succ_lt_succ hj)
            rwa [List.take_succ_cons, List.sum_cons, ← add_assoc] at hlater
          · rwa [List.take_succ_cons, List.sum_cons, ← add_assoc] at hreached

/-! ## The histogram of some values -/

section Values

variable {values : List ℝ}

/-- The number of values in the bins below one. -/
noncomputable def valuesBelow (values : List ℝ) (bin : Nat) : Nat :=
  values.countP fun v => decide (histogramBin (columnEdges id values) v < bin)

theorem valuesBelow_mono (values : List ℝ) : Monotone (valuesBelow values) := by
  intro bin other hle
  apply List.countP_mono_left
  intro v _ hlt
  rw [decide_eq_true_iff] at hlt ⊢
  exact hlt.trans_le hle

theorem valuesBelow_zero (values : List ℝ) : valuesBelow values 0 = 0 := by
  simp [valuesBelow]

theorem minimum_le (h : values ≠ []) {v : ℝ} (hv : v ∈ values) : values.minimum.untopD 0 ≤ v :=
  (isLeast_minimum h 0).2 hv

theorem le_maximum (h : values ≠ []) {v : ℝ} (hv : v ∈ values) : v ≤ values.maximum.unbotD 0 :=
  (isGreatest_maximum h 0).2 hv

theorem minimum_le_maximum (h : values ≠ []) :
    values.minimum.untopD 0 ≤ values.maximum.unbotD 0 :=
  minimum_le h (isGreatest_maximum h 0).1

theorem bin_lt (h : values ≠ []) {v : ℝ} (hv : v ∈ values) :
    histogramBin (columnEdges id values) v < lerobotQuantileBinCount :=
  (histogramBin_spec (minimum_le h hv) (le_maximum h hv)).1

theorem valuesBelow_last (h : values ≠ []) :
    valuesBelow values lerobotQuantileBinCount = values.length :=
  List.countP_eq_length.mpr fun _ hv => decide_eq_true (bin_lt h hv)

/-- A histogram is a tally of the bins of the values. -/
theorem histogramCounts_eq (edges values : List ℝ) :
    histogramCounts edges values = tally lerobotQuantileBinCount (values.map (histogramBin edges)) := by
  rw [histogramCounts, tally, List.foldl_map]

/-- **Each value is counted once.** -/
theorem sum_histogramCounts (h : values ≠ []) :
    (histogramCounts (columnEdges id values) values).sum = values.length := by
  rw [histogramCounts_eq, sum_tally, List.length_map]
  intro bin hbin
  obtain ⟨v, hv, rfl⟩ := List.mem_map.mp hbin
  exact bin_lt h hv

theorem sum_take_histogramCounts {bin : Nat} (hbin : bin ≤ lerobotQuantileBinCount) :
    ((histogramCounts (columnEdges id values) values).take bin).sum = valuesBelow values bin := by
  rw [histogramCounts_eq, sum_take_tally hbin, List.countP_map]
  rfl

theorem Quantile.fraction_mem (quantile : Quantile) :
    0 < (quantile.fraction : ℝ) ∧ (quantile.fraction : ℝ) ≤ 1 := by
  cases quantile <;> norm_num [Quantile.fraction]

/-- The number of values that a quantile looks for. -/
noncomputable def targetCount (values : List ℝ) (quantile : Quantile) : ℝ :=
  quantile.fraction * values.length

theorem targetCount_pos (h : values ≠ []) (quantile : Quantile) : 0 < targetCount values quantile :=
  mul_pos quantile.fraction_mem.1 (Nat.cast_pos.mpr (List.length_pos_of_ne_nil h))

theorem targetCount_le (values : List ℝ) (quantile : Quantile) :
    targetCount values quantile ≤ values.length :=
  mul_le_of_le_one_left (Nat.cast_nonneg _) quantile.fraction_mem.2

/-- **What the search for a quantile returns.** -/
theorem columnQuantile_eq (h : values ≠ []) (useFloat32 : Bool) (quantile : Quantile) :
    ∃ bin < lerobotQuantileBinCount,
      ReachesAt (valuesBelow values) (targetCount values quantile) bin ∧
      (columnQuantile .exact id useFloat32 values quantile).1 =
        interpolate (edge (values.minimum.untopD 0) (values.maximum.unbotD 0)) (valuesBelow values)
          (targetCount values quantile) bin := by
  have hlast : targetCount values quantile ≤ valuesBelow values lerobotQuantileBinCount := by
    rw [valuesBelow_last h]
    exact targetCount_le values quantile
  obtain ⟨bin, hbin, hreaches⟩ :=
    exists_reachesAt (valuesBelow_zero values) (targetCount_pos h quantile) hlast
  refine ⟨bin, hbin, hreaches, ?_⟩
  have hlength : bin < (histogramCounts (columnEdges id values) values).length := by
    rw [histogramCounts_eq, length_tally]
    exact hbin
  have hsearch := histogramQuantileFrom_eq (columnEdges id values) (targetCount values quantile)
    useFloat32 (histogramCounts (columnEdges id values) values) 0 bin 0 hlength ?_ ?_
  · -- the bin where the search stops is not empty
    have hcount : (histogramCounts (columnEdges id values) values).getD bin 0 =
        (valuesBelow values (bin + 1) : Int) - valuesBelow values bin := by
      have hnext : ((histogramCounts (columnEdges id values) values).take (bin + 1)).sum =
          valuesBelow values (bin + 1) := sum_take_histogramCounts hbin
      rw [List.take_succ_eq_append_getElem hlength, List.sum_append,
        sum_take_histogramCounts hbin.le] at hnext
      rw [List.getD_eq_getElem _ 0 hlength]
      simp only [List.sum_cons, List.sum_nil] at hnext
      omega
    have hpos : (valuesBelow values (bin + 1) : Int) - valuesBelow values bin ≠ 0 := by
      have hlt : valuesBelow values bin < valuesBelow values (bin + 1) :=
        Nat.cast_lt.mp (hreaches.before.trans_le hreaches.reached)
      omega
    have hedge : ∀ i, i ≤ lerobotQuantileBinCount → (columnEdges id values).getD i 0 =
        edge (values.minimum.untopD 0) (values.maximum.unbotD 0) i := by
      intro i hi
      rw [columnEdges, List.getD_eq_getElem?_getD, getElem?_histogramEdges _ _ hi, Option.getD_some]
    rw [hcount, Nat.zero_add, hedge bin hbin.le, hedge (bin + 1) hbin,
      sum_take_histogramCounts hbin.le] at hsearch
    refine hsearch.trans ?_
    rw [interpolate]
    by_cases hzero : bin = 0
    · rw [if_pos (.inl hzero), if_pos hzero, hzero]
    · rw [if_neg (not_or.mpr ⟨hzero, hpos⟩), if_neg hzero]
      push_cast
      rw [zero_add]
  · intro j hj
    rw [sum_take_histogramCounts (show j + 1 ≤ _ from by omega), zero_add, Int.cast_natCast]
    exact (Nat.cast_le.mpr (valuesBelow_mono values hj)).trans_lt hreaches.before
  · rw [sum_take_histogramCounts (show bin + 1 ≤ _ from hbin), zero_add, Int.cast_natCast]
    exact hreaches.reached

/-- A quantile is in the closed bin that contains the order statistic with its rank. -/
def Placed (edges values : List ℝ) (fraction quantile : ℝ) : Prop :=
  ∃ bin lower upper statistic, edges[bin]? = some lower ∧ edges[bin + 1]? = some upper ∧
    (values.insertionSort (· ≤ ·))[⌈fraction * values.length⌉₊ - 1]? = some statistic ∧
    lower ≤ statistic ∧ statistic < upper ∧ lower ≤ quantile ∧ quantile ≤ upper

/-- **Quantiles are placed correctly.** -/
theorem columnQuantile_placed (h : values ≠ []) (useFloat32 : Bool) (quantile : Quantile) :
    Placed (columnEdges id values) values quantile.fraction
      (columnQuantile .exact id useFloat32 values quantile).1 := by
  obtain ⟨bin, hbin, hreaches, hvalue⟩ := columnQuantile_eq h useFloat32 quantile
  have hedges := edge_strictMono (minimum_le_maximum h)
  have hrank : 0 < ⌈targetCount values quantile⌉₊ := Nat.ceil_pos.mpr (targetCount_pos h quantile)
  have hrankLe : ⌈targetCount values quantile⌉₊ ≤ values.length :=
    Nat.ceil_le.mpr (targetCount_le values quantile)
  have hindex : ⌈targetCount values quantile⌉₊ - 1 < (values.insertionSort (· ≤ ·)).length := by
    rw [List.length_insertionSort]
    omega
  let statistic := (values.insertionSort (· ≤ ·))[⌈targetCount values quantile⌉₊ - 1]
  have hmem : statistic ∈ values := List.mem_insertionSort _ |>.mp (List.getElem_mem hindex)
  -- the statistic is in a bin below another one when enough values are
  have hbelow : ∀ b, histogramBin (columnEdges id values) statistic < b ↔
      ⌈targetCount values quantile⌉₊ - 1 < valuesBelow values b := by
    intro b
    have hinitial : (values.insertionSort (· ≤ ·)).Pairwise fun v w =>
        decide (histogramBin (columnEdges id values) w < b) = true →
          decide (histogramBin (columnEdges id values) v < b) = true := by
      refine (List.pairwise_insertionSort (· ≤ ·) values).imp_of_mem fun {v w} hv hw hvw hlt => ?_
      rw [List.mem_insertionSort] at hv hw
      rw [decide_eq_true_iff] at hlt ⊢
      exact (histogramBin_mono (minimum_le h hv) hvw (le_maximum h hw)).trans_lt hlt
    have hiff := getElem_iff_lt_countP hinitial hindex
    rw [decide_eq_true_iff] at hiff
    rw [hiff, (List.perm_insertionSort (· ≤ ·) values).countP_eq]
    rfl
  have hbinEq : histogramBin (columnEdges id values) statistic = bin := by
    have hlower := Nat.lt_ceil.mpr hreaches.before
    have hupper := Nat.ceil_le.mpr hreaches.reached
    have hlt := (hbelow (bin + 1)).mpr (by omega)
    have hge := mt (hbelow bin).mp (by omega)
    omega
  have hspec := histogramBin_spec (minimum_le h hmem) (le_maximum h hmem)
  change histogramBin (columnEdges id values) statistic < _ ∧
    edge _ _ (histogramBin (columnEdges id values) statistic) ≤ _ ∧
      _ < edge _ _ (histogramBin (columnEdges id values) statistic + 1) at hspec
  rw [hbinEq] at hspec
  rw [hvalue]
  exact ⟨bin, _, _, statistic, getElem?_histogramEdges _ _ hbin.le, getElem?_histogramEdges _ _ hbin,
    List.getElem?_eq_getElem hindex, hspec.2.1, hspec.2.2, hreaches.interpolate_mem hedges⟩

/-- **Quantiles grow with their fraction.** -/
theorem columnQuantile_mono (h : values ≠ []) (useFloat32 : Bool) {quantile other : Quantile}
    (hle : (quantile.fraction : ℝ) ≤ other.fraction) :
    (columnQuantile .exact id useFloat32 values quantile).1 ≤
      (columnQuantile .exact id useFloat32 values other).1 := by
  obtain ⟨bin, -, hreaches, hvalue⟩ := columnQuantile_eq h useFloat32 quantile
  obtain ⟨bin', -, hreaches', hvalue'⟩ := columnQuantile_eq h useFloat32 other
  rw [hvalue, hvalue']
  refine hreaches.interpolate_mono hreaches' (valuesBelow_mono values)
    (edge_strictMono (minimum_le_maximum h)) ?_
  exact mul_le_mul_of_nonneg_right hle (Nat.cast_nonneg _)

/-- Quantiles are between the outermost edges. -/
theorem columnQuantile_mem (h : values ≠ []) (useFloat32 : Bool) (quantile : Quantile) :
    values.minimum.untopD 0 - 1 / 10 ^ 10 ≤ (columnQuantile .exact id useFloat32 values quantile).1 ∧
      (columnQuantile .exact id useFloat32 values quantile).1 ≤
        values.maximum.unbotD 0 + 1 / 10 ^ 10 := by
  obtain ⟨bin, hbin, hreaches, hvalue⟩ := columnQuantile_eq h useFloat32 quantile
  have hedges := edge_strictMono (minimum_le_maximum h)
  rw [hvalue, ← margin_eq, ← edge_zero, ← edge_last]
  obtain ⟨hlower, hupper⟩ := hreaches.interpolate_mem hedges
  exact ⟨(hedges.monotone (Nat.zero_le bin)).trans hlower, hupper.trans (hedges.monotone hbin)⟩

end Values

end DuckdbLerobot.Copy
