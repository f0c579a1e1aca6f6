import DuckdbLerobot.Copy.Histogram
import DuckdbLerobot.Copy.StatsMerge

/-!
# The order of the quantiles

The quantiles of an episode are ordered and between its extremes, up to the margin of the histogram.
`MergeStats` takes the minima of the lower quantiles and the maxima of the upper ones, which keeps this
(`OrderedQuantiles.merge`) over any sequence of episodes.
-/

set_option autoImplicit false

namespace DuckdbLerobot.Copy

open DuckdbLerobot.Library DuckdbLerobot.Path DuckdbLerobot.Storage

variable {width : Nat} {integral : Bool}

/-! ## One dimension -/

/-- The quantiles of a dimension are ordered, and between its extremes up to the margin. -/
structure OrderedQuantiles (minimum maximum : ℝ) (quantiles : Quantile → ℝ) : Prop where
  lower : minimum - 1 / 10 ^ 10 ≤ quantiles .q01
  q01_le_q10 : quantiles .q01 ≤ quantiles .q10
  q10_le_q50 : quantiles .q10 ≤ quantiles .q50
  q50_le_q90 : quantiles .q50 ≤ quantiles .q90
  q90_le_q99 : quantiles .q90 ≤ quantiles .q99
  upper : quantiles .q99 ≤ maximum + 1 / 10 ^ 10

section Dimension

variable {minimum maximum minimum' maximum' : ℝ} {quantiles quantiles' : Quantile → ℝ}

/-- **Merging keeps the order.** -/
theorem OrderedQuantiles.merge (h : OrderedQuantiles minimum maximum quantiles)
    (h' : OrderedQuantiles minimum' maximum' quantiles') :
    OrderedQuantiles (min minimum minimum') (max maximum maximum') fun quantile =>
      mergeQuantile quantile (quantiles quantile) (quantiles' quantile) where
  lower := by
    apply le_min
    · exact (sub_le_sub_right (min_le_left _ _) _).trans h.lower
    · exact (sub_le_sub_right (min_le_right _ _) _).trans h'.lower
  q01_le_q10 := min_le_min h.q01_le_q10 h'.q01_le_q10
  q10_le_q50 := min_le_min h.q10_le_q50 h'.q10_le_q50
  q50_le_q90 := by
    -- here the minima of the lower quantiles meet the maxima of the upper ones
    calc min (quantiles .q50) (quantiles' .q50)
        ≤ quantiles .q50 := min_le_left _ _
      _ ≤ quantiles .q90 := h.q50_le_q90
      _ ≤ max (quantiles .q90) (quantiles' .q90) := le_max_left _ _
  q90_le_q99 := max_le_max h.q90_le_q99 h'.q90_le_q99
  upper := by
    apply max_le
    · exact h.upper.trans (add_le_add_left (le_max_left _ _) _)
    · exact h'.upper.trans (add_le_add_left (le_max_right _ _) _)

/-- One value is each of its quantiles. -/
theorem OrderedQuantiles.single (v : ℝ) : OrderedQuantiles v v fun _ => v := by
  have hmargin : (0 : ℝ) ≤ 1 / 10 ^ 10 := by norm_num
  exact ⟨sub_le_self v hmargin, le_rfl, le_rfl, le_rfl, le_rfl, le_add_of_nonneg_right hmargin⟩

/-- The quantiles of a histogram. -/
theorem columnQuantile_ordered {values : List ℝ} (h : values ≠ []) (useFloat32 : Bool) :
    OrderedQuantiles (values.minimum.untopD 0) (values.maximum.unbotD 0) fun quantile =>
      (columnQuantile .exact id useFloat32 values quantile).1 where
  lower := (columnQuantile_mem h useFloat32 .q01).1
  q01_le_q10 := columnQuantile_mono h useFloat32 (by norm_num [Quantile.fraction])
  q10_le_q50 := columnQuantile_mono h useFloat32 (by norm_num [Quantile.fraction])
  q50_le_q90 := columnQuantile_mono h useFloat32 (by norm_num [Quantile.fraction])
  q90_le_q99 := columnQuantile_mono h useFloat32 (by norm_num [Quantile.fraction])
  upper := (columnQuantile_mem h useFloat32 .q99).2

end Dimension

/-! ## The statistics of a feature -/

/-- The extremes that the statistics report. Integer extrema are in vectors of their own. -/
inductive ReportsExtremes (stats : LerobotFeatureStats ℝ) :
    Bool → (Fin width → ℝ) → (Fin width → ℝ) → Prop
  | floating {minimum maximum : Fin width → ℝ}
      (min_eq : stats.min = List.ofFn fun dimension => (minimum dimension : WithTop ℝ))
      (max_eq : stats.max = List.ofFn fun dimension => (maximum dimension : WithBot ℝ))
      (integerMin_eq : stats.integerMin = []) (integerMax_eq : stats.integerMax = []) :
      ReportsExtremes stats false minimum maximum
  | integral {minimum maximum : Fin width → Int}
      (min_eq : stats.min = []) (max_eq : stats.max = [])
      (integerMin_eq : stats.integerMin = List.ofFn fun dimension => .integer (minimum dimension))
      (integerMax_eq : stats.integerMax = List.ofFn fun dimension => .integer (maximum dimension)) :
      ReportsExtremes stats true (fun dimension => minimum dimension) fun dimension =>
        maximum dimension

/-- The quantiles of all dimensions are ordered. -/
structure OrderedStats (integral : Bool) (width : Nat) (stats : LerobotFeatureStats ℝ) : Prop where
  mean_length : stats.mean.length = width
  ordered : ∃ (minimum maximum : Fin width → ℝ) (quantiles : Quantile → Fin width → ℝ),
    ReportsExtremes stats integral minimum maximum ∧
      (∀ quantile, stats.quantiles quantile = List.ofFn (quantiles quantile)) ∧
      ∀ dimension, OrderedQuantiles (minimum dimension) (maximum dimension) fun quantile =>
        quantiles quantile dimension

section Merge

variable {target source : LerobotFeatureStats ℝ} {minimum maximum minimum' maximum' : Fin width → ℝ}

/-- The extremes of two parts. -/
theorem ReportsExtremes.merge (h : ReportsExtremes target integral minimum maximum)
    (h' : ReportsExtremes source integral minimum' maximum') :
    ReportsExtremes (mergeFields .exact target source integral) integral
      (fun dimension => min (minimum dimension) (minimum' dimension))
      fun dimension => max (maximum dimension) (maximum' dimension) := by
  cases h with
  | floating hmin hmax hintegerMin hintegerMax =>
      cases h' with
      | floating hmin' hmax' hintegerMin' hintegerMax' =>
          refine .floating ?_ ?_ hintegerMin hintegerMax
          · change List.zipWith min target.min source.min = _
            rw [hmin, hmin', zipWith_ofFn]
            simp only [WithTop.coe_min]
          · change List.zipWith max target.max source.max = _
            rw [hmax, hmax', zipWith_ofFn]
            simp only [WithBot.coe_max]
  | integral hmin hmax hintegerMin hintegerMax =>
      cases h' with
      | integral hmin' hmax' hintegerMin' hintegerMax' =>
          simp only [← Int.cast_min, ← Int.cast_max]
          refine .integral hmin hmax ?_ ?_
          · change List.zipWith Value.keepLess source.integerMin target.integerMin = _
            rw [hintegerMin, hintegerMin', zipWith_ofFn]
            simp only [keepLess_integer]
          · change List.zipWith Value.keepGreater source.integerMax target.integerMax = _
            rw [hintegerMax, hintegerMax', zipWith_ofFn]
            simp only [keepGreater_integer]

/-- The widths that `MergeStats` compares. -/
theorem ReportsExtremes.hasWidth (h : ReportsExtremes target integral minimum maximum)
    (hmean : target.mean.length = width) :
    (integral = true → target.hasIntegerWidth = true) ∧
      (integral = false → target.hasFloatingWidth = true) := by
  cases h with
  | floating hmin hmax hintegerMin hintegerMax =>
      refine ⟨fun hfalse => absurd hfalse Bool.false_ne_true, fun _ => ?_⟩
      simp [LerobotFeatureStats.hasFloatingWidth, hmin, hmax, hintegerMin, hintegerMax, hmean]
  | integral hmin hmax hintegerMin hintegerMax =>
      refine ⟨fun _ => ?_, fun hfalse => absurd hfalse.symm Bool.false_ne_true⟩
      simp [LerobotFeatureStats.hasIntegerWidth, hmin, hmax, hintegerMin, hintegerMax, hmean]

/-- **`MergeStats` keeps the order in all dimensions.** -/
theorem OrderedStats.mergeStats (h : OrderedStats integral width target)
    (h' : OrderedStats integral width source) :
    ∃ merged, mergeStats .exact target source integral = .ok merged ∧
      OrderedStats integral width merged := by
  rw [Copy.mergeStats]
  by_cases hcount : target.count = 0
  · rw [if_pos hcount]
    exact ⟨source, rfl, h'⟩
  · obtain ⟨minimum, maximum, quantiles, hextremes, hquantiles, hordered⟩ := h.ordered
    obtain ⟨minimum', maximum', quantiles', hextremes', hquantiles', hordered'⟩ := h'.ordered
    obtain ⟨hinteger, hfloating⟩ := hextremes.hasWidth h.mean_length
    obtain ⟨hinteger', hfloating'⟩ := hextremes'.hasWidth h'.mean_length
    refine ⟨mergeFields .exact target source integral, ?_, ?_, ?_⟩
    · rw [if_neg hcount, if_neg (by rw [h.mean_length, h'.mean_length]; simp)]
      cases integral with
      | false => simp [hfloating, hfloating']
      | true => simp [hinteger, hinteger']
    · change (List.zipWith _ target.mean source.mean).length = width
      rw [List.length_zipWith, h.mean_length, h'.mean_length, min_self]
    · refine ⟨_, _, fun quantile dimension => mergeQuantile quantile (quantiles quantile dimension)
        (quantiles' quantile dimension), hextremes.merge hextremes', ?_, ?_⟩
      · intro quantile
        change List.zipWith _ (target.quantiles quantile) (source.quantiles quantile) = _
        rw [hquantiles, hquantiles', zipWith_ofFn]
      · exact fun dimension => (hordered dimension).merge (hordered' dimension)

end Merge

/-! ## Episodes -/

theorem untopD_minimum_cast {xs : List Int} (h : xs ≠ []) :
    (xs.map fun value : Int => (value : ℝ)).minimum.untopD 0 = (xs.minimum.untopD 0 : Int) := by
  have hne : (xs.map fun value : Int => (value : ℝ)) ≠ [] := mt List.map_eq_nil_iff.mp h
  obtain ⟨hmem, hle⟩ := isLeast_minimum h 0
  refine (isLeast_minimum hne 0).unique ⟨List.mem_map_of_mem hmem, ?_⟩
  rintro _ hx
  obtain ⟨value, hvalue, rfl⟩ := List.mem_map.mp hx
  exact Int.cast_le.mpr (hle hvalue)

theorem unbotD_maximum_cast {xs : List Int} (h : xs ≠ []) :
    (xs.map fun value : Int => (value : ℝ)).maximum.unbotD 0 = (xs.maximum.unbotD 0 : Int) := by
  have hne : (xs.map fun value : Int => (value : ℝ)) ≠ [] := mt List.map_eq_nil_iff.mp h
  obtain ⟨hmem, hge⟩ := isGreatest_maximum h 0
  refine (isGreatest_maximum hne 0).unique ⟨List.mem_map_of_mem hmem, ?_⟩
  rintro _ hx
  obtain ⟨value, hvalue, rfl⟩ := List.mem_map.mp hx
  exact Int.cast_le.mpr (hge hvalue)

/-- An episode of a feature: the rows that a reader delivers for its statistics. -/
structure StatsEpisode (integral : Bool) (width : Nat) where
  reader : LerobotStatsRowReader ℝ
  rows : List (Fin width → Value ℝ)
  passOver : PassOver reader integral rows
  rows_ne_nil : rows ≠ []
  rows_length_le : (rows.length : Int) ≤ int64Maximum
  useFloat32 : Bool
  outputCount : Nat
  outputCount_ne_zero : outputCount ≠ 0

namespace StatsEpisode

/-- The statistics of the episode. -/
noncomputable def stats (episode : StatsEpisode integral width) :
    Except StatsException (LerobotFeatureStats ℝ) :=
  computeStatsTyped .exact id episode.reader width episode.outputCount episode.useFloat32 integral

/-- The edges of the histograms of a batch. -/
noncomputable def edges (episode : StatsEpisode integral width) (batch : DimensionBatch width)
    (dimension : Fin batch.size) : List ℝ :=
  histogramEdges id ((column episode.rows (batch.index dimension)).minimum.untopD 0)
    ((column episode.rows (batch.index dimension)).maximum.unbotD 0)

variable (episode : StatsEpisode integral width)

theorem column_ne_nil (dimension : Fin width) : column episode.rows dimension ≠ [] :=
  mt List.map_eq_nil_iff.mp episode.rows_ne_nil

/-- **The histograms count each row once.** -/
theorem sum_buildHistogram (batch : DimensionBatch width) :
    ∃ counts, buildHistogram (exactPass episode.reader batch) (episode.edges batch) = .ok counts ∧
      ∀ dimension, (counts dimension).sum = episode.rows.length := by
  have hcounts : buildHistogram (exactPass episode.reader batch) (episode.edges batch) = _ :=
    buildHistogram_eq episode.passOver.delivers.deliversRows _
  refine ⟨_, hcounts, ?_⟩
  intro dimension
  rw [← length_column episode.rows (batch.index dimension)]
  exact sum_histogramCounts (episode.column_ne_nil (batch.index dimension))

/-- The numbers of integers. -/
theorem column_eq_integers (hintegral : integral = true) (dimension : Fin width) :
    column episode.rows dimension =
      (integers episode.rows dimension).map fun value : Int => (value : ℝ) := by
  rw [column, integers, List.map_map]
  apply List.map_congr_left
  intro row hrow
  rw [episode.passOver.integers hintegral row hrow dimension]
  rfl

/-- The extremes that are reported. -/
theorem reportsExtremes {whole : BatchStats ℝ width} {stats : LerobotFeatureStats ℝ}
    (hdescribes : DescribesWhole integral episode.rows whole episode.outputCount stats)
    (hrows : DescribesBatch (.all width) episode.rows whole) :
    ReportsExtremes stats integral
      (fun dimension => (column episode.rows dimension).minimum.untopD 0)
      fun dimension => (column episode.rows dimension).maximum.unbotD 0 := by
  cases integral with
  | false =>
      refine .floating ?_ ?_ hdescribes.integerMin_eq hdescribes.integerMax_eq
      · rw [hdescribes.min_eq, hrows.min_eq, if_neg Bool.false_ne_true]
        refine congrArg List.ofFn (funext fun dimension => ?_)
        obtain ⟨minimum, hminimum⟩ := exists_minimum (episode.column_ne_nil dimension)
        rw [DimensionBatch.all_index, hminimum]
        rfl
      · rw [hdescribes.max_eq, hrows.max_eq, if_neg Bool.false_ne_true]
        refine congrArg List.ofFn (funext fun dimension => ?_)
        obtain ⟨maximum, hmaximum⟩ := exists_maximum (episode.column_ne_nil dimension)
        rw [DimensionBatch.all_index, hmaximum]
        rfl
  | true =>
      have hne : ∀ dimension, integers episode.rows dimension ≠ [] :=
        fun _ => mt List.map_eq_nil_iff.mp episode.rows_ne_nil
      simp only [episode.column_eq_integers rfl, untopD_minimum_cast (hne _),
        unbotD_maximum_cast (hne _)]
      refine .integral hdescribes.min_eq hdescribes.max_eq ?_ ?_
      · rw [hdescribes.integerMin_eq, if_pos rfl, exactExtremaOf_of_ne_nil episode.rows_ne_nil]
      · rw [hdescribes.integerMax_eq, if_pos rfl, exactExtremaOf_of_ne_nil episode.rows_ne_nil]

/-- **The quantiles of an episode** are placed correctly when it has several rows, and are ordered. -/
theorem exists_stats :
    ∃ stats, episode.stats = .ok stats ∧ OrderedStats integral width stats ∧
      (2 ≤ episode.rows.length → ∀ quantile (dimension : Fin width), ∃ v,
        (stats.quantiles quantile)[(dimension : Nat)]? = some v ∧
          Placed (columnEdges id (column episode.rows dimension)) (column episode.rows dimension)
            quantile.fraction v) := by
  obtain ⟨whole, stats, hwhole, hstats, hdescribes⟩ :=
    computeStatsTyped_whole id episode.passOver.rowsOf episode.rows_ne_nil episode.rows_length_le
      episode.outputCount_ne_zero episode.useFloat32
  obtain ⟨batch, hbatch, hrows⟩ :=
    passStats_eq (.all width) episode.passOver episode.rows_ne_nil episode.useFloat32
  obtain rfl : whole = batch := (Prod.mk.inj (Except.ok.inj (hwhole.symm.trans hbatch))).1
  have hmean : stats.mean.length = width := by rw [hdescribes.mean_eq, List.length_ofFn]
  have hextremes := episode.reportsExtremes hdescribes hrows
  have hquantiles := hdescribes.quantiles_eq
  by_cases hone : episode.rows.length = 1
  · obtain ⟨row, hrow⟩ := List.length_eq_one_iff.mp hone
    have hpass := episode.passOver
    rw [hrow] at hpass hbatch
    have hsingle := passStats_singleton (.all width) hpass episode.useFloat32
    obtain rfl := (Prod.mk.inj (Except.ok.inj (hbatch.symm.trans hsingle))).1
    refine ⟨stats, hstats, ⟨hmean, _, _, _, hextremes, hquantiles, ?_⟩, ?_⟩
    · intro dimension
      have hcolumn : column episode.rows dimension = [(row dimension).number] := by
        rw [hrow]
        rfl
      have hvalues : rowNumbers (.all width) row dimension = (row dimension).number :=
        congrArg (fun d => (row d).number) (DimensionBatch.all_index dimension)
      simp only [hcolumn]
      exact hvalues ▸ OrderedQuantiles.single _
    · intro htwo
      omega
  · have hmany := passStats_of_length_ne_one (.all width) episode.passOver hone episode.useFloat32
    obtain rfl := (Prod.mk.inj (Except.ok.inj (hbatch.symm.trans hmany))).1
    have hcolumn : ∀ quantile dimension,
        ((exactPass episode.reader (.all width)).statsOf episode.useFloat32 episode.rows
          (.ofRows (episode.rows.map (rowNumbers (.all width))))).quantile quantile dimension =
            (columnQuantile .exact id episode.useFloat32 (column episode.rows dimension)
              quantile).1 := by
      intro quantile dimension
      conv_rhs => rw [← DimensionBatch.all_index dimension]
      rfl
    refine ⟨stats, hstats, ⟨hmean, _, _, _, hextremes, hquantiles, ?_⟩, ?_⟩
    · intro dimension
      simp only [hcolumn]
      exact columnQuantile_ordered (episode.column_ne_nil dimension) episode.useFloat32
    · intro _ quantile dimension
      refine ⟨_, ?_, columnQuantile_placed (episode.column_ne_nil dimension) episode.useFloat32
        quantile⟩
      rw [hquantiles, ← hcolumn]
      simp

end StatsEpisode

/-- The statistics of the dataset after some episodes. -/
noncomputable def mergeEpisodes (episodes : List (StatsEpisode integral width)) :
    Except StatsException (LerobotFeatureStats ℝ) :=
  episodes.foldlM (fun stats episode => episode.stats >>= fun episodeStats =>
    mergeStats .exact stats episodeStats integral) {}

/-- Any sequence of episodes. -/
theorem mergeEpisodes_ordered (episodes : List (StatsEpisode integral width)) (hne : episodes ≠ []) :
    ∃ stats, mergeEpisodes episodes = .ok stats ∧ OrderedStats integral width stats := by
  obtain ⟨stats, hstats, -, hordered⟩ := foldlM_total (l := episodes)
    (f := fun stats episode => episode.stats >>= fun episodeStats =>
      mergeStats .exact stats episodeStats integral)
    (b := ({} : LerobotFeatureStats ℝ))
    (I := fun seen stats => (seen = [] → stats = {}) ∧
      (seen ≠ [] → OrderedStats integral width stats))
    ⟨fun _ => rfl, fun hnil => absurd rfl hnil⟩ (by
      rintro seen episode rest stats - ⟨hempty, hfull⟩
      obtain ⟨episodeStats, hepisode, hordered, -⟩ := episode.exists_stats
      rw [hepisode]
      by_cases hseen : seen = []
      · -- the first statistics are copied
        rw [hempty hseen]
        exact ⟨episodeStats, rfl, fun hnil => absurd hnil (by simp), fun _ => hordered⟩
      · obtain ⟨merged, hmerged, hmergedOrdered⟩ := (hfull hseen).mergeStats hordered
        exact ⟨merged, hmerged, fun hnil => absurd hnil (by simp), fun _ => hmergedOrdered⟩)
  exact ⟨stats, hstats, hordered hne⟩

/-- **Histogram quantiles are placed correctly and stay ordered.** In each episode the histograms count
every row once, and a quantile of several rows is in the closed bin of the order statistic with its
rank. The quantiles are ordered and between the extremes, in each episode and after merging all. -/
theorem histogramQuantiles_ordered (episodes : List (StatsEpisode integral width))
    (hne : episodes ≠ []) :
    (∀ episode ∈ episodes,
      (∀ batch : DimensionBatch width, ∃ counts,
        buildHistogram (exactPass episode.reader batch) (episode.edges batch) = .ok counts ∧
          ∀ dimension, (counts dimension).sum = episode.rows.length) ∧
      ∃ stats, episode.stats = .ok stats ∧ OrderedStats integral width stats ∧
        (2 ≤ episode.rows.length → ∀ quantile (dimension : Fin width), ∃ v,
          (stats.quantiles quantile)[(dimension : Nat)]? = some v ∧
            Placed (columnEdges id (column episode.rows dimension)) (column episode.rows dimension)
              quantile.fraction v)) ∧
      ∃ merged, mergeEpisodes episodes = .ok merged ∧ OrderedStats integral width merged := by
  refine ⟨fun episode _ => ⟨episode.sum_buildHistogram, episode.exists_stats⟩, ?_⟩
  exact mergeEpisodes_ordered episodes hne

/-! ## The dataset -/

section Dataset

variable {feature : LerobotFeature} {fps : Nat}

/-- The episode of a numeric feature. -/
noncomputable def Episode.statsEpisode (h : NumericFeature feature width)
    (episode : Episode feature width fps) : StatsEpisode feature.hasIntegers width where
  reader := lerobotCollectionStatsReader .exact episode.currentData feature width fps
  rows := episode.rows
  passOver := episode.passOver h
  rows_ne_nil := episode.rows_ne_nil
  rows_length_le := episode.rows_length_le
  useFloat32 := usesFloat32Statistics feature
  outputCount := episode.currentData.length
  outputCount_ne_zero := by
    have hlength : episode.currentData.length = episode.rows.length := episode.delivers.count_eq
    rw [hlength]
    exact mt List.length_eq_zero_iff.mp episode.rows_ne_nil

theorem Episode.computeEpisodeStats_eq (h : NumericFeature feature width)
    (episode : Episode feature width fps) :
    computeEpisodeStats .exact feature fps episode.currentData = (episode.statsEpisode h).stats := by
  rw [computeEpisodeStats, h.width_eq]
  change computeStats _ _ _ _ _ = _
  rw [computeStats, h.hasIntegerExtrema_eq]
  change (if usesFloat32Statistics feature then _ else _) = _
  rw [StatsEpisode.stats]
  change _ = computeStatsTyped _ _ _ _ _ (usesFloat32Statistics feature) _
  cases usesFloat32Statistics feature <;> rfl

/-- The dataset merges the statistics of its episodes. -/
theorem datasetStats_eq_mergeEpisodes (h : NumericFeature feature width)
    (episodes : List (Episode feature width fps)) :
    datasetStats .exact feature fps (episodes.map Episode.currentData) =
      mergeEpisodes (episodes.map (Episode.statsEpisode h)) := by
  rw [datasetStats, mergeEpisodes, List.foldlM_map, List.foldlM_map]
  congr 1
  funext stats episode
  have hlength : episode.currentData.length ≠ 0 := (episode.statsEpisode h).outputCount_ne_zero
  rw [finishEpisode, if_neg hlength, episode.computeEpisodeStats_eq h]
  congr 1
  funext episodeStats
  rw [h.hasIntegerExtrema_eq]
  rfl

/-- The quantiles of the dataset are ordered. -/
theorem datasetStats_ordered (h : NumericFeature feature width)
    (episodes : List (Episode feature width fps)) (hne : episodes ≠ []) :
    ∃ stats, datasetStats .exact feature fps (episodes.map Episode.currentData) = .ok stats ∧
      OrderedStats feature.hasIntegers width stats := by
  rw [datasetStats_eq_mergeEpisodes h]
  exact mergeEpisodes_ordered _ (mt List.map_eq_nil_iff.mp hne)

end Dataset

/-- An episode with one number in each row. -/
noncomputable def numbersEpisode (numbers : List ℝ) (hne : numbers ≠ [])
    (hlength : (numbers.length : Int) ≤ int64Maximum) : StatsEpisode false 1 where
  reader := listReader (numbers.map fun number _ => .floating (some number))
  rows := numbers.map fun number _ => .floating (some number)
  passOver :=
    { width_pos := Nat.one_pos
      delivers :=
        { count_eq := rfl
          next_eq := by
            intro position h
            simp only [List.length_map] at h
            simp [listReader, h]
          finite := by simp [Value.toDouble] }
      integers := fun hfalse => absurd hfalse Bool.false_ne_true }
  rows_ne_nil := by simpa using hne
  rows_length_le := by simpa using hlength
  useFloat32 := false
  outputCount := 1
  outputCount_ne_zero := Nat.one_ne_zero

/-- An episode with one row after an episode with three. -/
theorem numbersEpisodes_ordered :
    ∃ merged, mergeEpisodes [numbersEpisode [3, 1, 2] (by simp) (by decide),
        numbersEpisode [5] (by simp) (by decide)] = .ok merged ∧ OrderedStats false 1 merged :=
  (histogramQuantiles_ordered [numbersEpisode [3, 1, 2] (by simp) (by decide),
    numbersEpisode [5] (by simp) (by decide)] (List.cons_ne_nil _ _)).2

end DuckdbLerobot.Copy
