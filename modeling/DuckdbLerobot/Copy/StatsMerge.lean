import DuckdbLerobot.Copy.ColumnStats
import DuckdbLerobot.Copy.StatsPasses

/-!
# The statistics of the dataset

The statistics of the episodes are merged one after the other. In exact arithmetic the result is the
statistics of all rows (`datasetStats_describe`), so that it does not depend on the episodes which the
rows are divided into.
-/

set_option autoImplicit false

namespace DuckdbLerobot.Copy

open DuckdbLerobot.Library DuckdbLerobot.Path DuckdbLerobot.Storage

variable {width : Nat}

/-- The statistics are those of the given rows: the mean and the standard deviation of the population in
each dimension, and the extremes. A feature with integer extrema has no floating ones. -/
structure DescribesRows (integral : Bool) (rows : List (Fin width → Value ℝ))
    (stats : LerobotFeatureStats ℝ) : Prop where
  count_eq : stats.count = rows.length
  mean_eq : stats.mean = List.ofFn fun dimension => mean (column rows dimension)
  stddev_eq : stats.stddev = List.ofFn fun dimension => √(variance (column rows dimension))
  min_eq : stats.min =
    if integral then [] else List.ofFn fun dimension => (column rows dimension).minimum
  max_eq : stats.max =
    if integral then [] else List.ofFn fun dimension => (column rows dimension).maximum
  integerMin_eq : stats.integerMin = if integral then (exactExtremaOf rows).minimum else []
  integerMax_eq : stats.integerMax = if integral then (exactExtremaOf rows).maximum else []
  quantiles_length : ∀ quantile, (stats.quantiles quantile).length = width

/-! ## One episode -/

section Batches

variable {integral : Bool} {rows : List (Fin width → Value ℝ)} {reader : LerobotStatsRowReader ℝ}

/-- **The statistics of an episode.** -/
theorem computeStatsTyped_eq (h : PassOver reader integral rows) (hne : rows ≠ [])
    (hcount : (rows.length : Int) ≤ int64Maximum) (useFloat32 : Bool) :
    ∃ stats, computeStatsTyped .exact id reader width rows.length useFloat32 integral = .ok stats ∧
      DescribesRows integral rows stats := by
  have hlength : rows.length ≠ 0 := mt List.length_eq_zero_iff.mp hne
  obtain ⟨whole, stats, hwhole, hstats, hdescribes⟩ :=
    computeStatsTyped_whole id h.rowsOf hne hcount hlength useFloat32
  obtain ⟨batch, hbatch, hrows⟩ := passStats_eq (.all width) h hne useFloat32
  obtain rfl : whole = batch := (Prod.mk.inj (Except.ok.inj (hwhole.symm.trans hbatch))).1
  refine ⟨stats, hstats, ?_⟩
  constructor
  · exact hdescribes.count_eq
  · rw [hdescribes.mean_eq, hrows.mean_eq]
    simp only [DimensionBatch.all_index]
  · rw [hdescribes.stddev_eq, hrows.stddev_eq]
    simp only [DimensionBatch.all_index]
  · rw [hdescribes.min_eq, hrows.min_eq]
    simp only [DimensionBatch.all_index]
  · rw [hdescribes.max_eq, hrows.max_eq]
    simp only [DimensionBatch.all_index]
  · exact hdescribes.integerMin_eq
  · exact hdescribes.integerMax_eq
  · intro quantile
    rw [hdescribes.quantiles_eq, List.length_ofFn]

end Batches

/-! ## Two populations -/

section Merge

variable {integral : Bool} {xs ys : List (Fin width → Value ℝ)}
  {target source : LerobotFeatureStats ℝ}

theorem momentsVariance_exact (moments : Moments ℝ) (isFloat32 : Bool) :
    moments.variance .exact isFloat32 = moments.stddev * moments.stddev := by
  cases isFloat32 <;> rfl

/-- The merged mean is the mean of both populations. -/
theorem mergeMean_eq (population other : List ℝ) :
    mergeMean .exact population.length other.length (mean population) (mean other) =
      mean (population ++ other) :=
  (mean_append population other).symm

/-- The merged standard deviation is the one of both populations. -/
theorem mergeStddev_eq (targetIsFloat32 sourceIsFloat32 : Bool) (population other : List ℝ) :
    mergeStddev .exact population.length other.length targetIsFloat32 sourceIsFloat32
      ⟨mean population, √(variance population)⟩ ⟨mean other, √(variance other)⟩ =
        √(variance (population ++ other)) := by
  simp only [mergeStddev, mergeMean_eq, momentsVariance_exact]
  rw [Real.mul_self_sqrt (variance_nonneg population), Real.mul_self_sqrt (variance_nonneg other)]
  have hvariance := variance_append population other
  simp only [pow_two] at hvariance
  change √(max 0 (((variance population + _) * _ + (variance other + _) * _) / _)) = _
  rw [← max_eq_right (variance_nonneg (population ++ other)), hvariance]
  rfl

theorem DescribesRows.moments_eq (h : DescribesRows integral xs target) :
    target.moments = List.ofFn fun dimension =>
      ⟨mean (column xs dimension), √(variance (column xs dimension))⟩ := by
  rw [LerobotFeatureStats.moments, h.mean_eq, h.stddev_eq, zipWith_ofFn]

theorem mergeQuantile_length (quantile : Quantile) (left right : List ℝ)
    (hlength : left.length = right.length) :
    (List.zipWith (mergeQuantile quantile) left right).length = left.length := by
  rw [List.length_zipWith, hlength, min_self]

/-- Merging two vectors of integer extrema. -/
theorem exactExtremaOf_append (hxs : xs ≠ []) (hys : ys ≠ []) :
    List.zipWith Value.keepLess (exactExtremaOf ys).minimum (exactExtremaOf xs).minimum =
        (exactExtremaOf (xs ++ ys)).minimum ∧
      List.zipWith Value.keepGreater (exactExtremaOf ys).maximum (exactExtremaOf xs).maximum =
        (exactExtremaOf (xs ++ ys)).maximum := by
  have hleft : ∀ dimension, integers xs dimension ≠ [] := fun _ => mt List.map_eq_nil_iff.mp hxs
  have hright : ∀ dimension, integers ys dimension ≠ [] := fun _ => mt List.map_eq_nil_iff.mp hys
  rw [exactExtremaOf_of_ne_nil hxs, exactExtremaOf_of_ne_nil hys,
    exactExtremaOf_of_ne_nil (List.append_ne_nil_of_left_ne_nil hxs ys)]
  constructor
  · simp only [zipWith_ofFn, keepLess_integer, integers_append,
      untopD_minimum_append (hleft _) (hright _)]
  · simp only [zipWith_ofFn, keepGreater_integer, integers_append,
      unbotD_maximum_append (hleft _) (hright _)]

theorem DescribesRows.mergeFields (htarget : DescribesRows integral xs target)
    (hsource : DescribesRows integral ys source) (hxs : xs ≠ []) (hys : ys ≠ []) :
    DescribesRows integral (xs ++ ys) (mergeFields .exact target source integral) where
  count_eq := by
    rw [List.length_append, Nat.cast_add, ← htarget.count_eq, ← hsource.count_eq]
    rfl
  mean_eq := by
    rw [Copy.mergeFields, htarget.mean_eq, hsource.mean_eq, zipWith_ofFn]
    refine congrArg List.ofFn (funext fun dimension => ?_)
    rw [column_append, ← mergeMean_eq, htarget.count_eq, hsource.count_eq]
    simp [StatsArithmetic.exact]
  stddev_eq := by
    rw [Copy.mergeFields, htarget.moments_eq, hsource.moments_eq, zipWith_ofFn]
    refine congrArg List.ofFn (funext fun dimension => ?_)
    rw [column_append, ← mergeStddev_eq target.stddevIsFloat32 source.stddevIsFloat32,
      htarget.count_eq, hsource.count_eq]
    simp [StatsArithmetic.exact]
  min_eq := by
    rw [Copy.mergeFields, htarget.min_eq, hsource.min_eq]
    cases integral with
    | false =>
        simp only [Bool.false_eq_true, if_false, zipWith_ofFn, column_append, minimum_append]
    | true => rfl
  max_eq := by
    rw [Copy.mergeFields, htarget.max_eq, hsource.max_eq]
    cases integral with
    | false =>
        simp only [Bool.false_eq_true, if_false, zipWith_ofFn, column_append, maximum_append]
    | true => rfl
  integerMin_eq := by
    rw [Copy.mergeFields, htarget.integerMin_eq, hsource.integerMin_eq]
    cases integral with
    | false => rfl
    | true => exact (exactExtremaOf_append hxs hys).1
  integerMax_eq := by
    rw [Copy.mergeFields, htarget.integerMax_eq, hsource.integerMax_eq]
    cases integral with
    | false => rfl
    | true => exact (exactExtremaOf_append hxs hys).2
  quantiles_length quantile := by
    have hleft := htarget.quantiles_length quantile
    have hright := hsource.quantiles_length quantile
    exact (mergeQuantile_length quantile _ _ (hleft.trans hright.symm)).trans hleft

/-- The widths that `MergeStats` compares. -/
theorem DescribesRows.hasWidth (h : DescribesRows integral xs target) (hxs : xs ≠ []) :
    target.mean.length = width ∧ (integral = true → target.hasIntegerWidth = true) ∧
      (integral = false → target.hasFloatingWidth = true) := by
  have hmean : target.mean.length = width := by rw [h.mean_eq, List.length_ofFn]
  refine ⟨hmean, ?_, ?_⟩
  · rintro rfl
    have hmin := h.integerMin_eq
    have hmax := h.integerMax_eq
    rw [if_pos rfl, exactExtremaOf_of_ne_nil hxs] at hmin hmax
    rw [LerobotFeatureStats.hasIntegerWidth, h.min_eq, h.max_eq, hmin, hmax, hmean]
    simp
  · rintro rfl
    rw [LerobotFeatureStats.hasFloatingWidth, h.min_eq, h.max_eq, h.integerMin_eq, h.integerMax_eq,
      hmean]
    simp

/-- **Merging the statistics of two parts.** -/
theorem mergeStats_eq (htarget : DescribesRows integral xs target)
    (hsource : DescribesRows integral ys source) (hxs : xs ≠ []) (hys : ys ≠ []) :
    ∃ merged, mergeStats .exact target source integral = .ok merged ∧
      DescribesRows integral (xs ++ ys) merged := by
  refine ⟨_, ?_, htarget.mergeFields hsource hxs hys⟩
  have hcount : target.count ≠ 0 := by
    rw [htarget.count_eq]
    exact Nat.cast_ne_zero.mpr (mt List.length_eq_zero_iff.mp hxs)
  obtain ⟨htargetMean, htargetInteger, htargetFloating⟩ := htarget.hasWidth hxs
  obtain ⟨hsourceMean, hsourceInteger, hsourceFloating⟩ := hsource.hasWidth hys
  rw [mergeStats, if_neg hcount, if_neg (by rw [htargetMean, hsourceMean]; simp)]
  cases integral with
  | false => simp [htargetFloating, hsourceFloating]
  | true => simp [htargetInteger, hsourceInteger]

end Merge

/-! ## The dataset -/

/-- A numeric feature that a bind has accepted, and its width. -/
structure NumericFeature (feature : LerobotFeature) (width : Nat) : Prop where
  wellFormed : feature.WellFormed
  not_visual : isVisual feature.dtype = false
  not_string : feature.isString = false
  width_eq : shapeWidth feature.shape = .ok width

/-- The values of a column of a numeric type. -/
def Value.HasType {α : Type} (type : LogicalType) : Value α → Prop
  | .boolean _ => type = .boolean
  | .integer _ => isIntegral type = true
  | .floating _ => type = .float ∨ type = .double

/-- The type of the numbers of a feature is an integral one. -/
def LerobotFeature.hasIntegers (feature : LerobotFeature) : Bool :=
  match lerobotDtypeToLogicalType feature.dtype with
  | .ok type => isIntegral type
  | .error _ => false

/-- The rows of an episode that the statistics accept: there is one, and each value is finite. -/
structure Episode (feature : LerobotFeature) (width fps : Nat) where
  currentData : List (Cell ℝ)
  rows : List (Fin width → Value ℝ)
  rows_ne_nil : rows ≠ []
  rows_length_le : (rows.length : Int) ≤ int64Maximum
  delivers : Delivers (lerobotCollectionStatsReader .exact currentData feature width fps) rows
  typed : ∀ type, lerobotDtypeToLogicalType feature.dtype = .ok type →
    ∀ row ∈ rows, ∀ dimension, (row dimension).HasType type

section Dataset

variable {feature : LerobotFeature} {fps : Nat}

theorem shapeWidth_pos {shape : List Nat} (h : shapeWidth shape = .ok width) : 0 < width := by
  apply foldlM_ok (I := fun _ width => 0 < width) h Nat.one_pos
  intro seen dimension rest width result _ hwidth hround
  rw [except_check_eq_ok, not_or] at hround
  obtain ⟨⟨hdimension, -⟩, hok⟩ := hround
  cases hok
  exact Nat.mul_pos hwidth (Nat.pos_of_ne_zero hdimension)

theorem NumericFeature.exists_type (h : NumericFeature feature width) :
    ∃ type, lerobotDtypeToLogicalType feature.dtype = .ok type := by
  have hstorage := h.wellFormed.storage_eq
  rw [lerobotFeatureStorageType, h.not_visual, if_neg Bool.false_ne_true, except_map_eq_ok]
    at hstorage
  obtain ⟨type, htype, -⟩ := hstorage
  exact ⟨type, htype⟩

theorem NumericFeature.hasIntegerExtrema_eq (h : NumericFeature feature width) :
    hasIntegerExtrema feature = .ok feature.hasIntegers := by
  obtain ⟨type, htype⟩ := h.exists_type
  have hstring : (feature.dtype == "string") = false := by
    rw [← h.wellFormed.isString_eq, h.not_string]
  rw [hasIntegerExtrema, lerobotHasIntegerExtrema, h.not_visual, hstring, htype,
    LerobotFeature.hasIntegers, htype]
  rfl

/-- The values of an integral type are integers. -/
theorem Value.HasType.integer {α : Type} {type : LogicalType} {value : Value α}
    (h : value.HasType type) (htype : isIntegral type = true) :
    value = .integer value.asInteger := by
  cases value with
  | integer value => rfl
  | boolean value =>
      have heq : type = .boolean := h
      rw [heq] at htype
      cases htype
  | floating value =>
      rcases (h : type = .float ∨ type = .double) with heq | heq <;> rw [heq] at htype <;> cases htype

theorem Episode.passOver (h : NumericFeature feature width) (episode : Episode feature width fps) :
    PassOver (lerobotCollectionStatsReader .exact episode.currentData feature width fps)
      feature.hasIntegers episode.rows where
  width_pos := shapeWidth_pos h.width_eq
  delivers := episode.delivers
  integers := by
    intro hintegers row hrow dimension
    obtain ⟨type, htype⟩ := h.exists_type
    rw [LerobotFeature.hasIntegers, htype] at hintegers
    exact (episode.typed type htype row hrow dimension).integer hintegers

/-- The statistics of one episode. -/
theorem computeEpisodeStats_eq (h : NumericFeature feature width)
    (episode : Episode feature width fps) :
    ∃ stats, computeEpisodeStats .exact feature fps episode.currentData = .ok stats ∧
      DescribesRows feature.hasIntegers episode.rows stats := by
  have hlength : episode.currentData.length = episode.rows.length := episode.delivers.count_eq
  have hstats := computeStatsTyped_eq (episode.passOver h) episode.rows_ne_nil
    episode.rows_length_le
  rw [computeEpisodeStats, h.width_eq, hlength]
  change ∃ stats, computeStats _ _ _ _ _ = _ ∧ _
  rw [computeStats, h.hasIntegerExtrema_eq]
  change ∃ stats, (if usesFloat32Statistics feature then _ else _) = _ ∧ _
  split
  · exact hstats true
  · exact hstats false

/-- One episode more. -/
theorem finishEpisode_eq (h : NumericFeature feature width) (episode : Episode feature width fps)
    (stats : LerobotFeatureStats ℝ) :
    ∃ episodeStats, DescribesRows feature.hasIntegers episode.rows episodeStats ∧
      finishEpisode .exact feature fps stats episode.currentData =
        mergeStats .exact stats episodeStats feature.hasIntegers := by
  obtain ⟨episodeStats, hok, hdescribes⟩ := computeEpisodeStats_eq h episode
  have hlength : episode.currentData.length = episode.rows.length := episode.delivers.count_eq
  refine ⟨episodeStats, hdescribes, ?_⟩
  rw [finishEpisode, if_neg (by simpa [hlength] using episode.rows_ne_nil), hok]
  change hasIntegerExtrema feature >>= _ = _
  rw [h.hasIntegerExtrema_eq]
  rfl

/-- The loop over the episodes. -/
theorem finishEpisodes_describe (h : NumericFeature feature width)
    (episodes : List (Episode feature width fps)) (hne : episodes ≠ []) :
    ∃ stats, datasetStats .exact feature fps (episodes.map Episode.currentData) = .ok stats ∧
      DescribesRows feature.hasIntegers (episodes.flatMap Episode.rows) stats := by
  rw [datasetStats, List.foldlM_map]
  obtain ⟨stats, hstats, hinit, hdescribes⟩ := foldlM_total (l := episodes)
    (f := fun stats episode => finishEpisode .exact feature fps stats episode.currentData)
    (b := ({} : LerobotFeatureStats ℝ))
    (I := fun seen stats => (seen = [] → stats = {}) ∧ (seen ≠ [] →
      DescribesRows feature.hasIntegers (seen.flatMap Episode.rows) stats))
    ⟨fun _ => rfl, fun hnil => absurd rfl hnil⟩ (by
      rintro seen episode rest stats - ⟨hempty, hfull⟩
      obtain ⟨episodeStats, hdescribes, hfinish⟩ := finishEpisode_eq h episode stats
      rw [hfinish, List.flatMap_append, List.flatMap_singleton]
      by_cases hseen : seen = []
      · -- the first statistics are copied
        rw [hempty hseen, hseen]
        exact ⟨episodeStats, rfl, fun hnil => absurd hnil (by simp), fun _ => hdescribes⟩
      · have hrows : seen.flatMap Episode.rows ≠ [] := by
          obtain ⟨first, hfirst⟩ := List.exists_mem_of_ne_nil seen hseen
          intro hnil
          exact first.rows_ne_nil (List.flatMap_eq_nil_iff.mp hnil first hfirst)
        obtain ⟨merged, hmerged, hmergedRows⟩ :=
          mergeStats_eq (hfull hseen) hdescribes hrows episode.rows_ne_nil
        exact ⟨merged, hmerged, fun hnil => absurd hnil (by simp), fun _ => hmergedRows⟩)
  exact ⟨stats, hstats, hdescribes hne⟩

/-- The statistics that the rows determine. -/
structure SameStatistics (stats other : LerobotFeatureStats ℝ) : Prop where
  count_eq : stats.count = other.count
  mean_eq : stats.mean = other.mean
  stddev_eq : stats.stddev = other.stddev
  min_eq : stats.min = other.min
  max_eq : stats.max = other.max
  integerMin_eq : stats.integerMin = other.integerMin
  integerMax_eq : stats.integerMax = other.integerMax

theorem DescribesRows.same {integral : Bool} {rows : List (Fin width → Value ℝ)}
    {stats other : LerobotFeatureStats ℝ} (h : DescribesRows integral rows stats)
    (hother : DescribesRows integral rows other) : SameStatistics stats other where
  count_eq := h.count_eq.trans hother.count_eq.symm
  mean_eq := h.mean_eq.trans hother.mean_eq.symm
  stddev_eq := h.stddev_eq.trans hother.stddev_eq.symm
  min_eq := h.min_eq.trans hother.min_eq.symm
  max_eq := h.max_eq.trans hother.max_eq.symm
  integerMin_eq := h.integerMin_eq.trans hother.integerMin_eq.symm
  integerMax_eq := h.integerMax_eq.trans hother.integerMax_eq.symm

/-- **The merged statistics are the statistics of all rows**, and another division of these rows into
episodes has the same ones. -/
theorem datasetStats_describe (h : NumericFeature feature width)
    (episodes : List (Episode feature width fps)) (hne : episodes ≠ []) :
    ∃ stats, datasetStats .exact feature fps (episodes.map Episode.currentData) = .ok stats ∧
      DescribesRows feature.hasIntegers (episodes.flatMap Episode.rows) stats ∧
      ∀ others : List (Episode feature width fps), others ≠ [] →
        others.flatMap Episode.rows = episodes.flatMap Episode.rows →
        ∃ other, datasetStats .exact feature fps (others.map Episode.currentData) = .ok other ∧
          SameStatistics stats other := by
  obtain ⟨stats, hstats, hdescribes⟩ := finishEpisodes_describe h episodes hne
  refine ⟨stats, hstats, hdescribes, ?_⟩
  intro others hothers hrows
  obtain ⟨other, hother, hdescribesOther⟩ := finishEpisodes_describe h others hothers
  rw [hrows] at hdescribesOther
  exact ⟨other, hother, hdescribes.same hdescribesOther⟩

end Dataset

/-- A feature with one integer. -/
def counterFeature : LerobotFeature where
  name := "counter".toList
  dtype := "int64"
  shape := [1]
  storageType := .bigint
  outputType := .bigint

theorem counterFeature_numeric : NumericFeature counterFeature 1 where
  wellFormed := by
    have hparse : parseUserFeatures [⟨"counter".toList, some "int64", some [some 1], false⟩] =
        .ok [counterFeature] := by rfl
    exact (userFeatures_of_parse hparse).each counterFeature List.mem_cons_self
  not_visual := by rfl
  not_string := rfl
  width_eq := by rfl

/-- An episode of this feature. -/
def counterEpisode (counters : List Int) (hne : counters ≠ [])
    (hlength : (counters.length : Int) ≤ int64Maximum) : Episode counterFeature 1 30 where
  currentData := counters.map fun counter => .value (.integer counter)
  rows := counters.map fun counter _ => .integer counter
  rows_ne_nil := by simpa using hne
  rows_length_le := by simpa using hlength
  delivers :=
    { count_eq := by simp [lerobotCollectionStatsReader]
      next_eq := by
        intro position h
        have hget : (counters.map fun counter => (.value (.integer counter) : Cell ℝ))[position]? =
            some (.value (.integer (counters.get ⟨position, by simpa using h⟩))) := by
          simp
        have hgenerated : counterFeature.isGeneratedTimestamp = false := by rfl
        simp only [lerobotCollectionStatsReader, hget, hgenerated, Bool.false_eq_true, if_false,
          appendRow]
        simp [List.ofFn_succ, bind, Except.bind]
      finite := by simp [Value.toDouble] }
  typed := by
    intro type htype row hrow dimension
    obtain ⟨counter, -, rfl⟩ := List.mem_map.mp hrow
    have hbigint : lerobotDtypeToLogicalType counterFeature.dtype = .ok .bigint := by rfl
    cases hbigint.symm.trans htype
    rfl

/-- Two episodes, and all rows in one. -/
theorem counterEpisodes_merged :
    ∃ stats other,
      datasetStats .exact counterFeature 30
        [[.value (.integer 3)], [.value (.integer 5), .value (.integer 10)]] = .ok stats ∧
      datasetStats .exact counterFeature 30
        [[.value (.integer 3), .value (.integer 5), .value (.integer 10)]] = .ok other ∧
      SameStatistics stats other ∧ stats.count = 3 ∧ stats.mean = [6] ∧ stats.stddev = [√(26 / 3)] ∧
      stats.integerMin = [.integer 3] ∧ stats.integerMax = [.integer 10] := by
  let first := counterEpisode [3] (by simp) (by decide)
  let second := counterEpisode [5, 10] (by simp) (by decide)
  let both := counterEpisode [3, 5, 10] (by simp) (by decide)
  obtain ⟨stats, hstats, hdescribes, hothers⟩ :=
    datasetStats_describe counterFeature_numeric [first, second] (by simp)
  obtain ⟨other, hother, hsame⟩ := hothers [both] (by simp) rfl
  have hcolumn : column ([first, second].flatMap Episode.rows) = fun _ => [3, 5, 10] := by
    funext dimension
    simp [column, first, second, counterEpisode, Value.number, Value.toDouble,
      StatsArithmetic.exact]
  refine ⟨stats, other, hstats, hother, hsame, hdescribes.count_eq, ?_, ?_, ?_, ?_⟩
  · rw [hdescribes.mean_eq, hcolumn]
    norm_num [mean]
  · rw [hdescribes.stddev_eq, hcolumn]
    norm_num [variance, mean]
  · rw [hdescribes.integerMin_eq]
    rfl
  · rw [hdescribes.integerMax_eq]
    rfl

end DuckdbLerobot.Copy
