import DuckdbLerobot.Copy.Features
import DuckdbLerobot.Library.SortedRange
import Mathlib.Algebra.Order.Monoid.Unbundled.WithTop

/-!
# The statistics of a feature

COPY computes the statistics of each feature over the rows of an episode, and merges them into those of
the dataset. The sums are built in the order in which NumPy builds them, in batches of dimensions.

A number is an element of a field `α`; `StatsArithmetic` says how it is rounded.
-/

set_option autoImplicit false

namespace DuckdbLerobot.Copy

open DuckdbLerobot.Library DuckdbLerobot.Path DuckdbLerobot.Storage

/-! ## Values -/

/-- The arithmetic of the statistics: the roundings of the types `float` and `double`, and
`std::sqrt`. -/
structure StatsArithmetic (α : Type) where
  float32 : α → α
  double : α → α
  sqrt : α → α

/-- What the statistics can throw. -/
inductive StatsException
  | binder (exception : BinderException)
  | internal (message : String)
  | invalidInput (message : String)
  | io (message : String)
  deriving DecidableEq

/-- A value of a numeric column. A floating one is `none` when it is NaN or infinite. -/
inductive Value (α : Type)
  | boolean (value : Bool)
  | integer (value : Int)
  | floating (value : Option α)

/-- An entry of a column of a numeric type, or of arrays of this type. -/
inductive Cell (α : Type)
  | null
  | value (value : Value α)
  | array (elements : List (Cell α))

mutual

/-- `LerobotNumericStatsVector::AppendRange`, over the elements of an array. -/
def appendRange {α : Type} : List (Cell α) → Except StatsException (List (Value α))
  | [] => .ok []
  | cell :: cells => do
      let values ← appendRow cell
      let rest ← appendRange cells
      .ok (values ++ rest)

/-- `LerobotNumericStatsVector::AppendRow`. -/
def appendRow {α : Type} : Cell α → Except StatsException (List (Value α))
  | .null => .error (.invalidInput "LeRobot feature values must not be NULL")
  | .value value => .ok [value]
  | .array elements => appendRange elements

end

/-- `Value::operator<`, for two values of an integral type. -/
def Value.less {α : Type} : Value α → Value α → Bool
  | .integer a, .integer b => decide (a < b)
  | _, _ => false

/-- The value that a loop over minima keeps. -/
def Value.keepLess {α : Type} (value minimum : Value α) : Value α :=
  if value.less minimum then value else minimum

/-- The value that a loop over maxima keeps. -/
def Value.keepGreater {α : Type} (value maximum : Value α) : Value α :=
  if maximum.less value then value else maximum

/-- `LerobotExactExtrema`. -/
structure LerobotExactExtrema (α : Type) where
  minimum : List (Value α) := []
  maximum : List (Value α) := []

/-- The part of `ReadStatsRow` for the exact extrema. -/
def LerobotExactExtrema.add {α : Type} (extrema : LerobotExactExtrema α) (width : Nat)
    (row : List (Value α)) :
    Except StatsException (LerobotExactExtrema α) :=
  if row.length ≠ width then
    .error (.internal s!"LeRobot exact statistics width changed from {width} to {row.length}")
  else if extrema.minimum.isEmpty then .ok ⟨row, row⟩
  else if extrema.minimum.length ≠ width ∨ extrema.maximum.length ≠ width then
    .error (.internal "LeRobot exact extrema width changed")
  else
    .ok ⟨List.zipWith Value.keepLess row extrema.minimum,
      List.zipWith Value.keepGreater row extrema.maximum⟩

/-- The exact extrema are collected in some of the passes only. -/
def addExactRow {α : Type} (width : Nat) (row : List (Value α)) :
    Option (LerobotExactExtrema α) → Except StatsException (Option (LerobotExactExtrema α))
  | none => .ok none
  | some extrema => (extrema.add width row).map some

/-- The cast of `PrepareReductionValue`, and its check. -/
def prepareReductionValue {α : Type} (round : α → α) : Option α → Except StatsException α
  | none => .error (.invalidInput "LeRobot numeric features cannot contain NaN or infinity")
  | some value => .ok (round value)

section Sums

variable {α : Type} [CommRing α] [LinearOrder α]

/-- The cast of a value to `double`. -/
def Value.toDouble (arithmetic : StatsArithmetic α) : Value α → Option α
  | .boolean value => some (if value then 1 else 0)
  | .integer value => some (arithmetic.double value)
  | .floating value => value

/-! ## Readers of rows -/

/-- `LerobotStatsRowReader`: the number of its rows, and what `Next` returns at each position. The
readers that one factory builds read the same rows. -/
structure LerobotStatsRowReader (α : Type) where
  count : Nat
  next : Nat → Except StatsException (List (Value α))

/-- `ReadStatsRow`, at a position of the reader. -/
def readStatsRow (arithmetic : StatsArithmetic α) (reader : LerobotStatsRowReader α)
    (width position : Nat) (extrema : Option (LerobotExactExtrema α)) :
    Except StatsException ((Fin width → Option α) × Option (LerobotExactExtrema α)) :=
  reader.next position >>= fun row =>
    if h : row.length = width then
      (addExactRow width row extrema).map fun extrema =>
        (fun dimension => (row.get (dimension.cast h.symm)).toDouble arithmetic, extrema)
    else
      .error (.internal s!"LeRobot statistics width changed from {width} to {row.length}")

/-! ## Sums -/

/-- The dimensions of a feature that one pass over the rows handles. -/
structure DimensionBatch (width : Nat) where
  offset : Nat
  size : Nat
  fits : offset + size ≤ width

/-- A dimension of the feature, by its index in the batch. -/
def DimensionBatch.index {width : Nat} (batch : DimensionBatch width) (dimension : Fin batch.size) :
    Fin width :=
  ⟨batch.offset + dimension,
    (Nat.add_lt_add_left dimension.isLt batch.offset).trans_le batch.fits⟩

/-- One pass over the rows, in a type `T` with the given rounding. -/
structure ReductionPass (α : Type) (width : Nat) where
  arithmetic : StatsArithmetic α
  round : α → α
  reader : LerobotStatsRowReader α
  batch : DimensionBatch width

/-- The variables that a pass updates with each row. -/
structure ReductionState (α : Type) (size : Nat) where
  position : Nat := 0
  minimum : Fin size → WithTop α := fun _ => ⊤
  maximum : Fin size → WithBot α := fun _ => ⊥
  exactExtrema : Option (LerobotExactExtrema α) := none

variable {width : Nat} (pass : ReductionPass α width)

/-- `ReadStatsRow` and `PrepareReductionValue` for each dimension of the batch. -/
def ReductionPass.readRow (state : ReductionState α pass.batch.size) :
    Except StatsException ((Fin pass.batch.size → α) × ReductionState α pass.batch.size) := do
  let row ← readStatsRow pass.arithmetic pass.reader width state.position state.exactExtrema
  let values ← traverseFin fun dimension =>
    prepareReductionValue pass.round (row.1 (pass.batch.index dimension))
  .ok (values,
    { position := state.position + 1
      minimum := fun dimension => min (state.minimum dimension) (values dimension)
      maximum := fun dimension => max (state.maximum dimension) (values dimension)
      exactExtrema := row.2 })

/-- `LerobotReductionTotals`. -/
@[ext] structure LerobotReductionTotals (α : Type) (size : Nat) where
  sum : Fin size → α
  squareSum : Fin size → α

namespace LerobotReductionTotals

variable {size : Nat}

/-- The totals of no row. -/
def zero : LerobotReductionTotals α size := ⟨fun _ => 0, fun _ => 0⟩

/-- The totals of one row. -/
def ofRow (round : α → α) (values : Fin size → α) : LerobotReductionTotals α size :=
  ⟨values, fun dimension => round (values dimension * values dimension)⟩

/-- The sum of two totals. -/
def add (round : α → α) (left right : LerobotReductionTotals α size) : LerobotReductionTotals α size :=
  ⟨fun dimension => round (left.sum dimension + right.sum dimension),
    fun dimension => round (left.squareSum dimension + right.squareSum dimension)⟩

/-- The sum of eight totals, in the order of NumPy. -/
def collapse (round : α → α) (accumulators : Fin 8 → LerobotReductionTotals α size) :
    LerobotReductionTotals α size :=
  let sum01 := (accumulators 0).add round (accumulators 1)
  let sum23 := (accumulators 2).add round (accumulators 3)
  let sum45 := (accumulators 4).add round (accumulators 5)
  let sum67 := (accumulators 6).add round (accumulators 7)
  (sum01.add round sum23).add round (sum45.add round sum67)

end LerobotReductionTotals

/-- The loops that add the next rows to the totals. -/
def ReductionPass.addRows : Nat → LerobotReductionTotals α pass.batch.size →
    ReductionState α pass.batch.size →
    Except StatsException
      (LerobotReductionTotals α pass.batch.size × ReductionState α pass.batch.size)
  | 0, totals, state => .ok (totals, state)
  | count + 1, totals, state =>
      pass.readRow state >>= fun next =>
        ReductionPass.addRows count (totals.add pass.round (.ofRow pass.round next.1)) next.2

/-- A loop that updates each of the eight accumulators with its own row. -/
def ReductionPass.eachAccumulator
    (update : LerobotReductionTotals α pass.batch.size → LerobotReductionTotals α pass.batch.size →
      LerobotReductionTotals α pass.batch.size)
    (accumulators : Fin 8 → LerobotReductionTotals α pass.batch.size)
    (state : ReductionState α pass.batch.size) :
    Except StatsException
      ((Fin 8 → LerobotReductionTotals α pass.batch.size) × ReductionState α pass.batch.size) :=
  (List.finRange 8).foldlM (fun current accumulator =>
    (pass.readRow current.2).map fun next =>
      (Function.update current.1 accumulator
        (update (current.1 accumulator) (.ofRow pass.round next.1)), next.2)) (accumulators, state)

/-- The loop that adds rows to the accumulators, eight at a time. -/
def ReductionPass.addRounds : Nat → (Fin 8 → LerobotReductionTotals α pass.batch.size) →
    ReductionState α pass.batch.size →
    Except StatsException
      ((Fin 8 → LerobotReductionTotals α pass.batch.size) × ReductionState α pass.batch.size)
  | 0, accumulators, state => .ok (accumulators, state)
  | rounds + 1, accumulators, state =>
      pass.eachAccumulator (LerobotReductionTotals.add pass.round) accumulators state >>= fun next =>
        ReductionPass.addRounds rounds next.1 next.2

/-- `NUMPY_PAIRWISE_BLOCK_SIZE`. -/
def numpyPairwiseBlockSize : Nat := 128

/-- `NumpyPairwiseStats`. -/
def numpyPairwiseStats (count : Nat) (state : ReductionState α pass.batch.size) :
    Except StatsException
      (LerobotReductionTotals α pass.batch.size × ReductionState α pass.batch.size) :=
  if count < 8 then pass.addRows count .zero state
  else if hblock : count ≤ numpyPairwiseBlockSize then do
    -- the first row of an accumulator is assigned, the others are added
    let first ← pass.eachAccumulator (fun _ row => row) (fun _ => .zero) state
    let rounds ← pass.addRounds (count / 8 - 1) first.1 first.2
    pass.addRows (count % 8) (.collapse pass.round rounds.1) rounds.2
  else do
    let leftCount := count / 2 - count / 2 % 8
    let left ← numpyPairwiseStats leftCount state
    let right ← numpyPairwiseStats (count - leftCount) left.2
    .ok (left.1.add pass.round right.1, right.2)
termination_by count
decreasing_by
  all_goals
    rw [numpyPairwiseBlockSize] at hblock
    omega

end Sums

/-! ## Quantiles -/

section Statistics

variable {α : Type} [Field α] [LinearOrder α] {width : Nat} (pass : ReductionPass α width)

/-- `LEROBOT_QUANTILE_BIN_COUNT`. -/
def lerobotQuantileBinCount : Nat := 5000

/-- The edges of the bins, from one below the minimum to one above the maximum. -/
def histogramEdges (round : α → α) (minimum maximum : α) : List α :=
  let low := round (round minimum - round (1 / 10 ^ 10))
  let high := round (round maximum + round (1 / 10 ^ 10))
  let step := round (round (high - low) / round lerobotQuantileBinCount)
  (List.range (lerobotQuantileBinCount + 1)).map fun index =>
    if index = lerobotQuantileBinCount then high
    else round (round (round index * step) + low)

/-- The bin of a value in `BuildHistogram`. -/
def histogramBin (edges : List α) (value : α) : Nat :=
  let iterator := edges.length - (upperBound (fun edge => decide (value < edge)) edges).length
  if iterator = 0 then 0
  else if iterator = edges.length then lerobotQuantileBinCount - 1
  else iterator - 1

/-- The loop of `BuildHistogram`: the counts of the bins, for each dimension of the batch. -/
def buildHistogram (edges : Fin pass.batch.size → List α) :
    Except StatsException (Fin pass.batch.size → List Int) :=
  (List.range pass.reader.count).foldlM (fun (counts : Fin pass.batch.size → List Int) position =>
    readStatsRow pass.arithmetic pass.reader width position none >>= fun row =>
      (traverseFin fun dimension =>
        prepareReductionValue pass.round (row.1 (pass.batch.index dimension))).map fun values =>
          fun dimension =>
            (counts dimension).modify (histogramBin (edges dimension) (values dimension)) (· + 1))
    (fun _ => List.replicate lerobotQuantileBinCount 0)

/-- The loop of `HistogramQuantile` from a bin on, with the rest of the histogram: the quantile, and
whether it counts as a `float`. -/
def histogramQuantileFrom (arithmetic : StatsArithmetic α) (round : α → α) (edges : List α)
    (targetCount : α) (useFloat32 : Bool) : Nat → Int → List Int → α × Bool
  | _, _, [] => (edges.getLastD 0, useFloat32)
  | bin, before, inBin :: histogram =>
      if arithmetic.double (before + inBin : Int) < targetCount then
        histogramQuantileFrom arithmetic round edges targetCount useFloat32 (bin + 1) (before + inBin)
          histogram
      else if bin = 0 ∨ inBin = 0 then (edges.getD bin 0, useFloat32)
      else
        let fraction := arithmetic.double
          (arithmetic.double (targetCount - arithmetic.double before) / arithmetic.double inBin)
        let binWidth := round (edges.getD (bin + 1) 0 - edges.getD bin 0)
        (arithmetic.double (edges.getD bin 0 + arithmetic.double (fraction * binWidth)), false)

/-- `HistogramQuantile`. -/
def histogramQuantile (arithmetic : StatsArithmetic α) (round : α → α) (histogram : List Int)
    (edges : List α) (count : Nat) (quantile : α) (useFloat32 : Bool) : α × Bool :=
  let targetCount := arithmetic.double (arithmetic.double quantile * arithmetic.double count)
  histogramQuantileFrom arithmetic round edges targetCount useFloat32 0 0 histogram

/-! ## The statistics of an episode -/

/-- The quantiles. -/
inductive Quantile
  | q01
  | q10
  | q50
  | q90
  | q99
  deriving DecidableEq

/-- The part of the population that is below a quantile. -/
def Quantile.fraction : Quantile → α
  | q01 => 1 / 100
  | q10 => 10 / 100
  | q50 => 50 / 100
  | q90 => 90 / 100
  | q99 => 99 / 100

/-- `LerobotFeatureStats`. A minimum starts at infinity, and a maximum at its negative. -/
structure LerobotFeatureStats (α : Type) where
  min : List (WithTop α) := []
  max : List (WithBot α) := []
  integerMin : List (Value α) := []
  integerMax : List (Value α) := []
  mean : List α := []
  stddev : List α := []
  quantiles : Quantile → List α := fun _ => []
  quantileIsFloat32 : Quantile → Bool := fun _ => false
  stddevIsFloat32 : Bool := false
  count : Int := 0

/-- What one batch adds to each of the vectors. -/
structure BatchStats (α : Type) (size : Nat) where
  min : Fin size → WithTop α
  max : Fin size → WithBot α
  mean : Fin size → α
  stddev : Fin size → α
  quantile : Quantile → Fin size → α
  quantileIsFloat32 : Quantile → Bool

/-- The calls of `push_back` for a batch. -/
def LerobotFeatureStats.append {α : Type} {size : Nat} (result : LerobotFeatureStats α)
    (preserveIntegerExtrema : Bool) (batch : BatchStats α size) : LerobotFeatureStats α :=
  { result with
    min := if preserveIntegerExtrema then result.min else result.min ++ List.ofFn batch.min
    max := if preserveIntegerExtrema then result.max else result.max ++ List.ofFn batch.max
    mean := result.mean ++ List.ofFn batch.mean
    stddev := result.stddev ++ List.ofFn batch.stddev
    quantiles := fun quantile => result.quantiles quantile ++ List.ofFn (batch.quantile quantile)
    quantileIsFloat32 := fun quantile =>
      result.quantileIsFloat32 quantile && batch.quantileIsFloat32 quantile }

/-- The statistics of a batch with one row. -/
def BatchStats.ofRow {size : Nat} (values : Fin size → α) : BatchStats α size where
  min dimension := values dimension
  max dimension := values dimension
  mean := values
  stddev _ := 0
  quantile _ := values
  quantileIsFloat32 _ := true

/-- The mean of `ComputeStatsTyped`. -/
def rowMean (round : α → α) (count : Nat) (sum : α) : α := round (sum / round count)

/-- The standard deviation of `ComputeStatsTyped`. -/
def rowStddev (arithmetic : StatsArithmetic α) (round : α → α) (count : Nat) (sum squareSum : α) : α :=
  let mean := rowMean round count sum
  let averageSquare := round (squareSum / round count)
  let squaredMean := round (mean * mean)
  round (arithmetic.sqrt (max 0 (round (averageSquare - squaredMean))))

/-- The statistics of a batch with several rows, after the pass over them. -/
def BatchStats.ofTotals (useFloat32 : Bool) (totals : LerobotReductionTotals α pass.batch.size)
    (state : ReductionState α pass.batch.size) :
    Except StatsException (BatchStats α pass.batch.size) :=
  let count := pass.reader.count
  -- the pass has read a row, so that the extremes are finite
  let edges := fun dimension => histogramEdges pass.round ((state.minimum dimension).untopD 0)
    ((state.maximum dimension).unbotD 0)
  (buildHistogram pass edges).map fun histogram =>
    let quantile := fun quantile dimension => histogramQuantile pass.arithmetic pass.round
      (histogram dimension) (edges dimension) count (Quantile.fraction quantile) useFloat32
    { min := state.minimum
      max := state.maximum
      mean := fun dimension => rowMean pass.round count (totals.sum dimension)
      stddev := fun dimension => rowStddev pass.arithmetic pass.round count (totals.sum dimension)
        (totals.squareSum dimension)
      quantile := fun q dimension => (quantile q dimension).1
      quantileIsFloat32 := fun q =>
        (List.finRange pass.batch.size).all fun dimension => (quantile q dimension).2 }

/-- A batch of `ComputeStatsTyped`, from the state of its pass: the statistics and the state after
it. -/
def ReductionPass.stats (useFloat32 : Bool) (state : ReductionState α pass.batch.size) :
    Except StatsException (BatchStats α pass.batch.size × ReductionState α pass.batch.size) :=
  if pass.reader.count = 1 then (pass.readRow state).map fun next => (.ofRow next.1, next.2)
  else
    numpyPairwiseStats pass pass.reader.count state >>= fun totals =>
      (BatchStats.ofTotals pass useFloat32 totals.1 totals.2).map fun stats => (stats, totals.2)

/-- `LEROBOT_STATS_DIMENSION_BATCH_SIZE`. -/
def lerobotStatsDimensionBatchSize : Nat := 64

/-- The loop of `ComputeStatsTyped` over the batches of dimensions. The first batch collects the
integer extrema of all dimensions. -/
def computeBatches (arithmetic : StatsArithmetic α) (round : α → α) (reader : LerobotStatsRowReader α)
    (width : Nat) (useFloat32 preserveIntegerExtrema : Bool) (offset : Nat)
    (result : LerobotFeatureStats α) (extrema : LerobotExactExtrema α) :
    Except StatsException (LerobotFeatureStats α × LerobotExactExtrema α) :=
  if h : offset < width then
    let size := min lerobotStatsDimensionBatchSize (width - offset)
    let pass : ReductionPass α width :=
      ⟨arithmetic, round, reader, ⟨offset, size, by omega⟩⟩
    let collected := if preserveIntegerExtrema && offset == 0 then some extrema else none
    pass.stats useFloat32 { exactExtrema := collected } >>= fun batch =>
      computeBatches arithmetic round reader width useFloat32 preserveIntegerExtrema (offset + size)
        (result.append preserveIntegerExtrema batch.1) (batch.2.exactExtrema.getD extrema)
  else .ok (result, extrema)
termination_by width - offset
decreasing_by
  rw [lerobotStatsDimensionBatchSize]
  omega

/-- `ComputeStatsTyped`, for the type `T` with the given rounding. -/
def computeStatsTyped (arithmetic : StatsArithmetic α) (round : α → α)
    (reader : LerobotStatsRowReader α) (width outputCount : Nat)
    (useFloat32 preserveIntegerExtrema : Bool) : Except StatsException (LerobotFeatureStats α) :=
  if width = 0 ∨ outputCount = 0 then
    .error (.internal "Cannot compute empty LeRobot feature statistics")
  else if reader.count = 0 ∨ int64Maximum < (reader.count : Int) then
    .error (.internal "LeRobot statistics value count is empty or too large")
  else
    computeBatches arithmetic round reader width useFloat32 preserveIntegerExtrema 0
      { count := outputCount
        quantileIsFloat32 := fun _ => useFloat32
        stddevIsFloat32 := useFloat32 } {} >>= fun computed =>
      if !preserveIntegerExtrema then .ok computed.1
      else if computed.2.minimum.length ≠ width ∨ computed.2.maximum.length ≠ width then
        .error (.internal "LeRobot integer extrema did not cover the feature width")
      else
        .ok { computed.1 with
              integerMin := computed.2.minimum
              integerMax := computed.2.maximum }

/-- The feature that the writer generates. -/
def LerobotFeature.isGeneratedTimestamp (feature : LerobotFeature) : Bool :=
  !feature.userDefined && feature.name == "timestamp".toList

/-- `UsesFloat32Statistics`. -/
def usesFloat32Statistics (feature : LerobotFeature) : Bool :=
  !feature.isGeneratedTimestamp && (feature.isImage || feature.isVideo ||
    feature.dtype == "float32" || feature.dtype == "int8" || feature.dtype == "int16" ||
    feature.dtype == "uint8" || feature.dtype == "uint16" || feature.dtype == "bool")

/-- `HasIntegerExtrema`. -/
def hasIntegerExtrema (feature : LerobotFeature) : Except StatsException Bool :=
  (lerobotHasIntegerExtrema feature.dtype).mapError .binder

/-- `ComputeStats`. -/
def computeStats (arithmetic : StatsArithmetic α) (reader : LerobotStatsRowReader α)
    (width outputCount : Nat) (feature : LerobotFeature) :
    Except StatsException (LerobotFeatureStats α) :=
  hasIntegerExtrema feature >>= fun preserveIntegerExtrema =>
    if usesFloat32Statistics feature then
      computeStatsTyped arithmetic arithmetic.float32 reader width outputCount true
        preserveIntegerExtrema
    else
      computeStatsTyped arithmetic arithmetic.double reader width outputCount false
        preserveIntegerExtrema

/-! ## The statistics of the dataset -/

/-- The mean and the standard deviation of a dimension, as `MergeStats` reads them. -/
structure Moments (α : Type) where
  mean : α
  stddev : α

/-- The square of a standard deviation in `MergeStats`. -/
def Moments.variance (arithmetic : StatsArithmetic α) (moments : Moments α) (isFloat32 : Bool) : α :=
  if isFloat32 then
    arithmetic.float32 (arithmetic.float32 moments.stddev * arithmetic.float32 moments.stddev)
  else arithmetic.double (moments.stddev * moments.stddev)

/-- The weighted mean of `MergeStats`. -/
def mergeMean (arithmetic : StatsArithmetic α) (targetCount sourceCount targetMean sourceMean : α) :
    α :=
  let double := arithmetic.double
  double (double (double (targetMean * targetCount) + double (sourceMean * sourceCount)) /
    double (targetCount + sourceCount))

/-- The standard deviation of `MergeStats`, from the variances within the two parts and the distances
of their means to the mean of all. -/
def mergeStddev (arithmetic : StatsArithmetic α) (targetCount sourceCount : α)
    (targetIsFloat32 sourceIsFloat32 : Bool) (target source : Moments α) : α :=
  let double := arithmetic.double
  let totalMean := mergeMean arithmetic targetCount sourceCount target.mean source.mean
  let component (moments : Moments α) (isFloat32 : Bool) : α :=
    let delta := double (moments.mean - totalMean)
    double (moments.variance arithmetic isFloat32 + double (delta * delta))
  let targetWeighted := double (component target targetIsFloat32 * targetCount)
  let sourceWeighted := double (component source sourceIsFloat32 * sourceCount)
  let totalVariance := double
    (double (targetWeighted + sourceWeighted) / double (targetCount + sourceCount))
  double (arithmetic.sqrt (max 0 totalVariance))

/-- A quantile of `MergeStats`. -/
def mergeQuantile : Quantile → α → α → α
  | .q01 | .q10 | .q50 => min
  | .q90 | .q99 => max

/-- The moments of the dimensions. -/
def LerobotFeatureStats.moments {α : Type} (stats : LerobotFeatureStats α) : List (Moments α) :=
  List.zipWith Moments.mk stats.mean stats.stddev

/-- Both vectors of integer extrema have the width of the means, and the others are empty. -/
def LerobotFeatureStats.hasIntegerWidth {α : Type} (stats : LerobotFeatureStats α) : Bool :=
  stats.min.isEmpty && stats.max.isEmpty && stats.integerMin.length == stats.mean.length &&
    stats.integerMax.length == stats.mean.length

/-- Both vectors of floating extrema have the width of the means, and the others are empty. -/
def LerobotFeatureStats.hasFloatingWidth {α : Type} (stats : LerobotFeatureStats α) : Bool :=
  stats.integerMin.isEmpty && stats.integerMax.isEmpty && stats.min.length == stats.mean.length &&
    stats.max.length == stats.mean.length

/-- `MergeStats`, when both have the same width. -/
def mergeFields (arithmetic : StatsArithmetic α) (target source : LerobotFeatureStats α)
    (hasIntegerExtrema : Bool) : LerobotFeatureStats α :=
  let targetCount := arithmetic.double target.count
  let sourceCount := arithmetic.double source.count
  { target with
    integerMin := if hasIntegerExtrema then
      List.zipWith Value.keepLess source.integerMin target.integerMin else target.integerMin
    integerMax := if hasIntegerExtrema then
      List.zipWith Value.keepGreater source.integerMax target.integerMax else target.integerMax
    min := if hasIntegerExtrema then target.min else List.zipWith min target.min source.min
    max := if hasIntegerExtrema then target.max else List.zipWith max target.max source.max
    mean := List.zipWith (mergeMean arithmetic targetCount sourceCount) target.mean source.mean
    stddev := List.zipWith
      (mergeStddev arithmetic targetCount sourceCount target.stddevIsFloat32 source.stddevIsFloat32)
      target.moments source.moments
    quantiles := fun quantile =>
      List.zipWith (mergeQuantile quantile) (target.quantiles quantile) (source.quantiles quantile)
    count := target.count + source.count
    stddevIsFloat32 := false }

/-- `MergeStats`. -/
def mergeStats (arithmetic : StatsArithmetic α) (target source : LerobotFeatureStats α)
    (hasIntegerExtrema : Bool) : Except StatsException (LerobotFeatureStats α) :=
  if target.count = 0 then .ok source
  else if target.mean.length ≠ source.mean.length then
    .error (.internal "LeRobot dataset statistics width changed")
  else if hasIntegerExtrema && !(target.hasIntegerWidth && source.hasIntegerWidth) then
    .error (.internal "LeRobot dataset integer extrema width changed")
  else if !hasIntegerExtrema && !(target.hasFloatingWidth && source.hasFloatingWidth) then
    .error (.internal "LeRobot dataset floating extrema width changed")
  else .ok (mergeFields arithmetic target source hasIntegerExtrema)

/-- `LerobotCollectionStatsReader`. -/
def lerobotCollectionStatsReader (arithmetic : StatsArithmetic α) (collection : List (Cell α))
    (feature : LerobotFeature) (width fps : Nat) : LerobotStatsRowReader α where
  count := collection.length
  next position :=
    match collection[position]? with
    | none => .error (.internal "LeRobot statistics reader advanced past the collection")
    | some cell =>
        if feature.isGeneratedTimestamp then
          let quotient := arithmetic.double position / arithmetic.double fps
          .ok [.floating (if fps = 0 then none else some (arithmetic.double quotient))]
        else
          appendRow cell >>= fun row =>
            if row.length ≠ width then
              .error (.invalidInput (s!"LeRobot feature '{String.ofList feature.name}' has " ++
                s!"{row.length} values; expected {width}"))
            else .ok row

/-- `ComputeEpisodeStats`, for a feature that is no image and no video. -/
def computeEpisodeStats (arithmetic : StatsArithmetic α) (feature : LerobotFeature) (fps : Nat)
    (currentData : List (Cell α)) : Except StatsException (LerobotFeatureStats α) :=
  (shapeWidth feature.shape).mapError .binder >>= fun width =>
    computeStats arithmetic (lerobotCollectionStatsReader arithmetic currentData feature width fps)
      width currentData.length feature

/-- What `FinishEpisode` does with the statistics of such a feature. -/
def finishEpisode (arithmetic : StatsArithmetic α) (feature : LerobotFeature) (fps : Nat)
    (datasetStats : LerobotFeatureStats α) (currentData : List (Cell α)) :
    Except StatsException (LerobotFeatureStats α) :=
  if currentData.length = 0 then .error (.invalidInput "LeRobot episodes cannot be empty")
  else
    computeEpisodeStats arithmetic feature fps currentData >>= fun episodeStats =>
      hasIntegerExtrema feature >>= mergeStats arithmetic datasetStats episodeStats

/-- The statistics of such a feature in the dataset with the given episodes. -/
def datasetStats (arithmetic : StatsArithmetic α) (feature : LerobotFeature) (fps : Nat)
    (episodes : List (List (Cell α))) : Except StatsException (LerobotFeatureStats α) :=
  episodes.foldlM (finishEpisode arithmetic feature fps) {}

end Statistics

end DuckdbLerobot.Copy
