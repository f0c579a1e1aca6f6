import DuckdbLerobot.Copy.CopyBind
import DuckdbLerobot.Copy.FeatureStats
import DuckdbLerobot.Copy.VideoShards

/-!
# The row of an episode

`AppendEpisodeMetadata` builds one row for each episode, in the order of the columns that `LerobotCopyBind` has
named: the numbers of the episode, the routes of its videos, the statistics of its features and the file of
the row itself. A statistic is a list that is nested like the shape of its feature.
-/

set_option autoImplicit false

namespace DuckdbLerobot.Copy

open DuckdbLerobot.Library DuckdbLerobot.Path DuckdbLerobot.Storage

/-! ## Values -/

/-- A value of the row. A statistic is a `double` too; the numbers of the statistics are a parameter. -/
inductive EpisodeValue (α : Type)
  | integer (type : LogicalType) (value : Int)
  | double (value : Double)
  | statistic (value : WithBot (WithTop α))
  | varchar (text : Text)
  | list (elementType : LogicalType) (elements : List (EpisodeValue α))

/-- The nested type of a value. -/
inductive EpisodeValue.HasType {α : Type} : EpisodeValue α → LogicalType → Prop
  | integer (type : LogicalType) (value : Int) : HasType (.integer type value) type
  | double (value : Double) : HasType (.double value) .double
  | statistic (value : WithBot (WithTop α)) : HasType (.statistic value) .double
  | varchar (text : Text) : HasType (.varchar text) .varchar
  | list {elementType : LogicalType} {elements : List (EpisodeValue α)}
      (each : ∀ element ∈ elements, HasType element elementType) :
      HasType (.list elementType elements) (.list elementType)

section Values

variable {α : Type}

/-- What `NumericCast<int64_t>` throws. -/
def numericCastMessage (value : Nat) : String :=
  s!"Information loss on integer cast: value {value} outside of target range " ++
    "[-9223372036854775808, 9223372036854775807]"

/-- `Value::BIGINT(NumericCast<int64_t>(value))`. -/
def bigintValue (value : Nat) : Except CopyException (EpisodeValue α) :=
  if (value : Int) ≤ int64Maximum then .ok (.integer .bigint value)
  else .error (.internal (numericCastMessage value))

/-! ## Nested statistics -/

/-- `StatListType`, from some depth on. -/
def statListType (leafType : LogicalType) : List Nat → LogicalType
  | [] => leafType
  | _ :: shape => .list (statListType leafType shape)

/-- The loop over the children of a value. -/
def buildChildren (child : Nat → Except CopyException (EpisodeValue α × Nat)) :
    Nat → Nat → Except CopyException (List (EpisodeValue α) × Nat)
  | 0, offset => .ok ([], offset)
  | count + 1, offset => do
      let (first, offset) ← child offset
      let (rest, offset) ← buildChildren child count offset
      .ok (first :: rest, offset)

/-- `BuildNestedStatValue` and `BuildNestedIntegerStatValue`, from some depth on. The leaves are read by
`leaf`. -/
def buildNested (leaf : Nat → Except CopyException (EpisodeValue α × Nat)) (leafType : LogicalType) :
    List Nat → Nat → Except CopyException (EpisodeValue α × Nat)
  | [], offset => leaf offset
  | size :: shape, offset =>
      (buildChildren (buildNested leaf leafType shape) size offset).map fun children =>
        (.list (statListType leafType shape) children.1, children.2)

/-- A leaf of `BuildNestedStatValue`. -/
def statLeaf (values : List (WithBot (WithTop α))) (offset : Nat) :
    Except CopyException (EpisodeValue α × Nat) :=
  match values[offset]? with
  | none => .error (.internal "LeRobot statistic shape exceeds its value count")
  | some value => .ok (.statistic value, offset + 1)

/-- A leaf of `BuildNestedIntegerStatValue`. The types of the extrema are wide enough for all values of the
feature. -/
def integerStatLeaf (values : List (Value α)) (leafType : LogicalType) (offset : Nat) :
    Except CopyException (EpisodeValue α × Nat) :=
  match values[offset]? with
  | none => .error (.internal "LeRobot integer statistic shape exceeds its value count")
  | some (.integer value) => .ok (.integer leafType value, offset + 1)
  | some _ => .error (.internal "LeRobot integer statistic contains a non-integer value")

/-- All values have been read. -/
def consumeAll (count : Nat) (message : String) (result : EpisodeValue α × Nat) :
    Except CopyException (EpisodeValue α) :=
  if result.2 ≠ count then .error (.internal message) else .ok result.1

/-- `BuildStatValue`. -/
def buildStatValue (values : List (WithBot (WithTop α))) (shape : List Nat) :
    Except CopyException (EpisodeValue α) :=
  buildNested (statLeaf values) .double shape 0 >>=
    consumeAll values.length "LeRobot statistic shape did not consume all values"

/-- `BuildIntegerStatValue`. -/
def buildIntegerStatValue (values : List (Value α)) (shape : List Nat) (leafType : LogicalType) :
    Except CopyException (EpisodeValue α) :=
  buildNested (integerStatLeaf values leafType) leafType shape 0 >>=
    consumeAll values.length "LeRobot integer statistic shape did not consume all values"

/-! ## The row -/

/-- The shape of the statistics of a feature. -/
def statShape (feature : LerobotFeature) : List Nat :=
  if feature.isImage || feature.isVideo then [feature.shape.getD 2 0, 1, 1] else feature.shape

/-- A minimum, as a number that may be infinite. -/
def minimumValue (value : WithTop α) : WithBot (WithTop α) := value

/-- A maximum, as a number that may be infinite. -/
def maximumValue (value : WithBot α) : WithBot (WithTop α) := value.map WithTop.some

/-- Another statistic. -/
def finiteValue (value : α) : WithBot (WithTop α) := ((value : WithTop α) : WithBot (WithTop α))

/-- The extrema of `AddStatsToEpisodeRow`. -/
def extremaValues (feature : LerobotFeature) (stats : LerobotFeatureStats α) :
    Except CopyException (List (EpisodeValue α)) := do
  let shape := statShape feature
  let hasIntegerExtrema ← (lerobotHasIntegerExtrema feature.dtype).mapError .binder
  if hasIntegerExtrema then do
    let leafType ← (lerobotStatExtremaLeafType feature.dtype).mapError .binder
    let minimum ← buildIntegerStatValue stats.integerMin shape leafType
    let maximum ← buildIntegerStatValue stats.integerMax shape leafType
    .ok [minimum, maximum]
  else do
    let minimum ← buildStatValue (stats.min.map minimumValue) shape
    let maximum ← buildStatValue (stats.max.map maximumValue) shape
    .ok [minimum, maximum]

/-- What `AddStatsToEpisodeRow` adds to the row. -/
def statValues (feature : LerobotFeature) (stats : LerobotFeatureStats α) :
    Except CopyException (List (EpisodeValue α)) := do
  let shape := statShape feature
  let extrema ← extremaValues feature stats
  let mean ← buildStatValue (stats.mean.map finiteValue) shape
  let stddev ← buildStatValue (stats.stddev.map finiteValue) shape
  let count := .list .bigint [.integer .bigint stats.count]
  let q01 ← buildStatValue ((stats.quantiles .q01).map finiteValue) shape
  let q10 ← buildStatValue ((stats.quantiles .q10).map finiteValue) shape
  let q50 ← buildStatValue ((stats.quantiles .q50).map finiteValue) shape
  let q90 ← buildStatValue ((stats.quantiles .q90).map finiteValue) shape
  let q99 ← buildStatValue ((stats.quantiles .q99).map finiteValue) shape
  .ok (extrema ++ [mean, stddev, count, q01, q10, q50, q90, q99])

/-- What `AppendEpisodeMetadata` adds to the row for a video. -/
def routeValues (route : LerobotVideoRoute) : Except CopyException (List (EpisodeValue α)) := do
  let chunkIndex ← bigintValue route.index.chunkIndex
  let fileIndex ← bigintValue route.index.fileIndex
  .ok [chunkIndex, fileIndex, .double route.fromTimestamp, .double route.toTimestamp]

/-- What the row of an episode is made of. The routes and the statistics are in vectors with an entry for
each feature. -/
structure EpisodeMetadata (α : Type) where
  currentEpisode : Int
  currentEpisodeTasks : List Text
  currentEpisodeFrames : Nat
  dataIndex : FileIndex
  fromIndex : Nat
  toIndex : Nat
  currentVideoRoutes : Nat → LerobotVideoRoute
  episodeStats : Nat → LerobotFeatureStats α

/-- The values of the first columns. -/
def baseValues (episode : EpisodeMetadata α) : Except CopyException (List (EpisodeValue α)) := do
  let length ← bigintValue episode.currentEpisodeFrames
  let chunkIndex ← bigintValue episode.dataIndex.chunkIndex
  let fileIndex ← bigintValue episode.dataIndex.fileIndex
  let fromIndex ← bigintValue episode.fromIndex
  let toIndex ← bigintValue episode.toIndex
  .ok [.integer .bigint episode.currentEpisode,
    .list .varchar (episode.currentEpisodeTasks.map .varchar), length, chunkIndex, fileIndex, fromIndex,
    toIndex]

/-- A round of the loop over the videos. -/
def appendRoute (episode : EpisodeMetadata α) (row : List (EpisodeValue α))
    (feature : LerobotFeature × Nat) : Except CopyException (List (EpisodeValue α)) :=
  if !feature.1.isVideo then .ok row
  else (routeValues (episode.currentVideoRoutes feature.2)).map (row ++ ·)

/-- A round of the loop over the statistics. -/
def addStatsToEpisodeRow (episode : EpisodeMetadata α) (row : List (EpisodeValue α))
    (feature : LerobotFeature × Nat) : Except CopyException (List (EpisodeValue α)) :=
  if feature.1.hasStatistics then
    (statValues feature.1 (episode.episodeStats feature.2)).map (row ++ ·)
  else .ok row

/-- The row that `AppendEpisodeMetadata` builds, for the file of the episodes that has a place in it. -/
def episodeRow (features : List LerobotFeature) (episode : EpisodeMetadata α) (index : FileIndex) :
    Except CopyException (List (EpisodeValue α)) := do
  let row ← baseValues episode
  let row ← features.zipIdx.foldlM (appendRoute episode) row
  let row ← features.zipIdx.foldlM (addStatsToEpisodeRow episode) row
  let chunkIndex ← bigintValue index.chunkIndex
  let fileIndex ← bigintValue index.fileIndex
  .ok (row ++ [chunkIndex, fileIndex])

/-- What `AppendEpisodeMetadata` throws when the row does not have the columns that were bound. -/
def rowSizeMessage (size expected : Nat) : String :=
  s!"LeRobot episode metadata row has {size} values, expected {expected}"

/-- The row that `AppendEpisodeMetadata` appends. -/
def checkedEpisodeRow (bind : LerobotCopyBindData) (episode : EpisodeMetadata α) (index : FileIndex) :
    Except CopyException (List (EpisodeValue α)) := do
  let row ← episodeRow bind.features episode index
  ensure (row.length = bind.episodeTypes.length) <|
    .internal (rowSizeMessage row.length bind.episodeTypes.length)
  .ok row

end Values

end DuckdbLerobot.Copy
