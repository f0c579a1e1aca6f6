import DuckdbLerobot.Storage.VideoRoutes
import DuckdbLerobot.Video.ShardDecoder

/-!
# The columns of an output row

An output row is written from a target, the route that the target points to, and the decoded frame,
if any. `writeTargetRelationColumn` and `writeWindowColumn` write the same values in different
columns.
-/

set_option autoImplicit false

namespace DuckdbLerobot.Video

open DuckdbLerobot.Library DuckdbLerobot.Path DuckdbLerobot.Storage

/-- What a row is written from. -/
structure OutputRow where
  target : LerobotDecodeTarget
  route : LerobotVideoRoute
  decoded : Option DecodedVideoFrame

/-- The bytes of the pixels of a frame. -/
def pixelBytes (decoded : DecodedVideoFrame) : Nat := (decoded.pixels.getD []).length

/-- A value of a column. -/
inductive OutputValue
  | bigint (value : Int)
  | integer (value : Int)
  | double (value : ℚ)
  | boolean (value : Bool)
  | varchar (value : Text)
  | blob (value : List UInt8)
  deriving DecidableEq

/-- The columns of `lerobot_video_targets`, in the order of `LEROBOT_TARGET_*`. -/
inductive TargetColumn
  | requestId
  | ordinal
  | episodeIndex
  | frameIndex
  | videoKey
  | deltaIndex
  | deltaTimestamp
  | deltaFrameOffset
  | isPadding
  | frameIndexResolved
  | timestamp
  | videoPath
  | videoTimestamp
  | decodedTimestamp
  | width
  | height
  | channels
  | image
  | targetId
  deriving DecidableEq

/-- The columns of `lerobot_video_windows`, in the order of `LEROBOT_WINDOW_*`. -/
inductive WindowColumn
  | requestId
  | requestOrdinal
  | deltaOrdinal
  | deltaTimestamp
  | deltaFrameOffset
  | isPadding
  | episodeIndex
  | frameIndex
  | targetFrameIndex
  | timestamp
  | videoKey
  | videoPath
  | videoTimestamp
  | decodedTimestamp
  | width
  | height
  | channels
  | image
  deriving DecidableEq

/-- The columns of `lerobot_video_frames`, in the order of `LEROBOT_FRAME_*`. -/
inductive FrameColumn
  | episodeIndex
  | frameIndex
  | timestamp
  | videoKey
  | videoPath
  | videoTimestamp
  | decodedTimestamp
  | width
  | height
  | channels
  | image
  deriving DecidableEq

/-- The projected columns of a scan, in either mode. -/
inductive VideoColumns
  | frames (columns : List FrameColumn)
  | windows (columns : List WindowColumn)

section Write

variable (metadata : LerobotVideoMetadata) (options : LerobotVideoOptions) (row : OutputRow)

/-- `GetOutputWidth` and `GetTargetOutputWidth`. There is no width without a decoded frame, unless it
is an option. -/
def getOutputWidth : Option OutputValue :=
  if 0 < options.width then some (.integer options.width)
  else row.decoded.map fun decoded => .integer decoded.width

/-- `GetOutputHeight` and `GetTargetOutputHeight`. -/
def getOutputHeight : Option OutputValue :=
  if 0 < options.height then some (.integer options.height)
  else row.decoded.map fun decoded => .integer decoded.height

/-- The number of channels: a depth map has one. -/
def getOutputChannels : OutputValue :=
  .integer (if (metadata.videoFeatureMetadata.getD row.route.videoKeyIndex {}).isDepthMap then 1 else 3)

/-- `WriteTargetRelationColumn`. A column of a frame has no value when no frame was decoded. -/
def writeTargetRelationColumn : TargetColumn → Option OutputValue
  | .requestId => some (.bigint row.target.requestId)
  | .ordinal => some (.bigint row.target.requestOrdinal)
  | .episodeIndex => some (.bigint row.target.episodeIndex)
  | .frameIndex => some (.bigint row.target.frameIndex)
  | .videoKey => some (.varchar (metadata.getVideoKey row.route))
  | .deltaIndex => some (.bigint row.target.deltaOrdinal)
  | .deltaTimestamp => some (.double row.target.deltaTimestamp)
  | .deltaFrameOffset => some (.bigint row.target.deltaFrameOffset)
  | .isPadding => some (.boolean row.target.isPadding)
  | .frameIndexResolved => some (.bigint row.target.targetFrameIndex)
  | .timestamp => some (.double row.target.frameTimestamp)
  | .videoPath => some (.varchar (metadata.getVideoFile row.route))
  | .videoTimestamp => some (.double row.target.videoTimestamp)
  | .decodedTimestamp => row.decoded.map fun decoded => .double decoded.decodedTimestamp
  | .width => getOutputWidth options row
  | .height => getOutputHeight options row
  | .channels => some (getOutputChannels metadata row)
  | .image => row.decoded.bind fun decoded => decoded.pixels.map .blob
  | .targetId => some (.bigint row.target.targetId)

/-- `WriteWindowColumn`. -/
def writeWindowColumn : WindowColumn → Option OutputValue
  | .requestId => some (.bigint row.target.requestId)
  | .requestOrdinal => some (.bigint row.target.requestOrdinal)
  | .deltaOrdinal => some (.bigint row.target.deltaOrdinal)
  | .deltaTimestamp => some (.double row.target.deltaTimestamp)
  | .deltaFrameOffset => some (.bigint row.target.deltaFrameOffset)
  | .isPadding => some (.boolean row.target.isPadding)
  | .episodeIndex => some (.bigint row.target.episodeIndex)
  | .frameIndex => some (.bigint row.target.frameIndex)
  | .targetFrameIndex => some (.bigint row.target.targetFrameIndex)
  | .timestamp => some (.double row.target.frameTimestamp)
  | .videoKey => some (.varchar (metadata.getVideoKey row.route))
  | .videoPath => some (.varchar (metadata.getVideoFile row.route))
  | .videoTimestamp => some (.double row.target.videoTimestamp)
  | .decodedTimestamp => row.decoded.map fun decoded => .double decoded.decodedTimestamp
  | .width => getOutputWidth options row
  | .height => getOutputHeight options row
  | .channels => some (getOutputChannels metadata row)
  | .image => row.decoded.bind fun decoded => decoded.pixels.map .blob

/-- `WriteLegacyColumn`. -/
def writeLegacyColumn : FrameColumn → Option OutputValue
  | .episodeIndex => some (.bigint row.target.episodeIndex)
  | .frameIndex => some (.bigint row.target.frameIndex)
  | .timestamp => some (.double row.target.frameTimestamp)
  | .videoKey => some (.varchar (metadata.getVideoKey row.route))
  | .videoPath => some (.varchar (metadata.getVideoFile row.route))
  | .videoTimestamp => some (.double row.target.videoTimestamp)
  | .decodedTimestamp => row.decoded.map fun decoded => .double decoded.decodedTimestamp
  | .width => getOutputWidth options row
  | .height => getOutputHeight options row
  | .channels => some (getOutputChannels metadata row)
  | .image => row.decoded.bind fun decoded => decoded.pixels.map .blob

/-- `WriteVideoTarget`: the values of the projected columns. -/
def writeVideoTarget : VideoColumns → List (Option OutputValue)
  | .frames columns => columns.map (writeLegacyColumn metadata options row)
  | .windows columns => columns.map (writeWindowColumn metadata options row)

/-- Whether the projected columns of `lerobot_video_targets` need a decoded frame. -/
def targetsNeedDecode (projectedColumns : List TargetColumn) : Bool :=
  decide (.image ∈ projectedColumns ∨ .decodedTimestamp ∈ projectedColumns ∨
    ((options.width = 0 ∨ options.height = 0) ∧
      (.width ∈ projectedColumns ∨ .height ∈ projectedColumns)))

end Write

namespace VideoColumns

/-- `projected_columns.size()`. -/
def size : VideoColumns → Nat
  | frames columns => columns.length
  | windows columns => columns.length

/-- `needs_pixels`. -/
def needsPixels : VideoColumns → Bool
  | frames columns => decide (.image ∈ columns)
  | windows columns => decide (.image ∈ columns)

/-- `needs_decode`. -/
def needsDecode (options : LerobotVideoOptions) : VideoColumns → Bool
  | frames columns => decide (.image ∈ columns ∨ .decodedTimestamp ∈ columns ∨
      ((options.width = 0 ∨ options.height = 0) ∧ (.width ∈ columns ∨ .height ∈ columns)))
  | windows columns => decide (.image ∈ columns ∨ .decodedTimestamp ∈ columns ∨
      ((options.width = 0 ∨ options.height = 0) ∧ (.width ∈ columns ∨ .height ∈ columns)))

end VideoColumns

/-! ## Filters -/

/-- A pushed-down filter of one output column. Its result is that of SQL, which may be NULL. -/
structure VideoFilter where
  outputIndex : Nat
  holds : Option OutputValue → Option Bool

/-- The expression of the pushed-down filters. -/
inductive VideoFilterExpression
  | single (child : VideoFilter)
  | conjunction (children : List VideoFilter)

/-- `AND` of SQL. -/
def sqlAnd : Option Bool → Option Bool → Option Bool
  | some false, _ => some false
  | _, some false => some false
  | some true, some true => some true
  | _, _ => none

/-- `BuildVideoFilterExpression`. -/
def buildVideoFilterExpression (columns : VideoColumns) (filters : List VideoFilter) :
    Except String (Option VideoFilterExpression) :=
  if filters.any fun filter => decide (columns.size ≤ filter.outputIndex) then
    .error "Invalid LeRobot pushed-down filter column"
  else
    match filters with
    | [] => .ok none
    | [filter] => .ok (some (.single filter))
    | filters => .ok (some (.conjunction filters))

/-- The result of one filter for the values of a row. -/
def VideoFilter.evaluate (filter : VideoFilter) (values : List (Option OutputValue)) : Option Bool :=
  filter.holds (values.getD filter.outputIndex none)

/-- The result of an expression for the values of a row. -/
def VideoFilterExpression.evaluate (values : List (Option OutputValue)) :
    VideoFilterExpression → Option Bool
  | single child => child.evaluate values
  | conjunction children =>
      (children.map fun child => child.evaluate values).foldl sqlAnd (some true)

/-- `ApplyFilters`: the rows for which the expression is true. -/
def applyFilters (expression : Option VideoFilterExpression)
    (values : OutputRow → List (Option OutputValue)) (rows : List OutputRow) : List OutputRow :=
  match expression with
  | none => rows
  | some expression => rows.filter fun row => expression.evaluate (values row) == some true

theorem sqlAnd_eq_true {left right : Option Bool} :
    sqlAnd left right = some true ↔ left = some true ∧ right = some true := by
  unfold sqlAnd
  split <;> simp_all

/-- A conjunction is true when its children are. -/
theorem foldl_sqlAnd_eq_true {results : List (Option Bool)} {first : Option Bool} :
    results.foldl sqlAnd first = some true ↔
      first = some true ∧ ∀ result ∈ results, result = some true := by
  induction results generalizing first with
  | nil => simp
  | cons result results ih => rw [List.foldl_cons, ih, sqlAnd_eq_true, List.forall_mem_cons, and_assoc]

/-- **The rows that pass are those that satisfy every filter.** -/
theorem applyFilters_eq {columns : VideoColumns} {filters : List VideoFilter}
    {expression : Option VideoFilterExpression}
    (h : buildVideoFilterExpression columns filters = .ok expression)
    (values : OutputRow → List (Option OutputValue)) (rows : List OutputRow) :
    applyFilters expression values rows = rows.filter fun row =>
      filters.all fun filter => filter.evaluate (values row) == some true := by
  unfold buildVideoFilterExpression at h
  split at h
  · cases h
  split at h
  · cases h
    simp [applyFilters]
  · cases h
    simp [applyFilters, VideoFilterExpression.evaluate]
  · cases h
    unfold applyFilters
    apply List.filter_congr
    intro row _
    rw [Bool.eq_iff_iff, beq_iff_eq, VideoFilterExpression.evaluate, foldl_sqlAnd_eq_true]
    simp

end DuckdbLerobot.Video
