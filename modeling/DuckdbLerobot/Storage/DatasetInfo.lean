import DuckdbLerobot.Library.Double
import DuckdbLerobot.Path.RelativePath

/-!
# What the metadata of a dataset holds

The manifest `meta/info.json` is parsed into a `LerobotDatasetInfo`. The rows of the files below
`meta/episodes` route the episodes to the files of the dataset.
-/

set_option autoImplicit false

namespace DuckdbLerobot.Storage

open DuckdbLerobot.Library DuckdbLerobot.Path

/-- The types of DuckDB that features and episode columns have. -/
inductive LogicalType
  | any
  | boolean
  | tinyint
  | smallint
  | integer
  | bigint
  | utinyint
  | usmallint
  | uinteger
  | ubigint
  | float
  | double
  | varchar
  | blob
  | list (child : LogicalType)
  | array (child : LogicalType) (size : Nat)
  | struct (fields : List (String × LogicalType))

/-- `LerobotScanSchema`: the columns of a scan. -/
structure LerobotScanSchema where
  columns : List (Text × LogicalType) := []

/-- `LerobotVideoFeatureMetadata`: how the depths of a video are quantized. -/
structure LerobotVideoFeatureMetadata where
  isDepthMap : Bool := false
  depthMin : ℚ := 0
  depthMax : ℚ := 0
  shift : ℚ := 0
  useLog : Bool := false
  deriving DecidableEq

/-- `LerobotDatasetInfo`. -/
structure LerobotDatasetInfo where
  storageFormat : String := "lerobot"
  codebaseVersion : String
  dataPathTemplate : Text
  videoPathTemplate : Text := []
  fps : Int := 0
  totalEpisodes : Int := 0
  totalFrames : Int := 0
  totalTasks : Int := 0
  videoKeys : List Text := []
  videoFeatureMetadata : List LerobotVideoFeatureMetadata := []
  frameSchema : LerobotScanSchema := {}
  episodeSchema : LerobotScanSchema := {}

/-- `IsLance`. -/
def LerobotDatasetInfo.isLance (info : LerobotDatasetInfo) : Bool := info.storageFormat == "lance"

/-- The four columns of a video feature in an episode row. -/
structure VideoColumns where
  chunkIndex : Option Int
  fileIndex : Option Int
  fromTimestamp : Option Double
  toTimestamp : Option Double
  deriving DecidableEq

/-- The routing columns of a row of `meta/episodes`. -/
structure EpisodeRow where
  episodeIndex : Option Int
  length : Option Int
  chunkIndex : Option Int
  fileIndex : Option Int
  video : Text → VideoColumns

/-- `FileFingerprint`. -/
structure FileFingerprint where
  size : Int
  lastModified : Int
  versionTag : Text
  deriving DecidableEq

/-- `MetadataFile`. -/
structure MetadataFile where
  path : Text
  fingerprint : FileFingerprint
  deriving DecidableEq

/-- `NumericLimits<int64_t>::Maximum()`. -/
def int64Maximum : Int := 9223372036854775807

end DuckdbLerobot.Storage
