import DuckdbLerobot.Copy.Features

/-!
# The features in the manifest

`ParseLerobotInfo` reads the rows of a query over `meta/info.json`: one row for each feature of the
manifest. A dataset without episodes has no file from which the columns of its frames and episodes could
be read, so that they are made from the features (`buildEmptyDatasetSchemas`).
-/

set_option autoImplicit false

namespace DuckdbLerobot.Storage

open DuckdbLerobot.Library DuckdbLerobot.Path DuckdbLerobot.Copy DuckdbLerobot.Video

/-! ## The rows of the query -/

/-- The columns of the query that are read from the manifest itself. A missing field is `none`. -/
structure InfoFields where
  codebaseVersion : Option String
  dataPath : Option Text
  videoPath : Option Text
  fps : Option Int
  totalEpisodes : Option Int
  totalFrames : Option Int
  totalTasks : Option Int
  storageFormat : Option String

/-- The columns that are read from one of its features. -/
structure InfoFeatureFields where
  key : Text
  dtype : Option String
  shape : Option (List (Option Int))
  isDepthMap : Option Bool
  depthMin : Option Double
  depthMax : Option Double
  shift : Option Double
  useLog : Option Bool
  pixelFormat : Option String
  infoDepthMarker : Option String
  videoInfoDepthMarker : Option String

/-- A row. The feature is missing in the one row of a manifest without features. -/
structure InfoRow where
  recordIndex : Option Int
  fields : InfoFields
  feature : Option InfoFeatureFields

/-- `ParsedLerobotFeature`. -/
structure ParsedLerobotFeature where
  name : Text
  dtype : String
  shape : List Nat
  isDepth : Bool

/-! ## One feature -/

/-- One dimension of a shape in the manifest. -/
def parseInfoDimension (name : Text) (dimension : Option Int) : Except BinderException Nat :=
  match dimension with
  | none => .error ⟨s!"LeRobot feature '{String.ofList name}' shape dimensions must be positive"⟩
  | some value =>
      if value ≤ 0 then
        .error ⟨s!"LeRobot feature '{String.ofList name}' shape dimensions must be positive"⟩
      else .ok value.toNat

/-- The name, the `dtype` and the shape of a feature. -/
def parseInfoFeature (names : List Text) (fields : InfoFeatureFields) :
    Except BinderException ParsedLerobotFeature :=
  match fields.dtype with
  | none => .error ⟨"Each LeRobot feature requires a non-NULL dtype field"⟩
  | some dtype => do
      let name := fields.key
      validateLerobotFeatureName name
      refuse (names.any (ciEquals name)) <|
        if dtype = "video" then
          s!"Duplicate LeRobot video feature key '{String.ofList name}' in info.json"
        else s!"Duplicate LeRobot feature key '{String.ofList name}' in info.json"
      let shape ← (fields.shape.getD []).mapM (parseInfoDimension name)
      .ok ⟨name, dtype, shape, fields.isDepthMap.getD false⟩

/-- The quantizer of a depth video. -/
def parseDepthVideo (arithmetic : Arithmetic) (log : ℚ → ℚ) (feature : ParsedLerobotFeature)
    (fields : InfoFeatureFields) : Except BinderException LerobotVideoFeatureMetadata :=
  let name := String.ofList feature.name
  match fields.depthMin, fields.depthMax, fields.shift, fields.useLog, fields.pixelFormat with
  | some depthMin, some depthMax, some shift, some useLog, some pixelFormat => do
      refuse (feature.shape.length ≠ 3) <|
        s!"LeRobot depth video feature '{name}' requires video.depth_min, video.depth_max, " ++
          "video.shift, video.use_log, video.pix_fmt, and a channel dimension"
      match depthMin, depthMax, shift with
      | .finite depthMin, .finite depthMax, .finite shift =>
          refuse (depthMax ≤ depthMin ∨
              !lerobotValidFloat32DepthParameters arithmetic log depthMin depthMax shift useLog)
            s!"LeRobot depth video feature '{name}' has invalid quantization parameters"
          refuse (pixelFormat ≠ "gray12le")
            s!"LeRobot depth video feature '{name}' requires video.pix_fmt 'gray12le'"
          refuse (feature.shape[2]? ≠ some 1)
            s!"LeRobot depth video feature '{name}' requires exactly one channel"
          .ok ⟨true, depthMin, depthMax, shift, useLog⟩
      | _, _, _ =>
          .error ⟨s!"LeRobot depth video feature '{name}' has invalid quantization parameters"⟩
  | _, _, _, _, _ =>
      .error ⟨s!"LeRobot depth video feature '{name}' requires video.depth_min, video.depth_max, " ++
        "video.shift, video.use_log, video.pix_fmt, and a channel dimension"⟩

/-- Metadata that only a depth video has. -/
def hasDepthOnlyMetadata (feature : ParsedLerobotFeature) (fields : InfoFeatureFields) : Bool :=
  fields.depthMin.isSome || fields.depthMax.isSome || fields.shift.isSome || fields.useLog.isSome ||
    fields.pixelFormat == some "gray12le" ||
    (feature.shape.length == 3 && feature.shape[2]? == some 1)

/-- What a video feature has in addition. -/
def parseVideoFeature (arithmetic : Arithmetic) (log : ℚ → ℚ) (feature : ParsedLerobotFeature)
    (fields : InfoFeatureFields) : Except BinderException LerobotVideoFeatureMetadata := do
  let name := String.ofList feature.name
  refuse (fields.infoDepthMarker.any (· != "false") ∨ fields.videoInfoDepthMarker.any (· != "false"))
    s!"LeRobot video feature '{name}' uses a legacy depth marker; use info.is_depth_map instead"
  if feature.isDepth then parseDepthVideo arithmetic log feature fields
  else do
    refuse (hasDepthOnlyMetadata feature fields) <|
      s!"LeRobot video feature '{name}' uses depth-only metadata but info.is_depth_map is not true"
    .ok {}

/-! ## The columns of a dataset without episodes -/

/-- `AppendColumn`. -/
def LerobotScanSchema.appendColumn (schema : LerobotScanSchema) (name : Text) (type : LogicalType) :
    LerobotScanSchema :=
  ⟨schema.columns ++ [(name, type)]⟩

/-- One round of the loop of `BuildFrameSchema`. -/
def addFrameColumn (info : LerobotDatasetInfo) (feature : ParsedLerobotFeature) :
    Except BinderException LerobotDatasetInfo := do
  let name := String.ofList feature.name
  refuse (feature.shape = [] ∨ 5 < feature.shape.length)
    s!"LeRobot feature '{name}' requires a shape with one to five dimensions"
  refuse (feature.isDepth ∧ !isVisual feature.dtype)
    s!"LeRobot feature '{name}' marks is_depth_map but is not visual"
  refuse (isVisual feature.dtype ∧ feature.shape.length ≠ 3)
    s!"LeRobot visual feature '{name}' requires a three-dimensional HWC shape"
  refuse (isVisual feature.dtype ∧ feature.shape[2]? ≠ some (visualChannels feature.isDepth)) <|
    s!"LeRobot visual feature '{name}' requires {visualChannels feature.isDepth} HWC channel(s)"
  if feature.dtype = "language" ∧ info.isLance ∧ 0 < info.totalEpisodes ∧
      (feature.name = "language_persistent".toList ∨ feature.name = "language_events".toList) ∧
      feature.shape = [1] then
    .ok { info with frameSchema := info.frameSchema.appendColumn feature.name .any }
  else if feature.dtype ≠ "video" then do
    let type ← lerobotFeatureScanType feature.dtype feature.shape
    .ok { info with frameSchema := info.frameSchema.appendColumn feature.name type }
  else .ok info

/-- `BuildFrameSchema`. -/
def buildFrameSchema (info : LerobotDatasetInfo) (features : List ParsedLerobotFeature) :
    Except BinderException LerobotDatasetInfo := do
  refuse (features = []) "LeRobot info.json features must not be empty"
  features.foldlM addFrameColumn info

/-- The columns that the episodes of every dataset have. -/
def baseEpisodeColumns : List (Text × LogicalType) :=
  [("episode_index".toList, .bigint), ("tasks".toList, .list .varchar), ("length".toList, .bigint),
    ("data/chunk_index".toList, .bigint), ("data/file_index".toList, .bigint),
    ("dataset_from_index".toList, .bigint), ("dataset_to_index".toList, .bigint)]

/-- The columns of a video. -/
def videoEpisodeColumns (name : Text) : List (Text × LogicalType) :=
  let path := "videos/".toList ++ name ++ "/".toList
  [(path ++ "chunk_index".toList, .bigint), (path ++ "file_index".toList, .bigint),
    (path ++ "from_timestamp".toList, .double), (path ++ "to_timestamp".toList, .double)]

/-- The names of the statistics of a feature. -/
def statNames : List String :=
  ["min", "max", "mean", "std", "count", "q01", "q10", "q50", "q90", "q99"]

/-- The column of one statistic. -/
def statColumn (name : Text) (extremaType valueType : LogicalType) (statName : String) :
    Text × LogicalType :=
  ("stats/".toList ++ name ++ "/".toList ++ statName.toList,
    if statName = "count" then .list .bigint
    else if statName = "min" ∨ statName = "max" then extremaType else valueType)

/-- The columns of the statistics of a feature. -/
def statEpisodeColumns (feature : ParsedLerobotFeature) :
    Except BinderException (List (Text × LogicalType)) := do
  if feature.dtype = "string" then .ok []
  else do
    let dimensions := if isVisual feature.dtype then 3 else feature.shape.length
    let leafType ← lerobotStatExtremaLeafType feature.dtype
    let extremaType := lerobotNestedListType leafType dimensions
    let valueType := lerobotNestedListType .double dimensions
    .ok (statNames.map (statColumn feature.name extremaType valueType))

/-- The columns that say where the row of an episode is. -/
def metadataEpisodeColumns : List (Text × LogicalType) :=
  [("meta/episodes/chunk_index".toList, .bigint), ("meta/episodes/file_index".toList, .bigint)]

/-- `BuildEmptyDatasetSchemas`. -/
def buildEmptyDatasetSchemas (info : LerobotDatasetInfo) (features : List ParsedLerobotFeature) :
    Except BinderException LerobotDatasetInfo := do
  let info ← buildFrameSchema info features
  let videos := features.filter fun feature => feature.dtype == "video"
  let statistics ← features.mapM statEpisodeColumns
  .ok { info with
    episodeSchema := ⟨info.episodeSchema.columns ++ baseEpisodeColumns ++
      videos.flatMap (fun feature => videoEpisodeColumns feature.name) ++
      statistics.flatten ++ metadataEpisodeColumns⟩ }

/-! ## The manifest -/

/-- The variables of the loop over the rows. -/
structure InfoParse where
  info : Option LerobotDatasetInfo := none
  features : List ParsedLerobotFeature := []
  videos : List (Text × LerobotVideoFeatureMetadata) := []

/-- The fields of the manifest itself, in its first row. -/
def parseInfoFields (fields : InfoFields) : Except BinderException LerobotDatasetInfo := do
  let storageFormat := fields.storageFormat.getD "lerobot"
  refuse (storageFormat ≠ "lerobot" ∧ storageFormat ≠ "lance") <|
    s!"Unsupported LeRobot storage_format '{storageFormat}'; expected 'lerobot' or 'lance'"
  match fields.codebaseVersion, fields.dataPath, fields.fps, fields.totalEpisodes,
      fields.totalFrames, fields.totalTasks with
  | some codebaseVersion, some dataPath, some fps, some totalEpisodes, some totalFrames,
      some totalTasks =>
      .ok { storageFormat := storageFormat
            codebaseVersion := codebaseVersion
            dataPathTemplate := dataPath
            videoPathTemplate := fields.videoPath.getD []
            fps := fps
            totalEpisodes := totalEpisodes
            totalFrames := totalFrames
            totalTasks := totalTasks }
  | _, _, _, _, _, _ =>
      .error ⟨"LeRobot info.json requires non-NULL codebase_version, data_path, fps, " ++
        "total_episodes, total_frames, and total_tasks fields"⟩

/-- The feature of a row. -/
def addInfoFeature (arithmetic : Arithmetic) (log : ℚ → ℚ) (parse : InfoParse)
    (fields : InfoFeatureFields) : Except BinderException InfoParse := do
  let feature ← parseInfoFeature (parse.features.map ParsedLerobotFeature.name) fields
  if feature.dtype ≠ "video" then .ok { parse with features := parse.features ++ [feature] }
  else do
    let metadata ← parseVideoFeature arithmetic log feature fields
    .ok { parse with
      features := parse.features ++ [feature]
      videos := parse.videos ++ [(feature.name, metadata)] }

/-- The fields of the first row are the ones that count. -/
def firstInfo (info : Option LerobotDatasetInfo) (fields : InfoFields) :
    Except BinderException LerobotDatasetInfo :=
  match info with
  | some info => .ok info
  | none => parseInfoFields fields

/-- One round of the loop of `ParseLerobotInfo`. -/
def parseInfoRow (arithmetic : Arithmetic) (log : ℚ → ℚ) (infoPath : Text) (parse : InfoParse)
    (row : InfoRow) : Except BinderException InfoParse := do
  refuse (row.recordIndex = none) <|
    s!"LeRobot info.json produced a NULL metadata record index: '{String.ofList infoPath}'"
  refuse (row.recordIndex ≠ some 1) <|
    s!"LeRobot info.json must contain exactly one metadata record: '{String.ofList infoPath}'"
  let info ← firstInfo parse.info row.fields
  let parse := { parse with info := some info }
  match row.feature with
  | none => .ok parse
  | some fields => addInfoFeature arithmetic log parse fields

/-- `IsV3Version`. -/
def isV3Version (version : String) : Bool :=
  version == "v3" || version == "3" || "v3.".toList.isPrefixOf version.toList ||
    "3.".toList.isPrefixOf version.toList

/-- What the source checks of the manifest after the loop. -/
def checkInfo (info : LerobotDatasetInfo) : Except BinderException Unit := do
  refuse (info.codebaseVersion = "" ∨ info.dataPathTemplate = [])
    "LeRobot info.json codebase_version and data_path fields must not be empty"
  refuse (!isV3Version info.codebaseVersion) <|
    s!"LeRobot route pruning currently requires a v3 dataset, found codebase_version " ++
      s!"'{info.codebaseVersion}'"
  refuse (info.fps ≤ 0) "LeRobot info.json fps must be positive"
  refuse (info.totalEpisodes < 0 ∨ info.totalFrames < 0 ∨ info.totalTasks < 0)
    "LeRobot info.json total counts must be non-negative"
  refuse (¬(info.totalEpisodes = 0 ↔ info.totalFrames = 0)) <|
    "LeRobot info.json total_episodes and total_frames must either both be zero or both be positive"

/-- The names that Lance gives the columns are distinct. -/
def checkLanceNames (names : List Text) : Except BinderException Unit := do
  let _ ← names.foldlM (fun (seen : List Text) (name : Text) => do
    let lanceName := name.map fun ch => if ch = '.' then '_' else ch
    refuse (seen.any (ciEquals lanceName)) <|
      s!"LeRobot Lance feature names collide after replacing '.' with '_': " ++
        s!"'{String.ofList name}'"
    .ok (seen ++ [lanceName])) []
  .ok ()

/-- The schemas that are made from the features. -/
def buildSchemas (info : LerobotDatasetInfo) (features : List ParsedLerobotFeature) :
    Except BinderException LerobotDatasetInfo :=
  if info.totalEpisodes = 0 then buildEmptyDatasetSchemas info features
  else if info.isLance then buildFrameSchema info features
  else .ok info

/-- `ParseLerobotInfo`, on the rows of its query. -/
def parseLerobotInfo (arithmetic : Arithmetic) (log : ℚ → ℚ) (infoPath : Text)
    (rows : List InfoRow) : Except BinderException LerobotDatasetInfo := do
  let parse ← rows.foldlM (parseInfoRow arithmetic log infoPath) {}
  match parse.info with
  | none => .error ⟨"LeRobot info.json contains no metadata record: " ++
      s!"'{String.ofList infoPath}'"⟩
  | some info => do
      checkInfo info
      let videos := parse.videos.mergeSort fun left right => decide (left.1 ≤ right.1)
      let info := { info with
        videoKeys := videos.map Prod.fst
        videoFeatureMetadata := videos.map Prod.snd }
      refuse (info.videoKeys ≠ [] ∧ info.videoPathTemplate = [])
        "LeRobot info.json requires video_path when video features are present"
      let info ← buildSchemas info parse.features
      if info.isLance then do
        checkLanceNames (info.frameSchema.columns.map Prod.fst)
        .ok info
      else .ok info

end DuckdbLerobot.Storage
