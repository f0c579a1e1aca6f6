import DuckdbLerobot.Path.WriterPaths
import DuckdbLerobot.Storage.InfoFeatures

/-!
# Binding `COPY ... (FORMAT lerobot)`

The bind checks the options and the columns of the input, and lists the columns of the files that COPY
writes: those of the frames and those of the episodes. When there was no row to write, COPY writes a
manifest and nothing else.
-/

set_option autoImplicit false

namespace DuckdbLerobot.Copy

open DuckdbLerobot.Library DuckdbLerobot.Path DuckdbLerobot.Storage DuckdbLerobot.Video

/-! ## Equal types -/

mutual

/-- `==` of two types. -/
def sameType : LogicalType → LogicalType → Bool
  | .any, .any | .boolean, .boolean | .tinyint, .tinyint | .smallint, .smallint
  | .integer, .integer | .bigint, .bigint | .utinyint, .utinyint | .usmallint, .usmallint
  | .uinteger, .uinteger | .ubigint, .ubigint | .float, .float | .double, .double
  | .varchar, .varchar | .blob, .blob => true
  | .list left, .list right => sameType left right
  | .array left leftSize, .array right rightSize => leftSize == rightSize && sameType left right
  | .struct left, .struct right => sameFields left right
  | _, _ => false

/-- `==` of the fields of two `STRUCT` types. -/
def sameFields : List (String × LogicalType) → List (String × LogicalType) → Bool
  | [], [] => true
  | left :: lefts, right :: rights => sameField left right && sameFields lefts rights
  | _, _ => false

/-- `==` of two fields. -/
def sameField : String × LogicalType → String × LogicalType → Bool
  | (leftName, left), (rightName, right) => leftName == rightName && sameType left right

end

/-! ## The options -/

/-- An option of the statement, with the values that it lists. -/
abbrev CopyOption (α : Type) := Option (List (Option α))

/-- `GetSingleOption`. -/
def getSingleOption {α : Type} (name : String) (required : Bool) (option : CopyOption α) :
    Except BinderException (Option α) :=
  match option with
  | none =>
      if required then .error ⟨s!"FORMAT lerobot requires the {name} option"⟩ else .ok none
  | some [some value] => .ok (some value)
  | some _ =>
      .error ⟨s!"FORMAT lerobot option {name} requires exactly one non-NULL value"⟩

/-- The options that the columns of a dataset depend on, and those of its depth videos. -/
structure CopyOptions where
  fps : CopyOption Int
  features : CopyOption (List FeatureRow)
  depthMin : CopyOption Double := none
  depthMax : CopyOption Double := none
  depthShift : CopyOption Double := none
  depthUseLog : CopyOption Bool := none

/-- `LerobotVideoEncodingConfig`, as far as it goes into the manifest. -/
structure LerobotVideoEncodingConfig where
  depthMin : ℚ
  depthMax : ℚ
  depthShift : ℚ
  depthUseLog : Bool

/-- The text of the exception for parameters out of order. -/
def depthOrderMessage : String :=
  "LeRobot depth parameters require finite 0 <= DEPTH_MIN < DEPTH_MAX and, for log " ++
    "quantization, DEPTH_MIN + DEPTH_SHIFT > 0"

/-- One round of the loop over the two units of input. -/
def representableIn (arithmetic : Arithmetic) (config : LerobotVideoEncodingConfig) (scale : ℚ) :
    Bool :=
  let scaled (value : ℚ) : Double := float32.map id (arithmetic.double.round (value * scale))
  match scaled config.depthMin, scaled config.depthMax, scaled config.depthShift with
  | .finite low, .finite high, .finite shift =>
      let lowShifted := float32.round (low + shift)
      let highShifted := float32.round (high + shift)
      decide (low < high) && (!config.depthUseLog ||
        (Double.less (.finite 0) lowShifted && highShifted.isFinite &&
          Double.less lowShifted highShifted))
  | _, _, _ => false

/-- The depth parameters in `ParseLerobotCopyOptionalConfig`. -/
def parseDepthOptions (arithmetic : Arithmetic) (log : ℚ → ℚ) (options : CopyOptions) :
    Except BinderException LerobotVideoEncodingConfig := do
  let depthMin ← getSingleOption "DEPTH_MIN" false options.depthMin
  let depthMax ← getSingleOption "DEPTH_MAX" false options.depthMax
  let depthShift ← getSingleOption "DEPTH_SHIFT" false options.depthShift
  let useLog ← getSingleOption "DEPTH_USE_LOG" false options.depthUseLog
  match depthMin.getD (Double.rounded (1 / 100)), depthMax.getD (.finite 10),
      depthShift.getD (.finite (7 / 2)) with
  | .finite depthMin, .finite depthMax, .finite depthShift =>
      let config := ⟨depthMin, depthMax, depthShift, useLog.getD false⟩
      refuse (depthMin < 0 ∨ depthMax ≤ depthMin ∨ (config.depthUseLog ∧
          !Double.less (.finite 0) (arithmetic.double.round (depthMin + depthShift))))
        depthOrderMessage
      refuse (!lerobotValidFloat32DepthParameters arithmetic log depthMin depthMax depthShift
          config.depthUseLog)
        "LeRobot depth parameters are not representable for float32 dequantization"
      refuse (!([1, 1000].all (representableIn arithmetic config)))
        "LeRobot depth parameters are not representable in float32 metres and millimetres"
      .ok config
  | _, _, _ => .error ⟨depthOrderMessage⟩

/-! ## The columns -/

/-- `LerobotCopyBindData`, as far as the columns depend on it. -/
structure LerobotCopyBindData where
  inputColumns : List (Text × LogicalType)
  features : List LerobotFeature
  dataNames : List Text := []
  dataTypes : List LogicalType := []
  episodeNames : List Text := []
  episodeTypes : List LogicalType := []
  episodeInputIndex : Nat := 0
  taskInputIndex : Nat := 0
  fps : Nat
  encoding : LerobotVideoEncodingConfig

/-- The position of a name in `input_indexes`. -/
def findInput (inputColumns : List (Text × LogicalType)) (name : Text) : Option Nat :=
  inputColumns.findIdx? fun column => ciEquals column.1 name

/-- The names of two columns of the input are not the same one. -/
def checkInputNames (inputColumns : List (Text × LogicalType)) : Except BinderException Unit := do
  let _ ← inputColumns.foldlM (fun (seen : List Text) (column : Text × LogicalType) => do
    refuse (seen.any (ciEquals column.1)) "FORMAT lerobot input columns must be unique"
    .ok (seen ++ [column.1])) []
  .ok ()

/-- The type of a column of the input, where `findInput` has found one. -/
def inputType (inputColumns : List (Text × LogicalType)) (index : Nat) : LogicalType :=
  (inputColumns[index]?.map Prod.snd).getD .any

/-- The column of a feature of the user in the input. -/
def bindInput (printType : LogicalType → String) (inputColumns : List (Text × LogicalType))
    (feature : LerobotFeature) : Except BinderException LerobotFeature :=
  if feature.userDefined then
    match findInput inputColumns feature.name with
    | none => .error ⟨"FORMAT lerobot input is missing feature column " ++
        s!"'{String.ofList feature.name}'"⟩
    | some index =>
        let type := inputType inputColumns index
        if !sameType type feature.storageType then
          .error ⟨s!"LeRobot feature '{String.ofList feature.name}' requires DuckDB type " ++
            s!"{printType feature.storageType}, found {printType type}"⟩
        else .ok { feature with inputIndex := some index }
  else .ok feature

/-- The column of a feature in the frames. Videos are in files of their own. -/
def bindOutput (bind : LerobotCopyBindData) (feature : LerobotFeature) : LerobotCopyBindData :=
  if feature.isVideo then { bind with features := bind.features ++ [feature] }
  else { bind with
    features := bind.features ++ [{ feature with outputIndex := some bind.dataNames.length }]
    dataNames := bind.dataNames ++ [feature.name]
    dataTypes := bind.dataTypes ++ [feature.outputType] }

/-- One round of the loop over the features, which also counts the columns of the input. -/
def bindFeature (printType : LogicalType → String) (inputColumns : List (Text × LogicalType))
    (state : LerobotCopyBindData × Nat) (feature : LerobotFeature) :
    Except BinderException (LerobotCopyBindData × Nat) :=
  (bindInput printType inputColumns feature).map fun bound =>
    (bindOutput state.1 bound, state.2 + if feature.userDefined then 1 else 0)

/-- `episode_names.push_back` with `episode_types.push_back`. -/
def LerobotCopyBindData.pushEpisode (bind : LerobotCopyBindData) (name : Text)
    (type : LogicalType) : LerobotCopyBindData :=
  { bind with
    episodeNames := bind.episodeNames ++ [name]
    episodeTypes := bind.episodeTypes ++ [type] }

/-- The columns of a video feature. -/
def appendVideoColumns (bind : LerobotCopyBindData) (feature : LerobotFeature) :
    LerobotCopyBindData :=
  if !feature.isVideo then bind
  else
    let path := "videos/".toList ++ feature.name ++ "/".toList
    let bind := { bind with
      episodeNames := bind.episodeNames ++ [path ++ "chunk_index".toList,
        path ++ "file_index".toList, path ++ "from_timestamp".toList,
        path ++ "to_timestamp".toList] }
    { bind with episodeTypes := bind.episodeTypes ++ [.bigint, .bigint, .double, .double] }

/-- `AppendStatColumns`. -/
def appendStatColumns (bind : LerobotCopyBindData) (feature : LerobotFeature) :
    Except BinderException LerobotCopyBindData :=
  if !feature.hasStatistics then .ok bind
  else do
    let statShape := if feature.isImage || feature.isVideo then [feature.shape.getD 2 0, 1, 1]
      else feature.shape
    let leafType ← lerobotStatExtremaLeafType feature.dtype
    let extremaType := lerobotNestedListType leafType statShape.length
    let valueType := lerobotNestedListType .double statShape.length
    let countType : LogicalType := .list .bigint
    let names := ["min", "max", "mean", "std", "count", "q01", "q10", "q50", "q90", "q99"]
    .ok (names.foldl (fun bind name =>
      bind.pushEpisode ("stats/".toList ++ feature.name ++ "/".toList ++ name.toList)
        (if name = "count" then countType
          else if name = "min" ∨ name = "max" then extremaType else valueType)) bind)

/-- The columns that every episode has. -/
def LerobotCopyBindData.withEpisodeBase (bind : LerobotCopyBindData) : LerobotCopyBindData :=
  { bind with
    episodeNames := ["episode_index", "tasks", "length", "data/chunk_index", "data/file_index",
      "dataset_from_index", "dataset_to_index"].map String.toList
    episodeTypes := [.bigint, .list .varchar, .bigint, .bigint, .bigint, .bigint, .bigint] }

/-- The columns of the episodes, at the end of `LerobotCopyBind`. -/
def bindEpisodeColumns (bind : LerobotCopyBindData) : Except BinderException LerobotCopyBindData := do
  let bind := bind.features.foldl appendVideoColumns bind.withEpisodeBase
  let bind ← bind.features.foldlM appendStatColumns bind
  .ok ((bind.pushEpisode "meta/episodes/chunk_index".toList .bigint).pushEpisode
    "meta/episodes/file_index".toList .bigint)

/-- The checks of the column `episode_index` and of the column `task`. -/
def bindInputColumns (printType : LogicalType → String)
    (inputColumns : List (Text × LogicalType)) : Except BinderException (Nat × Nat) := do
  checkInputNames inputColumns
  match findInput inputColumns "episode_index".toList, findInput inputColumns "task".toList with
  | some episode, some task => do
      let episodeType := inputType inputColumns episode
      let taskType := inputType inputColumns task
      refuse (!sameType episodeType .bigint)
        s!"FORMAT lerobot episode_index must be BIGINT, found {printType episodeType}"
      refuse (!sameType taskType .varchar)
        s!"FORMAT lerobot task must be VARCHAR, found {printType taskType}"
      .ok (episode, task)
  | _, _ => .error ⟨"FORMAT lerobot input requires episode_index and task columns"⟩

/-- `LerobotCopyBind`. The names and the types of the input are vectors of one length. How DuckDB prints
a type is a parameter. -/
def lerobotCopyBind (arithmetic : Arithmetic) (log : ℚ → ℚ) (printType : LogicalType → String)
    (options : CopyOptions) (inputColumns : List (Text × LogicalType)) :
    Except BinderException LerobotCopyBindData := do
  let fps ← getSingleOption "FPS" true options.fps
  refuse (fps.getD 0 ≤ 0) "LeRobot FPS must be positive"
  let rows ← getSingleOption "FEATURES" true options.features
  let userFeatures ← parseUserFeatures (rows.getD [])
  let defaults ← defaultFeatures
  let features := userFeatures ++ defaults
  let encoding ← parseDepthOptions arithmetic log options
  let (episodeInputIndex, taskInputIndex) ← bindInputColumns printType inputColumns
  let bind : LerobotCopyBindData :=
    { inputColumns := inputColumns
      features := []
      episodeInputIndex := episodeInputIndex
      taskInputIndex := taskInputIndex
      fps := (fps.getD 0).toNat
      encoding := encoding }
  let (bind, expectedColumns) ← features.foldlM (bindFeature printType inputColumns) (bind, 2)
  refuse (inputColumns.length ≠ expectedColumns) <|
    s!"FORMAT lerobot input has {inputColumns.length} columns; expected exactly episode_index, " ++
      s!"task, and {expectedColumns - 2} user feature columns"
  bindEpisodeColumns bind

/-! ## The manifest -/

/-- The object `info` of a feature, as far as it is read back. -/
structure VisualInfo where
  pixelFormat : Option String := none
  quantizer : Option LerobotVideoEncodingConfig := none
  isDepthMap : Bool

/-- What COPY knows of a visual feature at the end: the type of its raw frames, when there was one, and
the pixel format of its encoded videos. -/
structure WrittenVisual where
  rawTypePresent : Bool := false
  encodedPixelFormat : Option String := none

/-- `VisualInfoJSON`. -/
def visualInfo (encoding : LerobotVideoEncodingConfig) (feature : LerobotFeature)
    (written : WrittenVisual) : Option VisualInfo :=
  if !feature.isImage && !feature.isVideo then none
  else if !written.rawTypePresent then
    if !feature.isDepth then none
    else if feature.isImage then some ⟨none, none, true⟩
    else some ⟨some "gray12le", some encoding, true⟩
  else if feature.isImage then if feature.isDepth then some ⟨none, none, true⟩ else none
  else written.encodedPixelFormat.map fun pixelFormat =>
    ⟨some pixelFormat, if feature.isDepth then some encoding else none, feature.isDepth⟩

/-- `InfoJSON`, as a value. -/
structure InfoJson where
  fps : Nat
  features : List (Text × String × List Nat × Option VisualInfo)
  totalEpisodes : Nat
  totalFrames : Nat
  totalTasks : Nat
  hasVideo : Bool

/-- `InfoJSON` after a statement without rows. -/
def LerobotCopyBindData.emptyInfoJson (bind : LerobotCopyBindData) : InfoJson where
  fps := bind.fps
  features := bind.features.map fun feature =>
    (feature.name, feature.dtype, feature.shape, visualInfo bind.encoding feature {})
  totalEpisodes := 0
  totalFrames := 0
  totalTasks := 0
  hasVideo := bind.features.any LerobotFeature.isVideo

/-- A dimension in the manifest. -/
def writtenDimension (dimension : Nat) : Option Int := some dimension

/-- The columns that the query of `ParseLerobotInfo` reads from a feature. COPY writes none of the two
legacy markers. -/
def infoFeatureFields (feature : Text × String × List Nat × Option VisualInfo) :
    InfoFeatureFields :=
  let (key, dtype, shape, info) := feature
  let quantizer := info.bind VisualInfo.quantizer
  { key := key
    dtype := some dtype
    shape := some (shape.map writtenDimension)
    isDepthMap := info.map VisualInfo.isDepthMap
    depthMin := quantizer.map fun config => .finite config.depthMin
    depthMax := quantizer.map fun config => .finite config.depthMax
    shift := quantizer.map fun config => .finite config.depthShift
    useLog := quantizer.map LerobotVideoEncodingConfig.depthUseLog
    pixelFormat := info.bind VisualInfo.pixelFormat
    infoDepthMarker := none
    videoInfoDepthMarker := none }

/-- The columns that it reads from the manifest itself. -/
def InfoJson.fields (info : InfoJson) : InfoFields where
  codebaseVersion := some "v3.0"
  dataPath := some lerobotDataPath.toList
  videoPath := if info.hasVideo then some lerobotVideoPath.toList else none
  fps := some info.fps
  totalEpisodes := some info.totalEpisodes
  totalFrames := some info.totalFrames
  totalTasks := some info.totalTasks
  storageFormat := none

/-- The rows of the query, in the order of the features. -/
def InfoJson.rows (info : InfoJson) : List InfoRow :=
  if info.features = [] then [⟨some 1, info.fields, none⟩]
  else info.features.map fun feature => ⟨some 1, info.fields, some (infoFeatureFields feature)⟩

end DuckdbLerobot.Copy
