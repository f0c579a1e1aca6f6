import DuckdbLerobot.Copy.GeneratedTimestamps
import DuckdbLerobot.Video.VideoBinds

/-!
# The features of a dataset

A feature has a name, a `dtype` and a shape. Its `dtype` and shape determine the type of its column in
the input of COPY, in the files that COPY writes, and in a scan of these files. The option `FEATURES` of
COPY lists the features of the user, and five features are added to every dataset.
-/

set_option autoImplicit false

namespace DuckdbLerobot.Copy

open DuckdbLerobot.Library DuckdbLerobot.Path DuckdbLerobot.Storage DuckdbLerobot.Video

/-! ## The types of a feature -/

/-- `LerobotDtypeToLogicalType`. -/
def lerobotDtypeToLogicalType (dtype : String) : Except BinderException LogicalType :=
  match dtype with
  | "float32" => .ok .float
  | "float64" => .ok .double
  | "int8" => .ok .tinyint
  | "int16" => .ok .smallint
  | "int32" => .ok .integer
  | "int64" => .ok .bigint
  | "uint8" => .ok .utinyint
  | "uint16" => .ok .usmallint
  | "uint32" => .ok .uinteger
  | "uint64" => .ok .ubigint
  | "bool" => .ok .boolean
  | "string" => .ok .varchar
  | _ => .error ⟨s!"Unsupported LeRobot v3 feature dtype '{dtype}'"⟩

/-- Images and videos. -/
def isVisual (dtype : String) : Bool := dtype == "image" || dtype == "video"

/-- `LerobotFeatureStorageType`: the type of the column in the input of COPY. -/
def lerobotFeatureStorageType (dtype : String) (shape : List Nat) :
    Except BinderException LogicalType :=
  if isVisual dtype then .ok .blob
  else (lerobotDtypeToLogicalType dtype).map fun element =>
    if shape = [1] then element
    -- The source goes through the dimensions from the last one to the first.
    else shape.foldr (fun size child => .array child size) element

/-- An image in a file: its encoded bytes and its name. -/
def imageType : LogicalType := .struct [("bytes", .blob), ("path", .varchar)]

/-- `LerobotFeatureOutputType`: the type of the column that COPY writes. -/
def lerobotFeatureOutputType (dtype : String) (shape : List Nat) :
    Except BinderException LogicalType :=
  if dtype = "image" then .ok imageType else lerobotFeatureStorageType dtype shape

/-- `LerobotNestedListType`. -/
def lerobotNestedListType (leaf : LogicalType) : Nat → LogicalType
  | 0 => leaf
  | dimensions + 1 => .list (lerobotNestedListType leaf dimensions)

/-- `LerobotFeatureScanType`: the type of the column in a scan. -/
def lerobotFeatureScanType (dtype : String) (shape : List Nat) : Except BinderException LogicalType :=
  if dtype = "image" then .ok imageType
  else (lerobotDtypeToLogicalType dtype).map fun element =>
    if shape = [1] then element
    -- The loop of the source is the one of `LerobotNestedListType`.
    else lerobotNestedListType element shape.length

/-- `LogicalType::IsIntegral`. -/
def isIntegral : LogicalType → Bool
  | .tinyint | .smallint | .integer | .bigint | .utinyint | .usmallint | .uinteger | .ubigint => true
  | _ => false

/-- `LerobotHasIntegerExtrema`. -/
def lerobotHasIntegerExtrema (dtype : String) : Except BinderException Bool :=
  if isVisual dtype || dtype == "string" then .ok false
  else (lerobotDtypeToLogicalType dtype).map isIntegral

/-- `LerobotStatExtremaLeafType`. -/
def lerobotStatExtremaLeafType (dtype : String) : Except BinderException LogicalType :=
  (lerobotHasIntegerExtrema dtype).map fun hasIntegerExtrema =>
    if !hasIntegerExtrema then .double
    else if dtype = "uint64" then .ubigint else .bigint

/-! ## The features of the option `FEATURES` -/

/-- `LerobotFeature`. The texts that only go into `info.json` are left out. -/
structure LerobotFeature where
  name : Text
  dtype : String
  shape : List Nat
  storageType : LogicalType
  outputType : LogicalType
  inputIndex : Option Nat := none
  outputIndex : Option Nat := none
  userDefined : Bool := true
  isString : Bool := false
  isImage : Bool := false
  isVideo : Bool := false
  isDepth : Bool := false

/-- `HasStatistics`. -/
def LerobotFeature.hasStatistics (feature : LerobotFeature) : Bool := !feature.isString

/-- A row of the query over the option `FEATURES`. A field that the JSON does not have is `none`. -/
structure FeatureRow where
  key : Text
  dtype : Option String
  shape : Option (List (Option Int))
  isDepthMap : Bool := false

/-- `ArrayType::MAX_ARRAY_SIZE`. -/
def maxArraySize : Int := 100000

/-- `NumericLimits<idx_t>::Maximum()`. -/
def idxMaximum : Nat := 2 ^ 64 - 1

/-- One dimension of a shape. A dimension is an `int64_t`, so that no positive one is above the maximum
of `idx_t`. -/
def parseDimension (name : Text) (dtype : String) (dimension : Option Int) :
    Except BinderException Nat :=
  match dimension with
  | none => .error ⟨s!"LeRobot feature '{String.ofList name}' shape cannot contain NULL"⟩
  | some value =>
      if value ≤ 0 then
        .error ⟨s!"LeRobot feature '{String.ofList name}' shape dimensions must be positive"⟩
      else if !isVisual dtype ∧ maxArraySize < value then
        .error ⟨s!"LeRobot feature '{String.ofList name}' shape dimension is too large"⟩
      else .ok value.toNat

/-- `ShapeWidth`. -/
def shapeWidth (shape : List Nat) : Except BinderException Nat :=
  shape.foldlM (fun width dimension =>
    if dimension = 0 ∨ idxMaximum / dimension < width then
      .error ⟨"LeRobot feature shape is empty or too large"⟩
    else .ok (width * dimension)) 1

/-- The columns that COPY writes itself. -/
def generatedNames : List String :=
  ["task", "timestamp", "frame_index", "episode_index", "index", "task_index"]

/-- The channels of a frame. -/
def visualChannels (isDepth : Bool) : Nat := if isDepth then 1 else 3

/-- What the source checks of a feature with a valid shape, before its types. -/
def checkFeature (name : Text) (dtype : String) (shape : List Nat) (isDepth : Bool)
    (names : List Text) : Except BinderException Unit := do
  validateLerobotFeatureName name
  refuse (shape = [] ∨ 5 < shape.length)
    s!"LeRobot feature '{String.ofList name}' requires a shape with one to five dimensions"
  refuse (generatedNames.any fun generated => ciEquals name generated.toList) <|
    s!"LeRobot feature '{String.ofList name}' is generated by FORMAT lerobot and must not be in " ++
      "FEATURES"
  refuse (names.any (ciEquals name)) s!"Duplicate LeRobot feature name '{String.ofList name}'"
  refuse (isVisual dtype ∧ shape.length ≠ 3) <|
    s!"LeRobot visual feature '{String.ofList name}' requires a three-dimensional HWC shape"
  refuse (isDepth ∧ !isVisual dtype)
    s!"LeRobot feature '{String.ofList name}' marks is_depth_map but is not visual"
  refuse (isVisual dtype ∧ shape[2]? ≠ some (visualChannels isDepth)) <|
    s!"LeRobot visual feature '{String.ofList name}' requires {visualChannels isDepth} HWC channel(s)"

/-- One round of the loop of `ParseUserFeatures`. -/
def parseFeatureRow (features : List LerobotFeature) (row : FeatureRow) :
    Except BinderException (List LerobotFeature) :=
  match row.dtype, row.shape with
  | some dtype, some dimensions => do
      let shape ← dimensions.mapM (parseDimension row.key dtype)
      checkFeature row.key dtype shape row.isDepthMap (features.map LerobotFeature.name)
      let storageType ← lerobotFeatureStorageType dtype shape
      let outputType ← lerobotFeatureOutputType dtype shape
      let _ ← shapeWidth shape
      .ok (features ++ [{ name := row.key
                          dtype := dtype
                          shape := shape
                          storageType := storageType
                          outputType := outputType
                          isString := dtype == "string"
                          isImage := dtype == "image"
                          isVideo := dtype == "video"
                          isDepth := row.isDepthMap }])
  | _, _ => .error ⟨"Each LeRobot feature requires non-NULL dtype and shape fields"⟩

/-- `ParseUserFeatures`. -/
def parseUserFeatures (rows : List FeatureRow) : Except BinderException (List LerobotFeature) :=
  rows.foldlM parseFeatureRow []

/-- `DefaultFeature`. -/
def defaultFeature (name dtype : String) : Except BinderException LerobotFeature :=
  (lerobotDtypeToLogicalType dtype).map fun storageType =>
    { name := name.toList
      dtype := dtype
      shape := [1]
      storageType := storageType
      outputType := storageType
      userDefined := false }

/-- The columns of the frames that COPY adds. -/
def generatedColumns : List (String × String) :=
  [("timestamp", "float32"), ("frame_index", "int64"), ("episode_index", "int64"),
    ("index", "int64"), ("task_index", "int64")]

/-- The features that `LerobotCopyBind` adds. -/
def defaultFeatures : Except BinderException (List LerobotFeature) :=
  generatedColumns.mapM fun column => defaultFeature column.1 column.2

/-! ## The quantization of depth videos -/

/-- The quotient of a quantizer with 4095 steps. -/
def depthScale (arithmetic : Arithmetic) (low high : ℚ) : Double :=
  arithmetic.double.map (· / 4095) (arithmetic.double.round (high - low))

/-- `LerobotValidFloat32DepthParameters`, for the finite values that its callers pass on. The result of
`std::log` for a positive value is finite. -/
def lerobotValidFloat32DepthParameters (arithmetic : Arithmetic) (log : ℚ → ℚ)
    (depthMin depthMax shift : ℚ) (useLog : Bool) : Bool :=
  let depthMinFloat := float32.round depthMin
  let depthMaxFloat := float32.round depthMax
  let representable (scale : Double) (offset : ℚ) : Bool :=
    let scaleFloat := float32.map id scale
    scaleFloat.isFinite && Double.less (.finite 0) scaleFloat && (float32.round offset).isFinite
  if !depthMinFloat.isFinite || !depthMaxFloat.isFinite || !(float32.round shift).isFinite ||
      !Double.less depthMinFloat depthMaxFloat then false
  else if useLog then
    match arithmetic.double.round (depthMin + shift), arithmetic.double.round (depthMax + shift) with
    | .finite shiftedMin, .finite shiftedMax =>
        if shiftedMin ≤ 0 ∨ shiftedMax ≤ shiftedMin then false
        else representable (depthScale arithmetic (log shiftedMin) (log shiftedMax)) (log shiftedMin)
    | _, _ => false
  else representable (depthScale arithmetic depthMin depthMax) depthMin

/-! ## What a parsed feature is -/

/-- What holds of a feature that a bind has accepted. -/
structure LerobotFeature.WellFormed (feature : LerobotFeature) : Prop where
  portable : validateLerobotFeatureName feature.name = .ok ()
  shape_ne_nil : feature.shape ≠ []
  shape_length : feature.shape.length ≤ 5
  shape_pos : ∀ dimension ∈ feature.shape, 0 < dimension
  visual_length : isVisual feature.dtype = true → feature.shape.length = 3
  visual_channels : isVisual feature.dtype = true →
    feature.shape[2]? = some (visualChannels feature.isDepth)
  depth_visual : feature.isDepth = true → isVisual feature.dtype = true
  output_eq : lerobotFeatureOutputType feature.dtype feature.shape = .ok feature.outputType
  storage_eq : lerobotFeatureStorageType feature.dtype feature.shape = .ok feature.storageType
  isString_eq : feature.isString = (feature.dtype == "string")
  isImage_eq : feature.isImage = (feature.dtype == "image")
  isVideo_eq : feature.isVideo = (feature.dtype == "video")

/-- What holds of all of them. -/
structure FeaturesWellFormed (features : List LerobotFeature) : Prop where
  each : ∀ feature ∈ features, feature.WellFormed
  names_distinct : features.Pairwise fun a b => ciEquals a.name b.name = false

/-- The features that the user lists have none of the generated names. -/
structure UserFeatures (features : List LerobotFeature) : Prop extends
    FeaturesWellFormed features where
  not_generated : ∀ feature ∈ features, ∀ generated ∈ generatedNames,
    ciEquals feature.name generated.toList = false

theorem ciEquals_comm (left right : Text) : ciEquals left right = ciEquals right left := by
  rw [ciEquals, ciEquals, decide_eq_decide]
  exact eq_comm

theorem FeaturesWellFormed.concat {features : List LerobotFeature} {feature : LerobotFeature}
    (h : FeaturesWellFormed features) (hfeature : feature.WellFormed)
    (hname : ∀ other ∈ features, ciEquals feature.name other.name = false) :
    FeaturesWellFormed (features ++ [feature]) where
  each := by
    intro other hother
    rcases List.mem_append.mp hother with hold | hnew
    · exact h.each other hold
    · rwa [List.mem_singleton.mp hnew]
  names_distinct := by
    refine List.pairwise_append.mpr ⟨h.names_distinct, List.pairwise_singleton _ _, ?_⟩
    intro other hother new hnew
    rw [List.mem_singleton.mp hnew, ciEquals_comm]
    exact hname other hother

theorem parseDimension_pos {name : Text} {dtype : String} {dimension : Option Int} {size : Nat}
    (h : parseDimension name dtype dimension = .ok size) : 0 < size := by
  cases dimension with
  | none => cases h
  | some value =>
      simp only [parseDimension, except_check_eq_ok] at h
      obtain ⟨hpos, -, hok⟩ := h
      cases hok
      omega

/-- A row that is accepted adds a feature with its fields, under a name that is new. -/
theorem parseFeatureRow_cases {features result : List LerobotFeature} {row : FeatureRow}
    (h : parseFeatureRow features row = .ok result) :
    ∃ feature : LerobotFeature, result = features ++ [feature] ∧ feature.WellFormed ∧
      (∀ other ∈ features, ciEquals feature.name other.name = false) ∧
      ∀ generated ∈ generatedNames, ciEquals feature.name generated.toList = false := by
  unfold parseFeatureRow at h
  split at h
  · rename_i dtype dimensions hdtype hshape
    simp only [checkFeature, except_bind_eq_ok, refuse_eq_ok] at h
    obtain ⟨shape, hdimensions, _, ⟨_, hportable, -, hlength, -, hgenerated, -, hnames, -,
      hvisual, -, hdepth, hchannels⟩, storageType, hstorage, outputType, houtput, -, -, hok⟩ := h
    have hpos : ∀ dimension ∈ shape, 0 < dimension := by
      intro dimension hdimension
      obtain ⟨source, -, hsource⟩ := exists_mem_of_mapM hdimensions hdimension
      exact parseDimension_pos hsource
    refine ⟨_, (Except.ok.inj hok).symm, ?_, ?_, ?_⟩
    · exact {
        portable := hportable
        shape_ne_nil := fun hnil => hlength (.inl hnil)
        shape_length := Nat.le_of_not_lt fun hlong => hlength (.inr hlong)
        shape_pos := hpos
        visual_length := fun h => of_not_not fun hne => hvisual ⟨h, hne⟩
        visual_channels := fun h => of_not_not fun hne => hchannels ⟨h, hne⟩
        depth_visual := by simpa using hdepth
        output_eq := houtput
        storage_eq := hstorage
        isString_eq := rfl
        isImage_eq := rfl
        isVideo_eq := rfl }
    · simpa using hnames
    · simpa using hgenerated
  · cases h

theorem userFeatures_of_parse {rows : List FeatureRow} {features : List LerobotFeature}
    (h : parseUserFeatures rows = .ok features) : UserFeatures features := by
  have hinit : UserFeatures [] := ⟨⟨by simp, .nil⟩, by simp⟩
  apply foldlM_ok (I := fun _ features => UserFeatures features) h hinit
  intro seen row rest features result _ hfeatures hround
  obtain ⟨feature, rfl, hfeature, hname, hgenerated⟩ := parseFeatureRow_cases hround
  refine ⟨hfeatures.concat hfeature hname, ?_⟩
  intro other hother
  rcases List.mem_append.mp hother with hold | hnew
  · exact hfeatures.not_generated other hold
  · rwa [List.mem_singleton.mp hnew]

end DuckdbLerobot.Copy
