import DuckdbLerobot.Copy.CopyBind

/-!
# A dataset without episodes

A scan of an empty dataset has no file to take its columns from. The reader makes them from the features in
the manifest, and they are the columns that COPY would have written for these features
(`empty_schemas_agree`), so that the relation can be united with a filled one.
-/

set_option autoImplicit false

namespace DuckdbLerobot.Copy

open DuckdbLerobot.Library DuckdbLerobot.Path DuckdbLerobot.Storage DuckdbLerobot.Video

/-- The type that `read_parquet` has for a column. Parquet keeps no array lengths. -/
def readBackType : LogicalType → LogicalType
  | .list child => .list (readBackType child)
  | .array child _ => .list (readBackType child)
  | type => type

/-! ## Features -/

/-- A feature as `ParseUserFeatures` returns it, before it has its places in the columns. -/
def LerobotFeature.unbound (feature : LerobotFeature) : LerobotFeature :=
  { feature with inputIndex := none, outputIndex := none }

/-- What the manifest keeps of a feature. -/
def LerobotFeature.parsed (feature : LerobotFeature) : ParsedLerobotFeature :=
  ⟨feature.name, feature.dtype, feature.shape, feature.isDepth⟩

theorem LerobotFeature.WellFormed.of_unbound {feature : LerobotFeature}
    (h : feature.unbound.WellFormed) : feature.WellFormed :=
  { h with }

theorem FeaturesWellFormed.of_unbound {features source : List LerobotFeature}
    (h : FeaturesWellFormed source)
    (heq : features.map LerobotFeature.unbound = source.map LerobotFeature.unbound) :
    FeaturesWellFormed features where
  each := by
    intro feature hfeature
    have hmem : feature.unbound ∈ source.map LerobotFeature.unbound :=
      heq ▸ List.mem_map_of_mem hfeature
    obtain ⟨original, horiginal, hunbound⟩ := List.mem_map.mp hmem
    apply LerobotFeature.WellFormed.of_unbound
    rw [← hunbound]
    exact { h.each original horiginal with }
  names_distinct := by
    have hnames : features.map LerobotFeature.name = source.map LerobotFeature.name := by
      have hmap := congrArg (List.map LerobotFeature.name) heq
      rwa [List.map_map, List.map_map] at hmap
    have hpairwise : (source.map LerobotFeature.name).Pairwise fun a b => ciEquals a b = false :=
      List.pairwise_map.mpr h.names_distinct
    rw [← hnames] at hpairwise
    exact List.pairwise_map.mp hpairwise

/-- A default feature has none of the kinds of a user feature. -/
theorem defaultFeature_wellFormed {name dtype : String} {feature : LerobotFeature}
    (h : defaultFeature name dtype = .ok feature)
    (hportable : validateLerobotFeatureName name.toList = .ok ())
    (hvisual : isVisual dtype = false) (hstring : dtype ≠ "string") : feature.WellFormed := by
  obtain ⟨type, htype, rfl⟩ := except_map_eq_ok.mp h
  have hkinds : dtype ≠ "image" ∧ dtype ≠ "video" := by simpa [isVisual] using hvisual
  have hstorage : lerobotFeatureStorageType dtype [1] = .ok type := by
    rw [lerobotFeatureStorageType, hvisual, htype]
    rfl
  exact {
    portable := hportable
    shape_ne_nil := List.cons_ne_nil _ _
    shape_length := by simp
    shape_pos := by simp
    visual_length := fun h => absurd (hvisual.symm.trans h) Bool.false_ne_true
    visual_channels := fun h => absurd (hvisual.symm.trans h) Bool.false_ne_true
    depth_visual := fun h => absurd h Bool.false_ne_true
    output_eq := (if_neg hkinds.1).trans hstorage
    storage_eq := hstorage
    isString_eq := by simpa using hstring
    isImage_eq := by simpa using hkinds.1
    isVideo_eq := by simpa using hkinds.2 }

theorem generatedColumns_valid : ∀ column ∈ generatedColumns,
    validateLerobotFeatureName column.1.toList = .ok () ∧ isVisual column.2 = false ∧
      column.2 ≠ "string" ∧ column.1 ∈ generatedNames := by
  intro column hcolumn
  simp only [generatedColumns, List.mem_cons, List.not_mem_nil, or_false] at hcolumn
  rcases hcolumn with rfl | rfl | rfl | rfl | rfl <;>
    exact ⟨rfl, rfl, by decide, by decide⟩

theorem generatedColumns_distinct :
    generatedColumns.Pairwise fun a b => ciEquals a.1.toList b.1.toList = false := by
  decide

theorem defaultFeature_name {name dtype : String} {feature : LerobotFeature}
    (h : defaultFeature name dtype = .ok feature) : feature.name = name.toList := by
  obtain ⟨type, -, rfl⟩ := except_map_eq_ok.mp h
  rfl

theorem defaultFeatures_names {columns : List (String × String)} {defaults : List LerobotFeature}
    (h : columns.mapM (fun column => defaultFeature column.1 column.2) = .ok defaults) :
    defaults.map LerobotFeature.name = columns.map fun column => column.1.toList := by
  have hforall := mapM_eq_ok.mp h
  clear h
  induction hforall with
  | nil => rfl
  | cons hfeature _ ih => rw [List.map_cons, List.map_cons, ih, defaultFeature_name hfeature]

/-- The features of a dataset: those of the user and the generated ones. -/
theorem featuresWellFormed_append {user defaults : List LerobotFeature} (huser : UserFeatures user)
    (hdefaults : defaultFeatures = .ok defaults) : FeaturesWellFormed (user ++ defaults) where
  each := by
    intro feature hfeature
    rcases List.mem_append.mp hfeature with hmem | hmem
    · exact huser.each feature hmem
    · obtain ⟨column, hcolumn, hdefault⟩ := exists_mem_of_mapM hdefaults hmem
      obtain ⟨hportable, hvisual, hstring, -⟩ := generatedColumns_valid column hcolumn
      exact defaultFeature_wellFormed hdefault hportable hvisual hstring
  names_distinct := by
    have hdistinct : (defaults.map LerobotFeature.name).Pairwise fun a b => ciEquals a b = false := by
      rw [defaultFeatures_names hdefaults]
      exact List.pairwise_map.mpr generatedColumns_distinct
    apply List.pairwise_append.mpr ⟨huser.names_distinct, List.pairwise_map.mp hdistinct, ?_⟩
    intro feature hfeature other hother
    obtain ⟨column, hcolumn, hdefault⟩ := exists_mem_of_mapM hdefaults hother
    obtain ⟨-, -, -, hgenerated⟩ := generatedColumns_valid column hcolumn
    rw [defaultFeature_name hdefault]
    exact huser.not_generated feature hfeature column.1 hgenerated

/-! ## The columns of the frames -/

/-- What the loop over the features has done: `bind` has the features so far, and their columns. -/
structure DataColumnsBound (start : LerobotCopyBindData) (seen : List LerobotFeature)
    (bind : LerobotCopyBindData) : Prop where
  features : bind.features.map LerobotFeature.unbound = seen.map LerobotFeature.unbound
  names : bind.dataNames =
    (bind.features.filter fun feature => !feature.isVideo).map LerobotFeature.name
  types : bind.dataTypes =
    (bind.features.filter fun feature => !feature.isVideo).map LerobotFeature.outputType
  fps : bind.fps = start.fps
  encoding : bind.encoding = start.encoding

/-- A feature keeps everything but its place. -/
theorem bindInput_unbound {printType : LogicalType → String}
    {inputColumns : List (Text × LogicalType)} {feature bound : LerobotFeature}
    (h : bindInput printType inputColumns feature = .ok bound) :
    bound.unbound = feature.unbound := by
  unfold bindInput at h
  split at h
  · split at h
    · cases h
    · obtain ⟨-, hok⟩ := except_check_eq_ok.mp h
      cases hok
      rfl
  · cases h
    rfl

theorem DataColumnsBound.add {start bind : LerobotCopyBindData} {seen : List LerobotFeature}
    (h : DataColumnsBound start seen bind) {feature bound : LerobotFeature}
    (hbound : bound.unbound = feature.unbound) :
    DataColumnsBound start (seen ++ [feature]) (bindOutput bind bound) := by
  unfold bindOutput
  split
  · rename_i hvideo
    exact {
      features := by simp [h.features, hbound]
      names := by simp [h.names, hvideo]
      types := by simp [h.types, hvideo]
      fps := h.fps
      encoding := h.encoding }
  · rename_i hvideo
    exact {
      features := by
        rw [List.map_append, List.map_append, h.features, List.map_singleton, List.map_singleton,
          ← hbound]
        rfl
      names := by simp [h.names, hvideo]
      types := by simp [h.types, hvideo]
      fps := h.fps
      encoding := h.encoding }

theorem dataColumnsBound_of_fold {printType : LogicalType → String}
    {inputColumns : List (Text × LogicalType)} {start bind : LerobotCopyBindData} {n m : Nat}
    {features : List LerobotFeature} (hstart : DataColumnsBound start [] start)
    (h : features.foldlM (bindFeature printType inputColumns) (start, n) = .ok (bind, m)) :
    DataColumnsBound start features bind := by
  apply foldlM_ok (I := fun seen state => DataColumnsBound start seen state.1) h hstart
  rintro seen feature rest state state' - hbind hround
  obtain ⟨bound, hbound, rfl⟩ := except_map_eq_ok.mp hround
  exact hbind.add (bindInput_unbound hbound)

/-! ## The columns of the episodes -/

/-- The names and the types of the episodes, as one list. -/
structure EpisodeColumns (bind : LerobotCopyBindData) (columns : List (Text × LogicalType)) :
    Prop where
  names : bind.episodeNames = columns.map Prod.fst
  types : bind.episodeTypes = columns.map Prod.snd

/-- Everything else that has been bound. -/
def LerobotCopyBindData.withoutEpisodes (bind : LerobotCopyBindData) : LerobotCopyBindData :=
  { bind with episodeNames := [], episodeTypes := [] }

theorem features_of_withoutEpisodes {bind bind' : LerobotCopyBindData}
    (h : bind.withoutEpisodes = bind'.withoutEpisodes) : bind.features = bind'.features := by
  have hfeatures := congrArg LerobotCopyBindData.features h
  exact hfeatures

theorem EpisodeColumns.push {bind : LerobotCopyBindData} {columns : List (Text × LogicalType)}
    (h : EpisodeColumns bind columns) (name : Text) (type : LogicalType) :
    EpisodeColumns (bind.pushEpisode name type) (columns ++ [(name, type)]) where
  names := by simp [LerobotCopyBindData.pushEpisode, h.names]
  types := by simp [LerobotCopyBindData.pushEpisode, h.types]

theorem EpisodeColumns.pushAll {bind : LerobotCopyBindData} {columns : List (Text × LogicalType)}
    (h : EpisodeColumns bind columns) {α : Type} (name : α → Text) (type : α → LogicalType)
    (l : List α) :
    EpisodeColumns (l.foldl (fun bind a => bind.pushEpisode (name a) (type a)) bind)
      (columns ++ l.map fun a => (name a, type a)) := by
  induction l generalizing bind columns with
  | nil => simpa using h
  | cons a l ih =>
      have hrest := ih (h.push (name a) (type a))
      rwa [List.append_assoc] at hrest

theorem withoutEpisodes_pushAll {α : Type} (name : α → Text) (type : α → LogicalType) (l : List α)
    (bind : LerobotCopyBindData) :
    (l.foldl (fun bind a => bind.pushEpisode (name a) (type a)) bind).withoutEpisodes =
      bind.withoutEpisodes := by
  induction l generalizing bind with
  | nil => rfl
  | cons a l ih => exact ih _

theorem EpisodeColumns.appendVideo {bind : LerobotCopyBindData}
    {columns : List (Text × LogicalType)} (h : EpisodeColumns bind columns)
    (feature : LerobotFeature) :
    EpisodeColumns (appendVideoColumns bind feature)
      (columns ++ if feature.isVideo then videoEpisodeColumns feature.name else []) := by
  unfold appendVideoColumns
  cases hvideo : feature.isVideo with
  | false => simpa using h
  | true =>
      constructor
      · simp [h.names, videoEpisodeColumns]
      · simp [h.types, videoEpisodeColumns]

theorem withoutEpisodes_appendVideo (bind : LerobotCopyBindData) (feature : LerobotFeature) :
    (appendVideoColumns bind feature).withoutEpisodes = bind.withoutEpisodes := by
  unfold appendVideoColumns
  split <;> rfl

/-- The loop over the videos, which the reader writes as one list. -/
theorem EpisodeColumns.appendVideos {bind : LerobotCopyBindData}
    {columns : List (Text × LogicalType)} (h : EpisodeColumns bind columns)
    {features : List LerobotFeature} (hfeatures : ∀ feature ∈ features, feature.WellFormed) :
    EpisodeColumns (features.foldl appendVideoColumns bind)
        (columns ++ ((features.map LerobotFeature.parsed).filter fun feature =>
          feature.dtype == "video").flatMap fun feature => videoEpisodeColumns feature.name) ∧
      (features.foldl appendVideoColumns bind).withoutEpisodes = bind.withoutEpisodes := by
  induction features generalizing bind columns with
  | nil => exact ⟨by simpa using h, rfl⟩
  | cons feature features ih =>
      have hkind := (hfeatures feature List.mem_cons_self).isVideo_eq
      obtain ⟨hcolumns, hwithout⟩ := ih (h.appendVideo feature) fun other hother =>
        hfeatures other (List.mem_cons_of_mem _ hother)
      refine ⟨?_, hwithout.trans (withoutEpisodes_appendVideo bind feature)⟩
      rw [List.append_assoc] at hcolumns
      rw [List.foldl_cons, List.map_cons, List.filter_cons]
      cases hvideo : feature.dtype == "video" with
      | false => simpa [hkind, hvideo, LerobotFeature.parsed] using hcolumns
      | true => simpa [hkind, hvideo, LerobotFeature.parsed] using hcolumns

/-- The statistics of one feature: the two functions list the same columns. -/
theorem EpisodeColumns.appendStats {bind bind' : LerobotCopyBindData}
    {columns : List (Text × LogicalType)} (h : EpisodeColumns bind columns)
    {feature : LerobotFeature} (hfeature : feature.WellFormed)
    (happend : appendStatColumns bind feature = .ok bind') :
    ∃ stats, statEpisodeColumns feature.parsed = .ok stats ∧
      EpisodeColumns bind' (columns ++ stats) ∧
      bind'.withoutEpisodes = bind.withoutEpisodes := by
  unfold appendStatColumns at happend
  unfold statEpisodeColumns
  rw [LerobotFeature.hasStatistics, Bool.not_not, hfeature.isString_eq] at happend
  by_cases hstring : feature.dtype = "string"
  · rw [if_pos (by simpa using hstring)] at happend
    cases happend
    exact ⟨[], if_pos hstring, by simpa using h, rfl⟩
  · rw [if_neg (by simpa using hstring)] at happend
    obtain ⟨leafType, hleaf, hok⟩ := except_bind_eq_ok.mp happend
    have hdimensions : (if feature.isImage || feature.isVideo then
        [feature.shape.getD 2 0, 1, 1] else feature.shape).length =
        if isVisual feature.dtype then 3 else feature.shape.length := by
      have hvisual : (feature.isImage || feature.isVideo) = isVisual feature.dtype := by
        rw [hfeature.isImage_eq, hfeature.isVideo_eq, isVisual]
      rw [hvisual]
      split <;> rfl
    cases hok
    refine ⟨_, ?_, h.pushAll _ _ _, withoutEpisodes_pushAll _ _ _ _⟩
    refine (if_neg hstring).trans (except_bind_eq_ok.mpr ⟨leafType, hleaf, ?_⟩)
    rw [hdimensions]
    rfl

/-- The loop over the statistics. -/
theorem EpisodeColumns.appendAllStats {start bind : LerobotCopyBindData}
    {columns : List (Text × LogicalType)} (h : EpisodeColumns start columns)
    {features : List LerobotFeature} (hfeatures : ∀ feature ∈ features, feature.WellFormed)
    (hfold : features.foldlM appendStatColumns start = .ok bind) :
    ∃ statistics, (features.map LerobotFeature.parsed).mapM statEpisodeColumns = .ok statistics ∧
      EpisodeColumns bind (columns ++ statistics.flatten) ∧
      bind.withoutEpisodes = start.withoutEpisodes := by
  induction features generalizing start columns with
  | nil =>
      cases hfold
      exact ⟨[], rfl, by simpa using h, rfl⟩
  | cons feature features ih =>
      obtain ⟨middle, hround, hrest⟩ := except_bind_eq_ok.mp hfold
      obtain ⟨stats, hstats, hmiddle, hwithout⟩ :=
        h.appendStats (hfeatures feature List.mem_cons_self) hround
      obtain ⟨statistics, hstatistics, hbind, hwithout'⟩ := ih hmiddle
        (fun other hother => hfeatures other (List.mem_cons_of_mem _ hother)) hrest
      refine ⟨stats :: statistics, ?_, ?_, hwithout'.trans hwithout⟩
      · rw [List.map_cons, List.mapM_cons, hstats, hstatistics]
        rfl
      · rwa [List.flatten_cons, ← List.append_assoc]

/-- The columns that the reader makes from the features of a manifest. -/
def readerEpisodeColumns (features : List ParsedLerobotFeature)
    (statistics : List (List (Text × LogicalType))) : List (Text × LogicalType) :=
  baseEpisodeColumns ++ (features.filter fun feature => feature.dtype == "video").flatMap
    (fun feature => videoEpisodeColumns feature.name) ++ statistics.flatten ++
    metadataEpisodeColumns

/-- **The columns of the episodes** are those that the reader makes. -/
theorem episodeColumns_of_bind {start bind : LerobotCopyBindData}
    (hfeatures : ∀ feature ∈ start.features, feature.WellFormed)
    (h : bindEpisodeColumns start = .ok bind) :
    ∃ statistics,
      (bind.features.map LerobotFeature.parsed).mapM statEpisodeColumns = .ok statistics ∧
      EpisodeColumns bind
        (readerEpisodeColumns (bind.features.map LerobotFeature.parsed) statistics) ∧
      bind.withoutEpisodes = start.withoutEpisodes := by
  obtain ⟨middle, hfold, hok⟩ := except_bind_eq_ok.mp h
  have hbase : EpisodeColumns start.withEpisodeBase baseEpisodeColumns := ⟨rfl, rfl⟩
  obtain ⟨hvideos, hwithoutVideos⟩ := hbase.appendVideos hfeatures
  have hsame := features_of_withoutEpisodes hwithoutVideos
  rw [hsame] at hfold
  obtain ⟨statistics, hstatistics, hmiddle, hwithoutStats⟩ := hvideos.appendAllStats hfeatures hfold
  have hwithout := hwithoutStats.trans hwithoutVideos
  have hpushed := (hmiddle.push "meta/episodes/chunk_index".toList .bigint).push
    "meta/episodes/file_index".toList .bigint
  cases hok
  have hbound : middle.features = start.features := features_of_withoutEpisodes hwithout
  refine ⟨statistics, ?_, ?_, hwithout⟩
  · exact hbound ▸ hstatistics
  · rw [List.append_assoc] at hpushed
    change EpisodeColumns _ (readerEpisodeColumns (middle.features.map _) statistics)
    rw [hbound]
    exact hpushed

/-! ## What a bind has accepted -/

/-- The quantizer passes the checks of the reader. -/
structure ValidQuantizer (arithmetic : Arithmetic) (log : ℚ → ℚ)
    (encoding : LerobotVideoEncodingConfig) : Prop where
  lt : encoding.depthMin < encoding.depthMax
  valid : lerobotValidFloat32DepthParameters arithmetic log encoding.depthMin encoding.depthMax
    encoding.depthShift encoding.depthUseLog = true

theorem validQuantizer_of_parse {arithmetic : Arithmetic} {log : ℚ → ℚ} {options : CopyOptions}
    {encoding : LerobotVideoEncodingConfig}
    (h : parseDepthOptions arithmetic log options = .ok encoding) :
    ValidQuantizer arithmetic log encoding := by
  simp only [parseDepthOptions, except_bind_eq_ok] at h
  obtain ⟨depthMin, -, depthMax, -, depthShift, -, useLog, -, h⟩ := h
  split at h
  · simp only [except_bind_eq_ok, refuse_eq_ok] at h
    obtain ⟨-, horder, -, hvalid, -, -, hok⟩ := h
    cases hok
    exact ⟨not_le.mp fun hle => horder (.inr (.inl hle)), by simpa using hvalid⟩
  · cases h

/-- What holds of the result of `LerobotCopyBind`. -/
structure BoundColumns (arithmetic : Arithmetic) (log : ℚ → ℚ) (bind : LerobotCopyBindData) :
    Prop where
  features : FeaturesWellFormed bind.features
  nonempty : bind.features ≠ []
  fps_pos : 0 < bind.fps
  quantizer : ValidQuantizer arithmetic log bind.encoding
  dataNames : bind.dataNames =
    (bind.features.filter fun feature => !feature.isVideo).map LerobotFeature.name
  dataTypes : bind.dataTypes =
    (bind.features.filter fun feature => !feature.isVideo).map LerobotFeature.outputType
  episodes : ∃ statistics,
    (bind.features.map LerobotFeature.parsed).mapM statEpisodeColumns = .ok statistics ∧
      EpisodeColumns bind
        (readerEpisodeColumns (bind.features.map LerobotFeature.parsed) statistics)

theorem boundColumns_of_bind {arithmetic : Arithmetic} {log : ℚ → ℚ}
    {printType : LogicalType → String} {options : CopyOptions}
    {inputColumns : List (Text × LogicalType)} {bind : LerobotCopyBindData}
    (h : lerobotCopyBind arithmetic log printType options inputColumns = .ok bind) :
    BoundColumns arithmetic log bind := by
  simp only [lerobotCopyBind, except_bind_eq_ok, refuse_eq_ok] at h
  obtain ⟨fps, -, -, hfps, rows, -, user, huser, defaults, hdefaults, encoding, hencoding,
    ⟨episodeIndex, taskIndex⟩, -, ⟨middle, columns⟩, hfold, -, -, hepisodes⟩ := h
  have hmiddle := dataColumnsBound_of_fold ⟨rfl, rfl, rfl, rfl, rfl⟩ hfold
  have hwell : FeaturesWellFormed middle.features :=
    (featuresWellFormed_append (userFeatures_of_parse huser) hdefaults).of_unbound hmiddle.features
  obtain ⟨statistics, hstatistics, hcolumns, hwithout⟩ := episodeColumns_of_bind hwell.each hepisodes
  have hfeatures := features_of_withoutEpisodes hwithout
  have hdataNames := congrArg LerobotCopyBindData.dataNames hwithout
  have hdataTypes := congrArg LerobotCopyBindData.dataTypes hwithout
  have hboundFps := congrArg LerobotCopyBindData.fps hwithout
  have hboundEncoding := congrArg LerobotCopyBindData.encoding hwithout
  have hdefaultsLength := (mapM_eq_ok.mp hdefaults).length_eq
  exact {
    features := hfeatures ▸ hwell
    nonempty := by
      intro hnil
      have hmap := hmiddle.features
      rw [← hfeatures, hnil, List.map_nil, eq_comm, List.map_eq_nil_iff, List.append_eq_nil_iff] at hmap
      rw [hmap.2] at hdefaultsLength
      exact absurd hdefaultsLength (by decide)
    fps_pos := by
      have hpos : 0 < (fps.getD 0).toNat := by omega
      exact hpos.trans_eq (hmiddle.fps.symm.trans hboundFps.symm)
    quantizer := by
      have hvalid := validQuantizer_of_parse hencoding
      have heq : bind.encoding = encoding := hboundEncoding.trans hmiddle.encoding
      rwa [heq]
    dataNames := hfeatures ▸ hdataNames.trans hmiddle.names
    dataTypes := hfeatures ▸ hdataTypes.trans hmiddle.types
    episodes := ⟨statistics, hstatistics, hcolumns⟩ }

/-! ## Parsing the manifest back -/

/-- The entry of a feature in the manifest of an empty dataset. -/
def writtenFields (encoding : LerobotVideoEncodingConfig) (feature : LerobotFeature) :
    InfoFeatureFields :=
  infoFeatureFields (feature.name, feature.dtype, feature.shape, visualInfo encoding feature {})

theorem mapM_parseInfoDimension (name : Text) {shape : List Nat}
    (h : ∀ dimension ∈ shape, 0 < dimension) :
    (shape.map writtenDimension).mapM (parseInfoDimension name) = .ok shape := by
  rw [mapM_eq_ok, List.forall₂_map_left_iff, List.forall₂_same]
  intro dimension hdimension
  have hpos := h dimension hdimension
  exact except_check_eq_ok.mpr ⟨by omega, rfl⟩

/-- Without a row, only a depth feature says in its `info` whether it is one. -/
theorem visualInfo_isDepth {encoding : LerobotVideoEncodingConfig} {feature : LerobotFeature}
    (h : feature.WellFormed) :
    ((visualInfo encoding feature {}).map VisualInfo.isDepthMap).getD false = feature.isDepth := by
  have hvisual : isVisual feature.dtype = (feature.isImage || feature.isVideo) := by
    rw [h.isImage_eq, h.isVideo_eq, isVisual]
  have hdepth := h.depth_visual
  rw [hvisual] at hdepth
  unfold visualInfo
  cases himage : feature.isImage <;> cases hvideo : feature.isVideo <;>
    cases hisDepth : feature.isDepth <;> simp_all

/-- **A feature is parsed as it was written.** -/
theorem parseInfoFeature_written {encoding : LerobotVideoEncodingConfig} {feature : LerobotFeature}
    {names : List Text} (h : feature.WellFormed)
    (hnames : ∀ name ∈ names, ciEquals feature.name name = false) :
    parseInfoFeature names (writtenFields encoding feature) = .ok feature.parsed := by
  have hnew : ¬names.any (ciEquals feature.name) = true := by simpa using hnames
  have hparse : parseInfoFeature names (writtenFields encoding feature) = (do
      validateLerobotFeatureName feature.name
      refuse (names.any (ciEquals feature.name)) <|
        if feature.dtype = "video" then
          s!"Duplicate LeRobot video feature key '{String.ofList feature.name}' in info.json"
        else s!"Duplicate LeRobot feature key '{String.ofList feature.name}' in info.json"
      let shape ← (feature.shape.map writtenDimension).mapM (parseInfoDimension feature.name)
      .ok ⟨feature.name, feature.dtype, shape,
        ((visualInfo encoding feature {}).map VisualInfo.isDepthMap).getD false⟩) := rfl
  rw [hparse, h.portable, refuse_eq_ok (u := ()).mpr hnew, mapM_parseInfoDimension feature.name h.shape_pos,
    visualInfo_isDepth h]
  rfl

/-- What COPY says of a video is accepted. -/
theorem parseVideoFeature_written {arithmetic : Arithmetic} {log : ℚ → ℚ}
    {encoding : LerobotVideoEncodingConfig} (hencoding : ValidQuantizer arithmetic log encoding)
    {feature : LerobotFeature} (h : feature.WellFormed) (hvideo : feature.dtype = "video") :
    ∃ metadata, parseVideoFeature arithmetic log feature.parsed (writtenFields encoding feature) =
      .ok metadata := by
  have hisVideo : feature.isVideo = true := by simp [h.isVideo_eq, hvideo]
  have hisImage : feature.isImage = false := by simp [h.isImage_eq, hvideo]
  have hvisual : isVisual feature.dtype = true := by simp [isVisual, hvideo]
  have hlength := h.visual_length hvisual
  have hchannels := h.visual_channels hvisual
  cases hdepth : feature.isDepth with
  | true =>
      have hinfo : visualInfo encoding feature {} = some ⟨some "gray12le", some encoding, true⟩ := by
        simp [visualInfo, hisVideo, hisImage, hdepth]
      have hone : feature.shape[2]? = some 1 := by simpa [visualChannels, hdepth] using hchannels
      have hinvalid : ¬(encoding.depthMax ≤ encoding.depthMin ∨
          !lerobotValidFloat32DepthParameters arithmetic log encoding.depthMin encoding.depthMax
            encoding.depthShift encoding.depthUseLog) := by
        simp [hencoding.lt, hencoding.valid]
      refine ⟨⟨true, encoding.depthMin, encoding.depthMax, encoding.depthShift,
        encoding.depthUseLog⟩, ?_⟩
      rw [writtenFields, hinfo]
      refine except_bind_eq_ok.mpr ⟨(), refuse_eq_ok.mpr (by simp [infoFeatureFields]), ?_⟩
      refine (if_pos hdepth).trans ?_
      refine except_bind_eq_ok.mpr ⟨(), refuse_eq_ok.mpr (not_not.mpr hlength), ?_⟩
      refine except_bind_eq_ok.mpr ⟨(), refuse_eq_ok.mpr hinvalid, ?_⟩
      refine except_bind_eq_ok.mpr ⟨(), refuse_eq_ok.mpr (not_not.mpr rfl), ?_⟩
      exact except_bind_eq_ok.mpr ⟨(), refuse_eq_ok.mpr (not_not.mpr hone), rfl⟩
  | false =>
      have hinfo : visualInfo encoding feature {} = none := by
        simp [visualInfo, hisVideo, hisImage, hdepth]
      have hthree : feature.shape[2]? = some 3 := by simpa [visualChannels, hdepth] using hchannels
      have honly : ¬hasDepthOnlyMetadata feature.parsed (writtenFields encoding feature) = true := by
        simp [hasDepthOnlyMetadata, writtenFields, infoFeatureFields, hinfo, LerobotFeature.parsed,
          hthree]
      refine ⟨{}, ?_⟩
      refine except_bind_eq_ok.mpr ⟨(), refuse_eq_ok.mpr ?_, ?_⟩
      · simp [writtenFields, infoFeatureFields]
      · refine (if_neg (show ¬feature.isDepth = true by simp [hdepth])).trans ?_
        exact except_bind_eq_ok.mpr ⟨(), refuse_eq_ok.mpr honly, rfl⟩

/-- What the reader has after some of the features. -/
structure FeaturesParsed (info : LerobotDatasetInfo) (seen : List LerobotFeature)
    (parse : InfoParse) : Prop where
  info : seen ≠ [] → parse.info = some info
  noInfo : seen = [] → parse.info = none
  features : parse.features = seen.map LerobotFeature.parsed
  videos : parse.videos ≠ [] → ∃ feature ∈ seen, feature.isVideo = true

/-- The manifest that COPY writes, before its schemas. -/
def emptyInfo (bind : LerobotCopyBindData) : LerobotDatasetInfo where
  codebaseVersion := "v3.0"
  dataPathTemplate := lerobotDataPath.toList
  videoPathTemplate := bind.emptyInfoJson.fields.videoPath.getD []
  fps := bind.fps

theorem parseInfoFields_written (bind : LerobotCopyBindData) :
    parseInfoFields bind.emptyInfoJson.fields = .ok (emptyInfo bind) :=
  except_bind_eq_ok.mpr ⟨(), refuse_eq_ok.mpr (by simp [InfoJson.fields]), rfl⟩

/-- **A row of the manifest** adds its feature. -/
theorem FeaturesParsed.add {arithmetic : Arithmetic} {log : ℚ → ℚ} {infoPath : Text}
    {bind : LerobotCopyBindData} (hencoding : ValidQuantizer arithmetic log bind.encoding)
    {seen : List LerobotFeature} {parse : InfoParse}
    (hparse : FeaturesParsed (emptyInfo bind) seen parse) {feature : LerobotFeature}
    (h : feature.WellFormed)
    (hnames : ∀ other ∈ seen, ciEquals feature.name other.name = false) :
    ∃ parse', parseInfoRow arithmetic log infoPath parse
        ⟨some 1, bind.emptyInfoJson.fields, some (writtenFields bind.encoding feature)⟩ =
          .ok parse' ∧
      FeaturesParsed (emptyInfo bind) (seen ++ [feature]) parse' := by
  have hfirst : firstInfo parse.info bind.emptyInfoJson.fields = .ok (emptyInfo bind) := by
    by_cases hseen : seen = []
    · rw [hparse.noInfo hseen]
      exact parseInfoFields_written bind
    · rw [hparse.info hseen]
      rfl
  have hnew : ∀ name ∈ parse.features.map ParsedLerobotFeature.name,
      ciEquals feature.name name = false := by
    rw [hparse.features, List.map_map]
    intro name hname
    obtain ⟨other, hother, rfl⟩ := List.mem_map.mp hname
    exact hnames other hother
  have hfeature : parseInfoFeature (parse.features.map ParsedLerobotFeature.name)
      (writtenFields bind.encoding feature) = .ok feature.parsed := parseInfoFeature_written h hnew
  have hrow : ∀ parse', addInfoFeature arithmetic log { parse with info := some (emptyInfo bind) }
      (writtenFields bind.encoding feature) = .ok parse' →
      parseInfoRow arithmetic log infoPath parse
        ⟨some 1, bind.emptyInfoJson.fields, some (writtenFields bind.encoding feature)⟩ =
          .ok parse' := by
    intro parse' hadd
    refine except_bind_eq_ok.mpr ⟨(), refuse_eq_ok.mpr (by simp), ?_⟩
    refine except_bind_eq_ok.mpr ⟨(), refuse_eq_ok.mpr (by simp), ?_⟩
    exact except_bind_eq_ok.mpr ⟨emptyInfo bind, hfirst, hadd⟩
  by_cases hvideo : feature.dtype = "video"
  · obtain ⟨metadata, hmetadata⟩ := parseVideoFeature_written hencoding h hvideo
    refine ⟨{ info := some (emptyInfo bind)
              features := parse.features ++ [feature.parsed]
              videos := parse.videos ++ [(feature.name, metadata)] },
      hrow _ (except_bind_eq_ok.mpr ⟨feature.parsed, hfeature, ?_⟩), ?_⟩
    · exact (if_neg (not_not.mpr hvideo)).trans (except_bind_eq_ok.mpr ⟨metadata, hmetadata, rfl⟩)
    · exact {
        info := fun _ => rfl
        noInfo := fun hnil => absurd hnil (by simp)
        features := by simp [hparse.features]
        videos := fun _ => ⟨feature, by simp, by simp [h.isVideo_eq, hvideo]⟩ }
  · refine ⟨{ parse with
        info := some (emptyInfo bind)
        features := parse.features ++ [feature.parsed] },
      hrow _ (except_bind_eq_ok.mpr ⟨feature.parsed, hfeature, if_pos hvideo⟩), ?_⟩
    exact {
      info := fun _ => rfl
      noInfo := fun hnil => absurd hnil (by simp)
      features := by simp [hparse.features]
      videos := by
        intro hvideos
        obtain ⟨other, hother, hisVideo⟩ := hparse.videos hvideos
        exact ⟨other, List.mem_append_left _ hother, hisVideo⟩ }

/-- The loop over the rows. -/
theorem featuresParsed_rows {arithmetic : Arithmetic} {log : ℚ → ℚ} (infoPath : Text)
    {bind : LerobotCopyBindData} (h : BoundColumns arithmetic log bind) :
    ∃ parse, bind.emptyInfoJson.rows.foldlM (parseInfoRow arithmetic log infoPath) {} = .ok parse ∧
      FeaturesParsed (emptyInfo bind) bind.features parse := by
  have hrows : bind.emptyInfoJson.rows = bind.features.map fun feature =>
      ⟨some 1, bind.emptyInfoJson.fields, some (writtenFields bind.encoding feature)⟩ := by
    have hne : bind.emptyInfoJson.features ≠ [] := by
      simpa [LerobotCopyBindData.emptyInfoJson] using h.nonempty
    rw [InfoJson.rows, if_neg hne]
    simp [LerobotCopyBindData.emptyInfoJson, writtenFields]
  rw [hrows, List.foldlM_map]
  apply foldlM_total
  · exact ⟨fun hne => absurd rfl hne, fun _ => rfl, rfl, fun hne => absurd rfl hne⟩
  · intro seen feature rest parse hsplit hparse
    have hmem : feature ∈ bind.features := hsplit ▸ List.mem_append_right _ List.mem_cons_self
    have hdistinct := h.features.names_distinct
    rw [hsplit, List.pairwise_append] at hdistinct
    apply hparse.add h.quantizer (h.features.each feature hmem)
    intro other hother
    rw [ciEquals_comm]
    exact hdistinct.2.2 other hother feature List.mem_cons_self

/-! ## The schemas -/

theorem readBackType_scalar {dtype : String} {type : LogicalType}
    (h : lerobotDtypeToLogicalType dtype = .ok type) : readBackType type = type := by
  unfold lerobotDtypeToLogicalType at h
  split at h <;> cases h <;> rfl

/-- Nested arrays are read back as nested lists. -/
theorem readBackType_arrays (element : LogicalType) (shape : List Nat) :
    readBackType (shape.foldr (fun size child => .array child size) element) =
      lerobotNestedListType (readBackType element) shape.length := by
  induction shape with
  | nil => rfl
  | cons size shape ih => exact congrArg LogicalType.list ih

/-- **The type of a scan** is the type that is read back from the written column. -/
theorem scanType_of_outputType {dtype : String} {shape : List Nat} {type : LogicalType}
    (h : lerobotFeatureOutputType dtype shape = .ok type) (hvideo : dtype ≠ "video") :
    lerobotFeatureScanType dtype shape = .ok (readBackType type) := by
  unfold lerobotFeatureOutputType at h
  unfold lerobotFeatureScanType
  by_cases himage : dtype = "image"
  · rw [if_pos himage] at h
    cases h
    exact if_pos himage
  · have hvisual : isVisual dtype = false := by simp [isVisual, himage, hvideo]
    rw [if_neg himage, lerobotFeatureStorageType, hvisual] at h
    rw [if_neg himage]
    obtain ⟨element, helement, rfl⟩ := except_map_eq_ok.mp h
    refine except_map_eq_ok.mpr ⟨element, helement, ?_⟩
    split
    · exact (readBackType_scalar helement).symm
    · rw [readBackType_arrays, readBackType_scalar helement]

/-- The column of a feature in a scan of the frames. -/
def scanColumn (feature : LerobotFeature) : Text × LogicalType :=
  (feature.name, readBackType feature.outputType)

theorem addFrameColumn_parsed {info : LerobotDatasetInfo} (hempty : info.totalEpisodes = 0)
    {feature : LerobotFeature} (h : feature.WellFormed) :
    addFrameColumn info feature.parsed = .ok { info with
      frameSchema := ⟨info.frameSchema.columns ++
        if feature.isVideo then [] else [scanColumn feature]⟩ } := by
  have hlength : ¬(feature.shape = [] ∨ 5 < feature.shape.length) := by
    rintro (hnil | hlong)
    · exact h.shape_ne_nil hnil
    · exact absurd h.shape_length hlong.not_ge
  have hdepth : ¬(feature.isDepth = true ∧ !isVisual feature.dtype) := by
    simpa using h.depth_visual
  refine except_bind_eq_ok.mpr ⟨(), refuse_eq_ok.mpr hlength, ?_⟩
  refine except_bind_eq_ok.mpr ⟨(), refuse_eq_ok.mpr hdepth, ?_⟩
  refine except_bind_eq_ok.mpr ⟨(), refuse_eq_ok.mpr fun hbad => hbad.2 (h.visual_length hbad.1), ?_⟩
  refine except_bind_eq_ok.mpr
    ⟨(), refuse_eq_ok.mpr fun hbad => hbad.2 (h.visual_channels hbad.1), ?_⟩
  -- The branch of the annotations of Lance needs an episode.
  refine (if_neg fun hlanguage => absurd hlanguage.2.2.1 (by simp [hempty])).trans ?_
  by_cases hvideo : feature.dtype = "video"
  · refine (if_neg (not_not.mpr hvideo)).trans ?_
    rw [h.isVideo_eq, hvideo]
    simp
  · refine (if_pos hvideo).trans ?_
    rw [h.isVideo_eq, beq_eq_false_iff_ne.mpr hvideo]
    exact except_bind_eq_ok.mpr ⟨_, scanType_of_outputType h.output_eq hvideo, rfl⟩

theorem foldlM_addFrameColumn {info : LerobotDatasetInfo} (hempty : info.totalEpisodes = 0)
    {features : List LerobotFeature} (h : ∀ feature ∈ features, feature.WellFormed) :
    (features.map LerobotFeature.parsed).foldlM addFrameColumn info = .ok { info with
      frameSchema := ⟨info.frameSchema.columns ++
        (features.filter fun feature => !feature.isVideo).map scanColumn⟩ } := by
  induction features generalizing info with
  | nil => simp [pure, Except.pure]
  | cons feature features ih =>
      have hround := addFrameColumn_parsed hempty (h feature List.mem_cons_self)
      rw [List.map_cons, List.foldlM_cons, hround]
      refine (ih ?_ fun other hother => h other (List.mem_cons_of_mem _ hother)).trans ?_
      · exact hempty
      · cases hvideo : feature.isVideo <;> simp [hvideo]

/-- The manifest of an empty dataset passes the checks of the reader. -/
theorem checkInfo_empty {bind : LerobotCopyBindData} (hfps : 0 < bind.fps) :
    checkInfo (emptyInfo bind) = .ok () := by
  have hpath : ¬("v3.0" = "" ∨ lerobotDataPath.toList = []) := by decide
  have hversion : ¬((!isV3Version "v3.0") = true) := by decide
  have hpositive : ¬((bind.fps : Int) ≤ 0) := by omega
  refine except_bind_eq_ok.mpr ⟨(), refuse_eq_ok.mpr hpath, ?_⟩
  refine except_bind_eq_ok.mpr ⟨(), refuse_eq_ok.mpr hversion, ?_⟩
  refine except_bind_eq_ok.mpr ⟨(), refuse_eq_ok.mpr hpositive, ?_⟩
  refine except_bind_eq_ok.mpr ⟨(), refuse_eq_ok.mpr (by simp [emptyInfo]), ?_⟩
  exact refuse_eq_ok.mpr (not_not.mpr Iff.rfl)

/-- The template of the videos is written when there is a video. -/
theorem videoPathTemplate_ne_nil {bind : LerobotCopyBindData}
    (h : ∃ feature ∈ bind.features, feature.isVideo = true) :
    (emptyInfo bind).videoPathTemplate ≠ [] := by
  have hany : bind.features.any LerobotFeature.isVideo = true := List.any_eq_true.mpr h
  have htemplate : (emptyInfo bind).videoPathTemplate = lerobotVideoPath.toList := by
    change (if bind.features.any LerobotFeature.isVideo then some _ else none).getD [] = _
    rw [if_pos hany, Option.getD_some]
  rw [htemplate]
  decide

/-- **The schemas of an empty dataset.** For every statement that COPY accepts, the manifest that it writes
without a row is parsed, and the columns that the reader makes from it are the columns of the files that
COPY would have written: those of the episodes with the same types, those of the frames with the types
that are read back. -/
theorem empty_schemas_agree {arithmetic : Arithmetic} {log : ℚ → ℚ}
    {printType : LogicalType → String} {options : CopyOptions}
    {inputColumns : List (Text × LogicalType)} {bind : LerobotCopyBindData} (infoPath : Text)
    (h : lerobotCopyBind arithmetic log printType options inputColumns = .ok bind) :
    ∃ info, parseLerobotInfo arithmetic log infoPath bind.emptyInfoJson.rows = .ok info ∧
      info.episodeSchema.columns.map Prod.fst = bind.episodeNames ∧
      info.episodeSchema.columns.map Prod.snd = bind.episodeTypes ∧
      info.frameSchema.columns.map Prod.fst = bind.dataNames ∧
      info.frameSchema.columns.map Prod.snd = bind.dataTypes.map readBackType := by
  have hbound := boundColumns_of_bind h
  obtain ⟨parse, hrows, hparse⟩ := featuresParsed_rows infoPath hbound
  obtain ⟨statistics, hstatistics, hcolumns⟩ := hbound.episodes
  have hparsed : bind.features.map LerobotFeature.parsed ≠ [] := by simpa using hbound.nonempty
  let videos := parse.videos.mergeSort fun left right => decide (left.1 ≤ right.1)
  let info : LerobotDatasetInfo := { emptyInfo bind with
    videoKeys := videos.map Prod.fst
    videoFeatureMetadata := videos.map Prod.snd }
  have hkeys : ¬(info.videoKeys ≠ [] ∧ info.videoPathTemplate = []) := by
    rintro ⟨hkeys, htemplate⟩
    apply videoPathTemplate_ne_nil (hparse.videos ?_) htemplate
    intro hnil
    apply hkeys
    simp [info, videos, hnil]
  let result : LerobotDatasetInfo := { info with
    frameSchema := ⟨(bind.features.filter fun feature => !feature.isVideo).map scanColumn⟩
    episodeSchema := ⟨readerEpisodeColumns (bind.features.map LerobotFeature.parsed) statistics⟩ }
  have hframes : buildFrameSchema info parse.features =
      .ok { info with frameSchema := result.frameSchema } := by
    rw [hparse.features]
    exact except_bind_eq_ok.mpr ⟨(), refuse_eq_ok.mpr hparsed,
      foldlM_addFrameColumn rfl hbound.features.each⟩
  have hschemas : buildSchemas info parse.features = .ok result := by
    refine (if_pos rfl).trans (except_bind_eq_ok.mpr ⟨_, hframes, ?_⟩)
    rw [hparse.features]
    exact except_bind_eq_ok.mpr ⟨statistics, hstatistics, rfl⟩
  refine ⟨result, except_bind_eq_ok.mpr ⟨parse, hrows, ?_⟩, ?_⟩
  · rw [hparse.info hbound.nonempty]
    refine except_bind_eq_ok.mpr ⟨(), checkInfo_empty hbound.fps_pos, ?_⟩
    refine except_bind_eq_ok.mpr ⟨(), refuse_eq_ok.mpr hkeys, ?_⟩
    exact except_bind_eq_ok.mpr ⟨result, hschemas, if_neg Bool.false_ne_true⟩
  · refine ⟨hcolumns.names.symm, hcolumns.types.symm, ?_, ?_⟩
    · rw [hbound.dataNames, List.map_map]
      rfl
    · rw [hbound.dataTypes, List.map_map, List.map_map]
      rfl

/-- A vector, an image and a video. -/
def armFeatures : List FeatureRow :=
  [⟨"action".toList, some "int32", some [some 6], false⟩,
    ⟨"wrist".toList, some "image", some [some 4, some 4, some 3], false⟩,
    ⟨"depth".toList, some "video", some [some 4, some 4, some 1], true⟩]

/-- The columns of the input for these features. -/
def armColumns : List (Text × LogicalType) :=
  [("episode_index".toList, .bigint), ("task".toList, .varchar),
    ("action".toList, .array .integer 6), ("wrist".toList, .blob), ("depth".toList, .blob)]

/-- The bind accepts them. -/
theorem armFeatures_bound : ∃ bind, lerobotCopyBind .exact (fun _ => 0) (fun _ => "")
    ⟨some [some 10], some [some armFeatures], none, none, none, none⟩ armColumns = .ok bind := by
  have hok : (lerobotCopyBind .exact (fun _ => 0) (fun _ => "")
      ⟨some [some 10], some [some armFeatures], none, none, none, none⟩ armColumns).isOk = true := by
    decide +kernel
  cases hbind : lerobotCopyBind .exact (fun _ => 0) (fun _ => "")
      ⟨some [some 10], some [some armFeatures], none, none, none, none⟩ armColumns with
  | error error =>
      rw [hbind] at hok
      exact absurd hok Bool.false_ne_true
  | ok bind => exact ⟨bind, rfl⟩

theorem armFeatures_agree :
    ∃ bind info, lerobotCopyBind .exact (fun _ => 0) (fun _ => "")
        ⟨some [some 10], some [some armFeatures], none, none, none, none⟩ armColumns = .ok bind ∧
      parseLerobotInfo .exact (fun _ => 0) [] bind.emptyInfoJson.rows = .ok info ∧
      info.episodeSchema.columns.map Prod.fst = bind.episodeNames ∧
      info.episodeSchema.columns.map Prod.snd = bind.episodeTypes ∧
      info.frameSchema.columns.map Prod.fst = bind.dataNames ∧
      info.frameSchema.columns.map Prod.snd = bind.dataTypes.map readBackType := by
  obtain ⟨bind, hbind⟩ := armFeatures_bound
  obtain ⟨info, hinfo⟩ := empty_schemas_agree [] hbind
  exact ⟨bind, info, hbind, hinfo⟩

end DuckdbLerobot.Copy
