import DuckdbLerobot.Copy.EmptyDataset

/-!
# The columns of the input of COPY

The input of `COPY` has a column for each role: `episode_index`, `task`, and each feature of the user. The bind looks
each role up by its name, and compares the number of columns in the end. `columnsMatched_of_bind` says that the
roles and the columns then correspond one to one, although no check says so: the names of the roles are distinct
because `FEATURES` may neither repeat a name nor use a reserved one.
-/

set_option autoImplicit false

namespace DuckdbLerobot.Copy

open DuckdbLerobot.Library DuckdbLerobot.Path DuckdbLerobot.Storage DuckdbLerobot.Video

/-! ## Equal types -/

mutual

/-- `==` of two types is their equality. -/
theorem eq_of_sameType (left right : LogicalType) (h : sameType left right = true) : left = right := by
  cases left with
  | list left =>
      cases right with
      | list right => exact congrArg LogicalType.list (eq_of_sameType left right h)
      | _ => cases h
  | array left leftSize =>
      cases right with
      | array right rightSize =>
          rw [sameType, Bool.and_eq_true, beq_iff_eq] at h
          rw [h.1, eq_of_sameType left right h.2]
      | _ => cases h
  | struct left =>
      cases right with
      | struct right => exact congrArg LogicalType.struct (eq_of_sameFields left right h)
      | _ => cases h
  | _ =>
      cases right with
      | _ => first | rfl | cases h

theorem eq_of_sameFields (left right : List (String × LogicalType)) (h : sameFields left right = true) :
    left = right := by
  match left, right with
  | [], [] => rfl
  | [], _ :: _ => cases h
  | _ :: _, [] => cases h
  | left :: lefts, right :: rights =>
      rw [sameFields, Bool.and_eq_true] at h
      rw [eq_of_sameField left right h.1, eq_of_sameFields lefts rights h.2]

theorem eq_of_sameField (left right : String × LogicalType) (h : sameField left right = true) : left = right := by
  match left, right with
  | (leftName, left), (rightName, right) =>
      rw [sameField, Bool.and_eq_true, beq_iff_eq] at h
      rw [h.1, eq_of_sameType left right h.2]

end

/-! ## Roles -/

/-- What a column of the input is for: the name and the type that it has to have, and where the bind has found it. -/
structure InputRole where
  name : Text
  type : LogicalType
  column : Option Nat

/-- The role of a feature of the user. -/
def LerobotFeature.role (feature : LerobotFeature) : InputRole :=
  ⟨feature.name, feature.storageType, feature.inputIndex⟩

namespace LerobotCopyBindData

variable (bind : LerobotCopyBindData)

/-- The features of the option `FEATURES`. -/
def userFeatures : List LerobotFeature := bind.features.filter LerobotFeature.userDefined

/-- The features with a column in the frames. -/
def frameFeatures : List LerobotFeature := bind.features.filter fun feature => !feature.isVideo

/-- The roles of the input. -/
def roles : List InputRole :=
  ⟨"episode_index".toList, .bigint, some bind.episodeInputIndex⟩ ::
    ⟨"task".toList, .varchar, some bind.taskInputIndex⟩ :: bind.userFeatures.map LerobotFeature.role

end LerobotCopyBindData

/-- A role has a column, with its name but for the case of letters and with its type. -/
structure RoleMatched (inputColumns : List (Text × LogicalType)) (role : InputRole) (index : Nat) : Prop where
  column_eq : role.column = some index
  matched : ∃ column, inputColumns[index]? = some column ∧ ciEquals column.1 role.name = true ∧
    column.2 = role.type

/-- **The columns of the input are in bijection with the roles.** -/
structure ColumnsMatched (user : List LerobotFeature) (inputColumns : List (Text × LogicalType))
    (bind : LerobotCopyBindData) : Prop where
  /-- The features are those of the user. -/
  user_eq : bind.userFeatures.map LerobotFeature.unbound = user.map LerobotFeature.unbound
  /-- Each role has a column, no two have the same one, and no column is left. -/
  roles : ∃ positions, List.Forall₂ (RoleMatched inputColumns) bind.roles positions ∧
    positions.Perm (List.range inputColumns.length)
  /-- The places of the features in the frames are consecutive. -/
  outputs : bind.frameFeatures.map LerobotFeature.outputIndex = (List.range bind.frameFeatures.length).map some
  /-- The names and the types at these places are those of the features, and there are no others. -/
  dataNames : bind.dataNames.length = bind.frameFeatures.length ∧ ∀ feature ∈ bind.frameFeatures, ∀ index,
    feature.outputIndex = some index → bind.dataNames[index]? = some feature.name
  dataTypes : bind.dataTypes.length = bind.frameFeatures.length ∧ ∀ feature ∈ bind.frameFeatures, ∀ index,
    feature.outputIndex = some index → bind.dataTypes[index]? = some feature.outputType

/-! ## Looking a column up -/

section Lookup

variable {inputColumns : List (Text × LogicalType)} {name : Text} {index : Nat}

theorem findInput_some (h : findInput inputColumns name = some index) :
    ∃ column, inputColumns[index]? = some column ∧ ciEquals column.1 name = true ∧
      inputType inputColumns index = column.2 := by
  obtain ⟨hlt, hname, -⟩ := List.findIdx?_eq_some_iff_getElem.mp h
  refine ⟨inputColumns[index], List.getElem?_eq_getElem hlt, hname, ?_⟩
  rw [inputType, List.getElem?_eq_getElem hlt]
  rfl

/-- A role that was looked up, and whose type was compared. -/
theorem roleMatched_of_find {type : LogicalType} (h : findInput inputColumns name = some index)
    (htype : sameType (inputType inputColumns index) type = true) :
    RoleMatched inputColumns ⟨name, type, some index⟩ index := by
  obtain ⟨column, hcolumn, hname, hinput⟩ := findInput_some h
  exact ⟨rfl, column, hcolumn, hname, hinput ▸ eq_of_sameType _ _ htype⟩

/-- Names that match one column are the same name. -/
theorem ciEquals_of_matched {first second : Text} {column : Text}
    (hfirst : ciEquals column first = true) (hsecond : ciEquals column second = true) :
    ciEquals first second = true := by
  rw [ciEquals, decide_eq_true_eq] at hfirst hsecond ⊢
  exact hfirst.symm.trans hsecond

end Lookup

/-! ## The loop over the features -/

/-- What the loop over the features has done. -/
structure InputBound (inputColumns : List (Text × LogicalType)) (start : LerobotCopyBindData)
    (bind : LerobotCopyBindData) (expectedColumns : Nat) : Prop where
  matched : ∃ positions, List.Forall₂ (RoleMatched inputColumns)
    (bind.userFeatures.map LerobotFeature.role) positions
  count : expectedColumns = 2 + bind.userFeatures.length
  outputs : bind.frameFeatures.map LerobotFeature.outputIndex = (List.range bind.dataNames.length).map some
  names : ∀ feature ∈ bind.frameFeatures, ∀ index,
    feature.outputIndex = some index → bind.dataNames[index]? = some feature.name
  types : ∀ feature ∈ bind.frameFeatures, ∀ index,
    feature.outputIndex = some index → bind.dataTypes[index]? = some feature.outputType
  lengths : bind.dataTypes.length = bind.dataNames.length
  episode_eq : bind.episodeInputIndex = start.episodeInputIndex
  task_eq : bind.taskInputIndex = start.taskInputIndex

section Bound

variable {printType : LogicalType → String} {inputColumns : List (Text × LogicalType)}

/-- A feature of the user has a column. -/
theorem bindInput_cases {feature bound : LerobotFeature}
    (h : bindInput printType inputColumns feature = .ok bound) :
    bound.userDefined = feature.userDefined ∧ (bound.userDefined = true → ∃ index,
      RoleMatched inputColumns bound.role index) := by
  unfold bindInput at h
  cases huser : feature.userDefined with
  | true =>
      rw [huser, if_pos rfl] at h
      cases hfind : findInput inputColumns feature.name with
      | none =>
          rw [hfind] at h
          cases h
      | some index =>
          rw [hfind] at h
          obtain ⟨htype, hok⟩ := except_check_eq_ok.mp h
          cases hok
          rw [Bool.not_eq_true', Bool.not_eq_false] at htype
          exact ⟨rfl, fun _ => ⟨index, roleMatched_of_find hfind htype⟩⟩
  | false =>
      rw [huser, if_neg Bool.false_ne_true] at h
      cases h
      exact ⟨huser, fun htrue => absurd (huser.symm.trans htrue) Bool.false_ne_true⟩

/-- What is bound with a feature: its place in the frames, unless it is a video. -/
structure OutputBound (bind bind' : LerobotCopyBindData) (bound placed : LerobotFeature) : Prop where
  features : bind'.features = bind.features ++ [placed]
  role_eq : placed.role = bound.role
  user_eq : placed.userDefined = bound.userDefined
  frame : placed.isVideo = true ∧ bind'.dataNames = bind.dataNames ∧ bind'.dataTypes = bind.dataTypes ∨
    placed.isVideo = false ∧ placed.outputIndex = some bind.dataNames.length ∧
      bind'.dataNames = bind.dataNames ++ [placed.name] ∧ bind'.dataTypes = bind.dataTypes ++ [placed.outputType]
  episode_eq : bind'.episodeInputIndex = bind.episodeInputIndex
  task_eq : bind'.taskInputIndex = bind.taskInputIndex

theorem outputBound (bind : LerobotCopyBindData) (bound : LerobotFeature) :
    ∃ placed, OutputBound bind (bindOutput bind bound) bound placed := by
  unfold bindOutput
  split
  · rename_i hvideo
    exact ⟨bound, rfl, rfl, rfl, .inl ⟨hvideo, rfl, rfl⟩, rfl, rfl⟩
  · rename_i hvideo
    refine ⟨{ bound with outputIndex := some bind.dataNames.length }, rfl, rfl, rfl, .inr ⟨?_, rfl, rfl, rfl⟩, rfl, rfl⟩
    exact Bool.eq_false_iff.mpr hvideo

/-- A feature that is added at the end of those of the user, or left out. -/
theorem matched_concat {features : List LerobotFeature} {placed : LerobotFeature} {positions : List Nat}
    (h : List.Forall₂ (RoleMatched inputColumns) ((features.filter LerobotFeature.userDefined).map
      LerobotFeature.role) positions)
    (hplaced : placed.userDefined = true → ∃ index, RoleMatched inputColumns placed.role index) :
    ∃ positions, List.Forall₂ (RoleMatched inputColumns) (((features ++ [placed]).filter
      LerobotFeature.userDefined).map LerobotFeature.role) positions := by
  cases huser : placed.userDefined with
  | true =>
      obtain ⟨index, hindex⟩ := hplaced huser
      refine ⟨positions ++ [index], ?_⟩
      rw [List.filter_append, List.filter_cons, if_pos huser, List.map_append]
      exact List.rel_append h (.cons hindex .nil)
  | false =>
      refine ⟨positions, ?_⟩
      rw [List.filter_append, List.filter_cons, if_neg (by simp [huser]), List.filter_nil, List.append_nil]
      exact h

/-- **One round** keeps what the loop has done. -/
theorem InputBound.add {start bind bind' : LerobotCopyBindData} {expectedColumns expectedColumns' : Nat}
    {feature : LerobotFeature} (h : InputBound inputColumns start bind expectedColumns)
    (hround : bindFeature printType inputColumns (bind, expectedColumns) feature =
      .ok (bind', expectedColumns')) :
    InputBound inputColumns start bind' expectedColumns' := by
  obtain ⟨bound, hbound, hok⟩ := except_map_eq_ok.mp hround
  obtain ⟨huser, hmatched⟩ := bindInput_cases hbound
  have hcount : expectedColumns' = expectedColumns + if bound.userDefined then 1 else 0 := by
    rw [huser]
    exact (congrArg Prod.snd hok).symm
  have hbind' : bindOutput bind bound = bind' := congrArg Prod.fst hok
  obtain ⟨placed, hplaced⟩ := outputBound bind bound
  rw [hbind'] at hplaced
  obtain ⟨positions, hpositions⟩ := h.matched
  have huserFeatures : ∃ positions, List.Forall₂ (RoleMatched inputColumns)
      (bind'.userFeatures.map LerobotFeature.role) positions := by
    rw [LerobotCopyBindData.userFeatures, hplaced.features]
    apply matched_concat hpositions
    rw [hplaced.user_eq, hplaced.role_eq]
    exact hmatched
  have hcounted : expectedColumns' = 2 + bind'.userFeatures.length := by
    rw [hcount, h.count, LerobotCopyBindData.userFeatures, LerobotCopyBindData.userFeatures, hplaced.features,
      List.filter_append, List.length_append, List.filter_cons, hplaced.user_eq]
    cases bound.userDefined <;> rfl
  rcases hplaced.frame with ⟨hvideo, hnames, htypes⟩ | ⟨hvideo, hindex, hnames, htypes⟩
  · have hframes : bind'.frameFeatures = bind.frameFeatures := by
      simp [LerobotCopyBindData.frameFeatures, hplaced.features, hvideo]
    exact {
      matched := huserFeatures
      count := hcounted
      outputs := by
        rw [hframes, hnames]
        exact h.outputs
      names := by
        rw [hframes, hnames]
        exact h.names
      types := by
        rw [hframes, htypes]
        exact h.types
      lengths := by
        rw [hnames, htypes]
        exact h.lengths
      episode_eq := hplaced.episode_eq.trans h.episode_eq
      task_eq := hplaced.task_eq.trans h.task_eq }
  · have hframes : bind'.frameFeatures = bind.frameFeatures ++ [placed] := by
      simp [LerobotCopyBindData.frameFeatures, hplaced.features, hvideo]
    -- the new place is behind those that are taken
    have hbelow : ∀ feature ∈ bind.frameFeatures, ∀ index, feature.outputIndex = some index →
        index < bind.dataNames.length := by
      intro feature hfeature index hindex
      have hmem : some index ∈ bind.frameFeatures.map LerobotFeature.outputIndex :=
        List.mem_map.mpr ⟨feature, hfeature, hindex⟩
      rw [h.outputs] at hmem
      obtain ⟨index', hindex', heq⟩ := List.mem_map.mp hmem
      rw [← Option.some.inj heq]
      exact List.mem_range.mp hindex'
    exact {
      matched := huserFeatures
      count := hcounted
      outputs := by
        rw [hframes, hnames, List.map_append, h.outputs, List.length_append, List.length_singleton,
          List.range_succ, List.map_append, List.map_singleton, hindex]
        rfl
      names := by
        rw [hframes, hnames]
        intro feature hfeature index hat
        rcases List.mem_append.mp hfeature with hold | hnew
        · rw [List.getElem?_append_left (hbelow feature hold index hat)]
          exact h.names feature hold index hat
        · rw [List.mem_singleton.mp hnew] at hat ⊢
          rw [hindex] at hat
          rw [← Option.some.inj hat]
          exact List.getElem?_concat_length
      types := by
        rw [hframes, htypes]
        intro feature hfeature index hat
        rcases List.mem_append.mp hfeature with hold | hnew
        · have hlt := hbelow feature hold index hat
          rw [List.getElem?_append_left (h.lengths ▸ hlt)]
          exact h.types feature hold index hat
        · rw [List.mem_singleton.mp hnew] at hat ⊢
          rw [hindex] at hat
          rw [← Option.some.inj hat, ← h.lengths]
          exact List.getElem?_concat_length
      lengths := by
        rw [hnames, htypes, List.length_append, List.length_append, h.lengths]
        rfl
      episode_eq := hplaced.episode_eq.trans h.episode_eq
      task_eq := hplaced.task_eq.trans h.task_eq }

/-- Before the loop. -/
theorem inputBound_start {start : LerobotCopyBindData} (hfeatures : start.features = [])
    (hnames : start.dataNames = []) (htypes : start.dataTypes = []) : InputBound inputColumns start start 2 := by
  have huser : start.userFeatures = [] := by
    rw [LerobotCopyBindData.userFeatures, hfeatures]
    rfl
  have hframes : start.frameFeatures = [] := by
    rw [LerobotCopyBindData.frameFeatures, hfeatures]
    rfl
  exact {
    matched := ⟨[], by rw [huser]; exact .nil⟩
    count := by rw [huser]; rfl
    outputs := by rw [hframes, hnames]; rfl
    names := by simp [hframes]
    types := by simp [hframes]
    lengths := by rw [hnames, htypes]; rfl
    episode_eq := rfl
    task_eq := rfl }

/-- The whole loop. -/
theorem inputBound_of_fold {start bind : LerobotCopyBindData} {n m : Nat} {features : List LerobotFeature}
    (hstart : InputBound inputColumns start start n)
    (h : features.foldlM (bindFeature printType inputColumns) (start, n) = .ok (bind, m)) :
    InputBound inputColumns start bind m := by
  apply foldlM_ok (I := fun _ (state : LerobotCopyBindData × Nat) =>
    InputBound inputColumns start state.1 state.2) h hstart
  rintro seen feature rest ⟨bind, n⟩ ⟨bind', n'⟩ - hbind hround
  exact hbind.add hround

/-- The checks of the columns `episode_index` and `task`. -/
theorem bindInputColumns_ok {episode task : Nat}
    (h : bindInputColumns printType inputColumns = .ok (episode, task)) :
    RoleMatched inputColumns ⟨"episode_index".toList, .bigint, some episode⟩ episode ∧
      RoleMatched inputColumns ⟨"task".toList, .varchar, some task⟩ task := by
  obtain ⟨_, -, h⟩ := except_bind_eq_ok.mp h
  split at h
  · rename_i episode' task' hepisode htask
    simp only [except_bind_eq_ok, refuse_eq_ok, Bool.not_eq_true', Bool.not_eq_false] at h
    obtain ⟨-, hepisodeType, -, htaskType, hok⟩ := h
    cases hok
    exact ⟨roleMatched_of_find hepisode hepisodeType, roleMatched_of_find htask htaskType⟩
  · cases h

end Bound

/-! ## Counting -/

section Counting

variable {inputColumns : List (Text × LogicalType)} {roles : List InputRole} {positions : List Nat}

/-- Roles with different names have different columns. -/
theorem nodup_of_matched (h : List.Forall₂ (RoleMatched inputColumns) roles positions)
    (hnames : roles.Pairwise fun a b => ciEquals a.name b.name = false) : positions.Nodup := by
  induction h with
  | nil => exact List.nodup_nil
  | @cons role position roles positions hrole hroles ih =>
      obtain ⟨hfirst, hrest⟩ := List.pairwise_cons.mp hnames
      refine List.nodup_cons.mpr ⟨?_, ih hrest⟩
      intro hmem
      obtain ⟨other, hother, hmatched⟩ := exists_left_of_forall₂ hroles hmem
      -- one column would have both names
      obtain ⟨column, hcolumn, hname, -⟩ := hrole.matched
      obtain ⟨column', hcolumn', hname', -⟩ := hmatched.matched
      rw [hcolumn] at hcolumn'
      obtain rfl : column = column' := Option.some.inj hcolumn'
      exact absurd ((hfirst other hother).symm.trans (ciEquals_of_matched hname hname')) Bool.false_ne_true

/-- **As many roles as columns**: every column has a role. -/
theorem perm_of_matched (h : List.Forall₂ (RoleMatched inputColumns) roles positions)
    (hnames : roles.Pairwise fun a b => ciEquals a.name b.name = false)
    (hcount : inputColumns.length = roles.length) : positions.Perm (List.range inputColumns.length) := by
  have hsubset : positions ⊆ List.range inputColumns.length := by
    intro position hmem
    obtain ⟨role, -, hmatched⟩ := exists_left_of_forall₂ h hmem
    obtain ⟨column, hcolumn, -⟩ := hmatched.matched
    exact List.mem_range.mpr (List.getElem?_eq_some_iff.mp hcolumn).1
  have hsubperm := List.subperm_of_subset (nodup_of_matched h hnames) hsubset
  apply hsubperm.perm_of_length_le
  rw [List.length_range, hcount, h.length_eq]

end Counting

/-! ## The features of the user -/

/-- The features of the option are marked as such. -/
theorem userDefined_of_parse {rows : List FeatureRow} {user : List LerobotFeature}
    (h : parseUserFeatures rows = .ok user) : ∀ feature ∈ user, feature.userDefined = true := by
  apply foldlM_ok (I := fun _ (features : List LerobotFeature) => ∀ feature ∈ features,
    feature.userDefined = true) h
  · intro feature hmem
    cases hmem
  · intro seen row rest features result _ hfeatures hround feature hmem
    unfold parseFeatureRow at hround
    split at hround
    · simp only [except_bind_eq_ok] at hround
      obtain ⟨_, -, _, -, _, -, _, -, _, -, hok⟩ := hround
      cases hok
      rcases List.mem_append.mp hmem with hold | hnew
      · exact hfeatures feature hold
      · rw [List.mem_singleton.mp hnew]
    · cases hround

theorem defaultFeatures_not_user {defaults : List LerobotFeature} (h : defaultFeatures = .ok defaults) :
    ∀ feature ∈ defaults, feature.userDefined = false := by
  intro feature hmem
  obtain ⟨column, -, hdefault⟩ := exists_mem_of_mapM h hmem
  obtain ⟨_, -, rfl⟩ := except_map_eq_ok.mp hdefault
  rfl

/-- The loop keeps which features are those of the user. -/
theorem userFeatures_unbound {features user defaults : List LerobotFeature}
    (hfeatures : features.map LerobotFeature.unbound = (user ++ defaults).map LerobotFeature.unbound)
    (huser : ∀ feature ∈ user, feature.userDefined = true)
    (hdefaults : ∀ feature ∈ defaults, feature.userDefined = false) :
    (features.filter LerobotFeature.userDefined).map LerobotFeature.unbound = user.map LerobotFeature.unbound := by
  have hcommutes (l : List LerobotFeature) : (l.filter LerobotFeature.userDefined).map LerobotFeature.unbound =
      (l.map LerobotFeature.unbound).filter LerobotFeature.userDefined := by
    rw [List.filter_map]
    rfl
  have hkept : user.filter LerobotFeature.userDefined = user := List.filter_eq_self.mpr huser
  have hdropped : defaults.filter LerobotFeature.userDefined = [] := by
    rw [List.filter_eq_nil_iff]
    intro feature hmem
    rw [hdefaults feature hmem]
    exact Bool.false_ne_true
  rw [hcommutes, hfeatures, ← hcommutes, List.filter_append, hkept, hdropped, List.append_nil]

/-- The names of the roles are distinct, since `FEATURES` may not use a reserved one. -/
theorem roles_distinct {bind : LerobotCopyBindData} {user : List LerobotFeature} (huser : UserFeatures user)
    (hsame : bind.userFeatures.map LerobotFeature.unbound = user.map LerobotFeature.unbound) :
    bind.roles.Pairwise fun a b => ciEquals a.name b.name = false := by
  have hnames : bind.userFeatures.map LerobotFeature.name = user.map LerobotFeature.name := by
    have hmap := congrArg (List.map LerobotFeature.name) hsame
    rwa [List.map_map, List.map_map] at hmap
  have hreserved : ∀ generated ∈ generatedNames, ∀ role ∈ bind.userFeatures.map LerobotFeature.role,
      ciEquals generated.toList role.name = false := by
    intro generated hgenerated role hrole
    obtain ⟨feature, hfeature, rfl⟩ := List.mem_map.mp hrole
    have hmem : feature.name ∈ user.map LerobotFeature.name := hnames ▸ List.mem_map_of_mem hfeature
    obtain ⟨original, horiginal, hname⟩ := List.mem_map.mp hmem
    rw [ciEquals_comm]
    have hnot := huser.not_generated original horiginal generated hgenerated
    rwa [hname] at hnot
  have hpairwise : (user.map LerobotFeature.name).Pairwise fun a b => ciEquals a b = false :=
    List.pairwise_map.mpr huser.names_distinct
  rw [← hnames] at hpairwise
  refine List.pairwise_cons.mpr ⟨?_, List.pairwise_cons.mpr ⟨?_, ?_⟩⟩
  · intro role hrole
    rcases List.mem_cons.mp hrole with rfl | hrole
    · have hdistinct : ciEquals "episode_index".toList "task".toList = false := by decide
      exact hdistinct
    · exact hreserved "episode_index" (by decide) role hrole
  · intro role hrole
    exact hreserved "task" (by decide) role hrole
  · exact List.pairwise_map.mpr (List.pairwise_map.mp hpairwise)

/-! ## The bijection -/

/-- **The columns of the input of COPY are in bijection with its roles.** -/
theorem columnsMatched_of_bind {arithmetic : Arithmetic} {log : ℚ → ℚ} {printType : LogicalType → String}
    {options : CopyOptions} {inputColumns : List (Text × LogicalType)} {bind : LerobotCopyBindData}
    (h : lerobotCopyBind arithmetic log printType options inputColumns = .ok bind) :
    ∃ rows user, getSingleOption "FEATURES" true options.features = .ok rows ∧
      parseUserFeatures (rows.getD []) = .ok user ∧ ColumnsMatched user inputColumns bind := by
  simp only [lerobotCopyBind, except_bind_eq_ok, refuse_eq_ok] at h
  obtain ⟨fps, -, -, -, rows, hrows, user, huser, defaults, hdefaults, encoding, -,
    ⟨episodeIndex, taskIndex⟩, hinput, ⟨middle, columns⟩, hfold, -, hcolumns, hepisodes⟩ := h
  refine ⟨rows, user, hrows, huser, ?_⟩
  have huserFeatures := userFeatures_of_parse huser
  have hmiddle := dataColumnsBound_of_fold ⟨rfl, rfl, rfl, rfl, rfl⟩ hfold
  have hwell : FeaturesWellFormed middle.features :=
    (featuresWellFormed_append huserFeatures hdefaults).of_unbound hmiddle.features
  have hbound := inputBound_of_fold (inputBound_start rfl rfl rfl) hfold
  -- the columns of the episodes change none of this
  obtain ⟨-, -, -, hwithout⟩ := episodeColumns_of_bind hwell.each hepisodes
  have hfeatures := features_of_withoutEpisodes hwithout
  have hplaces : bind.episodeInputIndex = middle.episodeInputIndex ∧ bind.taskInputIndex = middle.taskInputIndex := by
    have hepisode := congrArg LerobotCopyBindData.episodeInputIndex hwithout
    have htask := congrArg LerobotCopyBindData.taskInputIndex hwithout
    exact ⟨hepisode, htask⟩
  have hdata : bind.dataNames = middle.dataNames ∧ bind.dataTypes = middle.dataTypes := by
    have hnames := congrArg LerobotCopyBindData.dataNames hwithout
    have htypes := congrArg LerobotCopyBindData.dataTypes hwithout
    exact ⟨hnames, htypes⟩
  have huserSame : bind.userFeatures = middle.userFeatures := by
    rw [LerobotCopyBindData.userFeatures, hfeatures]
    rfl
  have hframeSame : bind.frameFeatures = middle.frameFeatures := by
    rw [LerobotCopyBindData.frameFeatures, hfeatures]
    rfl
  have hframeCount : middle.dataNames.length = middle.frameFeatures.length := by
    have hlength := congrArg List.length hbound.outputs
    rw [List.length_map, List.length_map, List.length_range] at hlength
    exact hlength.symm
  have huserEq : bind.userFeatures.map LerobotFeature.unbound = user.map LerobotFeature.unbound := by
    rw [huserSame]
    exact userFeatures_unbound hmiddle.features (userDefined_of_parse huser) (defaultFeatures_not_user hdefaults)
  obtain ⟨hepisodeRole, htaskRole⟩ := bindInputColumns_ok hinput
  obtain ⟨positions, hpositions⟩ := hbound.matched
  have hroles : List.Forall₂ (RoleMatched inputColumns) bind.roles (episodeIndex :: taskIndex :: positions) := by
    rw [LerobotCopyBindData.roles, hplaces.1, hbound.episode_eq, hplaces.2, hbound.task_eq, huserSame]
    exact .cons hepisodeRole (.cons htaskRole hpositions)
  have hcount : inputColumns.length = bind.roles.length := by
    rw [LerobotCopyBindData.roles, List.length_cons, List.length_cons, List.length_map, huserSame,
      of_not_not hcolumns, hbound.count]
    omega
  exact {
    user_eq := huserEq
    roles := ⟨_, hroles, perm_of_matched hroles (roles_distinct huserFeatures huserEq) hcount⟩
    outputs := by
      rw [hframeSame, hbound.outputs, hframeCount]
    dataNames := by
      rw [hdata.1, hframeSame]
      exact ⟨hframeCount, hbound.names⟩
    dataTypes := by
      rw [hdata.2, hframeSame]
      exact ⟨hbound.lengths.trans hframeCount, hbound.types⟩ }

theorem armFeatures_matched : ∃ bind rows user,
    lerobotCopyBind .exact (fun _ => 0) (fun _ => "")
      ⟨some [some 10], some [some armFeatures], none, none, none, none⟩ armColumns = .ok bind ∧
    parseUserFeatures rows = .ok user ∧ ColumnsMatched user armColumns bind := by
  obtain ⟨bind, hbind⟩ := armFeatures_bound
  obtain ⟨rows, user, -, huser, hmatched⟩ := columnsMatched_of_bind hbind
  exact ⟨bind, _, user, hbind, huser, hmatched⟩

end DuckdbLerobot.Copy
