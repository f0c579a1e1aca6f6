import DuckdbLerobot.Storage.MetadataCache

/-!
# Reads of one version

What one read of the world says (`readingVersion_ok`), what the reads of `Load` say when the version
stays the same meanwhile (`loadFrom_content`), and why it stays the same between two reads of the
manifest with one fingerprint under one access key (`Later.same_version`).
-/

set_option autoImplicit false

namespace DuckdbLerobot.Storage

open DuckdbLerobot.Library DuckdbLerobot.Path

/-! ## Histories of the world -/

/-- The histories only grow. -/
structure Later (earlier later : World) : Prop where
  keys : (earlier.accessKey :: earlier.earlierKeys) <:+ (later.accessKey :: later.earlierKeys)
  versions : ∀ key root, earlier.versions key root <:+ later.versions key root

namespace Later

variable {a b c : World}

theorem refl (a : World) : Later a a :=
  ⟨List.suffix_refl _, fun _ _ => List.suffix_refl _⟩

theorem trans (h₁ : Later a b) (h₂ : Later b c) : Later a c :=
  ⟨h₁.keys.trans h₂.keys, fun key root => (h₁.versions key root).trans (h₂.versions key root)⟩

/-- **An access key seen twice** was there in between. -/
theorem same_key (h₁ : Later a b) (h₂ : Later b c) (h : a.accessKey = c.accessKey) :
    b.accessKey = a.accessKey := by
  have hnodup : ((c.accessKey :: c.earlierKeys).map id).Nodup := by
    rw [List.map_id]
    exact c.keys_nodup
  have hkeys := eq_of_stamp id (h₁.keys.trans h₂.keys) hnodup (a := a.accessKey) (b := c.accessKey)
    rfl rfl h
  have hback : (b.accessKey :: b.earlierKeys) <:+ (a.accessKey :: a.earlierKeys) := by
    rw [hkeys]
    exact h₂.keys
  exact (List.cons.inj (eq_of_between h₁.keys hback)).1.symm

/-- **A fingerprint of the manifest seen twice** means the same version in between. -/
theorem same_versions {key root : Text} (h₁ : Later a b) (h₂ : Later b c) {v w : DatasetVersion}
    (hv : (a.versions key root).head? = some v) (hw : (c.versions key root).head? = some w)
    (h : v.infoFingerprint = w.infoFingerprint) :
    b.versions key root = a.versions key root ∧ v = w := by
  have heq := eq_of_stamp DatasetVersion.infoFingerprint
    ((h₁.versions key root).trans (h₂.versions key root)) (c.fingerprints_nodup key root) hv hw h
  have hback : b.versions key root <:+ a.versions key root := by
    rw [heq]
    exact h₂.versions key root
  constructor
  · exact (eq_of_between (h₁.versions key root) hback).symm
  · rw [heq, hw] at hv
    exact (Option.some.inj hv).symm

theorem mem_versions {key root : Text} (h : Later a b) {v : DatasetVersion}
    (hv : v ∈ a.versions key root) : v ∈ b.versions key root :=
  (h.versions key root).subset hv

end Later

/-- **Nothing changes between two reads of the manifest** with one fingerprint under one access
key. -/
theorem Later.same_version {a b c : World} {root : Text} {v w : DatasetVersion} (h₁ : Later a b)
    (h₂ : Later b c) (hkey : a.accessKey = c.accessKey) (hv : a.version root = some v)
    (hw : c.version root = some w) (h : v.infoFingerprint = w.infoFingerprint) :
    b.version root = some v ∧ v = w := by
  have hw' : (c.versions a.accessKey root).head? = some w := by
    rw [hkey]
    exact hw
  obtain ⟨hversions, hvw⟩ := h₁.same_versions h₂ hv hw' h
  refine ⟨?_, hvw⟩
  rw [World.version, h₁.same_key h₂ hkey, hversions]
  exact hv

/-- The current version belongs to the history. -/
theorem World.mem_of_version {world : World} {root : Text} {v : DatasetVersion}
    (h : world.version root = some v) : v ∈ world.versions world.accessKey root :=
  List.mem_of_mem_head? h

/-- Two versions of a history with one fingerprint are the same. -/
theorem World.version_unique {world : World} {key root : Text} {v w : DatasetVersion}
    (hv : v ∈ world.versions key root) (hw : w ∈ world.versions key root)
    (h : v.infoFingerprint = w.infoFingerprint) : v = w :=
  List.inj_on_of_nodup_map (world.fingerprints_nodup key root) hv hw h

/-! ## Contents -/

namespace DatasetVersion

/-- `MetadataFile`s of the episode files, in the order of their paths. -/
def metadataFiles (version : DatasetVersion) : List MetadataFile :=
  (version.paths.insertionSort (· ≤ ·)).filterMap fun path =>
    (version.file path).map fun file => ⟨path, file.fingerprint⟩

/-- The rows of all episode files, in some order. -/
def Rows (version : DatasetVersion) (rows : List EpisodeRow) : Prop :=
  ∃ parts, List.Forall₂ (fun path part => (version.file path).map EpisodeFile.rows = some (.ok part))
    version.paths parts ∧ rows.Perm parts.flatten

end DatasetVersion

/-- The episode files that `Load` remembers. -/
def Host.listed (host : Host) (root : Text) (version : DatasetVersion) : List MetadataFile :=
  if host.isRemoteFile root then version.metadataFiles else []

/-- **The metadata is the content of a version**: `Load`, from the manifest and the files of this
version alone. -/
def DatasetContent (host : Host) (version : DatasetVersion) (metadata : LerobotDatasetMetadata) :
    Prop :=
  ∃ info rows, version.info = .ok info ∧ (info.totalEpisodes ≠ 0 → version.Rows rows) ∧
    LerobotDatasetMetadata.load host.sortRoutes metadata.root version.infoFingerprint info
      (host.listed metadata.root version) rows = .ok metadata

/-- The video metadata is the content of a version. -/
def VideoContent (host : Host) (version : DatasetVersion) (metadata : LerobotVideoMetadata) : Prop :=
  ∃ dataset lanceRows rows, DatasetContent host version dataset ∧ dataset.root = metadata.root ∧
    (dataset.info.totalEpisodes ≠ 0 → dataset.info.videoKeys ≠ [] →
      (dataset.info.isLance = true → version.lanceVideos = .ok lanceRows) ∧ version.Rows rows) ∧
      LerobotVideoMetadata.load host.sortVideoRoutes dataset lanceRows rows = .ok metadata

/-- What an object of the cache is: the content of a version that its key has seen. -/
def SoundObject (host : Host) (world : World) (key : Text) : CachedObject → Prop
  | .dataset metadata => ∃ accessKey version, key = LerobotDatasetMetadata.keyOf accessKey ∧
      version ∈ world.versions accessKey metadata.root ∧ DatasetContent host version metadata
  | .video metadata => ∃ accessKey version, key = LerobotVideoMetadata.keyOf accessKey ∧
      version ∈ world.versions accessKey metadata.root ∧ VideoContent host version metadata

/-- Every object of the cache is sound. -/
def CacheSound (host : Host) (world : World) : Prop :=
  ∀ key object, world.objectCache key = some object → SoundObject host world key object

theorem SoundObject.later {host : Host} {a b : World} {key : Text} {object : CachedObject}
    (h : SoundObject host a key object) (hlater : Later a b) : SoundObject host b key object := by
  cases object with
  | dataset metadata =>
      obtain ⟨accessKey, version, hkey, hmem, hcontent⟩ := h
      exact ⟨accessKey, version, hkey, hlater.mem_versions hmem, hcontent⟩
  | video metadata =>
      obtain ⟨accessKey, version, hkey, hmem, hcontent⟩ := h
      exact ⟨accessKey, version, hkey, hlater.mem_versions hmem, hcontent⟩

/-- **The service of the calls.** The others change the dataset and the access configuration, make
reads fail, and put sound objects into the cache or drop objects from it. -/
def service (host : Host) : Service Command Response Exception World where
  answer := answer
  interferes a b := Later a b ∧ (CacheSound host a → CacheSound host b)

/-- A command leaves the histories alone. -/
theorem answer_world (command : Command) (world : World) :
    Later world (answer command world).2 := by
  cases command <;> exact ⟨List.suffix_refl _, fun _ _ => List.suffix_refl _⟩

/-- What is in the cache after a command was there before, or it was stored. -/
theorem answer_objectCache {command : Command} {world : World} {key : Text} {object : CachedObject}
    (h : (answer command world).2.objectCache key = some object) :
    world.objectCache key = some object ∨ command = .cachePut key object := by
  cases command with
  | cachePut key' object' =>
      have hput : Function.update world.objectCache key' (some object') key = some object := h
      by_cases hkey : key = key'
      · subst hkey
        rw [Function.update_self] at hput
        cases hput
        exact .inr rfl
      · rw [Function.update_of_ne hkey] at hput
        exact .inl hput
  | cacheDelete key' =>
      have hdelete : Function.update world.objectCache key' none key = some object := h
      by_cases hkey : key = key'
      · subst hkey
        rw [Function.update_self] at hdelete
        cases hdelete
      · rw [Function.update_of_ne hkey] at hdelete
        exact .inl hdelete
  | _ => exact .inl h

theorem ordered (host : Host) : Ordered (service host) Later where
  refl := Later.refl
  trans := Later.trans
  other h := h.1
  own {command s response t} h := by
    have hanswer := answer_world command s
    have heq : answer command s = (response, t) := h
    rwa [heq] at hanswer

/-! ## Single reads -/

theorem World.reading_ok {α : Type} {world : World} {result : Except Exception α} {a : α}
    (h : world.reading result = .ok a) : result = .ok a := by
  unfold World.reading at h
  cases hfault : world.fault with
  | none => simpa only [hfault] using h
  | some e => simp only [hfault, reduceCtorEq] at h

/-- A read of a file that succeeded saw a version. -/
theorem World.readingVersion_ok {α : Type} {world : World} {root : Text}
    {result : DatasetVersion → Except Exception α} {a : α}
    (h : world.readingVersion root result = .ok a) :
    ∃ version, world.version root = some version ∧ result version = .ok a := by
  have hread := World.reading_ok h
  cases hversion : world.version root with
  | none => simp only [hversion, reduceCtorEq] at hread
  | some version => exact ⟨version, rfl, by simpa only [hversion] using hread⟩

section Reads

variable {host : Host} {s t : World} {moves : List (Move Command Response Exception World)}

theorem accessKey_read {accessKey : Text}
    (h : Run (service host) (step .accessKey) s moves (.ok accessKey) t) :
    ∃ w ∈ instants s moves, w.accessKey = accessKey := by
  obtain ⟨w, hw, hanswer⟩ := h.perform_answer
  exact ⟨w, hw, Except.ok.inj (World.reading_ok hanswer)⟩

theorem resolveRoot_read {root : Text}
    (h : Run (service host) (step .resolveRoot) s moves (.ok root) t) :
    ∃ w ∈ instants s moves, w.resolvedRoot = .ok root := by
  obtain ⟨w, hw, hanswer⟩ := h.perform_answer
  exact ⟨w, hw, World.reading_ok hanswer⟩

theorem cacheGet_read {key : Text} {object : Option CachedObject}
    (h : Run (service host) (step (.cacheGet key)) s moves (.ok object) t) :
    ∃ w ∈ instants s moves, w.objectCache key = object := by
  obtain ⟨w, hw, hanswer⟩ := h.perform_answer
  exact ⟨w, hw, Except.ok.inj hanswer⟩

/-! ## Reads of a version that stays -/

variable {root : Text} {version : DatasetVersion}

/-- What a read of a file returns while the version stays. -/
theorem stable_read {α : Type} {world : World} {result : DatasetVersion → Except Exception α} {a : α}
    (hstays : world.version root = some version)
    (h : world.readingVersion root result = .ok a) : result version = .ok a := by
  obtain ⟨version', hversion', hresult⟩ := World.readingVersion_ok h
  rw [hstays] at hversion'
  cases hversion'
  exact hresult

theorem episodePaths_read {paths : List Text}
    (h : Run (service host) (step (.episodePaths root)) s moves (.ok paths) t)
    (hstays : ∀ u ∈ instants s moves, u.version root = some version) : paths = version.paths := by
  obtain ⟨w, hw, hanswer⟩ := h.perform_answer
  have hpaths := stable_read (hstays w hw) hanswer
  exact (Except.ok.inj (except_check_eq_ok.mp hpaths).2).symm

/-- What an open file of the listing says. -/
theorem openEpisodeFile_content {path : Text} {file : MetadataFile}
    (h : Run (service host) (openEpisodeFile root path) s moves (.ok file) t)
    (hstays : ∀ u ∈ instants s moves, u.version root = some version) :
    (version.file path).map (fun found => ⟨path, found.fingerprint⟩) = some file := by
  obtain ⟨fingerprint, moves₁, u₁, moves₂, rfl, hread, hdone⟩ := h.bind_ok
  cases hdone.done_inv.1
  obtain ⟨w, hw, hanswer⟩ := hread.perform_answer
  have hstable := stable_read (hstays w (Run.mem_left hw)) hanswer
  cases hfile : version.file path with
  | none => simp only [hfile, reduceCtorEq] at hstable
  | some found =>
      simp only [hfile, Except.ok.injEq] at hstable
      rw [Option.map_some, hstable]

/-- `ReadEpisodeFiles` lists the files of the version. -/
theorem readEpisodeFiles_content {files : List MetadataFile}
    (h : Run (service host) (readEpisodeFiles root) s moves (.ok files) t)
    (hstays : ∀ u ∈ instants s moves, u.version root = some version) :
    files = version.metadataFiles := by
  obtain ⟨paths, moves₁, u₁, moves₂, rfl, hlist, hopen⟩ := h.bind_ok
  obtain rfl := episodePaths_read hlist fun u hu => hstays u (Run.mem_left hu)
  unfold DatasetVersion.metadataFiles
  have hfiles := hopen.each_ok
  generalize version.paths.insertionSort (· ≤ ·) = sorted at hfiles ⊢
  clear h hopen
  induction hfiles with
  | nil => rfl
  | cons hhead _ ih =>
      obtain ⟨s', moves', t', hrun, hsub⟩ := hhead
      have hfile := openEpisodeFile_content hrun fun u hu => hstays u (hlist.mem_right (hsub u hu))
      simp only [List.filterMap_cons, hfile]
      rw [← ih]

/-- The query over the episode files returns the rows of the version. -/
theorem queryEpisodeRows_content {rows : List EpisodeRow}
    (h : Run (service host) (queryEpisodeRows root) s moves (.ok rows) t)
    (hstays : ∀ u ∈ instants s moves, u.version root = some version) : version.Rows rows := by
  obtain ⟨paths, moves₁, u₁, rest, rfl, hlist, hquery⟩ := h.bind_ok
  obtain ⟨parts, moves₂, u₂, moves₃, rfl, hscan, harrange⟩ := hquery.bind_ok
  obtain rfl := episodePaths_read hlist fun u hu => hstays u (Run.mem_left hu)
  refine ⟨parts, ?_, ?_⟩
  · refine hscan.each_ok.imp ?_
    rintro path part ⟨s', moves', t', hrun, hsub⟩
    obtain ⟨w, hw, hanswer⟩ := hrun.perform_answer
    have hstable := stable_read (hstays w (hlist.mem_right (Run.mem_left (hsub w hw)))) hanswer
    cases hfile : version.file path with
    | none => simp only [hfile, reduceCtorEq] at hstable
    | some found =>
        simp only [hfile] at hstable
        rw [Option.map_some, hstable]
  · obtain ⟨w, -, hanswer⟩ := harrange.perform_answer
    have hrows : w.rowOrder.run parts.flatten = rows := Except.ok.inj (World.reading_ok hanswer)
    rw [← hrows]
    exact w.rowOrder.perm _

theorem compute_ok {α : Type} {result : Except BinderException α} {a : α}
    (h : Run (service host) (compute result) s moves (.ok a) t) : result = .ok a := by
  have hdone := h.done_inv.1
  cases result with
  | error e => cases hdone
  | ok a' =>
      cases hdone
      rfl

end Reads

/-! ## Loading -/

section Load

variable {host : Host} {s t : World} {moves : List (Move Command Response Exception World)}
  {root : Text} {version : DatasetVersion}

/-- A loaded table keeps what it was loaded for. -/
theorem LerobotDatasetMetadata.load_fields {sort : StdSort episodeRouteLess}
    {fingerprint : FileFingerprint} {info : LerobotDatasetInfo} {files : List MetadataFile}
    {rows : List EpisodeRow} {metadata : LerobotDatasetMetadata}
    (h : load sort root fingerprint info files rows = .ok metadata) :
    metadata.root = root ∧ metadata.info = info ∧ metadata.infoFingerprint = fingerprint := by
  by_cases hempty : info.totalEpisodes = 0
  · rw [load, if_pos hempty] at h
    cases h
    exact ⟨rfl, rfl, rfl⟩
  · obtain ⟨hroot, hinfo, hfingerprint, -⟩ := loadedFrom_of_load hempty h
    exact ⟨hroot, hinfo, hfingerprint⟩

/-- The query reads nothing that `Load` uses for a dataset without episodes. -/
theorem LerobotDatasetMetadata.load_empty {sort : StdSort episodeRouteLess}
    {fingerprint : FileFingerprint} {info : LerobotDatasetInfo} (hempty : info.totalEpisodes = 0)
    (files files' : List MetadataFile) (rows rows' : List EpisodeRow) :
    load sort root fingerprint info files rows = load sort root fingerprint info files' rows' := by
  rw [load, load, if_pos hempty, if_pos hempty]

theorem DatasetContent.fingerprint {metadata : LerobotDatasetMetadata}
    (h : DatasetContent host version metadata) :
    metadata.infoFingerprint = version.infoFingerprint := by
  obtain ⟨info, rows, -, -, hload⟩ := h
  exact (LerobotDatasetMetadata.load_fields hload).2.2

/-- **`Load` while the version stays** returns its content. -/
theorem LerobotDatasetMetadata.loadFrom_content {fingerprint : FileFingerprint} {forVideo : Bool}
    {metadata : LerobotDatasetMetadata}
    (h : Run (service host) (loadFrom host root fingerprint forVideo) s moves (.ok metadata) t)
    (hstays : ∀ u ∈ instants s moves, u.version root = some version)
    (hfingerprint : fingerprint = version.infoFingerprint) :
    DatasetContent host version metadata ∧ metadata.root = root := by
  obtain ⟨info, moves₁, u₁, rest, rfl, hinfo, hload⟩ := h.bind_ok
  obtain ⟨⟨⟩, moves₂, u₂, moves₃, rfl, hformat, hload⟩ := hload.bind_ok
  obtain ⟨w, hw, hanswer⟩ := hinfo.perform_answer
  have hversion : version.info = .ok info := stable_read (hstays w (Run.mem_left hw)) hanswer
  subst hfingerprint
  have hstays₃ : ∀ u ∈ instants u₂ moves₃, u.version root = some version := fun u hu =>
    hstays u (hinfo.mem_right (hformat.mem_right hu))
  split at hload
  · rename_i hempty
    have hresult := compute_ok hload
    have hroot := (load_fields hresult).1
    refine ⟨⟨info, [], hversion, fun hne => absurd hempty hne, ?_⟩, hroot⟩
    rw [hroot, load_empty hempty _ [] _ []]
    exact hresult
  · obtain ⟨files, moves₄, u₄, moves₅, rfl, hlisted, hload⟩ := hload.bind_ok
    obtain ⟨rows, moves₆, u₆, moves₇, rfl, hrows, hload⟩ := hload.bind_ok
    have hresult := compute_ok hload
    have hroot := (load_fields hresult).1
    have hfiles : files = host.listed root version := by
      unfold LerobotDatasetMetadata.listEpisodeFiles at hlisted
      unfold Host.listed
      split at hlisted
      · rename_i hremote
        rw [if_pos hremote]
        exact readEpisodeFiles_content hlisted fun u hu => hstays₃ u (Run.mem_left hu)
      · rename_i hlocal
        rw [if_neg hlocal]
        cases hlisted.done_inv.1
        rfl
    refine ⟨⟨info, rows, hversion, fun _ => ?_, ?_⟩, hroot⟩
    · exact queryEpisodeRows_content hrows fun u hu =>
        hstays₃ u (hlisted.mem_right (Run.mem_left hu))
    · rw [hroot, ← hfiles]
      exact hresult

end Load

end DuckdbLerobot.Storage
