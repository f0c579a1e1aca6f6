import DuckdbLerobot.Storage.SnapshotConsistency
import DuckdbLerobot.Video.VideoBinds

/-!
# The versions that a bind combines

Each of the two calls of a bind returns the content of one version. Nothing compares the two, as
`LerobotVideoMetadata::Get` does with its own pair of calls (`LerobotVideoMetadata.isValid`). A bind
uses one version exactly when the dataset does not change between the last reads of the manifest in
the two calls (`binds_use_one_version`).
-/

set_option autoImplicit false

namespace DuckdbLerobot.Video

open DuckdbLerobot.Library DuckdbLerobot.Path DuckdbLerobot.Storage

/-! ## Changes of the version -/

/-- The same access configuration and resolved root. -/
structure SameAccess (earlier later : World) : Prop where
  accessKey : later.accessKey = earlier.accessKey
  resolvedRoot : later.resolvedRoot = earlier.resolvedRoot

theorem SameAccess.refl (a : World) : SameAccess a a := ⟨rfl, rfl⟩

theorem SameAccess.trans {a b c : World} (h₁ : SameAccess a b) (h₂ : SameAccess b c) :
    SameAccess a c :=
  ⟨h₂.accessKey.trans h₁.accessKey, h₂.resolvedRoot.trans h₁.resolvedRoot⟩

/-- A command changes the cache only. -/
theorem sameAccess_answer (command : Command) (world : World) :
    SameAccess world (answer command world).2 := by
  cases command <;> exact ⟨rfl, rfl⟩

/-- **The service of a bind**: the others replace the dataset by new versions and use the cache. -/
def versionService (host : Host) : Service Command Response Exception World :=
  (service host).restrict SameAccess

theorem versionOrdered (host : Host) :
    Ordered (versionService host) fun a b => Later a b ∧ SameAccess a b := by
  refine (ordered host).restrict SameAccess.refl (fun h₁ h₂ => h₁.trans h₂) ?_
  intro command s response t hanswer
  have hsame := sameAccess_answer command s
  have heq : answer command s = (response, t) := hanswer
  rwa [heq] at hsame

/-- **One version**: what a bind combines is the content of one version of one dataset. -/
def OneVersion (host : Host) (metadata : LerobotVideoMetadata)
    (combined : Option LerobotDatasetMetadata) : Prop :=
  ∀ dataset, combined = some dataset → dataset.root = metadata.root ∧
    ∃ version, VideoContent host version metadata ∧ DatasetContent host version dataset

/-- No version of the dataset is published between the last reads of the manifest in two parts of a
run. -/
def NoPublish (s : World) (before after : Moves) : Prop :=
  ∀ root, s.resolvedRoot = .ok root →
    ∀ w₁ w₂, lastInfoRead before = some w₁ → lastInfoRead after = some w₂ →
      w₂.versions s.accessKey root = w₁.versions s.accessKey root

section Versions

variable {host : Host} {s t u : World} {before after : Moves} {metadata : LerobotVideoMetadata}
  {dataset : LerobotDatasetMetadata}

/-- **The two calls return one version** exactly when no version is published between their last
reads of the manifest. -/
theorem oneVersion_iff {root : Text} {refresh : Bool} (hs : CacheSound host s)
    (hfirst : Run (versionService host) (LerobotVideoMetadata.get host root refresh) s before
      (.ok metadata) u)
    (hsecond : Run (versionService host) (LerobotDatasetMetadata.get host root false false) u after
      (.ok dataset) t) :
    OneVersion host metadata (some dataset) ↔ NoPublish s before after := by
  have hvideo := LerobotVideoMetadata.get_snapshot hfirst.of_restrict hs
  have hu : CacheSound host u :=
    cacheSound_instants hfirst.of_restrict hvideo.stored hs u hfirst.end_mem
  have hdataset := LerobotDatasetMetadata.get_snapshot hsecond.of_restrict hu
  obtain ⟨⟨r₁, hr₁, hroot₁⟩, w₁, v₁, hread₁, hversion₁, hcontent₁⟩ := hvideo.snapshot metadata rfl
  obtain ⟨⟨r₂, hr₂, hroot₂⟩, w₂, v₂, hread₂, hversion₂, hcontent₂⟩ := hdataset.snapshot dataset rfl
  have hord := versionOrdered host
  have hbefore := hfirst.later hord w₁ (lastInfoRead_mem hread₁)
  have hafter := hsecond.later hord w₂ (lastInfoRead_mem hread₂)
  have hbetween := hord.trans hbefore.2 hafter.1
  -- both calls resolve the root alike
  have hresolved₁ : s.resolvedRoot = .ok metadata.root :=
    (hfirst.later hord r₁ hr₁).1.2.resolvedRoot.symm.trans hroot₁
  have hresolved₂ : s.resolvedRoot = .ok dataset.root := by
    have hsame := (hfirst.start_later hord).2.trans (hsecond.later hord r₂ hr₂).1.2
    exact hsame.resolvedRoot.symm.trans hroot₂
  have hroots : dataset.root = metadata.root :=
    Except.ok.inj (hresolved₂.symm.trans hresolved₁)
  rw [World.version, hbefore.1.2.accessKey] at hversion₁
  rw [World.version, (hbefore.1.2.trans hbetween.2).accessKey, hroots] at hversion₂
  constructor
  · -- one version has one fingerprint, which the history shows once
    intro hone root hroot w w' hw hw'
    cases hresolved₁.symm.trans hroot
    cases hread₁.symm.trans hw
    cases hread₂.symm.trans hw'
    obtain ⟨-, version, hvideoVersion, hdatasetVersion⟩ := hone dataset rfl
    have hstamp : v₁.infoFingerprint = v₂.infoFingerprint := by
      rw [← LerobotVideoMetadata.fingerprint_of_content hcontent₁, ← hcontent₂.fingerprint,
        LerobotVideoMetadata.fingerprint_of_content hvideoVersion, hdatasetVersion.fingerprint]
    exact (eq_of_stamp DatasetVersion.infoFingerprint (hbetween.1.versions _ _)
      (w₂.fingerprints_nodup _ _) hversion₁ hversion₂ hstamp).symm
  · -- the history is the same, and so is its head
    intro hnone dataset' hdataset'
    cases hdataset'
    rw [hnone metadata.root hresolved₁ w₁ w₂ hread₁ hread₂] at hversion₂
    cases hversion₁.symm.trans hversion₂
    exact ⟨hroots, v₁, hcontent₁, hcontent₂⟩

/-- **When a bind uses one version.** Its run is a run of the first call and then the rest, which has
the second call. It uses one version exactly when none is published between the last reads of the
manifest in the two parts. -/
def OneVersionWhen (host : Host) (s : World) (moves : Moves) (metadata : LerobotVideoMetadata)
    (combined : Option LerobotDatasetMetadata) : Prop :=
  ∃ root refresh before after u, moves = before ++ after ∧
    Run (versionService host) (LerobotVideoMetadata.get host root refresh) s before
      (.ok metadata) u ∧
    (OneVersion host metadata combined ↔ NoPublish s before after)

theorem compute_bind_ok {α β : Type} {S : Service Command Response Exception World} {moves : Moves}
    {result : Except BinderException α} {f : α → Io β} {b : β}
    (h : Run S (compute result >>= f) s moves (.ok b) t) :
    ∃ a, result = .ok a ∧ Run S (f a) s moves (.ok b) t := by
  cases result with
  | error e => cases h.done_inv.1
  | ok a => exact ⟨a, rfl, h⟩

/-- The rest of a bind that makes the second call. -/
theorem oneVersionWhen_second {α : Type} {root : Text} {refresh : Bool} {rest : LerobotDatasetMetadata → Io α}
    {b : α} (hs : CacheSound host s)
    (hfirst : Run (versionService host) (LerobotVideoMetadata.get host root refresh) s before
      (.ok metadata) u)
    (hrest : Run (versionService host)
      (LerobotDatasetMetadata.get host root false false >>= rest) u after (.ok b) t)
    (hblind : ∀ dataset, (rest dataset).Uses Plain) :
    ∃ dataset v moves, Run (versionService host) (rest dataset) v moves (.ok b) t ∧
      OneVersionWhen host s (before ++ after) metadata (some dataset) := by
  obtain ⟨dataset, during, v, moves, rfl, hsecond, hlast⟩ := hrest.bind_ok
  refine ⟨dataset, v, moves, hlast, root, refresh, before, during ++ moves, u, rfl, hfirst, ?_⟩
  rw [oneVersion_iff hs hfirst hsecond]
  have hread : lastInfoRead (during ++ moves) = lastInfoRead during := by
    rw [lastInfoRead_append, lastInfoRead_plain (hblind dataset) hlast.of_restrict]
    rfl
  unfold NoPublish
  rw [hread]

/-- The rest of a bind whose second call depends on the request. -/
theorem oneVersionWhen_secondCall {α : Type} {root : Text} {refresh needed : Bool}
    {finish : Option LerobotDatasetMetadata → α} {b : α} (hs : CacheSound host s)
    (hfirst : Run (versionService host) (LerobotVideoMetadata.get host root refresh) s before
      (.ok metadata) u)
    (hrest : Run (versionService host) (secondCall host root needed finish) u after (.ok b) t) :
    ∃ combined, b = finish combined ∧
      OneVersionWhen host s (before ++ after) metadata combined := by
  cases needed with
  | true =>
      obtain ⟨dataset, v, moves, hlast, hwhen⟩ :=
        oneVersionWhen_second hs hfirst hrest fun dataset => Program.uses_pure _
      cases hlast.done_inv.1
      exact ⟨some dataset, rfl, hwhen⟩
  | false =>
      obtain ⟨hresult, hothers⟩ := hrest.done_inv
      cases hresult
      refine ⟨none, rfl, root, refresh, before, after, u, rfl, hfirst, ?_⟩
      constructor
      · intro _ _ _ w₁ w₂ _ hw₂
        rw [lastInfoRead_others hothers] at hw₂
        cases hw₂
      · intro _ dataset hdataset
        cases hdataset

end Versions

/-- **When the binds use one dataset version.** -/
theorem binds_use_one_version (host : Host) (s : World) (hs : CacheSound host s) :
    (∀ root requestedEpisodes input moves data t,
      Run (versionService host) (lerobotVideoFramesBind host root requestedEpisodes input) s moves
        (.ok data) t → OneVersionWhen host s moves data.metadata data.dataset) ∧
    (∀ print root requests input moves data t,
      Run (versionService host) (lerobotVideoWindowsBind host print root requests input) s moves
        (.ok data) t → OneVersionWhen host s moves data.metadata data.dataset) ∧
    (∀ print root inputTableNames input moves data t,
      Run (versionService host) (lerobotVideoTargetsBind host print root inputTableNames input) s
        moves (.ok data) t → OneVersionWhen host s moves data.metadata (some data.dataset)) := by
  refine ⟨?_, ?_, ?_⟩
  · intro root requestedEpisodes input moves data t h
    obtain ⟨⟨root, episodeIndices, refresh⟩, -, h⟩ := compute_bind_ok h
    obtain ⟨metadata, before, u, after, rfl, hfirst, h⟩ := h.bind_ok
    obtain ⟨request, hread, h⟩ := compute_bind_ok h
    obtain ⟨combined, rfl, hwhen⟩ := oneVersionWhen_secondCall hs hfirst h
    rwa [← FramesRequest.metadata_of_read hread] at hwhen
  · intro print root requests input moves data t h
    obtain ⟨⟨root, requests, refresh⟩, -, h⟩ := compute_bind_ok h
    obtain ⟨metadata, before, u, after, rfl, hfirst, h⟩ := h.bind_ok
    obtain ⟨request, hread, h⟩ := compute_bind_ok h
    obtain ⟨combined, rfl, hwhen⟩ := oneVersionWhen_secondCall hs hfirst h
    rwa [← WindowsRequest.metadata_of_read hread] at hwhen
  · intro print root inputTableNames input moves data t h
    obtain ⟨⟨inputColumns, root, refresh⟩, -, h⟩ := compute_bind_ok h
    obtain ⟨metadata, before, u, after, rfl, hfirst, h⟩ := h.bind_ok
    obtain ⟨dataset, v, moves, hlast, hwhen⟩ :=
      oneVersionWhen_second hs hfirst h fun dataset => Program.uses_done _
    obtain ⟨hmetadata, hdataset⟩ := fields_of_targetsBindData (compute_ok hlast.of_restrict)
    rwa [hmetadata, hdataset]

/-! ## A replacement between the two calls -/

/-- A version with one episode of one camera. -/
def oneEpisode : DatasetVersion where
  info := .ok ⟨"lerobot", "v3.0", "file-\x7bfile_index\x7d".toList, "video-\x7bfile_index\x7d".toList,
    30, 1, 2, 0, ["cam".toList], [{}], {}, {}⟩
  infoFingerprint := ⟨100, 1, []⟩
  episodeFiles := [⟨"episodes".toList, ⟨10, 1, []⟩,
    .ok [⟨some 0, some 2, some 0, some 0,
      fun _ => ⟨some 0, some 0, some (.finite 0), some (.finite 1)⟩⟩]⟩]
  lanceVideos := .ok []

/-- A world with this version and an empty cache. -/
def oneEpisodeWorld : World :=
  { cachedWorld with
    versions := fun _ _ => [oneEpisode]
    fingerprints_nodup := fun _ _ => List.nodup_singleton _
    objectCache := fun _ => none }

theorem cacheSound_oneEpisodeWorld (host : Host) : CacheSound host oneEpisodeWorld := by
  intro key object hobject
  cases hobject

/-- The dataset is replaced by one without episodes. -/
def replaceByEmpty (world : World) : World :=
  world.publish "'/data'".toList "/data".toList (emptyVersion ⟨120, 2, []⟩)

theorem sameAccess_publish (world : World) (key root : Text) (version : DatasetVersion) :
    SameAccess world (world.publish key root version) := by
  unfold World.publish
  split <;> exact ⟨rfl, rfl⟩

/-- `lerobot_video_frames` of the episode. -/
def framesOfEpisode : Io LerobotVideoFramesBindData :=
  lerobotVideoFramesBind localHost (some "/data".toList) (some [some 0])
    { tolerance := some (some (.finite 1)) }

/-- The run in which the dataset is replaced after the 24 steps of the first call. -/
def replacedRun : Except Exception LerobotVideoFramesBindData × Moves × World :=
  drive (versionService localHost) framesOfEpisode oneEpisodeWorld
    (List.replicate 24 [] ++ [[replaceByEmpty]])

theorem run_replaced : Run (versionService localHost) framesOfEpisode oneEpisodeWorld replacedRun.2.1
    replacedRun.1 replacedRun.2.2 := by
  apply run_drive
  intro fs hfs f hf w
  rcases List.mem_append.mp hfs with hnone | hreplace
  · rw [List.eq_of_mem_replicate hnone] at hf
    cases hf
  · obtain rfl := List.mem_singleton.mp hreplace
    obtain rfl := List.mem_singleton.mp hf
    exact ⟨interferes_publish localHost w _ _ _, sameAccess_publish w _ _ _⟩

/-- **A bind can mix two versions.** The episode has a route in the first one, and no frames are read
for it, since the second one does not have it. -/
theorem bind_mixes_versions : CacheSound localHost oneEpisodeWorld ∧ ∃ data,
    Run (versionService localHost)
      (lerobotVideoFramesBind localHost (some "/data".toList) (some [some 0])
        { tolerance := some (some (.finite 1)) })
      oneEpisodeWorld replacedRun.2.1 (.ok data) replacedRun.2.2 ∧
    data.routes.map LerobotVideoRoute.episodeIndex = [0] ∧ data.frameQueries = [] ∧
    ¬OneVersion localHost data.metadata data.dataset := by
  obtain ⟨data, hdata, hroutes, hqueries, hfirst, dataset, hdataset, hsecond⟩ : ∃ data,
      replacedRun.1 = .ok data ∧ data.routes.map LerobotVideoRoute.episodeIndex = [0] ∧
      data.frameQueries = [] ∧ data.metadata.infoFingerprint = ⟨100, 1, []⟩ ∧
      ∃ dataset, data.dataset = some dataset ∧ dataset.infoFingerprint = ⟨120, 2, []⟩ :=
    ⟨_, rfl, rfl, rfl, rfl, _, rfl, rfl⟩
  refine ⟨cacheSound_oneEpisodeWorld localHost, data, hdata ▸ run_replaced, hroutes, hqueries, ?_⟩
  intro hone
  obtain ⟨-, version, hvideo, hcontent⟩ := hone dataset hdataset
  rw [LerobotVideoMetadata.fingerprint_of_content hvideo, ← hcontent.fingerprint, hsecond] at hfirst
  cases hfirst

/-- The theorem at this run. -/
theorem replaced_when : ∃ data, replacedRun.1 = .ok data ∧
    OneVersionWhen localHost oneEpisodeWorld replacedRun.2.1 data.metadata data.dataset := by
  obtain ⟨data, hdata⟩ : ∃ data, replacedRun.1 = .ok data := ⟨_, rfl⟩
  refine ⟨data, hdata, ?_⟩
  exact (binds_use_one_version localHost oneEpisodeWorld (cacheSound_oneEpisodeWorld localHost)).1
    _ _ _ _ data _ (hdata ▸ run_replaced)

end DuckdbLerobot.Video
