import DuckdbLerobot.Storage.VideoSnapshot

/-!
# What the metadata calls guarantee

Both calls, with and without refresh, in any interleaving with changes of the dataset, of the access
configuration and of the cache: `metadata_reads_snapshot_consistent`. The moves of a call keep the
assumption that every other call makes (`interferes_of_call`).
-/

set_option autoImplicit false

namespace DuckdbLerobot.Storage

open DuckdbLerobot.Library DuckdbLerobot.Path

/-- A replacement of a dataset by a version with a new fingerprint. -/
def World.publish (world : World) (key root : Text) (version : DatasetVersion) : World :=
  if hnew : version.infoFingerprint ∉
      (world.versions key root).map DatasetVersion.infoFingerprint then
    { world with
      versions := fun key' root' =>
        if key' = key ∧ root' = root then version :: world.versions key root
        else world.versions key' root'
      fingerprints_nodup := by
        intro key' root'
        split
        · rw [List.map_cons, List.nodup_cons]
          exact ⟨hnew, world.fingerprints_nodup key root⟩
        · exact world.fingerprints_nodup key' root' }
  else world

theorem later_publish (world : World) (key root : Text) (version : DatasetVersion) :
    Later world (world.publish key root version) := by
  unfold World.publish
  split
  · refine ⟨List.suffix_refl _, ?_⟩
    intro key' root'
    dsimp only
    split
    · rename_i heq
      rw [heq.1, heq.2]
      exact List.suffix_cons _ _
    · exact List.suffix_refl _
  · exact Later.refl world

theorem publish_objectCache (world : World) (key root : Text) (version : DatasetVersion) :
    (world.publish key root version).objectCache = world.objectCache := by
  unfold World.publish
  split <;> rfl

/-- A sound cache stays sound when it does not change. -/
theorem CacheSound.later {host : Host} {a b : World} (h : CacheSound host a) (hlater : Later a b)
    (hcache : b.objectCache = a.objectCache) : CacheSound host b := by
  intro key object hobject
  rw [hcache] at hobject
  exact (h key object hobject).later hlater

theorem interferes_publish (host : Host) (world : World) (key root : Text)
    (version : DatasetVersion) :
    (service host).interferes world (world.publish key root version) :=
  ⟨later_publish world key root version, fun h =>
    h.later (later_publish world key root version) (publish_objectCache world key root version)⟩

/-- **A snapshot-consistent call**: what it returns is the content of one version that was current at
some instant of the call, below a root that was the resolved one; what it stores was loaded while the
access key had the value that it is stored under, before and after; and the cache stays sound. -/
structure ConsistentCall {α : Type} (host : Host) (rootOf : α → Text)
    (content : DatasetVersion → α → Prop) (s : World) (moves : Moves)
    (result : Except Exception α) : Prop where
  returned : ∀ metadata, result = .ok metadata →
    (∃ w ∈ instants s moves, w.resolvedRoot = .ok (rootOf metadata)) ∧
      ∃ w ∈ instants s moves, ∃ version, w.version (rootOf metadata) = some version ∧
        content version metadata
  stored : ∀ before key object response after rest,
    moves = before ++ .own (.cachePut key object) response after :: rest →
      Published host s before key object
  sound : ∀ u ∈ instants s moves, CacheSound host u

section Calls

variable {host : Host} {s t : World} {moves : Moves}

theorem SnapshotCall.consistent {α : Type} {rootOf : α → Text} {content : α → DatasetVersion → Prop}
    {p : Io α} {result : Except Exception α}
    (h : SnapshotCall host rootOf content s moves fun a => result = .ok a)
    (hrun : Run (service host) p s moves result t) (hs : CacheSound host s) :
    ConsistentCall host rootOf (fun version a => content a version) s moves result where
  returned metadata hmetadata := by
    obtain ⟨hresolved, w, version, hread, hversion, hcontent⟩ := h.snapshot metadata hmetadata
    exact ⟨hresolved, w, lastInfoRead_mem hread, version, hversion, hcontent⟩
  stored before key object response after rest heq :=
    (h.stored before _ response after rest heq).1
  sound := cacheSound_instants hrun h.stored hs

/-- The moves of a call are interference that other calls allow for. -/
theorem interferes_of_call {α : Type} {rootOf : α → Text} {content : DatasetVersion → α → Prop}
    {p : Io α} {result : Except Exception α} (hrun : Run (service host) p s moves result t)
    (h : ConsistentCall host rootOf content s moves result) {before rest : Moves} {command : Command}
    {response : Except Exception (Response command)} {after : World}
    (heq : moves = before ++ .own command response after :: rest)
    (hanswer : answer command (finish s before) = (response, after)) :
    (service host).interferes (finish s before) after := by
  subst heq
  have hafter : after ∈ instants s (before ++ .own command response after :: rest) :=
    mem_instants_append.mpr (.inr (List.mem_cons_of_mem _ List.mem_cons_self))
  refine ⟨?_, fun _ => h.sound after hafter⟩
  have hlater := answer_world command (finish s before)
  rwa [hanswer] at hlater

end Calls

/-- **Metadata reads are snapshot-consistent.** -/
theorem metadata_reads_snapshot_consistent (host : Host) (s : World) (hs : CacheSound host s) :
    (∀ root refresh forVideo moves result t,
      Run (service host) (LerobotDatasetMetadata.get host root refresh forVideo) s moves result t →
        ConsistentCall host LerobotDatasetMetadata.root (DatasetContent host) s moves result) ∧
    (∀ root refresh moves result t,
      Run (service host) (LerobotVideoMetadata.get host root refresh) s moves result t →
        ConsistentCall host LerobotVideoMetadata.root (VideoContent host) s moves result) := by
  constructor
  · intro root refresh forVideo moves result t hrun
    exact (LerobotDatasetMetadata.get_snapshot hrun hs).consistent hrun hs
  · intro root refresh moves result t hrun
    exact (LerobotVideoMetadata.get_snapshot hrun hs).consistent hrun hs

/-! ## A replacement during a call -/

/-- A version without episodes. -/
def emptyVersion (fingerprint : FileFingerprint) : DatasetVersion where
  info := .ok ⟨"lerobot", "v3.0", [], [], 30, 0, 0, 0, [], [], {}, {}⟩
  infoFingerprint := fingerprint
  episodeFiles := []
  lanceVideos := .ok []

/-- Local roots, and sorts by key. -/
def localHost : Host where
  isRemoteFile _ := false
  sortRoutes := StdSort.byKey LerobotEpisodeRoute.episodeIndex
  sortVideoRoutes := StdSort.byKey routeKey

/-- The metadata of the version. -/
def emptyMetadata (root : Text) (fingerprint : FileFingerprint) : LerobotDatasetMetadata where
  root := root
  info := ⟨"lerobot", "v3.0", [], [], 30, 0, 0, 0, [], [], {}, {}⟩
  infoFingerprint := fingerprint

theorem content_emptyMetadata (root : Text) (fingerprint : FileFingerprint) :
    DatasetContent localHost (emptyVersion fingerprint) (emptyMetadata root fingerprint) :=
  ⟨_, [], rfl, fun h => absurd rfl h, rfl⟩

/-- A world whose cache has the metadata of the only version. -/
def cachedWorld : World where
  accessKey := "'/data'".toList
  earlierKeys := []
  keys_nodup := List.nodup_singleton _
  resolvedRoot := .ok "/data".toList
  versions _ _ := [emptyVersion ⟨100, 1, []⟩]
  fingerprints_nodup _ _ := List.nodup_singleton _
  objectCache key :=
    if key = LerobotDatasetMetadata.keyOf "'/data'".toList then
      some (.dataset (emptyMetadata "/data".toList ⟨100, 1, []⟩))
    else none
  fault := none
  rowOrder := ⟨id, List.Perm.refl⟩
  lanceSupport := .ok ()

theorem cacheSound_cachedWorld : CacheSound localHost cachedWorld := by
  intro key object hobject
  have hif : (if key = LerobotDatasetMetadata.keyOf "'/data'".toList then
      some (CachedObject.dataset (emptyMetadata "/data".toList ⟨100, 1, []⟩)) else none) =
        some object := hobject
  split at hif
  · rename_i hkey
    cases hif
    exact ⟨_, _, hkey, List.mem_singleton_self _, content_emptyMetadata _ _⟩
  · cases hif

/-- The dataset is replaced after the cached metadata was compared with the manifest. -/
theorem replaced_during_get :
    (drive (service localHost) (LerobotDatasetMetadata.get localHost "/data".toList false false)
      cachedWorld [[], [], [], [], [fun w =>
        w.publish "'/data'".toList "/data".toList (emptyVersion ⟨120, 2, []⟩)]]).1 =
        .ok (emptyMetadata "/data".toList ⟨100, 1, []⟩) ∧
    ConsistentCall localHost LerobotDatasetMetadata.root (DatasetContent localHost) cachedWorld
      (drive (service localHost) (LerobotDatasetMetadata.get localHost "/data".toList false false)
        cachedWorld [[], [], [], [], [fun w =>
          w.publish "'/data'".toList "/data".toList (emptyVersion ⟨120, 2, []⟩)]]).2.1
      (.ok (emptyMetadata "/data".toList ⟨100, 1, []⟩)) := by
  have hresult : (drive (service localHost)
      (LerobotDatasetMetadata.get localHost "/data".toList false false) cachedWorld
      [[], [], [], [], [fun w =>
        w.publish "'/data'".toList "/data".toList (emptyVersion ⟨120, 2, []⟩)]]).1 =
        .ok (emptyMetadata "/data".toList ⟨100, 1, []⟩) := rfl
  refine ⟨hresult, ?_⟩
  rw [← hresult]
  refine (metadata_reads_snapshot_consistent localHost cachedWorld cacheSound_cachedWorld).1 _ _ _ _ _
    _ (run_drive ?_)
  intro fs hfs f hf w
  simp only [List.mem_cons, List.not_mem_nil, or_false] at hfs
  rcases hfs with rfl | rfl | rfl | rfl | rfl
  · cases hf
  · cases hf
  · cases hf
  · cases hf
  · obtain rfl := List.mem_singleton.mp hf
    exact interferes_publish localHost w _ _ _

end DuckdbLerobot.Storage
