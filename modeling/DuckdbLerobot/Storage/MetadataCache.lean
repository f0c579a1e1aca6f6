import DuckdbLerobot.Library.Interference
import DuckdbLerobot.Storage.VideoRoutes

/-!
# The cache of parsed metadata

`LerobotDatasetMetadata::Get` and `LerobotVideoMetadata::Get` return parsed metadata from the object
cache of the database, or read it from the files of the dataset. Meanwhile the dataset can be
replaced, the access configuration of the session can change, and other sessions use the cache.

`World` is what the calls read and write. Each read of a file, of the access key and of the cache is a
command of its own (`Command`), so anything can happen between two of them.
-/

set_option autoImplicit false

namespace DuckdbLerobot.Storage

open DuckdbLerobot.Library DuckdbLerobot.Path

/-! ## The world -/

/-- What a call can throw. -/
inductive Exception
  | binder (error : BinderException)
  | io (message : String)
  | host (message : String)

/-- A file below `meta/episodes`. -/
structure EpisodeFile where
  path : Text
  fingerprint : FileFingerprint
  rows : Except Exception (List EpisodeRow)

/-- A version of a dataset: what `ParseLerobotInfo` makes of its manifest, its episode files, and the
rows of its `videos.lance`. -/
structure DatasetVersion where
  info : Except Exception LerobotDatasetInfo
  infoFingerprint : FileFingerprint
  episodeFiles : List EpisodeFile
  lanceVideos : Except Exception (List LanceVideoRow)

namespace DatasetVersion

/-- The listing of the episode files. -/
def paths (version : DatasetVersion) : List Text := version.episodeFiles.map EpisodeFile.path

/-- The file at a path. -/
def file (version : DatasetVersion) (path : Text) : Option EpisodeFile :=
  version.episodeFiles.find? fun file => file.path == path

end DatasetVersion

/-- An object of the cache, with its `ObjectType`. -/
inductive CachedObject
  | dataset (metadata : LerobotDatasetMetadata)
  | video (metadata : LerobotVideoMetadata)

/-- **What the calls for one root share with the other sessions.** The access key is the
`LerobotRootCacheKey` of the root. It decides which storage is read, so the versions of a dataset are
those below a resolved root under an access key. The histories are newest first: a key does not come
back, and every version gives its manifest a fingerprint of its own. -/
structure World where
  accessKey : Text
  earlierKeys : List Text
  keys_nodup : (accessKey :: earlierKeys).Nodup
  resolvedRoot : Except Exception Text
  versions : Text → Text → List DatasetVersion
  fingerprints_nodup : ∀ key root,
    ((versions key root).map DatasetVersion.infoFingerprint).Nodup
  objectCache : Text → Option CachedObject
  fault : Option Exception
  rowOrder : AnyOrder EpisodeRow
  lanceSupport : Except Exception Unit

namespace World

/-- The version that a read below a resolved root sees. -/
def version (world : World) (root : Text) : Option DatasetVersion :=
  (world.versions world.accessKey root).head?

/-- A read, which can fail at any time. -/
def reading {α : Type} (world : World) (result : Except Exception α) : Except Exception α :=
  match world.fault with
  | some e => .error e
  | none => result

/-- A read of a file of the current version. -/
def readingVersion {α : Type} (world : World) (root : Text)
    (result : DatasetVersion → Except Exception α) : Except Exception α :=
  world.reading <|
    match world.version root with
    | some version => result version
    | none => .error (.host "No such file or directory")

end World

/-- A step of a call. -/
inductive Command
  | accessKey
  | resolveRoot
  | infoFingerprint (root : Text)
  | info (root : Text)
  | episodePaths (root : Text)
  | episodeFingerprint (root path : Text)
  | episodeRows (root path : Text)
  | arrange (rows : List EpisodeRow)
  | lanceSupport
  | lanceVideos (root : Text)
  | cacheGet (key : Text)
  | cachePut (key : Text) (object : CachedObject)
  | cacheDelete (key : Text)

/-- What a step returns. -/
abbrev Response : Command → Type
  | .accessKey => Text
  | .resolveRoot => Text
  | .infoFingerprint _ => FileFingerprint
  | .info _ => LerobotDatasetInfo
  | .episodePaths _ => List Text
  | .episodeFingerprint _ _ => FileFingerprint
  | .episodeRows _ _ => List EpisodeRow
  | .arrange _ => List EpisodeRow
  | .lanceSupport => Unit
  | .lanceVideos _ => List LanceVideoRow
  | .cacheGet _ => Option CachedObject
  | .cachePut _ _ => Unit
  | .cacheDelete _ => Unit

/-- What a step does. A listing without files throws, since both callers disallow an empty glob. -/
def answer : (command : Command) → World → Except Exception (Response command) × World
  | .accessKey, world => (world.reading (.ok world.accessKey), world)
  | .resolveRoot, world => (world.reading world.resolvedRoot, world)
  | .infoFingerprint root, world =>
      (world.readingVersion root fun version => .ok version.infoFingerprint, world)
  | .info root, world => (world.readingVersion root fun version => version.info, world)
  | .episodePaths root, world =>
      (world.readingVersion root fun version =>
        if version.paths = [] then .error (.host "No files found that match the pattern")
        else .ok version.paths, world)
  | .episodeFingerprint root path, world =>
      (world.readingVersion root fun version =>
        match version.file path with
        | some file => .ok file.fingerprint
        | none => .error (.host "No such file or directory"), world)
  | .episodeRows root path, world =>
      (world.readingVersion root fun version =>
        match version.file path with
        | some file => file.rows
        | none => .error (.host "No such file or directory"), world)
  | .arrange rows, world => (world.reading (.ok (world.rowOrder.run rows)), world)
  | .lanceSupport, world => (world.reading world.lanceSupport, world)
  | .lanceVideos root, world => (world.readingVersion root DatasetVersion.lanceVideos, world)
  | .cacheGet key, world => (.ok (world.objectCache key), world)
  | .cachePut key object, world =>
      (.ok (), { world with objectCache := Function.update world.objectCache key (some object) })
  | .cacheDelete key, world =>
      (.ok (), { world with objectCache := Function.update world.objectCache key none })

/-! ## The calls -/

/-- A function of the extension that reads the world. -/
abbrev Io (α : Type) : Type := Program Command Response Exception α

/-- One step of a function. -/
abbrev step (command : Command) : Io (Response command) := .perform command

/-- What the functions use of their environment: `IsRemoteFile` and the sorts of the routes. -/
structure Host where
  isRemoteFile : Text → Bool
  sortRoutes : StdSort episodeRouteLess
  sortVideoRoutes : StdSort videoRouteLess

/-- A computation without steps. -/
def compute {α : Type} (result : Except BinderException α) : Io α :=
  .done (result.mapError Exception.binder)

/-- `for (attempt = 0; attempt < 2; attempt++)`: `none` continues with the next attempt. -/
def attempts {α : Type} (body : Nat → Io (Option α)) (failure : Exception) : Io α := do
  match ← body 0 with
  | some result => pure result
  | none =>
      match ← body 1 with
      | some result => pure result
      | none => .done (.error failure)

/-- `CheckVideoStorageFormat`. -/
def checkVideoStorageFormat (isLance forVideo : Bool) : Io Unit :=
  if forVideo = true ∧ isLance = true then step .lanceSupport else pure ()

/-- The loop of `ReadEpisodeFiles` at one file. -/
def openEpisodeFile (root path : Text) : Io MetadataFile := do
  let fingerprint ← step (.episodeFingerprint root path)
  pure ⟨path, fingerprint⟩

/-- `ReadEpisodeFiles`. -/
def readEpisodeFiles (root : Text) : Io (List MetadataFile) := do
  let files ← step (.episodePaths root)
  .each (openEpisodeFile root) (List.insertionSort (· ≤ ·) files)

/-- The query over the episode files of `Load`. -/
def queryEpisodeRows (root : Text) : Io (List EpisodeRow) := do
  let files ← step (.episodePaths root)
  let parts ← .each (fun path => step (.episodeRows root path)) files
  step (.arrange parts.flatten)

/-- How an attempt goes on: with a cached object, with a loaded one, or not. -/
inductive Attempt (α : Type)
  | retry
  | reuse (cached : α)
  | publish (loaded : α)

/-- `cache.Put` of an object that is returned. -/
def store {α : Type} (key : Text) (object : CachedObject) (returned : α) : Io (Option α) := do
  step (.cachePut key object)
  pure (some returned)

namespace LerobotDatasetMetadata

/-- The key of an access key in the cache. -/
def keyOf (accessKey : Text) : Text := "lerobot_dataset_metadata:".toList ++ accessKey

/-- `CacheKey`. -/
def cacheKey : Io Text := do
  let accessKey ← step .accessKey
  pure (keyOf accessKey)

/-- `cache.Get<LerobotDatasetMetadata>`. -/
def getCached (key : Text) : Io (Option LerobotDatasetMetadata) := do
  match ← step (.cacheGet key) with
  | some (.dataset metadata) => pure (some metadata)
  | _ => pure none

/-- `EpisodeFilesAreValid`. -/
def episodeFilesAreValid (metadata : LerobotDatasetMetadata) : Io Bool :=
  if metadata.episodeFiles = [] then pure true
  else do
    let files ← readEpisodeFiles metadata.root
    pure (decide (metadata.episodeFiles = files))

/-- `IsValid`. -/
def isValid (metadata : LerobotDatasetMetadata) : Io Bool := do
  let fingerprint ← step (.infoFingerprint metadata.root)
  if metadata.infoFingerprint = fingerprint then episodeFilesAreValid metadata else pure false

section Calls

variable (host : Host)

/-- The episode files that `Load` remembers: those of a remote root. -/
def listEpisodeFiles (root : Text) : Io (List MetadataFile) :=
  if host.isRemoteFile root then readEpisodeFiles root else pure []

/-- The reads of `Load`. -/
def loadFrom (root : Text) (infoFingerprint : FileFingerprint) (forVideo : Bool) :
    Io LerobotDatasetMetadata := do
  let info ← step (.info root)
  checkVideoStorageFormat info.isLance forVideo
  if info.totalEpisodes = 0 then compute (load host.sortRoutes root infoFingerprint info [] [])
  else do
    let episodeFiles ← listEpisodeFiles host root
    let rows ← queryEpisodeRows root
    compute (load host.sortRoutes root infoFingerprint info episodeFiles rows)

/-- The part of `Get` that reads the manifest before and after it loads. -/
def reload (key resolvedRoot : Text) (forVideo : Bool) : Io (Attempt LerobotDatasetMetadata) := do
  let before ← step (.infoFingerprint resolvedRoot)
  let loaded ← loadFrom host resolvedRoot before forVideo
  let filesValid ← loaded.episodeFilesAreValid
  let after ← step (.infoFingerprint resolvedRoot)
  if before = after ∧ filesValid = true then do
    let current ← cacheKey
    if key = current then pure (.publish loaded) else pure .retry
  else pure .retry

/-- The part of `Get` that revalidates a cached object. -/
def revalidate (key resolvedRoot : Text) (forVideo : Bool) : Io (Attempt LerobotDatasetMetadata) := do
  match ← getCached key with
  | none => reload host key resolvedRoot forVideo
  | some cached =>
      if cached.root ≠ resolvedRoot then reload host key resolvedRoot forVideo
      else do
        let valid ← cached.isValid
        let current ← cacheKey
        -- a failed validation too can have seen another endpoint
        if key ≠ current then pure .retry
        else if valid = true then do
          checkVideoStorageFormat cached.info.isLance forVideo
          pure (.reuse cached)
        else reload host key resolvedRoot forVideo

/-- `Invalidate`, with the `Invalidate` of the video metadata that it calls. -/
def invalidate : Io Unit := do
  let key ← cacheKey
  step (.cacheDelete key)
  let accessKey ← step .accessKey
  step (.cacheDelete ("lerobot_video_metadata:".toList ++ accessKey))

/-- An attempt of `Get` before it stores or returns anything. -/
def examine (key : Text) (refresh forVideo : Bool) : Io (Attempt LerobotDatasetMetadata) := do
  let resolvedRoot ← step .resolveRoot
  if refresh = true then do
    invalidate
    reload host key resolvedRoot forVideo
  else revalidate host key resolvedRoot forVideo

/-- The loop body of `Get`. -/
def attempt (refresh forVideo : Bool) : Io (Option LerobotDatasetMetadata) := do
  let key ← cacheKey
  match ← examine host key refresh forVideo with
  | .retry => pure none
  | .reuse cached => pure (some cached)
  | .publish loaded => store key (.dataset loaded) loaded

/-- `LerobotDatasetMetadata::Get`. -/
def get (root : Text) (refresh forVideo : Bool) : Io LerobotDatasetMetadata :=
  attempts (fun _ => attempt host refresh forVideo)
    (.io ("LeRobot info.json or access configuration changed while metadata was being loaded for " ++
      s!"'{String.ofList root}'"))

end Calls

end LerobotDatasetMetadata

namespace LerobotVideoMetadata

/-- The key of an access key in the cache. -/
def keyOf (accessKey : Text) : Text := "lerobot_video_metadata:".toList ++ accessKey

/-- `CacheKey`. -/
def cacheKey : Io Text := do
  let accessKey ← step .accessKey
  pure (keyOf accessKey)

/-- `cache.Get<LerobotVideoMetadata>`. -/
def getCached (key : Text) : Io (Option LerobotVideoMetadata) := do
  match ← step (.cacheGet key) with
  | some (.video metadata) => pure (some metadata)
  | _ => pure none

/-- `IsValid`. -/
def isValid (metadata : LerobotVideoMetadata) (dataset : LerobotDatasetMetadata) : Bool :=
  decide (metadata.root = dataset.root) &&
    decide (metadata.infoFingerprint = dataset.infoFingerprint) &&
    decide (metadata.episodeFiles = dataset.episodeFiles)

/-- The query over `videos.lance` of `Load`. -/
def queryLanceVideos (dataset : LerobotDatasetMetadata) : Io (List LanceVideoRow) :=
  if dataset.info.isLance = true then step (.lanceVideos dataset.root) else pure []

section Calls

variable (host : Host)

/-- The reads of `Load`. -/
def loadFrom (dataset : LerobotDatasetMetadata) : Io LerobotVideoMetadata :=
  if dataset.info.totalEpisodes = 0 ∨ dataset.info.videoKeys = [] then
    compute (load host.sortVideoRoutes dataset [] [])
  else do
    let lanceRows ← queryLanceVideos dataset
    let rows ← queryEpisodeRows dataset.root
    compute (load host.sortVideoRoutes dataset lanceRows rows)

/-- A cached object that fits the dataset. Routes of `videos.lance` are never taken from the
cache. -/
def lookUp (key : Text) (dataset : LerobotDatasetMetadata) (refresh : Bool) :
    Io (Option LerobotVideoMetadata) :=
  if refresh = true ∨ dataset.info.isLance = true then pure none
  else do
    match ← getCached key with
    | some cached => pure (if cached.isValid dataset = true then some cached else none)
    | none => pure none

/-- The end of the loop body of `Get`: load, and compare with the dataset again. -/
def reload (key root : Text) (dataset : LerobotDatasetMetadata) :
    Io (Option LerobotVideoMetadata) := do
  let loaded ← loadFrom host dataset
  let current ← LerobotDatasetMetadata.get host root false true
  if loaded.isValid current = true then do
    let currentKey ← cacheKey
    if key = currentKey then store key (.video loaded) loaded else pure none
  else pure none

/-- The loop body of `Get`. -/
def attempt (root : Text) (refresh : Bool) (index : Nat) : Io (Option LerobotVideoMetadata) := do
  let key ← cacheKey
  let dataset ← LerobotDatasetMetadata.get host root (refresh && index == 0) true
  let currentKey ← cacheKey
  if key ≠ currentKey then pure none
  else do
    match ← lookUp key dataset refresh with
    | some cached => pure (some cached)
    | none => reload host key root dataset

/-- `LerobotVideoMetadata::Get`. -/
def get (root : Text) (refresh : Bool) : Io LerobotVideoMetadata :=
  attempts (attempt host root refresh)
    (.io ("LeRobot info.json or access configuration changed while video metadata was being loaded " ++
      s!"for '{String.ofList root}'"))

end Calls

end LerobotVideoMetadata

end DuckdbLerobot.Storage
