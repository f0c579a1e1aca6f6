import DuckdbLerobot.Copy.Features
import DuckdbLerobot.Copy.FileIndex
import DuckdbLerobot.Copy.StagedPath
import DuckdbLerobot.Library.Rounding

/-!
# Video shards

The videos of several episodes are concatenated to one file, a shard. Each encoded video is a fragment of
the shard that its feature has open. When a fragment would make this shard too large, the shard is made
first (`materializeVideoShard`), and the fragment belongs to the next one.
-/

set_option autoImplicit false

namespace DuckdbLerobot.Copy

open DuckdbLerobot.Library DuckdbLerobot.Path

/-- `LerobotEncodedVideoInfo`. -/
structure LerobotEncodedVideoInfo where
  encoder : String := ""
  codec : String := ""
  pixelFormat : String := ""
  duration : Double := 0
  frameCount : Nat := 0

/-- `LerobotCodecResult`. -/
structure LerobotCodecResult where
  featureIndex : Nat
  outputPath : StagedPath
  encoded : LerobotEncodedVideoInfo

/-- `LerobotVideoRoute`. -/
structure LerobotVideoRoute where
  index : FileIndex := {}
  fromTimestamp : Double := 0
  toTimestamp : Double := 0

/-- `LerobotVideoShardState`. -/
structure LerobotVideoShardState where
  initialized : Bool := false
  index : FileIndex := {}
  duration : Double := 0
  fragmentBytes : Nat := 0
  fragments : List StagedPath := []

/-- A shard below the staging directory, and the fragments that it was made of. -/
structure VideoShardFile where
  featureIndex : Nat
  path : StagedPath
  fragments : List StagedPath

/-- The part of `LerobotCopyGlobalData` with the videos. The vectors have an entry for each feature. -/
structure VideoShards where
  videoShards : Nat → LerobotVideoShardState := fun _ => {}
  encodedVideoInfo : Nat → LerobotEncodedVideoInfo := fun _ => {}
  currentVideoRoutes : Nat → LerobotVideoRoute := fun _ => {}
  files : List VideoShardFile := []

/-- What the videos depend on: the options of `COPY`, the file system and FFmpeg. The size of a fragment is
the one that its encoder has left. -/
structure VideoShardContext where
  features : List LerobotFeature
  chunksSize : Nat
  videoFileSizeMb : ℚ
  arithmetic : Arithmetic
  stagingPath : String
  getLocalFileSize : StagedPath → Except CopyException Nat
  concatenateVideos : List StagedPath → StagedPath → Except CopyException Unit
  moveFile : StagedPath → StagedPath → Except CopyException Unit
  removeFile : StagedPath → Except CopyException Unit

namespace VideoShardContext

variable (context : VideoShardContext)

/-- `bind.features[feature_index]`, in the range of the vector. -/
def feature? (featureIndex : Nat) : Option LerobotFeature := context.features[featureIndex]?

/-- `bind.video_file_size_mb * 1024.0 * 1024.0`. -/
def videoFileSize : Double :=
  context.arithmetic.double.map (· * 1024)
    (context.arithmetic.double.round (context.videoFileSizeMb * 1024))

/-- `static_cast<double>(shard.fragment_bytes) + static_cast<double>(episode_bytes)`. -/
def projectedSize (fragmentBytes episodeBytes : Nat) : Double :=
  let double := context.arithmetic.double
  double.add (double.round fragmentBytes) (double.round episodeBytes)

/-- The shard of a feature has been made from its fragments. -/
def madeShard (featureIndex : Nat) (path : StagedPath) (state : VideoShards) : VideoShards :=
  let shard := state.videoShards featureIndex
  { state with
    files := state.files ++ [⟨featureIndex, path, shard.fragments⟩]
    videoShards := Function.update state.videoShards featureIndex
      { shard with fragments := [], fragmentBytes := 0 } }

/-- `MaterializeVideoShard`. -/
def materializeVideoShard (featureIndex : Nat) (state : VideoShards) :
    Except CopyException VideoShards := do
  let shard := state.videoShards featureIndex
  if shard.fragments = [] then .ok state
  else
    let name := ((context.feature? featureIndex).map LerobotFeature.name).getD []
    let shardPath := videoRelativePath (String.ofList name) shard.index.chunkIndex shard.index.fileIndex
    ensure (∀ file ∈ state.files, file.path ≠ shardPath) <|
      .internal (s!"LeRobot video shard already exists before materialization: " ++
        s!"'{context.stagingPath}/{shardPath.render}'")
    match shard.fragments with
    | [fragment] =>
        context.moveFile fragment shardPath
        .ok (madeShard featureIndex shardPath state)
    | fragments =>
        let concatOutput := .shard featureIndex shard.index.chunkIndex shard.index.fileIndex
        context.concatenateVideos fragments concatOutput
        context.moveFile concatOutput shardPath
        fragments.forM context.removeFile
        .ok (madeShard featureIndex shardPath state)

/-- The shard that the fragment will belong to. -/
def openShard (featureIndex episodeBytes : Nat) (state : VideoShards) :
    Except CopyException VideoShards :=
  let shard := state.videoShards featureIndex
  if !shard.initialized then
    .ok { state with
          videoShards := Function.update state.videoShards featureIndex
            { shard with initialized := true, index := {}, duration := 0 } }
  else if shard.fragments ≠ [] ∧
      context.videoFileSize.lessEqual (context.projectedSize shard.fragmentBytes episodeBytes) then
    (context.materializeVideoShard featureIndex state).map fun state =>
      let shard := state.videoShards featureIndex
      { state with
        videoShards := Function.update state.videoShards featureIndex
          { shard with index := advanceFileIndex context.chunksSize shard.index, duration := 0 } }
  else .ok state

/-- The fragment belongs to the open shard. -/
def addFragment (result : LerobotCodecResult) (episodeBytes : Nat) (state : VideoShards) : VideoShards :=
  let shard := state.videoShards result.featureIndex
  let duration := context.arithmetic.double.add shard.duration result.encoded.duration
  { state with
    videoShards := Function.update state.videoShards result.featureIndex
      { shard with
        fragments := shard.fragments ++ [result.outputPath]
        fragmentBytes := shard.fragmentBytes + episodeBytes
        duration := duration }
    currentVideoRoutes := Function.update state.currentVideoRoutes result.featureIndex
      ⟨shard.index, shard.duration, duration⟩ }

/-- `RegisterEncodedVideo`. -/
def registerEncodedVideo (currentEpisodeFrames : Nat) (result : LerobotCodecResult) (state : VideoShards) :
    Except CopyException VideoShards := do
  let encodedInfo := state.encodedVideoInfo result.featureIndex
  ensure ((context.feature? result.featureIndex).any LerobotFeature.isVideo) <|
    .internal "LeRobot codec executor returned an invalid feature index"
  ensure (result.encoded.frameCount = currentEpisodeFrames) <|
    .io (s!"LeRobot video encoder wrote {result.encoded.frameCount} frames for a " ++
      s!"{currentEpisodeFrames}-frame episode")
  ensure (encodedInfo.codec = "" ∨ encodedInfo.encoder = result.encoded.encoder ∧
      encodedInfo.codec = result.encoded.codec ∧ encodedInfo.pixelFormat = result.encoded.pixelFormat) <|
    .io "LeRobot encoder changed the stream format between episodes"
  let state := { state with
    encodedVideoInfo := Function.update state.encodedVideoInfo result.featureIndex result.encoded }
  let episodeBytes ← context.getLocalFileSize result.outputPath
  let state ← context.openShard result.featureIndex episodeBytes state
  ensure ((state.videoShards result.featureIndex).fragmentBytes ≤ idxMaximum - episodeBytes) <|
    .invalidInput "LeRobot pending video shard is too large"
  .ok (context.addFragment result episodeBytes state)

/-- `MaterializeVideoShards`. -/
def materializeVideoShards (state : VideoShards) : Except CopyException VideoShards :=
  (List.range context.features.length).foldlM (fun state featureIndex =>
    if (context.feature? featureIndex).any LerobotFeature.isVideo then
      context.materializeVideoShard featureIndex state
    else .ok state) state

end VideoShardContext

end DuckdbLerobot.Copy
