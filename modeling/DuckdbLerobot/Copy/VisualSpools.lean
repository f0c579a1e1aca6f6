import DuckdbLerobot.Copy.DataFiles
import DuckdbLerobot.Copy.ShardRoutes
import DuckdbLerobot.Image.DepthTiff

/-!
# The visual features of a copy

A frame of a visual feature is appended to the spool of the feature, whose file has the frames of the current episode.
When the episode ends, its spools are encoded, one video for each video feature, and the videos are put into the shards
of their features. Image features have their image in the row besides.
-/

set_option autoImplicit false

namespace DuckdbLerobot.Copy

open DuckdbLerobot.Library DuckdbLerobot.Path DuckdbLerobot.Storage DuckdbLerobot.Image

/-! ## Rows and spools -/

/-- The columns of a row of the input: the frames of the visual features, by the numbers of the features, and the other
columns. NULL is `none`. -/
structure VisualRow (υ : Type) where
  frames : Nat → Option Bytes
  values : υ

/-- The image of an image feature, with the name of its file. -/
structure ImageCell where
  featureIndex : Nat
  bytes : Bytes
  path : String
  deriving DecidableEq

/-- The columns of a row of the data. -/
structure VisualData (υ : Type) where
  images : List ImageCell
  values : υ

/-- `LerobotVisualSpool`, with what has been written to its file. -/
structure LerobotVisualSpool where
  path : StagedPath
  writeHandle : Bool := false
  frameSize : Nat := 0
  frameCount : Nat := 0
  frames : List Bytes := []

/-- `LerobotCodecJob`. The encoder reads `frames`, the content of the raw file. -/
structure VideoJob where
  featureIndex : Nat
  outputPath : StagedPath
  rawFramesPath : StagedPath
  frames : List Bytes
  frameCount : Nat
  width : Nat
  height : Nat
  fps : Nat
  rawType : LerobotRawVisualType

/-- The part of `LerobotCopyGlobalData` with the visual features. `episodeRoutes` are the routes that the rows of the
episodes get. -/
structure EpisodeVideos where
  currentEpisode : Int := -1
  currentEpisodeFrames : Nat := 0
  currentVisualSpools : Nat → LerobotVisualSpool := fun featureIndex => { path := .rawFrames featureIndex (-1) }
  visualRawTypes : Nat → Option LerobotRawVisualType := fun _ => none
  shards : VideoShards := {}
  episodeRoutes : List (Nat → LerobotVideoRoute) := []

/-- What the visual features depend on: the options, the file system, FFmpeg, the executor of the encoders, and the steps
of the writer that the videos have no part in. `computeStats` are the statistics of a feature, from the rows of the data
and from the spool; `appendEpisodeMetadata` is the row of the episode. -/
structure VisualContext (υ : Type) where
  videos : VideoShardContext
  fps : Nat
  maxVisualFrameBytes : Nat
  encodePng : Bytes → Nat → Nat → Except InvalidInputException Bytes
  isNull : υ → Nat → Bool
  openSpool : StagedPath → Except CopyException Unit
  writeSpool : StagedPath → Bytes → Except CopyException Unit
  closeSpool : StagedPath → Except CopyException Unit
  removeSpool : StagedPath → Except CopyException Unit
  createVideoDirectory : Nat → Except CopyException Unit
  computeStats : Nat → List (DataRow (VisualData υ)) → List Bytes → Except CopyException Unit
  execute : List VideoJob → Except CopyException (List LerobotCodecResult)
  appendEpisodeMetadata : FileIndex → (Nat → LerobotVideoRoute) → Except CopyException Unit
  flushMetadataBuffer : Except CopyException Unit
  closeEpisodesWriter : Except CopyException Unit

/-- `is_image || is_video`. -/
def LerobotFeature.hasFrames (feature : LerobotFeature) : Bool := feature.isImage || feature.isVideo

/-- `FrameFileName`. -/
def frameFileName (frameIndex : Nat) (depth : Bool) : String :=
  "frame-" ++ String.ofList (List.replicate (6 - frameIndex.repr.length) '0') ++ frameIndex.repr ++
    if depth then ".tiff" else ".png"

/-- The exceptions of the image functions. -/
def imageException {α : Type} (x : Except InvalidInputException α) : Except CopyException α :=
  x.mapError fun exception => .invalidInput exception.message

/-- What is thrown for NULL. -/
def nullException (feature : LerobotFeature) : CopyException :=
  .invalidInput s!"LeRobot feature '{String.ofList feature.name}' must not contain NULL"

namespace VisualContext

variable {υ : Type} (context : VisualContext υ)

/-- The features, with their numbers. -/
def numberedFeatures : List (LerobotFeature × Nat) := context.videos.features.zipIdx

/-- The video features. -/
def videoFeatures : List (LerobotFeature × Nat) := context.numberedFeatures.filter fun feature => feature.1.isVideo

/-- The first part of `LerobotVisualSpool::Append`: the file is open. -/
def openForWriting (frame : Bytes) (spool : LerobotVisualSpool) : Except CopyException LerobotVisualSpool :=
  if !spool.writeHandle then
    (context.openSpool spool.path).map fun _ => { spool with writeHandle := true, frameSize := frame.length }
  else
    (ensure (frame.length = spool.frameSize)
      (.invalidInput "LeRobot visual frames change size within an episode")).map fun _ => spool

/-- `LerobotVisualSpool::Append`. -/
def appendSpool (frame : Bytes) (spool : LerobotVisualSpool) : Except CopyException LerobotVisualSpool := do
  let spool ← context.openForWriting frame spool
  ensure (spool.frameCount ≠ idxMaximum ∧ spool.frameSize ≤ idxMaximum / (spool.frameCount + 1)) <|
    .invalidInput "LeRobot visual spool is too large"
  context.writeSpool spool.path frame
  .ok { spool with frameCount := spool.frameCount + 1, frames := spool.frames ++ [frame] }

/-- The features without NULL, in the first loop of `Process`. -/
def checkChunk (chunk : List (InputRow (VisualRow υ))) : Except CopyException Unit :=
  context.numberedFeatures.forM fun feature =>
    ensure (¬(feature.1.userDefined ∧ ∃ row ∈ chunk, isNullAt row.columns feature)) (nullException feature.1)
where
  /-- The value of the feature in a row is NULL. -/
  isNullAt (row : VisualRow υ) (feature : LerobotFeature × Nat) : Bool :=
    if feature.1.hasFrames then (row.frames feature.2).isNone else context.isNull row.values feature.2

/-- What `StartEpisode` does with the spools and the routes. The spools of the other features are never used. -/
def startEpisode (state : EpisodeVideos) (episodeIndex : Int) : EpisodeVideos :=
  { state with
    currentEpisode := episodeIndex
    currentEpisodeFrames := 0
    currentVisualSpools := fun featureIndex => { path := .rawFrames featureIndex episodeIndex }
    shards := { state.shards with currentVideoRoutes := fun _ => {} } }

/-- The image of a frame, if the feature is an image feature. -/
def appendImage (frameIndex : Nat) (rawType : LerobotRawVisualType) (frame : Bytes) (images : List ImageCell)
    (feature : LerobotFeature × Nat) : Except CopyException (List ImageCell) :=
  if feature.1.isImage then
    (imageException (encodeImage context.encodePng (frameWidth feature.1) (frameHeight feature.1) rawType frame)).map
      fun bytes => images ++ [⟨feature.2, bytes, frameFileName frameIndex feature.1.isDepth⟩]
  else .ok images

/-- The frame of a visual feature in a row of `AppendRun`. -/
def appendVisual (frameIndex : Nat) (frames : Nat → Option Bytes) (state : EpisodeVideos × List ImageCell)
    (feature : LerobotFeature × Nat) : Except CopyException (EpisodeVideos × List ImageCell) :=
  if !feature.1.hasFrames then .ok state
  else do
    let frame ← (frames feature.2).elim (.error (nullException feature.1)) .ok
    ensure (frame.length ≤ context.maxVisualFrameBytes) <|
      .invalidInput (s!"LeRobot visual feature '{String.ofList feature.1.name}' frame has {frame.length} bytes, " ++
        s!"exceeding MAX_VISUAL_FRAME_BYTES={context.maxVisualFrameBytes}")
    let rawType ← imageException (resolveRawVisualType feature.1 (state.1.visualRawTypes feature.2) frame.length)
    let spool ← context.appendSpool frame (state.1.currentVisualSpools feature.2)
    let images ← context.appendImage frameIndex rawType frame state.2 feature
    .ok ({ state.1 with
        visualRawTypes := Function.update state.1.visualRawTypes feature.2 (some rawType)
        currentVisualSpools := Function.update state.1.currentVisualSpools feature.2 spool }, images)

/-- The visual features of a row in `AppendRun`. -/
def appendVisuals (state : EpisodeVideos) (frameIndex : Nat) (row : VisualRow υ) :
    Except CopyException (EpisodeVideos × VisualData υ) :=
  (context.numberedFeatures.foldlM (context.appendVisual frameIndex row.frames) (state, [])).map fun result =>
    (result.1, ⟨result.2, row.values⟩)

/-- `LerobotVisualSpool::Close`, for the spool of a feature. -/
def closeVisualSpool (state : EpisodeVideos) (feature : LerobotFeature × Nat) : Except CopyException EpisodeVideos :=
  let spool := state.currentVisualSpools feature.2
  if spool.writeHandle then
    (context.closeSpool spool.path).map fun _ =>
      { state with
        currentVisualSpools := Function.update state.currentVisualSpools feature.2 { spool with writeHandle := false } }
  else .ok state

/-- `ComputeEpisodeStats`, for a feature. -/
def computeFeatureStats (state : EpisodeVideos) (rows : List (DataRow (VisualData υ))) (feature : LerobotFeature × Nat) :
    Except CopyException Unit :=
  if !feature.1.hasStatistics then .ok ()
  else do
    let spool := state.currentVisualSpools feature.2
    ensure (feature.1.hasFrames → spool.frameCount = rows.length ∧ (state.visualRawTypes feature.2).isSome) <|
      .internal s!"LeRobot visual feature '{String.ofList feature.1.name}' has an incomplete episode spool"
    context.computeStats feature.2 rows spool.frames

/-- `CloseVisualSpools`, and the statistics of `FinishEpisode`. -/
def computeEpisodeStats (state : EpisodeVideos) (rows : List (DataRow (VisualData υ))) :
    Except CopyException EpisodeVideos := do
  let state ← context.numberedFeatures.foldlM context.closeVisualSpool
    { state with currentEpisodeFrames := rows.length }
  context.numberedFeatures.forM (context.computeFeatureStats state rows)
  .ok state

/-- A job of `EncodeEpisodeVideos`. -/
def videoJob (state : EpisodeVideos) (feature : LerobotFeature × Nat) : Except CopyException VideoJob := do
  let rawType ← (state.visualRawTypes feature.2).elim
    (.error (.internal s!"LeRobot video feature '{String.ofList feature.1.name}' has no resolved raw dtype")) .ok
  context.createVideoDirectory feature.2
  let spool := state.currentVisualSpools feature.2
  ensure (spool.frameCount = state.currentEpisodeFrames) <|
    .internal (s!"LeRobot video spool has {spool.frameCount} frames for a " ++
      s!"{state.currentEpisodeFrames}-frame episode")
  .ok ⟨feature.2, .fragment feature.2 state.currentEpisode, spool.path, spool.frames, spool.frameCount,
    frameWidth feature.1, frameHeight feature.1, context.fps, rawType⟩

/-- A result of the executor. Their order is checked. -/
def registerResult (currentEpisodeFrames : Nat) (state : Option Nat × VideoShards) (result : LerobotCodecResult) :
    Except CopyException (Option Nat × VideoShards) := do
  ensure (∀ previous ∈ state.1, previous < result.featureIndex) <|
    .internal "LeRobot codec executor changed feature order"
  let shards ← context.videos.registerEncodedVideo currentEpisodeFrames result state.2
  .ok (some result.featureIndex, shards)

/-- `EncodeEpisodeVideos`. -/
def encodeEpisodeVideos (state : EpisodeVideos) : Except CopyException EpisodeVideos := do
  let jobs ← context.videoFeatures.mapM (context.videoJob state)
  if jobs.isEmpty then .ok state
  else do
    let results ← context.execute jobs
    let registered ← results.foldlM (context.registerResult state.currentEpisodeFrames) (none, state.shards)
    .ok { state with shards := registered.2 }

/-- `FinishEpisode`, from the videos to the row of the episode. -/
def encodeEpisode (state : EpisodeVideos) (dataIndex : FileIndex) : Except CopyException EpisodeVideos := do
  let state ← context.encodeEpisodeVideos state
  (context.numberedFeatures.filter fun feature => feature.1.hasFrames).forM fun feature =>
    context.removeSpool (state.currentVisualSpools feature.2).path
  context.appendEpisodeMetadata dataIndex state.shards.currentVideoRoutes
  .ok { state with episodeRoutes := state.episodeRoutes ++ [state.shards.currentVideoRoutes] }

/-- The types of the frames that `LerobotCopyGlobalData` knows from the start. -/
def initialRawTypes (featureIndex : Nat) : Option LerobotRawVisualType :=
  if (context.videos.feature? featureIndex).any fun feature => feature.hasFrames && !feature.isDepth then some .rgb24
  else none

/-- The visual features of a copy. -/
def visualHost : EpisodeHost EpisodeVideos (VisualRow υ) (VisualData υ) where
  initial := { visualRawTypes := context.initialRawTypes }
  checkChunk := context.checkChunk
  startEpisode state episodeIndex := .ok (startEpisode state episodeIndex)
  appendVisuals := context.appendVisuals
  computeEpisodeStats := context.computeEpisodeStats
  encodeEpisode := context.encodeEpisode
  flushEpisodes state := do
    let shards ← context.videos.materializeVideoShards state.shards
    context.flushMetadataBuffer
    .ok { state with shards := shards }
  closeEpisodes state := context.closeEpisodesWriter.map fun _ => state

end VisualContext

end DuckdbLerobot.Copy
