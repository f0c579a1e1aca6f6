import DuckdbLerobot.Video.VideoParameters

/-!
# The queries of `lerobot_video_windows`

A request asks for the frames around one frame of an episode, one for each delta. A target frame
before the first or after the last frame of the episode is padded with that one. The requests are
partitioned by the data file of their episode, with one query for each file.
-/

set_option autoImplicit false

namespace DuckdbLerobot.Video

open DuckdbLerobot.Library DuckdbLerobot.Path DuckdbLerobot.Storage

/-! ## Requests -/

/-- `LerobotVideoWindowRequest`. -/
structure LerobotVideoWindowRequest where
  requestId : Int
  requestOrdinal : Nat
  episodeIndex : Int
  frameIndex : Int
  deriving DecidableEq

/-- The three fields of a requested struct. -/
abbrev RequestFields : Type := Option Int × Option Int × Option Int

/-- The loop of `GetVideoWindowRequests` from a position on. -/
def collectRequests : Nat → List (Option RequestFields) →
    Except BinderException (List LerobotVideoWindowRequest)
  | _, [] => .ok []
  | _, none :: _ => .error ⟨"lerobot_video_windows requests must not contain NULL"⟩
  | requestOrdinal, some (some requestId, some episodeIndex, some frameIndex) :: requests =>
      if episodeIndex < 0 ∨ frameIndex < 0 then
        .error ⟨"lerobot_video_windows episode_index and frame_index must be non-negative"⟩
      else do
        let result ← collectRequests (requestOrdinal + 1) requests
        .ok (⟨requestId, requestOrdinal, episodeIndex, frameIndex⟩ :: result)
  | _, some _ :: _ => .error ⟨"lerobot_video_windows request fields must not be NULL"⟩

/-- `GetVideoWindowRequests`. -/
def getVideoWindowRequests (value : Option (List (Option RequestFields))) :
    Except BinderException (List LerobotVideoWindowRequest) :=
  match value with
  | none => .error ⟨"lerobot_video_windows requests must not be NULL"⟩
  | some requests => collectRequests 0 requests

/-- `LEROBOT_MAX_WINDOW_TARGETS`. -/
def maxWindowTargets : Nat := 100000

/-- The check of the number of frame targets. -/
def checkWindowTargets (requests : List LerobotVideoWindowRequest)
    (deltas : List LerobotTemporalDelta) : Except BinderException Unit :=
  refuse (deltas ≠ [] ∧ maxWindowTargets / deltas.length < requests.length)
    s!"lerobot_video_windows expands to more than {maxWindowTargets} frame targets"

/-! ## Routes of the requests -/

/-- What the bind collects of the routes of each episode: the length, and the number of routes. -/
structure EpisodeSummary where
  lengths : AList fun _ : Int => Int := ∅
  routeCounts : AList fun _ : Int => Nat := ∅

namespace EpisodeSummary

/-- `episode_lengths[episode_index]`, which is zero for an unknown episode. -/
def length (summary : EpisodeSummary) (episodeIndex : Int) : Int :=
  (summary.lengths.lookup episodeIndex).getD 0

/-- `episode_route_counts[episode_index]`. -/
def routeCount (summary : EpisodeSummary) (episodeIndex : Int) : Nat :=
  (summary.routeCounts.lookup episodeIndex).getD 0

/-- Count a route. -/
def add (summary : EpisodeSummary) (route : LerobotVideoRoute) : EpisodeSummary :=
  ⟨summary.lengths.insert route.episodeIndex route.episodeLength,
    summary.routeCounts.insert route.episodeIndex (summary.routeCount route.episodeIndex + 1)⟩

end EpisodeSummary

/-- The loop over the routes. -/
def addRouteLength (summary : EpisodeSummary) (route : LerobotVideoRoute) :
    Except BinderException EpisodeSummary :=
  match summary.lengths.lookup route.episodeIndex with
  | some length =>
      if length ≠ route.episodeLength then
        .error ⟨"LeRobot video routes disagree on the length of episode " ++
          s!"{route.episodeIndex}"⟩
      else .ok (summary.add route)
  | none => .ok (summary.add route)

/-- The loops over the episodes and the requests. -/
def checkRequests (summary : EpisodeSummary) (videoKeys : List Text) (episodeIndices : List Int)
    (requests : List LerobotVideoWindowRequest) : Except BinderException Unit :=
  if videoKeys = [] then .ok ()
  else do
    episodeIndices.forM fun episodeIndex =>
      refuse (summary.routeCount episodeIndex ≠ videoKeys.length)
        s!"LeRobot episode {episodeIndex} does not have every requested video route"
    requests.forM fun request =>
      refuse (summary.length request.episodeIndex ≤ request.frameIndex) <|
        s!"LeRobot frame {request.frameIndex} is outside episode {request.episodeIndex} " ++
          s!"length {summary.length request.episodeIndex}"

/-! ## Queries -/

/-- A row of `requested`. -/
structure RequestedTarget where
  requestId : Int
  requestOrdinal : Nat
  deltaOrdinal : Nat
  deltaTimestamp : ℚ
  deltaFrameOffset : Int
  isPadding : Bool
  episodeIndex : Int
  frameIndex : Int
  targetFrameIndex : Int
  deriving DecidableEq

/-- A query of `BuildVideoWindowQuery`: the requested rows, and the filter of the frames that are
joined to them. -/
structure WindowQuery where
  file : Text
  requested : List RequestedTarget
  episodeIndices : List Int
  targetFrameIndices : List Int

/-- The frame of a delta, and whether it is padding. -/
def clampTarget (frameOffset frameIndex lastFrameIndex : Int) : Int × Bool :=
  if frameOffset < -frameIndex then (0, true)
  else if lastFrameIndex - frameIndex < frameOffset then (lastFrameIndex, true)
  else (frameIndex + frameOffset, false)

/-- The row of a request and a delta. -/
def requestedTarget (episodeLength : Int) (request : LerobotVideoWindowRequest)
    (delta : LerobotTemporalDelta) (deltaIndex : Nat) : RequestedTarget :=
  let (targetFrameIndex, isPadding) :=
    clampTarget delta.frameOffset request.frameIndex (episodeLength - 1)
  ⟨request.requestId, request.requestOrdinal, deltaIndex, delta.timestamp, delta.frameOffset,
    isPadding, request.episodeIndex, request.frameIndex, targetFrameIndex⟩

/-- The rows of all requests of a query. -/
def requestedTargets (episodeLength : Int → Int) (requests : List LerobotVideoWindowRequest)
    (deltas : List LerobotTemporalDelta) : List RequestedTarget :=
  requests.flatMap fun request => deltas.zipIdx.map fun entry =>
    requestedTarget (episodeLength request.episodeIndex) request entry.1 entry.2

/-- `BuildVideoWindowQuery` over one data file. -/
def buildVideoWindowQuery (requests : List LerobotVideoWindowRequest)
    (deltas : List LerobotTemporalDelta) (episodeLength : Int → Int) (dataFile : Text)
    (episodeIndices : List Int) : WindowQuery :=
  let requested := requestedTargets episodeLength requests deltas
  ⟨dataFile, requested, episodeIndices, sortUnique (requested.map RequestedTarget.targetFrameIndex)⟩

/-- `GroupWindowRequestsByDataFile`. -/
def groupWindowRequestsByDataFile (metadata : LerobotDatasetMetadata)
    (requests : List LerobotVideoWindowRequest) : List (Nat × List LerobotVideoWindowRequest) :=
  groupBy
    (fun request =>
      (metadata.findEpisodeRoute request.episodeIndex).map LerobotEpisodeRoute.dataFileIndex)
    requests

/-- The window queries of `LerobotVideoWindowsBind`, when it makes any. -/
def windowQueries (metadata : LerobotDatasetMetadata) (summary : EpisodeSummary)
    (requests : List LerobotVideoWindowRequest) (deltas : List LerobotTemporalDelta) :
    List WindowQuery :=
  (groupWindowRequestsByDataFile metadata requests).map fun partition =>
    buildVideoWindowQuery partition.2 deltas summary.length
      (metadata.dataFiles.getD partition.1 [])
      (sortUnique (partition.2.map LerobotVideoWindowRequest.episodeIndex))

end DuckdbLerobot.Video
