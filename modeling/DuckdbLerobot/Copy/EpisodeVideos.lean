import DuckdbLerobot.Copy.VisualSpools

/-!
# The videos of the episodes

`VideoWritten` says what a copy leaves of its video features: for each of them and for each episode there is one video,
the encoder was given the frames of the rows of this episode, in their order, and the video is in the shard that its
route names, from the end of the videos before it there. Every copy that returns has written this
(`copyHostRows_videos`).
-/

set_option autoImplicit false

namespace DuckdbLerobot.Copy

open DuckdbLerobot.Library DuckdbLerobot.Path DuckdbLerobot.Storage DuckdbLerobot.Image

variable {υ : Type}

/-! ## What the writer has of an episode -/

/-- The spool of a visual feature has these frames of an episode. -/
structure SpoolOf (episode featureIndex : Nat) (frames : List (Option Bytes)) (spool : LerobotVisualSpool) : Prop where
  path : spool.path = .rawFrames featureIndex episode
  frames : spool.frames.map some = frames
  frameCount : spool.frameCount = spool.frames.length

/-- The job of a video feature, for the rows of an episode. -/
structure JobOf (episode : Nat) (rows : List (WrittenRow (VisualRow υ) (VisualData υ))) (feature : LerobotFeature × Nat)
    (job : VideoJob) : Prop where
  featureIndex : job.featureIndex = feature.2
  outputPath : job.outputPath = .fragment feature.2 episode
  rawFramesPath : job.rawFramesPath = .rawFrames feature.2 episode
  frames : job.frames.map some = rows.map fun row => row.input.columns.frames feature.2
  frameCount : job.frameCount = rows.length
  width : job.width = frameWidth feature.1
  height : job.height = frameHeight feature.1

/-- The executor has made the video of a job. -/
def VisualContext.Encoded (context : VisualContext υ) (job : VideoJob) (video : LerobotCodecResult) : Prop :=
  ∃ jobs results, context.execute jobs = .ok results ∧ (job, video) ∈ jobs.zip results

/-- The encoded video of a video feature, for the rows of an episode. -/
structure ResultOf (context : VisualContext υ) (episode : Nat) (rows : List (WrittenRow (VisualRow υ) (VisualData υ)))
    (feature : LerobotFeature × Nat) (video : LerobotCodecResult) : Prop where
  featureIndex : video.featureIndex = feature.2
  outputPath : video.outputPath = .fragment feature.2 episode
  frameCount : video.encoded.frameCount = rows.length
  encoded : ∃ job, JobOf episode rows feature job ∧ context.Encoded job video

/-- The videos of a feature: one for each block, and the routes are those of their places. -/
structure VideoPacked (context : VisualContext υ) (feature : LerobotFeature × Nat)
    (blocks : List (List (WrittenRow (VisualRow υ) (VisualData υ)))) (videos : List LerobotCodecResult)
    (places : List (BinPlace LerobotCodecResult)) (episodeRoutes : List (Nat → LerobotVideoRoute)) : Prop where
  videos_length : videos.length = blocks.length
  routes_length : episodeRoutes.length = blocks.length
  video_of : ∀ episode rows video, blocks[episode]? = some rows → videos[episode]? = some video →
    ResultOf context episode rows feature video
  routes_eq : episodeRoutes.map (fun routes => routes feature.2) = List.zipWith context.videos.routeAt places videos

/-- What the executor promises: it has a result for each job, in the order of the jobs. -/
def VisualContext.Executes (context : VisualContext υ) : Prop :=
  ∀ jobs results, context.execute jobs = .ok results →
    List.Forall₂ (fun (job : VideoJob) (result : LerobotCodecResult) =>
      result.featureIndex = job.featureIndex ∧ result.outputPath = job.outputPath) jobs results

/-- What holds of a video feature when some episodes are finished. -/
def VideoKept (context : VisualContext υ) (feature : LerobotFeature × Nat)
    (blocks : List (List (WrittenRow (VisualRow υ) (VisualData υ)))) (state : EpisodeVideos) : Prop :=
  ∃ packing videos places, PlacesOf packing videos places ∧ ShardPacked context.videos feature.2 packing state.shards ∧
    VideoPacked context feature blocks videos places state.episodeRoutes

/-- What holds of the visual features, of the blocks of the episodes that are finished, and of the columns of the
current one, if there is one. -/
structure VideosInvariant (context : VisualContext υ) (state : EpisodeVideos)
    (blocks : List (List (WrittenRow (VisualRow υ) (VisualData υ))))
    (current : Option (List (VisualRow υ × VisualData υ))) : Prop where
  currentEpisode : ∀ rows ∈ current, state.currentEpisode = (blocks.length : Nat)
  spools : ∀ rows ∈ current, ∀ feature ∈ context.numberedFeatures, feature.1.hasFrames = true →
    SpoolOf blocks.length feature.2 (rows.map fun row => row.1.frames feature.2) (state.currentVisualSpools feature.2)
  videos : ∀ feature ∈ context.videoFeatures, VideoKept context feature blocks state

/-- A step that leaves the videos of the finished episodes alone. -/
structure SameVideos (state next : EpisodeVideos) : Prop where
  currentEpisode : next.currentEpisode = state.currentEpisode
  shards : next.shards = state.shards
  episodeRoutes : next.episodeRoutes = state.episodeRoutes

/-- The files of the spools are the same. -/
def SameSpools (state next : EpisodeVideos) : Prop :=
  ∀ featureIndex, (next.currentVisualSpools featureIndex).path = (state.currentVisualSpools featureIndex).path ∧
    (next.currentVisualSpools featureIndex).frames = (state.currentVisualSpools featureIndex).frames ∧
    (next.currentVisualSpools featureIndex).frameCount = (state.currentVisualSpools featureIndex).frameCount

section Steps

variable {context : VisualContext υ} {state next : EpisodeVideos} {feature other : LerobotFeature × Nat}
  {blocks : List (List (WrittenRow (VisualRow υ) (VisualData υ)))}
  {current : Option (List (VisualRow υ × VisualData υ))} {episode : Nat}

theorem SameVideos.refl (state : EpisodeVideos) : SameVideos state state := ⟨rfl, rfl, rfl⟩

theorem SameVideos.trans {last : EpisodeVideos} (h : SameVideos state next) (h' : SameVideos next last) :
    SameVideos state last :=
  ⟨h'.currentEpisode.trans h.currentEpisode, h'.shards.trans h.shards, h'.episodeRoutes.trans h.episodeRoutes⟩

theorem nodup_numberedFeatures (context : VisualContext υ) : context.numberedFeatures.Nodup := by
  apply List.Nodup.of_map Prod.snd
  rw [VisualContext.numberedFeatures, List.zipIdx_map_snd]
  exact List.nodup_range'

/-- The number of a feature determines it. -/
theorem eq_of_number (h : feature ∈ context.numberedFeatures) (h' : other ∈ context.numberedFeatures)
    (hnumber : feature.2 = other.2) : feature = other := by
  rw [VisualContext.numberedFeatures, List.mem_zipIdx_iff_getElem?] at h h'
  rw [← hnumber, h] at h'
  exact Prod.ext (Option.some.inj h') hnumber

/-! ## The frames of a row -/

theorem appendSpool_eq_ok {frame : Bytes} {spool spool' : LerobotVisualSpool}
    (h : context.appendSpool frame spool = .ok spool') :
    spool'.path = spool.path ∧ spool'.frames = spool.frames ++ [frame] ∧ spool'.frameCount = spool.frameCount + 1 := by
  simp only [VisualContext.appendSpool, except_bind_eq_ok] at h
  obtain ⟨opened, hopened, _, -, _, -, h⟩ := h
  cases h
  rw [VisualContext.openForWriting] at hopened
  split at hopened
  · obtain ⟨_, -, rfl⟩ := except_map_eq_ok.mp hopened
    exact ⟨rfl, rfl, rfl⟩
  · obtain ⟨_, -, rfl⟩ := except_map_eq_ok.mp hopened
    exact ⟨rfl, rfl, rfl⟩

/-- A spool with one more frame. -/
theorem SpoolOf.append {featureIndex : Nat} {frames : List (Option Bytes)} {spool spool' : LerobotVisualSpool}
    (h : SpoolOf episode featureIndex frames spool) {frame : Bytes} (happend : context.appendSpool frame spool = .ok spool') :
    SpoolOf episode featureIndex (frames ++ [some frame]) spool' := by
  obtain ⟨hpath, hframes, hcount⟩ := appendSpool_eq_ok happend
  refine ⟨hpath.trans h.path, ?_, ?_⟩
  · rw [hframes, List.map_append, h.frames]
    rfl
  · rw [hcount, hframes, List.length_append, h.frameCount]
    rfl

/-- The frame of a visual feature is in its spool, and the other spools are the same. -/
theorem appendVisual_cases {frameIndex : Nat} {frames : Nat → Option Bytes} {images images' : List ImageCell}
    (h : context.appendVisual frameIndex frames (state, images) feature = .ok (next, images')) :
    SameVideos state next ∧
      (feature.1.hasFrames = false ∧ next = state ∨
        ∃ frame spool, frames feature.2 = some frame ∧
          context.appendSpool frame (state.currentVisualSpools feature.2) = .ok spool ∧
          next.currentVisualSpools = Function.update state.currentVisualSpools feature.2 spool) := by
  rw [VisualContext.appendVisual] at h
  cases hvisual : feature.1.hasFrames with
  | false =>
      rw [hvisual] at h
      cases h
      exact ⟨.refl _, .inl ⟨rfl, rfl⟩⟩
  | true =>
      rw [hvisual] at h
      change Except.bind _ _ = _ at h
      obtain ⟨frame, hframe, h⟩ := except_bind_eq_ok.mp h
      simp only [except_bind_eq_ok] at h
      obtain ⟨_, -, rawType, -, spool, hspool, _, -, h⟩ := h
      cases h
      refine ⟨⟨rfl, rfl, rfl⟩, .inr ⟨frame, spool, ?_, hspool, rfl⟩⟩
      cases hvalue : frames feature.2 with
      | none =>
          rw [hvalue] at hframe
          cases hframe
      | some value =>
          rw [hvalue] at hframe
          cases hframe
          rfl

/-- **The frames of a row** are in the spools of the visual features. -/
theorem appendVisuals_spools (episode : Nat) {frameIndex : Nat} {row : VisualRow υ} {data : VisualData υ}
    (h : context.appendVisuals state frameIndex row = .ok (next, data)) :
    SameVideos state next ∧ ∀ feature ∈ context.numberedFeatures, feature.1.hasFrames = true → ∀ frames,
      SpoolOf episode feature.2 frames (state.currentVisualSpools feature.2) →
        SpoolOf episode feature.2 (frames ++ [row.frames feature.2]) (next.currentVisualSpools feature.2) := by
  obtain ⟨⟨last, images⟩, hfold, hresult⟩ := except_map_eq_ok.mp h
  cases hresult
  -- the loop has come to a feature, or the spool of the feature is the one from before the row
  have hloop := foldlM_ok (I := fun seen (reached : EpisodeVideos × List ImageCell) => SameVideos state reached.1 ∧
    ∀ feature ∈ context.numberedFeatures, feature.1.hasFrames = true →
      (feature ∈ seen → ∃ frame, row.frames feature.2 = some frame ∧
        context.appendSpool frame (state.currentVisualSpools feature.2) =
          .ok (reached.1.currentVisualSpools feature.2)) ∧
      (feature ∉ seen → reached.1.currentVisualSpools feature.2 = state.currentVisualSpools feature.2)) hfold
    ⟨.refl _, fun _ _ _ => ⟨fun hmem => absurd hmem List.not_mem_nil, fun _ => rfl⟩⟩ ?_
  · refine ⟨hloop.1, ?_⟩
    intro feature hfeature hvisual frames hspool
    obtain ⟨frame, hframe, happend⟩ := (hloop.2 feature hfeature hvisual).1 hfeature
    rw [hframe]
    exact hspool.append happend
  · rintro seen feature rest ⟨before, images⟩ ⟨after, images'⟩ hsplit ⟨hsame, hbefore⟩ hround
    obtain ⟨hstep, hcases⟩ := appendVisual_cases hround
    refine ⟨hsame.trans hstep, ?_⟩
    have hfeature : feature ∈ context.numberedFeatures := hsplit ▸ List.mem_append_right _ List.mem_cons_self
    have hnodup : (seen ++ feature :: rest).Nodup := hsplit ▸ nodup_numberedFeatures context
    have hnew : feature ∉ seen := fun hseen => (List.nodup_append.mp hnodup).2.2 feature hseen feature List.mem_cons_self rfl
    intro other hother hvisual
    rcases eq_or_ne other feature with rfl | hne
    · have hspool := (hbefore other hother hvisual).2 hnew
      refine ⟨fun _ => ?_, fun hunseen => absurd (List.mem_append_right _ List.mem_cons_self) hunseen⟩
      rcases hcases with ⟨hnone, -⟩ | ⟨frame, spool, hframe, happend, hspools⟩
      · rw [hvisual] at hnone
        cases hnone
      · refine ⟨frame, hframe, ?_⟩
        rw [← hspool, hspools, Function.update_self]
        exact happend
    · have hmember : other ∈ seen ++ [feature] ↔ other ∈ seen := by
        rw [List.mem_append, List.mem_singleton, or_iff_left hne]
      have hspool : after.currentVisualSpools other.2 = before.currentVisualSpools other.2 := by
        rcases hcases with ⟨-, rfl⟩ | ⟨_, _, -, -, hspools⟩
        · rfl
        · rw [hspools, Function.update_of_ne]
          exact fun hnumber => hne (eq_of_number hother hfeature hnumber)
      simp only [hmember, hspool]
      exact hbefore other hother hvisual

/-! ## The end of an episode -/

theorem closeVisualSpool_same (h : context.closeVisualSpool state feature = .ok next) :
    SameVideos state next ∧ next.currentEpisodeFrames = state.currentEpisodeFrames ∧ SameSpools state next := by
  rw [VisualContext.closeVisualSpool] at h
  split at h
  · obtain ⟨_, -, rfl⟩ := except_map_eq_ok.mp h
    refine ⟨⟨rfl, rfl, rfl⟩, rfl, ?_⟩
    intro featureIndex
    dsimp only
    rcases eq_or_ne featureIndex feature.2 with rfl | hne
    · rw [Function.update_self]
      exact ⟨rfl, rfl, rfl⟩
    · rw [Function.update_of_ne hne]
      exact ⟨rfl, rfl, rfl⟩
  · cases h
    exact ⟨.refl _, rfl, fun _ => ⟨rfl, rfl, rfl⟩⟩

/-- The spools are closed, and the length of the episode is known. -/
theorem computeEpisodeStats_same {rows : List (DataRow (VisualData υ))}
    (h : context.computeEpisodeStats state rows = .ok next) :
    SameVideos state next ∧ next.currentEpisodeFrames = rows.length ∧ SameSpools state next := by
  simp only [VisualContext.computeEpisodeStats, except_bind_eq_ok] at h
  obtain ⟨closed, hclosed, _, -, h⟩ := h
  cases h
  refine foldlM_ok (I := fun _ reached => SameVideos state reached ∧ reached.currentEpisodeFrames = rows.length ∧
    SameSpools state reached) hclosed ⟨⟨rfl, rfl, rfl⟩, rfl, fun _ => ⟨rfl, rfl, rfl⟩⟩ ?_
  rintro seen feature rest before after - ⟨hsame, hframes, hspools⟩ hround
  obtain ⟨hsame', hframes', hspools'⟩ := closeVisualSpool_same hround
  refine ⟨hsame.trans hsame', hframes'.trans hframes, ?_⟩
  intro featureIndex
  obtain ⟨hpath, hfiles, hcount⟩ := hspools featureIndex
  obtain ⟨hpath', hfiles', hcount'⟩ := hspools' featureIndex
  exact ⟨hpath'.trans hpath, hfiles'.trans hfiles, hcount'.trans hcount⟩

theorem SpoolOf.of_same {featureIndex : Nat} {frames : List (Option Bytes)}
    (h : SpoolOf episode featureIndex frames (state.currentVisualSpools featureIndex)) (hsame : SameSpools state next) :
    SpoolOf episode featureIndex frames (next.currentVisualSpools featureIndex) := by
  obtain ⟨hpath, hframes, hcount⟩ := hsame featureIndex
  exact ⟨hpath.trans h.path, by rw [hframes, h.frames], by rw [hcount, hframes, h.frameCount]⟩

/-- **The job of a video feature** has the frames of the episode. -/
theorem videoJob_of_spool {rows : List (WrittenRow (VisualRow υ) (VisualData υ))} {job : VideoJob}
    (hspool : SpoolOf episode feature.2 (rows.map fun row => row.input.columns.frames feature.2)
      (state.currentVisualSpools feature.2)) (hepisode : state.currentEpisode = (episode : Nat))
    (hframes : state.currentEpisodeFrames = rows.length) (h : context.videoJob state feature = .ok job) :
    JobOf episode rows feature job := by
  simp only [VisualContext.videoJob, except_bind_eq_ok] at h
  obtain ⟨rawType, -, _, -, _, hcount, h⟩ := h
  cases h
  have hcount := ensure_eq_ok.mp hcount
  exact
    { featureIndex := rfl
      outputPath := congrArg (StagedPath.fragment feature.2) hepisode
      rawFramesPath := hspool.path
      frames := hspool.frames
      frameCount := hcount.trans hframes
      width := rfl
      height := rfl }

/-- The videos of an episode, after those of the episodes before. -/
theorem VideoPacked.concat {videos : List LerobotCodecResult} {places : List (BinPlace LerobotCodecResult)}
    {episodeRoutes : List (Nat → LerobotVideoRoute)} (h : VideoPacked context feature blocks videos places episodeRoutes)
    (hplaces : places.length = videos.length) {rows : List (WrittenRow (VisualRow υ) (VisualData υ))}
    {video : LerobotCodecResult} (hvideo : ResultOf context blocks.length rows feature video)
    {place : BinPlace LerobotCodecResult} {routes : Nat → LerobotVideoRoute}
    (hroute : routes feature.2 = context.videos.routeAt place video) :
    VideoPacked context feature (blocks ++ [rows]) (videos ++ [video]) (places ++ [place]) (episodeRoutes ++ [routes]) where
  videos_length := by rw [List.length_append, List.length_append, h.videos_length]; rfl
  routes_length := by rw [List.length_append, List.length_append, h.routes_length]; rfl
  video_of := forall_getElem?_concat₂ h.videos_length h.video_of hvideo
  routes_eq := by
    rw [List.map_append, h.routes_eq, List.zipWith_append hplaces, List.map_singleton, hroute]
    rfl

/-- The results of an episode have put one video into the open bin of each of their features. -/
def Registered (context : VisualContext υ) (frames : Nat) (packing : Nat → Packing LerobotCodecResult)
    (shards : VideoShards) (video : LerobotCodecResult) : Prop :=
  video.encoded.frameCount = frames ∧ ∃ close, (close = true → (packing video.featureIndex).pending ≠ []) ∧
    ShardPacked context.videos video.featureIndex ((packing video.featureIndex).put close video) shards ∧
    shards.currentVideoRoutes video.featureIndex =
      context.videos.routeAt ((packing video.featureIndex).nextPlace close) video

/-- **The results of an episode** are registered one after the other. -/
theorem registerResults_registered (hchunks : 0 < context.videos.chunksSize) {frames : Nat}
    {packing : Nat → Packing LerobotCodecResult} {results : List LerobotCodecResult}
    {registered registered' : Option Nat × VideoShards} (hdistinct : (results.map LerobotCodecResult.featureIndex).Nodup)
    (hpacked : ∀ video ∈ results, ShardPacked context.videos video.featureIndex (packing video.featureIndex) registered.2)
    (h : results.foldlM (context.registerResult frames) registered = .ok registered') :
    ∀ video ∈ results, Registered context frames packing registered'.2 video := by
  -- each result is registered, or the shards of its feature are those from before
  have hloop := foldlM_ok (I := fun seen (reached : Option Nat × VideoShards) =>
    (∀ video ∈ seen, Registered context frames packing reached.2 video) ∧
      ∀ video ∈ results, video ∉ seen →
        ShardPacked context.videos video.featureIndex (packing video.featureIndex) reached.2) h
    ⟨fun _ hmem => absurd hmem List.not_mem_nil, fun video hvideo _ => hpacked video hvideo⟩ ?_
  · exact hloop.1
  · rintro seen result rest ⟨previous, before⟩ ⟨last, after⟩ hsplit ⟨hseen, hunseen⟩ hround
    simp only [VisualContext.registerResult, except_bind_eq_ok] at hround
    obtain ⟨_, -, shards, hregister, hround⟩ := hround
    cases hround
    have hmem : result ∈ results := hsplit ▸ List.mem_append_right _ List.mem_cons_self
    have hnumbers : ∀ video ∈ results, video ≠ result → video.featureIndex ≠ result.featureIndex :=
      fun video hvideo hne hnumber => hne (List.inj_on_of_nodup_map hdistinct hvideo hmem hnumber)
    have hnew : result ∉ seen := by
      have hnodup : (seen ++ result :: rest).Nodup := hsplit ▸ hdistinct.of_map
      exact fun hold => (List.nodup_append.mp hnodup).2.2 result hold result List.mem_cons_self rfl
    obtain ⟨-, hframes, ⟨close, hclose, hput, hroutes⟩, hothers⟩ :=
      registerEncodedVideo_put (hunseen result hmem hnew) hchunks hregister
    constructor
    · intro video hvideo
      rcases List.mem_append.mp hvideo with hold | hlast
      · obtain ⟨hcount, close', hclose', hput', hroute'⟩ := hseen video hold
        have hresults : video ∈ results := hsplit ▸ List.mem_append_left _ hold
        have hne := hnumbers video hresults fun heq => hnew (heq ▸ hold)
        refine ⟨hcount, close', hclose', hothers _ _ hne hput', ?_⟩
        rw [hroutes, Function.update_of_ne hne, hroute']
      · rw [List.mem_singleton.mp hlast]
        refine ⟨hframes, close, hclose, hput, ?_⟩
        rw [hroutes, Function.update_self]
    · intro video hvideo hother
      rw [List.mem_append, List.mem_singleton, not_or] at hother
      exact hothers _ _ (hnumbers video hvideo hother.2) (hunseen video hvideo hother.1)

/-- The videos of an episode: one result for each video feature. -/
theorem encodeEpisodeVideos_registered (hexecutes : context.Executes) (hchunks : 0 < context.videos.chunksSize)
    {rows : List (WrittenRow (VisualRow υ) (VisualData υ))} (hepisode : state.currentEpisode = (episode : Nat))
    (hframes : state.currentEpisodeFrames = rows.length)
    (hspools : ∀ feature ∈ context.numberedFeatures, feature.1.hasFrames = true → SpoolOf episode feature.2
      (rows.map fun row => row.input.columns.frames feature.2) (state.currentVisualSpools feature.2))
    {packing : Nat → Packing LerobotCodecResult}
    (hpacked : ∀ feature ∈ context.videoFeatures, ShardPacked context.videos feature.2 (packing feature.2) state.shards)
    (h : context.encodeEpisodeVideos state = .ok next) :
    next.episodeRoutes = state.episodeRoutes ∧
      ∀ feature ∈ context.videoFeatures, ∃ video, ResultOf context episode rows feature video ∧
        Registered context rows.length packing next.shards video := by
  simp only [VisualContext.encodeEpisodeVideos, except_bind_eq_ok] at h
  obtain ⟨jobs, hjobs, h⟩ := h
  have hforall : List.Forall₂ (JobOf episode rows) context.videoFeatures jobs := by
    have hspec : Yields (List.Forall₂ (JobOf episode rows) context.videoFeatures) (fun _ => True)
        (context.videoFeatures.mapM (context.videoJob state)) := by
      apply mapM_spec
      intro feature hfeature
      obtain ⟨hfeature, hvideo⟩ := List.mem_filter.mp hfeature
      have hvisual : feature.1.hasFrames = true := by rw [LerobotFeature.hasFrames, hvideo, Bool.or_true]
      cases hjob : context.videoJob state feature with
      | error e => exact trivial
      | ok job => exact videoJob_of_spool (hspools feature hfeature hvisual) hepisode hframes hjob
    rwa [hjobs] at hspec
  split at h
  · -- there is no video feature
    rename_i hempty
    cases h
    rw [List.isEmpty_iff.mp hempty, List.forall₂_nil_right_iff] at hforall
    refine ⟨rfl, ?_⟩
    rw [hforall]
    exact fun _ hmem => absurd hmem List.not_mem_nil
  · obtain ⟨results, hresults, h⟩ := except_bind_eq_ok.mp h
    obtain ⟨registered, hregistered, h⟩ := except_bind_eq_ok.mp h
    cases h
    refine ⟨rfl, ?_⟩
    have hexecuted : List.Forall₂ (fun (job : VideoJob) (video : LerobotCodecResult) =>
        (video.featureIndex = job.featureIndex ∧ video.outputPath = job.outputPath) ∧ context.Encoded job video)
        jobs results := by
      obtain ⟨hlength, hzip⟩ := List.forall₂_iff_zip.mp (hexecutes jobs results hresults)
      exact List.forall₂_iff_zip.mpr ⟨hlength, fun hmem => ⟨hzip hmem, jobs, results, hresults, hmem⟩⟩
    -- a result for each video feature
    have hvideos : List.Forall₂ (fun (feature : LerobotFeature × Nat) (video : LerobotCodecResult) =>
        (video.featureIndex = feature.2 ∧ video.outputPath = .fragment feature.2 episode) ∧
          ∃ job, JobOf episode rows feature job ∧ context.Encoded job video) context.videoFeatures results := by
      refine forall₂_trans hforall hexecuted ?_
      rintro feature job video - hjob ⟨⟨hnumber, hpath⟩, hencoded⟩
      exact ⟨⟨hnumber.trans hjob.featureIndex, hpath.trans hjob.outputPath⟩, job, hjob, hencoded⟩
    have hnumbers : context.videoFeatures.map Prod.snd = results.map LerobotCodecResult.featureIndex := by
      rw [← List.forall₂_eq_eq_eq, List.forall₂_map_left_iff, List.forall₂_map_right_iff]
      exact hvideos.imp fun _ _ hvideo => hvideo.1.1.symm
    have hdistinct : (results.map LerobotCodecResult.featureIndex).Nodup := by
      rw [← hnumbers]
      refine List.Nodup.map_on ?_ ((nodup_numberedFeatures context).filter _)
      intro feature hfeature other hother
      exact eq_of_number (List.mem_of_mem_filter hfeature) (List.mem_of_mem_filter hother)
    have hbefore : ∀ video ∈ results,
        ShardPacked context.videos video.featureIndex (packing video.featureIndex) state.shards := by
      intro video hvideo
      obtain ⟨feature, hfeature, ⟨hnumber, -⟩, -⟩ := exists_left_of_forall₂ hvideos hvideo
      rw [hnumber]
      exact hpacked feature hfeature
    rw [hframes] at hregistered
    have hall := registerResults_registered hchunks hdistinct hbefore hregistered
    intro feature hfeature
    obtain ⟨video, hvideo, ⟨hnumber, hpath⟩, hjob⟩ := exists_right_of_forall₂ hvideos hfeature
    exact ⟨video, ⟨hnumber, hpath, (hall video hvideo).1, hjob⟩, hall video hvideo⟩

end Steps

/-! ## A whole copy -/

section Invariant

variable {context : VisualContext υ}

/-- **The visual features keep their invariant.** -/
theorem videosInvariant (hexecutes : context.Executes) (hchunks : 0 < context.videos.chunksSize) :
    EpisodeHostInvariant context.visualHost (VideosInvariant context) where
  initial :=
    { currentEpisode := fun _ hrows => absurd hrows (Option.not_mem_none _)
      spools := fun _ hrows => absurd hrows (Option.not_mem_none _)
      videos := fun feature _ => ⟨{}, [], [], placesOf_nil, shardPacked_initial context.videos feature.2,
        ⟨rfl, rfl, fun _ _ _ hrows => absurd hrows (by simp), rfl⟩⟩ }
  startEpisode := by
    rintro state blocks next h hstart
    cases hstart
    refine ⟨?_, ?_, ?_⟩
    · rintro rows -
      rfl
    · intro rows hrows feature hfeature hvisual
      cases hrows
      exact ⟨rfl, rfl, rfl⟩
    · intro feature hfeature
      obtain ⟨packing, videos, places, hplaced, hshards, hvideos⟩ := h.videos feature hfeature
      exact ⟨packing, videos, places, hplaced, hshards.of_eq rfl rfl, hvideos⟩
  appendVisuals := by
    rintro state blocks current columns ⟨next, data⟩ h happend
    obtain ⟨hsame, hspools⟩ := appendVisuals_spools blocks.length happend
    refine ⟨?_, ?_, ?_⟩
    · rintro rows -
      rw [hsame.currentEpisode]
      exact h.currentEpisode current rfl
    · intro rows hrows feature hfeature hvisual
      cases hrows
      rw [List.map_append]
      exact hspools feature hfeature hvisual _ (h.spools current rfl feature hfeature hvisual)
    · intro feature hfeature
      obtain ⟨packing, videos, places, hplaced, hshards, hvideos⟩ := h.videos feature hfeature
      refine ⟨packing, videos, places, hplaced, ?_, ?_⟩
      · rwa [hsame.shards]
      · rwa [hsame.episodeRoutes]
  finishEpisode := by
    rintro state blocks rows computed index next h - hstats hencode
    obtain ⟨hsame, hframes, hspools⟩ := computeEpisodeStats_same hstats
    rw [List.length_map] at hframes
    simp only [VisualContext.visualHost, VisualContext.encodeEpisode, except_bind_eq_ok] at hencode
    obtain ⟨encoded, hencoded, _, -, _, -, hnext⟩ := hencode
    cases hnext
    -- the bins of the video features
    have hchoice : ∀ number, ∃ packing : Packing LerobotCodecResult, ∀ feature ∈ context.videoFeatures,
        feature.2 = number → ∃ videos places, PlacesOf packing videos places ∧
          ShardPacked context.videos feature.2 packing computed.shards ∧
          VideoPacked context feature blocks videos places computed.episodeRoutes := by
      intro number
      by_cases hnumber : ∃ feature ∈ context.videoFeatures, feature.2 = number
      · obtain ⟨feature, hfeature, rfl⟩ := hnumber
        obtain ⟨packing, kept⟩ := h.videos feature hfeature
        refine ⟨packing, ?_⟩
        intro other hother hnumber
        obtain rfl := eq_of_number (List.mem_of_mem_filter hother) (List.mem_of_mem_filter hfeature) hnumber
        rwa [hsame.shards, hsame.episodeRoutes]
      · exact ⟨{}, fun feature hfeature heq => absurd ⟨feature, hfeature, heq⟩ hnumber⟩
    choose packing hpacking using hchoice
    obtain ⟨hroutes, hregistered⟩ := encodeEpisodeVideos_registered hexecutes hchunks
      ((hsame.currentEpisode).trans (h.currentEpisode _ rfl)) hframes
      (fun feature hfeature hvisual => by
        have hspool := (h.spools _ rfl feature hfeature hvisual).of_same hspools
        rwa [List.map_map] at hspool)
      (fun feature hfeature => (hpacking feature.2 feature hfeature rfl).choose_spec.choose_spec.2.1) hencoded
    refine ⟨fun _ hrows => absurd hrows (Option.not_mem_none _), fun _ hrows => absurd hrows (Option.not_mem_none _), ?_⟩
    intro feature hfeature
    obtain ⟨videos, places, hplaced, -, hvideos⟩ := hpacking feature.2 feature hfeature rfl
    obtain ⟨video, hvideo, -, close, hclose, hput, hroute⟩ := hregistered feature hfeature
    rw [hvideo.featureIndex] at hclose hput hroute
    refine ⟨_, _, _, hplaced.put hclose video, hput, ?_⟩
    rw [hroutes]
    exact hvideos.concat hplaced.length_eq hvideo hroute

/-- What a copy leaves of a video feature, for the blocks of its rows. The shard with the number `k` has the videos of
the bin `k`. -/
structure VideoWritten (context : VisualContext υ) (feature : LerobotFeature × Nat)
    (blocks : List (List (WrittenRow (VisualRow υ) (VisualData υ)))) (bins : List (List LerobotCodecResult))
    (state : EpisodeVideos) : Prop where
  length_eq : bins.flatten.length = blocks.length
  nonempty : ∀ bin ∈ bins, bin ≠ []
  files : (state.shards.files.filter fun file => file.featureIndex = feature.2) =
    bins.zipIdx.map (context.videos.shardFile feature.2)
  /-- The video has the frames of the episode, and the route is that of its place. -/
  episodes : ∀ episode rows, blocks[episode]? = some rows → ∃ video place routes,
    ResultOf context episode rows feature video ∧ PlacedAt bins episode video place ∧
      state.episodeRoutes[episode]? = some routes ∧ routes feature.2 = context.videos.routeAt place video

/-- The open shards are made at last. -/
theorem VideosInvariant.written {state flushed : EpisodeVideos}
    {blocks : List (List (WrittenRow (VisualRow υ) (VisualData υ)))} (h : VideosInvariant context state blocks none)
    (hflush : context.visualHost.flushEpisodes state = .ok flushed) {feature : LerobotFeature × Nat}
    (hfeature : feature ∈ context.videoFeatures) : ∃ bins, VideoWritten context feature blocks bins flushed := by
  simp only [VisualContext.visualHost, except_bind_eq_ok] at hflush
  obtain ⟨shards, hshards, _, -, hflushed⟩ := hflush
  cases hflushed
  obtain ⟨packing, videos, places, hplaced, hpacked, hvideos⟩ := h.videos feature hfeature
  have hvideo : (context.videos.feature? feature.2).any LerobotFeature.isVideo = true := by
    obtain ⟨hmem, hisVideo⟩ := List.mem_filter.mp hfeature
    rw [VideoShardContext.feature?, List.mem_zipIdx_iff_getElem?.mp hmem]
    exact hisVideo
  refine ⟨packing.bins, ?_, hplaced.nonempty, hpacked.materializeVideoShards hvideo hshards, ?_⟩
  · rw [hplaced.flatten_eq, hvideos.videos_length]
  · intro episode rows hrows
    have hlt : episode < blocks.length := (List.getElem?_eq_some_iff.mp hrows).1
    obtain ⟨video, hget⟩ : ∃ video, videos[episode]? = some video :=
      ⟨_, List.getElem?_eq_getElem (hvideos.videos_length ▸ hlt)⟩
    obtain ⟨place, hplace⟩ : ∃ place, places[episode]? = some place :=
      ⟨_, List.getElem?_eq_getElem (hplaced.length_eq ▸ hvideos.videos_length ▸ hlt)⟩
    obtain ⟨routes, hroutes⟩ : ∃ routes, state.episodeRoutes[episode]? = some routes :=
      ⟨_, List.getElem?_eq_getElem (hvideos.routes_length ▸ hlt)⟩
    refine ⟨video, place, routes, hvideos.video_of episode rows video hrows hget,
      hplaced.placed episode video place hget hplace, hroutes, ?_⟩
    have hroute := congrArg (fun list => list[episode]?) hvideos.routes_eq
    simp only [List.getElem?_map, hroutes, List.getElem?_zipWith, hplace, hget] at hroute
    exact Option.some.inj hroute

end Invariant

open CopyWriter

/-- **Every copy that returns has written the videos of its episodes.** For each video feature the shards are bins of
videos, one video for each episode, in the order of the episodes. The encoder of the video of an episode was given the
frames of the rows of this episode, in their order; the row of the episode names the shard that has the video, and it
says from when to when the video is there: from the end of the videos before it in the shard. For any sizes of the
files, and for any answers about the files of the data. -/
theorem copyHostRows_videos (context : VisualContext υ) (hexecutes : context.Executes)
    (hchunks : 0 < context.videos.chunksSize) (dataContext : DataContext (VisualData υ))
    (hdata : 0 < dataContext.chunksSize) (arithmetic : Arithmetic) (fps : Nat)
    (chunks : List (List (InputRow (VisualRow υ)))) (dataset : WrittenDataset (VisualData υ))
    (host : EpisodeVideos × DataFiles (VisualData υ))
    (h : copyHostRows (context.visualHost.withDataFiles dataContext) arithmetic fps chunks = .ok (dataset, host)) :
    ∃ blocks bins, BlocksOf arithmetic fps blocks dataset.dataRows dataset.episodes ∧
      blocks.flatten.map WrittenRow.input = chunks.flatten ∧
      DataWritten dataContext.chunksSize (dataBlocks blocks) bins host.2 ∧
      ∀ feature ∈ context.videoFeatures, ∃ shards, VideoWritten context feature blocks shards host.1 := by
  obtain ⟨blocks, bins, last, flushed, hblocks, hrows, hwritten, hinvariant, hflush, hclose⟩ :=
    copyHostRows_written (videosInvariant hexecutes hchunks) hdata h
  refine ⟨blocks, bins, hblocks, hrows, hwritten, ?_⟩
  intro feature hfeature
  obtain ⟨_, -, hhost⟩ := except_map_eq_ok.mp hclose
  rw [← hhost]
  exact hinvariant.written hflush hfeature

/-- One camera, and encoders that work. -/
def cameraFeatures : VisualContext Unit where
  videos := cameraShards
  fps := 30
  maxVisualFrameBytes := 100
  encodePng _ _ _ := .error ⟨"Failed to find the PNG encoder"⟩
  isNull _ _ := false
  openSpool _ := .ok ()
  writeSpool _ _ := .ok ()
  closeSpool _ := .ok ()
  removeSpool _ := .ok ()
  createVideoDirectory _ := .ok ()
  computeStats _ _ _ := .ok ()
  execute jobs := .ok (jobs.map fun job => ⟨job.featureIndex, job.outputPath,
    { codec := "av1", duration := .finite (job.frameCount / 30), frameCount := job.frameCount }⟩)
  appendEpisodeMetadata _ _ := .ok ()
  flushMetadataBuffer := .ok ()
  closeEpisodesWriter := .ok ()

theorem cameraFeatures_executes : cameraFeatures.Executes := by
  intro jobs results h
  cases h
  rw [List.forall₂_map_right_iff, List.forall₂_same]
  exact fun _ _ => ⟨rfl, rfl⟩

/-- Two episodes in two chunks. The second chunk has rows of both. -/
def cameraChunks : List (List (InputRow (VisualRow Unit))) :=
  [[cameraRow 0 1], [cameraRow 0 2, cameraRow 1 3]]
where
  /-- A row with a frame of one color. -/
  cameraRow (episode : Int) (color : UInt8) : InputRow (VisualRow Unit) :=
    ⟨some episode, some "pick".toList, ⟨fun _ => some (List.replicate 18 color), ()⟩⟩

/-- The copy has a shard of each episode. -/
theorem cameraChunks_copied : ∃ dataset host,
    copyHostRows (cameraFeatures.visualHost.withDataFiles (threeRowFiles _)) .exact 30 cameraChunks =
        .ok (dataset, host) ∧
      host.1.shards.files.map VideoShardFile.path = [.video "camera" 0 0, .video "camera" 0 1] := by
  have hpaths : (copyHostRows (cameraFeatures.visualHost.withDataFiles (threeRowFiles _)) .exact 30
      cameraChunks).toOption.map (fun result => result.2.1.shards.files.map VideoShardFile.path) =
        some [.video "camera" 0 0, .video "camera" 0 1] := by
    decide +kernel
  cases h : copyHostRows (cameraFeatures.visualHost.withDataFiles (threeRowFiles _)) .exact 30 cameraChunks with
  | error thrown =>
      rw [h] at hpaths
      cases hpaths
  | ok result =>
      rw [h] at hpaths
      exact ⟨result.1, result.2, rfl, Option.some.inj hpaths⟩

theorem cameraChunks_videos : ∃ dataset host,
    copyHostRows (cameraFeatures.visualHost.withDataFiles (threeRowFiles _)) .exact 30 cameraChunks =
        .ok (dataset, host) ∧
      host.1.shards.files.map VideoShardFile.path = [.video "camera" 0 0, .video "camera" 0 1] ∧
      ∃ blocks, blocks.flatten.map WrittenRow.input = cameraChunks.flatten ∧
        ∃ shards, VideoWritten cameraFeatures (cameraVideo, 0) blocks shards host.1 := by
  obtain ⟨dataset, host, h, hpaths⟩ := cameraChunks_copied
  obtain ⟨blocks, _, -, hrows, -, hvideos⟩ := copyHostRows_videos cameraFeatures cameraFeatures_executes
    (by decide) (threeRowFiles _) Nat.one_pos .exact 30 cameraChunks dataset host h
  exact ⟨dataset, host, h, hpaths, blocks, hrows, hvideos _ List.mem_cons_self⟩

/-! ## The cutting of the input -/

/-- The check of a chunk is one of its rows: a column of a feature has no NULL. -/
theorem visualHost_checksRows (context : VisualContext υ) (dataContext : DataContext (VisualData υ)) :
    ChecksRows (context.visualHost.withDataFiles dataContext) fun row => ∀ feature ∈ context.numberedFeatures,
      feature.1.userDefined = true → VisualContext.checkChunk.isNullAt context row.columns feature = false := by
  intro chunk
  change context.checkChunk chunk = .ok () ↔ _
  rw [VisualContext.checkChunk, forM_eq_ok]
  simp only [ensure_eq_ok, not_and, not_exists, Bool.not_eq_true]
  constructor
  · intro h row hrow feature hfeature huser
    exact h feature hfeature huser row hrow
  · intro h feature hfeature huser row hrow
    exact h row hrow feature hfeature huser

/-- **Where the input is cut makes no difference to a copy.** For two cuttings of the same rows either both copies
throw, or both return the same dataset, with the same files of the data, the same shards and the same routes. -/
theorem copyHostRows_chunkBoundaries (context : VisualContext υ) (dataContext : DataContext (VisualData υ))
    (arithmetic : Arithmetic) (fps : Nat) (chunks chunks' : List (List (InputRow (VisualRow υ))))
    (hrows : chunks.flatten = chunks'.flatten)
    (written : WrittenDataset (VisualData υ) × EpisodeVideos × DataFiles (VisualData υ)) :
    copyHostRows (context.visualHost.withDataFiles dataContext) arithmetic fps chunks = .ok written ↔
      copyHostRows (context.visualHost.withDataFiles dataContext) arithmetic fps chunks' = .ok written := by
  have hsame := (copyRows_chunkBoundaries (visualHost_checksRows context dataContext) arithmetic fps hrows).1
  simp only [copyHostRows, except_bind_eq_ok, hsame]

/-- The rows of `cameraChunks`, cut after each row, give the same shards. -/
theorem cameraChunks_single : ∃ written : WrittenDataset (VisualData Unit) × EpisodeVideos × DataFiles (VisualData Unit),
    written.2.1.shards.files.map VideoShardFile.path = [.video "camera" 0 0, .video "camera" 0 1] ∧
    copyHostRows (cameraFeatures.visualHost.withDataFiles (threeRowFiles _)) .exact 30 cameraChunks = .ok written ∧
      copyHostRows (cameraFeatures.visualHost.withDataFiles (threeRowFiles _)) .exact 30
        (cameraChunks.flatten.map fun row => [row]) = .ok written := by
  obtain ⟨dataset, host, h, hpaths⟩ := cameraChunks_copied
  have hrows : cameraChunks.flatten = (cameraChunks.flatten.map fun row => [row]).flatten := rfl
  refine ⟨(dataset, host), hpaths, h, ?_⟩
  exact (copyHostRows_chunkBoundaries cameraFeatures (threeRowFiles _) .exact 30 cameraChunks _ hrows _).mp h

end DuckdbLerobot.Copy
