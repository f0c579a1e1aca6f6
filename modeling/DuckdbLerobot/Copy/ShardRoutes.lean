import DuckdbLerobot.Copy.ShardPacking
import DuckdbLerobot.Library.BinPlaces

/-!
# The routes of the videos

The shards of a feature are bins of its encoded videos, whatever the sizes are (`ShardPacked`). The route of an episode
names the bin of its video, and it says from when to when the video is in the shard: from the end of the videos before
it there (`registerEncodedVideo_put`).
-/

set_option autoImplicit false

namespace DuckdbLerobot.Copy

open DuckdbLerobot.Library DuckdbLerobot.Path

namespace VideoShardContext

variable (context : VideoShardContext)

/-- The path of a shard of a feature. -/
def shardPath (featureIndex : Nat) (index : FileIndex) : StagedPath :=
  videoRelativePath (String.ofList (((context.feature? featureIndex).map LerobotFeature.name).getD []))
    index.chunkIndex index.fileIndex

/-- The shard of a bin with its number. -/
def shardFile (featureIndex : Nat) (bin : List LerobotCodecResult × Nat) : VideoShardFile :=
  ⟨featureIndex, context.shardPath featureIndex (numberedFile context.chunksSize bin.2),
    bin.1.map LerobotCodecResult.outputPath⟩

/-- The duration of some videos, as `shard.duration` adds it up. -/
def shardDuration (videos : List LerobotCodecResult) : Double :=
  videos.foldl (fun duration video => context.arithmetic.double.add duration video.encoded.duration) 0

theorem shardDuration_concat (videos : List LerobotCodecResult) (video : LerobotCodecResult) :
    context.shardDuration (videos ++ [video]) =
      context.arithmetic.double.add (context.shardDuration videos) video.encoded.duration := by
  rw [shardDuration, List.foldl_concat]
  rfl

/-- The route of a video at a place. -/
def routeAt (place : BinPlace LerobotCodecResult) (video : LerobotCodecResult) : LerobotVideoRoute :=
  ⟨numberedFile context.chunksSize place.bin, context.shardDuration place.before,
    context.shardDuration (place.before ++ [video])⟩

end VideoShardContext

/-- The shards of a feature are those of the bins. The open bin has the fragments of the shard that is open. -/
structure ShardPacked (context : VideoShardContext) (featureIndex : Nat) (packing : Packing LerobotCodecResult)
    (state : VideoShards) : Prop where
  files : state.files.filter (fun file => file.featureIndex = featureIndex) =
    packing.closed.zipIdx.map (context.shardFile featureIndex)
  fragments : (state.videoShards featureIndex).fragments = packing.pending.map LerobotCodecResult.outputPath
  index : (state.videoShards featureIndex).index = numberedFile context.chunksSize packing.closed.length
  duration : (state.videoShards featureIndex).duration = context.shardDuration packing.pending
  uninitialized : (state.videoShards featureIndex).initialized = false → packing = {}

section Steps

variable {context : VideoShardContext} {featureIndex other : Nat} {packing : Packing LerobotCodecResult}
  {state next : VideoShards}

theorem shardPacked_initial (context : VideoShardContext) (featureIndex : Nat) :
    ShardPacked context featureIndex {} {} where
  files := rfl
  fragments := rfl
  index := by rw [List.length_nil, numberedFile, Nat.zero_div, Nat.zero_mod]
  duration := rfl
  uninitialized := fun _ => rfl

/-- Nothing but the shards of the other features changes. -/
theorem ShardPacked.of_eq (h : ShardPacked context featureIndex packing state)
    (hshard : next.videoShards featureIndex = state.videoShards featureIndex)
    (hfiles : next.files.filter (fun file => file.featureIndex = featureIndex) =
      state.files.filter fun file => file.featureIndex = featureIndex) :
    ShardPacked context featureIndex packing next where
  files := hfiles.trans h.files
  fragments := by rw [hshard, h.fragments]
  index := by rw [hshard, h.index]
  duration := by rw [hshard, h.duration]
  uninitialized := by rw [hshard]; exact h.uninitialized

/-- There is a pending fragment if and only if the open bin has a video. -/
theorem ShardPacked.fragments_eq_nil (h : ShardPacked context featureIndex packing state) :
    (state.videoShards featureIndex).fragments = [] ↔ packing.pending = [] := by
  rw [h.fragments, List.map_eq_nil_iff]

/-- What `MaterializeVideoShard` does when it returns. -/
theorem materializeVideoShard_path (h : context.materializeVideoShard featureIndex state = .ok next) :
    (state.videoShards featureIndex).fragments = [] ∧ next = state ∨
      (state.videoShards featureIndex).fragments ≠ [] ∧
        next = VideoShardContext.madeShard featureIndex
          (context.shardPath featureIndex (state.videoShards featureIndex).index) state := by
  rw [VideoShardContext.materializeVideoShard] at h
  dsimp only at h
  split at h
  · rename_i hempty
    cases h
    exact .inl ⟨hempty, rfl⟩
  · rename_i hne
    refine .inr ⟨hne, ?_⟩
    obtain ⟨_, -, h⟩ := except_bind_eq_ok.mp h
    split at h
    · obtain ⟨_, -, h⟩ := except_bind_eq_ok.mp h
      cases h
      rfl
    · obtain ⟨_, -, h⟩ := except_bind_eq_ok.mp h
      obtain ⟨_, -, h⟩ := except_bind_eq_ok.mp h
      obtain ⟨_, -, h⟩ := except_bind_eq_ok.mp h
      cases h
      rfl

/-- The files of a feature when its open shard has been made. -/
theorem ShardPacked.files_madeShard (h : ShardPacked context featureIndex packing state) :
    ((VideoShardContext.madeShard featureIndex
        (context.shardPath featureIndex (state.videoShards featureIndex).index) state).files.filter
          fun file => file.featureIndex = featureIndex) =
      (packing.closed ++ [packing.pending]).zipIdx.map (context.shardFile featureIndex) := by
  rw [VideoShardContext.madeShard, List.filter_append, h.files, List.zipIdx_append, List.map_append, Nat.zero_add,
    h.fragments, h.index, List.filter_singleton, decide_eq_true rfl]
  rfl

theorem filter_madeShard_of_ne (h : other ≠ featureIndex) (path : StagedPath) :
    ((VideoShardContext.madeShard featureIndex path state).files.filter fun file => file.featureIndex = other) =
      state.files.filter fun file => file.featureIndex = other := by
  rw [VideoShardContext.madeShard, List.filter_append, List.filter_singleton, decide_eq_false h.symm]
  exact List.append_nil _

/-- The other features keep their shards when one is made. -/
theorem ShardPacked.madeShard_of_ne (h : ShardPacked context other packing state) (hne : other ≠ featureIndex)
    (path : StagedPath) : ShardPacked context other packing (VideoShardContext.madeShard featureIndex path state) :=
  h.of_eq (Function.update_of_ne hne _ _) (filter_madeShard_of_ne hne path)

/-- **The shard for a video.** The open shard is made, or it stays open. -/
theorem ShardPacked.openShard (h : ShardPacked context featureIndex packing state) (hchunks : 0 < context.chunksSize)
    {episodeBytes : Nat} (hopen : context.openShard featureIndex episodeBytes state = .ok next) :
    (∃ close, (close = true → packing.pending ≠ []) ∧ ShardPacked context featureIndex (packing.rotate close) next) ∧
      (next.videoShards featureIndex).initialized = true ∧ next.currentVideoRoutes = state.currentVideoRoutes ∧
      ∀ other packing, other ≠ featureIndex → ShardPacked context other packing state →
        ShardPacked context other packing next := by
  rw [VideoShardContext.openShard] at hopen
  dsimp only at hopen
  split at hopen
  · -- the first video of the feature
    rename_i hinitialized
    rw [Bool.not_eq_eq_eq_not, Bool.not_true] at hinitialized
    obtain rfl := h.uninitialized hinitialized
    cases hopen
    refine ⟨⟨false, fun hclose => absurd hclose Bool.false_ne_true, h.files, ?_, ?_, ?_, ?_⟩, ?_, rfl, ?_⟩
    · dsimp only
      rw [Function.update_self]
      exact h.fragments
    · dsimp only
      rw [Function.update_self]
      exact (shardPacked_initial context featureIndex).index
    · dsimp only
      rw [Function.update_self]
      rfl
    · dsimp only
      rw [Function.update_self]
      intro huninitialized
      cases huninitialized
    · dsimp only
      rw [Function.update_self]
    · intro other packing hne hother
      exact hother.of_eq (Function.update_of_ne hne _ _) rfl
  · rename_i hinitialized
    rw [Bool.not_eq_true, Bool.not_eq_false'] at hinitialized
    split at hopen
    · -- the shard is complete without the video
      rename_i hfull
      obtain ⟨made, hmade, rfl⟩ := except_map_eq_ok.mp hopen
      rcases materializeVideoShard_path hmade with ⟨hnil, -⟩ | ⟨hne, rfl⟩
      · exact absurd hnil hfull.1
      · have hpending : packing.pending ≠ [] := fun hnil => hne (h.fragments_eq_nil.mpr hnil)
        refine ⟨⟨true, fun _ => hpending, h.files_madeShard, ?_, ?_, ?_, ?_⟩, ?_, rfl, ?_⟩
        · dsimp only [VideoShardContext.madeShard]
          rw [Function.update_self, Function.update_self]
          rfl
        · dsimp only [VideoShardContext.madeShard]
          rw [Function.update_self, Function.update_self]
          dsimp only
          rw [h.index, advanceFileIndex_numberedFile hchunks, Packing.rotate, if_pos rfl, List.length_append,
            List.length_singleton]
        · dsimp only
          rw [Function.update_self]
          rfl
        · dsimp only [VideoShardContext.madeShard]
          rw [Function.update_self, Function.update_self]
          intro huninitialized
          rw [hinitialized] at huninitialized
          cases huninitialized
        · dsimp only [VideoShardContext.madeShard]
          rw [Function.update_self, Function.update_self]
          exact hinitialized
        · intro other packing hne hother
          exact (hother.madeShard_of_ne hne _).of_eq (Function.update_of_ne hne _ _) rfl
    · cases hopen
      exact ⟨⟨false, fun hclose => absurd hclose Bool.false_ne_true, h⟩, hinitialized, rfl, fun _ _ _ hother => hother⟩

/-- **One encoded video.** It is put into the open bin of its feature, and its route is that of its place. -/
theorem registerEncodedVideo_put {currentEpisodeFrames : Nat} {result : LerobotCodecResult}
    (h : ShardPacked context result.featureIndex packing state) (hchunks : 0 < context.chunksSize)
    (hregister : context.registerEncodedVideo currentEpisodeFrames result state = .ok next) :
    (context.feature? result.featureIndex).any LerobotFeature.isVideo = true ∧
    result.encoded.frameCount = currentEpisodeFrames ∧
    (∃ close, (close = true → packing.pending ≠ []) ∧
      ShardPacked context result.featureIndex (packing.put close result) next ∧
      next.currentVideoRoutes = Function.update state.currentVideoRoutes result.featureIndex
        (context.routeAt (packing.nextPlace close) result)) ∧
    ∀ other packing, other ≠ result.featureIndex → ShardPacked context other packing state →
      ShardPacked context other packing next := by
  simp only [VideoShardContext.registerEncodedVideo, except_bind_eq_ok] at hregister
  obtain ⟨_, hvideo, _, hframes, _, -, episodeBytes, -, opened, hopened, _, -, hok⟩ := hregister
  cases hok
  have hstate : ShardPacked context result.featureIndex packing { state with
      encodedVideoInfo := Function.update state.encodedVideoInfo result.featureIndex result.encoded } :=
    h.of_eq rfl rfl
  obtain ⟨⟨close, hclose, hpacked⟩, hinitialized, hroutes, hothers⟩ := hstate.openShard hchunks hopened
  refine ⟨ensure_eq_ok.mp hvideo, ensure_eq_ok.mp hframes, ⟨close, hclose, ⟨hpacked.files, ?_, ?_, ?_, ?_⟩, ?_⟩, ?_⟩
  · dsimp only [VideoShardContext.addFragment]
    rw [Function.update_self, Packing.put, List.map_append, ← hpacked.fragments]
    rfl
  · dsimp only [VideoShardContext.addFragment]
    rw [Function.update_self]
    exact hpacked.index
  · dsimp only [VideoShardContext.addFragment]
    rw [Function.update_self, Packing.put, context.shardDuration_concat, ← hpacked.duration]
  · dsimp only [VideoShardContext.addFragment]
    rw [Function.update_self]
    intro huninitialized
    rw [hinitialized] at huninitialized
    cases huninitialized
  · dsimp only [VideoShardContext.addFragment]
    rw [hroutes, hpacked.index, hpacked.duration, VideoShardContext.routeAt, context.shardDuration_concat]
    rfl
  · intro other packing hne hother
    have hother' := hothers other packing hne (hother.of_eq rfl rfl)
    exact hother'.of_eq (Function.update_of_ne hne _ _) rfl

/-- The shards of a feature when the open one has been made at last. -/
theorem ShardPacked.materialize (h : ShardPacked context featureIndex packing state)
    (hmade : context.materializeVideoShard featureIndex state = .ok next) :
    (next.files.filter fun file => file.featureIndex = featureIndex) =
      packing.bins.zipIdx.map (context.shardFile featureIndex) := by
  rcases materializeVideoShard_path hmade with ⟨hnil, rfl⟩ | ⟨hne, rfl⟩
  · rw [Packing.bins, if_pos (h.fragments_eq_nil.mp hnil), h.files]
  · rw [Packing.bins, if_neg (fun hnil => hne (h.fragments_eq_nil.mpr hnil)), h.files_madeShard]

/-- `MaterializeVideoShards`: every video feature has the shards of its bins. -/
theorem ShardPacked.materializeVideoShards (h : ShardPacked context featureIndex packing state)
    (hvideo : (context.feature? featureIndex).any LerobotFeature.isVideo = true)
    (hmade : context.materializeVideoShards state = .ok next) :
    (next.files.filter fun file => file.featureIndex = featureIndex) =
      packing.bins.zipIdx.map (context.shardFile featureIndex) := by
  have hmem : featureIndex ∈ List.range context.features.length := by
    rw [List.mem_range]
    by_contra hge
    rw [VideoShardContext.feature?, List.getElem?_eq_none (not_lt.mp hge)] at hvideo
    cases hvideo
  -- the shards of the feature are made when the loop comes to it
  have hloop := foldlM_ok (I := fun seen reached =>
    if featureIndex ∈ seen then (reached.files.filter fun file => file.featureIndex = featureIndex) =
      packing.bins.zipIdx.map (context.shardFile featureIndex)
    else ShardPacked context featureIndex packing reached) hmade ((if_neg List.not_mem_nil).mpr h) ?_
  · rwa [if_pos hmem] at hloop
  · intro seen feature rest before after hsplit hbefore hafter
    have hnodup : (seen ++ feature :: rest).Nodup := hsplit ▸ List.nodup_range
    have hnew : feature ∉ seen := by
      intro hseen
      exact (List.nodup_append.mp hnodup).2.2 feature hseen feature List.mem_cons_self rfl
    rcases eq_or_ne feature featureIndex with rfl | hne
    · rw [if_neg hnew] at hbefore
      rw [if_pos hvideo] at hafter
      rw [if_pos (List.mem_append_right _ List.mem_cons_self)]
      exact hbefore.materialize hafter
    · have hstep : after = before ∨ ∃ path, after = VideoShardContext.madeShard feature path before := by
        split at hafter
        · rcases materializeVideoShard_path hafter with ⟨-, rfl⟩ | ⟨-, rfl⟩
          · exact .inl rfl
          · exact .inr ⟨_, rfl⟩
        · cases hafter
          exact .inl rfl
      have hsame : featureIndex ∈ seen ++ [feature] ↔ featureIndex ∈ seen := by
        rw [List.mem_append, List.mem_singleton, or_iff_left hne.symm]
      rcases hstep with rfl | ⟨path, rfl⟩
      · simpa only [hsame] using hbefore
      · simp only [hsame]
        split
        · rename_i hseen
          rw [if_pos hseen] at hbefore
          rw [filter_madeShard_of_ne hne.symm, hbefore]
        · rename_i hunseen
          rw [if_neg hunseen] at hbefore
          exact hbefore.madeShard_of_ne hne.symm path

end Steps

end DuckdbLerobot.Copy
