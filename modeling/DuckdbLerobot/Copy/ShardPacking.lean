import DuckdbLerobot.Copy.VideoShards
import DuckdbLerobot.Library.Fallible
import DuckdbLerobot.Library.NextFit

/-!
# How video shards are packed

The fragments of a feature are packed into its shards by next-fit (`registerEncodedVideo_packing`): a shard is
made when the next fragment would bring it to the limit, and only then (`videoShards_packed`). While the
sizes are below `2 ^ 53`, what the code computes in doubles is exact.
-/

set_option autoImplicit false

namespace DuckdbLerobot.Copy

open DuckdbLerobot.Library DuckdbLerobot.Path

/-! ## The limit -/

/-- The value of a `double` that is finite. -/
def IsDouble (value : ℚ) : Prop := Double.rounded value = .finite value

theorem nearestAt_of_isDouble {value : ℚ} (h : IsDouble value) :
    Double.nearestAt 53 (-1022) value = value := by
  rw [IsDouble, Double.rounded, Double.nearest_eq_nearestAt] at h
  split at h
  · cases h
  · exact Double.finite.inj h

/-- A product with 1024 is exact, or it is too large. -/
theorem rounded_mul_1024 {value : ℚ} (h : Double.nearestAt 53 (-1022) value = value) (hpos : 0 < value) :
    Double.rounded (value * 1024) = .finite (value * 1024) ∧
        Double.nearestAt 53 (-1022) (value * 1024) = value * 1024 ∨
      Double.rounded (value * 1024) = .infinite false ∧ 2 ^ 1024 ≤ value * 1024 := by
  have hexact : Double.nearestAt 53 (-1022) (value * 1024) = value * 1024 := by
    have hmul := Double.nearestAt_mul_two_pow h 10
    norm_num at hmul
    exact hmul
  have hproduct : 0 < value * 1024 := by linarith
  rw [Double.rounded, Double.nearest_eq_nearestAt, hexact, abs_of_pos hproduct]
  split
  · rename_i hlarge
    refine .inr ⟨?_, hlarge⟩
    rw [decide_eq_false hproduct.not_gt]
  · exact .inl ⟨rfl, rfl⟩

theorem rounded_natCast {size : Nat} (h : size < 2 ^ 53) : Double.rounded size = .finite size := by
  have hsize : |(size : Int)| < 2 ^ 53 := by
    rw [abs_of_nonneg (Int.natCast_nonneg size)]
    exact_mod_cast h
  have hround : Arithmetic.ieee.double.round ((size : Int) : ℚ) = .finite ((size : Int) : ℚ) :=
    Rounding.ieee_round_intCast (by decide) (by decide) (by decide) hsize (hsize.trans (by norm_num))
  exact_mod_cast hround

/-- The options are those that `COPY` has accepted, and doubles are those of IEEE 754. -/
structure VideoShardContext.Valid (context : VideoShardContext) : Prop where
  arithmetic_eq : context.arithmetic = .ieee
  isDouble : IsDouble context.videoFileSizeMb
  size_pos : 0 < context.videoFileSizeMb

namespace VideoShardContext

variable (context : VideoShardContext)

/-- The limit of a shard, in bytes. -/
def sizeLimit : ℚ := context.videoFileSizeMb * 1024 * 1024

/-- The size of a fragment. -/
def fragmentSize (fragment : StagedPath) : Nat :=
  match context.getLocalFileSize fragment with
  | .ok size => size
  | .error _ => 0

/-- The size of a fragment, as it is compared with the limit. -/
def exactSize (fragment : StagedPath) : ℚ := context.fragmentSize fragment

/-- The sum of the sizes of some fragments. -/
def totalSize (fragments : List StagedPath) : Nat := (fragments.map context.fragmentSize).sum

theorem binSize_exactSize (fragments : List StagedPath) :
    binSize context.exactSize fragments = context.totalSize fragments := by
  induction fragments with
  | nil => rfl
  | cons fragment fragments ih =>
      rw [binSize, List.map_cons, List.sum_cons, ← binSize, ih, totalSize, totalSize, List.map_cons,
        List.sum_cons, Nat.cast_add, exactSize]

/-- The test that decides whether a shard is complete. -/
abbrev fullFor : List StagedPath → StagedPath → Bool := reaches context.exactSize context.sizeLimit

variable {context}

theorem projectedSize_eq (h : context.Valid) {fragmentBytes episodeBytes : Nat}
    (hsum : fragmentBytes + episodeBytes < 2 ^ 53) :
    context.projectedSize fragmentBytes episodeBytes =
      .finite ((fragmentBytes + episodeBytes : Nat) : ℚ) := by
  have hfirst : Arithmetic.ieee.double.round fragmentBytes = .finite fragmentBytes :=
    rounded_natCast (by omega)
  have hsecond : Arithmetic.ieee.double.round episodeBytes = .finite episodeBytes :=
    rounded_natCast (by omega)
  have hround : Arithmetic.ieee.double.round ((fragmentBytes + episodeBytes : Nat) : ℚ) =
      .finite ((fragmentBytes + episodeBytes : Nat) : ℚ) := rounded_natCast hsum
  rw [Nat.cast_add] at hround ⊢
  rw [projectedSize, h.arithmetic_eq, hfirst, hsecond]
  exact hround

/-- **The comparison of the code is exact.** -/
theorem limit_lessEqual (h : context.Valid) {fragmentBytes episodeBytes : Nat}
    (hsum : fragmentBytes + episodeBytes < 2 ^ 53) :
    context.videoFileSize.lessEqual (context.projectedSize fragmentBytes episodeBytes) =
      decide (context.sizeLimit ≤ ((fragmentBytes + episodeBytes : Nat) : ℚ)) := by
  have hsmall : ((fragmentBytes + episodeBytes : Nat) : ℚ) < 2 ^ 53 := by exact_mod_cast hsum
  have hpow : (2 : ℚ) ^ 53 < 2 ^ 1024 := pow_lt_pow_right₀ one_lt_two (by norm_num)
  have hpos := h.size_pos
  rw [projectedSize_eq h hsum, videoFileSize, h.arithmetic_eq, Arithmetic.ieee_double_round, sizeLimit]
  rcases rounded_mul_1024 (nearestAt_of_isDouble h.isDouble) hpos with
    ⟨hround, hexact⟩ | ⟨hround, hlarge⟩
  · rw [hround, Rounding.map, Arithmetic.ieee_double_round]
    rcases rounded_mul_1024 hexact (by linarith) with ⟨hround', -⟩ | ⟨hround', hlarge⟩
    · rw [hround', Double.lessEqual_finite]
    · -- an infinite limit is above all sizes
      have hlimit := hsmall.trans (hpow.trans_le hlarge)
      rw [hround', decide_eq_false hlimit.not_ge]
      rfl
  · have hlimit := hsmall.trans (hpow.trans_le hlarge)
    have hmore : context.videoFileSizeMb * 1024 ≤ context.videoFileSizeMb * 1024 * 1024 :=
      le_mul_of_one_le_right (mul_pos hpos (by norm_num)).le (by norm_num)
    rw [hround, decide_eq_false (hlimit.trans_le hmore).not_ge]
    rfl

end VideoShardContext

/-! ## The shards of a feature -/

/-- The shards of a feature that have been made, and the fragments of the one that is open. -/
def VideoShards.packing (state : VideoShards) (featureIndex : Nat) : Packing StagedPath where
  closed := (state.files.filter fun file => file.featureIndex = featureIndex).map VideoShardFile.fragments
  pending := (state.videoShards featureIndex).fragments

/-- The fragments of a feature, in the order in which they were registered. -/
def fragmentsOf (results : List (Nat × LerobotCodecResult)) (featureIndex : Nat) : List StagedPath :=
  (results.filter fun result => result.2.featureIndex = featureIndex).map fun result =>
    result.2.outputPath

section Packing

variable {context : VideoShardContext} {state next : VideoShards} {featureIndex other : Nat}

theorem packing_madeShard (path : StagedPath) :
    (VideoShardContext.madeShard featureIndex path state).packing featureIndex =
      ⟨(state.packing featureIndex).closed ++ [(state.packing featureIndex).pending], []⟩ := by
  simp [VideoShards.packing, VideoShardContext.madeShard]

theorem packing_madeShard_of_ne (h : other ≠ featureIndex) (path : StagedPath) :
    (VideoShardContext.madeShard featureIndex path state).packing other = state.packing other := by
  simp [VideoShards.packing, VideoShardContext.madeShard, Function.update_of_ne h, h.symm]

/-- What `MaterializeVideoShard` does when it returns. -/
theorem materializeVideoShard_cases
    (h : context.materializeVideoShard featureIndex state = .ok next) :
    (state.videoShards featureIndex).fragments = [] ∧ next = state ∨
      (state.videoShards featureIndex).fragments ≠ [] ∧
        ∃ path, next = VideoShardContext.madeShard featureIndex path state := by
  rw [VideoShardContext.materializeVideoShard] at h
  dsimp only at h
  split at h
  · rename_i hempty
    cases h
    exact .inl ⟨hempty, rfl⟩
  · rename_i hne
    refine .inr ⟨hne, ?_⟩
    obtain ⟨_, -, h⟩ := except_bind_eq_ok.mp h
    split at h
    · obtain ⟨_, -, h⟩ := except_bind_eq_ok.mp h
      cases h
      exact ⟨_, rfl⟩
    · obtain ⟨_, -, h⟩ := except_bind_eq_ok.mp h
      obtain ⟨_, -, h⟩ := except_bind_eq_ok.mp h
      obtain ⟨_, -, h⟩ := except_bind_eq_ok.mp h
      cases h
      exact ⟨_, rfl⟩

/-- What holds of the open shards. -/
structure OpenShards (context : VideoShardContext) (state : VideoShards) : Prop where
  bytes_eq : ∀ feature, (state.videoShards feature).fragmentBytes =
    context.totalSize (state.videoShards feature).fragments
  initialized : ∀ feature, (state.videoShards feature).fragments ≠ [] →
    (state.videoShards feature).initialized = true

theorem openShards_update {shard : LerobotVideoShardState} (h : OpenShards context state)
    (hshards : next.videoShards = Function.update state.videoShards featureIndex shard)
    (hbytes : shard.fragmentBytes = context.totalSize shard.fragments)
    (hinitialized : shard.fragments ≠ [] → shard.initialized = true) : OpenShards context next := by
  constructor
  · intro feature
    rw [hshards]
    rcases eq_or_ne feature featureIndex with rfl | hne
    · rw [Function.update_self]
      exact hbytes
    · rw [Function.update_of_ne hne]
      exact h.bytes_eq feature
  · intro feature
    rw [hshards]
    rcases eq_or_ne feature featureIndex with rfl | hne
    · rw [Function.update_self]
      exact hinitialized
    · rw [Function.update_of_ne hne]
      exact h.initialized feature

theorem packing_update_of_ne {shard : LerobotVideoShardState} (hfiles : next.files = state.files)
    (hshards : next.videoShards = Function.update state.videoShards featureIndex shard)
    (hne : other ≠ featureIndex) : next.packing other = state.packing other := by
  rw [VideoShards.packing, VideoShards.packing, hfiles, hshards, Function.update_of_ne hne]

theorem OpenShards.madeShard (h : OpenShards context state) (path : StagedPath) :
    OpenShards context (VideoShardContext.madeShard featureIndex path state) :=
  openShards_update h rfl rfl fun hne => absurd rfl hne

/-- The code's test of the pending fragments. -/
theorem lessEqual_eq_fullFor (hvalid : context.Valid) (hopen : OpenShards context state)
    {fragment : StagedPath}
    (hsum : context.totalSize (state.packing featureIndex).pending + context.fragmentSize fragment <
      2 ^ 53) :
    context.videoFileSize.lessEqual (context.projectedSize (state.videoShards featureIndex).fragmentBytes
        (context.fragmentSize fragment)) =
      context.fullFor (state.packing featureIndex).pending fragment := by
  rw [hopen.bytes_eq]
  apply (VideoShardContext.limit_lessEqual hvalid hsum).trans
  rw [VideoShardContext.fullFor, reaches, context.binSize_exactSize, VideoShardContext.exactSize,
    Nat.cast_add]

/-- **The shard that a fragment finds open.** The fragments that were pending are in a shard of their own
when the fragment would bring them to the limit. -/
theorem openShard_cases {fragment : StagedPath}
    (h : context.openShard featureIndex (context.fragmentSize fragment) state = .ok next)
    (hvalid : context.Valid) (hopen : OpenShards context state)
    (hsum : context.totalSize (state.packing featureIndex).pending + context.fragmentSize fragment <
      2 ^ 53) :
    OpenShards context next ∧ (next.videoShards featureIndex).initialized = true ∧
      (∀ other, other ≠ featureIndex → next.packing other = state.packing other) ∧
      (((state.packing featureIndex).pending ≠ [] ∧
          context.fullFor (state.packing featureIndex).pending fragment = true) ∧
        next.packing featureIndex =
          ⟨(state.packing featureIndex).closed ++ [(state.packing featureIndex).pending], []⟩ ∨
      ¬((state.packing featureIndex).pending ≠ [] ∧
          context.fullFor (state.packing featureIndex).pending fragment = true) ∧
        next.packing featureIndex = state.packing featureIndex) := by
  rw [VideoShardContext.openShard] at h
  dsimp only at h
  split at h
  · -- the first fragment of the feature
    rename_i hinitialized
    have hnil : (state.packing featureIndex).pending = [] := by
      by_contra hne
      rw [hopen.initialized featureIndex hne] at hinitialized
      exact absurd hinitialized (by decide)
    cases h
    refine ⟨openShards_update hopen rfl (hopen.bytes_eq featureIndex) fun _ => rfl, ?_,
      fun _ hne => packing_update_of_ne rfl rfl hne, .inr ⟨fun hboth => hboth.1 hnil, ?_⟩⟩
    · simp
    · simp [VideoShards.packing]
  · rename_i hinitialized
    rw [Bool.not_eq_true, Bool.not_eq_false'] at hinitialized
    split at h
    · rename_i hfull
      rw [lessEqual_eq_fullFor hvalid hopen hsum] at hfull
      obtain ⟨made, hmade, rfl⟩ := except_map_eq_ok.mp h
      rcases materializeVideoShard_cases hmade with ⟨hnil, -⟩ | ⟨-, path, rfl⟩
      · exact absurd hnil hfull.1
      · have hmadeShards : OpenShards context (VideoShardContext.madeShard featureIndex path state) :=
          hopen.madeShard path
        refine ⟨openShards_update hmadeShards rfl ?_ ?_, ?_, ?_, .inl ⟨hfull, ?_⟩⟩
        · exact hmadeShards.bytes_eq featureIndex
        · exact hmadeShards.initialized featureIndex
        · simpa [VideoShardContext.madeShard] using hinitialized
        · intro other hne
          refine Eq.trans ?_ (packing_madeShard_of_ne hne path)
          exact packing_update_of_ne rfl rfl hne
        · rw [← packing_madeShard path]
          simp [VideoShards.packing]
    · rename_i hfits
      rw [lessEqual_eq_fullFor hvalid hopen hsum] at hfits
      cases h
      exact ⟨hopen, hinitialized, fun _ _ => rfl, .inr ⟨hfits, rfl⟩⟩

/-- **One encoded video.** It is packed into the shards of its feature; the other features keep theirs. -/
theorem registerEncodedVideo_packing {currentEpisodeFrames : Nat} {result : LerobotCodecResult}
    (h : context.registerEncodedVideo currentEpisodeFrames result state = .ok next)
    (hvalid : context.Valid) (hopen : OpenShards context state)
    (hsum : context.totalSize (state.packing result.featureIndex).pending +
      context.fragmentSize result.outputPath < 2 ^ 53) :
    OpenShards context next ∧
      (∀ other, other ≠ result.featureIndex → next.packing other = state.packing other) ∧
      next.packing result.featureIndex =
        (state.packing result.featureIndex).add context.fullFor result.outputPath := by
  simp only [VideoShardContext.registerEncodedVideo, except_bind_eq_ok] at h
  obtain ⟨_, -, _, -, _, -, episodeBytes, hsize, opened, hopened, _, -, hok⟩ := h
  cases hok
  have hbytes : context.fragmentSize result.outputPath = episodeBytes := by
    rw [VideoShardContext.fragmentSize, hsize]
  rw [← hbytes] at hopened
  obtain ⟨hopenShards, hinitialized, hothers, hpacking⟩ :=
    openShard_cases hopened hvalid ⟨hopen.bytes_eq, hopen.initialized⟩ hsum
  refine ⟨openShards_update hopenShards rfl ?_ fun _ => hinitialized, ?_, ?_⟩
  · simp [hopenShards.bytes_eq, VideoShardContext.totalSize, hbytes]
  · intro other hne
    refine Eq.trans ?_ (hothers other hne)
    exact packing_update_of_ne rfl rfl hne
  · have hadded : (context.addFragment result episodeBytes opened).packing result.featureIndex =
        ⟨(opened.packing result.featureIndex).closed,
          (opened.packing result.featureIndex).pending ++ [result.outputPath]⟩ := by
      simp [VideoShards.packing, VideoShardContext.addFragment]
    rw [hadded, Packing.add]
    rcases hpacking with ⟨hfull, hpacking⟩ | ⟨hfits, hpacking⟩
    · rw [hpacking]
      exact (if_pos hfull).symm
    · rw [hpacking]
      exact (if_neg hfits).symm

/-! ## All episodes -/

/-- The videos of the episodes are registered one after the other. -/
def VideoShardContext.registerAll (context : VideoShardContext)
    (results : List (Nat × LerobotCodecResult)) : Except CopyException VideoShards :=
  results.foldlM (fun state result => context.registerEncodedVideo result.1 result.2 state) {}

theorem totalSize_append (first second : List StagedPath) :
    context.totalSize (first ++ second) = context.totalSize first + context.totalSize second := by
  rw [VideoShardContext.totalSize, List.map_append, List.sum_append]
  rfl

theorem fragmentsOf_concat (results : List (Nat × LerobotCodecResult))
    (result : Nat × LerobotCodecResult) :
    fragmentsOf (results ++ [result]) featureIndex =
      fragmentsOf results featureIndex ++
        if result.2.featureIndex = featureIndex then [result.2.outputPath] else [] := by
  rw [fragmentsOf, List.filter_append, List.map_append, ← fragmentsOf]
  split <;> simp [*]

/-- **All videos.** The shards of each feature are those of next-fit. -/
theorem registerAll_packing (hvalid : context.Valid) {results : List (Nat × LerobotCodecResult)}
    (hsmall : ∀ feature, context.totalSize (fragmentsOf results feature) < 2 ^ 53)
    (h : context.registerAll results = .ok state) :
    OpenShards context state ∧
      ∀ feature, state.packing feature =
        Packing.nextFit context.fullFor (fragmentsOf results feature) := by
  apply foldlM_ok (I := fun seen state => OpenShards context state ∧
    ∀ feature, state.packing feature =
      Packing.nextFit context.fullFor (fragmentsOf seen feature)) h
  · exact ⟨⟨fun _ => rfl, fun _ hne => absurd rfl hne⟩, fun _ => rfl⟩
  · rintro seen result rest before after hsplit ⟨hopen, hpacking⟩ hafter
    have hsum : context.totalSize (before.packing result.2.featureIndex).pending +
        context.fragmentSize result.2.outputPath < 2 ^ 53 := by
      -- what is pending and the fragment are among the fragments of the feature
      have hspec := (nextFit_spec context.fullFor (fragmentsOf seen result.2.featureIndex)).flatten_eq
      have htotal := hsmall result.2.featureIndex
      rw [hsplit, List.append_cons, fragmentsOf, List.filter_append, List.map_append, ← fragmentsOf,
        fragmentsOf_concat, if_pos rfl, ← hspec, totalSize_append, totalSize_append,
        totalSize_append] at htotal
      rw [hpacking]
      have hone : context.totalSize [result.2.outputPath] =
          context.fragmentSize result.2.outputPath := by
        simp [VideoShardContext.totalSize]
      omega
    obtain ⟨hopenAfter, hothers, hadded⟩ := registerEncodedVideo_packing hafter hvalid hopen hsum
    refine ⟨hopenAfter, ?_⟩
    intro feature
    rw [fragmentsOf_concat]
    rcases eq_or_ne result.2.featureIndex feature with rfl | hne
    · rw [hadded, hpacking, if_pos rfl, Packing.nextFit, Packing.nextFit, List.foldl_concat]
    · rw [hothers feature hne.symm, hpacking, if_neg hne, List.append_nil]

/-- **The end.** The open shard of each video feature is made too. -/
theorem materializeVideoShards_packing {final : VideoShards}
    (h : context.materializeVideoShards state = .ok final)
    (hvideo : (context.feature? featureIndex).any LerobotFeature.isVideo = true) :
    final.packing featureIndex = ⟨(state.packing featureIndex).bins, []⟩ := by
  have hmem : featureIndex ∈ List.range context.features.length := by
    rw [List.mem_range]
    by_contra hge
    rw [VideoShardContext.feature?, List.getElem?_eq_none (not_lt.mp hge)] at hvideo
    exact absurd hvideo (by decide)
  -- a feature has its last shard as soon as the loop has come to it
  have hloop := foldlM_ok (I := fun seen reached => reached.packing featureIndex =
    if featureIndex ∈ seen then ⟨(state.packing featureIndex).bins, []⟩
    else state.packing featureIndex) h (if_neg List.not_mem_nil).symm ?_
  · rwa [if_pos hmem] at hloop
  · intro seen feature rest before after hsplit hbefore hafter
    have hnodup : (seen ++ feature :: rest).Nodup := hsplit ▸ List.nodup_range
    have hnew : feature ∉ seen := by
      intro hseen
      exact (List.nodup_append.mp hnodup).2.2 feature hseen feature List.mem_cons_self rfl
    rcases eq_or_ne feature featureIndex with rfl | hne
    · rw [if_neg hnew] at hbefore
      rw [if_pos hvideo] at hafter
      rw [if_pos (by simp)]
      rcases materializeVideoShard_cases hafter with ⟨hnil, rfl⟩ | ⟨hne, path, rfl⟩
      · have hpending : (state.packing feature).pending = [] := hbefore ▸ hnil
        rw [hbefore, Packing.bins, if_pos hpending, ← hpending]
      · have hpending : (state.packing feature).pending ≠ [] := hbefore ▸ hne
        rw [packing_madeShard, hbefore, Packing.bins, if_neg hpending]
    · have hsame : after.packing featureIndex = before.packing featureIndex := by
        split at hafter
        · rcases materializeVideoShard_cases hafter with ⟨-, rfl⟩ | ⟨-, path, rfl⟩
          · rfl
          · exact packing_madeShard_of_ne hne.symm path
        · cases hafter
          rfl
      rw [hsame, hbefore]
      simp [hne.symm]

theorem materializeVideoShards_open {final : VideoShards} (hopen : OpenShards context state)
    (h : context.materializeVideoShards state = .ok final) : OpenShards context final := by
  apply foldlM_ok (I := fun _ reached => OpenShards context reached) h hopen
  intro seen feature rest before after _ hbefore hafter
  split at hafter
  · rcases materializeVideoShard_cases hafter with ⟨-, rfl⟩ | ⟨-, path, rfl⟩
    · exact hbefore
    · exact hbefore.madeShard path
  · cases hafter
    exact hbefore

end Packing

/-- The shards of a feature that have been made, oldest first. -/
def VideoShards.shards (state : VideoShards) (featureIndex : Nat) : List (List StagedPath) :=
  (state.packing featureIndex).closed

/-- **Video shards are packed greedily within the limit.** The counter of a feature is the size of its
pending fragments. At the end, its shards have all of its fragments in their order. A shard with several
fragments is below the limit, the next fragment would have brought each shard to it, and a fragment that
reaches the limit has a shard for itself. -/
theorem videoShards_packed {context : VideoShardContext} (hvalid : context.Valid)
    {results : List (Nat × LerobotCodecResult)} {state : VideoShards}
    (hsmall : ∀ feature, context.totalSize (fragmentsOf results feature) < 2 ^ 53)
    (h : context.registerAll results = .ok state) (featureIndex : Nat) :
    (state.videoShards featureIndex).fragmentBytes =
        context.totalSize (state.videoShards featureIndex).fragments ∧
    ∀ final, context.materializeVideoShards state = .ok final →
      (context.feature? featureIndex).any LerobotFeature.isVideo = true →
      (final.videoShards featureIndex).fragments = [] ∧
      (final.videoShards featureIndex).fragmentBytes = 0 ∧
      (final.shards featureIndex).flatten = fragmentsOf results featureIndex ∧
      (∀ shard ∈ final.shards featureIndex, shard ≠ []) ∧
      (∀ shard ∈ final.shards featureIndex, 2 ≤ shard.length →
        (context.totalSize shard : ℚ) < context.videoFileSizeMb * 1024 * 1024) ∧
      (final.shards featureIndex).IsChain (fun shard next => ∃ first ∈ next.head?,
        context.videoFileSizeMb * 1024 * 1024 ≤
          ((context.totalSize shard + context.fragmentSize first : Nat) : ℚ)) ∧
      ∀ shard ∈ final.shards featureIndex, ∀ fragment ∈ shard,
        context.videoFileSizeMb * 1024 * 1024 ≤ (context.fragmentSize fragment : ℚ) →
          shard = [fragment] := by
  obtain ⟨hopen, hpacking⟩ := registerAll_packing hvalid hsmall h
  refine ⟨hopen.bytes_eq featureIndex, ?_⟩
  intro final hfinal hvideo
  have hspec := nextFit_spec context.fullFor (fragmentsOf results featureIndex)
  have hend := materializeVideoShards_packing hfinal hvideo
  rw [hpacking] at hend
  have hshards : final.shards featureIndex =
      (Packing.nextFit context.fullFor (fragmentsOf results featureIndex)).bins := by
    rw [VideoShards.shards, hend]
  have hnil : (final.videoShards featureIndex).fragments = [] := congrArg Packing.pending hend
  refine ⟨hnil, ?_, ?_⟩
  · rw [(materializeVideoShards_open hopen hfinal).bytes_eq featureIndex, hnil]
    rfl
  rw [hshards]
  refine ⟨hspec.bins_flatten, fun shard hshard => (hspec.mem_bins hshard).1, ?_, ?_, ?_⟩
  · intro shard hshard hlength
    have hlt := (hspec.mem_bins hshard).2.size_lt hlength
    rwa [context.binSize_exactSize] at hlt
  · apply hspec.bins_full.imp
    rintro shard next ⟨first, hfirst, hfull⟩
    refine ⟨first, hfirst, ?_⟩
    have hle : context.sizeLimit ≤ binSize context.exactSize shard + context.exactSize first :=
      of_decide_eq_true hfull
    rw [context.binSize_exactSize] at hle
    rw [Nat.cast_add]
    exact hle
  · intro shard hshard fragment hfragment hlarge
    exact (hspec.mem_bins hshard).2.eq_singleton (fun _ => Nat.cast_nonneg _) hfragment hlarge

/-- A video feature. -/
def cameraVideo : LerobotFeature where
  name := "camera".toList
  dtype := "video"
  shape := [2, 3, 3]
  storageType := .blob
  outputType := .blob
  isVideo := true

/-- Shards of one mebibyte. -/
def cameraShards : VideoShardContext where
  features := [cameraVideo]
  chunksSize := 1000
  videoFileSizeMb := 1
  arithmetic := .ieee
  stagingPath := "dataset.tmp"
  getLocalFileSize path := .ok (if path = .fragment 0 0 then 2 ^ 21 else 100)
  concatenateVideos _ _ := .ok ()
  moveFile _ _ := .ok ()
  removeFile _ := .ok ()

/-- The videos of two episodes. -/
def cameraResults : List (Nat × LerobotCodecResult) :=
  [(3, ⟨0, .fragment 0 0, { frameCount := 3 }⟩), (4, ⟨0, .fragment 0 1, { frameCount := 4 }⟩)]

theorem cameraShards_valid : cameraShards.Valid where
  arithmetic_eq := rfl
  isDouble := by
    rw [IsDouble]
    decide +kernel
  size_pos := by norm_num [cameraShards]

theorem cameraResults_small (feature : Nat) :
    cameraShards.totalSize (fragmentsOf cameraResults feature) < 2 ^ 53 := by
  rcases eq_or_ne feature 0 with rfl | hne
  · decide
  · simp [fragmentsOf, cameraResults, hne.symm, VideoShardContext.totalSize]

/-- The first video is larger than a shard, and the second one opens another. -/
theorem cameraShards_packed : ∃ state final, cameraShards.registerAll cameraResults = .ok state ∧
    cameraShards.materializeVideoShards state = .ok final ∧
    (final.shards 0).flatten = [.fragment 0 0, .fragment 0 1] ∧
    ∀ shard ∈ final.shards 0, .fragment 0 0 ∈ shard → shard = [.fragment 0 0] := by
  have hok : (cameraShards.registerAll cameraResults >>= cameraShards.materializeVideoShards).isOk =
      true := by decide +kernel
  cases hrun : cameraShards.registerAll cameraResults >>= cameraShards.materializeVideoShards with
  | error exception =>
      rw [hrun] at hok
      cases hok
  | ok final =>
      obtain ⟨state, hstate, hfinal⟩ := except_bind_eq_ok.mp hrun
      obtain ⟨-, hend⟩ := videoShards_packed cameraShards_valid cameraResults_small hstate 0
      obtain ⟨-, -, hflatten, -, -, -, halone⟩ := hend final hfinal rfl
      refine ⟨state, final, hstate, hfinal, hflatten, ?_⟩
      intro shard hshard hfragment
      exact halone shard hshard _ hfragment (by
        norm_num [cameraShards, VideoShardContext.fragmentSize])

end DuckdbLerobot.Copy
