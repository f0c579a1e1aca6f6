import DuckdbLerobot.Video.ShardDecoder

/-!
# The clusters of a decode buffer

`FinalizeDecodeBuffer` cuts the sorted targets of a buffer greedily: a target goes to the cluster
before it unless it is too far from the target before it, or too many frames from the first target of
the cluster. `Clustered` is the loop invariant, and `finalizeDecodeBuffer_clustered` the result.
-/

set_option autoImplicit false

namespace DuckdbLerobot.Video

open DuckdbLerobot.Library

/-! ## Frame counts -/

section Arithmetic

variable (arithmetic : Arithmetic)

/-- What is less than the largest `idx_t` fits an `idx_t`, also where that is rounded up. -/
theorem toNat_floor_le_idxMaximum (rounding : Rounding) {value : Double}
    (h : value.less (rounding.round idxMaximum) = true) : ⌊value.toRat⌋.toNat ≤ idxMaximum := by
  have hmono := rounding.round_mono idxMaximum (2 ^ 64) (by norm_num [idxMaximum])
  rw [rounding.round_two_pow 64 le_rfl] at hmono
  have hless := Double.less_of_less_of_le h hmono fun hnan => Double.noConfusion hnan
  have hfloor : ⌊value.toRat⌋ < 2 ^ 64 := by
    apply Int.floor_lt.mpr
    exact_mod_cast Double.toRat_lt_of_less hless (pow_pos two_pos 64)
  unfold idxMaximum
  omega

theorem frameSpan_atLeast (rounding : Rounding) {firstTimestamp lastTimestamp : ℚ} {fps : Int}
    (hfps : 0 < fps) (h : firstTimestamp ≤ lastTimestamp) :
    (frameSpan rounding firstTimestamp lastTimestamp fps).AtLeast 1 := by
  -- Each operation keeps the lower bound of its exact result.
  have hrate : (0 : ℚ) ≤ (rounding.round fps).toRat :=
    (rounding.round_atLeast rounding.round_zero (by exact_mod_cast hfps.le)).le_toRat (.inl le_rfl)
  have hdifference : (rounding.round (lastTimestamp - firstTimestamp)).AtLeast 0 :=
    rounding.round_atLeast rounding.round_zero (sub_nonneg.mpr h)
  have hframes := rounding.map_atLeast rounding.round_zero
    (fun difference hnonneg => mul_nonneg hnonneg hrate) hdifference
  apply rounding.map_atLeast rounding.round_one _ hframes
  intro frames hnonneg
  have hceil : (0 : ℚ) ≤ ⌈frames⌉ := by exact_mod_cast Int.ceil_nonneg hnonneg
  linarith

/-- **A number of frames is at least one and fits an `idx_t`.** -/
theorem estimateFrameSpan_bounds (firstTimestamp lastTimestamp : ℚ) {fps : Int} (hfps : 0 < fps) :
    1 ≤ estimateFrameSpan arithmetic firstTimestamp lastTimestamp fps ∧
      estimateFrameSpan arithmetic firstTimestamp lastTimestamp fps ≤ idxMaximum := by
  unfold estimateFrameSpan
  split
  · exact ⟨le_rfl, by decide⟩
  · rename_i hlt
    have hspan := frameSpan_atLeast arithmetic.longDouble hfps (not_le.mp hlt).le
    dsimp only
    split
    · rename_i hless
      refine ⟨?_, toNat_floor_le_idxMaximum _ hless⟩
      have hone : ((1 : Int) : ℚ) ≤ (frameSpan arithmetic.longDouble firstTimestamp lastTimestamp
          fps).toRat :=
        Int.cast_one.trans_le (hspan.le_toRat (.inr (hspan.isFinite hless)))
      have hfloor := Int.le_floor.mpr hone
      omega
    · exact ⟨by decide, le_rfl⟩

theorem decodeFrameBudget_bounds (firstTimestamp lastTimestamp : ℚ) {fps : Int} (hfps : 0 < fps) :
    1 ≤ decodeFrameBudget arithmetic firstTimestamp lastTimestamp fps ∧
      decodeFrameBudget arithmetic firstTimestamp lastTimestamp fps ≤ idxMaximum := by
  have hspan := estimateFrameSpan_bounds arithmetic firstTimestamp lastTimestamp hfps
  unfold decodeFrameBudget
  dsimp only
  split
  · exact ⟨by decide, le_rfl⟩
  · rename_i hroom
    constructor <;> unfold idxMaximum decodeFrameSafetyMargin at * <;> omega

end Arithmetic

/-! ## The loop over the targets -/

section Clusters

variable (arithmetic : Arithmetic) (clusterGap : ℚ) (buffer : LerobotDecodeBuffer LerobotDecodeTarget)

/-- The gap between two targets is more than `cluster_gap`. -/
def ExceedsGap (previous next : Nat) : Prop :=
  Double.less (.finite clusterGap) (arithmetic.double.round
    (targetTimestamp buffer next - targetTimestamp buffer previous)) = true

/-- There are more frames from one target to another than a cluster may have. -/
def ExceedsSpan (first last : Nat) : Prop :=
  maxClusterFrameSpan < estimateFrameSpan arithmetic (targetTimestamp buffer first)
    (targetTimestamp buffer last) buffer.fps

/-- A target that the cluster before it cannot be extended with. -/
def Separated (cluster : List Nat) (next : Nat) : Prop :=
  ExceedsGap arithmetic clusterGap buffer (cluster.getLastD 0) next ∨
    ExceedsSpan arithmetic buffer (cluster.headD 0) next

/-- **Clusters within the limits, and cut only where a limit would be broken.** -/
structure Clustered (clusters : List (List Nat)) : Prop where
  nonempty : ∀ cluster ∈ clusters, cluster ≠ []
  inBuffer : ∀ cluster ∈ clusters, ∀ targetIndex ∈ cluster, targetIndex < buffer.targets.length
  gaps : ∀ cluster ∈ clusters, cluster.IsChain fun previous next =>
    ¬ExceedsGap arithmetic clusterGap buffer previous next
  spans : ∀ cluster ∈ clusters,
    ¬ExceedsSpan arithmetic buffer (cluster.headD 0) (cluster.getLastD 0)
  cuts : clusters.IsChain fun cluster next =>
    Separated arithmetic clusterGap buffer cluster (next.headD 0)

variable {arithmetic clusterGap buffer}

theorem targetTimestamp_getElem {targetIndex : Nat} (h : targetIndex < buffer.targets.length) :
    targetTimestamp buffer targetIndex = buffer.targets[targetIndex].videoTimestamp := by
  simp [targetTimestamp, h]

/-- A target starts a cluster of its own exactly when it is separated from the last cluster. -/
theorem startsCluster_iff {before : List (List Nat)} {cluster : List Nat} {targetIndex : Nat}
    (h : Clustered arithmetic clusterGap buffer (before ++ [cluster]))
    (hindex : targetIndex < buffer.targets.length) :
    startsCluster arithmetic buffer.targets buffer.fps clusterGap (before ++ [cluster])
      targetIndex = true ↔ Separated arithmetic clusterGap buffer cluster targetIndex := by
  have hmem : cluster ∈ before ++ [cluster] := List.mem_append_right _ (List.mem_singleton_self _)
  have hne := h.nonempty cluster hmem
  have hlast := h.inBuffer cluster hmem _ (List.getLast_mem hne)
  have hhead := h.inBuffer cluster hmem _ (List.head_mem hne)
  have hlast' : cluster.getLastD 0 = cluster.getLast hne := by
    rw [List.getLastD_eq_getLast?, List.getLast?_eq_some_getLast hne, Option.getD_some]
  have hhead' : cluster.headD 0 = cluster.head hne := by
    rw [List.headD_eq_head?_getD, List.head?_eq_some_head hne, Option.getD_some]
  unfold startsCluster Separated ExceedsGap ExceedsSpan
  rw [hlast', hhead', targetTimestamp_getElem hlast, targetTimestamp_getElem hhead,
    targetTimestamp_getElem hindex, List.getLast?_concat]
  dsimp only
  rw [List.getLast?_eq_some_getLast hne, List.head?_eq_some_head hne]
  simp [breaksCluster, hlast, hhead, hindex]

/-- A step of the loop: another cluster, or a longer last one. -/
theorem appendToClusters_cases {clusters : List (List Nat)} {targetIndex : Nat}
    (h : Clustered arithmetic clusterGap buffer clusters)
    (hindex : targetIndex < buffer.targets.length) :
    let result := appendToClusters arithmetic buffer.targets buffer.fps clusterGap clusters targetIndex
    (clusters = [] ∧ result = [[targetIndex]]) ∨
      ∃ before cluster, clusters = before ++ [cluster] ∧
        ((Separated arithmetic clusterGap buffer cluster targetIndex ∧
            result = before ++ [cluster] ++ [[targetIndex]]) ∨
          (¬Separated arithmetic clusterGap buffer cluster targetIndex ∧
            result = before ++ [cluster ++ [targetIndex]])) := by
  rcases List.eq_nil_or_concat' clusters with rfl | ⟨before, cluster, rfl⟩
  · exact .inl ⟨rfl, rfl⟩
  · refine .inr ⟨before, cluster, rfl, ?_⟩
    have hstarts := startsCluster_iff h hindex
    unfold appendToClusters
    split
    · rename_i hstart
      exact .inl ⟨hstarts.mp hstart, rfl⟩
    · rename_i hstart
      refine .inr ⟨fun hseparated => hstart (hstarts.mpr hseparated), ?_⟩
      rw [List.dropLast_concat, List.getLast?_concat, Option.getD_some]

theorem not_exceedsSpan_self (targetIndex : Nat) :
    ¬ExceedsSpan arithmetic buffer targetIndex targetIndex := by
  unfold ExceedsSpan estimateFrameSpan
  rw [if_pos le_rfl]
  decide

/-- Another cluster of one target. -/
theorem Clustered.start {clusters : List (List Nat)} {targetIndex : Nat}
    (h : Clustered arithmetic clusterGap buffer clusters)
    (hindex : targetIndex < buffer.targets.length)
    (hseparated : ∀ cluster ∈ clusters.getLast?,
      Separated arithmetic clusterGap buffer cluster targetIndex) :
    Clustered arithmetic clusterGap buffer (clusters ++ [[targetIndex]]) := by
  constructor
  · intro cluster hcluster
    rcases List.mem_append.mp hcluster with hmem | hmem
    · exact h.nonempty cluster hmem
    · rw [List.mem_singleton.mp hmem]
      exact List.cons_ne_nil _ _
  · intro cluster hcluster
    rcases List.mem_append.mp hcluster with hmem | hmem
    · exact h.inBuffer cluster hmem
    · rw [List.mem_singleton.mp hmem]
      simpa using hindex
  · intro cluster hcluster
    rcases List.mem_append.mp hcluster with hmem | hmem
    · exact h.gaps cluster hmem
    · rw [List.mem_singleton.mp hmem]
      exact List.isChain_singleton _
  · intro cluster hcluster
    rcases List.mem_append.mp hcluster with hmem | hmem
    · exact h.spans cluster hmem
    · rw [List.mem_singleton.mp hmem]
      exact not_exceedsSpan_self targetIndex
  · apply List.isChain_append.mpr
    refine ⟨h.cuts, List.isChain_singleton _, ?_⟩
    intro cluster hcluster next hnext
    cases hnext
    exact hseparated cluster hcluster

/-- A longer last cluster. -/
theorem Clustered.extend {before : List (List Nat)} {cluster : List Nat} {targetIndex : Nat}
    (h : Clustered arithmetic clusterGap buffer (before ++ [cluster]))
    (hindex : targetIndex < buffer.targets.length)
    (hseparated : ¬Separated arithmetic clusterGap buffer cluster targetIndex) :
    Clustered arithmetic clusterGap buffer (before ++ [cluster ++ [targetIndex]]) := by
  obtain ⟨hgap, hspan⟩ := not_or.mp hseparated
  have hmem : cluster ∈ before ++ [cluster] := List.mem_append_right _ (List.mem_singleton_self _)
  have hbefore {other : List Nat} (hother : other ∈ before) : other ∈ before ++ [cluster] :=
    List.mem_append_left _ hother
  have hhead : (cluster ++ [targetIndex]).headD 0 = cluster.headD 0 := by
    obtain ⟨first, rest, rfl⟩ := List.exists_cons_of_ne_nil (h.nonempty cluster hmem)
    rfl
  have hlast : (cluster ++ [targetIndex]).getLastD 0 = targetIndex := by
    rw [List.getLastD_eq_getLast?, List.getLast?_concat, Option.getD_some]
  constructor
  · intro other hother
    rcases List.mem_append.mp hother with hother | hother
    · exact h.nonempty other (hbefore hother)
    · rw [List.mem_singleton.mp hother]
      exact List.append_ne_nil_of_right_ne_nil _ (List.cons_ne_nil _ _)
  · intro other hother index hmember
    rcases List.mem_append.mp hother with hother | hother
    · exact h.inBuffer other (hbefore hother) index hmember
    · rw [List.mem_singleton.mp hother] at hmember
      rcases List.mem_append.mp hmember with hmember | hmember
      · exact h.inBuffer cluster hmem index hmember
      · rw [List.mem_singleton.mp hmember]
        exact hindex
  · intro other hother
    rcases List.mem_append.mp hother with hother | hother
    · exact h.gaps other (hbefore hother)
    · rw [List.mem_singleton.mp hother]
      apply List.isChain_append.mpr
      refine ⟨h.gaps cluster hmem, List.isChain_singleton _, ?_⟩
      intro previous hprevious next hnext
      cases hnext
      rwa [List.getLastD_eq_getLast?, hprevious, Option.getD_some] at hgap
  · intro other hother
    rcases List.mem_append.mp hother with hother | hother
    · exact h.spans other (hbefore hother)
    · rw [List.mem_singleton.mp hother, hhead, hlast]
      exact hspan
  · -- The cut before the last cluster is about its first target, which stays.
    have hcuts := List.isChain_append.mp h.cuts
    apply List.isChain_append.mpr
    refine ⟨hcuts.1, List.isChain_singleton _, ?_⟩
    intro other hother next hnext
    cases hnext
    rw [hhead]
    exact hcuts.2.2 other hother cluster rfl

/-- **A step of the loop keeps the clusters within the limits.** -/
theorem Clustered.append {clusters : List (List Nat)} {targetIndex : Nat}
    (h : Clustered arithmetic clusterGap buffer clusters)
    (hindex : targetIndex < buffer.targets.length) :
    Clustered arithmetic clusterGap buffer
      (appendToClusters arithmetic buffer.targets buffer.fps clusterGap clusters targetIndex) := by
  rcases appendToClusters_cases h hindex with ⟨rfl, heq⟩ | ⟨before, cluster, rfl, hcases⟩
  · rw [heq]
    exact h.start hindex fun cluster hcluster => by cases hcluster
  · rcases hcases with ⟨hseparated, heq⟩ | ⟨hseparated, heq⟩
    · rw [heq]
      apply h.start hindex
      intro other hother
      rw [List.getLast?_concat, Option.mem_some_iff] at hother
      exact hother ▸ hseparated
    · rw [heq]
      exact h.extend hindex hseparated

/-- **The loop keeps the clusters within the limits.** -/
theorem Clustered.foldl {clusters : List (List Nat)} {targetIndexes : List Nat}
    (h : Clustered arithmetic clusterGap buffer clusters)
    (hindexes : ∀ targetIndex ∈ targetIndexes, targetIndex < buffer.targets.length) :
    Clustered arithmetic clusterGap buffer (targetIndexes.foldl
      (appendToClusters arithmetic buffer.targets buffer.fps clusterGap) clusters) := by
  induction targetIndexes generalizing clusters with
  | nil => exact h
  | cons targetIndex targetIndexes ih =>
      obtain ⟨hindex, hrest⟩ := List.forall_mem_cons.mp hindexes
      exact ih (h.append hindex) hrest

theorem clustered_nil : Clustered arithmetic clusterGap buffer [] := by
  constructor <;> simp

end Clusters

/-! ## Finalized buffers -/

section Finalized

variable (arithmetic : Arithmetic) (sort : StdSort targetLess) (clusterGap : ℚ)
  (buffer : LerobotDecodeBuffer LerobotDecodeTarget)

/-- The targets of a finalized buffer are in the order of their video timestamps. -/
theorem finalizeDecodeBuffer_sorted :
    (finalizeDecodeBuffer arithmetic sort clusterGap buffer).targets.Pairwise
      fun target next => target.videoTimestamp ≤ next.videoTimestamp := by
  apply (sort.sorted buffer.targets).imp
  intro target next hnotLess
  by_contra hlt
  have hkey : sortKey next < sortKey target := Prod.Lex.toLex_lt_toLex.mpr (.inl (not_le.mp hlt))
  rw [targetLess_eq, decide_eq_false_iff_not] at hnotLess
  exact hnotLess hkey

theorem finalizeDecodeBuffer_clustered :
    Clustered arithmetic clusterGap (finalizeDecodeBuffer arithmetic sort clusterGap buffer)
      (finalizeDecodeBuffer arithmetic sort clusterGap buffer).clusters := by
  apply clustered_nil.foldl
  intro targetIndex hindex
  exact List.mem_range.mp hindex

/-- **Clusters partition a decode buffer**: in the order of their timestamps, every target is in one
cluster, and the clusters keep the limits and are cut only where one of them would be broken. -/
theorem finalizeDecodeBuffer_partition (hfps : 0 < buffer.fps) :
    (finalizeDecodeBuffer arithmetic sort clusterGap buffer).targets.Perm buffer.targets ∧
      (finalizeDecodeBuffer arithmetic sort clusterGap buffer).targets.Pairwise
        (fun target next => target.videoTimestamp ≤ next.videoTimestamp) ∧
      (finalizeDecodeBuffer arithmetic sort clusterGap buffer).clusters.flatten =
        List.range buffer.targets.length ∧
      Clustered arithmetic clusterGap (finalizeDecodeBuffer arithmetic sort clusterGap buffer)
        (finalizeDecodeBuffer arithmetic sort clusterGap buffer).clusters ∧
      ∀ firstTimestamp lastTimestamp : ℚ,
        (1 ≤ estimateFrameSpan arithmetic firstTimestamp lastTimestamp buffer.fps ∧
          estimateFrameSpan arithmetic firstTimestamp lastTimestamp buffer.fps ≤ idxMaximum) ∧
        1 ≤ decodeFrameBudget arithmetic firstTimestamp lastTimestamp buffer.fps ∧
        decodeFrameBudget arithmetic firstTimestamp lastTimestamp buffer.fps ≤ idxMaximum := by
  refine ⟨finalizeDecodeBuffer_targets_perm arithmetic sort clusterGap buffer,
    finalizeDecodeBuffer_sorted arithmetic sort clusterGap buffer,
    finalizeDecodeBuffer_clusters_flatten arithmetic sort clusterGap buffer,
    finalizeDecodeBuffer_clustered arithmetic sort clusterGap buffer, ?_⟩
  intro firstTimestamp lastTimestamp
  exact ⟨estimateFrameSpan_bounds arithmetic firstTimestamp lastTimestamp hfps,
    decodeFrameBudget_bounds arithmetic firstTimestamp lastTimestamp hfps⟩

end Finalized

/-- Two targets of a video with ten frames a second, the later one first. -/
def unsortedTargets : LerobotDecodeBuffer LerobotDecodeTarget where
  shardIndex := 0
  fps := 10
  targets := [
    { episodeIndex := 0, frameIndex := 40, targetFrameIndex := 40, frameTimestamp := 4,
      videoTimestamp := 4, routeIndex := 0 },
    { episodeIndex := 0, frameIndex := 1, targetFrameIndex := 1, frameTimestamp := 1 / 10,
      videoTimestamp := 1 / 10, routeIndex := 0 }]
  clusters := []

/-- They are partitioned in the arithmetic of the machine. -/
theorem unsortedTargets_partition :
    (finalizeDecodeBuffer .ieee targetSort 1 unsortedTargets).clusters.flatten = [0, 1] ∧
      Clustered .ieee 1 (finalizeDecodeBuffer .ieee targetSort 1 unsortedTargets)
        (finalizeDecodeBuffer .ieee targetSort 1 unsortedTargets).clusters :=
  have h := finalizeDecodeBuffer_partition .ieee targetSort 1 unsortedTargets (by decide)
  ⟨h.2.2.1, h.2.2.2.1⟩

end DuckdbLerobot.Video
