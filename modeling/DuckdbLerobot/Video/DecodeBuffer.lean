import DuckdbLerobot.Library.Containers
import DuckdbLerobot.Library.Rounding
import Mathlib.Algebra.Order.Floor.Ring
import Mathlib.Data.Rat.Floor

/-!
# Decode targets and decode buffers

A decode target asks for one frame of one video route. Targets of one video file (a shard) are
collected in a decode buffer, which is finalized once: sorted by video time and cut into clusters
of targets that one sequential decode serves.

Timestamps are the exact values of doubles. A target is built only from finite values, so no field of
it can be a NaN or an infinity. What is computed from them is rounded, by any `Arithmetic`.
-/

set_option autoImplicit false

namespace DuckdbLerobot.Video

open DuckdbLerobot.Library

/-- One episode and camera of the video metadata. -/
structure LerobotVideoRoute where
  episodeIndex : Int
  videoKeyIndex : Nat
  videoFileIndex : Nat
  episodeLength : Int
  chunkIndex : Int
  fileIndex : Int
  fromTimestamp : ℚ
  toTimestamp : ℚ
  deriving DecidableEq, Inhabited

/-- One requested frame. -/
structure LerobotDecodeTarget where
  requestId : Int := 0
  targetId : Int := 0
  requestOrdinal : Nat := 0
  deltaOrdinal : Nat := 0
  deltaTimestamp : ℚ := 0
  deltaFrameOffset : Int := 0
  isPadding : Bool := false
  episodeIndex : Int
  frameIndex : Int
  targetFrameIndex : Int
  frameTimestamp : ℚ
  videoTimestamp : ℚ
  routeIndex : Nat
  deriving DecidableEq

/-- Targets of one shard, with the clusters that `finalizeDecodeBuffer` cuts them into. -/
structure LerobotDecodeBuffer (τ : Type) where
  shardIndex : Nat
  fps : Int
  targets : List τ
  clusters : List (List Nat)
  deriving DecidableEq

/-- `std::numeric_limits<idx_t>::max()`. -/
def idxMaximum : Nat := 2 ^ 64 - 1

/-- `LEROBOT_MAX_CLUSTER_FRAME_SPAN`. -/
def maxClusterFrameSpan : Nat := 20000

/-- `frame_span` of `EstimateFrameSpan`, in `long double`. -/
def frameSpan (rounding : Rounding) (firstTimestamp lastTimestamp : ℚ) (fps : Int) : Double :=
  let difference := rounding.round (lastTimestamp - firstTimestamp)
  let frames := rounding.map (fun difference => difference * (rounding.round fps).toRat) difference
  rounding.map (fun frames => ⌈frames⌉ + 1) frames

/-- Frames between two timestamps, both ends included. -/
def estimateFrameSpan (arithmetic : Arithmetic) (firstTimestamp lastTimestamp : ℚ) (fps : Int) : Nat :=
  if lastTimestamp ≤ firstTimestamp then 1
  else
    let frameSpan := frameSpan arithmetic.longDouble firstTimestamp lastTimestamp fps
    if frameSpan.less (arithmetic.longDouble.round idxMaximum) then ⌊frameSpan.toRat⌋.toNat
    else idxMaximum

/-- The comparison of `FinalizeDecodeBuffer`. -/
def targetLess (left right : LerobotDecodeTarget) : Bool :=
  if left.videoTimestamp ≠ right.videoTimestamp then left.videoTimestamp < right.videoTimestamp
  else if left.episodeIndex ≠ right.episodeIndex then left.episodeIndex < right.episodeIndex
  else if left.frameIndex ≠ right.frameIndex then left.frameIndex < right.frameIndex
  else if left.routeIndex ≠ right.routeIndex then left.routeIndex < right.routeIndex
  else if left.requestOrdinal ≠ right.requestOrdinal then left.requestOrdinal < right.requestOrdinal
  else left.deltaOrdinal < right.deltaOrdinal

/-- The fields that `FinalizeDecodeBuffer` sorts by. -/
def sortKey (target : LerobotDecodeTarget) : ℚ ×ₗ Int ×ₗ Int ×ₗ Nat ×ₗ Nat ×ₗ Nat :=
  toLex (target.videoTimestamp, toLex (target.episodeIndex, toLex (target.frameIndex,
    toLex (target.routeIndex, toLex (target.requestOrdinal, target.deltaOrdinal)))))

/-- The comparison is that of a linear order on these fields, as `std::sort` needs it. -/
theorem targetLess_eq :
    targetLess = fun left right => decide (sortKey left < sortKey right) := by
  funext left right
  rw [Bool.eq_iff_iff, decide_eq_true_eq]
  simp only [sortKey, toLex_lt_iff_ite, targetLess]
  split
  · simp
  · split
    · simp
    · split
      · simp
      · split
        · simp
        · split
          · simp
          · simp

/-- A stable sort of the targets. -/
def targetSort : StdSort targetLess where
  run := (StdSort.byKey sortKey).run
  perm := (StdSort.byKey sortKey).perm
  sorted l := by
    rw [targetLess_eq]
    exact (StdSort.byKey sortKey).sorted l

/-- Whether a target is too far from the target before it, or from the first one of its cluster. -/
def breaksCluster (arithmetic : Arithmetic) (fps : Int) (clusterGap : ℚ)
    (first previous target : LerobotDecodeTarget) : Bool :=
  let adjacentGap := arithmetic.double.round (target.videoTimestamp - previous.videoTimestamp)
  let frameSpan := estimateFrameSpan arithmetic first.videoTimestamp target.videoTimestamp fps
  Double.less (.finite clusterGap) adjacentGap || decide (maxClusterFrameSpan < frameSpan)

/-- Whether the target at `targetIndex` starts a new cluster after the clusters so far. -/
def startsCluster (arithmetic : Arithmetic) (targets : List LerobotDecodeTarget) (fps : Int)
    (clusterGap : ℚ) (clusters : List (List Nat)) (targetIndex : Nat) : Bool :=
  match clusters.getLast? with
  | none => true
  | some cluster =>
      match targets[targetIndex]?, cluster.getLast?.bind (targets[·]?),
        cluster.head?.bind (targets[·]?) with
      | some target, some previous, some first =>
          breaksCluster arithmetic fps clusterGap first previous target
      | _, _, _ => true

/-- Append `targetIndex` to the last cluster, or to a new one. -/
def appendToClusters (arithmetic : Arithmetic) (targets : List LerobotDecodeTarget) (fps : Int)
    (clusterGap : ℚ) (clusters : List (List Nat)) (targetIndex : Nat) : List (List Nat) :=
  if startsCluster arithmetic targets fps clusterGap clusters targetIndex then clusters ++ [[targetIndex]]
  else clusters.dropLast ++ [(clusters.getLast?.getD []) ++ [targetIndex]]

/-- Sort the targets of a buffer and cut them into clusters. -/
def finalizeDecodeBuffer (arithmetic : Arithmetic) (sort : StdSort targetLess) (clusterGap : ℚ)
    (buffer : LerobotDecodeBuffer LerobotDecodeTarget) :
    LerobotDecodeBuffer LerobotDecodeTarget :=
  let targets := sort.run buffer.targets
  { buffer with
    targets := targets
    clusters := (List.range targets.length).foldl
      (appendToClusters arithmetic targets buffer.fps clusterGap) [] }

@[simp] theorem finalizeDecodeBuffer_shardIndex (arithmetic : Arithmetic)
    (sort : StdSort targetLess) (clusterGap : ℚ) (buffer : LerobotDecodeBuffer LerobotDecodeTarget) :
    (finalizeDecodeBuffer arithmetic sort clusterGap buffer).shardIndex = buffer.shardIndex := rfl

/-- Finalizing a buffer only reorders its targets. -/
theorem finalizeDecodeBuffer_targets_perm (arithmetic : Arithmetic)
    (sort : StdSort targetLess) (clusterGap : ℚ) (buffer : LerobotDecodeBuffer LerobotDecodeTarget) :
    (finalizeDecodeBuffer arithmetic sort clusterGap buffer).targets.Perm buffer.targets :=
  sort.perm buffer.targets

/-- The clusters cover every target index once, in order. -/
theorem appendToClusters_flatten (arithmetic : Arithmetic) (targets : List LerobotDecodeTarget)
    (fps : Int) (clusterGap : ℚ) (clusters : List (List Nat)) (targetIndex : Nat) :
    (appendToClusters arithmetic targets fps clusterGap clusters targetIndex).flatten =
      clusters.flatten ++ [targetIndex] := by
  unfold appendToClusters
  split
  · simp
  · rename_i hstart
    cases hlast : clusters.getLast? with
    | none => simp [startsCluster, hlast] at hstart
    | some cluster =>
        obtain ⟨hne, hget⟩ := List.mem_getLast?_eq_getLast hlast
        have hsplit : clusters = clusters.dropLast ++ [cluster] := by
          rw [hget]
          exact (List.dropLast_append_getLast hne).symm
        conv_rhs => rw [hsplit]
        simp

theorem finalizeDecodeBuffer_clusters_flatten (arithmetic : Arithmetic)
    (sort : StdSort targetLess) (clusterGap : ℚ) (buffer : LerobotDecodeBuffer LerobotDecodeTarget) :
    (finalizeDecodeBuffer arithmetic sort clusterGap buffer).clusters.flatten =
      List.range buffer.targets.length := by
  have hfold : ∀ (targets : List LerobotDecodeTarget) (indexes : List Nat)
      (clusters : List (List Nat)),
      (indexes.foldl (appendToClusters arithmetic targets buffer.fps clusterGap) clusters).flatten =
        clusters.flatten ++ indexes := by
    intro targets indexes
    induction indexes with
    | nil => intro clusters; simp
    | cons index indexes ih =>
        intro clusters
        rw [List.foldl_cons, ih, appendToClusters_flatten, List.append_assoc]
        rfl
  have hlength : (sort.run buffer.targets).length = buffer.targets.length :=
    (sort.perm buffer.targets).length_eq
  simp only [finalizeDecodeBuffer, hfold, List.flatten_nil, List.nil_append, hlength]

end DuckdbLerobot.Video
