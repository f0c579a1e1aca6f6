import DuckdbLerobot.Storage.EpisodeRoutes
import Mathlib.Algebra.BigOperators.Group.List.Basic
import Mathlib.Algebra.BigOperators.Group.Finset.Basic
import Mathlib.Algebra.Order.Group.Multiset
import Mathlib.Data.List.GetD

/-!
# Rows of routed episodes

`read_parquet` over a list of files returns the rows of the files as a multiset. A query over some of
the files loses no row when no other file has a row that it asks for (`sum_pruned`). Where every
stored row lies in the file its episode is routed to, the route table says which files these are.
-/

set_option autoImplicit false

namespace DuckdbLerobot.Scan

open DuckdbLerobot.Library DuckdbLerobot.Path DuckdbLerobot.Storage

variable {ρ : Type}

/-- The rows of the files, each file read once for each time it is listed. -/
def readParquet (store : Text → List ρ) (paths : List Text) : Multiset ρ :=
  (paths.map fun path => (store path : Multiset ρ)).sum

/-- `value IN (...)` in a `WHERE` clause, where NULL is not in any list. -/
def isIn (value : Option Int) (list : List Int) : Bool := value.any fun index => decide (index ∈ list)

theorem isIn_iff {value : Option Int} {list : List Int} :
    isIn value list = true ↔ ∃ index ∈ list, value = some index := by
  cases value with
  | none => simp [isIn]
  | some index => simp [isIn]

/-- A filter is applied to the rows of each file. -/
theorem filter_readParquet (p : ρ → Prop) [DecidablePred p] (store : Text → List ρ)
    (paths : List Text) :
    (readParquet store paths).filter p =
      (paths.map fun path => (store path : Multiset ρ).filter p).sum := by
  unfold readParquet
  induction paths with
  | nil => rfl
  | cons path paths ih =>
      rw [List.map_cons, List.map_cons, List.sum_cons, List.sum_cons, Multiset.filter_add, ih]

/-- **Pruning.** Files without rows of interest need not be read. -/
theorem sum_pruned {files all : List Text} (hfiles : files.Nodup) (hall : all.Nodup)
    (hsub : ∀ path ∈ files, path ∈ all) {rows : Text → Multiset ρ}
    (hnone : ∀ path ∈ all, path ∉ files → rows path = 0) :
    (files.map rows).sum = (all.map rows).sum := by
  rw [← List.sum_toFinset rows hfiles, ← List.sum_toFinset rows hall]
  apply Finset.sum_subset
  · intro path hpath
    exact List.mem_toFinset.mpr (hsub path (List.mem_toFinset.mp hpath))
  · intro path hpath hnot
    exact hnone path (List.mem_toFinset.mp hpath) fun hmem => hnot (List.mem_toFinset.mpr hmem)

/-- Every stored row belongs to a routed episode and lies in the file that this episode is routed
to. -/
def RowsRouted (metadata : LerobotDatasetMetadata) (episodeIndex : ρ → Option Int)
    (store : Text → List ρ) : Prop :=
  ∀ path ∈ metadata.dataFiles, ∀ row ∈ store path, ∃ episode route,
    episodeIndex row = some episode ∧ metadata.findEpisodeRoute episode = some route ∧
      metadata.dataFile route = path

section Routed

variable {metadata : LerobotDatasetMetadata}

/-- A file that no requested episode is routed to has no requested row. -/
theorem no_rows {episodeIndex : ρ → Option Int} {store : Text → List ρ}
    (hrouted : RowsRouted metadata episodeIndex store) {episodes : List Int} {path : Text}
    (hpath : path ∈ metadata.dataFiles)
    (hnone : ∀ episode ∈ episodes, ∀ route, metadata.findEpisodeRoute episode = some route →
      metadata.dataFile route ≠ path) :
    ∀ row ∈ store path, isIn (episodeIndex row) episodes = false := by
  intro row hrow
  obtain ⟨episode, route, hepisode, hfind, hfile⟩ := hrouted path hpath row hrow
  rw [Bool.eq_false_iff]
  intro hin
  obtain ⟨index, hindex, heq⟩ := isIn_iff.mp hin
  rw [hepisode] at heq
  cases heq
  exact hnone episode hindex route hfind hfile

end Routed

end DuckdbLerobot.Scan
