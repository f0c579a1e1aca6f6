import DuckdbLerobot.Library.Containers

/-!
# Left joins

`leftJoin` is a `LEFT JOIN` of two lists, and `countedJoin` adds the column `count(...) OVER (PARTITION BY key)` to it.
If the key tells the left rows apart, then the count of a row is the number of right rows that its own left row joins
with (`countedJoin_eq`).
-/

set_option autoImplicit false

namespace DuckdbLerobot.Library

universe u v w

variable {α : Type u} {β : Type v} {κ : Type w} [DecidableEq κ]

/-- The rows of one left row: it has one without a right row, if it joins with none. -/
def joinOne (joins : α → β → Bool) (right : List β) (a : α) : List (α × Option β) :=
  match right.filter (joins a) with
  | [] => [(a, none)]
  | matching => matching.map fun b => (a, some b)

/-- `LEFT JOIN`. -/
def leftJoin (joins : α → β → Bool) (left : List α) (right : List β) : List (α × Option β) :=
  left.flatMap (joinOne joins right)

/-- `count(...) OVER (PARTITION BY key)`, where `counted` says which values are not NULL. -/
def countOver {ρ : Type*} (key : ρ → κ) (counted : ρ → Bool) (rows : List ρ) (row : ρ) : Nat :=
  rows.countP fun other => decide (key other = key row) && counted other

/-- A left join with a count for each left key. -/
def countedJoin (joins : α → β → Bool) (key : α → κ) (counted : β → Bool) (left : List α) (right : List β) :
    List ((α × Option β) × Nat) :=
  let rows := leftJoin joins left right
  rows.map fun row => (row, countOver (fun row => key row.1) (fun row => row.2.any counted) rows row)

section Join

variable {joins : α → β → Bool} {key : α → κ} {counted : β → Bool} {left : List α} {right : List β} {a : α}

theorem joinOne_none (h : right.filter (joins a) = []) : joinOne joins right a = [(a, none)] := by
  rw [joinOne, h]

theorem joinOne_some (h : right.filter (joins a) ≠ []) :
    joinOne joins right a = (right.filter (joins a)).map fun b => (a, some b) := by
  rw [joinOne]
  split
  · rename_i hnone
    exact absurd hnone h
  · rfl

/-- Other right rows make no difference. -/
theorem joinOne_congr {right' : List β} (h : right.filter (joins a) = right'.filter (joins a)) :
    joinOne joins right a = joinOne joins right' a := by
  rw [joinOne, joinOne, h]

theorem left_of_mem_joinOne {row : α × Option β} (h : row ∈ joinOne joins right a) : row.1 = a := by
  by_cases hnone : right.filter (joins a) = []
  · rw [joinOne_none hnone, List.mem_singleton] at h
    rw [h]
  · rw [joinOne_some hnone] at h
    obtain ⟨_, -, rfl⟩ := List.mem_map.mp h
    rfl

/-- The right rows of one left row. -/
theorem countP_joinOne (hcounted : ∀ b ∈ right, joins a b = true → counted b = true) :
    (joinOne joins right a).countP (fun row => row.2.any counted) = (right.filter (joins a)).length := by
  by_cases hnone : right.filter (joins a) = []
  · rw [joinOne_none hnone, hnone]
    rfl
  · rw [joinOne_some hnone, List.countP_map, List.countP_eq_length]
    intro b hb
    obtain ⟨hmem, hjoins⟩ := List.mem_filter.mp hb
    exact hcounted b hmem hjoins

/-- **The count of a row is that of its left row**, if no other left row has its key. -/
theorem countedJoin_eq (hkey : (left.map key).Nodup)
    (hcounted : ∀ a ∈ left, ∀ b ∈ right, joins a b = true → counted b = true) :
    countedJoin joins key counted left right =
      left.flatMap fun a => (joinOne joins right a).map fun row => (row, (right.filter (joins a)).length) := by
  rw [countedJoin, leftJoin, List.map_flatMap]
  apply List.flatMap_congr
  intro a ha
  apply List.map_congr_left
  intro row hrow
  congr 1
  rw [← countP_joinOne (hcounted a ha), countOver, List.countP_eq_length_filter, List.filter_flatMap,
    left_of_mem_joinOne hrow, List.countP_eq_length_filter]
  congr 1
  -- the other left rows have other keys
  have hothers : ∀ other ∈ left, other ≠ a →
      ((joinOne joins right other).filter fun row => decide (key row.1 = key a) && row.2.any counted) = [] := by
    intro other hother hne
    rw [List.filter_eq_nil_iff]
    intro row' hrow' hcounts
    rw [Bool.and_eq_true, decide_eq_true_eq, left_of_mem_joinOne hrow'] at hcounts
    exact hne (List.inj_on_of_nodup_map hkey hother ha hcounts.1)
  rw [flatMap_eq_of_unique hkey.of_map ha hothers]
  apply List.filter_congr
  intro row' hrow'
  rw [left_of_mem_joinOne hrow', decide_eq_true rfl, Bool.true_and]

end Join

end DuckdbLerobot.Library
