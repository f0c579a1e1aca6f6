import Mathlib.Data.List.Induction
import Mathlib.Data.List.Nodup

/-!
# First occurrences

Values are numbered in the order in which they first occur. The numbers are kept in a map beside the list of values:
`Positions` says that the map has the position of each value, and `List.eraseDups` is the list after all of them.
-/

set_option autoImplicit false

namespace DuckdbLerobot.Library

universe u

variable {α : Type u} [BEq α] [LawfulBEq α]

/-! ## The list -/

theorem eraseDups_concat (l : List α) (a : α) :
    (l ++ [a]).eraseDups = if a ∈ l then l.eraseDups else l.eraseDups ++ [a] := by
  rw [List.eraseDups_append]
  by_cases h : a ∈ l
  · have hnone : [a].removeAll l = [] := by simp [List.removeAll, h]
    rw [hnone, if_pos h, List.eraseDups_nil, List.append_nil]
  · have hone : [a].removeAll l = [a] := by simp [List.removeAll, h]
    rw [hone, if_neg h]
    rfl

theorem nodup_eraseDups (l : List α) : l.eraseDups.Nodup := by
  induction l using List.reverseRecOn with
  | nil => exact List.nodup_nil
  | append_singleton l a ih =>
      rw [eraseDups_concat]
      split
      · exact ih
      · next h =>
        rw [← List.concat_eq_append, List.nodup_concat]
        exact ⟨fun hmem => h (List.mem_eraseDups.mp hmem), ih⟩

theorem eraseDups_prefix (l : List α) (a : α) : l.eraseDups <+: (l ++ [a]).eraseDups := by
  rw [eraseDups_concat]
  split
  · exact List.prefix_refl _
  · exact List.prefix_append _ _

theorem eraseDups_eq_nil {l : List α} : l.eraseDups = [] ↔ l = [] := by
  cases l with
  | nil => exact ⟨fun _ => rfl, fun _ => rfl⟩
  | cons a l =>
      rw [List.eraseDups_cons]
      constructor
      · intro h
        cases h
      · intro h
        cases h

/-! ## The map -/

/-- The map has the position of each value of the list. -/
def Positions (indexes : List (α × Int)) (l : List α) : Prop :=
  ∀ a index, indexes.lookup a = some index ↔ ∃ position : Nat, index = position ∧ l[position]? = some a

theorem positions_nil : Positions ([] : List (α × Int)) [] := by
  intro a index
  rw [List.lookup_nil]
  constructor
  · intro h
    cases h
  · rintro ⟨_, -, h⟩
    cases h

theorem Positions.lookup_eq_none {indexes : List (α × Int)} {l : List α} (h : Positions indexes l) {a : α} :
    indexes.lookup a = none ↔ a ∉ l := by
  constructor
  · intro hnone hmem
    obtain ⟨position, hposition⟩ := List.mem_iff_getElem?.mp hmem
    rw [(h a position).mpr ⟨position, rfl, hposition⟩] at hnone
    cases hnone
  · intro hmem
    cases hlookup : indexes.lookup a with
    | none => rfl
    | some index =>
        obtain ⟨_, -, hget⟩ := (h a index).mp hlookup
        exact absurd (List.mem_of_getElem? hget) hmem

/-- A new value takes the next position. -/
theorem Positions.cons {indexes : List (α × Int)} {l : List α} (h : Positions indexes l) {a : α} (hnew : a ∉ l) :
    Positions ((a, (l.length : Int)) :: indexes) (l ++ [a]) := by
  intro b index
  rw [List.lookup_cons]
  by_cases hb : b = a
  · rw [hb, beq_self_eq_true]
    change some (l.length : Int) = some index ↔ _
    constructor
    · intro heq
      exact ⟨l.length, (Option.some.inj heq).symm, by rw [List.getElem?_concat_length]⟩
    · rintro ⟨position, rfl, hget⟩
      have hle : l.length ≤ position := by
        by_contra hlt
        rw [List.getElem?_append_left (Nat.lt_of_not_le hlt)] at hget
        exact hnew (List.mem_of_getElem? hget)
      have hlt : position < (l ++ [a]).length := (List.getElem?_eq_some_iff.mp hget).1
      rw [List.length_append, List.length_singleton] at hlt
      rw [Nat.le_antisymm hle (Nat.le_of_lt_succ hlt)]
  · rw [beq_false_of_ne hb]
    change indexes.lookup b = some index ↔ _
    rw [h b index]
    constructor
    · rintro ⟨position, rfl, hget⟩
      have hlt : position < l.length := (List.getElem?_eq_some_iff.mp hget).1
      exact ⟨position, rfl, by rw [List.getElem?_append_left hlt, hget]⟩
    · rintro ⟨position, rfl, hget⟩
      refine ⟨position, rfl, ?_⟩
      by_cases hlt : position < l.length
      · rwa [List.getElem?_append_left hlt] at hget
      · rw [List.getElem?_append_right (Nat.le_of_not_lt hlt)] at hget
        exact absurd (List.mem_singleton.mp (List.mem_of_getElem? hget)) hb

end DuckdbLerobot.Library
