import DuckdbLerobot.Library.Containers
import Mathlib.Data.List.Destutter
import Mathlib.Data.List.Sort

/-!
# Searches in sorted ranges

An iterator into a range is the rest of the range from it on. `std::lower_bound` and
`std::upper_bound` are defined by what they return on a range that is partitioned by their test,
and `std::unique` with the erasure of its tail by `List.destutter`.
-/

set_option autoImplicit false

namespace DuckdbLerobot.Library

universe u v

variable {α : Type u} {κ : Type v}

/-- `std::lower_bound`: the range from the first element that is not before the value. -/
def lowerBound (before : α → Bool) (range : List α) : List α := range.dropWhile before

/-- `std::upper_bound`: the range from the first element that is after the value. -/
def upperBound (after : α → Bool) (range : List α) : List α := range.dropWhile fun a => !after a

section Sorted

variable [LinearOrder κ] {key : α → κ} {range : List α} {k : κ}

/-- The elements between the bounds of a key are those with this key. -/
theorem takeWhile_lowerBound (hsorted : range.Pairwise fun a b => key a ≤ key b) :
    (lowerBound (fun a => decide (key a < k)) range).takeWhile (fun a => !decide (k < key a)) =
      range.filter fun a => decide (key a = k) := by
  unfold lowerBound
  induction range with
  | nil => rfl
  | cons a range ih =>
      rw [List.pairwise_cons] at hsorted
      obtain ⟨hfirst, hrest⟩ := hsorted
      rcases lt_trichotomy (key a) k with hlt | heq | hgt
      · rw [List.dropWhile_cons_of_pos (by simpa using hlt), List.filter_cons_of_neg]
        · exact ih hrest
        · simpa using ne_of_lt hlt
      · have hnot : ¬((fun b => decide (key b < k)) a = true) := by simp [heq]
        have hskip : range.dropWhile (fun b => decide (key b < k)) = range := by
          cases range with
          | nil => rfl
          | cons b range =>
              apply List.dropWhile_cons_of_neg
              have hle := hfirst b List.mem_cons_self
              rw [heq] at hle
              simpa using hle
        have htail := ih hrest
        rw [hskip] at htail
        rw [List.dropWhile_cons_of_neg (p := fun b => decide (key b < k)) hnot,
          List.takeWhile_cons_of_pos (by simp [heq]), htail,
          List.filter_cons_of_pos (by simp [heq])]
      · -- every element from here on is after the key
        have hafter : ∀ b ∈ a :: range, k < key b := by
          intro b hb
          rcases List.mem_cons.mp hb with rfl | hmem
          · exact hgt
          · exact lt_of_lt_of_le hgt (hfirst b hmem)
        have hnone : (a :: range).filter (fun b => decide (key b = k)) = [] := by
          rw [List.filter_eq_nil_iff]
          intro b hb
          simpa using (ne_of_gt (hafter b hb))
        rw [hnone, List.dropWhile_cons_of_neg (by simpa using hgt.le),
          List.takeWhile_cons_of_neg (by simpa using hgt)]

/-- The same for a loop that stops at the first element with another key. -/
theorem takeWhile_lowerBound_eq (hsorted : range.Pairwise fun a b => key a ≤ key b) :
    (lowerBound (fun a => decide (key a < k)) range).takeWhile (fun a => key a == k) =
      range.filter fun a => decide (key a = k) := by
  rw [← takeWhile_lowerBound hsorted]
  have hsuffix : ∀ a ∈ lowerBound (fun a => decide (key a < k)) range,
      (key a == k) = !decide (k < key a) := by
    intro a ha
    have hle : k ≤ key a := by
      unfold lowerBound at ha
      induction range with
      | nil => cases ha
      | cons b range ih =>
          rw [List.pairwise_cons] at hsorted
          by_cases hb : key b < k
          · rw [List.dropWhile_cons_of_pos (by simpa using hb)] at ha
            exact ih hsorted.2 ha
          · rw [List.dropWhile_cons_of_neg (by simpa using hb)] at ha
            rcases List.mem_cons.mp ha with rfl | hmem
            · exact not_lt.mp hb
            · exact (not_lt.mp hb).trans (hsorted.1 a hmem)
    rcases hle.eq_or_lt with heq | hlt
    · simp [heq]
    · simp [hlt, hlt.ne']
  generalize lowerBound (fun a => decide (key a < k)) range = suffix at hsuffix
  induction suffix with
  | nil => rfl
  | cons a suffix ih =>
      rw [List.takeWhile_cons, List.takeWhile_cons, hsuffix a List.mem_cons_self,
        ih fun b hb => hsuffix b (List.mem_cons_of_mem _ hb)]

/-- A search for a key finds the first of the elements with it. -/
theorem head?_lowerBound (hsorted : range.Pairwise fun a b => key a ≤ key b) :
    (lowerBound (fun a => decide (key a < k)) range).head?.filter (fun a => key a == k) =
      (range.filter fun a => decide (key a = k)).head? := by
  rw [← takeWhile_lowerBound_eq hsorted]
  cases lowerBound (fun a => decide (key a < k)) range with
  | nil => rfl
  | cons a suffix =>
      rw [List.takeWhile_cons, List.head?_cons, Option.filter_some]
      split <;> rfl

/-- The one element with a key, where keys are distinct. -/
theorem head?_lowerBound_eq_some (hsorted : range.Pairwise fun a b => key a < key b) {a : α} :
    (lowerBound (fun a => decide (key a < k)) range).head?.filter (fun a => key a == k) = some a ↔
      a ∈ range ∧ key a = k := by
  rw [head?_lowerBound (hsorted.imp fun hlt => le_of_lt hlt)]
  constructor
  · intro h
    have hmem := List.mem_of_head? h
    rw [List.mem_filter, decide_eq_true_iff] at hmem
    exact hmem
  · rintro ⟨hmem, hkey⟩
    have hfilter : a ∈ range.filter fun a => decide (key a = k) := by
      rw [List.mem_filter, decide_eq_true_iff]
      exact ⟨hmem, hkey⟩
    cases hrange : range.filter fun a => decide (key a = k) with
    | nil => simp [hrange] at hfilter
    | cons b rest =>
        -- two elements with the key would be ordered by it
        have hpair := hsorted.filter fun a => decide (key a = k)
        have hb : b ∈ range.filter fun a => decide (key a = k) := by simp [hrange]
        rw [List.mem_filter, decide_eq_true_iff] at hb
        rw [hrange] at hpair hfilter
        rcases List.mem_cons.mp hfilter with rfl | hrest
        · rfl
        · have hlt := (List.pairwise_cons.mp hpair).1 a hrest
          rw [hb.2, hkey] at hlt
          exact absurd hlt (lt_irrefl k)

/-- What `std::upper_bound` leaves of a range is what is behind the elements before it. -/
theorem length_upperBound (after : α → Bool) :
    range.length - (upperBound after range).length =
      (range.takeWhile fun a => !after a).length := by
  have hparts := congrArg List.length
    (List.takeWhile_append_dropWhile (p := fun a => !after a) (l := range))
  rw [List.length_append] at hparts
  unfold upperBound
  omega

end Sorted

section Position

variable [LinearOrder κ] {l : List κ} {k : κ} {before : κ → Bool}

/-- What is before a lower bound and what is from it on, around a value of the range. -/
theorem exists_split_lowerBound (hbefore : ∀ a, before a = true ↔ a < k)
    (hsorted : l.Pairwise (· < ·)) (hk : k ∈ l) :
    ∃ l₁ l₂, l = l₁ ++ k :: l₂ ∧ lowerBound before l = k :: l₂ := by
  obtain ⟨l₁, l₂, rfl⟩ := List.append_of_mem hk
  refine ⟨l₁, l₂, rfl, ?_⟩
  have hskip : ∀ a ∈ l₁, before a = true := by
    intro a ha
    rw [hbefore]
    exact (List.pairwise_append.mp hsorted).2.2 a ha k List.mem_cons_self
  have hstop : ¬before k = true := by
    rw [hbefore]
    exact lt_irrefl k
  unfold lowerBound
  rw [List.dropWhile_append_of_pos hskip, List.dropWhile_cons_of_neg hstop]

/-- The position that `std::lower_bound` returns for a value of the range. -/
theorem getElem?_lowerBound (hbefore : ∀ a, before a = true ↔ a < k)
    (hsorted : l.Pairwise (· < ·)) (hk : k ∈ l) :
    l[l.length - (lowerBound before l).length]? = some k := by
  obtain ⟨l₁, l₂, hl, hbound⟩ := exists_split_lowerBound hbefore hsorted hk
  rw [hbound, hl, List.length_append, Nat.add_sub_cancel]
  simp

end Position

section Unique

variable [LinearOrder κ]

/-- `std::unique` of a sorted range keeps one of each value. -/
theorem mem_destutter {l : List κ} (hsorted : l.Pairwise (· ≤ ·)) {k : κ} :
    k ∈ l.destutter (· ≠ ·) ↔ k ∈ l := by
  rw [hsorted.destutter_eq_dedup, List.mem_dedup]

theorem nodup_destutter {l : List κ} (hsorted : l.Pairwise (· ≤ ·)) :
    (l.destutter (· ≠ ·)).Nodup := by
  rw [hsorted.destutter_eq_dedup]
  exact l.nodup_dedup

theorem pairwise_lt_destutter {l : List κ} (hsorted : l.Pairwise (· ≤ ·)) :
    (l.destutter (· ≠ ·)).Pairwise (· < ·) := by
  have hle : (l.destutter (· ≠ ·)).Pairwise (· ≤ ·) := hsorted.sublist (List.destutter_sublist _ l)
  exact hle.imp₂ (fun _ _ => lt_of_le_of_ne) (nodup_destutter hsorted)

/-- Sorted and without duplicates: `std::sort`, and `erase` from what `std::unique` returns. -/
def sortUnique (l : List κ) : List κ := (l.insertionSort (· ≤ ·)).destutter (· ≠ ·)

theorem mem_sortUnique {l : List κ} {k : κ} : k ∈ sortUnique l ↔ k ∈ l := by
  rw [sortUnique, mem_destutter (List.pairwise_insertionSort (· ≤ ·) l), List.mem_insertionSort]

theorem pairwise_sortUnique (l : List κ) : (sortUnique l).Pairwise (· < ·) :=
  pairwise_lt_destutter (List.pairwise_insertionSort (· ≤ ·) l)

/-- `std::binary_search`: the value from which `std::lower_bound` returns is not after it. -/
def binarySearch (range : List κ) (value : κ) : Bool :=
  (lowerBound (fun a => decide (a < value)) range).head?.any fun a => !decide (value < a)

theorem binarySearch_iff {range : List κ} (hsorted : range.Pairwise (· < ·)) {value : κ} :
    binarySearch range value = true ↔ value ∈ range := by
  have hfind : ((lowerBound (fun a => decide (a < value)) range).head?.filter fun a => a == value) =
      some value ↔ value ∈ range ∧ value = value := head?_lowerBound_eq_some hsorted
  rw [Option.filter_eq_some_iff] at hfind
  unfold binarySearch
  constructor
  · intro h
    cases hhead : (lowerBound (fun a => decide (a < value)) range).head? with
    | none => simp [hhead] at h
    | some a =>
        -- the bound is neither before nor after the value
        have hnot := List.head?_dropWhile_not (fun a => decide (a < value)) range
        unfold lowerBound at hhead
        rw [hhead] at hnot
        simp only [lowerBound, hhead, Option.any_some, Bool.not_eq_true', decide_eq_false_iff_not,
          not_lt] at h hnot
        have heq : a = value := le_antisymm h (by simpa using hnot)
        rw [← heq]
        exact (List.dropWhile_sublist _).mem (List.mem_of_head? hhead)
  · intro h
    obtain ⟨hhead, -⟩ := hfind.mpr ⟨h, rfl⟩
    simp [hhead]

end Unique

section Lists

variable [LinearOrder κ]

/-- Two strictly sorted ranges with the same elements are equal. -/
theorem eq_of_pairwise_key {key : α → κ} {l l' : List α} (hl : l.Pairwise fun a b => key a < key b)
    (hl' : l'.Pairwise fun a b => key a < key b) (hmem : ∀ a, a ∈ l ↔ a ∈ l') : l = l' := by
  have hne : ∀ {a b}, key a < key b → a ≠ b := by
    rintro a b hlt rfl
    exact lt_irrefl _ hlt
  have hnodup : l.Nodup := hl.imp hne
  have hnodup' : l'.Nodup := hl'.imp hne
  have hperm : l.Perm l' := (List.perm_ext_iff_of_nodup hnodup hnodup').mpr hmem
  refine hperm.eq_of_pairwise ?_ hl hl'
  intro a b _ _ hab hba
  exact absurd (hab.trans hba) (lt_irrefl _)

end Lists

end DuckdbLerobot.Library
