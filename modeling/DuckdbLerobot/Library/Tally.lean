import Mathlib.Algebra.BigOperators.Group.List.Basic
import Mathlib.Algebra.Order.Ring.Int
import Mathlib.Data.List.Count
import Mathlib.Data.List.Induction
import Mathlib.Data.List.Sort

/-!
# Tallies and order statistics

`tally` counts how often each number occurs in a list, and the first of its counts add up to the number
of elements below a bound (`sum_take_tally`). In a sorted list, a property that holds of an initial part
holds at an index when it holds of more elements than the index says (`getElem_iff_lt_countP`).
-/

set_option autoImplicit false

namespace DuckdbLerobot.Library

universe u

/-! ## Tallies -/

/-- How often each number below `n` occurs in a list. -/
def tally (n : Nat) (bins : List Nat) : List Int :=
  bins.foldl (fun counts bin => counts.modify bin (· + 1)) (List.replicate n 0)

@[simp] theorem length_tally (n : Nat) (bins : List Nat) : (tally n bins).length = n := by
  rw [tally]
  induction bins using List.reverseRecOn with
  | nil => exact List.length_replicate
  | append_singleton bins bin ih => rw [List.foldl_append, List.foldl_cons, List.foldl_nil,
      List.length_modify, ih]

/-- Each count is the number of occurrences. -/
theorem getElem?_tally {n b : Nat} (hb : b < n) (bins : List Nat) :
    (tally n bins)[b]? = some (bins.count b : Int) := by
  rw [tally]
  induction bins using List.reverseRecOn with
  | nil => simp [hb]
  | append_singleton bins bin ih =>
      rw [List.foldl_append, List.foldl_cons, List.foldl_nil, List.count_append]
      by_cases hbin : bin = b
      · subst hbin
        rw [List.getElem?_modify_eq, ih]
        simp
      · rw [List.getElem?_modify_ne _ _ hbin, ih]
        simp [hbin]

/-- The elements up to a number are those below it and its occurrences. -/
theorem countP_lt_succ (bins : List Nat) (b : Nat) :
    bins.countP (· < b + 1) = bins.countP (· < b) + bins.count b := by
  induction bins with
  | nil => rfl
  | cons bin bins ih =>
      simp only [List.countP_cons, List.count_cons, ih, decide_eq_true_eq, beq_iff_eq]
      rcases lt_trichotomy bin b with hlt | heq | hgt
      · rw [if_pos (by omega), if_pos hlt, if_neg (by omega)]
        omega
      · rw [if_pos (by omega), if_neg (by omega), if_pos heq]
        omega
      · rw [if_neg (by omega), if_neg (by omega), if_neg (by omega)]
        omega

/-- **The first counts** add up to the number of elements below a bound. -/
theorem sum_take_tally {n b : Nat} (hb : b ≤ n) (bins : List Nat) :
    ((tally n bins).take b).sum = bins.countP (· < b) := by
  induction b with
  | zero => simp
  | succ b ih =>
      have hlt : b < (tally n bins).length := by
        rw [length_tally]
        exact hb
      have hcount : (tally n bins)[b] = (bins.count b : Int) := by
        have hget := getElem?_tally hb bins
        rw [List.getElem?_eq_getElem hlt] at hget
        exact Option.some.inj hget
      rw [List.take_succ_eq_append_getElem hlt, List.sum_append, ih (by omega), hcount,
        countP_lt_succ]
      simp

/-- All counts together. -/
theorem sum_tally {n : Nat} {bins : List Nat} (h : ∀ bin ∈ bins, bin < n) :
    (tally n bins).sum = bins.length := by
  have hsum := sum_take_tally le_rfl bins (n := n)
  rw [List.take_of_length_le (length_tally n bins).le] at hsum
  rw [hsum, List.countP_eq_length.mpr fun bin hbin => decide_eq_true (h bin hbin)]

/-! ## Order statistics -/

section Sorted

variable {α : Type u} {P : α → Bool} {l : List α}

/-- **A property of an initial part of a list** holds at the indexes below the number of elements that
have it. -/
theorem getElem_iff_lt_countP (hinitial : l.Pairwise fun a b => P b = true → P a = true) {i : Nat}
    (hi : i < l.length) : P l[i] = true ↔ i < l.countP P := by
  induction l generalizing i with
  | nil => exact absurd hi (Nat.not_lt_zero i)
  | cons a l ih =>
      obtain ⟨hfirst, hrest⟩ := List.pairwise_cons.mp hinitial
      by_cases ha : P a = true
      · rw [List.countP_cons_of_pos ha]
        cases i with
        | zero => simp [ha]
        | succ i =>
            rw [List.getElem_cons_succ, ih hrest (Nat.lt_of_succ_lt_succ hi)]
            omega
      · -- no later element has it
        have hnone : l.countP P = 0 :=
          List.countP_eq_zero.mpr fun b hb hPb => ha (hfirst b hb hPb)
        rw [List.countP_cons_of_neg ha, hnone]
        cases i with
        | zero => simp [ha]
        | succ i =>
            have hi' := Nat.lt_of_succ_lt_succ hi
            have hmem : l[i] ∈ l := List.getElem_mem hi'
            rw [List.getElem_cons_succ]
            constructor
            · intro hP
              exact absurd (hfirst _ hmem hP) ha
            · intro hlt
              exact absurd hlt (Nat.not_lt_zero _)

/-- The number of elements with such a property is where a search for the first one without it
stops. -/
theorem length_takeWhile_eq_countP (hinitial : l.Pairwise fun a b => P b = true → P a = true) :
    (l.takeWhile P).length = l.countP P := by
  induction l with
  | nil => rfl
  | cons a l ih =>
      obtain ⟨hfirst, hrest⟩ := List.pairwise_cons.mp hinitial
      by_cases ha : P a = true
      · rw [List.takeWhile_cons_of_pos ha, List.length_cons, ih hrest, List.countP_cons_of_pos ha]
      · have hnone : l.countP P = 0 :=
          List.countP_eq_zero.mpr fun b hb hPb => ha (hfirst b hb hPb)
        rw [List.takeWhile_cons_of_neg ha, List.countP_cons_of_neg ha, hnone]
        rfl

end Sorted

end DuckdbLerobot.Library
