import Mathlib.Algebra.BigOperators.Group.List.Basic
import Mathlib.Algebra.BigOperators.Ring.List
import Mathlib.Algebra.Order.BigOperators.Group.List
import Mathlib.Algebra.Order.Field.Basic
import Mathlib.Data.List.MinMax
import Mathlib.Tactic.FieldSimp
import Mathlib.Tactic.Linarith
import Mathlib.Tactic.Positivity
import Mathlib.Tactic.Ring

/-!
# The mean and the variance of a population

A population is a list of numbers, and its variance is the mean of the squared deviations from its mean.
`sum_sq_sub` relates the deviations from any number to these two; the formula with the mean of the
squares (`variance_eq`) and the law for two populations (`variance_append`) are cases of it.
-/

set_option autoImplicit false

namespace DuckdbLerobot.Library

universe u

variable {α : Type u} [Field α]

/-- The mean of a population. -/
def mean (population : List α) : α := population.sum / population.length

/-- The variance of a population. -/
def variance (population : List α) : α :=
  (population.map fun x => (x - mean population) ^ 2).sum / population.length

theorem mean_singleton (x : α) : mean [x] = x := by simp [mean]

theorem variance_singleton (x : α) : variance [x] = 0 := by simp [variance, mean]

/-- The squared distances to a number `c`, by the ones to another number. -/
theorem sum_sq_sub_eq (c center : α) (population : List α) :
    (population.map fun x => (x - c) ^ 2).sum =
      (population.map fun x => (x - center) ^ 2).sum +
        (center - c) * (2 * population.sum - population.length * (center + c)) := by
  induction population with
  | nil => simp
  | cons x population ih =>
      simp only [List.map_cons, List.sum_cons, List.length_cons, ih, Nat.cast_add, Nat.cast_one]
      ring

section CharZero

variable [CharZero α] {population xs ys : List α}

theorem length_ne_zero (h : population ≠ []) : (population.length : α) ≠ 0 :=
  Nat.cast_ne_zero.mpr (mt List.length_eq_zero_iff.mp h)

theorem length_mul_mean (population : List α) :
    population.length * mean population = population.sum := by
  by_cases hnil : population = []
  · simp [hnil]
  · exact mul_div_cancel₀ _ (length_ne_zero hnil)

theorem length_mul_variance (population : List α) :
    population.length * variance population =
      (population.map fun x => (x - mean population) ^ 2).sum := by
  by_cases hnil : population = []
  · simp [hnil]
  · exact mul_div_cancel₀ _ (length_ne_zero hnil)

/-- **The squared distances to a number.** -/
theorem sum_sq_sub (c : α) (population : List α) :
    (population.map fun x => (x - c) ^ 2).sum =
      population.length * (variance population + (mean population - c) ^ 2) := by
  calc (population.map fun x => (x - c) ^ 2).sum
      = (population.map fun x => (x - mean population) ^ 2).sum + (mean population - c) *
          (2 * population.sum - population.length * (mean population + c)) :=
        sum_sq_sub_eq c (mean population) population
    _ = population.length * variance population + (mean population - c) *
          (2 * (population.length * mean population) - population.length * (mean population + c)) := by
        rw [length_mul_variance, length_mul_mean]
    _ = population.length * (variance population + (mean population - c) ^ 2) := by ring

/-- The variance is the mean of the squares less the square of the mean. -/
theorem variance_eq (h : population ≠ []) :
    variance population =
      (population.map fun x => x * x).sum / population.length - mean population * mean population := by
  have hsquares := sum_sq_sub 0 population
  simp only [sub_zero, pow_two] at hsquares
  rw [hsquares, mul_div_cancel_left₀ _ (length_ne_zero h), add_sub_cancel_right]

/-- The mean of two populations is the mean of their means, weighted by their sizes. -/
theorem mean_append (xs ys : List α) :
    mean (xs ++ ys) =
      (mean xs * xs.length + mean ys * ys.length) / ((xs.length : α) + ys.length) := by
  rw [mul_comm (mean xs), mul_comm (mean ys), length_mul_mean, length_mul_mean, mean,
    List.sum_append, List.length_append, Nat.cast_add]

/-- The variance of two populations: within them, and between their means. -/
theorem variance_append (xs ys : List α) :
    variance (xs ++ ys) =
      ((variance xs + (mean xs - mean (xs ++ ys)) ^ 2) * xs.length +
        (variance ys + (mean ys - mean (xs ++ ys)) ^ 2) * ys.length) /
          ((xs.length : α) + ys.length) := by
  rw [variance, List.map_append, List.sum_append, sum_sq_sub, sum_sq_sub, List.length_append,
    Nat.cast_add, mul_comm (xs.length : α), mul_comm (ys.length : α)]

end CharZero

theorem variance_nonneg [LinearOrder α] [IsStrictOrderedRing α] (population : List α) :
    0 ≤ variance population := by
  apply div_nonneg
  · apply List.sum_nonneg
    intro square hsquare
    obtain ⟨x, -, rfl⟩ := List.mem_map.mp hsquare
    positivity
  · positivity

section Extremes

variable {β : Type u} [LinearOrder β] {xs ys : List β}

/-- The minimum of two populations. -/
theorem minimum_append (xs ys : List β) : (xs ++ ys).minimum = min xs.minimum ys.minimum := by
  induction xs with
  | nil => simp
  | cons x xs ih => rw [List.cons_append, List.minimum_cons, ih, List.minimum_cons, min_assoc]

/-- The maximum of two populations. -/
theorem maximum_append (xs ys : List β) : (xs ++ ys).maximum = max xs.maximum ys.maximum := by
  induction xs with
  | nil => simp
  | cons x xs ih => rw [List.cons_append, List.maximum_cons, ih, List.maximum_cons, max_assoc]

/-- The minimum of a population that is not empty is a number. -/
theorem exists_minimum (h : xs ≠ []) : ∃ m : β, xs.minimum = m :=
  (WithTop.ne_top_iff_exists.mp (List.minimum_ne_top_of_ne_nil h)).imp fun _ hm => hm.symm

/-- The maximum of a population that is not empty is a number. -/
theorem exists_maximum (h : xs ≠ []) : ∃ m : β, xs.maximum = m :=
  (WithBot.ne_bot_iff_exists.mp (List.maximum_ne_bot_of_ne_nil h)).imp fun _ hm => hm.symm

/-- The minimum is the least element. -/
theorem isLeast_minimum (h : xs ≠ []) (d : β) : IsLeast {x | x ∈ xs} (xs.minimum.untopD d) := by
  obtain ⟨m, hm⟩ := exists_minimum h
  rw [hm, WithTop.untopD_coe]
  exact ⟨List.minimum_mem hm, fun x hx => List.minimum_le_of_mem hx hm⟩

/-- The maximum is the greatest element. -/
theorem isGreatest_maximum (h : xs ≠ []) (d : β) :
    IsGreatest {x | x ∈ xs} (xs.maximum.unbotD d) := by
  obtain ⟨m, hm⟩ := exists_maximum h
  rw [hm, WithBot.unbotD_coe]
  exact ⟨List.maximum_mem hm, fun x hx => List.le_maximum_of_mem hx hm⟩

theorem untopD_minimum_append (hxs : xs ≠ []) (hys : ys ≠ []) (d : β) :
    (xs ++ ys).minimum.untopD d = min (xs.minimum.untopD d) (ys.minimum.untopD d) := by
  obtain ⟨x, hx⟩ := exists_minimum hxs
  obtain ⟨y, hy⟩ := exists_minimum hys
  rw [minimum_append, hx, hy, ← WithTop.coe_min]
  simp only [WithTop.untopD_coe]

theorem unbotD_maximum_append (hxs : xs ≠ []) (hys : ys ≠ []) (d : β) :
    (xs ++ ys).maximum.unbotD d = max (xs.maximum.unbotD d) (ys.maximum.unbotD d) := by
  obtain ⟨x, hx⟩ := exists_maximum hxs
  obtain ⟨y, hy⟩ := exists_maximum hys
  rw [maximum_append, hx, hy, ← WithBot.coe_max]
  simp only [WithBot.unbotD_coe]

end Extremes

end DuckdbLerobot.Library
