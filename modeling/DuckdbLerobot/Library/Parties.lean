import Mathlib.Algebra.BigOperators.Group.Finset.Basic
import Mathlib.Data.Multiset.Bind
import Mathlib.Data.Finset.Range

/-!
# Families of parties

A system with `n` parties keeps their local states in a function of the party's number. A step of
one party updates that function at one point; a quantity summed over the parties then changes by
that party's share only.
-/

set_option autoImplicit false

namespace DuckdbLerobot.Library

universe u v

variable {α : Type u} {M : Type v} [AddCommMonoid M]

/-- The share of one party, and the common rest before and after that party's step. -/
theorem sum_range_update_split (f : Nat → α) (g : α → M) {n i : Nat} (hi : i < n) (a : α) :
    ∃ rest, ∑ j ∈ Finset.range n, g (f j) = g (f i) + rest ∧
      ∑ j ∈ Finset.range n, g (Function.update f i a j) = g a + rest := by
  have hmem : i ∈ Finset.range n := Finset.mem_range.mpr hi
  refine ⟨∑ j ∈ (Finset.range n).erase i, g (f j), ?_, ?_⟩
  · exact (Finset.add_sum_erase _ _ hmem).symm
  · rw [← Finset.add_sum_erase _ _ hmem, Function.update_self]
    congr 1
    refine Finset.sum_congr rfl fun j hj => ?_
    rw [Function.update_of_ne (Finset.ne_of_mem_erase hj)]

/-- A step that keeps the share of its party keeps the sum. -/
theorem sum_range_update_eq (f : Nat → α) (g : α → M) {n i : Nat} (hi : i < n) {a : α}
    (ha : g a = g (f i)) :
    ∑ j ∈ Finset.range n, g (Function.update f i a j) = ∑ j ∈ Finset.range n, g (f j) := by
  obtain ⟨rest, hold, hnew⟩ := sum_range_update_split f g hi a
  rw [hold, hnew, ha]

/-- What holds of the party that takes a step and of every other one. -/
theorem update_cases {f : Nat → α} {P : Nat → α → Prop} {i : Nat} {a : α} (ha : P i a)
    (hf : ∀ j, j ≠ i → P j (f j)) (j : Nat) : P j (Function.update f i a j) := by
  by_cases hj : j = i
  · subst hj
    rwa [Function.update_self]
  · rw [Function.update_of_ne hj]
    exact hf j hj

/-- What holds of every party still does after a step of one, if it holds of that one. -/
theorem forall_update {f : Nat → α} {P : Nat → α → Prop} {i : Nat} {a : α}
    (hf : ∀ j, P j (f j)) (ha : P i a) (j : Nat) : P j (Function.update f i a j) :=
  update_cases ha (fun j _ => hf j) j

/-- A view of the parties follows a step of one. -/
theorem view_update {β : Type v} (view : α → β) (f : Nat → α) (i : Nat) (a : α) :
    (fun j => view (Function.update f i a j)) = Function.update (fun j => view (f j)) i (view a) :=
  funext fun j => Function.apply_update (fun _ => view) f i a j

/-- A step that its party's view does not show. -/
theorem view_update_eq {β : Type v} (view : α → β) (f : Nat → α) (i : Nat) (a : α)
    (ha : view a = view (f i)) :
    (fun j => view (Function.update f i a j)) = fun j => view (f j) := by
  rw [view_update, ha]
  exact Function.update_eq_self i _

/-- The same, at one party. -/
theorem view_update_apply {β : Type v} (view : α → β) (f : Nat → α) {i : Nat} {a : α}
    (ha : view a = view (f i)) (j : Nat) : view (Function.update f i a j) = view (f j) :=
  congrFun (view_update_eq view f i a ha) j

/-- Parties beyond a bound that have no share may be counted too. -/
theorem sum_range_extend (share : Nat → M) {n m : Nat} (hnm : n ≤ m)
    (hzero : ∀ i, n ≤ i → share i = 0) :
    ∑ i ∈ Finset.range m, share i = ∑ i ∈ Finset.range n, share i := by
  symm
  apply Finset.sum_subset (Finset.range_mono hnm)
  intro i _ hi
  apply hzero
  simpa using hi

/-- `Multiset.bind` over a sum of shares. -/
theorem sum_bind {ι : Type} {β : Type v} (s : Finset ι) (share : ι → Multiset α)
    (f : α → Multiset β) : (∑ i ∈ s, share i).bind f = ∑ i ∈ s, (share i).bind f := by
  classical
  induction s using Finset.induction_on with
  | empty => simp
  | insert i s hi ih => rw [Finset.sum_insert hi, Finset.sum_insert hi, Multiset.add_bind, ih]

/-! ## Exclusive resources -/

/-- Resources in use, each of them held by one party. A party holds one resource at most. -/
structure OwnedBy {β : Type v} (inUse : Finset β) (held : Nat → Option β) : Prop where
  inUse : ∀ b, b ∈ inUse ↔ ∃ i, held i = some b
  exclusive : ∀ i j b, held i = some b → held j = some b → i = j

section OwnedBy

variable {β : Type v} [DecidableEq β] {inUse : Finset β} {held : Nat → Option β}

omit [DecidableEq β] in
theorem ownedBy_none : OwnedBy (∅ : Finset β) fun _ => none where
  inUse b := by simp
  exclusive i j b hi := by cases hi

/-- A party takes a resource that is not in use. -/
theorem OwnedBy.take (h : OwnedBy inUse held) {i : Nat} {b : β} (hnone : held i = none)
    (hfree : b ∉ inUse) : OwnedBy (insert b inUse) (Function.update held i (some b)) := by
  have hother {j : Nat} {c : β} (hj : Function.update held i (some b) j = some c) :
      j = i ∧ c = b ∨ j ≠ i ∧ held j = some c := by
    by_cases hji : j = i
    · rw [hji, Function.update_self] at hj
      exact .inl ⟨hji, (Option.some.inj hj).symm⟩
    · rw [Function.update_of_ne hji] at hj
      exact .inr ⟨hji, hj⟩
  constructor
  · intro c
    rw [Finset.mem_insert]
    constructor
    · rintro (rfl | hmem)
      · exact ⟨i, Function.update_self i _ held⟩
      · obtain ⟨j, hj⟩ := (h.inUse c).mp hmem
        have hji : j ≠ i := by
          rintro rfl
          cases hnone.symm.trans hj
        exact ⟨j, (Function.update_of_ne hji _ held).trans hj⟩
    · rintro ⟨j, hj⟩
      rcases hother hj with ⟨-, rfl⟩ | ⟨-, hj⟩
      · exact .inl rfl
      · exact .inr ((h.inUse c).mpr ⟨j, hj⟩)
  · intro j k c hj hk
    rcases hother hj with ⟨rfl, rfl⟩ | ⟨-, hj'⟩
    · rcases hother hk with ⟨rfl, -⟩ | ⟨-, hk'⟩
      · rfl
      · exact absurd ((h.inUse c).mpr ⟨k, hk'⟩) hfree
    · rcases hother hk with ⟨rfl, rfl⟩ | ⟨-, hk'⟩
      · exact absurd ((h.inUse c).mpr ⟨j, hj'⟩) hfree
      · exact h.exclusive j k c hj' hk'

/-- A party gives its resource back. -/
theorem OwnedBy.giveBack (h : OwnedBy inUse held) {i : Nat} {b : β} (hheld : held i = some b) :
    OwnedBy (inUse.erase b) (Function.update held i none) := by
  have hother {j : Nat} {c : β} : Function.update held i none j = some c ↔ j ≠ i ∧ held j = some c := by
    by_cases hji : j = i
    · simp [hji]
    · simp [hji]
  constructor
  · intro c
    rw [Finset.mem_erase]
    constructor
    · rintro ⟨hne, hmem⟩
      obtain ⟨j, hj⟩ := (h.inUse c).mp hmem
      refine ⟨j, hother.mpr ⟨?_, hj⟩⟩
      rintro rfl
      exact hne (Option.some.inj (hj.symm.trans hheld))
    · rintro ⟨j, hj⟩
      obtain ⟨hji, hj⟩ := hother.mp hj
      refine ⟨?_, (h.inUse c).mpr ⟨j, hj⟩⟩
      rintro rfl
      exact hji (h.exclusive j i c hj hheld)
  · intro j k c hj hk
    exact h.exclusive j k c (hother.mp hj).2 (hother.mp hk).2

end OwnedBy

end DuckdbLerobot.Library
