import Mathlib.Data.List.Sort
import Mathlib.Order.Basic

/-!
# Groups in an ordered map

`groupBy` is the loop `for (a : l) groups[key(a)].push_back(a)` over a `std::map`, where an element
without a key is skipped. Its groups are in key order, and the group of a key has the elements with
this key, in their order (`groupBy_spec`).
-/

set_option autoImplicit false

namespace DuckdbLerobot.Library

universe u v

variable {α : Type u} {κ : Type v} [LinearOrder κ]

/-- `groups[key].push_back(a)`. -/
def pushBack (key : κ) (a : α) : List (κ × List α) → List (κ × List α)
  | [] => [(key, [a])]
  | (key', group) :: groups =>
      if key < key' then (key, [a]) :: (key', group) :: groups
      else if key = key' then (key', group ++ [a]) :: groups
      else (key', group) :: pushBack key a groups

/-- The loop at one element. -/
def addToGroup (key : α → Option κ) (groups : List (κ × List α)) (a : α) : List (κ × List α) :=
  match key a with
  | none => groups
  | some k => pushBack k a groups

/-- The groups of a list. -/
def groupBy (key : α → Option κ) (l : List α) : List (κ × List α) := l.foldl (addToGroup key) []

/-- What the loop has built of the elements so far. -/
structure GroupsOf (key : α → Option κ) (seen : List α) (groups : List (κ × List α)) : Prop where
  sorted : groups.Pairwise fun g g' => g.1 < g'.1
  group : ∀ g ∈ groups, g.2 = seen.filter (fun a => decide (key a = some g.1)) ∧ g.2 ≠ []
  covered : ∀ a ∈ seen, ∀ k, key a = some k → ∃ g ∈ groups, g.1 = k

section PushBack

variable {k : κ} {a : α} {groups : List (κ × List α)}

/-- The groups after `push_back`, when there was none of the key. -/
theorem mem_pushBack_new (hnew : ∀ g ∈ groups, g.1 ≠ k) {g : κ × List α} :
    g ∈ pushBack k a groups ↔ g = (k, [a]) ∨ g ∈ groups := by
  induction groups with
  | nil => simp [pushBack]
  | cons g' groups ih =>
      obtain ⟨k', group⟩ := g'
      have hne : k ≠ k' := fun heq => hnew (k', group) List.mem_cons_self heq.symm
      rw [pushBack]
      split
      · exact List.mem_cons
      · rw [List.mem_cons, List.mem_cons,
          ih fun g hg => hnew g (List.mem_cons_of_mem _ hg)]
        exact or_left_comm

/-- The groups after `push_back`, when there was one of the key. -/
theorem mem_pushBack_old (hsorted : groups.Pairwise fun g g' => g.1 < g'.1) {old : List α}
    (hold : (k, old) ∈ groups) {g : κ × List α} :
    g ∈ pushBack k a groups ↔ g = (k, old ++ [a]) ∨ (g ∈ groups ∧ g.1 ≠ k) := by
  induction groups with
  | nil => cases hold
  | cons g' groups ih =>
      obtain ⟨k', group⟩ := g'
      rw [List.pairwise_cons] at hsorted
      rw [pushBack]
      rcases List.mem_cons.mp hold with heq | hmem
      · obtain ⟨rfl, rfl⟩ := Prod.mk.inj heq
        rw [if_neg (lt_irrefl k), if_pos rfl, List.mem_cons, List.mem_cons]
        -- the other keys are greater
        constructor
        · rintro (rfl | hg)
          · exact .inl rfl
          · exact .inr ⟨.inr hg, (hsorted.1 g hg).ne'⟩
        · rintro (rfl | ⟨rfl | hg, hne⟩)
          · exact .inl rfl
          · exact absurd rfl hne
          · exact .inr hg
      · have hlt : k' < k := hsorted.1 _ hmem
        rw [if_neg hlt.not_gt, if_neg hlt.ne', List.mem_cons, List.mem_cons, ih hsorted.2 hmem]
        constructor
        · rintro (rfl | rfl | ⟨hg, hne⟩)
          · exact .inr ⟨.inl rfl, hlt.ne⟩
          · exact .inl rfl
          · exact .inr ⟨.inr hg, hne⟩
        · rintro (rfl | ⟨rfl | hg, hne⟩)
          · exact .inr (.inl rfl)
          · exact .inl rfl
          · exact .inr (.inr ⟨hg, hne⟩)

/-- A key of the groups after `push_back`. -/
theorem fst_of_mem_pushBack {g : κ × List α} (hg : g ∈ pushBack k a groups) :
    g.1 = k ∨ ∃ g' ∈ groups, g'.1 = g.1 := by
  induction groups with
  | nil =>
      obtain rfl := List.mem_singleton.mp hg
      exact .inl rfl
  | cons g' groups ih =>
      obtain ⟨k', group⟩ := g'
      rw [pushBack] at hg
      split at hg
      · rcases List.mem_cons.mp hg with rfl | hmem
        · exact .inl rfl
        · exact .inr ⟨g, hmem, rfl⟩
      · split at hg
        · rename_i heq
          rcases List.mem_cons.mp hg with rfl | hmem
          · exact .inl heq.symm
          · exact .inr ⟨g, List.mem_cons_of_mem _ hmem, rfl⟩
        · rcases List.mem_cons.mp hg with rfl | hmem
          · exact .inr ⟨_, List.mem_cons_self, rfl⟩
          · rcases ih hmem with hk | ⟨g'', hg'', heq⟩
            · exact .inl hk
            · exact .inr ⟨g'', List.mem_cons_of_mem _ hg'', heq⟩

theorem sorted_pushBack (hsorted : groups.Pairwise fun g g' => g.1 < g'.1) :
    (pushBack k a groups).Pairwise fun g g' => g.1 < g'.1 := by
  induction groups with
  | nil => exact List.pairwise_singleton _ _
  | cons g groups ih =>
      obtain ⟨k', group⟩ := g
      obtain ⟨hhead, htail⟩ := List.pairwise_cons.mp hsorted
      rw [pushBack]
      split
      · rename_i hlt
        refine List.pairwise_cons.mpr ⟨?_, hsorted⟩
        intro g hg
        rcases List.mem_cons.mp hg with rfl | hmem
        · exact hlt
        · exact hlt.trans (hhead g hmem)
      · rename_i hnlt
        split
        · exact List.pairwise_cons.mpr ⟨hhead, htail⟩
        · rename_i hne
          refine List.pairwise_cons.mpr ⟨?_, ih htail⟩
          intro g hg
          rcases fst_of_mem_pushBack hg with hk | ⟨g', hg', heq⟩
          · exact hk ▸ lt_of_le_of_ne (not_lt.mp hnlt) (Ne.symm hne)
          · exact heq ▸ hhead g' hg'

end PushBack

/-- One round of the loop. -/
theorem GroupsOf.addToGroup {key : α → Option κ} {seen : List α} {groups : List (κ × List α)}
    (h : GroupsOf key seen groups) (a : α) :
    GroupsOf key (seen ++ [a]) (addToGroup key groups a) := by
  have hfilter : ∀ k, (seen ++ [a]).filter (fun b => decide (key b = some k)) =
      seen.filter (fun b => decide (key b = some k)) ++ if key a = some k then [a] else [] := by
    intro k
    rw [List.filter_append]
    by_cases hk : key a = some k <;> simp [hk]
  unfold Library.addToGroup
  cases hkey : key a with
  | none =>
      refine ⟨h.sorted, ?_, ?_⟩
      · intro g hg
        rw [hfilter, hkey, if_neg (by simp), List.append_nil]
        exact h.group g hg
      · intro b hb k hk
        rcases List.mem_append.mp hb with hmem | hlast
        · exact h.covered b hmem k hk
        · obtain rfl := List.mem_singleton.mp hlast
          rw [hkey] at hk
          cases hk
  | some k =>
      have hmem : ∀ g, g ∈ pushBack k a groups ↔
          g = (k, seen.filter (fun b => decide (key b = some k)) ++ [a]) ∨
            (g ∈ groups ∧ g.1 ≠ k) := by
        intro g
        by_cases hold : ∃ g ∈ groups, g.1 = k
        · obtain ⟨⟨k', old⟩, hg, rfl⟩ := hold
          have hgroup := (h.group _ hg).1
          dsimp only at hgroup
          rw [mem_pushBack_old h.sorted hg, hgroup]
        · have hnew : ∀ g ∈ groups, g.1 ≠ k := fun g hg heq => hold ⟨g, hg, heq⟩
          have hnil : seen.filter (fun b => decide (key b = some k)) = [] := by
            apply List.filter_eq_nil_iff.mpr
            intro b hb hk
            exact hold (h.covered b hb k (of_decide_eq_true hk))
          rw [mem_pushBack_new hnew, hnil, List.nil_append]
          constructor
          · exact Or.imp_right fun hg => ⟨hg, hnew g hg⟩
          · exact Or.imp_right And.left
      refine ⟨sorted_pushBack h.sorted, ?_, ?_⟩
      · intro g hg
        rcases (hmem g).mp hg with rfl | ⟨hold, hne⟩
        · refine ⟨?_, by simp⟩
          rw [hfilter, hkey, if_pos rfl]
        · rw [hfilter, hkey, if_neg fun heq => hne (Option.some.inj heq).symm, List.append_nil]
          exact h.group g hold
      · intro b hb k' hk'
        by_cases heq : k' = k
        · subst heq
          exact ⟨_, (hmem _).mpr (.inl rfl), rfl⟩
        · rcases List.mem_append.mp hb with hseen | hlast
          · obtain ⟨g, hg, hfst⟩ := h.covered b hseen k' hk'
            exact ⟨g, (hmem g).mpr (.inr ⟨hg, hfst ▸ heq⟩), hfst⟩
          · obtain rfl := List.mem_singleton.mp hlast
            rw [hkey] at hk'
            exact absurd (Option.some.inj hk').symm heq

/-- **The groups of a list**, in key order. -/
theorem groupBy_spec (key : α → Option κ) (l : List α) : GroupsOf key l (groupBy key l) := by
  suffices h : ∀ (rest seen : List α) (groups : List (κ × List α)), GroupsOf key seen groups →
      GroupsOf key (seen ++ rest) (rest.foldl (Library.addToGroup key) groups) by
    exact h l [] [] ⟨.nil, by simp, by simp⟩
  intro rest
  induction rest with
  | nil =>
      intro seen groups hgroups
      rwa [List.append_nil]
  | cons a rest ih =>
      intro seen groups hgroups
      rw [List.foldl_cons, List.append_cons]
      exact ih _ _ (hgroups.addToGroup a)

theorem pushBack_perm (key : κ) (a : α) (groups : List (κ × List α)) :
    ((pushBack key a groups).flatMap Prod.snd).Perm (a :: groups.flatMap Prod.snd) := by
  induction groups with
  | nil => exact List.Perm.refl _
  | cons g groups ih =>
      obtain ⟨key', group⟩ := g
      rw [pushBack]
      split
      · exact List.Perm.refl _
      · split
        · rw [List.flatMap_cons, List.flatMap_cons, List.append_assoc]
          exact List.perm_middle
        · rw [List.flatMap_cons, List.flatMap_cons]
          exact (ih.append_left group).trans List.perm_middle

/-- **The groups have the elements with a key**, each once. -/
theorem groupBy_perm (key : α → Option κ) (l : List α) :
    ((groupBy key l).flatMap Prod.snd).Perm (l.filter fun a => (key a).isSome) := by
  suffices h : ∀ groups : List (κ × List α),
      ((l.foldl (addToGroup key) groups).flatMap Prod.snd).Perm
        (groups.flatMap Prod.snd ++ l.filter fun a => (key a).isSome) from h []
  induction l with
  | nil =>
      intro groups
      rw [List.filter_nil, List.append_nil]
      exact List.Perm.refl _
  | cons a l ih =>
      intro groups
      rw [List.foldl_cons]
      refine (ih _).trans ?_
      unfold addToGroup
      cases hkey : key a with
      | none => rw [List.filter_cons_of_neg (by simp [hkey])]
      | some k =>
          rw [List.filter_cons_of_pos (by simp [hkey])]
          exact ((pushBack_perm k a groups).append_right _).trans List.perm_middle.symm

end DuckdbLerobot.Library
