import Mathlib.Data.List.AList
import Mathlib.Data.List.Forall2
import Mathlib.Data.List.Sort
import Mathlib.Data.Prod.Lex

/-!
# Containers of the C++ standard library

Maps with unique keys are Mathlib's `AList`; its entry list is one of the enumeration orders that an
unordered map may have, and the lemmas here speak of entries up to permutation. `StdSort` is a
structure, since `std::sort` leaves the order of equivalent elements open, and so is `AnyOrder`.
-/

set_option autoImplicit false

namespace DuckdbLerobot.Library

universe u v w

/-- An outcome of `std::sort`: a permutation of its input in which no element is less than an
earlier one. -/
structure StdSort {α : Type u} (less : α → α → Bool) where
  run : List α → List α
  perm : ∀ l, (run l).Perm l
  sorted : ∀ l, (run l).Pairwise fun a b => less b a = false

/-- A stable sort by a key. -/
def StdSort.byKey {α : Type u} {κ : Type v} [LinearOrder κ] (key : α → κ) :
    StdSort fun a b => decide (key a < key b) where
  run := List.insertionSort fun a b => key a ≤ key b
  perm := List.perm_insertionSort _
  sorted l := by
    have : Std.Total fun a b : α => key a ≤ key b := ⟨fun a b => le_total (key a) (key b)⟩
    have : IsTrans α fun a b => key a ≤ key b := ⟨fun _ _ _ => le_trans⟩
    exact (List.pairwise_insertionSort _ l).imp fun hle => by simpa using hle

/-- The comparison of two fields, the first one first. -/
theorem toLex_lt_iff_ite {α : Type u} {β : Type v} [LinearOrder α] [LinearOrder β] {a a' : α}
    {b b' : β} : toLex (a, b) < toLex (a', b') ↔ if a ≠ a' then a < a' else b < b' := by
  rw [Prod.Lex.toLex_lt_toLex]
  split
  · rename_i hne
    constructor
    · rintro (hlt | ⟨heq, -⟩)
      · exact hlt
      · exact absurd heq hne
    · exact .inl
  · rename_i heq
    rw [ne_eq, not_not] at heq
    subst heq
    constructor
    · rintro (hlt | ⟨-, hlt⟩)
      · exact absurd hlt (lt_irrefl _)
      · exact hlt
    · exact fun hlt => .inr ⟨rfl, hlt⟩

/-- An order in which the rows of a result can come. -/
structure AnyOrder (α : Type u) where
  run : List α → List α
  perm : ∀ l, (run l).Perm l

/-- The value of a key that occurs once. -/
theorem lookup_of_mem_nodup {α : Type u} {β : Type v} [DecidableEq α] {l : List (α × β)}
    (hnodup : (l.map Prod.fst).Nodup) {a : α} {b : β} (h : (a, b) ∈ l) : l.lookup a = some b := by
  obtain ⟨before, after, rfl⟩ := List.append_of_mem h
  refine List.lookup_eq_some_iff.mpr ⟨before, after, rfl, ?_⟩
  intro entry hentry
  rw [List.map_append, List.nodup_append] at hnodup
  have hne := hnodup.2.2 entry.1 (List.mem_map_of_mem hentry) a (by simp)
  simpa using Ne.symm hne

/-- A key with a value is one of the list. -/
theorem mem_of_lookup {α : Type u} {β : Type v} [DecidableEq α] {l : List (α × β)} {a : α} {b : β}
    (h : l.lookup a = some b) : (a, b) ∈ l := by
  obtain ⟨before, after, rfl, -⟩ := List.lookup_eq_some_iff.mp h
  exact List.mem_append_right _ List.mem_cons_self

section Map

variable {α : Type u} {β : Type v} [DecidableEq α]

/-- The entry of a present key, and the entries of the other keys. -/
theorem entries_perm_of_lookup {m : AList fun _ : α => β} {a : α} {b : β}
    (h : m.lookup a = some b) : m.entries.Perm (⟨a, b⟩ :: (m.erase a).entries) := by
  have ha : a ∈ m.entries.keys :=
    AList.mem_keys.mp (AList.lookup_isSome.mp (by rw [h]; rfl))
  obtain ⟨b', l₁, l₂, -, hl, hk⟩ := List.exists_of_kerase ha
  have hb' : b' = b := by
    have hmem : (⟨a, b'⟩ : Sigma fun _ : α => β) ∈ m.entries := by simp [hl]
    have hlook : b' ∈ m.lookup a := (List.mem_dlookup_iff m.nodupKeys).2 hmem
    rw [h] at hlook
    exact (Option.some.inj hlook).symm
  subst hb'
  have herase : (m.erase a).entries = l₁ ++ l₂ := hk
  rw [herase, hl]
  exact List.perm_middle

/-- Inserting over a key replaces its entry. -/
theorem entries_insert_perm {m : AList fun _ : α => β} (a : α) (b : β) :
    (m.insert a b).entries.Perm (⟨a, b⟩ :: (m.erase a).entries) := by
  rw [AList.entries_insert]
  exact List.Perm.refl _

/-- Erasing an absent key changes nothing. -/
theorem erase_of_lookup_none {m : AList fun _ : α => β} {a : α} (h : m.lookup a = none) :
    m.erase a = m := by
  have ha : a ∉ m.entries.keys := fun hm => AList.lookup_eq_none.mp h (AList.mem_keys.mpr hm)
  exact AList.ext (List.kerase_of_notMem_keys ha)

theorem insert_erase_same (m : AList fun _ : α => β) (a : α) (b : β) :
    (m.insert a b).erase a = m.erase a := by
  apply AList.ext
  show List.kerase a (m.insert a b).entries = List.kerase a m.entries
  rw [AList.entries_insert,
    List.kerase_cons_eq (s := (⟨a, b⟩ : Sigma fun _ : α => β)) (l := List.kerase a m.entries) rfl]

theorem lookup_of_mem_entries {m : AList fun _ : α => β} {a : α} {b : β}
    (h : (⟨a, b⟩ : Sigma fun _ : α => β) ∈ m.entries) : m.lookup a = some b :=
  (List.mem_dlookup_iff m.nodupKeys).2 h

theorem mem_entries_of_lookup {m : AList fun _ : α => β} {a : α} {b : β}
    (h : m.lookup a = some b) : (⟨a, b⟩ : Sigma fun _ : α => β) ∈ m.entries :=
  (List.mem_dlookup_iff m.nodupKeys).1 h

end Map

/-- Removing the one element that satisfies a test. -/
theorem perm_cons_eraseP {α : Type u} {p : α → Bool} {l : List α} {a : α} (ha : a ∈ l)
    (hp : p a = true) (huniq : ∀ b ∈ l, p b = true → b = a) : l.Perm (a :: l.eraseP p) := by
  obtain ⟨b, l₁, l₂, -, hb, hl, he⟩ := List.exists_of_eraseP ha hp
  have hba : b = a := huniq b (by simp [hl]) hb
  subst hba
  rw [he, hl]
  exact List.perm_middle

/-- One element that only the weaker of two tests passes. -/
theorem countP_lt_countP {α : Type u} {p q : α → Bool} {l : List α} (himp : ∀ a ∈ l, p a = true → q a = true)
    {a : α} (ha : a ∈ l) (hp : p a = false) (hq : q a = true) : l.countP p < l.countP q := by
  obtain ⟨l₁, l₂, rfl⟩ := List.append_of_mem ha
  have hleft : l₁.countP p ≤ l₁.countP q :=
    List.countP_mono_left fun b hb => himp b (List.mem_append_left _ hb)
  have hright : l₂.countP p ≤ l₂.countP q :=
    List.countP_mono_left fun b hb => himp b (List.mem_append_right _ (List.mem_cons_of_mem _ hb))
  simp only [List.countP_append, List.countP_cons, hp, hq, Bool.false_eq_true, if_false, if_true]
  omega

/-- What an element on the right of a correspondence comes from. -/
theorem exists_left_of_forall₂ {α : Type u} {β : Type v} {R : α → β → Prop} {l : List α}
    {l' : List β} (h : List.Forall₂ R l l') {b : β} (hb : b ∈ l') : ∃ a ∈ l, R a b := by
  induction h with
  | nil => cases hb
  | cons hab _ ih =>
      rcases List.mem_cons.mp hb with rfl | hmem
      · exact ⟨_, List.mem_cons_self, hab⟩
      · obtain ⟨a, ha, hR⟩ := ih hmem
        exact ⟨a, List.mem_cons_of_mem _ ha, hR⟩

/-- What an element on the left of a correspondence leads to. -/
theorem exists_right_of_forall₂ {α : Type u} {β : Type v} {R : α → β → Prop} {l : List α}
    {l' : List β} (h : List.Forall₂ R l l') {a : α} (ha : a ∈ l) : ∃ b ∈ l', R a b := by
  induction h with
  | nil => cases ha
  | cons hab _ ih =>
      rcases List.mem_cons.mp ha with rfl | hmem
      · exact ⟨_, List.mem_cons_self, hab⟩
      · obtain ⟨b, hb, hR⟩ := ih hmem
        exact ⟨b, List.mem_cons_of_mem _ hb, hR⟩

/-- Two correspondences one after the other. -/
theorem forall₂_trans {α : Type u} {β : Type v} {γ : Type w} {R : α → β → Prop} {S : β → γ → Prop}
    {T : α → γ → Prop} {l : List α} {l' : List β} {l'' : List γ} (h : List.Forall₂ R l l')
    (h' : List.Forall₂ S l' l'') (htrans : ∀ a b c, b ∈ l' → R a b → S b c → T a c) :
    List.Forall₂ T l l'' := by
  induction h generalizing l'' with
  | nil =>
      cases h'
      exact .nil
  | cons hfirst _ ih =>
      cases h' with
      | cons hfirst' hrest' =>
          refine .cons (htrans _ _ _ List.mem_cons_self hfirst hfirst') (ih hrest' ?_)
          exact fun a b c hb => htrans a b c (List.mem_cons_of_mem _ hb)

/-- A list of lists of which at most one is not empty. -/
theorem flatMap_eq_of_unique {α : Type u} {β : Type v} {f : α → List β} {l : List α} {a : α}
    (hnodup : l.Nodup) (ha : a ∈ l) (hothers : ∀ b ∈ l, b ≠ a → f b = []) : l.flatMap f = f a := by
  obtain ⟨before, after, rfl⟩ := List.append_of_mem ha
  have hnot : a ∉ before ∧ a ∉ after := by
    rw [List.nodup_middle, List.nodup_cons, List.mem_append, not_or] at hnodup
    exact hnodup.1
  have hbefore : before.flatMap f = [] := by
    apply List.flatMap_eq_nil_iff.mpr
    intro b hb
    exact hothers b (List.mem_append_left _ hb) fun heq => hnot.1 (heq ▸ hb)
  have hafter : after.flatMap f = [] := by
    apply List.flatMap_eq_nil_iff.mpr
    intro b hb
    exact hothers b (by simp [hb]) fun heq => hnot.2 (heq ▸ hb)
  rw [List.flatMap_append, List.flatMap_cons, hbefore, hafter, List.nil_append, List.append_nil]

section Split

variable {α : Type u}

/-- The loop that takes `size` elements at a time, for a positive size. -/
def splitEvery (size : Nat) : List α → List (List α)
  | [] => []
  | a :: l => (a :: l.take (size - 1)) :: splitEvery size (l.drop (size - 1))
termination_by l => l.length
decreasing_by
  rw [List.length_drop, List.length_cons]
  omega

@[simp] theorem splitEvery_nil (size : Nat) : splitEvery size ([] : List α) = [] := by
  rw [splitEvery]

theorem splitEvery_flatten (size : Nat) (l : List α) : (splitEvery size l).flatten = l := by
  induction l using splitEvery.induct size with
  | case1 => rw [splitEvery_nil, List.flatten_nil]
  | case2 a l ih =>
      rw [splitEvery, List.flatten_cons, ih, List.cons_append, List.take_append_drop]

/-- No part is empty. -/
theorem ne_nil_of_mem_splitEvery {size : Nat} {l part : List α} (h : part ∈ splitEvery size l) :
    part ≠ [] := by
  induction l using splitEvery.induct size with
  | case1 =>
      rw [splitEvery_nil] at h
      cases h
  | case2 a l ih =>
      rw [splitEvery, List.mem_cons] at h
      rcases h with rfl | hmem
      · exact List.cons_ne_nil _ _
      · exact ih hmem

/-- No part is longer than the size. -/
theorem length_of_mem_splitEvery {size : Nat} (hsize : 0 < size) {l part : List α}
    (h : part ∈ splitEvery size l) : part.length ≤ size := by
  induction l using splitEvery.induct size with
  | case1 =>
      rw [splitEvery_nil] at h
      cases h
  | case2 a l ih =>
      rw [splitEvery, List.mem_cons] at h
      rcases h with rfl | hmem
      · rw [List.length_cons, List.length_take]
        omega
      · exact ih hmem

end Split

section Positions

variable {α : Type u} [DecidableEq α]

/-- The position of an element in a vector, which is appended when it is new. The code keeps the
positions in an unordered map beside the vector. -/
def indexOrAppend (l : List α) (a : α) : Nat × List α :=
  match l.idxOf? a with
  | some index => (index, l)
  | none => (l.length, l ++ [a])

/-- An element of the vector has its position in it; another one is appended. -/
theorem indexOrAppend_cases (l : List α) (a : α) :
    (∃ index, indexOrAppend l a = (index, l) ∧ l[index]? = some a) ∨
      (indexOrAppend l a = (l.length, l ++ [a]) ∧ a ∉ l) := by
  unfold indexOrAppend
  cases hfound : l.idxOf? a with
  | some index =>
      obtain ⟨hlt, hget, -⟩ := List.idxOf?_eq_some_iff.mp hfound
      exact .inl ⟨index, rfl, by rw [List.getElem?_eq_getElem hlt, hget]⟩
  | none => exact .inr ⟨rfl, List.idxOf?_eq_none_iff.mp hfound⟩

/-- The element is at its position, the elements before it keep theirs, and no other is new. -/
theorem indexOrAppend_spec (l : List α) (a : α) :
    (indexOrAppend l a).2[(indexOrAppend l a).1]? = some a ∧ (l <+: (indexOrAppend l a).2) ∧
      (l.Nodup → (indexOrAppend l a).2.Nodup) ∧
      ∀ index < (indexOrAppend l a).2.length,
        index < l.length ∨ index = (indexOrAppend l a).1 := by
  rcases indexOrAppend_cases l a with ⟨index, heq, hget⟩ | ⟨heq, hnew⟩
  · rw [heq]
    exact ⟨hget, List.prefix_refl _, id, fun _ => Or.inl⟩
  · rw [heq]
    refine ⟨by simp, List.prefix_append _ _, ?_, ?_⟩
    · intro hnodup
      rw [← List.concat_eq_append, List.nodup_concat]
      exact ⟨hnew, hnodup⟩
    · intro index hindex
      rw [List.length_append, List.length_singleton] at hindex
      exact Nat.lt_succ_iff_lt_or_eq.mp hindex

omit [DecidableEq α] in
/-- A position in a prefix. -/
theorem getElem?_of_prefix {l l' : List α} (h : l <+: l') {index : Nat} {a : α}
    (ha : l[index]? = some a) : l'[index]? = some a := by
  obtain ⟨rest, rfl⟩ := h
  have hlt : index < l.length := (List.getElem?_eq_some_iff.mp ha).1
  rw [List.getElem?_append_left hlt, ha]

end Positions

/-! ## Lists that grow by one element -/

section Concat

variable {α : Type u} {β : Type v} {l : List α} {a : α}

/-- What holds of each element at its index, for one more element. -/
theorem forall_getElem?_concat {P : Nat → α → Prop} (hold : ∀ n x, l[n]? = some x → P n x) (hnew : P l.length a) :
    ∀ n x, (l ++ [a])[n]? = some x → P n x := by
  intro n x hx
  rcases Nat.lt_trichotomy n l.length with hlt | rfl | hgt
  · rw [List.getElem?_append_left hlt] at hx
    exact hold n x hx
  · rw [List.getElem?_concat_length] at hx
    cases hx
    exact hnew
  · rw [List.getElem?_eq_none (by rw [List.length_append, List.length_singleton]; omega)] at hx
    cases hx

/-- The same for two lists of one length. -/
theorem forall_getElem?_concat₂ {l' : List β} {b : β} {P : Nat → α → β → Prop} (hlength : l'.length = l.length)
    (hold : ∀ n x y, l[n]? = some x → l'[n]? = some y → P n x y) (hnew : P l.length a b) :
    ∀ n x y, (l ++ [a])[n]? = some x → (l' ++ [b])[n]? = some y → P n x y := by
  intro n x y hx
  revert y
  refine forall_getElem?_concat (P := fun n x => ∀ y, (l' ++ [b])[n]? = some y → P n x y) ?_ ?_ n x hx
  · intro n x hx y hy
    have hlt : n < l'.length := hlength ▸ (List.getElem?_eq_some_iff.mp hx).1
    rw [List.getElem?_append_left hlt] at hy
    exact hold n x y hx hy
  · intro y hy
    rw [← hlength, List.getElem?_concat_length] at hy
    cases hy
    exact hnew

end Concat

/-! ## Zipping with a list that grows -/

section ZipWith

variable {α : Type u} {β : Type v} {γ : Type w} {f : α → β → γ}

/-- One more element on the right is zipped with the next one on the left. -/
theorem zipWith_concat_right {l : List α} {l' : List β} {a : α} (h : l[l'.length]? = some a) (b : β) :
    List.zipWith f l (l' ++ [b]) = List.zipWith f l l' ++ [f a b] := by
  induction l' generalizing l with
  | nil =>
      cases l with
      | nil => cases h
      | cons head l =>
          cases h
          rw [List.nil_append, List.zipWith_cons_cons, List.zipWith_nil_right, List.zipWith_nil_right]
          rfl
  | cons head' l' ih =>
      cases l with
      | nil => cases h
      | cons head l =>
          rw [List.cons_append, List.zipWith_cons_cons, List.zipWith_cons_cons, ih h, List.cons_append]

theorem zipWith_replicate_right (l : List α) (n : Nat) (b : β) :
    List.zipWith f l (List.replicate n b) = (l.take n).map fun a => f a b := by
  induction n generalizing l with
  | zero => rw [List.replicate_zero, List.zipWith_nil_right, List.take_zero, List.map_nil]
  | succ n ih =>
      cases l with
      | nil => rfl
      | cons head l =>
          rw [List.replicate_succ, List.zipWith_cons_cons, ih, List.take_succ_cons, List.map_cons]

/-- What is zipped can be taken apart again. -/
theorem map_zipWith_left {g : γ → α} (hg : ∀ a b, g (f a b) = a) (l : List α) (l' : List β) :
    (List.zipWith f l l').map g = l.take l'.length := by
  induction l' generalizing l with
  | nil => rw [List.zipWith_nil_right, List.length_nil, List.take_zero, List.map_nil]
  | cons head' l' ih =>
      cases l with
      | nil => rfl
      | cons head l =>
          rw [List.zipWith_cons_cons, List.map_cons, hg, ih, List.length_cons, List.take_succ_cons]

end ZipWith

end DuckdbLerobot.Library
