import DuckdbLerobot.Library.Containers

/-!
# Queues by key, with one order

A pool keeps its elements in a queue for each key, and the order of all of them in a second list, which has
the keys only, the newest first. `InOrder` connects both to one list of the elements, the oldest first. The
newest element of a key leaves it with the first occurrence of the key, and the oldest element of all leaves
it with the last key.
-/

set_option autoImplicit false

namespace DuckdbLerobot.Library

universe u v

/-- A list with an element that passes a test has a last one. -/
theorem exists_last_of_filter_ne_nil {α : Type u} {p : α → Bool} {l : List α} (h : l.filter p ≠ []) :
    ∃ before a after, l = before ++ a :: after ∧ p a = true ∧ ∀ b ∈ after, p b = false := by
  induction l with
  | nil => exact absurd rfl h
  | cons b l ih =>
      by_cases hrest : l.filter p = []
      · -- the first element is the only one
        have hafter : ∀ c ∈ l, p c = false := by
          simpa [List.filter_eq_nil_iff] using hrest
        refine ⟨[], b, l, rfl, ?_, hafter⟩
        by_contra hb
        apply h
        rw [List.filter_cons_of_neg hb, hrest]
      · obtain ⟨before, a, after, rfl, ha, hafter⟩ := ih hrest
        exact ⟨b :: before, a, after, rfl, ha, hafter⟩

section Queues

variable {κ : Type u} {δ : Type v} [DecidableEq κ]

/-- A queue for each key. -/
abbrev Queues (κ : Type u) (δ : Type v) [DecidableEq κ] := AList fun _ : κ => List δ

namespace Queues

/-- The queue of a key. -/
def queue (queues : Queues κ δ) (k : κ) : List δ := (queues.lookup k).getD []

/-- Replace the queue of a key. A queue that is empty is erased. -/
def replace (queues : Queues κ δ) (k : κ) (elements : List δ) : Queues κ δ :=
  if elements = [] then queues.erase k else queues.insert k elements

/-- All elements. -/
def queued (queues : Queues κ δ) : List δ := queues.entries.flatMap Sigma.snd

theorem queue_replace_self (queues : Queues κ δ) (k : κ) (elements : List δ) :
    (queues.replace k elements).queue k = elements := by
  rw [replace, queue]
  split
  · rename_i hnil
    rw [AList.lookup_erase, hnil]
    rfl
  · rw [AList.lookup_insert]
    rfl

theorem queue_replace_of_ne (queues : Queues κ δ) {k k' : κ} (h : k' ≠ k) (elements : List δ) :
    (queues.replace k elements).queue k' = queues.queue k' := by
  rw [replace, queue, queue]
  split
  · rw [AList.lookup_erase_ne h]
  · rw [AList.lookup_insert_ne h]

/-- The elements of a key, and those of the other keys. -/
theorem queued_perm (queues : Queues κ δ) (k : κ) :
    queues.queued.Perm (queues.queue k ++ Queues.queued (queues.erase k)) := by
  rw [queue]
  cases hlookup : queues.lookup k with
  | none =>
      rw [erase_of_lookup_none hlookup]
      exact .refl _
  | some elements => exact (entries_perm_of_lookup hlookup).flatMap_right _

theorem queued_replace_perm (queues : Queues κ δ) (k : κ) (elements : List δ) :
    (queues.replace k elements).queued.Perm (elements ++ Queues.queued (queues.erase k)) := by
  rw [replace]
  split
  · rename_i hnil
    rw [hnil]
    exact .refl _
  · exact (entries_insert_perm k elements).flatMap_right _

end Queues

/-- The elements of a key. -/
def keyed (key : δ → κ) (k : κ) (l : List δ) : List δ := l.filter fun d => key d = k

section Keyed

variable {key : δ → κ} {k : κ} {l l' : List δ} {d : δ}

theorem keyed_append : keyed key k (l ++ l') = keyed key k l ++ keyed key k l' := List.filter_append ..

theorem keyed_cons_self (h : key d = k) : keyed key k (d :: l) = d :: keyed key k l :=
  List.filter_cons_of_pos (decide_eq_true h)

theorem keyed_cons_of_ne (h : key d ≠ k) : keyed key k (d :: l) = keyed key k l :=
  List.filter_cons_of_neg (by simpa using h)

theorem keyed_eq_nil (h : ∀ e ∈ l, key e ≠ k) : keyed key k l = [] := by
  simpa [keyed, List.filter_eq_nil_iff] using h

end Keyed

/-- The queues and the list of keys have the elements of one list, the oldest of which comes first. -/
structure InOrder (key : δ → κ) (keys : List κ) (queues : Queues κ δ) (order : List δ) : Prop where
  keys_eq : keys = (order.map key).reverse
  queue_eq : ∀ k, queues.queue k = keyed key k order
  perm : queues.queued.Perm order

namespace InOrder

variable {key : δ → κ} {keys : List κ} {queues : Queues κ δ} {order : List δ}

theorem empty (key : δ → κ) : InOrder key [] ∅ [] where
  keys_eq := rfl
  queue_eq _ := rfl
  perm := .refl _

/-- The queue of one key is replaced, and the order follows. -/
theorem replaced (h : InOrder key keys queues order) {k : κ} {elements order' : List δ} {keys' : List κ}
    (hkeys : keys' = (order'.map key).reverse) (hself : elements = keyed key k order')
    (hother : ∀ k', k' ≠ k → keyed key k' order' = keyed key k' order)
    (hperm : (elements ++ order).Perm (order' ++ queues.queue k)) :
    InOrder key keys' (queues.replace k elements) order' where
  keys_eq := hkeys
  queue_eq k' := by
    by_cases hk : k' = k
    · rw [hk, Queues.queue_replace_self, hself]
    · rw [Queues.queue_replace_of_ne _ hk, h.queue_eq, hother k' hk]
  perm := by
    apply (queues.queued_replace_perm k elements).trans
    -- the queue that the key had is added on both sides
    apply (List.perm_append_right_iff (queues.queue k)).mp
    have hrest : (queues.queue k ++ Queues.queued (queues.erase k)).Perm order :=
      (queues.queued_perm k).symm.trans h.perm
    have hcommuted := (List.perm_append_comm.trans hrest).append_left elements
    rw [List.append_assoc]
    exact hcommuted.trans hperm

/-- A new element is the newest of all. -/
theorem push (h : InOrder key keys queues order) (d : δ) :
    InOrder key (key d :: keys) (queues.replace (key d) (queues.queue (key d) ++ [d])) (order ++ [d]) := by
  apply h.replaced
  · simp [h.keys_eq]
  · rw [h.queue_eq, keyed_append, keyed_cons_self rfl]
    rfl
  · intro k hk
    rw [keyed_append, keyed_cons_of_ne hk.symm]
    exact List.append_nil _
  · rw [List.append_assoc]
    exact List.perm_append_comm.trans (List.perm_append_comm.append_right _)

/-- **The newest element of a key** is the last of its queue. It leaves with the first occurrence of the
key. -/
theorem popNewest (h : InOrder key keys queues order) {k : κ} {d : δ}
    (hlast : (queues.queue k).getLast? = some d) :
    ∃ older newer, order = older ++ d :: newer ∧ key d = k ∧ (∀ e ∈ newer, key e ≠ k) ∧ k ∈ keys ∧
      InOrder key (keys.erase k) (queues.replace k (queues.queue k).dropLast) (older ++ newer) := by
  have hqueue := h.queue_eq k
  have hne : (order.filter fun d => key d = k) ≠ [] := by
    intro hnil
    rw [hqueue, keyed, hnil] at hlast
    cases hlast
  obtain ⟨older, newest, newer, hsplit, hnewest, hnewer⟩ := exists_last_of_filter_ne_nil hne
  have hkey : key newest = k := of_decide_eq_true hnewest
  have hother : ∀ e ∈ newer, key e ≠ k := fun e he => of_decide_eq_false (hnewer e he)
  have hparts : queues.queue k = keyed key k older ++ [newest] := by
    rw [hqueue, hsplit, keyed_append, keyed_cons_self hkey, keyed_eq_nil hother]
  rw [hparts, List.getLast?_concat] at hlast
  cases hlast
  refine ⟨older, newer, hsplit, hkey, hother, ?_, ?_⟩
  · rw [h.keys_eq, hsplit]
    simp [hkey]
  apply h.replaced
  · have hnot : k ∉ (newer.map key).reverse := by
      simpa using hother
    rw [h.keys_eq, hsplit, List.map_append, List.map_cons, List.reverse_append, List.reverse_cons,
      List.append_assoc, List.erase_append_right _ hnot, hkey]
    simp
  · rw [hparts, List.dropLast_concat, keyed_append, keyed_eq_nil hother, List.append_nil]
  · intro k' hk'
    rw [hsplit, keyed_append, keyed_append, keyed_cons_of_ne (by rw [hkey]; exact hk'.symm)]
  · -- both sides have the elements of the key twice, except for the one that leaves
    rw [hparts, List.dropLast_concat, hsplit]
    have hmiddle : (older ++ d :: newer).Perm (older ++ newer ++ [d]) :=
      List.perm_middle.trans (List.perm_append_singleton d _).symm
    apply List.perm_append_comm.trans
    apply (hmiddle.append_right _).trans
    rw [List.append_assoc _ [d]]
    exact List.perm_append_comm.append_left _

/-- **The oldest element of all** is the first of the queue of the last key. -/
theorem popOldest (h : InOrder key keys queues order) {k : κ} (hlast : keys.getLast? = some k) :
    ∃ d rest, order = d :: rest ∧ key d = k ∧ queues.queue k = d :: keyed key k rest ∧
      InOrder key keys.dropLast (queues.replace k (keyed key k rest)) rest := by
  have hkeys := h.keys_eq
  cases order with
  | nil =>
      rw [hkeys] at hlast
      cases hlast
  | cons d rest =>
      rw [List.map_cons, List.reverse_cons] at hkeys
      rw [hkeys, List.getLast?_concat] at hlast
      have hkey : key d = k := Option.some.inj hlast
      have hqueue : queues.queue k = d :: keyed key k rest := by
        rw [h.queue_eq, keyed_cons_self hkey]
      refine ⟨d, rest, rfl, hkey, hqueue, ?_⟩
      apply h.replaced
      · rw [hkeys, List.dropLast_concat]
      · rfl
      · intro k' hk'
        rw [keyed_cons_of_ne (by rw [hkey]; exact hk'.symm)]
      · rw [hqueue]
        exact List.perm_append_comm.trans List.perm_middle.symm

/-- Without a key there is no element. -/
theorem eq_nil (h : InOrder key keys queues order) (hkeys : keys = []) : order = [] := by
  have hnil := h.keys_eq.symm.trans hkeys
  simpa using hnil

end InOrder

end Queues

end DuckdbLerobot.Library
