import Mathlib.Algebra.Order.BigOperators.Group.List
import Mathlib.Data.List.Chain

/-!
# Packing into one open bin

Items arrive one after the other. An item goes into the open bin, unless a test says that it does not fit
there: then this bin is closed, and the item opens the next one. The first item of a bin is not tested.
The test sees the items of the open bin and the item that arrives.
-/

set_option autoImplicit false

namespace DuckdbLerobot.Library

universe u v

variable {α : Type u}

/-- The bins that are closed, oldest first, and the items of the open one. -/
structure Packing (α : Type u) where
  closed : List (List α) := []
  pending : List α := []

namespace Packing

/-- The arrival of an item. -/
def add (full : List α → α → Bool) (packing : Packing α) (item : α) : Packing α :=
  if packing.pending ≠ [] ∧ full packing.pending item = true then
    ⟨packing.closed ++ [packing.pending], [item]⟩
  else ⟨packing.closed, packing.pending ++ [item]⟩

/-- All bins, once the open one is closed too. It has no bin when no item has arrived. -/
def bins (packing : Packing α) : List (List α) :=
  if packing.pending = [] then packing.closed else packing.closed ++ [packing.pending]

/-- The packing of a list. -/
def nextFit (full : List α → α → Bool) (items : List α) : Packing α := items.foldl (add full) {}

end Packing

/-- Each item of a bin fits behind those before it. -/
def Fits (full : List α → α → Bool) (bin : List α) : Prop :=
  ∀ before item after, bin = before ++ item :: after → before ≠ [] → full before item = false

/-- The first item of the second bin does not fit into the first bin. -/
def FullFor (full : List α → α → Bool) (bin next : List α) : Prop :=
  ∃ item ∈ next.head?, full bin item = true

/-- A packing of these items. -/
structure NextFit (full : List α → α → Bool) (items : List α) (packing : Packing α) : Prop where
  flatten_eq : packing.closed.flatten ++ packing.pending = items
  /-- A bin is only closed for an item that opens the next one. -/
  closed_eq_nil : packing.pending = [] → packing.closed = []
  closed_ne_nil : ∀ bin ∈ packing.closed, bin ≠ []
  closed_fits : ∀ bin ∈ packing.closed, Fits full bin
  pending_fits : Fits full packing.pending
  closed_full : packing.closed.IsChain (FullFor full)
  pending_full : ∀ item ∈ packing.pending.head?, ∀ bin ∈ packing.closed.getLast?,
    full bin item = true

section NextFit

variable {full : List α → α → Bool} {items : List α} {packing : Packing α}

theorem fits_singleton (item : α) : Fits full [item] := by
  intro before other after heq hne
  cases before with
  | nil => exact absurd rfl hne
  | cons first before =>
      rw [List.cons_append, List.cons.injEq] at heq
      exact absurd heq.2.symm (by simp)

theorem Fits.concat {bin : List α} {item : α} (h : Fits full bin)
    (hitem : bin ≠ [] → full bin item = false) : Fits full (bin ++ [item]) := by
  intro before other after heq hne
  rcases List.eq_nil_or_concat after with rfl | ⟨init, last, rfl⟩
  · -- the item is the last one
    obtain ⟨rfl, hother⟩ := List.append_inj' heq rfl
    cases hother
    exact hitem hne
  · rw [List.concat_eq_append, ← List.cons_append, ← List.append_assoc] at heq
    obtain ⟨hbin, -⟩ := List.append_inj' heq rfl
    exact h before other init hbin hne

theorem nextFit_nil : NextFit full [] ({} : Packing α) where
  flatten_eq := rfl
  closed_eq_nil := fun _ => rfl
  closed_ne_nil := by simp
  closed_fits := by simp
  pending_fits := by
    intro before item after heq
    exact absurd heq.symm (by simp)
  closed_full := .nil
  pending_full := by simp

/-- **The arrival of an item.** -/
theorem NextFit.add (h : NextFit full items packing) (item : α) :
    NextFit full (items ++ [item]) (packing.add full item) := by
  rw [Packing.add]
  split
  · -- the open bin is closed
    rename_i hfull
    obtain ⟨hne, hfull⟩ := hfull
    constructor
    · simp [← h.flatten_eq]
    · exact fun hnil => absurd hnil (by simp)
    · intro bin hbin
      rcases List.mem_append.mp hbin with hold | hnew
      · exact h.closed_ne_nil bin hold
      · rw [List.mem_singleton.mp hnew]
        exact hne
    · intro bin hbin
      rcases List.mem_append.mp hbin with hold | hnew
      · exact h.closed_fits bin hold
      · rw [List.mem_singleton.mp hnew]
        exact h.pending_fits
    · exact fits_singleton item
    · apply List.IsChain.append h.closed_full (.singleton _)
      intro bin hbin next hnext
      cases Option.some.inj hnext
      obtain ⟨first, rest, hpending⟩ := List.exists_cons_of_ne_nil hne
      refine ⟨first, by rw [hpending]; rfl, ?_⟩
      exact h.pending_full first (by rw [hpending]; rfl) bin hbin
    · intro first hfirst bin hbin
      rw [List.getLast?_append, List.getLast?_singleton] at hbin
      cases Option.some.inj hfirst
      cases Option.some.inj hbin
      exact hfull
  · rename_i hfits
    constructor
    · simp [← h.flatten_eq]
    · exact fun hnil => absurd hnil (by simp)
    · exact h.closed_ne_nil
    · exact h.closed_fits
    · apply h.pending_fits.concat
      intro hne
      exact Bool.eq_false_iff.mpr fun hfull => hfits ⟨hne, hfull⟩
    · exact h.closed_full
    · intro first hfirst bin hbin
      cases hpending : packing.pending with
      | nil =>
          rw [h.closed_eq_nil hpending] at hbin
          exact absurd hbin (by simp)
      | cons head rest =>
          rw [hpending] at hfirst
          exact h.pending_full first (by rw [hpending]; exact hfirst) bin hbin

/-- **The packing of a list.** -/
theorem nextFit_spec (full : List α → α → Bool) (items : List α) :
    NextFit full items (Packing.nextFit full items) := by
  induction items using List.reverseRecOn with
  | nil => exact nextFit_nil
  | append_singleton items item ih =>
      rw [Packing.nextFit, List.foldl_concat]
      exact ih.add item

/-- The open bin is the last one. -/
theorem NextFit.bins_eq (h : NextFit full items packing) (hne : items ≠ []) :
    packing.bins = packing.closed ++ [packing.pending] := by
  rw [Packing.bins, if_neg]
  intro hpending
  apply hne
  rw [← h.flatten_eq, hpending, h.closed_eq_nil hpending]
  rfl

theorem NextFit.bins_flatten (h : NextFit full items packing) : packing.bins.flatten = items := by
  rw [← h.flatten_eq, Packing.bins]
  split
  · rename_i hpending
    rw [hpending, List.append_nil]
  · simp

theorem NextFit.mem_bins (h : NextFit full items packing) {bin : List α} (hbin : bin ∈ packing.bins) :
    bin ≠ [] ∧ Fits full bin := by
  rw [Packing.bins] at hbin
  split at hbin
  · exact ⟨h.closed_ne_nil bin hbin, h.closed_fits bin hbin⟩
  · rename_i hpending
    rcases List.mem_append.mp hbin with hclosed | hopen
    · exact ⟨h.closed_ne_nil bin hclosed, h.closed_fits bin hclosed⟩
    · rw [List.mem_singleton.mp hopen]
      exact ⟨hpending, h.pending_fits⟩

theorem NextFit.bins_full (h : NextFit full items packing) : packing.bins.IsChain (FullFor full) := by
  rw [Packing.bins]
  split
  · exact h.closed_full
  · rename_i hpending
    apply List.IsChain.append h.closed_full (.singleton _)
    intro bin hbin next hnext
    cases Option.some.inj hnext
    obtain ⟨first, rest, heq⟩ := List.exists_cons_of_ne_nil hpending
    refine ⟨first, by rw [heq]; rfl, ?_⟩
    exact h.pending_full first (by rw [heq]; rfl) bin hbin

end NextFit

/-! ## Sizes and a limit -/

section Sizes

variable {κ : Type v} [AddCommMonoid κ] [LinearOrder κ]

/-- The size of a bin. -/
def binSize (size : α → κ) (bin : List α) : κ := (bin.map size).sum

/-- With the item, the bin is not below the limit. -/
def reaches (size : α → κ) (limit : κ) (bin : List α) (item : α) : Bool :=
  decide (limit ≤ binSize size bin + size item)

variable {size : α → κ} {limit : κ} {items bin : List α} {packing : Packing α}

/-- A bin with several items is below the limit. -/
theorem Fits.size_lt (h : Fits (reaches size limit) bin) (hlength : 2 ≤ bin.length) :
    binSize size bin < limit := by
  rcases List.eq_nil_or_concat bin with rfl | ⟨init, last, rfl⟩
  · exact absurd hlength (by simp)
  · rw [List.concat_eq_append] at h hlength ⊢
    have hne : init ≠ [] := by
      rintro rfl
      exact absurd hlength (by simp)
    have hfits := h init last [] rfl hne
    rw [reaches, decide_eq_false_iff_not, not_le] at hfits
    rwa [binSize, List.map_append, List.sum_append, List.map_singleton, List.sum_singleton]

variable [IsOrderedAddMonoid κ]

/-- An item that reaches the limit has a bin for itself. -/
theorem Fits.eq_singleton (hsize : ∀ item, 0 ≤ size item) (h : Fits (reaches size limit) bin) {item : α}
    (hitem : item ∈ bin) (hlarge : limit ≤ size item) : bin = [item] := by
  obtain ⟨before, after, rfl⟩ := List.append_of_mem hitem
  have hnonneg : ∀ before : List α, 0 ≤ binSize size before := by
    intro before
    apply List.sum_nonneg
    intro entry hentry
    obtain ⟨other, -, rfl⟩ := List.mem_map.mp hentry
    exact hsize other
  have hbefore : before = [] := by
    by_contra hne
    have hfits := h before item after rfl hne
    rw [reaches, decide_eq_false_iff_not] at hfits
    exact hfits (hlarge.trans (le_add_of_nonneg_left (hnonneg before)))
  have hafter : after = [] := by
    cases after with
    | nil => rfl
    | cons next after =>
        -- the item next to it would not fit
        have hfits := h [item] next after (by rw [hbefore]; rfl) (by simp)
        rw [reaches, decide_eq_false_iff_not, binSize, List.map_singleton, List.sum_singleton] at hfits
        exact absurd (hlarge.trans (le_add_of_nonneg_right (hsize next))) hfits
  rw [hbefore, hafter]
  rfl

end Sizes

end DuckdbLerobot.Library
