import DuckdbLerobot.Library.Containers
import DuckdbLerobot.Library.NextFit
import Mathlib.Data.List.Flatten

/-!
# Places in bins

Items that are packed into one open bin after another get a place each: the number of their bin, and the items that are
in it before them. An item keeps its place for good. The places of the items determine the bins, because the items of
the bins, from the first bin to the last, are those that have arrived, in their order (`PlacesOf`).
-/

set_option autoImplicit false

namespace DuckdbLerobot.Library

universe u v

variable {α : Type u}

/-- The number of a bin, and the items in it before a place. -/
structure BinPlace (α : Type u) where
  bin : Nat
  before : List α

/-- The item is at this place, and it has this number among all items of the bins. -/
def PlacedAt (bins : List (List α)) (number : Nat) (item : α) (place : BinPlace α) : Prop :=
  ∃ earlier after later, bins = earlier ++ (place.before ++ item :: after) :: later ∧ earlier.length = place.bin ∧
    earlier.flatten.length + place.before.length = number

section PlacedAt

variable {bins : List (List α)} {number : Nat} {item : α} {place : BinPlace α}

theorem PlacedAt.bin (h : PlacedAt bins number item place) :
    ∃ after, bins[place.bin]? = some (place.before ++ item :: after) := by
  obtain ⟨earlier, after, later, rfl, hbin, -⟩ := h
  refine ⟨after, ?_⟩
  rw [← hbin, List.getElem?_append_right (Nat.le_refl _), Nat.sub_self, List.getElem?_cons_zero]

theorem PlacedAt.getElem?_flatten (h : PlacedAt bins number item place) : bins.flatten[number]? = some item := by
  obtain ⟨earlier, after, later, rfl, -, hnumber⟩ := h
  rw [List.flatten_append, List.flatten_cons, List.append_assoc, ← List.append_assoc,
    List.getElem?_append_right (by rw [List.length_append, hnumber]), List.length_append, hnumber, Nat.sub_self]
  rfl

/-- Every item of a bin has a place. -/
theorem exists_placedAt {bin : Nat} {content : List α} (hbin : bins[bin]? = some content) (hitem : item ∈ content) :
    ∃ number before, PlacedAt bins number item ⟨bin, before⟩ := by
  obtain ⟨hlt, hcontent⟩ := List.getElem?_eq_some_iff.mp hbin
  obtain ⟨before, after, rfl⟩ := List.append_of_mem hitem
  refine ⟨(bins.take bin).flatten.length + before.length, before, bins.take bin, after, bins.drop (bin + 1), ?_, ?_, rfl⟩
  · rw [← hcontent, List.getElem_cons_drop, List.take_append_drop]
  · exact List.length_take_of_le hlt.le

theorem PlacedAt.lt_length_flatten (h : PlacedAt bins number item place) :
    number < (bins.take (place.bin + 1)).flatten.length := by
  obtain ⟨earlier, after, later, rfl, hbin, hnumber⟩ := h
  have htake : (earlier ++ (place.before ++ item :: after) :: later).take (place.bin + 1) =
      earlier ++ [place.before ++ item :: after] := by
    rw [← hbin, List.take_length_add_append, List.take_succ_cons, List.take_zero]
  rw [htake, List.flatten_append, List.flatten_singleton, List.length_append, List.length_append, List.length_cons]
  omega

theorem PlacedAt.length_flatten_le (h : PlacedAt bins number item place) :
    (bins.take place.bin).flatten.length ≤ number := by
  obtain ⟨earlier, after, later, rfl, hbin, hnumber⟩ := h
  rw [← hbin, List.take_left]
  omega

/-- The number of an item determines its bin. -/
theorem PlacedAt.bin_le {other : α} {place' : BinPlace α} (h : PlacedAt bins number item place)
    (h' : PlacedAt bins number other place') : place.bin ≤ place'.bin := by
  by_contra hlt
  have hlt : place'.bin + 1 ≤ place.bin := Nat.lt_of_not_le hlt
  have hmono : (bins.take (place'.bin + 1)).flatten.length ≤ (bins.take place.bin).flatten.length :=
    (List.take_sublist_take_left hlt).flatten.length_le
  have hlower := h.length_flatten_le
  have hupper := h'.lt_length_flatten
  omega

theorem PlacedAt.bin_eq {other : α} {place' : BinPlace α} (h : PlacedAt bins number item place)
    (h' : PlacedAt bins number other place') : place.bin = place'.bin :=
  Nat.le_antisymm (h.bin_le h') (h'.bin_le h)

/-- More bins are added. -/
theorem PlacedAt.append (h : PlacedAt bins number item place) (more : List (List α)) :
    PlacedAt (bins ++ more) number item place := by
  obtain ⟨earlier, after, later, rfl, hbin, hnumber⟩ := h
  refine ⟨earlier, after, later ++ more, ?_, hbin, hnumber⟩
  rw [List.append_assoc, List.cons_append]

/-- More items are added to the last bin. -/
theorem PlacedAt.grow {closed : List (List α)} {pending : List α}
    (h : PlacedAt (closed ++ [pending]) number item place) (more : List α) :
    PlacedAt (closed ++ [pending ++ more]) number item place := by
  obtain ⟨earlier, after, later, hbins, hbin, hnumber⟩ := h
  rcases List.eq_nil_or_concat later with rfl | ⟨middle, last, rfl⟩
  · obtain ⟨rfl, hlast⟩ := List.append_inj' hbins rfl
    cases hlast
    refine ⟨closed, after ++ more, [], ?_, hbin, hnumber⟩
    rw [List.append_assoc, List.cons_append]
  · rw [List.concat_eq_append, ← List.cons_append, ← List.append_assoc] at hbins
    obtain ⟨rfl, -⟩ := List.append_inj' hbins rfl
    refine ⟨earlier, after, middle ++ [pending ++ more], ?_, hbin, hnumber⟩
    rw [List.append_assoc, List.cons_append]

end PlacedAt

namespace Packing

/-- The open bin is closed, if this has been decided. -/
def rotate (close : Bool) (packing : Packing α) : Packing α :=
  if close then ⟨packing.closed ++ [packing.pending], []⟩ else packing

/-- The arrival of an item, with the decision whether the open bin is closed before. -/
def put (close : Bool) (packing : Packing α) (item : α) : Packing α :=
  { packing.rotate close with pending := (packing.rotate close).pending ++ [item] }

/-- The place that the item gets. -/
def nextPlace (close : Bool) (packing : Packing α) : BinPlace α :=
  ⟨(packing.rotate close).closed.length, (packing.rotate close).pending⟩

theorem bins_of_ne_nil {packing : Packing α} (h : packing.pending ≠ []) :
    packing.bins = packing.closed ++ [packing.pending] := by rw [bins, if_neg h]

theorem bins_put {close : Bool} {packing : Packing α} (hclose : close = true → packing.pending ≠ []) (item : α) :
    (packing.put close item).bins =
      if close then packing.bins ++ [[item]] else packing.closed ++ [packing.pending ++ [item]] := by
  cases close with
  | true =>
      rw [if_pos rfl, bins_of_ne_nil (hclose rfl)]
      exact bins_of_ne_nil (List.cons_ne_nil _ _)
  | false => exact bins_of_ne_nil (List.append_ne_nil_of_right_ne_nil _ (List.cons_ne_nil _ _))

/-- The items that have arrived. -/
theorem bins_flatten (packing : Packing α) : packing.bins.flatten = packing.closed.flatten ++ packing.pending := by
  rw [bins]
  split
  · rename_i hpending
    rw [hpending, List.append_nil]
  · rw [List.flatten_append, List.flatten_singleton]

end Packing

/-- The items that have arrived, and the places that they got. -/
structure PlacesOf (packing : Packing α) (items : List α) (places : List (BinPlace α)) : Prop where
  flatten_eq : packing.bins.flatten = items
  length_eq : places.length = items.length
  nonempty : ∀ bin ∈ packing.bins, bin ≠ []
  placed : ∀ number item place, items[number]? = some item → places[number]? = some place →
    PlacedAt packing.bins number item place

section PlacesOf

variable {packing : Packing α} {items : List α} {places : List (BinPlace α)}

theorem placesOf_nil : PlacesOf ({} : Packing α) [] [] where
  flatten_eq := rfl
  length_eq := rfl
  nonempty := by
    intro bin hbin
    cases hbin
  placed := by
    intro number item place hitem
    cases hitem

/-- An item keeps its place when the next one arrives. -/
theorem PlacedAt.put {number : Nat} {item : α} {place : BinPlace α} (h : PlacedAt packing.bins number item place)
    {close : Bool} (hclose : close = true → packing.pending ≠ []) (next : α) :
    PlacedAt (packing.put close next).bins number item place := by
  rw [Packing.bins_put hclose]
  cases close with
  | true => exact h.append [[next]]
  | false =>
      by_cases hpending : packing.pending = []
      · rw [Packing.bins, if_pos hpending] at h
        rw [hpending]
        exact h.append [[next]]
      · rw [Packing.bins_of_ne_nil hpending] at h
        exact h.grow [next]

/-- The place of the item that arrives. -/
theorem Packing.placedAt_put {close : Bool} (hclose : close = true → packing.pending ≠ []) (item : α) :
    PlacedAt (packing.put close item).bins packing.bins.flatten.length item (packing.nextPlace close) := by
  rw [Packing.bins_put hclose, Packing.bins_flatten, List.length_append]
  cases close with
  | true =>
      refine ⟨packing.bins, [], [], rfl, ?_, ?_⟩
      · rw [Packing.bins_of_ne_nil (hclose rfl)]
        rfl
      · rw [Packing.bins_flatten, List.length_append]
        rfl
  | false => exact ⟨packing.closed, [], [], rfl, rfl, rfl⟩

/-- **The arrival of an item.** -/
theorem PlacesOf.put (h : PlacesOf packing items places) {close : Bool} (hclose : close = true → packing.pending ≠ [])
    (item : α) :
    PlacesOf (packing.put close item) (items ++ [item]) (places ++ [packing.nextPlace close]) where
  flatten_eq := by
    rw [← h.flatten_eq, Packing.bins_put hclose, Packing.bins_flatten]
    cases close with
    | true => simp [Packing.bins_flatten]
    | false => simp
  length_eq := by rw [List.length_append, List.length_append, h.length_eq]; rfl
  nonempty := by
    intro bin hbin
    rw [Packing.bins_put hclose] at hbin
    cases close with
    | true =>
        rcases List.mem_append.mp hbin with hold | hnew
        · exact h.nonempty bin hold
        · rw [List.mem_singleton.mp hnew]
          exact List.cons_ne_nil _ _
    | false =>
        rcases List.mem_append.mp hbin with hold | hnew
        · apply h.nonempty
          rw [Packing.bins]
          split
          · exact hold
          · exact List.mem_append_left _ hold
        · rw [List.mem_singleton.mp hnew]
          simp
  placed := by
    refine forall_getElem?_concat₂ h.length_eq ?_ ?_
    · intro number other place hother hplace
      exact (h.placed number other place hother hplace).put hclose item
    · rw [← h.flatten_eq]
      exact Packing.placedAt_put hclose item

end PlacesOf

/-! ## Items one after another

The items of a bin start where the items before them end.
-/

section EndToEnd

variable {κ : Type v} [AddMonoid κ]

end EndToEnd

end DuckdbLerobot.Library
