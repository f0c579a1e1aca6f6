import Mathlib.Algebra.BigOperators.Group.List.Basic
import DuckdbLerobot.Library.Fallible

/-!
# Arrays with a shape

A list of values is read in row-major order, from an offset that every leaf advances, and is put together to a nested
result: a leaf for each value, and a node for each row. `Holds` says that a result is made of the values of a list, row
by row.
-/

set_option autoImplicit false

namespace DuckdbLerobot.Library

section Shaped

variable {ε β ν : Type}

/-- Parts that are read one after another. -/
def readParts (part : Nat → Except ε (β × Nat)) : Nat → Nat → Except ε (List β × Nat)
  | 0, offset => .ok ([], offset)
  | count + 1, offset => do
      let (first, offset) ← part offset
      let (rest, offset) ← readParts part count offset
      .ok (first :: rest, offset)

/-- A nested result for a shape. A node is made for the shape below it. -/
def readShaped (leaf : Nat → Except ε (β × Nat)) (node : List Nat → List β → β) :
    List Nat → Nat → Except ε (β × Nat)
  | [], offset => leaf offset
  | size :: shape, offset =>
      (readParts (readShaped leaf node shape) size offset).map fun parts => (node shape parts.1, parts.2)

/-- A nested result that has read all values. -/
def readAll (leaf : Nat → Except ε (β × Nat)) (node : List Nat → List β → β) (shape : List Nat) (count : Nat)
    (exception : ε) : Except ε β :=
  readShaped leaf node shape 0 >>= fun result => if result.2 ≠ count then .error exception else .ok result.1

/-- A result of a shape is made of the values, in row-major order. -/
def Holds (node : List Nat → List β → β) (leafHolds : ν → β → Prop) : List Nat → List ν → β → Prop
  | [], values, result => ∃ value, values = [value] ∧ leafHolds value result
  | size :: shape, values, result => ∃ blocks parts, blocks.length = size ∧ blocks.flatten = values ∧
      result = node shape parts ∧ List.Forall₂ (Holds node leafHolds shape) blocks parts

/-- The leaves of a result of a shape, in row-major order. A result that is no node, or has another number of parts, has
none. -/
def flattenShaped (parts : β → Option (List β)) : List Nat → β → Option (List β)
  | [], result => some [result]
  | size :: shape, result =>
      (parts result).bind fun children =>
        if children.length = size then (children.mapM (flattenShaped parts shape)).map List.flatten else none

variable {part leaf : Nat → Except ε (β × Nat)} {node : List Nat → List β → β} {leafHolds : ν → β → Prop}
  {values : List ν} {count step : Nat}

/-! ## Enough values -/

/-- Parts of `step` values each. The induction is on the number of parts. -/
theorem readParts_ok {Q : List ν → β → Prop}
    (h : ∀ offset, offset + step ≤ values.length →
      ∃ result, part offset = .ok (result, offset + step) ∧ Q ((values.drop offset).take step) result) (size : Nat) :
    ∀ offset, offset + size * step ≤ values.length →
      ∃ parts blocks, readParts part size offset = .ok (parts, offset + size * step) ∧ blocks.length = size ∧
        blocks.flatten = (values.drop offset).take (size * step) ∧ List.Forall₂ Q blocks parts := by
  induction size with
  | zero =>
      intro offset _
      refine ⟨[], [], ?_, rfl, ?_, .nil⟩
      · rw [readParts, Nat.zero_mul, Nat.add_zero]
      · rw [Nat.zero_mul, List.take_zero, List.flatten_nil]
  | succ size ih =>
      intro offset hoffset
      rw [Nat.succ_mul] at hoffset
      obtain ⟨first, hfirst, hblock⟩ := h offset (by omega)
      obtain ⟨rest, blocks, hrest, hlength, hflatten, hblocks⟩ := ih (offset + step) (by omega)
      have hend : offset + step + size * step = offset + (size + 1) * step := by
        rw [Nat.succ_mul]
        omega
      refine ⟨first :: rest, (values.drop offset).take step :: blocks, ?_, ?_, ?_, .cons hblock hblocks⟩
      · rw [readParts, hfirst, ← hend]
        change (readParts part size (offset + step) >>= _) = _
        rw [hrest]
        rfl
      · rw [List.length_cons, hlength]
      · rw [List.flatten_cons, hflatten, Nat.succ_mul, Nat.add_comm (size * step), List.take_add, List.drop_drop]

/-- A nested result reads as many values as its shape has places. -/
theorem readShaped_ok (node : List Nat → List β → β)
    (hleaf : ∀ offset value, values[offset]? = some value →
      ∃ result, leaf offset = .ok (result, offset + 1) ∧ leafHolds value result) (shape : List Nat) :
    ∀ offset, offset + shape.prod ≤ values.length →
      ∃ result, readShaped leaf node shape offset = .ok (result, offset + shape.prod) ∧
        Holds node leafHolds shape ((values.drop offset).take shape.prod) result := by
  induction shape with
  | nil =>
      intro offset hoffset
      rw [List.prod_nil] at hoffset ⊢
      obtain ⟨result, hresult, hholds⟩ := hleaf offset values[offset] (List.getElem?_eq_getElem hoffset)
      refine ⟨result, hresult, values[offset], ?_, hholds⟩
      rw [List.drop_eq_getElem_cons hoffset]
      rfl
  | cons size shape ih =>
      intro offset hoffset
      rw [List.prod_cons] at hoffset ⊢
      obtain ⟨parts, blocks, hparts, hlength, hflatten, hblocks⟩ := readParts_ok ih size offset hoffset
      refine ⟨node shape parts, ?_, blocks, parts, hlength, hflatten, rfl, hblocks⟩
      rw [readShaped, hparts]
      rfl

/-- **All values are read, once and in order.** -/
theorem readAll_ok (node : List Nat → List β → β)
    (hleaf : ∀ offset value, values[offset]? = some value →
      ∃ result, leaf offset = .ok (result, offset + 1) ∧ leafHolds value result) {shape : List Nat}
    (hshape : values.length = shape.prod) (exception : ε) :
    ∃ result, readAll leaf node shape values.length exception = .ok result ∧
      Holds node leafHolds shape values result := by
  obtain ⟨result, hresult, hholds⟩ := readShaped_ok node hleaf shape 0 (by omega)
  rw [List.drop_zero, ← hshape, List.take_length] at hholds
  refine ⟨result, ?_, hholds⟩
  rw [readAll, hresult]
  change (if 0 + shape.prod ≠ values.length then _ else _) = _
  rw [if_neg (by omega)]

/-! ## Too few or too many values -/

theorem readParts_advance
    (h : ∀ offset result after, offset ≤ count → part offset = .ok (result, after) →
      after = offset + step ∧ after ≤ count) (size : Nat) :
    ∀ offset parts after, offset ≤ count → readParts part size offset = .ok (parts, after) →
      after = offset + size * step ∧ after ≤ count := by
  induction size with
  | zero =>
      intro offset parts after hoffset hread
      obtain ⟨-, rfl⟩ := Prod.mk.inj (Except.ok.inj hread)
      exact ⟨by omega, hoffset⟩
  | succ size ih =>
      intro offset parts after hoffset hread
      rw [readParts, except_bind_eq_ok] at hread
      obtain ⟨⟨first, middle⟩, hfirst, hread⟩ := hread
      obtain ⟨⟨rest, last⟩, hrest, hread⟩ := except_bind_eq_ok.mp hread
      obtain ⟨-, rfl⟩ := Prod.mk.inj (Except.ok.inj hread)
      obtain ⟨hmiddle, hmiddleCount⟩ := h offset first middle hoffset hfirst
      obtain ⟨hlast, hlastCount⟩ := ih middle rest last hmiddleCount hrest
      rw [Nat.succ_mul]
      exact ⟨by omega, hlastCount⟩

theorem readShaped_advance
    (hleaf : ∀ offset result after, leaf offset = .ok (result, after) → offset < count ∧ after = offset + 1)
    (shape : List Nat) :
    ∀ offset result after, offset ≤ count → readShaped leaf node shape offset = .ok (result, after) →
      after = offset + shape.prod ∧ after ≤ count := by
  induction shape with
  | nil =>
      intro offset result after _ hread
      obtain ⟨hlt, rfl⟩ := hleaf offset result after hread
      exact ⟨rfl, hlt⟩
  | cons size shape ih =>
      intro offset result after hoffset hread
      obtain ⟨⟨parts, last⟩, hparts, heq⟩ := except_map_eq_ok.mp hread
      obtain ⟨-, rfl⟩ := Prod.mk.inj heq
      rw [List.prod_cons]
      exact readParts_advance ih size offset parts last hoffset hparts

/-- **Another number of values is an error.** -/
theorem readAll_error
    (hleaf : ∀ offset result after, leaf offset = .ok (result, after) → offset < count ∧ after = offset + 1)
    {shape : List Nat} (hshape : count ≠ shape.prod) (exception : ε) :
    ∃ e, readAll leaf node shape count exception = .error e := by
  cases hread : readAll leaf node shape count exception with
  | error e => exact ⟨e, rfl⟩
  | ok result =>
      obtain ⟨⟨last, after⟩, hresult, hcheck⟩ := except_bind_eq_ok.mp hread
      obtain ⟨hafter, -⟩ := readShaped_advance hleaf shape 0 last after (Nat.zero_le _) hresult
      dsimp only at hcheck
      rw [if_pos (by omega)] at hcheck
      cases hcheck

/-! ## Results -/

/-- Another result of the same shape, from one relation of leaves and nodes. -/
theorem Holds.transfer {γ : Type} (R : β → γ → Prop) (node' : List Nat → List γ → γ) (leafHolds' : ν → γ → Prop)
    (hleaf : ∀ value result, leafHolds value result → ∃ other, R result other ∧ leafHolds' value other)
    (hnode : ∀ shape results others, List.Forall₂ R results others → R (node shape results) (node' shape others))
    {shape : List Nat} {values : List ν} {result : β} (h : Holds node leafHolds shape values result) :
    ∃ other, R result other ∧ Holds node' leafHolds' shape values other := by
  induction shape generalizing values result with
  | nil =>
      obtain ⟨value, rfl, hvalue⟩ := h
      obtain ⟨other, hother, hvalue'⟩ := hleaf value result hvalue
      exact ⟨other, hother, value, rfl, hvalue'⟩
  | cons size shape ih =>
      obtain ⟨blocks, parts, hlength, hflatten, rfl, hblocks⟩ := h
      have hothers : ∃ others, List.Forall₂ R parts others ∧
          List.Forall₂ (Holds node' leafHolds' shape) blocks others := by
        clear hlength hflatten
        induction hblocks with
        | nil => exact ⟨[], .nil, .nil⟩
        | cons hfirst _ ihBlocks =>
            obtain ⟨other, hother, hholds⟩ := ih hfirst
            obtain ⟨others, hothers, hall⟩ := ihBlocks
            exact ⟨other :: others, .cons hother hothers, .cons hholds hall⟩
      obtain ⟨others, hothers, hall⟩ := hothers
      exact ⟨node' shape others, hnode shape parts others hothers, blocks, others, hlength, hflatten, rfl, hall⟩

/-- **The leaves are the values.** -/
theorem Holds.flatten (parts : β → Option (List β))
    (hparts : ∀ shape results, parts (node shape results) = some results) {shape : List Nat} {values : List ν}
    {result : β} (h : Holds node leafHolds shape values result) :
    ∃ leaves, flattenShaped parts shape result = some leaves ∧ List.Forall₂ leafHolds values leaves := by
  induction shape generalizing values result with
  | nil =>
      obtain ⟨value, rfl, hvalue⟩ := h
      exact ⟨[result], rfl, .cons hvalue .nil⟩
  | cons size shape ih =>
      obtain ⟨blocks, children, hlength, rfl, rfl, hblocks⟩ := h
      have hleaves : ∃ leaves, children.mapM (flattenShaped parts shape) = some leaves ∧
          List.Forall₂ leafHolds blocks.flatten leaves.flatten := by
        clear hlength
        induction hblocks with
        | nil => exact ⟨[], rfl, .nil⟩
        | cons hfirst _ ihBlocks =>
            obtain ⟨first, hfirst, hvalues⟩ := ih hfirst
            obtain ⟨rest, hrest, hall⟩ := ihBlocks
            refine ⟨first :: rest, ?_, List.rel_append hvalues hall⟩
            rw [List.mapM_cons, hfirst, hrest]
            rfl
      obtain ⟨leaves, hmap, hall⟩ := hleaves
      refine ⟨leaves.flatten, ?_, hall⟩
      rw [flattenShaped, hparts, Option.bind_some, if_pos (hblocks.length_eq.symm.trans hlength), hmap]
      rfl

end Shaped

end DuckdbLerobot.Library
