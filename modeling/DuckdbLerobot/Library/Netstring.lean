import Mathlib.Algebra.GroupWithZero.Nat
import Mathlib.Data.List.Basic
import Mathlib.Data.Nat.Notation

/-!
# Decimal numbers and length-prefixed components

`netstring` prefixes a text with its length in bytes, so a sequence of components can be taken
apart again (`netstrings_injective`) whatever characters the components have.
-/

set_option autoImplicit false

namespace DuckdbLerobot.Library

/-! ## Decimal numbers -/

/-- A character of a decimal number is a digit. -/
theorem isDigit_of_mem_repr {value : Nat} {c : Char} (h : c ∈ value.repr.toList) :
    c.isDigit = true := by
  rw [Nat.toList_repr] at h
  exact Nat.isDigit_of_mem_toDigits (by decide) (by decide) h

theorem notMem_repr {c : Char} (hc : c.isDigit = false) (value : Nat) :
    c ∉ value.repr.toList := by
  intro h
  rw [isDigit_of_mem_repr h] at hc
  cases hc

theorem repr_injective : Function.Injective Nat.repr := by
  intro m n h
  have hlist := congrArg String.toList h
  rw [Nat.toList_repr, Nat.toList_repr] at hlist
  rw [← Nat.ofDigitChars_ten_toDigits (n := m), hlist, Nat.ofDigitChars_ten_toDigits]

/-! ## Components -/

/-- The length of a text in bytes of UTF-8. -/
def byteLength (text : List Char) : Nat := (text.map Char.utf8Size).sum

/-- A text behind its length. -/
def netstring (text : List Char) : List Char := (byteLength text).repr.toList ++ ':' :: text

/-- Components one behind the other. -/
def netstrings (texts : List (List Char)) : List Char := texts.flatMap netstring

/-- Two texts of a part without a separator, the separator and a rest are split alike. -/
theorem split_at_first {separator : Char} {a b c d : List Char} (ha : separator ∉ a)
    (hc : separator ∉ c) (h : a ++ separator :: b = c ++ separator :: d) : a = c ∧ b = d := by
  rcases List.append_eq_append_iff.mp h with ⟨e, rfl, he⟩ | ⟨e, rfl, he⟩
  · cases e with
    | nil => simpa using he
    | cons x e =>
        -- the first separator would stand in the second part
        rw [List.cons_append] at he
        obtain rfl := (List.cons.inj he).1
        exact absurd (List.mem_append_right _ List.mem_cons_self) hc
  · cases e with
    | nil =>
        have hrest : b = d := by simpa using he.symm
        exact ⟨List.append_nil c, hrest⟩
    | cons x e =>
        rw [List.cons_append] at he
        obtain rfl := (List.cons.inj he).1
        exact absurd (List.mem_append_right _ List.mem_cons_self) ha

theorem byteLength_append (a b : List Char) :
    byteLength (a ++ b) = byteLength a + byteLength b := by
  unfold byteLength
  rw [List.map_append, List.sum_append]

theorem eq_nil_of_byteLength {a : List Char} (h : byteLength a = 0) : a = [] := by
  cases a with
  | nil => rfl
  | cons c a =>
      have hpos := Char.utf8Size_pos c
      simp only [byteLength, List.map_cons, List.sum_cons] at h
      omega

/-- A text is determined by its length where it begins. -/
theorem append_inj_of_byteLength {a b c d : List Char} (hlength : byteLength a = byteLength c)
    (h : a ++ b = c ++ d) : a = c ∧ b = d := by
  rcases List.append_eq_append_iff.mp h with ⟨e, rfl, rfl⟩ | ⟨e, rfl, rfl⟩
  · rw [byteLength_append] at hlength
    have hempty : e = [] := eq_nil_of_byteLength (by omega)
    subst hempty
    simp
  · rw [byteLength_append] at hlength
    have hempty : e = [] := eq_nil_of_byteLength (by omega)
    subst hempty
    simp

/-- **A component ends where its length says.** -/
theorem netstring_append_inj {a b c d : List Char} (h : netstring a ++ b = netstring c ++ d) :
    a = c ∧ b = d := by
  unfold netstring at h
  rw [List.append_assoc, List.append_assoc, List.cons_append, List.cons_append] at h
  obtain ⟨hlength, hrest⟩ := split_at_first (notMem_repr (by decide) _) (notMem_repr (by decide) _) h
  exact append_inj_of_byteLength (repr_injective (String.toList_inj.mp hlength)) hrest

theorem netstring_ne_nil (a : List Char) : netstring a ≠ [] := by
  unfold netstring
  simp

/-- **A sequence of components can be taken apart.** -/
theorem netstrings_injective : Function.Injective netstrings := by
  intro texts
  induction texts with
  | nil =>
      intro texts' h
      cases texts' with
      | nil => rfl
      | cons text' texts' =>
          have hempty : netstring text' ++ netstrings texts' = [] := h.symm
          exact absurd (List.append_eq_nil_iff.mp hempty).1 (netstring_ne_nil text')
  | cons text texts ih =>
      intro texts' h
      cases texts' with
      | nil =>
          have hempty : netstring text ++ netstrings texts = [] := h
          exact absurd (List.append_eq_nil_iff.mp hempty).1 (netstring_ne_nil text)
      | cons text' texts' =>
          have hparts : netstring text ++ netstrings texts = netstring text' ++ netstrings texts' := h
          obtain ⟨hfirst, hrest⟩ := netstring_append_inj hparts
          rw [hfirst, ih hrest]

/-- The same with more text behind, for sequences of one length. -/
theorem netstrings_append_inj {texts texts' : List (List Char)} {rest rest' : List Char}
    (hlength : texts.length = texts'.length)
    (h : netstrings texts ++ rest = netstrings texts' ++ rest') : texts = texts' ∧ rest = rest' := by
  induction texts generalizing texts' with
  | nil =>
      cases texts' with
      | nil => exact ⟨rfl, h⟩
      | cons text' texts' => cases hlength
  | cons text texts ih =>
      cases texts' with
      | nil => cases hlength
      | cons text' texts' =>
          have hparts : netstring text ++ (netstrings texts ++ rest) =
              netstring text' ++ (netstrings texts' ++ rest') := by
            simpa [netstrings, List.append_assoc] using h
          obtain ⟨hfirst, hparts⟩ := netstring_append_inj hparts
          obtain ⟨htexts, hrest⟩ := ih (Nat.succ.inj hlength) hparts
          exact ⟨by rw [hfirst, htexts], hrest⟩

end DuckdbLerobot.Library
