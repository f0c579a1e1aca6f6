import DuckdbLerobot.Library.Fallible
import DuckdbLerobot.Path.PathTemplate
import Mathlib.Algebra.Group.Nat.Defs
import Mathlib.Data.Char

/-!
# The grammar of path templates

A path template is a list of tokens: literal characters, doubled braces and placeholders. The
scanner of `FormatPathTemplate` accepts the concatenations of tokens and nothing else, and what it
returns is the concatenation of what the tokens mean to `str.format` of Python
(`formatPathTemplate_grammar`).
-/

set_option autoImplicit false

namespace DuckdbLerobot.Path

open DuckdbLerobot.Library

/-! ## Tokens -/

/-- The number that digits stand for. -/
def digitsValue (digits : Text) : Nat :=
  digits.foldl (fun value ch => value * 10 + (ch.toNat - '0'.toNat)) 0

/-- Digits of a width that is accepted; there may be none. -/
structure WidthDigits (digits : Text) : Prop where
  decimal : ∀ ch ∈ digits, '0' ≤ ch ∧ ch ≤ '9'
  value_le : digitsValue digits ≤ 1000

/-- What `str.format` makes of an integer for these digits and `d`: a zero in front is the flag that
fills with zeros, and without it a number is aligned to the right with spaces. -/
def pythonDecimal (value : Nat) : Text → Text
  | '0' :: width => value.repr.toList.leftpad (digitsValue width) '0'
  | width => value.repr.toList.leftpad (digitsValue width) ' '

/-- What can follow the name of an index: nothing, a colon, or a colon, digits and `d`. -/
inductive FormatSpec
  | absent
  | empty
  | decimal (digits : Text)

namespace FormatSpec

def text : FormatSpec → Text
  | absent => []
  | empty => [':']
  | decimal digits => ':' :: (digits ++ ['d'])

def WellFormed : FormatSpec → Prop
  | absent => True
  | empty => True
  | decimal digits => WidthDigits digits

def meaning (value : Nat) : FormatSpec → Text
  | absent => value.repr.toList
  | empty => value.repr.toList
  | decimal digits => pythonDecimal value digits

end FormatSpec

/-- What stands between the braces of a placeholder. -/
inductive Placeholder
  | chunkIndex (spec : FormatSpec)
  | fileIndex (spec : FormatSpec)
  | videoKey (colon : Bool)

namespace Placeholder

def text : Placeholder → Text
  | chunkIndex spec => "chunk_index".toList ++ spec.text
  | fileIndex spec => "file_index".toList ++ spec.text
  | videoKey colon => "video_key".toList ++ if colon then [':'] else []

def WellFormed (key : Option Text) : Placeholder → Prop
  | chunkIndex spec => spec.WellFormed
  | fileIndex spec => spec.WellFormed
  | videoKey _ => key.isSome = true

def meaning (chunk file : Nat) (key : Option Text) : Placeholder → Text
  | chunkIndex spec => spec.meaning chunk
  | fileIndex spec => spec.meaning file
  | videoKey _ => key.getD []

end Placeholder

/-- A token of a template. -/
inductive TemplateToken
  | literal (ch : Char)
  | openBrace
  | closeBrace
  | placeholder (field : Placeholder)

namespace TemplateToken

def text : TemplateToken → Text
  | literal ch => [ch]
  | openBrace => ['{', '{']
  | closeBrace => ['}', '}']
  | placeholder field => '{' :: (field.text ++ ['}'])

def WellFormed (key : Option Text) : TemplateToken → Prop
  | literal ch => ch ≠ '{' ∧ ch ≠ '}'
  | openBrace => True
  | closeBrace => True
  | placeholder field => field.WellFormed key

def meaning (chunk file : Nat) (key : Option Text) : TemplateToken → Text
  | literal ch => [ch]
  | openBrace => ['{']
  | closeBrace => ['}']
  | placeholder field => field.meaning chunk file key

end TemplateToken

/-- A template of these tokens, and what it means. -/
structure Denotes (chunk file : Nat) (key : Option Text) (pathTemplate result : Text)
    (tokens : List TemplateToken) : Prop where
  wellFormed : ∀ token ∈ tokens, token.WellFormed key
  text : tokens.flatMap TemplateToken.text = pathTemplate
  meaning : tokens.flatMap (TemplateToken.meaning chunk file key) = result

/-! ## Widths -/

/-- A result in `idx_t`; `none` stands for an overflow. -/
def idxResult (value : Nat) : Option Nat := if value < 2 ^ 64 then some value else none

/-- The loop over the characters of a width, with each operation of `idx_t` checked. -/
def parseWidthChecked (formatSpec fieldName : Text) :
    Text → Nat → Option (Except BinderException Nat)
  | [], width => some (.ok width)
  | ch :: rest, width =>
      if ch < '0' ∨ '9' < ch then
        some (.error ⟨s!"Unsupported LeRobot path format specifier '{String.ofList formatSpec}' for " ++
          s!"{String.ofList fieldName}"⟩)
      else if 1000 < width then
        some (.error ⟨s!"LeRobot path format width is too large for {String.ofList fieldName}"⟩)
      else do
        let scaled ← idxResult (width * 10)
        let next ← idxResult (scaled + (ch.toNat - '0'.toNat))
        parseWidthChecked formatSpec fieldName rest next

/-- The value of a decimal digit. -/
theorem digit_le {ch : Char} (h : ¬(ch < '0' ∨ '9' < ch)) : ch.toNat - '0'.toNat ≤ 9 := by
  rw [not_or, not_lt, not_lt] at h
  have hle : ch.toNat ≤ '9'.toNat := h.2
  have hnine : '9'.toNat = 57 := rfl
  have hzero : '0'.toNat = 48 := rfl
  omega

/-- **No operation on the width overflows, for any number of digits.** -/
theorem parseWidthChecked_eq (formatSpec fieldName digits : Text) (width : Nat) :
    parseWidthChecked formatSpec fieldName digits width =
      some (parseWidth formatSpec fieldName digits width) := by
  induction digits generalizing width with
  | nil => rfl
  | cons ch digits ih =>
      rw [parseWidthChecked, parseWidth]
      split
      · rfl
      · rename_i hdigit
        have hvalue := digit_le hdigit
        split
        · rfl
        · -- the width was at most 1000 before this digit
          have hscaled : idxResult (width * 10) = some (width * 10) := if_pos (by omega)
          have hnext : idxResult (width * 10 + (ch.toNat - '0'.toNat)) =
              some (width * 10 + (ch.toNat - '0'.toNat)) := if_pos (by omega)
          rw [hscaled, Option.bind_eq_bind, Option.bind_some, hnext, Option.bind_some]
          exact ih _

/-- The accumulation from a width on. -/
def widthFrom (width : Nat) (digits : Text) : Nat :=
  digits.foldl (fun value ch => value * 10 + (ch.toNat - '0'.toNat)) width

theorem le_widthFrom (width : Nat) (digits : Text) : width ≤ widthFrom width digits := by
  unfold widthFrom
  induction digits generalizing width with
  | nil => exact le_rfl
  | cons ch digits ih =>
      rw [List.foldl_cons]
      refine le_trans ?_ (ih _)
      omega

theorem parseWidth_eq_ok {formatSpec fieldName digits : Text} {width value : Nat}
    (h : parseWidth formatSpec fieldName digits width = .ok value) :
    (∀ ch ∈ digits, '0' ≤ ch ∧ ch ≤ '9') ∧ value = widthFrom width digits := by
  induction digits generalizing width with
  | nil =>
      cases h
      exact ⟨by simp, rfl⟩
  | cons ch digits ih =>
      rw [parseWidth] at h
      simp only [except_check_eq_ok, not_or, not_lt] at h
      obtain ⟨hdigit, -, h⟩ := h
      obtain ⟨hdigits, hvalue⟩ := ih h
      refine ⟨?_, hvalue⟩
      intro other hother
      rcases List.mem_cons.mp hother with rfl | hmem
      · exact hdigit
      · exact hdigits other hmem

theorem parseWidth_of_digits {formatSpec fieldName digits : Text} {width : Nat}
    (hdigits : ∀ ch ∈ digits, '0' ≤ ch ∧ ch ≤ '9') (hvalue : widthFrom width digits ≤ 1000) :
    parseWidth formatSpec fieldName digits width = .ok (widthFrom width digits) := by
  induction digits generalizing width with
  | nil => rfl
  | cons ch digits ih =>
      have hdigit := hdigits ch List.mem_cons_self
      have hwidth := (le_widthFrom width (ch :: digits)).trans hvalue
      rw [parseWidth, if_neg (by rw [not_or, not_lt, not_lt]; exact hdigit),
        if_neg (by omega)]
      exact ih (fun other hother => hdigits other (List.mem_cons_of_mem _ hother)) hvalue

/-- The flag is no digit of the width. -/
theorem pythonDecimal_eq (value : Nat) (digits : Text) :
    pythonDecimal value digits = value.repr.toList.leftpad (digitsValue digits)
      (if digits.head? = some '0' then '0' else ' ') := by
  unfold pythonDecimal
  split
  · rename_i width
    rw [List.head?_cons, if_pos rfl]
    rfl
  · rename_i hflag
    rw [if_neg]
    intro hhead
    obtain ⟨width, rfl⟩ := List.head?_eq_some_iff.mp hhead
    exact hflag width rfl

/-- A width that was read is used as `str.format` uses it. -/
theorem formatDecimal_digits {value : Nat} {digits fieldName result : Text} :
    formatDecimal value (digits ++ ['d']) fieldName = .ok result ↔
      WidthDigits digits ∧ result = pythonDecimal value digits := by
  have hrepr : (value : Int).repr = value.repr := rfl
  unfold formatDecimal
  rw [if_neg (by omega), if_neg (by simp), if_neg (by simp)]
  dsimp only
  rw [hrepr, List.dropLast_concat, pythonDecimal_eq]
  by_cases hempty : digits = []
  · subst hempty
    have hnone : digitsValue [] = 0 := rfl
    rw [if_pos rfl, hnone, List.leftpad, Nat.zero_sub]
    constructor
    · intro h
      cases h
      exact ⟨⟨by simp, Nat.zero_le _⟩, rfl⟩
    · rintro ⟨-, rfl⟩
      rfl
  · rw [if_neg hempty]
    constructor
    · intro h
      obtain ⟨width, hwidth, h⟩ := except_bind_eq_ok.mp h
      obtain ⟨hdigits, rfl⟩ := parseWidth_eq_ok hwidth
      rw [except_check_eq_ok, not_lt] at h
      obtain ⟨hle, h⟩ := h
      refine ⟨⟨hdigits, hle⟩, ?_⟩
      change _ = List.leftpad (widthFrom 0 digits) _ _
      unfold List.leftpad
      split at h
      · rename_i hlong
        cases h
        rw [Nat.sub_eq_zero_of_le hlong]
        rfl
      · cases h
        rfl
    · rintro ⟨⟨hdigits, hle⟩, rfl⟩
      have hle' : widthFrom 0 digits ≤ 1000 := hle
      rw [parseWidth_of_digits hdigits hle]
      change (if 1000 < widthFrom 0 digits then _ else _) =
        Except.ok (List.leftpad (widthFrom 0 digits) _ _)
      rw [if_neg (not_lt.mpr hle')]
      unfold List.leftpad
      split
      · rename_i hlong
        rw [Nat.sub_eq_zero_of_le hlong]
        rfl
      · rfl

/-- **`FormatDecimal` accepts the specifications of the grammar.** -/
theorem formatDecimal_eq_ok {value : Nat} {formatSpec fieldName result : Text} :
    formatDecimal value formatSpec fieldName = .ok result ↔
      (formatSpec = [] ∧ result = value.repr.toList) ∨
        ∃ digits, formatSpec = digits ++ ['d'] ∧ WidthDigits digits ∧
          result = pythonDecimal value digits := by
  rcases List.eq_nil_or_concat formatSpec with rfl | ⟨digits, last, hspec⟩
  · have hplain : formatDecimal value [] fieldName = .ok value.repr.toList := by
      rw [formatDecimal, if_neg (by omega), if_pos rfl]
      rfl
    rw [hplain]
    constructor
    · intro h
      cases h
      exact .inl ⟨rfl, rfl⟩
    · rintro (⟨-, rfl⟩ | ⟨digits, hnil, -⟩)
      · rfl
      · exact absurd hnil.symm (List.append_ne_nil_of_right_ne_nil _ (List.cons_ne_nil _ _))
  · subst hspec
    rw [List.concat_eq_append]
    have hnonempty : digits ++ [last] ≠ [] :=
      List.append_ne_nil_of_right_ne_nil _ (List.cons_ne_nil _ _)
    by_cases hlast : last = 'd'
    · subst hlast
      rw [formatDecimal_digits]
      constructor
      · rintro ⟨hdigits, hresult⟩
        exact .inr ⟨digits, rfl, hdigits, hresult⟩
      · rintro (⟨hnil, -⟩ | ⟨other, hother, hdigits, hresult⟩)
        · exact absurd hnil hnonempty
        · rw [List.append_cancel_right hother]
          exact ⟨hdigits, hresult⟩
    · have hend : (digits ++ [last]).getLast? ≠ some 'd' := by
        rw [List.getLast?_concat]
        exact fun h => hlast (Option.some.inj h)
      constructor
      · intro h
        rw [formatDecimal, if_neg (by omega)] at h
        dsimp only at h
        rw [if_neg hnonempty, if_pos hend] at h
        cases h
      · rintro (⟨hnil, -⟩ | ⟨other, hother, -⟩)
        · exact absurd hnil hnonempty
        · rw [hother, List.getLast?_concat] at hend
          exact absurd rfl hend

/-! ## Placeholders -/

/-- A placeholder is its name and what follows it from the colon on. -/
theorem fieldName_append {field spec : Text} (hfield : ∀ ch ∈ field, ch ≠ ':')
    (hspec : ∀ ch, spec.head? = some ch → ch = ':') :
    (field ++ spec).takeWhile (· != ':') = field ∧ (field ++ spec).dropWhile (· != ':') = spec := by
  have hall : ∀ ch ∈ field, (ch != ':') = true := fun ch hch => by simpa using hfield ch hch
  rw [List.takeWhile_append_of_pos hall, List.dropWhile_append_of_pos hall]
  cases spec with
  | nil => simp
  | cons ch spec =>
      have hcolon := hspec ch rfl
      subst hcolon
      simp

/-- The text of an index with its specification. -/
theorem formatSpec_of_ok {value : Nat} {rest fieldName result : Text}
    (hrest : ∀ ch, rest.head? = some ch → ch = ':')
    (h : formatDecimal value rest.tail fieldName = .ok result) :
    ∃ spec : FormatSpec, spec.WellFormed ∧ spec.text = rest ∧ spec.meaning value = result := by
  rcases formatDecimal_eq_ok.mp h with ⟨hempty, rfl⟩ | ⟨digits, htail, hdigits, rfl⟩
  · cases rest with
    | nil => exact ⟨.absent, trivial, rfl, rfl⟩
    | cons ch rest =>
        have hcolon := hrest ch rfl
        rw [List.tail_cons] at hempty
        subst hcolon hempty
        exact ⟨.empty, trivial, rfl, rfl⟩
  · cases rest with
    | nil => exact absurd htail.symm (List.append_ne_nil_of_right_ne_nil _ (List.cons_ne_nil _ _))
    | cons ch rest =>
        have hcolon := hrest ch rfl
        rw [List.tail_cons] at htail
        subst hcolon htail
        exact ⟨.decimal digits, hdigits, rfl, rfl⟩

theorem formatDecimal_of_spec {value : Nat} {fieldName : Text} {spec : FormatSpec}
    (h : spec.WellFormed) :
    formatDecimal value spec.text.tail fieldName = .ok (spec.meaning value) := by
  rw [formatDecimal_eq_ok]
  cases spec with
  | absent => exact .inl ⟨rfl, rfl⟩
  | empty => exact .inl ⟨rfl, rfl⟩
  | decimal digits => exact .inr ⟨digits, rfl, h, rfl⟩

theorem head?_specText (spec : FormatSpec) (ch : Char) (h : spec.text.head? = some ch) :
    ch = ':' := by
  cases spec with
  | absent => cases h
  | empty =>
      cases h
      rfl
  | decimal digits =>
      cases h
      rfl

section Expand

variable {chunk file : Nat} {key : Option Text} {pathName : String} {placeholder : Text}

/-- The three names, and the placeholders with another one. -/
theorem expandPlaceholder_cases (chunk file : Nat) (key : Option Text) (pathName : String)
    (placeholder : Text) :
    (placeholder.takeWhile (· != ':') = "chunk_index".toList ∧
        expandPlaceholder chunk file key pathName placeholder =
          formatDecimal chunk (placeholder.dropWhile (· != ':')).tail
            (placeholder.takeWhile (· != ':'))) ∨
      (placeholder.takeWhile (· != ':') = "file_index".toList ∧
        expandPlaceholder chunk file key pathName placeholder =
          formatDecimal file (placeholder.dropWhile (· != ':')).tail
            (placeholder.takeWhile (· != ':'))) ∨
      (placeholder.takeWhile (· != ':') = "video_key".toList ∧ key.isSome = true ∧
        (placeholder.dropWhile (· != ':')).tail = [] ∧
        expandPlaceholder chunk file key pathName placeholder = .ok (key.getD [])) ∨
      ((placeholder.takeWhile (· != ':') = "video_key".toList ∧ key.isSome = true →
          (placeholder.dropWhile (· != ':')).tail ≠ []) ∧
        placeholder.takeWhile (· != ':') ≠ "chunk_index".toList ∧
        placeholder.takeWhile (· != ':') ≠ "file_index".toList ∧
        ∃ error, expandPlaceholder chunk file key pathName placeholder = .error error) := by
  delta expandPlaceholder
  dsimp only
  generalize placeholder.takeWhile (· != ':') = fieldName
  generalize (placeholder.dropWhile (· != ':')).tail = formatSpec
  by_cases hchunk : fieldName = "chunk_index".toList
  · exact .inl ⟨hchunk, if_pos hchunk⟩
  · rw [if_neg hchunk]
    by_cases hfile : fieldName = "file_index".toList
    · exact .inr (.inl ⟨hfile, if_pos hfile⟩)
    · rw [if_neg hfile]
      right
      right
      by_cases hkey : fieldName = "video_key".toList ∧ key.isSome
      · rw [if_pos hkey]
        by_cases hspec : formatSpec = []
        · exact .inl ⟨hkey.1, hkey.2, hspec, if_neg (not_not.mpr hspec)⟩
        · exact .inr ⟨fun _ => hspec, hchunk, hfile, _, if_pos hspec⟩
      · rw [if_neg hkey]
        exact .inr ⟨fun h => absurd h hkey, hchunk, hfile, _, rfl⟩

/-- An expanded placeholder is one of the grammar. -/
theorem exists_placeholder {value : Text}
    (h : expandPlaceholder chunk file key pathName placeholder = .ok value) :
    ∃ field : Placeholder, field.WellFormed key ∧ field.text = placeholder ∧
      field.meaning chunk file key = value := by
  have hsplit := List.takeWhile_append_dropWhile (p := (· != ':')) (l := placeholder)
  have hrest : ∀ ch, (placeholder.dropWhile (· != ':')).head? = some ch → ch = ':' := by
    intro ch hhead
    have hnot := List.head?_dropWhile_not (· != ':') placeholder
    rw [hhead] at hnot
    simpa using hnot
  rcases expandPlaceholder_cases chunk file key pathName placeholder with
      ⟨hfield, heq⟩ | ⟨hfield, heq⟩ | ⟨hfield, hkey, hspec, heq⟩ | ⟨-, -, -, error, heq⟩
  · rw [heq] at h
    obtain ⟨spec, hspec, htext, hmeaning⟩ := formatSpec_of_ok hrest h
    have hplaceholder : (Placeholder.chunkIndex spec).text = placeholder := by
      change "chunk_index".toList ++ spec.text = placeholder
      rw [htext, ← hfield]
      exact hsplit
    exact ⟨.chunkIndex spec, hspec, hplaceholder, hmeaning⟩
  · rw [heq] at h
    obtain ⟨spec, hspec, htext, hmeaning⟩ := formatSpec_of_ok hrest h
    have hplaceholder : (Placeholder.fileIndex spec).text = placeholder := by
      change "file_index".toList ++ spec.text = placeholder
      rw [htext, ← hfield]
      exact hsplit
    exact ⟨.fileIndex spec, hspec, hplaceholder, hmeaning⟩
  · rw [heq] at h
    have hcolon : ∃ colon : Bool, (if colon then [':'] else []) =
        placeholder.dropWhile (· != ':') := by
      cases hdrop : placeholder.dropWhile (· != ':') with
      | nil => exact ⟨false, rfl⟩
      | cons ch rest =>
          rw [hdrop] at hrest hspec
          rw [List.tail_cons] at hspec
          rw [hrest ch rfl, hspec]
          exact ⟨true, rfl⟩
    obtain ⟨colon, hcolon⟩ := hcolon
    have hplaceholder : (Placeholder.videoKey colon).text = placeholder := by
      change "video_key".toList ++ (if colon then [':'] else []) = placeholder
      rw [hcolon, ← hfield]
      exact hsplit
    exact ⟨.videoKey colon, hkey, hplaceholder, Except.ok.inj h⟩
  · rw [heq] at h
    cases h

/-- A placeholder of the grammar is expanded to what it means. -/
theorem expandPlaceholder_text {field : Placeholder} (hfield : field.WellFormed key) :
    expandPlaceholder chunk file key pathName field.text = .ok (field.meaning chunk file key) := by
  have hfileChunk : "file_index".toList ≠ "chunk_index".toList := by decide
  have hkeyChunk : "video_key".toList ≠ "chunk_index".toList := by decide
  have hkeyFile : "video_key".toList ≠ "file_index".toList := by decide
  cases field with
  | chunkIndex spec =>
      have hname : ∀ ch ∈ "chunk_index".toList, ch ≠ ':' := by simp
      obtain ⟨htake, hdrop⟩ := fieldName_append hname (head?_specText spec)
      rcases expandPlaceholder_cases chunk file key pathName
        ("chunk_index".toList ++ spec.text) with
          ⟨-, heq⟩ | ⟨hother, -⟩ | ⟨hother, -⟩ | ⟨-, hother, -⟩
      · refine heq.trans ?_
        rw [hdrop]
        exact formatDecimal_of_spec hfield
      · exact absurd (hother.symm.trans htake) hfileChunk
      · exact absurd (hother.symm.trans htake) hkeyChunk
      · exact absurd htake hother
  | fileIndex spec =>
      have hname : ∀ ch ∈ "file_index".toList, ch ≠ ':' := by simp
      obtain ⟨htake, hdrop⟩ := fieldName_append hname (head?_specText spec)
      rcases expandPlaceholder_cases chunk file key pathName
        ("file_index".toList ++ spec.text) with
          ⟨hother, -⟩ | ⟨-, heq⟩ | ⟨hother, -⟩ | ⟨-, -, hother, -⟩
      · exact absurd (htake.symm.trans hother) hfileChunk
      · refine heq.trans ?_
        rw [hdrop]
        exact formatDecimal_of_spec hfield
      · exact absurd (hother.symm.trans htake) hkeyFile
      · exact absurd htake hother
  | videoKey colon =>
      have hname : ∀ ch ∈ "video_key".toList, ch ≠ ':' := by simp
      have hcolon : ∀ ch, (if colon then [':'] else []).head? = some ch → ch = ':' := by
        cases colon <;> simp
      obtain ⟨htake, hdrop⟩ := fieldName_append hname hcolon
      rcases expandPlaceholder_cases chunk file key pathName
        ("video_key".toList ++ if colon then [':'] else []) with
          ⟨hother, -⟩ | ⟨hother, -⟩ | ⟨-, -, -, heq⟩ | ⟨hspec, -⟩
      · exact absurd (htake.symm.trans hother) hkeyChunk
      · exact absurd (htake.symm.trans hother) hkeyFile
      · exact heq
      · refine absurd ?_ (hspec ⟨htake, hfield⟩)
        rw [hdrop]
        cases colon <;> rfl

end Expand

/-! ## The scanner -/

/-- A name without braces keeps a placeholder from starting or ending too early. -/
theorem braces_append {name rest : Text} (hname : ∀ ch ∈ name, ch ≠ '{' ∧ ch ≠ '}')
    (hnonempty : name ≠ []) (hrest : '}' ∉ rest) :
    '}' ∉ name ++ rest ∧ (name ++ rest).head? ≠ some '{' := by
  constructor
  · intro hmem
    rcases List.mem_append.mp hmem with hleft | hright
    · exact (hname _ hleft).2 rfl
    · exact hrest hright
  · cases name with
    | nil => exact absurd rfl hnonempty
    | cons ch name =>
        intro hhead
        exact (hname ch List.mem_cons_self).1 (Option.some.inj hhead)

theorem specText_closed {spec : FormatSpec} (hspec : spec.WellFormed) : '}' ∉ spec.text := by
  cases spec with
  | absent => simp [FormatSpec.text]
  | empty => simp [FormatSpec.text]
  | decimal digits =>
      intro hmem
      simp only [FormatSpec.text, List.mem_cons, List.mem_append, List.not_mem_nil,
        or_false] at hmem
      rcases hmem with hcolon | hdigit | hd
      · exact absurd hcolon (by decide)
      · exact absurd (hspec.decimal _ hdigit).2 (by decide)
      · exact absurd hd (by decide)

/-- A placeholder of the grammar has no closing brace and does not start with an opening one. -/
theorem placeholder_braces {key : Option Text} {field : Placeholder} (hfield : field.WellFormed key) :
    '}' ∉ field.text ∧ field.text.head? ≠ some '{' := by
  cases field with
  | chunkIndex spec =>
      have hname : ∀ ch ∈ "chunk_index".toList, ch ≠ '{' ∧ ch ≠ '}' := by simp
      exact braces_append hname (by simp) (specText_closed hfield)
  | fileIndex spec =>
      have hname : ∀ ch ∈ "file_index".toList, ch ≠ '{' ∧ ch ≠ '}' := by simp
      exact braces_append hname (by simp) (specText_closed hfield)
  | videoKey colon =>
      have hname : ∀ ch ∈ "video_key".toList, ch ≠ '{' ∧ ch ≠ '}' := by simp
      have hcolon : '}' ∉ (if colon then [':'] else []) := by cases colon <;> simp
      exact braces_append hname (by simp) hcolon

section Scanner

variable {chunk file : Nat} {key : Option Text} {pathName pathTemplate : String}

/-- The scanner reads the tokens of the grammar. -/
theorem formatCharacters_tokens {tokens : List TemplateToken}
    (h : ∀ token ∈ tokens, token.WellFormed key) :
    formatCharacters (expandPlaceholder chunk file key pathName) pathName pathTemplate none
        (tokens.flatMap TemplateToken.text) =
      .ok (tokens.flatMap (TemplateToken.meaning chunk file key)) := by
  induction tokens with
  | nil => rw [List.flatMap_nil, List.flatMap_nil, formatCharacters]
  | cons token tokens ih =>
      have hrest := ih fun other hother => h other (List.mem_cons_of_mem _ hother)
      have htoken := h token List.mem_cons_self
      rw [List.flatMap_cons, List.flatMap_cons]
      cases token with
      | literal ch =>
          have hliteral : ∀ other ∈ [ch], other ≠ '{' ∧ other ≠ '}' := by
            intro other hother
            rw [List.mem_singleton.mp hother]
            exact htoken
          exact formatCharacters_literal hliteral hrest
      | openBrace =>
          change formatCharacters _ _ _ none ('{' :: '{' :: tokens.flatMap TemplateToken.text) = _
          rw [formatCharacters, hrest]
          rfl
      | closeBrace =>
          change formatCharacters _ _ _ none ('}' :: '}' :: tokens.flatMap TemplateToken.text) = _
          rw [formatCharacters, hrest]
          rfl
      | placeholder field =>
          obtain ⟨hclose, hopen⟩ := placeholder_braces htoken
          have hplaceholder := formatCharacters_placeholder hclose hopen
            (expandPlaceholder_text htoken) hrest
          change formatCharacters _ _ _ none
            ('{' :: ((field.text ++ ['}']) ++ tokens.flatMap TemplateToken.text)) = _
          rw [List.append_assoc]
          exact hplaceholder

/-- What is left of a template, inside a placeholder or outside of one. -/
def Remaining (chunk file : Nat) (key : Option Text) (placeholder : Option Text)
    (rest result : Text) : Prop :=
  match placeholder with
  | none => ∃ tokens, Denotes chunk file key rest result tokens
  | some before => ∃ inner after value tail tokens, rest = inner ++ '}' :: after ∧
      (∃ field : Placeholder, field.WellFormed key ∧ field.text = before ++ inner ∧
        field.meaning chunk file key = value) ∧
      Denotes chunk file key after tail tokens ∧ result = value ++ tail

/-- A token in front. -/
theorem Denotes.cons {rest result : Text} {tokens : List TemplateToken}
    (h : Denotes chunk file key rest result tokens) (token : TemplateToken) (htoken : token.WellFormed key) :
    Denotes chunk file key (token.text ++ rest) (token.meaning chunk file key ++ result)
      (token :: tokens) where
  wellFormed := by
    intro other hother
    rcases List.mem_cons.mp hother with rfl | hmem
    · exact htoken
    · exact h.wellFormed other hmem
  text := by rw [List.flatMap_cons, h.text]
  meaning := by rw [List.flatMap_cons, h.meaning]

/-- **What the scanner accepts is made of tokens.** The induction follows the scanner. -/
theorem remaining_of_formatCharacters (placeholder : Option Text) (rest : Text) {result : Text}
    (h : formatCharacters (expandPlaceholder chunk file key pathName) pathName pathTemplate
      placeholder rest = .ok result) :
    Remaining chunk file key placeholder rest result := by
  induction placeholder, rest using formatCharacters.induct generalizing result with
  | case1 =>
      rw [formatCharacters] at h
      cases h
      exact ⟨[], by simp, rfl, rfl⟩
  | case2 rest ih =>
      rw [formatCharacters] at h
      obtain ⟨tail, htail, h⟩ := except_bind_eq_ok.mp h
      cases h
      obtain ⟨tokens, htokens⟩ := ih htail
      exact ⟨_, htokens.cons .openBrace trivial⟩
  | case3 rest hsingle ih =>
      rw [formatCharacters] at h
      · obtain ⟨inner, after, value, tail, tokens, rfl, ⟨field, hfield, htext, rfl⟩, htokens, rfl⟩ :=
          ih h
        have hcons := htokens.cons (.placeholder field) hfield
        rw [TemplateToken.text, htext, List.nil_append, List.cons_append, List.append_assoc] at hcons
        exact ⟨_, hcons⟩
      · exact hsingle
  | case4 rest ih =>
      rw [formatCharacters] at h
      obtain ⟨tail, htail, h⟩ := except_bind_eq_ok.mp h
      cases h
      obtain ⟨tokens, htokens⟩ := ih htail
      exact ⟨_, htokens.cons .closeBrace trivial⟩
  | case5 rest hsingle =>
      rw [formatCharacters] at h
      · cases h
      · exact hsingle
  | case6 ch rest _ hopen _ hclose ih =>
      rw [formatCharacters] at h
      · obtain ⟨tail, htail, h⟩ := except_bind_eq_ok.mp h
        cases h
        obtain ⟨tokens, htokens⟩ := ih htail
        exact ⟨_, htokens.cons (.literal ch) ⟨hopen, hclose⟩⟩
      all_goals
        intros
        simp_all
  | case7 placeholder =>
      rw [formatCharacters] at h
      cases h
  | case8 placeholder rest ih =>
      rw [formatCharacters] at h
      obtain ⟨value, hvalue, h⟩ := except_bind_eq_ok.mp h
      obtain ⟨tail, htail, h⟩ := except_bind_eq_ok.mp h
      cases h
      obtain ⟨tokens, htokens⟩ := ih htail
      refine ⟨[], rest, value, tail, tokens, rfl, ?_, htokens, rfl⟩
      rw [List.append_nil]
      exact exists_placeholder hvalue
  | case9 placeholder ch rest hclose ih =>
      rw [formatCharacters] at h
      · obtain ⟨inner, after, value, tail, tokens, rfl, hfield, htokens, rfl⟩ := ih h
        refine ⟨ch :: inner, after, value, tail, tokens, rfl, ?_, htokens, rfl⟩
        rw [List.append_assoc] at hfield
        exact hfield
      · exact hclose

end Scanner

/-- **The template parser accepts its grammar and nothing else.** What it returns is what the tokens
mean, and no width overflows on the way. -/
theorem formatPathTemplate_grammar (pathTemplate : Text) (chunkIndex fileIndex : Nat)
    (videoKey : Option Text) (pathName : String) :
    (∀ result, formatPathTemplate pathTemplate chunkIndex fileIndex videoKey pathName = .ok result ↔
      ∃ tokens : List TemplateToken, (∀ token ∈ tokens, token.WellFormed videoKey) ∧
        tokens.flatMap TemplateToken.text = pathTemplate ∧
        tokens.flatMap (TemplateToken.meaning chunkIndex fileIndex videoKey) = result) ∧
      ∀ formatSpec fieldName digits, parseWidthChecked formatSpec fieldName digits 0 =
        some (parseWidth formatSpec fieldName digits 0) := by
  constructor
  · intro result
    constructor
    · intro h
      obtain ⟨tokens, htokens⟩ := remaining_of_formatCharacters none pathTemplate h
      exact ⟨tokens, htokens.wellFormed, htokens.text, htokens.meaning⟩
    · rintro ⟨tokens, htokens, rfl, rfl⟩
      exact formatCharacters_tokens htokens
  · intro formatSpec fieldName digits
    exact parseWidthChecked_eq formatSpec fieldName digits 0

example : TemplateToken.meaning 0 12 none (.placeholder (.fileIndex (.decimal "05".toList))) =
    "00012".toList := by decide

end DuckdbLerobot.Path
