import DuckdbLerobot.Library.Decimal
import Mathlib.Data.List.Forall2

/-!
# JSON texts

A scanner for the texts of RFC 8259, as bytes. What a writer builds from parts is read back part by part: `Reads text
value` says that a text is read to its end and not further, wherever it stands before a delimiter, and there is one
rule for each kind of value (`reads_string`, `reads_number`, `reads_array`, `reads_object`). The rules are about any
values inside, so that a text with a hole is read like its parts.
-/

set_option autoImplicit false

namespace DuckdbLerobot.Library

/-- A value of RFC 8259. The content of a string is in UTF-8. -/
inductive Json
  | null
  | boolean (value : Bool)
  | number (value : ℚ)
  | string (content : List UInt8)
  | array (elements : List Json)
  | object (members : List (List UInt8 × Json))

namespace Json

/-! ## Strings -/

/-- The value of a hexadecimal digit. -/
def hexValue (byte : UInt8) : Option Nat :=
  if 0x30 ≤ byte.toNat ∧ byte.toNat ≤ 0x39 then some (byte.toNat - 0x30)
  else if 0x41 ≤ byte.toNat ∧ byte.toNat ≤ 0x46 then some (byte.toNat - 0x37)
  else if 0x61 ≤ byte.toNat ∧ byte.toNat ≤ 0x66 then some (byte.toNat - 0x57)
  else none

/-- The code unit of four hexadecimal digits. -/
def codeUnit (a b c d : UInt8) : Option Nat := do
  let a ← hexValue a
  let b ← hexValue b
  let c ← hexValue c
  let d ← hexValue d
  some (((a * 16 + b) * 16 + c) * 16 + d)

/-- A code point in UTF-8. -/
def utf8 (code : Nat) : List UInt8 :=
  if code < 0x80 then [UInt8.ofNat code]
  else if code < 0x800 then [UInt8.ofNat (0xC0 + code / 0x40), UInt8.ofNat (0x80 + code % 0x40)]
  else if code < 0x10000 then
    [UInt8.ofNat (0xE0 + code / 0x1000), UInt8.ofNat (0x80 + code / 0x40 % 0x40), UInt8.ofNat (0x80 + code % 0x40)]
  else
    [UInt8.ofNat (0xF0 + code / 0x40000), UInt8.ofNat (0x80 + code / 0x1000 % 0x40),
      UInt8.ofNat (0x80 + code / 0x40 % 0x40), UInt8.ofNat (0x80 + code % 0x40)]

/-- The second half of a surrogate pair. -/
def lowSurrogate (slash letter a b c d : UInt8) : Option Nat :=
  if slash = 0x5C ∧ letter = 0x75 then
    (codeUnit a b c d).filter fun code => decide (0xDC00 ≤ code ∧ code < 0xE000)
  else none

/-- The byte of an escape of two characters. -/
def shortEscape (byte : UInt8) : Option UInt8 :=
  if byte = 0x22 then some 0x22
  else if byte = 0x5C then some 0x5C
  else if byte = 0x2F then some 0x2F
  else if byte = 0x62 then some 0x08
  else if byte = 0x66 then some 0x0C
  else if byte = 0x6E then some 0x0A
  else if byte = 0x72 then some 0x0D
  else if byte = 0x74 then some 0x09
  else none

/-- The content comes before that of the rest. -/
def before (content : List UInt8) (rest : List UInt8 × List UInt8) : List UInt8 × List UInt8 :=
  (content ++ rest.1, rest.2)

/-- The characters of a string after its first quotation mark, up to the last one. -/
def scanString : List UInt8 → Option (List UInt8 × List UInt8)
  | [] => none
  | byte :: rest =>
      if byte = 0x22 then some ([], rest)
      else if byte < 0x20 then none
      else if byte = 0x5C then
        match rest with
        | [] => none
        | escape :: rest =>
            if escape = 0x75 then
              match rest with
              | a :: b :: c :: d :: rest =>
                  match codeUnit a b c d with
                  | none => none
                  | some unit =>
                      if 0xD800 ≤ unit ∧ unit < 0xDC00 then
                        match rest with
                        | slash :: letter :: a :: b :: c :: d :: rest =>
                            match lowSurrogate slash letter a b c d with
                            | none => none
                            | some low =>
                                (scanString rest).map
                                  (before (utf8 (0x10000 + (unit - 0xD800) * 0x400 + (low - 0xDC00))))
                        | _ => none
                      else if 0xDC00 ≤ unit ∧ unit < 0xE000 then none
                      else (scanString rest).map (before (utf8 unit))
              | _ => none
            else
              match shortEscape escape with
              | none => none
              | some byte => (scanString rest).map (before [byte])
      else (scanString rest).map (before [byte])

/-! ## Numbers -/

/-- A byte that is a digit. -/
def isDigit (byte : UInt8) : Bool := decide (0x30 ≤ byte.toNat ∧ byte.toNat ≤ 0x39)

/-- The digits at the begin of a text. -/
def scanDigits : List UInt8 → List Nat × List UInt8
  | [] => ([], [])
  | byte :: rest =>
      if isDigit byte then ((byte.toNat - 0x30) :: (scanDigits rest).1, (scanDigits rest).2)
      else ([], byte :: rest)

/-- The digits before the point. There is one, and no leading zero. -/
def scanInteger (input : List UInt8) : Option (List Nat × List UInt8) :=
  let (digits, rest) := scanDigits input
  if digits = [] ∨ (digits.head? = some 0 ∧ digits ≠ [0]) then none else some (digits, rest)

/-- The digits after a point. -/
def scanFraction : List UInt8 → Option (List Nat × List UInt8)
  | [] => some ([], [])
  | byte :: rest =>
      if byte = 0x2E then
        let (digits, rest) := scanDigits rest
        if digits = [] then none else some (digits, rest)
      else some ([], byte :: rest)

/-- The digits of an exponent, after its sign. -/
def scanExponentDigits (negative : Bool) (input : List UInt8) : Option (Option (Bool × List Nat) × List UInt8) :=
  let (digits, rest) := scanDigits input
  if digits = [] then none else some (some (negative, digits), rest)

/-- The sign of an exponent. -/
def scanExponentSign : List UInt8 → Option (Option (Bool × List Nat) × List UInt8)
  | [] => none
  | byte :: rest =>
      if byte = 0x2D then scanExponentDigits true rest
      else if byte = 0x2B then scanExponentDigits false rest
      else scanExponentDigits false (byte :: rest)

/-- An exponent. -/
def scanExponent : List UInt8 → Option (Option (Bool × List Nat) × List UInt8)
  | [] => some (none, [])
  | byte :: rest => if byte = 0x65 ∨ byte = 0x45 then scanExponentSign rest else some (none, byte :: rest)

/-- A number without its sign. -/
def scanUnsigned (negative : Bool) (input : List UInt8) : Option (DecimalText × List UInt8) := do
  let (integer, rest) ← scanInteger input
  let (fraction, rest) ← scanFraction rest
  let (exponent, rest) ← scanExponent rest
  some (⟨negative, integer, fraction, exponent⟩, rest)

/-- A number. -/
def scanNumber : List UInt8 → Option (DecimalText × List UInt8)
  | [] => none
  | byte :: rest => if byte = 0x2D then scanUnsigned true rest else scanUnsigned false (byte :: rest)

/-! ## Values -/

/-- White space. -/
def isSpace (byte : UInt8) : Bool := byte = 0x20 || byte = 0x09 || byte = 0x0A || byte = 0x0D

/-- The text after some white space. -/
def skipSpace (input : List UInt8) : List UInt8 := input.dropWhile isSpace

/-- One of the words `true`, `false` and `null`. -/
def scanWord (word : List UInt8) (value : Json) (input : List UInt8) : Option (Json × List UInt8) :=
  if word <+: input then some (value, input.drop word.length) else none

mutual

/-- A value. The number is the fuel, one for each value inside of it. -/
def scanValue : Nat → List UInt8 → Option (Json × List UInt8)
  | 0, _ => none
  | fuel + 1, input =>
      match skipSpace input with
      | [] => none
      | byte :: rest =>
          if byte = 0x22 then (scanString rest).map fun result => (.string result.1, result.2)
          else if byte = 0x5B then
            match skipSpace rest with
            | [] => none
            | next :: after => if next = 0x5D then some (.array [], after) else
                (scanElements fuel rest).map fun result => (.array result.1, result.2)
          else if byte = 0x7B then
            match skipSpace rest with
            | [] => none
            | next :: after => if next = 0x7D then some (.object [], after) else
                (scanMembers fuel rest).map fun result => (.object result.1, result.2)
          else if byte = 0x74 then scanWord [0x74, 0x72, 0x75, 0x65] (.boolean true) (byte :: rest)
          else if byte = 0x66 then scanWord [0x66, 0x61, 0x6C, 0x73, 0x65] (.boolean false) (byte :: rest)
          else if byte = 0x6E then scanWord [0x6E, 0x75, 0x6C, 0x6C] .null (byte :: rest)
          else (scanNumber (byte :: rest)).map fun result => (.number result.1.value, result.2)

/-- The elements of an array and its last bracket. -/
def scanElements : Nat → List UInt8 → Option (List Json × List UInt8)
  | 0, _ => none
  | fuel + 1, input =>
      match scanValue fuel input with
      | none => none
      | some (element, rest) =>
          match skipSpace rest with
          | [] => none
          | next :: after =>
              if next = 0x2C then (scanElements fuel after).map fun result => (element :: result.1, result.2)
              else if next = 0x5D then some ([element], after)
              else none

/-- The members of an object and its last brace. -/
def scanMembers : Nat → List UInt8 → Option (List (List UInt8 × Json) × List UInt8)
  | 0, _ => none
  | fuel + 1, input =>
      match skipSpace input with
      | [] => none
      | quote :: rest =>
          if quote ≠ 0x22 then none
          else
            match scanString rest with
            | none => none
            | some (name, rest) =>
                match skipSpace rest with
                | [] => none
                | colon :: rest =>
                    if colon ≠ 0x3A then none
                    else
                      match scanValue fuel rest with
                      | none => none
                      | some (value, rest) =>
                          match skipSpace rest with
                          | [] => none
                          | next :: after =>
                              if next = 0x2C then
                                (scanMembers fuel after).map fun result => ((name, value) :: result.1, result.2)
                              else if next = 0x7D then some ([(name, value)], after)
                              else none

end

/-- The value of a whole text. -/
def parse (input : List UInt8) : Option Json :=
  match scanValue input.length input with
  | none => none
  | some (value, rest) => if skipSpace rest = [] then some value else none

/-! ## Texts of numbers -/

/-- The character of a digit. -/
def digitByte (digit : Nat) : UInt8 := UInt8.ofNat (0x30 + digit)

/-- The characters after the point, and the point. -/
def fractionBytes (digits : List Nat) : List UInt8 := if digits = [] then [] else 0x2E :: digits.map digitByte

/-- The characters of an exponent, with its sign. -/
def exponentBytes : Option (Bool × List Nat) → List UInt8
  | none => []
  | some (negative, digits) => 0x65 :: (if negative then 0x2D else 0x2B) :: digits.map digitByte

/-- The characters of a number. -/
def numberBytes (text : DecimalText) : List UInt8 :=
  (if text.negative then [0x2D] else []) ++ text.integer.map digitByte ++ fractionBytes text.fraction ++
    exponentBytes text.exponent

/-- The bytes of a number that is followed by more of it. -/
def isNumberByte (byte : UInt8) : Bool := isDigit byte || byte = 0x2E || byte = 0x65 || byte = 0x45

/-- A text that does not continue a number. -/
def Delimited (rest : List UInt8) : Prop := ∀ byte, rest.head? = some byte → isNumberByte byte = false

theorem delimited_nil : Delimited [] := by
  intro byte h
  cases h

theorem delimited_cons {byte : UInt8} {rest : List UInt8} (h : isNumberByte byte = false) :
    Delimited (byte :: rest) := by
  intro first hfirst
  rw [← Option.some.inj hfirst]
  exact h

section Numbers

theorem toNat_digitByte {digit : Nat} (h : digit < 10) : (digitByte digit).toNat = 0x30 + digit := by
  rw [digitByte, UInt8.toNat_ofNat_of_lt' (by rw [UInt8.size]; omega)]

theorem isDigit_digitByte {digit : Nat} (h : digit < 10) : isDigit (digitByte digit) = true := by
  rw [isDigit, toNat_digitByte h]
  exact decide_eq_true (by omega)

/-- Digits are read up to the first byte that is none. -/
theorem scanDigits_append {digits : List Nat} (h : ∀ digit ∈ digits, digit < 10) {rest : List UInt8}
    (hrest : ∀ byte, rest.head? = some byte → isDigit byte = false) :
    scanDigits (digits.map digitByte ++ rest) = (digits, rest) := by
  induction digits with
  | nil =>
      cases rest with
      | nil => rfl
      | cons byte rest =>
          rw [List.map_nil, List.nil_append, scanDigits, hrest byte rfl]
          rfl
  | cons digit digits ih =>
      have hdigit := h digit List.mem_cons_self
      rw [List.map_cons, List.cons_append, scanDigits, if_pos (isDigit_digitByte hdigit),
        ih fun d hd => h d (List.mem_cons_of_mem digit hd), toNat_digitByte hdigit, Nat.add_sub_cancel_left]

theorem isDigit_of_delimited {rest : List UInt8} (h : Delimited rest) :
    ∀ byte, rest.head? = some byte → isDigit byte = false := by
  intro byte hbyte
  have hnumber := h byte hbyte
  cases hdigit : isDigit byte with
  | false => rfl
  | true =>
      rw [isNumberByte, hdigit] at hnumber
      exact hnumber

/-- The exponent begins with a letter. -/
theorem head?_exponentBytes {exponent : Option (Bool × List Nat)} {rest : List UInt8} {byte : UInt8}
    (h : (exponentBytes exponent ++ rest).head? = some byte) : byte = 0x65 ∨ rest.head? = some byte := by
  cases exponent with
  | none => exact .inr h
  | some parts => exact .inl (Option.some.inj h).symm

theorem scanExponentSign_append {negative : Bool} {digits : List Nat} (hne : digits ≠ [])
    (hlt : ∀ digit ∈ digits, digit < 10) {rest : List UInt8} (hrest : Delimited rest) :
    scanExponentSign ((if negative then 0x2D else 0x2B) :: (digits.map digitByte ++ rest)) =
      some (some (negative, digits), rest) := by
  have hdigits := scanDigits_append hlt (isDigit_of_delimited hrest)
  cases negative with
  | true =>
      change scanExponentDigits true (digits.map digitByte ++ rest) = _
      rw [scanExponentDigits, hdigits]
      exact if_neg hne
  | false =>
      change scanExponentDigits false (digits.map digitByte ++ rest) = _
      rw [scanExponentDigits, hdigits]
      exact if_neg hne

theorem scanExponent_append {exponent : Option (Bool × List Nat)}
    (h : ∀ negative digits, exponent = some (negative, digits) → digits ≠ [] ∧ ∀ digit ∈ digits, digit < 10)
    {rest : List UInt8} (hrest : Delimited rest) :
    scanExponent (exponentBytes exponent ++ rest) = some (exponent, rest) := by
  cases exponent with
  | none =>
      cases rest with
      | nil => rfl
      | cons byte rest =>
          have hbyte := hrest byte rfl
          simp only [isNumberByte, Bool.or_eq_false_iff, decide_eq_false_iff_not] at hbyte
          exact if_neg (not_or.mpr ⟨hbyte.1.2, hbyte.2⟩)
  | some parts =>
      obtain ⟨negative, digits⟩ := parts
      obtain ⟨hne, hlt⟩ := h negative digits rfl
      exact scanExponentSign_append hne hlt hrest

theorem scanFraction_append {digits : List Nat} (hlt : ∀ digit ∈ digits, digit < 10) {rest : List UInt8}
    (hdigit : ∀ byte, rest.head? = some byte → isDigit byte = false ∧ byte ≠ 0x2E) :
    scanFraction (fractionBytes digits ++ rest) = some (digits, rest) := by
  rw [fractionBytes]
  split
  · next hnil =>
    rw [hnil]
    cases rest with
    | nil => rfl
    | cons byte rest => exact if_neg (hdigit byte rfl).2
  · next hne =>
    have hdigits := scanDigits_append hlt fun byte hbyte => (hdigit byte hbyte).1
    rw [List.cons_append, scanFraction, if_pos rfl, hdigits]
    exact if_neg hne

theorem scanInteger_append {digits : List Nat} (hne : digits ≠ []) (hlead : digits.head? = some 0 → digits = [0])
    (hlt : ∀ digit ∈ digits, digit < 10) {rest : List UInt8}
    (hdigit : ∀ byte, rest.head? = some byte → isDigit byte = false) :
    scanInteger (digits.map digitByte ++ rest) = some (digits, rest) := by
  rw [scanInteger, scanDigits_append hlt hdigit]
  dsimp only
  rw [if_neg]
  rintro (hnil | ⟨hzero, hlong⟩)
  · exact hne hnil
  · exact hlong (hlead hzero)

/-- **A number is read to its end.** -/
theorem scanNumber_append {text : DecimalText} (h : text.WellFormed) {rest : List UInt8} (hrest : Delimited rest) :
    scanNumber (numberBytes text ++ rest) = some (text, rest) := by
  have hexponentHead : ∀ byte, (exponentBytes text.exponent ++ rest).head? = some byte →
      isDigit byte = false ∧ byte ≠ 0x2E := by
    intro byte hbyte
    rcases head?_exponentBytes hbyte with rfl | hlater
    · exact ⟨rfl, by decide⟩
    · have hnumber := hrest byte hlater
      simp only [isNumberByte, Bool.or_eq_false_iff, decide_eq_false_iff_not] at hnumber
      exact ⟨hnumber.1.1.1, hnumber.1.1.2⟩
  have hfractionHead : ∀ byte,
      (fractionBytes text.fraction ++ (exponentBytes text.exponent ++ rest)).head? = some byte →
      isDigit byte = false := by
    intro byte hbyte
    rw [fractionBytes] at hbyte
    split at hbyte
    · exact (hexponentHead byte hbyte).1
    · rw [← Option.some.inj hbyte]
      rfl
  have hunsigned : scanUnsigned text.negative (text.integer.map digitByte ++
      (fractionBytes text.fraction ++ (exponentBytes text.exponent ++ rest))) = some (text, rest) := by
    rw [scanUnsigned, scanInteger_append h.integer_ne_nil h.leading h.integer_lt hfractionHead]
    simp only [Option.bind_eq_bind, Option.bind_some]
    rw [scanFraction_append h.fraction_lt hexponentHead, Option.bind_some, scanExponent_append h.exponent hrest]
    rfl
  rw [numberBytes, List.append_assoc, List.append_assoc, List.append_assoc]
  cases hnegative : text.negative with
  | true =>
      rw [hnegative] at hunsigned
      exact hunsigned
  | false =>
      rw [hnegative] at hunsigned
      rw [if_neg Bool.false_ne_true, List.nil_append]
      -- the first digit is no sign
      cases hinteger : text.integer with
      | nil => exact absurd hinteger h.integer_ne_nil
      | cons digit digits =>
          have hdigit := h.integer_lt digit (hinteger ▸ List.mem_cons_self)
          rw [hinteger, List.map_cons, List.cons_append] at hunsigned
          rw [List.map_cons, List.cons_append, scanNumber, if_neg, hunsigned]
          intro hsign
          have hvalue := congrArg UInt8.toNat hsign
          rw [toNat_digitByte hdigit] at hvalue
          have hminus : (0x2D : UInt8).toNat = 45 := rfl
          omega

end Numbers

/-! ## Texts of strings -/

section Strings

/-- Most bytes stand for themselves. -/
theorem scanString_plain {byte : UInt8} (hcontrol : ¬byte < 0x20) (hquote : byte ≠ 0x22) (hslash : byte ≠ 0x5C)
    (rest : List UInt8) : scanString (byte :: rest) = (scanString rest).map (before [byte]) := by
  rw [scanString.eq_def]
  dsimp only
  rw [if_neg hquote, if_neg hcontrol, if_neg hslash]

/-- An escape of two characters. -/
theorem scanString_short {escape byte : UInt8} (h : shortEscape escape = some byte) (rest : List UInt8) :
    scanString (0x5C :: escape :: rest) = (scanString rest).map (before [byte]) := by
  have hletter : escape ≠ 0x75 := by
    rintro rfl
    cases h
  rw [scanString.eq_def]
  dsimp only
  rw [if_neg (by decide), if_neg (by decide), if_pos rfl, if_neg hletter, h]

/-- An escape with the digits of an ASCII character. -/
theorem scanString_unicode {a b c d : UInt8} {code : Nat} (h : codeUnit a b c d = some code) (hascii : code < 0x80)
    (rest : List UInt8) :
    scanString (0x5C :: 0x75 :: a :: b :: c :: d :: rest) = (scanString rest).map (before [UInt8.ofNat code]) := by
  rw [scanString.eq_def]
  dsimp only
  rw [if_neg (by decide), if_neg (by decide), if_pos rfl, if_pos rfl, h]
  dsimp only
  rw [if_neg (by omega), if_neg (by omega), utf8, if_pos hascii]

/-- A text that is read as the rest of a string, up to its quotation mark. -/
def ReadsString (text content : List UInt8) : Prop :=
  ∀ rest, scanString (text ++ rest) = some (content, rest)

/-- The quotation mark at the end. -/
theorem readsString_quote : ReadsString [0x22] [] := by
  intro rest
  rw [List.singleton_append, scanString.eq_def]
  exact if_pos rfl

/-- A text before the content of a string. -/
theorem ReadsString.before {text content piece : List UInt8} {byte : UInt8} (h : ReadsString text content)
    (hpiece : ∀ rest, scanString (piece ++ rest) = (scanString rest).map (before [byte])) :
    ReadsString (piece ++ text) (byte :: content) := by
  intro rest
  rw [List.append_assoc, hpiece, h rest]
  rfl

/-- A byte that stands for itself in a string. -/
def isPlain (byte : UInt8) : Bool := !decide (byte < 0x20) && byte != 0x22 && byte != 0x5C

/-- Plain bytes are their own content. -/
theorem readsString_plain {content : List UInt8} (h : content.all isPlain = true) :
    ReadsString (content ++ [0x22]) content := by
  induction content with
  | nil => exact readsString_quote
  | cons byte content ih =>
      rw [List.all_cons, Bool.and_eq_true] at h
      have hplain := h.1
      simp only [isPlain, Bool.and_eq_true, Bool.not_eq_true', decide_eq_false_iff_not, bne_iff_ne] at hplain
      have hpiece : ∀ rest, scanString ([byte] ++ rest) = (scanString rest).map (Json.before [byte]) :=
        fun rest => scanString_plain hplain.1.1 hplain.1.2 hplain.2 rest
      exact (ih h.2).before hpiece

end Strings

/-! ## Texts of values -/

/-- **A text is read as a value**: to its end and not further, where a delimiter follows. What is left may begin with
white space of the text. The fuel is the length of the text. -/
def Reads (text : List UInt8) (value : Json) : Prop :=
  ∀ fuel rest, text.length ≤ fuel → Delimited rest →
    ∃ left, scanValue fuel (text ++ rest) = some (value, left) ∧ skipSpace left = skipSpace rest

section Reads

theorem skipSpace_cons {byte : UInt8} (h : isSpace byte = false) (rest : List UInt8) :
    skipSpace (byte :: rest) = byte :: rest := by
  rw [skipSpace, List.dropWhile_cons_of_neg (by rw [h]; exact Bool.false_ne_true)]

/-- A whole text. -/
theorem Reads.parse {text : List UInt8} {value : Json} (h : Reads text value) : parse text = some value := by
  obtain ⟨left, hscan, hleft⟩ := h text.length [] le_rfl delimited_nil
  rw [List.append_nil] at hscan
  rw [Json.parse, hscan]
  exact if_pos hleft

/-- A value is never empty. -/
theorem Reads.fuel_pos {text : List UInt8} {value : Json} (h : Reads text value) : 0 < text.length := by
  apply Nat.pos_of_ne_zero
  intro hzero
  obtain ⟨left, hscan, -⟩ := h 0 [] hzero.le delimited_nil
  rw [scanValue] at hscan
  cases hscan

/-- A value does not begin with a bracket that ends one. -/
theorem Reads.head {text : List UInt8} {value : Json} (h : Reads text value) (rest : List UInt8)
    (hrest : Delimited rest) :
    ∃ byte after, skipSpace (text ++ rest) = byte :: after ∧ byte ≠ 0x5D ∧ byte ≠ 0x7D := by
  obtain ⟨left, hscan, -⟩ := h text.length rest le_rfl hrest
  obtain ⟨fuel, hfuel⟩ := Nat.exists_eq_succ_of_ne_zero h.fuel_pos.ne'
  rw [hfuel, scanValue] at hscan
  cases hskip : skipSpace (text ++ rest) with
  | nil =>
      rw [hskip] at hscan
      cases hscan
  | cons byte after =>
      rw [hskip] at hscan
      refine ⟨byte, after, rfl, ?_, ?_⟩
      · rintro rfl
        cases hscan
      · rintro rfl
        cases hscan

theorem reads_string {text content : List UInt8} (h : ReadsString text content) :
    Reads (0x22 :: text) (.string content) := by
  intro fuel rest hfuel _
  obtain ⟨fuel, rfl⟩ := Nat.exists_eq_succ_of_ne_zero (Nat.lt_of_lt_of_le (Nat.succ_pos _) hfuel).ne'
  refine ⟨rest, ?_, rfl⟩
  rw [List.cons_append, scanValue, skipSpace_cons rfl]
  dsimp only
  rw [if_pos rfl, h rest]
  rfl

/-- The first byte of a number is a sign or a digit. -/
theorem head_numberBytes {text : DecimalText} (h : text.WellFormed) :
    ∃ byte after, numberBytes text = byte :: after ∧ (byte = 0x2D ∨ ∃ digit < 10, byte = digitByte digit) := by
  cases hnegative : text.negative with
  | true => exact ⟨0x2D, _, by rw [numberBytes, hnegative]; rfl, .inl rfl⟩
  | false =>
      cases hinteger : text.integer with
      | nil => exact absurd hinteger h.integer_ne_nil
      | cons digit digits =>
          refine ⟨digitByte digit, digits.map digitByte ++ fractionBytes text.fraction ++ exponentBytes text.exponent,
            ?_, .inr ⟨digit, h.integer_lt digit (hinteger ▸ List.mem_cons_self), rfl⟩⟩
          rw [numberBytes, hnegative, hinteger]
          rfl

theorem reads_number {text : DecimalText} (h : text.WellFormed) : Reads (numberBytes text) (.number text.value) := by
  intro fuel rest hfuel hrest
  obtain ⟨byte, after, htext, hbyte⟩ := head_numberBytes h
  have hscan := scanNumber_append h hrest
  have hne : fuel ≠ 0 := by
    rintro rfl
    rw [htext] at hfuel
    exact absurd hfuel (Nat.not_succ_le_zero _)
  obtain ⟨fuel, rfl⟩ := Nat.exists_eq_succ_of_ne_zero hne
  refine ⟨rest, ?_, rfl⟩
  rw [htext, List.cons_append] at hscan ⊢
  have hother : ∀ other : UInt8, (other.toNat < 0x30 ∨ 0x39 < other.toNat) → other ≠ 0x2D → byte ≠ other := by
    rintro other hrange hsign rfl
    rcases hbyte with hminus | ⟨digit, hdigit, rfl⟩
    · exact hsign hminus
    · rw [toNat_digitByte hdigit] at hrange
      omega
  have hspace : isSpace byte = false := by
    simp only [isSpace, Bool.or_eq_false_iff, decide_eq_false_iff_not]
    exact ⟨⟨⟨hother _ (.inl (by decide)) (by decide), hother _ (.inl (by decide)) (by decide)⟩,
      hother _ (.inl (by decide)) (by decide)⟩, hother _ (.inl (by decide)) (by decide)⟩
  rw [scanValue, skipSpace_cons hspace]
  dsimp only
  rw [if_neg (hother _ (.inl (by decide)) (by decide)), if_neg (hother _ (.inr (by decide)) (by decide)),
    if_neg (hother _ (.inr (by decide)) (by decide)), if_neg (hother _ (.inr (by decide)) (by decide)),
    if_neg (hother _ (.inr (by decide)) (by decide)), if_neg (hother _ (.inr (by decide)) (by decide)), hscan]
  rfl

/-- The words. -/
theorem reads_true : Reads [0x74, 0x72, 0x75, 0x65] (.boolean true) := by
  intro fuel rest hfuel _
  obtain ⟨fuel, rfl⟩ := Nat.exists_eq_succ_of_ne_zero (Nat.lt_of_lt_of_le (Nat.succ_pos _) hfuel).ne'
  exact ⟨rest, rfl, rfl⟩

theorem reads_false : Reads [0x66, 0x61, 0x6C, 0x73, 0x65] (.boolean false) := by
  intro fuel rest hfuel _
  obtain ⟨fuel, rfl⟩ := Nat.exists_eq_succ_of_ne_zero (Nat.lt_of_lt_of_le (Nat.succ_pos _) hfuel).ne'
  exact ⟨rest, rfl, rfl⟩

theorem reads_null : Reads [0x6E, 0x75, 0x6C, 0x6C] .null := by
  intro fuel rest hfuel _
  obtain ⟨fuel, rfl⟩ := Nat.exists_eq_succ_of_ne_zero (Nat.lt_of_lt_of_le (Nat.succ_pos _) hfuel).ne'
  exact ⟨rest, rfl, rfl⟩

end Reads

/-! ## Texts of arrays and objects -/

/-- Texts with commas between them. -/
def commaSeparated : List (List UInt8) → List UInt8
  | [] => []
  | [text] => text
  | text :: next :: texts => text ++ 0x2C :: commaSeparated (next :: texts)

/-- A text that is a member of an object. -/
def ReadsMember (text : List UInt8) (entry : List UInt8 × Json) : Prop :=
  ∃ name value, text = 0x22 :: (name ++ 0x3A :: value) ∧ ReadsString name entry.1 ∧ Reads value entry.2

section Nested

/-- The elements of an array. The induction is on the texts, and each element takes its own length of the fuel. -/
theorem scanElements_append {texts : List (List UInt8)} {values : List Json} (h : List.Forall₂ Reads texts values)
    (hne : texts ≠ []) {fuel : Nat} (hfuel : (commaSeparated texts).length < fuel) (rest : List UInt8) :
    scanElements fuel (commaSeparated texts ++ 0x5D :: rest) = some (values, rest) := by
  induction h generalizing fuel with
  | nil => exact absurd rfl hne
  | @cons text value texts values hfirst hrest ih =>
      obtain ⟨fuel, rfl⟩ := Nat.exists_eq_succ_of_ne_zero (Nat.lt_of_le_of_lt (Nat.zero_le _) hfuel).ne'
      cases hrest with
      | nil =>
          rw [commaSeparated] at hfuel ⊢
          obtain ⟨left, hscan, hleft⟩ := hfirst fuel (0x5D :: rest) (by omega) (delimited_cons rfl)
          rw [skipSpace_cons rfl] at hleft
          rw [scanElements, hscan]
          dsimp only
          rw [hleft]
          rfl
      | @cons next value' texts values' hnext hrest =>
          rw [commaSeparated, List.length_append, List.length_cons] at hfuel
          have hrec : scanElements fuel (commaSeparated (next :: texts) ++ 0x5D :: rest) =
              some (value' :: values', rest) :=
            ih (List.cons_ne_nil _ _) (by omega)
          obtain ⟨left, hscan, hleft⟩ := hfirst fuel
            (0x2C :: (commaSeparated (next :: texts) ++ 0x5D :: rest)) (by omega) (delimited_cons rfl)
          rw [skipSpace_cons rfl] at hleft
          rw [commaSeparated, List.append_assoc, List.cons_append, scanElements, hscan]
          dsimp only
          rw [hleft]
          dsimp only
          rw [if_pos rfl, hrec]
          rfl

/-- **An array is read element by element.** -/
theorem reads_array {texts : List (List UInt8)} {values : List Json} (h : List.Forall₂ Reads texts values) :
    Reads (0x5B :: (commaSeparated texts ++ [0x5D])) (.array values) := by
  intro fuel rest hfuel _
  obtain ⟨fuel, rfl⟩ := Nat.exists_eq_succ_of_ne_zero (Nat.lt_of_lt_of_le (Nat.succ_pos _) hfuel).ne'
  rw [List.length_cons, List.length_append, List.length_singleton] at hfuel
  refine ⟨rest, ?_, rfl⟩
  rw [List.cons_append, List.append_assoc, List.singleton_append, scanValue, skipSpace_cons rfl]
  dsimp only
  rw [if_neg (by decide), if_pos rfl]
  cases h with
  | nil =>
      rw [commaSeparated, List.nil_append, skipSpace_cons rfl]
      rfl
  | @cons text value texts values hfirst hrest =>
      have hscan : scanElements fuel (commaSeparated (text :: texts) ++ 0x5D :: rest) = some (value :: values, rest) :=
        scanElements_append (.cons hfirst hrest) (List.cons_ne_nil _ _) (by omega) rest
      have hhead : ∃ byte after, skipSpace (commaSeparated (text :: texts) ++ 0x5D :: rest) = byte :: after ∧
          byte ≠ 0x5D := by
        cases texts with
        | nil =>
            obtain ⟨byte, after, hskip, hbyte, -⟩ := hfirst.head (0x5D :: rest) (delimited_cons rfl)
            exact ⟨byte, after, hskip, hbyte⟩
        | cons next texts =>
            obtain ⟨byte, after, hskip, hbyte, -⟩ :=
              hfirst.head (0x2C :: (commaSeparated (next :: texts) ++ 0x5D :: rest)) (delimited_cons rfl)
            refine ⟨byte, after, ?_, hbyte⟩
            rw [commaSeparated, List.append_assoc, List.cons_append]
            exact hskip
      obtain ⟨byte, after, hskip, hbyte⟩ := hhead
      rw [hskip]
      dsimp only
      rw [if_neg hbyte, hscan]
      rfl

/-- The members of an object. -/
theorem scanMembers_append {texts : List (List UInt8)} {entries : List (List UInt8 × Json)}
    (h : List.Forall₂ ReadsMember texts entries) (hne : texts ≠ []) {fuel : Nat}
    (hfuel : (commaSeparated texts).length < fuel) (rest : List UInt8) :
    scanMembers fuel (commaSeparated texts ++ 0x7D :: rest) = some (entries, rest) := by
  induction h generalizing fuel with
  | nil => exact absurd rfl hne
  | @cons text entry texts entries hfirst hrest ih =>
      obtain ⟨fuel, rfl⟩ := Nat.exists_eq_succ_of_ne_zero (Nat.lt_of_le_of_lt (Nat.zero_le _) hfuel).ne'
      obtain ⟨name, value, rfl, hname, hvalue⟩ := hfirst
      cases hrest with
      | nil =>
          rw [commaSeparated] at hfuel ⊢
          rw [List.length_cons, List.length_append, List.length_cons] at hfuel
          obtain ⟨left, hscan, hleft⟩ := hvalue fuel (0x7D :: rest) (by omega) (delimited_cons rfl)
          rw [skipSpace_cons rfl] at hleft
          rw [List.cons_append, List.append_assoc, List.cons_append, scanMembers, skipSpace_cons rfl]
          dsimp only
          rw [if_neg (not_not.mpr rfl), hname]
          dsimp only
          rw [skipSpace_cons rfl]
          dsimp only
          rw [if_neg (not_not.mpr rfl), hscan]
          dsimp only
          rw [hleft]
          rfl
      | @cons next entry' texts entries' hnext hrest =>
          rw [commaSeparated, List.length_append, List.length_cons, List.length_cons, List.length_append,
            List.length_cons] at hfuel
          have hrec : scanMembers fuel (commaSeparated (next :: texts) ++ 0x7D :: rest) =
              some (entry' :: entries', rest) := ih (List.cons_ne_nil _ _) (by omega)
          obtain ⟨left, hscan, hleft⟩ := hvalue fuel
            (0x2C :: (commaSeparated (next :: texts) ++ 0x7D :: rest)) (by omega) (delimited_cons rfl)
          rw [skipSpace_cons rfl] at hleft
          rw [commaSeparated, List.append_assoc, List.cons_append, List.cons_append, List.append_assoc,
            List.cons_append,
            scanMembers, skipSpace_cons rfl]
          dsimp only
          rw [if_neg (not_not.mpr rfl), hname]
          dsimp only
          rw [skipSpace_cons rfl]
          dsimp only
          rw [if_neg (not_not.mpr rfl), hscan]
          dsimp only
          rw [hleft]
          dsimp only
          rw [if_pos rfl, hrec]
          rfl

/-- **An object is read member by member.** -/
theorem reads_object {texts : List (List UInt8)} {entries : List (List UInt8 × Json)}
    (h : List.Forall₂ ReadsMember texts entries) :
    Reads (0x7B :: (commaSeparated texts ++ [0x7D])) (.object entries) := by
  intro fuel rest hfuel _
  obtain ⟨fuel, rfl⟩ := Nat.exists_eq_succ_of_ne_zero (Nat.lt_of_lt_of_le (Nat.succ_pos _) hfuel).ne'
  rw [List.length_cons, List.length_append, List.length_singleton] at hfuel
  refine ⟨rest, ?_, rfl⟩
  rw [List.cons_append, List.append_assoc, List.singleton_append, scanValue, skipSpace_cons rfl]
  dsimp only
  rw [if_neg (by decide), if_neg (by decide), if_pos rfl]
  cases h with
  | nil =>
      rw [commaSeparated, List.nil_append, skipSpace_cons rfl]
      rfl
  | @cons text entry texts entries hfirst hrest =>
      have hscan : scanMembers fuel (commaSeparated (text :: texts) ++ 0x7D :: rest) = some (entry :: entries, rest) :=
        scanMembers_append (.cons hfirst hrest) (List.cons_ne_nil _ _) (by omega) rest
      obtain ⟨after, hskip⟩ : ∃ after, skipSpace (commaSeparated (text :: texts) ++ 0x7D :: rest) = 0x22 :: after := by
        obtain ⟨name, value, rfl, -, -⟩ := hfirst
        cases texts with
        | nil => exact ⟨_, skipSpace_cons rfl _⟩
        | cons next texts => exact ⟨_, skipSpace_cons rfl _⟩
      rw [hskip]
      dsimp only
      rw [if_neg (by decide), hscan]
      rfl

/-- Some members of an object, one at least, with commas between them. -/
def ReadsMembers (text : List UInt8) (entries : List (List UInt8 × Json)) : Prop :=
  ∃ texts, texts ≠ [] ∧ text = commaSeparated texts ∧ List.Forall₂ ReadsMember texts entries

theorem commaSeparated_append {texts : List (List UInt8)} (h : texts ≠ []) {texts' : List (List UInt8)}
    (h' : texts' ≠ []) : commaSeparated (texts ++ texts') = commaSeparated texts ++ 0x2C :: commaSeparated texts' := by
  induction texts with
  | nil => exact absurd rfl h
  | cons text texts ih =>
      cases texts with
      | nil =>
          cases texts' with
          | nil => exact absurd rfl h'
          | cons next rest => rfl
      | cons next texts =>
          rw [List.cons_append, List.cons_append, commaSeparated, ← List.cons_append, ih (List.cons_ne_nil _ _),
            commaSeparated, List.append_assoc, List.cons_append]

theorem readsMembers_single {name value content : List UInt8} {result : Json} (hname : ReadsString name content)
    (hvalue : Reads value result) : ReadsMembers (0x22 :: (name ++ 0x3A :: value)) [(content, result)] :=
  ⟨[_], List.cons_ne_nil _ _, rfl, .cons ⟨name, value, rfl, hname, hvalue⟩ .nil⟩

theorem ReadsMembers.append {text text' : List UInt8} {entries entries' : List (List UInt8 × Json)}
    (h : ReadsMembers text entries) (h' : ReadsMembers text' entries') :
    ReadsMembers (text ++ 0x2C :: text') (entries ++ entries') := by
  obtain ⟨texts, hne, rfl, hentries⟩ := h
  obtain ⟨texts', hne', rfl, hentries'⟩ := h'
  exact ⟨texts ++ texts', List.append_ne_nil_of_left_ne_nil hne _, (commaSeparated_append hne hne').symm,
    List.rel_append hentries hentries'⟩

/-- Braces around members. -/
theorem ReadsMembers.object {text : List UInt8} {entries : List (List UInt8 × Json)} (h : ReadsMembers text entries) :
    Reads (0x7B :: (text ++ [0x7D])) (.object entries) := by
  obtain ⟨texts, -, rfl, hentries⟩ := h
  exact reads_object hentries

end Nested

end Json

end DuckdbLerobot.Library
