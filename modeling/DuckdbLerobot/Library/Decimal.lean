import DuckdbLerobot.Library.Rounding
import Mathlib.Data.List.DropRight

/-!
# Decimal numbers

The digits of a number, the format `%g` of C, and the fact about 17 digits: a `double` that is printed with 17
significant digits is the nearest `double` to what was printed (`nearest_formatGeneral`).
-/

set_option autoImplicit false

namespace DuckdbLerobot.Library

/-! ## Digits -/

/-- The decimal digits of a number, the first one first. -/
def decimalDigits (n : Nat) : List Nat :=
  if n < 10 then [n] else decimalDigits (n / 10) ++ [n % 10]
termination_by n

/-- The number with some decimal digits. -/
def digitsValue (digits : List Nat) : Nat := digits.foldl (fun value digit => 10 * value + digit) 0

@[simp] theorem digitsValue_nil : digitsValue [] = 0 := rfl

theorem digitsValue_concat (digits : List Nat) (digit : Nat) :
    digitsValue (digits ++ [digit]) = 10 * digitsValue digits + digit := by
  rw [digitsValue, List.foldl_append]
  rfl

theorem digitsValue_append (a b : List Nat) : digitsValue (a ++ b) = digitsValue a * 10 ^ b.length + digitsValue b := by
  induction b using List.reverseRecOn with
  | nil => simp
  | append_singleton b digit ih =>
      rw [← List.append_assoc, digitsValue_concat, digitsValue_concat, ih, List.length_append, List.length_singleton,
        pow_succ]
      ring

@[simp] theorem digitsValue_replicate_zero (count : Nat) : digitsValue (List.replicate count 0) = 0 := by
  induction count with
  | zero => rfl
  | succ count ih => rw [List.replicate_succ', digitsValue_concat, ih]

theorem digitsValue_decimalDigits (n : Nat) : digitsValue (decimalDigits n) = n := by
  induction n using decimalDigits.induct with
  | case1 n h =>
      rw [decimalDigits, if_pos h]
      simp [digitsValue]
  | case2 n h ih =>
      rw [decimalDigits, if_neg h, digitsValue_concat, ih]
      exact Nat.div_add_mod n 10

theorem decimalDigits_lt {n digit : Nat} (h : digit ∈ decimalDigits n) : digit < 10 := by
  induction n using decimalDigits.induct with
  | case1 n hn =>
      rw [decimalDigits, if_pos hn, List.mem_singleton] at h
      exact h ▸ hn
  | case2 n hn ih =>
      rw [decimalDigits, if_neg hn, List.mem_append, List.mem_singleton] at h
      rcases h with hfirst | rfl
      · exact ih hfirst
      · exact Nat.mod_lt n (by decide)

theorem decimalDigits_ne_nil (n : Nat) : decimalDigits n ≠ [] := by
  rw [decimalDigits]
  split
  · exact List.cons_ne_nil _ _
  · exact List.append_ne_nil_of_right_ne_nil _ (List.cons_ne_nil _ _)

/-- There is no leading zero. -/
theorem head?_decimalDigits (n : Nat) : (decimalDigits n).head? = some 0 → decimalDigits n = [0] := by
  induction n using decimalDigits.induct with
  | case1 n h =>
      rw [decimalDigits, if_pos h]
      intro hzero
      rw [Option.some.inj hzero]
  | case2 n h ih =>
      rw [decimalDigits, if_neg h, List.head?_append_of_ne_nil _ (decimalDigits_ne_nil _)]
      intro hzero
      have hvalue := digitsValue_decimalDigits (n / 10)
      rw [ih hzero] at hvalue
      have hten : n / 10 = 0 := hvalue.symm
      omega

/-- The number of digits. -/
theorem length_decimalDigits {n exponent : Nat} (hlow : 10 ^ exponent ≤ n) (hhigh : n < 10 ^ (exponent + 1)) :
    (decimalDigits n).length = exponent + 1 := by
  induction n using decimalDigits.induct generalizing exponent with
  | case1 n h =>
      rw [decimalDigits, if_pos h]
      cases exponent with
      | zero => rfl
      | succ exponent =>
          have hpos : 0 < 10 ^ exponent := Nat.pow_pos (by decide)
          rw [pow_succ] at hlow
          omega
  | case2 n h ih =>
      rw [decimalDigits, if_neg h, List.length_append, List.length_singleton]
      cases exponent with
      | zero => exact absurd hhigh (by omega)
      | succ exponent =>
          rw [pow_succ] at hlow hhigh
          have hrest : (decimalDigits (n / 10)).length = exponent + 1 := ih (by omega) (by omega)
          rw [hrest]

/-! ## Numbers as texts -/

/-- The parts of a text that is a number: a sign, digits before and after the point, and an exponent with its sign. -/
structure DecimalText where
  negative : Bool
  integer : List Nat
  fraction : List Nat
  exponent : Option (Bool × List Nat)

namespace DecimalText

/-- The exponent of a text. -/
def exponentValue : Option (Bool × List Nat) → Int
  | none => 0
  | some (negative, digits) => if negative then -(digitsValue digits : Int) else digitsValue digits

/-- The number of a text. -/
def value (text : DecimalText) : ℚ :=
  (if text.negative then -1 else 1) * digitsValue (text.integer ++ text.fraction) *
    10 ^ (exponentValue text.exponent - text.fraction.length)

/-- What a format says of the text of a number: no leading zero, and a digit in each part that is there. -/
structure WellFormed (text : DecimalText) : Prop where
  integer_ne_nil : text.integer ≠ []
  leading : text.integer.head? = some 0 → text.integer = [0]
  integer_lt : ∀ digit ∈ text.integer, digit < 10
  fraction_lt : ∀ digit ∈ text.fraction, digit < 10
  exponent : ∀ negative digits, text.exponent = some (negative, digits) → digits ≠ [] ∧ ∀ digit ∈ digits, digit < 10

end DecimalText

/-! ## The format `%g` -/

/-- A positive number with some significant digits, and its decimal exponent. -/
def roundedDecimal (precision : Nat) (value : ℚ) : Nat × Int :=
  let exponent := Int.log 10 value
  let significand := (Double.halfToEven (value / 10 ^ (exponent - (precision - 1 : Nat)))).toNat
  if significand = 10 ^ precision then (10 ^ (precision - 1), exponent + 1) else (significand, exponent)

/-- The zeros at the end of a fraction are left out. -/
def withoutTrailingZeros (digits : List Nat) : List Nat := digits.rdropWhile (· = 0)

/-- An exponent has two digits or more. -/
def exponentDigits (exponent : Nat) : List Nat := if exponent < 10 then [0, exponent] else decimalDigits exponent

/-- The format `%g` with a precision. -/
def formatGeneral (precision : Nat) (value : ℚ) : DecimalText :=
  if value = 0 then ⟨false, [0], [], none⟩
  else
    let (significand, exponent) := roundedDecimal precision |value|
    let digits := decimalDigits significand
    let negative := decide (value < 0)
    if exponent < -4 ∨ (precision : Int) ≤ exponent then
      ⟨negative, digits.take 1, withoutTrailingZeros (digits.drop 1),
        some (decide (exponent < 0), exponentDigits exponent.natAbs)⟩
    else if 0 ≤ exponent then
      ⟨negative, digits.take (exponent.toNat + 1), withoutTrailingZeros (digits.drop (exponent.toNat + 1)), none⟩
    else ⟨negative, [0], withoutTrailingZeros (List.replicate (exponent.natAbs - 1) 0 ++ digits), none⟩

/-! ## What is printed -/

section Printed

variable {precision : Nat} {value : ℚ}

/-- The significand of a positive number, and the error of the rounding. -/
structure RoundsTo (precision : Nat) (value : ℚ) (significand : Nat) (exponent : Int) : Prop where
  low : 10 ^ (precision - 1) ≤ significand
  high : significand < 10 ^ precision
  error : |significand * 10 ^ (exponent - (precision - 1 : Nat)) - value| ≤
    10 ^ (Int.log 10 value - (precision - 1 : Nat)) / 2

theorem roundedDecimal_roundsTo (hprecision : 0 < precision) (hvalue : 0 < value) :
    RoundsTo precision value (roundedDecimal precision value).1 (roundedDecimal precision value).2 := by
  have hlow : (10 : ℚ) ^ Int.log 10 value ≤ value := by exact_mod_cast Int.zpow_log_le_self (by decide) hvalue
  have hhigh : value < (10 : ℚ) ^ (Int.log 10 value + 1) := by
    exact_mod_cast Int.lt_zpow_succ_log_self (by decide) value
  have hunit : (0 : ℚ) < 10 ^ (Int.log 10 value - (precision - 1 : Nat)) := zpow_pos (by norm_num) _
  have hbefore : (10 : ℚ) ^ Int.log 10 value =
      ((10 ^ (precision - 1) : Nat) : Int) * 10 ^ (Int.log 10 value - (precision - 1 : Nat)) := by
    push_cast
    rw [← zpow_natCast, ← zpow_add₀ (by norm_num)]
    congr 1
    ring
  have hafter : (10 : ℚ) ^ (Int.log 10 value + 1) =
      ((10 ^ precision : Nat) : Int) * 10 ^ (Int.log 10 value - (precision - 1 : Nat)) := by
    push_cast
    rw [← zpow_natCast, ← zpow_add₀ (by norm_num), Nat.cast_sub hprecision]
    congr 1
    push_cast
    ring
  have hpow : 10 ^ precision = 10 * 10 ^ (precision - 1) := by
    rw [mul_comm, ← pow_succ, Nat.sub_add_cancel hprecision]
  have hpowPos : 0 < 10 ^ (precision - 1) := Nat.pow_pos (by decide)
  have herror : |(Double.halfToEven (value / 10 ^ (Int.log 10 value - (precision - 1 : Nat))) : ℚ) *
      10 ^ (Int.log 10 value - (precision - 1 : Nat)) - value| ≤
      10 ^ (Int.log 10 value - (precision - 1 : Nat)) / 2 := by
    have hhalf := Double.abs_halfToEven_sub_le (value / 10 ^ (Int.log 10 value - (precision - 1 : Nat)))
    have hfactor : (Double.halfToEven (value / 10 ^ (Int.log 10 value - (precision - 1 : Nat))) : ℚ) *
        10 ^ (Int.log 10 value - (precision - 1 : Nat)) - value =
        (Double.halfToEven (value / 10 ^ (Int.log 10 value - (precision - 1 : Nat))) -
          value / 10 ^ (Int.log 10 value - (precision - 1 : Nat))) *
            10 ^ (Int.log 10 value - (precision - 1 : Nat)) := by
      rw [sub_mul, div_mul_cancel₀ _ hunit.ne']
    rw [hfactor, abs_mul, abs_of_pos hunit]
    linarith [mul_le_mul_of_nonneg_right hhalf hunit.le]
  -- the scaled value is between two powers, and so is the nearest integer
  have hmin : ((10 ^ (precision - 1) : Nat) : Int) ≤
      Double.halfToEven (value / 10 ^ (Int.log 10 value - (precision - 1 : Nat))) := by
    rw [← Double.halfToEven_intCast ((10 ^ (precision - 1) : Nat) : Int)]
    apply Double.halfToEven_mono
    rw [le_div_iff₀ hunit, ← hbefore]
    exact hlow
  have hmax : Double.halfToEven (value / 10 ^ (Int.log 10 value - (precision - 1 : Nat))) ≤
      ((10 ^ precision : Nat) : Int) := by
    rw [← Double.halfToEven_intCast ((10 ^ precision : Nat) : Int)]
    apply Double.halfToEven_mono
    rw [div_le_iff₀ hunit, ← hafter]
    exact hhigh.le
  rw [roundedDecimal]
  generalize Double.halfToEven (value / 10 ^ (Int.log 10 value - (precision - 1 : Nat))) = nearest at herror hmin hmax ⊢
  obtain ⟨significand, rfl⟩ := Int.eq_ofNat_of_zero_le ((Int.natCast_nonneg _).trans hmin)
  have hminNat : 10 ^ (precision - 1) ≤ significand := by exact_mod_cast hmin
  have hmaxNat : significand ≤ 10 ^ precision := by exact_mod_cast hmax
  rw [Int.cast_natCast] at herror
  rw [Int.toNat_natCast]
  split
  · next hfull =>
    refine ⟨le_rfl, by omega, ?_⟩
    have hsame : ((10 ^ (precision - 1) : Nat) : ℚ) * 10 ^ (Int.log 10 value + 1 - (precision - 1 : Nat)) =
        significand * 10 ^ (Int.log 10 value - (precision - 1 : Nat)) := by
      rw [hfull, hpow, add_sub_right_comm, zpow_add_one₀ (by norm_num)]
      push_cast
      ring
    rw [hsame]
    exact herror
  · next hpart => exact ⟨hminNat, lt_of_le_of_ne hmaxNat hpart, herror⟩

theorem digitsValue_exponentDigits (exponent : Nat) : digitsValue (exponentDigits exponent) = exponent := by
  rw [exponentDigits]
  split
  · simp [digitsValue]
  · exact digitsValue_decimalDigits exponent

theorem exponentDigits_lt {exponent digit : Nat} (h : digit ∈ exponentDigits exponent) : digit < 10 := by
  rw [exponentDigits] at h
  split at h
  · next hsmall =>
    rcases List.mem_cons.mp h with rfl | hlast
    · decide
    · exact List.mem_singleton.mp hlast ▸ hsmall
  · exact decimalDigits_lt h

theorem exponentDigits_ne_nil (exponent : Nat) : exponentDigits exponent ≠ [] := by
  rw [exponentDigits]
  split
  · exact List.cons_ne_nil _ _
  · exact decimalDigits_ne_nil exponent

/-- What was left out are zeros. -/
theorem withoutTrailingZeros_append (digits : List Nat) :
    ∃ count, digits = withoutTrailingZeros digits ++ List.replicate count 0 := by
  induction digits using List.reverseRecOn with
  | nil => exact ⟨0, rfl⟩
  | append_singleton digits digit ih =>
      rw [withoutTrailingZeros]
      by_cases hzero : digit = 0
      · obtain ⟨count, hcount⟩ := ih
        refine ⟨count + 1, ?_⟩
        rw [List.rdropWhile_concat_pos _ _ _ (by simpa using hzero), List.replicate_succ', ← List.append_assoc, hzero]
        exact congrArg (· ++ [0]) hcount
      · refine ⟨0, ?_⟩
        rw [List.rdropWhile_concat_neg _ _ _ (by simpa using hzero), List.replicate_zero, List.append_nil]

/-- The value of a text does not need the zeros at the end of its fraction. -/
theorem value_withoutTrailingZeros (integer fraction : List Nat) (exponent : Int) :
    (digitsValue (integer ++ withoutTrailingZeros fraction) : ℚ) *
        10 ^ (exponent - (withoutTrailingZeros fraction).length) =
      digitsValue (integer ++ fraction) * 10 ^ (exponent - fraction.length) := by
  obtain ⟨count, hcount⟩ := withoutTrailingZeros_append fraction
  have hlength : fraction.length = (withoutTrailingZeros fraction).length + count := by
    conv_lhs => rw [hcount]
    rw [List.length_append, List.length_replicate]
  have hvalue : digitsValue (integer ++ fraction) =
      digitsValue (integer ++ withoutTrailingZeros fraction) * 10 ^ count := by
    conv_lhs => rw [hcount]
    rw [← List.append_assoc, digitsValue_append, digitsValue_replicate_zero, List.length_replicate, Nat.add_zero]
  rw [hvalue, hlength]
  push_cast
  rw [mul_assoc, ← zpow_natCast, ← zpow_add₀ (by norm_num)]
  congr 2
  ring

theorem withoutTrailingZeros_lt {digits : List Nat} (h : ∀ digit ∈ digits, digit < 10) :
    ∀ digit ∈ withoutTrailingZeros digits, digit < 10 := by
  intro digit hdigit
  exact h digit ((List.rdropWhile_prefix _ digits).subset hdigit)

/-- The digits of the significand. -/
theorem RoundsTo.length {significand : Nat} {exponent : Int} (hprecision : 0 < precision)
    (h : RoundsTo precision value significand exponent) : (decimalDigits significand).length = precision := by
  have hhigh := h.high
  rw [← Nat.sub_add_cancel hprecision] at hhigh
  rw [length_decimalDigits h.low hhigh, Nat.sub_add_cancel hprecision]

/-- **The number that `%g` prints**: its significand with the sign of the value. -/
theorem value_formatGeneral (hprecision : 0 < precision) (hvalue : value ≠ 0) :
    ∃ significand exponent, RoundsTo precision |value| significand exponent ∧
      (formatGeneral precision value).value =
        (if value < 0 then -1 else 1) * (significand * 10 ^ (exponent - (precision - 1 : Nat))) := by
  have hrounds := roundedDecimal_roundsTo hprecision (abs_pos.mpr hvalue)
  refine ⟨_, _, hrounds, ?_⟩
  rw [formatGeneral, if_neg hvalue]
  dsimp only
  have hlength := hrounds.length hprecision
  have hdigits := digitsValue_decimalDigits (roundedDecimal precision |value|).1
  revert hlength hdigits
  generalize (roundedDecimal precision |value|).1 = significand
  generalize (roundedDecimal precision |value|).2 = exponent
  generalize decimalDigits significand = digits
  intro hlength hdigits
  have hsign : (if decide (value < 0) = true then (-1 : ℚ) else 1) = if value < 0 then -1 else 1 := by
    by_cases hneg : value < 0 <;> simp [hneg]
  split
  · -- the scientific notation
    have hexponent : DecimalText.exponentValue (some (decide (exponent < 0), exponentDigits exponent.natAbs)) =
        exponent := by
      rw [DecimalText.exponentValue, digitsValue_exponentDigits]
      by_cases hneg : exponent < 0
      · rw [if_pos (decide_eq_true hneg)]
        omega
      · rw [if_neg (by simpa using hneg)]
        omega
    rw [DecimalText.value, hsign, mul_assoc, value_withoutTrailingZeros, List.take_append_drop, hdigits, hexponent,
      List.length_drop, hlength]
  · split
    · next hscientific hpositive =>
      rw [DecimalText.value, hsign, mul_assoc, value_withoutTrailingZeros, List.take_append_drop, hdigits,
        List.length_drop, hlength]
      congr 3
      simp only [DecimalText.exponentValue]
      omega
    · next hscientific hnegative =>
      have hzeros : digitsValue ([0] ++ (List.replicate (exponent.natAbs - 1) 0 ++ digits)) = significand := by
        have hfirst : digitsValue [0] = 0 := rfl
        rw [digitsValue_append, digitsValue_append, digitsValue_replicate_zero, hdigits, hfirst, Nat.zero_mul,
          Nat.zero_mul, Nat.zero_add, Nat.zero_add]
      rw [DecimalText.value, hsign, mul_assoc, value_withoutTrailingZeros, hzeros, List.length_append,
        List.length_replicate, hlength]
      congr 3
      simp only [DecimalText.exponentValue]
      omega

/-- **The text of `%g` is well formed.** -/
theorem wellFormed_formatGeneral (precision : Nat) (value : ℚ) : (formatGeneral precision value).WellFormed := by
  have htake : ∀ significand count, 0 < count → (decimalDigits significand).take count ≠ [] := by
    intro significand count hcount hnil
    rcases List.take_eq_nil_iff.mp hnil with hzero | hdigits
    · omega
    · exact decimalDigits_ne_nil significand hdigits
  have hlead : ∀ significand count, 0 < count → ((decimalDigits significand).take count).head? = some 0 →
      (decimalDigits significand).take count = [0] := by
    intro significand count hcount hhead
    rw [List.head?_take, if_neg hcount.ne'] at hhead
    rw [head?_decimalDigits significand hhead]
    exact List.take_of_length_le hcount
  have hdigits : ∀ significand, ∀ digit ∈ decimalDigits significand, digit < 10 :=
    fun significand digit hdigit => decimalDigits_lt hdigit
  rw [formatGeneral]
  split
  · exact ⟨List.cons_ne_nil _ _, fun _ => rfl, by decide, by decide, fun _ _ h => by cases h⟩
  · dsimp only
    generalize (roundedDecimal precision |value|).1 = significand
    generalize (roundedDecimal precision |value|).2 = exponent
    split
    · refine ⟨htake _ 1 (by decide), hlead _ 1 (by decide), ?_, ?_, ?_⟩
      · exact fun digit hdigit => hdigits _ digit (List.mem_of_mem_take hdigit)
      · exact withoutTrailingZeros_lt fun digit hdigit => hdigits _ digit (List.mem_of_mem_drop hdigit)
      · rintro negative digits hexponent
        obtain ⟨-, rfl⟩ := Prod.mk.inj (Option.some.inj hexponent)
        exact ⟨exponentDigits_ne_nil _, fun digit hdigit => exponentDigits_lt hdigit⟩
    · split
      · refine ⟨htake _ _ (Nat.succ_pos _), hlead _ _ (Nat.succ_pos _), ?_, ?_, fun _ _ h => by cases h⟩
        · exact fun digit hdigit => hdigits _ digit (List.mem_of_mem_take hdigit)
        · exact withoutTrailingZeros_lt fun digit hdigit => hdigits _ digit (List.mem_of_mem_drop hdigit)
      · refine ⟨List.cons_ne_nil _ _, fun _ => rfl, ?_, ?_, fun _ _ h => by cases h⟩
        · intro digit hdigit
          rw [List.mem_singleton.mp hdigit]
          decide
        apply withoutTrailingZeros_lt
        intro digit hdigit
        rcases List.mem_append.mp hdigit with hzero | hrest
        · rw [List.eq_of_mem_replicate hzero]
          decide
        · exact hdigits _ digit hrest

/-- The error of what is printed. -/
theorem abs_formatGeneral_sub_le (hprecision : 0 < precision) (hvalue : value ≠ 0) :
    |(formatGeneral precision value).value - value| ≤ 10 ^ (Int.log 10 |value| - (precision - 1 : Nat)) / 2 := by
  obtain ⟨significand, exponent, hrounds, hprinted⟩ := value_formatGeneral hprecision hvalue
  have herror := hrounds.error
  rw [hprinted]
  by_cases hneg : value < 0
  · rw [if_pos hneg, abs_of_neg hneg] at *
    rw [← abs_neg]
    calc |-(-1 * (significand * 10 ^ (exponent - (precision - 1 : Nat))) - value)|
        = |significand * 10 ^ (exponent - (precision - 1 : Nat)) - -value| := by congr 1; ring
      _ ≤ 10 ^ (Int.log 10 (-value) - (precision - 1 : Nat)) / 2 := herror
  · rw [if_neg hneg, one_mul]
    rw [abs_of_nonneg (not_lt.mp hneg)] at herror ⊢
    exact herror

end Printed

/-! ## Seventeen digits -/

section Nearest

open Double

variable {precision : Nat} {minimum : Int} {x y : ℚ}

/-- The nearest integer of a value that is near an integer. -/
theorem halfToEven_eq {value : ℚ} {n : Int} (h : |value - n| < 1 / 2) : halfToEven value = n := by
  have hhalf := abs_le.mp (abs_halfToEven_sub_le value)
  have hnear := abs_lt.mp h
  have hlow : (n : ℚ) - 1 < halfToEven value := by linarith
  have hhigh : (halfToEven value : ℚ) < n + 1 := by linarith
  have hlow' : n - 1 < halfToEven value := by exact_mod_cast hlow
  have hhigh' : halfToEven value < n + 1 := by exact_mod_cast hhigh
  omega

/-- A value near a multiple of its last place is rounded to this multiple. -/
theorem nearestAt_eq_of_near {n : Int}
    (h : |y - n * lastPlace precision minimum y| < lastPlace precision minimum y / 2) :
    nearestAt precision minimum y = n * lastPlace precision minimum y := by
  have hplace : 0 < lastPlace precision minimum y := lastPlace_pos y
  have hnear : |y / lastPlace precision minimum y - n| < 1 / 2 := by
    have hfactor : y / lastPlace precision minimum y - n =
        (y - n * lastPlace precision minimum y) / lastPlace precision minimum y := by
      rw [sub_div, mul_div_cancel_right₀ _ hplace.ne']
    rw [hfactor, abs_div, abs_of_pos hplace, div_lt_iff₀ hplace]
    linarith
  rw [nearestAt, halfToEven_eq hnear]

/-- The absolute value of a number of a format is a multiple of its last place. -/
theorem abs_eq_places (hx : nearestAt precision minimum x = x) :
    ∃ n : Nat, |x| = ((n : Int) : ℚ) * lastPlace precision minimum x := by
  refine ⟨(halfToEven (x / lastPlace precision minimum x)).natAbs, ?_⟩
  conv_lhs => rw [← hx, nearestAt]
  rw [abs_mul, abs_of_pos (lastPlace_pos x), ← Int.cast_abs, Int.abs_eq_natAbs]

/-- **A value near a number of the format is rounded to it.** Below a power of two the numbers are twice as dense. -/
theorem nearestAt_eq_of_close (hprecision : 0 < precision) (hx : nearestAt precision minimum x = x) (hne : x ≠ 0)
    (hclose : |y - x| < lastPlace precision minimum x / 2)
    (hpower : |x| = 2 ^ placeExponent minimum x → |y - x| < lastPlace precision minimum x / 4) :
    nearestAt precision minimum y = x := by
  have hplace : 0 < lastPlace precision minimum x := lastPlace_pos x
  have hxy : |x| - |y| ≤ |y - x| := (abs_sub_abs_le_abs_sub x y).trans (abs_sub_comm x y).le
  have hyx : |y| - |x| ≤ |y - x| := abs_sub_abs_le_abs_sub y x
  obtain ⟨n, hn⟩ := abs_eq_places hx
  have hy : y ≠ 0 := by
    rintro rfl
    have hsmall : |x| < lastPlace precision minimum x / 2 := by
      rw [zero_sub, abs_neg] at hclose
      exact hclose
    have hzero : n = 0 := by
      by_contra hpos
      have hone : (1 : ℚ) ≤ (n : Int) := by exact_mod_cast Nat.one_le_iff_ne_zero.mpr hpos
      have hle := mul_le_mul_of_nonneg_right hone hplace.le
      rw [← hn] at hle
      linarith
    rw [hzero] at hn
    apply hne
    apply abs_eq_zero.mp
    simpa using hn
  have hfull : |x| < ((2 ^ precision : Nat) : Int) * lastPlace precision minimum x := by
    rw [← two_zpow_succ_eq_places]
    exact abs_lt_two_zpow x
  have hbase : (2 : ℚ) ^ placeExponent minimum x =
      ((2 ^ (precision - 1) : Nat) : Int) * lastPlace precision minimum x :=
    two_zpow_eq_places hprecision x
  have hmultiple : x = halfToEven (x / lastPlace precision minimum x) * lastPlace precision minimum x := hx.symm
  have hstep : ∀ a b : Nat, a < b → ((a : Int) : ℚ) * lastPlace precision minimum x + lastPlace precision minimum x ≤
      ((b : Int) : ℚ) * lastPlace precision minimum x := by
    intro a b hab
    have hcast : ((a : Int) : ℚ) + 1 ≤ (b : Int) := by exact_mod_cast hab
    linarith [mul_le_mul_of_nonneg_right hcast hplace.le]
  rcases lt_trichotomy (placeExponent minimum y) (placeExponent minimum x) with hless | hsame | hgreater
  · -- the value is in the binade below, so the number is the power of two between them
    have hlow : 2 ^ placeExponent minimum x ≤ |x| := two_zpow_le_abs hne ((le_max_right _ _).trans_lt hless)
    have hytop : |y| < 2 ^ placeExponent minimum x :=
      (abs_lt_two_zpow y).trans_le (zpow_le_zpow_right₀ one_le_two hless)
    have hpow : |x| = 2 ^ placeExponent minimum x := by
      by_contra hother
      have hmore : ((2 ^ (precision - 1) : Nat) : Int) * lastPlace precision minimum x <
          ((n : Int) : ℚ) * lastPlace precision minimum x := by
        rw [← hbase, ← hn]
        exact lt_of_le_of_ne hlow (Ne.symm hother)
      have hlt : 2 ^ (precision - 1) < n := by exact_mod_cast lt_of_mul_lt_mul_right hmore hplace.le
      have hgap := hstep _ _ hlt
      rw [← hbase, ← hn] at hgap
      linarith
    have hquarter := hpower hpow
    have hplaceLe : lastPlace precision minimum x ≤ 2 ^ placeExponent minimum x := by
      have hgap := hstep 0 (2 ^ (precision - 1)) (Nat.pow_pos (by decide))
      rw [← hbase] at hgap
      simpa using hgap
    have hhalf : (2 : ℚ) ^ (placeExponent minimum x - 1) = 2 ^ placeExponent minimum x / 2 := by
      rw [zpow_sub_one₀ two_ne_zero]
      rfl
    have hexponent : placeExponent minimum y = placeExponent minimum x - 1 := by
      apply le_antisymm (Int.le_sub_one_of_lt hless)
      apply le_max_of_le_left
      apply (Int.zpow_le_iff_le_log one_lt_two (abs_pos.mpr hy)).mp
      have hbound : (2 : ℚ) ^ (placeExponent minimum x - 1) ≤ |y| := by
        rw [hhalf]
        linarith
      exact_mod_cast hbound
    have hplaceY : lastPlace precision minimum y = lastPlace precision minimum x / 2 := by
      have hsub : placeExponent minimum x - 1 - ((precision : Int) - 1) =
          placeExponent minimum x - ((precision : Int) - 1) - 1 := by ring
      rw [lastPlace, hexponent, hsub, zpow_sub_one₀ two_ne_zero]
      rfl
    have hdouble : ((2 * halfToEven (x / lastPlace precision minimum x) : Int) : ℚ) * lastPlace precision minimum y =
        x := by
      rw [hplaceY]
      conv_rhs => rw [hmultiple]
      push_cast
      ring
    rw [← hdouble]
    apply nearestAt_eq_of_near
    rw [hdouble, hplaceY]
    linarith
  · have hplaceY : lastPlace precision minimum y = lastPlace precision minimum x := by
      rw [lastPlace, hsame]
      rfl
    rw [hmultiple, ← hplaceY]
    apply nearestAt_eq_of_near
    rw [hplaceY, ← hmultiple]
    exact hclose
  · -- the value is in the binade above, more than a place away
    have hmin : minimum < placeExponent minimum y := (le_max_right _ _).trans_lt hgreater
    have hytop : ((2 ^ precision : Nat) : Int) * lastPlace precision minimum x ≤ |y| := by
      rw [← two_zpow_succ_eq_places]
      exact (zpow_le_zpow_right₀ one_le_two hgreater).trans (two_zpow_le_abs hy hmin)
    rw [hn] at hfull
    have hlt : n < 2 ^ precision := by exact_mod_cast lt_of_mul_lt_mul_right hfull hplace.le
    have hgap := hstep _ _ hlt
    rw [← hn] at hgap
    linarith

/-- **Seventeen digits are enough.** The nearest `double` to what is printed of a `double` is this one. -/
theorem nearest_formatGeneral (hx : nearestAt 53 (-1022) x = x) :
    nearestAt 53 (-1022) (formatGeneral 17 x).value = x := by
  by_cases hne : x = 0
  · have hprinted : (formatGeneral 17 x).value = 0 := by
      rw [formatGeneral, if_pos hne]
      simp [DecimalText.value, digitsValue]
    rw [hprinted]
    rw [hne] at hx ⊢
    exact hx
  have hpos : 0 < |x| := abs_pos.mpr hne
  have herror : |(formatGeneral 17 x).value - x| ≤ |x| / 10 ^ 16 / 2 := by
    apply (abs_formatGeneral_sub_le (by decide) hne).trans
    have hlog : (10 : ℚ) ^ Int.log 10 |x| ≤ |x| := by exact_mod_cast Int.zpow_log_le_self (by decide) hpos
    have hscale : (10 : ℚ) ^ (Int.log 10 |x| - ((17 - 1 : Nat) : Int)) = 10 ^ Int.log 10 |x| / 10 ^ 16 := by
      rw [zpow_sub₀ (by norm_num)]
      norm_num
    rw [hscale]
    linarith [div_le_div_of_nonneg_right hlog (by norm_num : (0 : ℚ) ≤ 10 ^ 16)]
  have hpowPos : (0 : ℚ) < 2 ^ placeExponent (-1022) x := zpow_pos two_pos _
  have hplace : lastPlace 53 (-1022) x = 2 ^ placeExponent (-1022) x / 2 ^ 52 := by
    rw [lastPlace, zpow_sub₀ two_ne_zero]
    norm_num
  have hfull : |x| < 2 * 2 ^ placeExponent (-1022) x := by
    have hlt : |x| < 2 ^ (placeExponent (-1022) x + 1) := abs_lt_two_zpow x
    rw [zpow_add_one₀ two_ne_zero] at hlt
    linarith
  apply nearestAt_eq_of_close (by decide) hx hne
  · rw [hplace]
    apply herror.trans_lt
    rw [div_div, div_div, div_lt_div_iff₀ (by norm_num) (by norm_num)]
    norm_num
    linarith
  · intro hpow
    rw [hplace]
    apply herror.trans_lt
    rw [hpow, div_div, div_div, div_lt_div_iff₀ (by norm_num) (by norm_num)]
    norm_num
    linarith

end Nearest

end DuckdbLerobot.Library
