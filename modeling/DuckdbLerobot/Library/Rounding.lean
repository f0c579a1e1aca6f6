import DuckdbLerobot.Library.Double
import Mathlib.Algebra.Order.Round
import Mathlib.Tactic.Linarith
import Mathlib.Tactic.Positivity
import Mathlib.Tactic.Ring

/-!
# Rounded arithmetic

What the code relies on when it rounds: `Rounding` is a rounding that is monotone and keeps zero and
the small powers of two. A statement about every `Rounding` holds of the formats of IEEE 754
(`Rounding.ieee`) and of exact arithmetic (`Rounding.exact`), where nothing is rounded.
-/

set_option autoImplicit false

namespace DuckdbLerobot.Library

/-! ## The nearest integer -/

namespace Double

/-- The value of a finite double. -/
def toRat : Double → ℚ
  | finite value => value
  | _ => 0

/-- `std::fabs`. -/
def abs : Double → Double
  | finite value => finite |value|
  | infinite _ => infinite false
  | nan => nan

/-- A number that is `bound` or more. -/
def AtLeast (bound : ℚ) : Double → Prop
  | finite value => bound ≤ value
  | infinite negative => negative = false
  | nan => False

theorem AtLeast.le_toRat {bound : ℚ} {value : Double} (h : value.AtLeast bound)
    (hbound : bound ≤ 0 ∨ value.isFinite = true) : bound ≤ value.toRat := by
  cases value with
  | finite value => exact h
  | infinite negative => exact hbound.resolve_right Bool.false_ne_true
  | nan => exact h.elim

/-- A number with a lower bound that is below some value is finite. -/
theorem AtLeast.isFinite {bound : ℚ} {value other : Double} (h : value.AtLeast bound)
    (hless : value.less other = true) : value.isFinite = true := by
  cases value with
  | finite value => rfl
  | infinite negative =>
      have hpositive : negative = false := h
      subst hpositive
      cases other <;> cases hless
  | nan => exact h.elim

@[simp] theorem less_finite (a b : ℚ) : less (finite a) (finite b) = decide (a < b) := rfl

@[simp] theorem lessEqual_finite (a b : ℚ) : lessEqual (finite a) (finite b) = decide (a ≤ b) := by
  change (!decide (b < a)) = _
  rw [← decide_not, decide_eq_decide, not_lt]

@[simp] theorem toRat_finite (value : ℚ) : (finite value).toRat = value := rfl

/-- What is below a number is below every number that is not below it. -/
theorem less_of_less_of_le {a b c : Double} (hab : a.less b = true) (hbc : c.less b = false)
    (hc : c ≠ nan) : a.less c = true := by
  cases c with
  | nan => exact absurd rfl hc
  | finite c => cases a <;> cases b <;> grind [less]
  | infinite negative => cases a <;> cases b <;> grind [less]

theorem toRat_lt_of_less {value : Double} {bound : ℚ} (h : value.less (finite bound) = true)
    (hbound : 0 < bound) : value.toRat < bound := by
  cases value with
  | finite value => exact of_decide_eq_true h
  | infinite negative => exact hbound
  | nan => exact hbound

theorem halfToEven_cases (value : ℚ) :
    (halfToEven value = ⌊value⌋ ∧ value - ⌊value⌋ ≤ 1 / 2) ∨
      (halfToEven value = ⌊value⌋ + 1 ∧ 1 / 2 ≤ value - ⌊value⌋) := by
  unfold halfToEven
  dsimp only
  split_ifs with hbelow habove heven
  · exact .inl ⟨rfl, hbelow.le⟩
  · exact .inr ⟨rfl, habove.le⟩
  · exact .inl ⟨rfl, not_lt.mp habove⟩
  · exact .inr ⟨rfl, not_lt.mp hbelow⟩

/-- Rounding to an integer moves a value by half a unit at most. -/
theorem abs_halfToEven_sub_le (value : ℚ) : |(halfToEven value : ℚ) - value| ≤ 1 / 2 := by
  have hfloor := Int.floor_le value
  have hlt := Int.lt_floor_add_one value
  rw [abs_le]
  rcases halfToEven_cases value with ⟨heq, hfraction⟩ | ⟨heq, hfraction⟩
  · rw [heq]
    constructor <;> linarith
  · rw [heq]
    push_cast
    constructor <;> linarith

theorem halfToEven_intCast (n : Int) : halfToEven (n : ℚ) = n := by
  simp [halfToEven]

theorem halfToEven_mono {a b : ℚ} (h : a ≤ b) : halfToEven a ≤ halfToEven b := by
  have hfloor : ⌊a⌋ ≤ ⌊b⌋ := Int.floor_le_floor h
  rcases halfToEven_cases a with ⟨ha, -⟩ | ⟨ha, hhalf⟩
  · rcases halfToEven_cases b with ⟨hb, -⟩ | ⟨hb, -⟩ <;> omega
  · rcases halfToEven_cases b with ⟨hb, hhalf'⟩ | ⟨hb, -⟩
    · rcases hfloor.lt_or_eq with hlt | heq
      · omega
      · -- Both lie in one unit, and both are its middle.
        have hmiddle : a = b := by
          rw [heq] at hhalf
          linarith
        rw [hmiddle]
    · omega

/-! ## The nearest value of a format -/

/-- The exponent of the place of a value: that of its first bit, or that of the subnormal values. -/
def placeExponent (minimum : Int) (value : ℚ) : Int := max (Int.log 2 |value|) minimum

/-- The last place of a value of `precision` bits. -/
def lastPlace (precision : Nat) (minimum : Int) (value : ℚ) : ℚ :=
  2 ^ (placeExponent minimum value - (precision - 1))

/-- The nearest value of `precision` bits, or the nearest subnormal one. -/
def nearestAt (precision : Nat) (minimum : Int) (value : ℚ) : ℚ :=
  halfToEven (value / lastPlace precision minimum value) * lastPlace precision minimum value

theorem nearest_eq_nearestAt : nearest = nearestAt 53 (-1022) := (rfl)

section Format

variable {precision : Nat} {minimum : Int}

theorem lastPlace_pos (value : ℚ) : 0 < lastPlace precision minimum value :=
  zpow_pos two_pos _

theorem abs_lt_two_zpow (value : ℚ) : |value| < 2 ^ (placeExponent minimum value + 1) := by
  have hlog : |value| < (2 : ℚ) ^ (Int.log 2 |value| + 1) :=
    Int.lt_zpow_succ_log_self one_lt_two |value|
  apply hlog.trans_le
  apply zpow_le_zpow_right₀ one_le_two
  exact Int.add_le_add_right (le_max_left _ _) 1

theorem two_zpow_le_abs {value : ℚ} (hvalue : value ≠ 0)
    (h : minimum < placeExponent minimum value) : 2 ^ placeExponent minimum value ≤ |value| := by
  have hlog : placeExponent minimum value = Int.log 2 |value| := by
    rcases max_choice (Int.log 2 |value|) minimum with hmax | hmax
    · exact hmax
    · exact absurd hmax h.ne'
  rw [hlog]
  exact Int.zpow_log_le_self one_lt_two (abs_pos.mpr hvalue)

theorem nearestAt_le {value : ℚ} {n : Int}
    (h : value ≤ n * lastPlace precision minimum value) :
    nearestAt precision minimum value ≤ n * lastPlace precision minimum value := by
  have hplace : 0 < lastPlace precision minimum value := lastPlace_pos value
  unfold nearestAt
  apply mul_le_mul_of_nonneg_right _ hplace.le
  have hmono := halfToEven_mono ((div_le_iff₀ hplace).mpr h)
  rw [halfToEven_intCast] at hmono
  exact_mod_cast hmono

theorem le_nearestAt {value : ℚ} {n : Int}
    (h : n * lastPlace precision minimum value ≤ value) :
    n * lastPlace precision minimum value ≤ nearestAt precision minimum value := by
  have hplace : 0 < lastPlace precision minimum value := lastPlace_pos value
  unfold nearestAt
  apply mul_le_mul_of_nonneg_right _ hplace.le
  have hmono := halfToEven_mono ((le_div_iff₀ hplace).mpr h)
  rw [halfToEven_intCast] at hmono
  exact_mod_cast hmono

/-- Rounding moves a value by half a unit of its last place at most. -/
theorem abs_nearestAt_sub_le (value : ℚ) :
    |nearestAt precision minimum value - value| ≤ lastPlace precision minimum value / 2 := by
  have hplace : 0 < lastPlace precision minimum value := lastPlace_pos value
  have hunit := abs_halfToEven_sub_le (value / lastPlace precision minimum value)
  calc |nearestAt precision minimum value - value|
      = |(halfToEven (value / lastPlace precision minimum value) : ℚ) -
          value / lastPlace precision minimum value| * lastPlace precision minimum value := by
        rw [← abs_of_pos hplace, ← abs_mul, abs_of_pos hplace, sub_mul,
          div_mul_cancel₀ _ hplace.ne']
        rfl
    _ ≤ 1 / 2 * lastPlace precision minimum value :=
        mul_le_mul_of_nonneg_right hunit hplace.le
    _ = lastPlace precision minimum value / 2 := by ring

/-- A power of two is a whole number of places of a value that is not below its binade. -/
theorem two_zpow_eq_places (hprecision : 0 < precision) (value : ℚ) :
    (2 : ℚ) ^ placeExponent minimum value =
      ((2 ^ (precision - 1) : Nat) : Int) * lastPlace precision minimum value := by
  have hcast : ((precision - 1 : Nat) : Int) = (precision : Int) - 1 := by omega
  unfold lastPlace
  push_cast
  rw [← zpow_natCast, hcast, ← zpow_add₀ two_ne_zero]
  congr 1
  ring

theorem two_zpow_succ_eq_places (value : ℚ) :
    (2 : ℚ) ^ (placeExponent minimum value + 1) =
      ((2 ^ precision : Nat) : Int) * lastPlace precision minimum value := by
  unfold lastPlace
  push_cast
  rw [← zpow_natCast, ← zpow_add₀ two_ne_zero]
  congr 1
  ring

/-- A value does not leave its binade upwards. -/
theorem nearestAt_le_two_zpow (value : ℚ) :
    nearestAt precision minimum value ≤ 2 ^ (placeExponent minimum value + 1) := by
  have hplaces : (2 : ℚ) ^ (placeExponent minimum value + 1) =
      ((2 ^ precision : Nat) : Int) * lastPlace precision minimum value :=
    two_zpow_succ_eq_places value
  rw [hplaces]
  apply nearestAt_le
  rw [← hplaces]
  exact (le_abs_self value).trans (abs_lt_two_zpow value).le

theorem neg_two_zpow_le_nearestAt (value : ℚ) :
    -2 ^ (placeExponent minimum value + 1) ≤ nearestAt precision minimum value := by
  have hplaces : (2 : ℚ) ^ (placeExponent minimum value + 1) =
      ((2 ^ precision : Nat) : Int) * lastPlace precision minimum value :=
    two_zpow_succ_eq_places value
  have hbound : -2 ^ (placeExponent minimum value + 1) ≤ value :=
    (neg_lt_of_abs_lt (abs_lt_two_zpow value)).le
  rw [hplaces, ← neg_mul, ← Int.cast_neg] at hbound ⊢
  exact le_nearestAt hbound

theorem two_zpow_le_nearestAt (hprecision : 0 < precision) {value : ℚ}
    (h : 2 ^ placeExponent minimum value ≤ value) :
    2 ^ placeExponent minimum value ≤ nearestAt precision minimum value := by
  rw [two_zpow_eq_places hprecision] at h ⊢
  exact le_nearestAt h

theorem nearestAt_le_neg_two_zpow (hprecision : 0 < precision) {value : ℚ}
    (h : value ≤ -2 ^ placeExponent minimum value) :
    nearestAt precision minimum value ≤ -2 ^ placeExponent minimum value := by
  rw [two_zpow_eq_places hprecision, ← neg_mul, ← Int.cast_neg] at h ⊢
  exact nearestAt_le h

@[simp] theorem nearestAt_zero : nearestAt precision minimum 0 = 0 := by
  have hzero : halfToEven 0 = 0 := halfToEven_intCast 0
  simp [nearestAt, hzero]

theorem nearestAt_nonneg {value : ℚ} (h : 0 ≤ value) : 0 ≤ nearestAt precision minimum value := by
  have hplaces : ((0 : Int) : ℚ) * lastPlace precision minimum value ≤ value := by simpa using h
  simpa using le_nearestAt hplaces

theorem nearestAt_nonpos {value : ℚ} (h : value ≤ 0) : nearestAt precision minimum value ≤ 0 := by
  have hplaces : value ≤ ((0 : Int) : ℚ) * lastPlace precision minimum value := by simpa using h
  simpa using nearestAt_le hplaces

/-- Two values with different exponents lie in different binades. -/
theorem binades {a b : ℚ} (hb : b ≠ 0) (h : placeExponent minimum a < placeExponent minimum b) :
    |a| < 2 ^ placeExponent minimum b ∧
      2 ^ (placeExponent minimum a + 1) ≤ (2 : ℚ) ^ placeExponent minimum b ∧
      2 ^ placeExponent minimum b ≤ |b| := by
  have hpow : (2 : ℚ) ^ (placeExponent minimum a + 1) ≤ 2 ^ placeExponent minimum b :=
    zpow_le_zpow_right₀ one_le_two h
  exact ⟨(abs_lt_two_zpow a).trans_le hpow, hpow,
    two_zpow_le_abs hb ((le_max_right _ _).trans_lt h)⟩

/-- The place of the values below a power of two. -/
theorem placeExponent_le {value : ℚ} {exponent : Int} (hexponent : 0 ≤ exponent)
    (hminimum : minimum ≤ exponent) (h : |value| < 2 ^ (exponent + 1)) :
    placeExponent minimum value ≤ exponent := by
  apply max_le _ hminimum
  rcases (abs_nonneg value).eq_or_lt with hzero | hpos
  · rw [← hzero, Int.log_of_right_le_zero 2 le_rfl]
    exact hexponent
  · exact Int.lt_add_one_iff.mp ((Int.lt_zpow_iff_log_lt one_lt_two hpos).mp h)

theorem lastPlace_le {value : ℚ} {exponent : Int} (hexponent : 0 ≤ exponent)
    (hminimum : minimum ≤ exponent) (h : |value| < 2 ^ (exponent + 1)) :
    lastPlace precision minimum value ≤ 2 ^ (exponent - (precision - 1)) := by
  apply zpow_le_zpow_right₀ one_le_two
  exact Int.sub_le_sub_right (placeExponent_le hexponent hminimum h) _

/-- A value that is far below the greatest one does not overflow. -/
theorem abs_nearestAt_le {value : ℚ} {exponent : Int} (hexponent : 0 ≤ exponent)
    (hminimum : minimum ≤ exponent) (h : |value| < 2 ^ (exponent + 1)) :
    |nearestAt precision minimum value| ≤ 2 ^ (exponent + 1) := by
  have hplace := placeExponent_le hexponent hminimum h
  have hpow : (2 : ℚ) ^ (placeExponent minimum value + 1) ≤ 2 ^ (exponent + 1) :=
    zpow_le_zpow_right₀ one_le_two (Int.add_le_add_right hplace 1)
  apply (abs_le.mpr ⟨?_, ?_⟩).trans hpow
  · exact neg_two_zpow_le_nearestAt value
  · exact nearestAt_le_two_zpow value

/-- **Rounding is monotone.** -/
theorem nearestAt_mono (hprecision : 0 < precision) {a b : ℚ} (h : a ≤ b) :
    nearestAt precision minimum a ≤ nearestAt precision minimum b := by
  by_cases ha : a = 0
  · rw [ha] at h ⊢
    exact nearestAt_zero.trans_le (nearestAt_nonneg h)
  by_cases hb : b = 0
  · rw [hb] at h ⊢
    exact (nearestAt_nonpos h).trans_eq nearestAt_zero.symm
  rcases lt_trichotomy (placeExponent minimum a) (placeExponent minimum b) with hlt | heq | hlt
  · -- `b` has the larger exponent, so it is positive and its binade begins above that of `a`.
    obtain ⟨hsmall, hpow, hlarge⟩ := binades hb hlt
    have hpositive : 2 ^ placeExponent minimum b ≤ b := by
      rcases le_abs.mp hlarge with hpos | hneg
      · exact hpos
      · have habove := neg_lt_of_abs_lt hsmall
        linarith
    exact (nearestAt_le_two_zpow a).trans (hpow.trans (two_zpow_le_nearestAt hprecision hpositive))
  · have hplace : lastPlace precision minimum a = lastPlace precision minimum b := by
      rw [lastPlace, lastPlace, heq]
    have hpos : 0 < lastPlace precision minimum b := lastPlace_pos b
    unfold nearestAt
    rw [hplace]
    apply mul_le_mul_of_nonneg_right _ hpos.le
    exact_mod_cast halfToEven_mono (div_le_div_of_nonneg_right h hpos.le)
  · obtain ⟨hsmall, hpow, hlarge⟩ := binades ha hlt
    have hnegative : a ≤ -2 ^ placeExponent minimum a := by
      rcases le_abs.mp hlarge with hpos | hneg
      · have hbelow := lt_of_abs_lt hsmall
        linarith
      · linarith
    exact (nearestAt_le_neg_two_zpow hprecision hnegative).trans
      ((neg_le_neg hpow).trans (neg_two_zpow_le_nearestAt b))

/-- A power of two in the range of the format is a value of it. -/
theorem nearestAt_two_pow (hprecision : 0 < precision) {exponent : Nat}
    (hminimum : minimum ≤ exponent) :
    nearestAt precision minimum (2 ^ exponent) = 2 ^ exponent := by
  have habs : |(2 : ℚ) ^ exponent| = (2 : ℚ) ^ (exponent : Int) := by
    rw [abs_of_pos (pow_pos two_pos _), zpow_natCast]
  have hlog : Int.log 2 ((2 : ℚ) ^ (exponent : Int)) = exponent := by
    exact_mod_cast Int.log_zpow (R := ℚ) one_lt_two (exponent : Int)
  have hplace : placeExponent minimum ((2 : ℚ) ^ exponent) = exponent := by
    rw [placeExponent, habs, hlog]
    exact max_eq_left hminimum
  have hpow : (2 : ℚ) ^ placeExponent minimum ((2 : ℚ) ^ exponent) = 2 ^ exponent := by
    rw [hplace, zpow_natCast]
  apply le_antisymm
  · have hplaces := hpow.symm.trans (two_zpow_eq_places hprecision _)
    have hle := nearestAt_le hplaces.le
    rwa [← hplaces] at hle
  · rw [← hpow]
    exact (two_zpow_le_nearestAt hprecision hpow.le).trans_eq (by rw [hpow])

/-- A multiple of a place that is not below the last one is a value of the format. -/
theorem nearestAt_of_places {value : ℚ} {n exponent : Int} (h : value = n * 2 ^ exponent)
    (hexponent : placeExponent minimum value - (precision - 1) ≤ exponent) :
    nearestAt precision minimum value = value := by
  obtain ⟨count, hcount⟩ := Int.eq_ofNat_of_zero_le (sub_nonneg.mpr hexponent)
  have hplaces : value = ((n * 2 ^ count : Int) : ℚ) * lastPlace precision minimum value := by
    calc value = n * 2 ^ exponent := h
      _ = n * 2 ^ ((count : Int) + (placeExponent minimum value - (precision - 1))) := by
          rw [← hcount, sub_add_cancel]
      _ = n * (2 ^ count * lastPlace precision minimum value) := by
          rw [zpow_add₀ two_ne_zero, zpow_natCast, lastPlace]
      _ = ((n * 2 ^ count : Int) : ℚ) * lastPlace precision minimum value := by
          push_cast
          ring
  apply le_antisymm
  · exact (nearestAt_le hplaces.le).trans_eq hplaces.symm
  · exact hplaces.trans_le (le_nearestAt hplaces.ge)

/-- The integers that fit into the bits of a format are values of it. -/
theorem nearestAt_intCast (hprecision : 0 < precision) (hminimum : minimum ≤ 0) {n : Int}
    (h : |n| < 2 ^ precision) : nearestAt precision minimum (n : ℚ) = n := by
  have hplaces : (n : ℚ) = n * 2 ^ (0 : Int) := by rw [zpow_zero, mul_one]
  apply nearestAt_of_places hplaces
  have hvalue : |(n : ℚ)| < 2 ^ (((precision : Int) - 1) + 1) := by
    rw [sub_add_cancel, zpow_natCast]
    exact_mod_cast h
  have hplace : placeExponent minimum (n : ℚ) ≤ (precision : Int) - 1 :=
    placeExponent_le (by omega) (by omega) hvalue
  omega

theorem placeExponent_mul_two_pow {value : ℚ} (hvalue : value ≠ 0) (count : Nat) :
    placeExponent minimum (value * 2 ^ count) ≤ placeExponent minimum value + count := by
  apply max_le
  · have hpos : 0 < |value * 2 ^ count| := abs_pos.mpr (mul_ne_zero hvalue (pow_ne_zero _ two_ne_zero))
    apply Int.lt_add_one_iff.mp
    apply (Int.lt_zpow_iff_log_lt one_lt_two hpos).mp
    have hpow : (0 : ℚ) < 2 ^ count := pow_pos two_pos count
    calc |value * 2 ^ count| = |value| * 2 ^ count := by rw [abs_mul, abs_of_pos hpow]
      _ < 2 ^ (placeExponent minimum value + 1) * 2 ^ count :=
          mul_lt_mul_of_pos_right (abs_lt_two_zpow value) hpow
      _ = 2 ^ (placeExponent minimum value + count + 1) := by
          rw [← zpow_natCast, ← zpow_add₀ two_ne_zero, add_right_comm]
  · have hle : minimum ≤ placeExponent minimum value := le_max_right _ _
    omega

/-- A product with a power of two has the bits of the value. -/
theorem nearestAt_mul_two_pow {value : ℚ} (h : nearestAt precision minimum value = value)
    (count : Nat) : nearestAt precision minimum (value * 2 ^ count) = value * 2 ^ count := by
  by_cases hvalue : value = 0
  · simp [hvalue]
  have hplaces : value * 2 ^ count = (halfToEven (value / lastPlace precision minimum value) : Int) *
      2 ^ (placeExponent minimum value - (precision - 1) + count) := by
    calc value * 2 ^ count = nearestAt precision minimum value * 2 ^ count := by rw [h]
      _ = _ := by
          rw [nearestAt, lastPlace, mul_assoc, zpow_add₀ two_ne_zero, zpow_natCast]
  apply nearestAt_of_places hplaces
  have hplace : placeExponent minimum (value * 2 ^ count) ≤ placeExponent minimum value + count :=
    placeExponent_mul_two_pow hvalue count
  omega

end Format

end Double

/-! ## Arithmetics -/

/-- How the results of operations are rounded. -/
structure Rounding where
  round : ℚ → Double
  round_ne_nan : ∀ value, round value ≠ .nan
  round_mono : ∀ a b, a ≤ b → Double.less (round b) (round a) = false
  round_zero : round 0 = .finite 0
  round_two_pow : ∀ exponent : Nat, exponent ≤ 64 → round (2 ^ exponent) = .finite (2 ^ exponent)

namespace Rounding

/-- No rounding. -/
def exact : Rounding where
  round := .finite
  round_ne_nan := fun _ h => Double.noConfusion h
  round_mono := fun a b h => by simpa using h
  round_zero := rfl
  round_two_pow := fun _ _ => rfl

/-- The rounding of a format of IEEE 754, to the nearest value or to an infinity. -/
def ieee (precision : Nat) (minimum : Int) (overflow : Nat) (hprecision : 0 < precision)
    (hminimum : minimum ≤ 0) (hoverflow : 64 < overflow) : Rounding where
  round value :=
    if 2 ^ overflow ≤ |Double.nearestAt precision minimum value| then
      .infinite (decide (value < 0))
    else .finite (Double.nearestAt precision minimum value)
  round_ne_nan value := by
    split <;> exact fun h => Double.noConfusion h
  round_mono a b h := by
    have hmono : Double.nearestAt precision minimum a ≤ Double.nearestAt precision minimum b :=
      Double.nearestAt_mono hprecision h
    split_ifs with hb ha ha
    · have hsign : b < 0 → a < 0 := h.trans_lt
      simpa [Double.less] using hsign
    · -- A result that is below every finite one has none below it.
      simp only [Double.less, decide_eq_false_iff_not]
      intro hneg
      have hnonpos : Double.nearestAt precision minimum b ≤ 0 := Double.nearestAt_nonpos hneg.le
      rw [abs_of_nonpos hnonpos] at hb
      rw [abs_of_nonpos (hmono.trans hnonpos)] at ha
      linarith
    · simp only [Double.less, Bool.not_eq_eq_eq_not, Bool.not_false, decide_eq_true_eq]
      by_contra hneg
      have hnonneg : 0 ≤ Double.nearestAt precision minimum a :=
        Double.nearestAt_nonneg (not_lt.mp hneg)
      rw [abs_of_nonneg hnonneg] at ha
      rw [abs_of_nonneg (hnonneg.trans hmono)] at hb
      linarith
    · simpa using hmono
  round_zero := by simp
  round_two_pow exponent hexponent := by
    have hlt : (2 : ℚ) ^ exponent < 2 ^ overflow :=
      pow_lt_pow_right₀ one_lt_two (hexponent.trans_lt hoverflow)
    rw [Double.nearestAt_two_pow hprecision (by omega), abs_of_pos (pow_pos two_pos _),
      if_neg hlt.not_ge]

/-- A value that is far below the greatest one of a format is rounded to a finite one. -/
theorem ieee_round_finite {precision : Nat} {minimum : Int} {overflow : Nat}
    {hprecision : 0 < precision} {hminimum : minimum ≤ 0} {hoverflow : 64 < overflow} {value : ℚ}
    (h : |value| < 2 ^ 64) :
    (ieee precision minimum overflow hprecision hminimum hoverflow).round value =
      .finite (Double.nearestAt precision minimum value) := by
  have hvalue : |value| < (2 : ℚ) ^ ((63 : Int) + 1) := h
  have habs : |Double.nearestAt precision minimum value| ≤ (2 : ℚ) ^ ((63 : Int) + 1) :=
    Double.abs_nearestAt_le (by decide) (hminimum.trans (by decide)) hvalue
  have hlt : (2 : ℚ) ^ ((63 : Int) + 1) < 2 ^ overflow := by
    have hpow : (2 : ℚ) ^ 64 < 2 ^ overflow := pow_lt_pow_right₀ one_lt_two hoverflow
    exact hpow
  exact if_neg (habs.trans_lt hlt).not_ge

/-- An integer that fits into the bits of a format is not rounded. -/
theorem ieee_round_intCast {precision : Nat} {minimum : Int} {overflow : Nat}
    (hprecision : 0 < precision) (hminimum : minimum ≤ 0) (hoverflow : 64 < overflow) {n : Int}
    (h : |n| < 2 ^ precision) (hsmall : |n| < 2 ^ 64) :
    (ieee precision minimum overflow hprecision hminimum hoverflow).round n = .finite n := by
  rw [ieee_round_finite (by exact_mod_cast hsmall),
    Double.nearestAt_intCast hprecision hminimum h]

/-- An operation on a value that may be infinite already. -/
def map (rounding : Rounding) (operation : ℚ → ℚ) : Double → Double
  | .finite value => rounding.round (operation value)
  | value => value

/-- The sum of two values. -/
def add (rounding : Rounding) : Double → Double → Double
  | .finite a, b => rounding.map (a + ·) b
  | .infinite negative, .infinite negative' =>
      if negative = negative' then .infinite negative else .nan
  | .infinite negative, .finite _ => .infinite negative
  | _, _ => .nan

theorem round_atLeast (rounding : Rounding) {bound value : ℚ}
    (hbound : rounding.round bound = .finite bound) (h : bound ≤ value) :
    (rounding.round value).AtLeast bound := by
  have hmono := rounding.round_mono bound value h
  have hnan := rounding.round_ne_nan value
  rw [hbound] at hmono
  cases hround : rounding.round value with
  | finite result =>
      rw [hround, Double.less_finite, decide_eq_false_iff_not, not_lt] at hmono
      exact hmono
  | infinite negative =>
      rw [hround] at hmono
      exact hmono
  | nan => exact absurd hround hnan

theorem map_atLeast (rounding : Rounding) {operation : ℚ → ℚ} {bound bound' : ℚ}
    (hbound : rounding.round bound' = .finite bound')
    (hoperation : ∀ value, bound ≤ value → bound' ≤ operation value) {value : Double}
    (h : value.AtLeast bound) : (rounding.map operation value).AtLeast bound' := by
  cases value with
  | finite value => exact rounding.round_atLeast hbound (hoperation value h)
  | infinite negative => exact h
  | nan => exact h

theorem round_one (rounding : Rounding) : rounding.round 1 = .finite 1 := by
  simpa using rounding.round_two_pow 0 (Nat.zero_le _)

theorem round_nonneg (rounding : Rounding) {value : ℚ} (h : 0 ≤ value) :
    Double.less (rounding.round value) 0 = false := by
  have hmono := rounding.round_mono 0 value h
  rwa [rounding.round_zero] at hmono

end Rounding

/-- The arithmetic of the types `double` and `long double`. -/
structure Arithmetic where
  double : Rounding
  longDouble : Rounding

namespace Arithmetic

/-- Exact arithmetic. -/
def exact : Arithmetic where
  double := .exact
  longDouble := .exact

/-- The arithmetic of IEEE 754, with the extended format of 64 bits. -/
def ieee : Arithmetic where
  double := .ieee 53 (-1022) 1024 (by decide) (by decide) (by decide)
  longDouble := .ieee 64 (-16382) 16384 (by decide) (by decide) (by decide)

theorem ieee_double_round (value : ℚ) : ieee.double.round value = Double.rounded value := (rfl)

end Arithmetic

end DuckdbLerobot.Library
