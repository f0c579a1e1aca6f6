import Mathlib.Data.Int.Log
import Mathlib.Data.Rat.Floor

/-!
# Double values

A `double` that is read from a file can be a NaN or an infinity, which the code tests for. A finite
one is its exact value: what is proved with it does not depend on rounding. Where the code rounds,
`rounded` gives the result of IEEE 754.
-/

set_option autoImplicit false

namespace DuckdbLerobot.Library

/-- A value of type `double`. -/
inductive Double
  | finite (value : ℚ)
  | infinite (negative : Bool)
  | nan
  deriving DecidableEq

namespace Double

instance : Zero Double := ⟨.finite 0⟩

/-- `std::isfinite`. -/
def isFinite : Double → Bool
  | finite _ => true
  | _ => false

/-- `<` of C++, false when one side is a NaN. -/
def less : Double → Double → Bool
  | finite a, finite b => decide (a < b)
  | finite _, infinite negative => !negative
  | infinite negative, finite _ => negative
  | infinite negative, infinite negative' => negative && !negative'
  | _, _ => false

/-- `<=` of C++, false when one side is a NaN. -/
def lessEqual : Double → Double → Bool
  | nan, _ => false
  | _, nan => false
  | a, b => !less b a

/-- The order of DuckDB, in which a NaN is the greatest value. -/
def sqlLess : Double → Double → Bool
  | nan, _ => false
  | _, nan => true
  | a, b => less a b

/-- `min` of two values in SQL. -/
instance : Min Double := ⟨fun a b => if sqlLess b a then b else a⟩

/-- A finite value that is not less than zero. -/
def nonnegative? : Double → Option ℚ
  | finite value => if value < 0 then none else some value
  | _ => none

/-- The nearest integer, and the even one of two that are equally near. -/
def halfToEven (value : ℚ) : Int :=
  let lower := ⌊value⌋
  let fraction := value - lower
  if fraction < 1 / 2 then lower
  else if 1 / 2 < fraction then lower + 1
  else if lower % 2 = 0 then lower
  else lower + 1

/-- The nearest multiple of the last place, which has 53 bits or is subnormal. -/
def nearest (value : ℚ) : ℚ :=
  let exponent := max (Int.log 2 |value|) (-1022)
  let lastPlace : ℚ := 2 ^ (exponent - 52)
  halfToEven (value / lastPlace) * lastPlace

/-- The result of an operation whose exact result is `value`. -/
def rounded (value : ℚ) : Double :=
  if 2 ^ 1024 ≤ |nearest value| then .infinite (decide (value < 0)) else .finite (nearest value)

/-- `!std::isfinite(value) || value < 0`. -/
theorem nonnegative?_eq_none (value : Double) :
    value.nonnegative? = none ↔ (!value.isFinite || less value 0) = true := by
  cases value with
  | finite a =>
      have hzero : less (finite a) 0 = decide (a < 0) := rfl
      rw [hzero]
      by_cases h : a < 0 <;> simp [nonnegative?, isFinite, h]
  | infinite negative => simp [nonnegative?, isFinite]
  | nan => simp [nonnegative?, isFinite]

end Double

end DuckdbLerobot.Library
