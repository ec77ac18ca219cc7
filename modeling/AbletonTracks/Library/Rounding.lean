import Mathlib.Algebra.Order.Floor.Ring
import Mathlib.Data.Int.Log
import Mathlib.Data.Rat.Floor

/-!
# Rounding half to even

Python's `round(value, digits)` on exact rationals: the nearest multiple of
`10 ^ -digits`, ties going to the even one.  A float is packed with single
precision in the same way, to 24 binary places, and an integer becomes a float
of 53.
-/

namespace Library

/-- The nearest integer, the even one of two equally near. -/
def roundHalfEven (value : ℚ) : ℤ :=
  let below := ⌊value⌋
  let fraction := value - below
  if fraction < 1 / 2 then below
  else if 1 / 2 < fraction then below + 1
  else if below % 2 = 0 then below
  else below + 1

/-- Python's `round(value, digits)`. -/
def roundTo (digits : Nat) (value : ℚ) : ℚ :=
  roundHalfEven (value * 10 ^ digits) / 10 ^ digits

/-- The exponent of the last binary place that single precision keeps. -/
def lastPlace (value : ℚ) : ℤ := max (Int.log 2 |value| - 23) (-149)

/-- The nearest float of single precision; a value too large for one is
rounded as if the exponents went on. -/
def toSingle (value : ℚ) : ℚ :=
  roundHalfEven (value / 2 ^ lastPlace value) * 2 ^ lastPlace value

@[simp] theorem toSingle_zero : toSingle 0 = 0 := by
  simp [toSingle, roundHalfEven]

/-- The exponent of the last binary place of a float. -/
def lastPlaceDouble (value : ℚ) : ℤ := max (Int.log 2 |value| - 52) (-1074)

/-- The nearest float, rounded like that. -/
def toDouble (value : ℚ) : ℚ :=
  roundHalfEven (value / 2 ^ lastPlaceDouble value) *
    2 ^ lastPlaceDouble value

@[simp] theorem toDouble_zero : toDouble 0 = 0 := by
  simp [toDouble, roundHalfEven]

example : toSingle (1201 / 10) = 15741747 / 131072 := by decide +kernel

end Library
