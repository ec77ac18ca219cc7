import AbletonTracks.Library.Rounding

/-!
# Floats

The values of a float, and arithmetic on them: the exact result is rounded to
the nearest double, and is an infinity where that is too large.  The sign of a
zero is left out.
-/

namespace Library

/-- A float. -/
inductive Floating
  | finite (value : ℚ)
  | infinite (negative : Bool)
  | nan
  deriving DecidableEq

/-- What `round` raises. -/
inductive RoundError
  | overflowError
  | valueError
  deriving DecidableEq

namespace Floating

/-- The finite number. -/
def number? : Floating → Option ℚ
  | .finite value => some value
  | .infinite _ | .nan => none

/-- `value >= 0`. -/
def nonneg : Floating → Bool
  | .finite value => 0 ≤ value
  | .infinite negative => !negative
  | .nan => false

/-- The float nearest to a number. -/
def ofRat (value : ℚ) : Floating :=
  if |toDouble value| < 2 ^ 1024 then .finite (toDouble value)
  else .infinite (value < 0)

/-- `-value`. -/
protected def neg : Floating → Floating
  | .finite value => .finite (-value)
  | .infinite negative => .infinite !negative
  | .nan => .nan

instance : Neg Floating := ⟨Floating.neg⟩

/-- The product of an infinity and a number. -/
def scale (negative : Bool) (value : ℚ) : Floating :=
  if value = 0 then .nan else .infinite (negative ^^ decide (value < 0))

/-- `left * right`. -/
def mul : Floating → Floating → Floating
  | .finite left, .finite right => ofRat (left * right)
  | .infinite negative, .finite value => scale negative value
  | .finite value, .infinite negative => scale negative value
  | .infinite left, .infinite right => .infinite (left ^^ right)
  | .nan, _ | _, .nan => .nan

/-- `left / right`, by a number that is positive. -/
def div : Floating → ℚ → Floating
  | .finite left, right => ofRat (left / right)
  | special, _ => special

/-- `left + right`. -/
def add : Floating → Floating → Floating
  | .finite left, .finite right => ofRat (left + right)
  | .infinite left, .infinite right =>
      if left = right then .infinite left else .nan
  | .infinite negative, .finite _ => .infinite negative
  | .finite _, .infinite negative => .infinite negative
  | .nan, _ | _, .nan => .nan

/-- Python's `round(value)`. -/
def round : Floating → Except RoundError ℤ
  | .finite value => .ok (roundHalfEven value)
  | .infinite _ => .error .overflowError
  | .nan => .error .valueError

end Floating
end Library
