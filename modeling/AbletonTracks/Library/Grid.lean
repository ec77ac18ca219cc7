import Mathlib.Algebra.Order.Floor.Ring
import Mathlib.Algebra.Order.Field.Basic
import Mathlib.Order.Bounds.Basic
import Mathlib.Tactic.Linarith
import Mathlib.Tactic.Ring

/-!
# The lines of a grid

The multiples of a step, and the first of them after a position.  A line is
the first one after a position exactly if the line before it does not come
after the position, too.
-/

namespace Library
namespace Grid

variable {α : Type*} [Field α] [LinearOrder α] [IsStrictOrderedRing α]
  {step position line : α}

/-- The multiples of a step that come after a position. -/
def linesAfter (step position : α) : Set α :=
  {line | (∃ number : ℤ, line = number * step) ∧ position < line}

theorem isLeast_linesAfter_iff (positive : 0 < step) :
    IsLeast (linesAfter step position) line ↔
      (∃ number : ℤ, line = number * step) ∧ position < line ∧
        line - step ≤ position := by
  constructor
  · rintro ⟨⟨⟨number, rfl⟩, after⟩, first⟩
    refine ⟨⟨number, rfl⟩, after, ?_⟩
    by_contra before
    rw [not_le] at before
    have earlier : (number : α) * step - step ∈ linesAfter step position :=
      ⟨⟨number - 1, by push_cast; ring⟩, before⟩
    have bound := first earlier
    linarith
  · rintro ⟨⟨number, rfl⟩, after, before⟩
    refine ⟨⟨⟨number, rfl⟩, after⟩, ?_⟩
    rintro _ ⟨⟨other, rfl⟩, otherAfter⟩
    have less : ((number - 1 : ℤ) : α) * step < other * step := by
      push_cast
      linarith
    have numbers : number - 1 < other := by
      exact_mod_cast lt_of_mul_lt_mul_right less positive.le
    have bound : number ≤ other := by omega
    have cast : (number : α) ≤ other := by exact_mod_cast bound
    exact mul_le_mul_of_nonneg_right cast positive.le

variable [FloorRing α]

/-- The first multiple of a step after a position. -/
def lineAfter (step position : α) : α := (⌊position / step⌋ + 1) * step

theorem lt_lineAfter (positive : 0 < step) (position : α) :
    position < lineAfter step position := by
  rw [lineAfter, ← div_lt_iff₀ positive]
  exact Int.lt_floor_add_one _

theorem lineAfter_sub_le (positive : 0 < step) (position : α) :
    lineAfter step position - step ≤ position := by
  have below := (le_div_iff₀ positive).mp (Int.floor_le (position / step))
  rw [lineAfter]
  linarith

theorem isLeast_lineAfter (positive : 0 < step) (position : α) :
    IsLeast (linesAfter step position) (lineAfter step position) := by
  rw [isLeast_linesAfter_iff positive]
  refine ⟨⟨⌊position / step⌋ + 1, ?_⟩, lt_lineAfter positive position,
    lineAfter_sub_le positive position⟩
  rw [lineAfter]
  push_cast
  rfl

end Grid
end Library
