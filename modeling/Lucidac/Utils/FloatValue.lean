import Mathlib.Algebra.Order.Field.Rat
import Mathlib.Algebra.Order.Group.Abs
import Mathlib.Tactic.Linarith

/-!
# Floating point values

A `float` is a number, an infinity, or not a number.  Numbers are exact rationals, and what is
not a number compares false with everything.
-/

namespace Lucidac

inductive FloatValue where
  | number (x : ℚ)
  | positiveInfinity
  | negativeInfinity
  | nan
deriving DecidableEq

namespace FloatValue

/-- The operator `<`. -/
def less : FloatValue → FloatValue → Bool
  | .number x, .number y => decide (x < y)
  | .number _, .positiveInfinity => true
  | .negativeInfinity, .number _ => true
  | .negativeInfinity, .positiveInfinity => true
  | _, _ => false

def sub : FloatValue → FloatValue → FloatValue
  | .number x, .number y => .number (x - y)
  | .number _, .positiveInfinity => .negativeInfinity
  | .number _, .negativeInfinity => .positiveInfinity
  | .positiveInfinity, .number _ => .positiveInfinity
  | .positiveInfinity, .negativeInfinity => .positiveInfinity
  | .negativeInfinity, .number _ => .negativeInfinity
  | .negativeInfinity, .positiveInfinity => .negativeInfinity
  | _, _ => .nan

/-- `fabs` -/
def abs : FloatValue → FloatValue
  | .number x => .number |x|
  | .positiveInfinity => .positiveInfinity
  | .negativeInfinity => .positiveInfinity
  | .nan => .nan

/-- A number from `low` to `high`. -/
def Within (low high : ℚ) (v : FloatValue) : Prop := ∃ x, v = .number x ∧ low ≤ x ∧ x ≤ high

@[simp] theorem within_number (low high x : ℚ) :
    Within low high (.number x) ↔ low ≤ x ∧ x ≤ high := by
  simp [Within]

/-- The two comparisons that guard a range let its numbers pass, and what is not a number. -/
theorem passes_range_iff (low high : ℚ) (v : FloatValue) :
    (less (.number high) v || less v (.number low)) = false ↔ v.Within low high ∨ v = .nan := by
  cases v with
  | number x =>
    simp only [less, Bool.or_eq_false_iff, decide_eq_false_iff_not, not_lt, within_number]
    simp [and_comm]
  | positiveInfinity => simp [less, Within]
  | negativeInfinity => simp [less, Within]
  | nan => simp [less]

/-- So does the comparison of the distance from a number. -/
theorem passes_distance_iff (center radius : ℚ) (v : FloatValue) :
    less (.number radius) (abs (sub (.number center) v)) = false ↔
      v.Within (center - radius) (center + radius) ∨ v = .nan := by
  cases v with
  | number x =>
    simp only [sub, abs, less, decide_eq_false_iff_not, not_lt, within_number, abs_le]
    simp only [reduceCtorEq, or_false]
    constructor
    · intro h
      exact ⟨by linarith [h.2], by linarith [h.1]⟩
    · intro h
      exact ⟨by linarith [h.2], by linarith [h.1]⟩
  | positiveInfinity => simp [sub, abs, less, Within]
  | negativeInfinity => simp [sub, abs, less, Within]
  | nan => simp [sub, abs, less]

end FloatValue

end Lucidac
