import Mathlib.Data.Rat.Floor
import Mathlib.Order.Lattice
import Mathlib.Tactic.Linarith
import Mathlib.Tactic.NormNum

/-!
# The AD5452

The multiplying DAC of one lane takes a word with a 14-bit code below two control bits.  The
conversion saturates at ±1.1 and truncates in between.  Both limits are chosen such that
saturating the code is the same as truncating the saturated value.
-/

namespace Lucidac.AD5452

def rawMin : BitVec 16 := 0

def rawZero : BitVec 16 := 8192

def rawMax : BitVec 16 := 16383

def rawDeltaOne : BitVec 16 := 7447

def minFactor : ℚ := -11 / 10

def maxFactor : ℚ := 11 / 10

def floatToRaw (scale : ℚ) : BitVec 16 :=
  if scale ≤ minFactor then rawMin
  else if maxFactor ≤ scale then rawMax
  else BitVec.ofNat 16 ⌊scale * rawDeltaOne.toNat + rawZero.toNat⌋₊

def rawToFloat (raw : BitVec 16) : ℚ := (raw.toNat - rawZero.toNat) / rawDeltaOne.toNat

/-- The weight of the lowest bit of a code. -/
def codeStep : ℚ := 1 / 7447

/-- The range the chip can represent. -/
def clamp (scale : ℚ) : ℚ := max minFactor (min scale maxFactor)

theorem clamp_bounds (scale : ℚ) : minFactor ≤ clamp scale ∧ clamp scale ≤ maxFactor := by
  refine ⟨le_max_left _ _, max_le ?_ (min_le_right _ _)⟩
  rw [minFactor, maxFactor]
  norm_num

theorem clamp_of_range {scale : ℚ} (hmin : minFactor ≤ scale) (hmax : scale ≤ maxFactor) :
    clamp scale = scale := by
  rw [clamp, min_eq_left hmax, max_eq_right hmin]

theorem clamp_mono : Monotone clamp := by
  intro x y hxy
  exact max_le_max (le_refl _) (min_le_min hxy (le_refl _))

/-- The position of a value on the scale of the codes. -/
def codePosition (scale : ℚ) : ℚ := clamp scale * 7447 + 8192

theorem codePosition_bounds (scale : ℚ) : 0 ≤ codePosition scale ∧ codePosition scale < 2 ^ 14 := by
  obtain ⟨hmin, hmax⟩ := clamp_bounds scale
  rw [minFactor] at hmin
  rw [maxFactor] at hmax
  simp only [codePosition]
  constructor <;> linarith

theorem codePosition_mono : Monotone codePosition := by
  intro x y hxy
  have h := clamp_mono hxy
  simp only [codePosition]
  linarith

theorem floor_codePosition_lt (scale : ℚ) : ⌊codePosition scale⌋₊ < 2 ^ 14 := by
  rw [Nat.floor_lt (codePosition_bounds scale).1]
  exact_mod_cast (codePosition_bounds scale).2

/-- Saturation and truncation in one: the code is the floor of the position. -/
theorem floatToRaw_toNat (scale : ℚ) : (floatToRaw scale).toNat = ⌊codePosition scale⌋₊ := by
  have hsmall : ⌊codePosition scale⌋₊ < 2 ^ 16 := (floor_codePosition_lt scale).trans (by decide)
  simp only [floatToRaw]
  split
  · rename_i hlow
    have hclamp : clamp scale = minFactor := by
      rw [clamp, max_eq_left ((min_le_left _ _).trans hlow)]
    rw [codePosition, hclamp, minFactor]
    symm
    rw [show rawMin.toNat = 0 from rfl, Nat.floor_eq_zero]
    norm_num
  · rename_i hlow
    split
    · rename_i hhigh
      have hclamp : clamp scale = maxFactor := by
        rw [clamp, min_eq_right hhigh, max_eq_right (by rw [minFactor, maxFactor]; norm_num)]
      rw [codePosition, hclamp, maxFactor]
      symm
      rw [show rawMax.toNat = 16383 from rfl, Nat.floor_eq_iff (by norm_num)]
      norm_num
    · rename_i hhigh
      have hclamp := clamp_of_range (le_of_not_ge hlow) (le_of_not_ge hhigh)
      have hposition : scale * rawDeltaOne.toNat + rawZero.toNat = codePosition scale := by
        rw [codePosition, hclamp, show rawDeltaOne.toNat = 7447 from rfl,
          show rawZero.toNat = 8192 from rfl]
        norm_num
      rw [hposition, BitVec.toNat_ofNat, Nat.mod_eq_of_lt hsmall]

theorem floatToRaw_mono {x y : ℚ} (h : x ≤ y) : (floatToRaw x).toNat ≤ (floatToRaw y).toNat := by
  rw [floatToRaw_toNat, floatToRaw_toNat]
  exact Nat.floor_mono (codePosition_mono h)

/-- The control bits above the code stay clear. -/
theorem floatToRaw_controlBits (scale : ℚ) (i : Nat) (h : 14 ≤ i) :
    (floatToRaw scale).getLsbD i = false := by
  have hlt : (floatToRaw scale).toNat < 2 ^ i := by
    rw [floatToRaw_toNat]
    exact (floor_codePosition_lt scale).trans_le (Nat.pow_le_pow_right (by decide) h)
  exact Nat.testBit_lt_two_pow hlt

/-- Decoding loses less than one step against the clamped value. -/
theorem rawToFloat_floatToRaw (scale : ℚ) :
    |rawToFloat (floatToRaw scale) - clamp scale| < codeStep := by
  have hlow := Nat.floor_le (codePosition_bounds scale).1
  have hhigh := Nat.lt_floor_add_one (codePosition scale)
  have hdecode : rawToFloat (floatToRaw scale) - clamp scale =
      (⌊codePosition scale⌋₊ - codePosition scale) / 7447 := by
    simp only [rawToFloat]
    rw [floatToRaw_toNat, show rawDeltaOne.toNat = 7447 from rfl,
      show rawZero.toNat = 8192 from rfl]
    generalize (⌊codePosition scale⌋₊ : ℚ) = code
    simp only [codePosition]
    field_simp
    ring
  rw [hdecode, codeStep, abs_lt]
  constructor <;> linarith

end Lucidac.AD5452
