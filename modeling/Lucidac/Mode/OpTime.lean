import Lucidac.Mode.FlexIOControl

/-!
# The measured time in OP

Two counters of sixteen bits are read at the end of a run and combined in the arithmetic of `int`.
-/

namespace Lucidac.FlexIOControl

section OpTime

/-- The nanoseconds that the two counters stand for, in hundredths. -/
def opTimeHundredths (cntr1 cntr2 : BitVec 16) : Nat :=
  (cntr2.toNat * 65535 + cntr1.toNat) * 671

variable {cntr1 cntr2 : BitVec 16}

theorem toNat_product (cntr1 cntr2 : BitVec 16) :
    ((cntr2.setWidth 32 * 0xFFFF + cntr1.setWidth 32) * 671 : BitVec 32).toNat =
      opTimeHundredths cntr1 cntr2 % 2 ^ 32 := by
  have hfirst : (cntr1.setWidth 32).toNat = cntr1.toNat := BitVec.toNat_setWidth_of_le (by decide)
  have hsecond : (cntr2.setWidth 32).toNat = cntr2.toNat := BitVec.toNat_setWidth_of_le (by decide)
  have hfactor : (0xFFFF : BitVec 32).toNat = 65535 := rfl
  have hscale : (671 : BitVec 32).toNat = 671 := rfl
  rw [BitVec.toNat_mul, BitVec.toNat_add, BitVec.toNat_mul, hfirst, hsecond, hfactor, hscale,
    Nat.mod_add_mod, Nat.mod_mul_mod, opTimeHundredths]

theorem toNat_signExtend_of_lt {x : BitVec 32} (hx : x.toNat < 2 ^ 31) :
    (x.signExtend 64).toNat = x.toNat := by
  have hmsb : x.msb = false := BitVec.msb_eq_false_iff_two_mul_lt.mpr (by omega)
  rw [BitVec.signExtend_eq_setWidth_of_msb_false hmsb]
  exact BitVec.toNat_setWidth_of_le (by decide)

theorem signExtend_sdiv_of_lt {x : BitVec 32} (hx : x.toNat < 2 ^ 31) :
    ((x.sdiv 100).signExtend 64).toNat = x.toNat / 100 := by
  have hmsb : x.msb = false := BitVec.msb_eq_false_iff_two_mul_lt.mpr (by omega)
  have hdiv : (x.sdiv 100).toNat = x.toNat / 100 := by
    rw [BitVec.toNat_sdiv, hmsb]
    exact BitVec.toNat_udiv
  rw [toNat_signExtend_of_lt (by omega), hdiv]

/-- A negative product is rounded towards zero, and the sign is extended. -/
theorem signExtend_sdiv_of_le {x : BitVec 32} (hx : 2 ^ 31 ≤ x.toNat) :
    ((x.sdiv 100).signExtend 64).toNat = (2 ^ 64 - (2 ^ 32 - x.toNat) / 100) % 2 ^ 64 := by
  have hmsb : x.msb = true := BitVec.msb_eq_true_iff_two_mul_ge.mpr (by omega)
  have hundred : (100 : BitVec 32).toNat = 100 := rfl
  have hlt := x.isLt
  have hdiv : (x.sdiv 100).toNat = (2 ^ 32 - (2 ^ 32 - x.toNat) / 100) % 2 ^ 32 := by
    rw [BitVec.toNat_sdiv, hmsb]
    change (-((-x) / 100)).toNat = _
    rw [BitVec.toNat_neg, BitVec.toNat_udiv, BitVec.toNat_neg,
      Nat.mod_eq_of_lt (show 2 ^ 32 - x.toNat < 2 ^ 32 by omega), hundred]
  by_cases hzero : (2 ^ 32 - x.toNat) / 100 = 0
  · rw [hzero] at hdiv ⊢
    rw [toNat_signExtend_of_lt (by omega), hdiv]
    omega
  · have hneg : (x.sdiv 100).msb = true := BitVec.msb_eq_true_iff_two_mul_ge.mpr (by omega)
    rw [BitVec.toNat_signExtend, hneg, if_pos rfl, BitVec.toNat_setWidth_of_le (by decide), hdiv]
    omega

theorem getActualOpTime_exact_iff :
    (getActualOpTime cntr1 cntr2).toNat = opTimeHundredths cntr1 cntr2 / 100 ↔
      opTimeHundredths cntr1 cntr2 < 2 ^ 31 := by
  have hproduct := toNat_product cntr1 cntr2
  have h1 := cntr1.isLt
  have h2 := cntr2.isLt
  have hmax : opTimeHundredths cntr1 cntr2 < 2 ^ 42 := by
    rw [opTimeHundredths]
    omega
  simp only [getActualOpTime]
  generalize ((cntr2.setWidth 32 * 0xFFFF + cntr1.setWidth 32) * 671 : BitVec 32) = x at hproduct ⊢
  by_cases hx : x.toNat < 2 ^ 31
  · rw [signExtend_sdiv_of_lt hx]
    omega
  · rw [signExtend_sdiv_of_le (by omega)]
    omega

/-- Which hundredths are given back by the low word of what `getActualOpTime` makes of them. -/
theorem low_word_exact_iff {hundredths high low : Nat} (hsplit : hundredths = 2 ^ 32 * high + low)
    (hlow : low < 2 ^ 32) :
    (if low < 2 ^ 31 then low / 100 else (2 ^ 32 - (2 ^ 32 - low) / 100) % 2 ^ 32) =
        hundredths / 100 ↔
      hundredths < 2 ^ 31 ∨ 100 ∣ hundredths ∧ 100 * 2 ^ 32 ≤ hundredths + 2 ^ 31 ∧
        hundredths + 100 ≤ 100 * 2 ^ 32 := by
  subst hsplit
  obtain hhigh | rfl | hhigh := Nat.lt_trichotomy high 99
  · split
    · omega
    · omega
  · split
    · omega
    · omega
  · split
    · omega
    · omega

/-- Beyond the range of an `int` a second truncation gives the time back where the product is a
hundred times the range of a word, up to whole nanoseconds. -/
theorem truncated_exact_iff :
    ((getActualOpTime cntr1 cntr2).setWidth 32).toNat = opTimeHundredths cntr1 cntr2 / 100 ↔
      opTimeHundredths cntr1 cntr2 < 2 ^ 31 ∨
        100 ∣ opTimeHundredths cntr1 cntr2 ∧
          100 * 2 ^ 32 ≤ opTimeHundredths cntr1 cntr2 + 2 ^ 31 ∧
          opTimeHundredths cntr1 cntr2 + 100 ≤ 100 * 2 ^ 32 := by
  have hproduct := toNat_product cntr1 cntr2
  have hlow : ((getActualOpTime cntr1 cntr2).setWidth 32).toNat =
      if opTimeHundredths cntr1 cntr2 % 2 ^ 32 < 2 ^ 31 then
        opTimeHundredths cntr1 cntr2 % 2 ^ 32 / 100
      else (2 ^ 32 - (2 ^ 32 - opTimeHundredths cntr1 cntr2 % 2 ^ 32) / 100) % 2 ^ 32 := by
    simp only [getActualOpTime]
    rw [← hproduct, BitVec.toNat_setWidth]
    generalize ((cntr2.setWidth 32 * 0xFFFF + cntr1.setWidth 32) * 671 : BitVec 32) = x
    split
    · next hx =>
      rw [signExtend_sdiv_of_lt hx]
      omega
    · next hx =>
      rw [signExtend_sdiv_of_le (by omega)]
      omega
  rw [hlow]
  exact low_word_exact_iff (Nat.div_add_mod _ _).symm (Nat.mod_lt _ (by decide))

end OpTime

end Lucidac.FlexIOControl
