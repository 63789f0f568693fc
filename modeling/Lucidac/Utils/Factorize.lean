import Mathlib.Algebra.Group.Nat.Defs
import Mathlib.Data.Nat.Find
import Mathlib.Data.Nat.Sqrt
import Lucidac.Framework.Checked

/-!
# Factors for chained timers

A number of clock ticks is split into two factors, one for each of two chained timers.  The search
starts at the square root and moves one factor up while the other follows by division.
-/

namespace Lucidac

open Framework (divide divide_of_ne_zero)

/-- The `goto` loop of `utils::factorize`, for at most `fuel` passes. -/
def factorizeLoop (input delta : BitVec 64) : Nat → BitVec 64 → BitVec 64 →
    Option (BitVec 64 × BitVec 64)
  | 0, _, _ => none
  | fuel + 1, x, y =>
    if input + delta < x * y then do
      let x ← divide input (y - 1)
      factorizeLoop input delta fuel x (y - 1)
    else if x * y < input - delta then do
      let y ← divide input (x + 1)
      factorizeLoop input delta fuel (x + 1) y
    else some (x, y)

/-- `utils::factorize`, with the exact integer square root. -/
def factorize (fuel : Nat) (input : BitVec 64) (acceptableDelta : BitVec 32) :
    Option (BitVec 64 × BitVec 64) :=
  let delta := acceptableDelta.setWidth 64
  let root := BitVec.ofNat 64 (Nat.sqrt input.toNat)
  if input - delta < root * root then some (root, root)
  else factorizeLoop input delta fuel root root

section Search

/-- Two factors that miss the number by at most `delta`, the larger one first. -/
structure NearFactors (n delta x y : Nat) : Prop where
  pos : 1 ≤ y
  order : y ≤ x
  below : x * y ≤ n
  near : n ≤ x * y + delta

/-- `x` is the first number after `start` whose division leaves at most `delta`. -/
structure NextFactor (n delta start x : Nat) : Prop where
  lt : start < x
  le : x ≤ n
  small : n % x ≤ delta
  first : ∀ k, start < k → k < x → delta < n % k

variable {n delta start x : Nat}

theorem exists_nextFactor (hlt : start < n) (delta : Nat) : ∃ x, NextFactor n delta start x := by
  have hn : start < n ∧ n % n ≤ delta := ⟨hlt, by rw [Nat.mod_self]; exact Nat.zero_le _⟩
  have hex : ∃ k, start < k ∧ n % k ≤ delta := ⟨n, hn⟩
  have hspec := Nat.find_spec hex
  have hfirst : ∀ k, start < k → k < Nat.find hex → delta < n % k := by
    intro k hk hlt
    by_contra hsmall
    exact Nat.find_min hex hlt ⟨hk, Nat.not_lt.mp hsmall⟩
  exact ⟨Nat.find hex, hspec.1, Nat.find_min' hex hn, hspec.2, hfirst⟩

theorem NextFactor.nearFactors (h : NextFactor n delta (Nat.sqrt n) x) :
    NearFactors n delta x (n / x) where
  pos := Nat.div_pos h.le (Nat.zero_lt_of_lt h.lt)
  order := by
    have hroot : n < x * x := Nat.sqrt_lt.mp h.lt
    exact Nat.le_of_lt (Nat.div_lt_of_lt_mul hroot)
  below := Nat.mul_div_le n x
  near := by
    have hsplit := Nat.div_add_mod n x
    have hsmall := h.small
    omega

/-- Two factors that come as near have no smaller larger one, unless they stay below the root. -/
theorem NextFactor.le_of_nearFactors (h : NextFactor n delta (Nat.sqrt n) x)
    (hroot : Nat.sqrt n * Nat.sqrt n + delta < n) {x' y' : Nat} (h' : NearFactors n delta x' y') :
    x ≤ x' := by
  have hnear := h'.near
  have hstart : Nat.sqrt n < x' := by
    by_contra hle
    have hsquare : x' * y' ≤ Nat.sqrt n * Nat.sqrt n :=
      Nat.mul_le_mul (Nat.not_lt.mp hle) (Nat.le_trans h'.order (Nat.not_lt.mp hle))
    omega
  by_contra hlt
  have hlarge := h.first x' hstart (Nat.not_le.mp hlt)
  have hdiv : y' ≤ n / x' := by
    rw [Nat.le_div_iff_mul_le (Nat.zero_lt_of_lt hstart), Nat.mul_comm]
    exact h'.below
  have hle : x' * y' ≤ x' * (n / x') := Nat.mul_le_mul_left x' hdiv
  have hsplit := Nat.div_add_mod n x'
  omega

end Search

section Loop

variable {input delta x y : BitVec 64}

theorem toNat_mul_of_below (hinput : input.toNat < 2 ^ 52)
    (hbelow : x.toNat * y.toNat ≤ input.toNat) : (x * y).toNat = x.toNat * y.toNat := by
  rw [BitVec.toNat_mul]
  exact Nat.mod_eq_of_lt (by omega)

theorem toNat_succ_of_lt (hx : x.toNat < input.toNat) : (x + 1).toNat = x.toNat + 1 := by
  have hmax := input.isLt
  rw [BitVec.toNat_add]
  exact Nat.mod_eq_of_lt (by simp; omega)

section Step

variable (hinput : input.toNat < 2 ^ 52) (hdelta : delta.toNat ≤ input.toNat)
  (hbelow : x.toNat * y.toNat ≤ input.toNat)
include hinput hdelta hbelow

theorem not_above_of_below : ¬ input + delta < x * y := by
  rw [BitVec.lt_def, toNat_mul_of_below hinput hbelow, BitVec.toNat_add,
    Nat.mod_eq_of_lt (by omega)]
  omega

theorem below_iff_far : x * y < input - delta ↔ x.toNat * y.toNat + delta.toNat < input.toNat := by
  rw [BitVec.lt_def, toNat_mul_of_below hinput hbelow, BitVec.toNat_sub_of_le hdelta]
  omega

theorem factorizeLoop_of_near (fuel : Nat)
    (hnear : input.toNat ≤ x.toNat * y.toNat + delta.toNat) :
    factorizeLoop input delta (fuel + 1) x y = some (x, y) := by
  have hfar : ¬ x * y < input - delta := by
    rw [below_iff_far hinput hdelta hbelow]
    omega
  rw [factorizeLoop, if_neg (not_above_of_below hinput hdelta hbelow), if_neg hfar]

theorem factorizeLoop_of_far (fuel : Nat)
    (hfar : x.toNat * y.toNat + delta.toNat < input.toNat) (hx : x.toNat < input.toNat) :
    factorizeLoop input delta (fuel + 1) x y =
      factorizeLoop input delta fuel (x + 1) (input / (x + 1)) := by
  have hne : x + 1 ≠ 0 := by
    intro hzero
    have hsucc := toNat_succ_of_lt hx
    rw [hzero] at hsucc
    exact absurd hsucc (by simp)
  rw [factorizeLoop, if_neg (not_above_of_below hinput hdelta hbelow),
    if_pos ((below_iff_far hinput hdelta hbelow).mpr hfar), divide_of_ne_zero _ hne]
  rfl

end Step

variable (hinput : input.toNat < 2 ^ 52) (hdelta : delta.toNat ≤ input.toNat)
include hinput hdelta

/-- The search behind the root: the second factor always follows by division. -/
theorem factorizeLoop_of_nextFactor {start z : Nat}
    (hz : NextFactor input.toNat delta.toNat start z) (steps fuel : Nat)
    (hx : x.toNat + steps = z) (hstart : start < x.toNat) (hfuel : steps < fuel) :
    ∃ x' y' : BitVec 64, factorizeLoop input delta fuel x (input / x) = some (x', y') ∧
      x'.toNat = z ∧ y'.toNat = input.toNat / z := by
  have hle := hz.le
  have hdiv : (input / x).toNat = input.toNat / x.toNat := BitVec.toNat_udiv
  have hbelow : x.toNat * (input / x).toNat ≤ input.toNat := by
    rw [hdiv]
    exact Nat.mul_div_le _ _
  have hsplit := Nat.div_add_mod input.toNat x.toNat
  obtain _ | fuel := fuel
  · omega
  induction steps generalizing x fuel with
  | zero =>
    have hxz : x.toNat = z := hx
    have hsmall := hz.small
    rw [hdiv] at hbelow
    rw [← hxz] at hsmall
    exact ⟨x, input / x, factorizeLoop_of_near hinput hdelta (hdiv ▸ hbelow) fuel
      (by rw [hdiv]; omega), hxz, by rw [hdiv, hxz]⟩
  | succ steps ih =>
    have hfar := hz.first x.toNat hstart (by omega)
    have hlt : x.toNat < input.toNat := by omega
    have hsucc := toNat_succ_of_lt hlt
    obtain _ | fuel := fuel
    · omega
    rw [factorizeLoop_of_far hinput hdelta hbelow (fuel + 1) (by rw [hdiv]; omega) hlt]
    exact ih (by omega) (by omega) BitVec.toNat_udiv (by rw [BitVec.toNat_udiv]; exact Nat.mul_div_le _ _)
      (Nat.div_add_mod _ _) fuel (by omega)

end Loop

section Factorize

variable {input : BitVec 64} {acceptableDelta : BitVec 32}

theorem toNat_root (input : BitVec 64) :
    (BitVec.ofNat 64 (Nat.sqrt input.toNat)).toNat = Nat.sqrt input.toNat := by
  have hle := Nat.sqrt_le_self input.toNat
  rw [BitVec.toNat_ofNat]
  exact Nat.mod_eq_of_lt (by omega)

theorem toNat_delta (acceptableDelta : BitVec 32) :
    (acceptableDelta.setWidth 64).toNat = acceptableDelta.toNat :=
  BitVec.toNat_setWidth_of_le (by decide)

variable (hinput : input.toNat < 2 ^ 52) (hdelta : acceptableDelta.toNat ≤ input.toNat)
include hinput hdelta

theorem factorize_of_near (fuel : Nat)
    (hnear : input.toNat ≤
      Nat.sqrt input.toNat * Nat.sqrt input.toNat + acceptableDelta.toNat) :
    factorize (fuel + 1) input acceptableDelta =
      some (BitVec.ofNat 64 (Nat.sqrt input.toNat), BitVec.ofNat 64 (Nat.sqrt input.toNat)) := by
  rw [factorize]
  split
  · rfl
  · apply factorizeLoop_of_near hinput
    · rw [toNat_delta]
      exact hdelta
    · rw [toNat_root]
      exact Nat.sqrt_le _
    · rw [toNat_root, toNat_delta]
      exact hnear

theorem factorize_of_far {z : Nat}
    (hfar : Nat.sqrt input.toNat * Nat.sqrt input.toNat + acceptableDelta.toNat < input.toNat)
    (hz : NextFactor input.toNat acceptableDelta.toNat (Nat.sqrt input.toNat) z) (fuel : Nat)
    (hfuel : input.toNat < fuel) :
    ∃ x y : BitVec 64, factorize fuel input acceptableDelta = some (x, y) ∧ x.toNat = z ∧
      y.toNat = input.toNat / z := by
  have hle := hz.le
  have hlt := hz.lt
  have hroot := toNat_root input
  have hwide := toNat_delta acceptableDelta
  have hsquare : Nat.sqrt input.toNat * Nat.sqrt input.toNat ≤ input.toNat := Nat.sqrt_le _
  have hsucc := toNat_succ_of_lt (Nat.lt_of_lt_of_le (hroot.symm ▸ hlt) hle)
  rw [← hwide] at hdelta hz hfar
  rw [factorize]
  generalize BitVec.ofNat 64 (Nat.sqrt input.toNat) = root at hroot hsucc ⊢
  rw [← hroot] at hsquare hfar hlt hz
  have hnot : ¬ input - acceptableDelta.setWidth 64 < root * root := by
    rw [BitVec.lt_def, toNat_mul_of_below hinput hsquare, BitVec.toNat_sub_of_le hdelta]
    omega
  obtain _ | fuel := fuel
  · omega
  rw [if_neg hnot, factorizeLoop_of_far hinput hdelta hsquare fuel hfar (by omega)]
  exact factorizeLoop_of_nextFactor hinput hdelta hz (z - (root + 1).toNat) fuel (by omega)
    (by omega) (by omega)

end Factorize

/-- The split ends, comes as near as asked for and has no smaller larger factor above the root. -/
theorem factorize_least {input : BitVec 64} {acceptableDelta : BitVec 32}
    (hpos : 1 ≤ input.toNat) (hinput : input.toNat < 2 ^ 52)
    (hdelta : acceptableDelta.toNat ≤ input.toNat) (fuel : Nat) (hfuel : input.toNat < fuel) :
    ∃ x y : BitVec 64, factorize fuel input acceptableDelta = some (x, y) ∧
      NearFactors input.toNat acceptableDelta.toNat x.toNat y.toNat ∧
      ∀ x' y', NearFactors input.toNat acceptableDelta.toNat x' y' →
        x.toNat ≤ max x' (Nat.sqrt input.toNat) := by
  by_cases hnear : input.toNat ≤
      Nat.sqrt input.toNat * Nat.sqrt input.toNat + acceptableDelta.toNat
  · obtain _ | fuel := fuel
    · omega
    have hone : 1 ≤ Nat.sqrt input.toNat := Nat.sqrt_pos.mpr hpos
    refine ⟨_, _, factorize_of_near hinput hdelta fuel hnear, ?_, ?_⟩
    · rw [toNat_root]
      exact ⟨hone, Nat.le_refl _, Nat.sqrt_le _, hnear⟩
    · intro x' y' _
      rw [toNat_root]
      exact Nat.le_max_right _ _
  · have hfar := Nat.not_le.mp hnear
    have hlt : Nat.sqrt input.toNat < input.toNat := by
      have hself : Nat.sqrt input.toNat ≤ Nat.sqrt input.toNat * Nat.sqrt input.toNat :=
        Nat.le_mul_self _
      omega
    obtain ⟨z, hz⟩ := exists_nextFactor hlt acceptableDelta.toNat
    obtain ⟨x, y, heq, hx, hy⟩ := factorize_of_far hinput hdelta hfar hz fuel hfuel
    refine ⟨x, y, heq, ?_, ?_⟩
    · rw [hx, hy]
      exact hz.nearFactors
    · intro x' y' hother
      rw [hx]
      exact Nat.le_trans (hz.le_of_nearFactors hfar hother) (Nat.le_max_left _ _)

theorem factorize_near (input : BitVec 64) (acceptableDelta : BitVec 32)
    (hpos : 1 ≤ input.toNat) (hinput : input.toNat < 2 ^ 52)
    (hdelta : acceptableDelta.toNat ≤ input.toNat) (fuel : Nat) (hfuel : input.toNat < fuel) :
    ∃ x y : BitVec 64, factorize fuel input acceptableDelta = some (x, y) ∧ 1 ≤ y.toNat ∧
      y.toNat ≤ x.toNat ∧ input.toNat - acceptableDelta.toNat ≤ x.toNat * y.toNat ∧
      x.toNat * y.toNat ≤ input.toNat := by
  obtain ⟨x, y, heq, hfactors, -⟩ := factorize_least hpos hinput hdelta fuel hfuel
  exact ⟨x, y, heq, hfactors.pos, hfactors.order,
    Nat.sub_le_iff_le_add.mpr hfactors.near, hfactors.below⟩

theorem factorize_near_seventeen : ∃ x y : BitVec 64,
    factorize 18 17#64 0#32 = some (x, y) ∧ 1 ≤ y.toNat ∧ y.toNat ≤ x.toNat ∧
      17 - 0 ≤ x.toNat * y.toNat ∧ x.toNat * y.toNat ≤ 17 :=
  factorize_near 17#64 0#32 (by decide) (by decide) (by decide) 18 (by decide)

end Lucidac
