import Mathlib.Algebra.Order.Field.Rat
import Mathlib.Logic.Function.Basic
import Mathlib.Tactic.Linarith
import Lucidac.Entity.ResetAction

/-!
# The C block

The C block scales each of the 32 lanes by a coefficient and a gain correction close to one.
Numbers are exact rationals.  No single precision number lies between a bound of the source, such
as `0.1f`, and the decimal fraction that stands for it here, so that every number the firmware can
receive passes the same checks.
-/

namespace Lucidac

structure CBlock where
  factors : Fin 32 → ℚ
  gainCorrections : Fin 32 → ℚ

namespace CBlock

def numCoeff : Nat := 32

def minFactor : ℚ := -101 / 100

def maxFactor : ℚ := 101 / 100

def maxGainCorrectionAbs : ℚ := 1 / 10

def initial : CBlock := ⟨fun _ => 1, fun _ => 1⟩

def setFactor (s : CBlock) (idx : Nat) (factor : ℚ) : Bool × CBlock :=
  if h : idx < 32 then
    if maxFactor < factor ∨ factor < minFactor then (false, s)
    else (true, { s with factors := Function.update s.factors ⟨idx, h⟩ factor })
  else (false, s)

def setFactors (s : CBlock) (factors : Fin 32 → ℚ) : CBlock := { s with factors := factors }

/-- `set_gain_correction`.  The range check lets index 32 pass, which lies behind the array; the
block itself is then unchanged. -/
def setGainCorrection (s : CBlock) (coeffIdx : Nat) (correction : ℚ) : Bool × CBlock :=
  if numCoeff < coeffIdx then (false, s)
  else if maxGainCorrectionAbs < |1 - correction| then (false, s)
  else if h : coeffIdx < 32 then
    (true, { s with gainCorrections := Function.update s.gainCorrections ⟨coeffIdx, h⟩ correction })
  else (true, s)

def resetGainCorrections (s : CBlock) : CBlock := { s with gainCorrections := fun _ => 1 }

def reset (s : CBlock) (action : ResetAction) : CBlock :=
  let s := if action.has ResetAction.circuitReset then s.setFactors fun _ => 1 else s
  if action.has ResetAction.calibrationReset then s.resetGainCorrections else s

def Acceptable (correction : ℚ) : Prop := 9 / 10 ≤ correction ∧ correction ≤ 11 / 10

instance (correction : ℚ) : Decidable (Acceptable correction) :=
  inferInstanceAs (Decidable (_ ∧ _))

theorem acceptable_iff (correction : ℚ) :
    Acceptable correction ↔ ¬ maxGainCorrectionAbs < |1 - correction| := by
  rw [not_lt, maxGainCorrectionAbs, abs_le, Acceptable]
  constructor
  · intro h
    constructor <;> linarith [h.1, h.2]
  · intro h
    constructor <;> linarith [h.1, h.2]

theorem setFactor_of_range (s : CBlock) (idx : Fin 32) {factor : ℚ} (hmin : minFactor ≤ factor)
    (hmax : factor ≤ maxFactor) :
    s.setFactor idx factor =
      (true, { s with factors := Function.update s.factors idx factor }) := by
  rw [setFactor, dif_pos idx.isLt, if_neg]
  intro h
  rcases h with h | h <;> linarith

theorem setFactor_success {s : CBlock} {idx : Nat} {factor : ℚ}
    (h : (s.setFactor idx factor).1 = true) :
    ∃ hidx : idx < 32, minFactor ≤ factor ∧ factor ≤ maxFactor ∧
      (s.setFactor idx factor).2 =
        { s with factors := Function.update s.factors ⟨idx, hidx⟩ factor } := by
  simp only [setFactor] at h ⊢
  split at h
  · rename_i hidx
    split at h
    · cases h
    · rename_i hrange
      rw [dif_pos hidx, if_neg hrange]
      rw [not_or, not_lt, not_lt] at hrange
      exact ⟨hidx, hrange.2, hrange.1, rfl⟩
  · cases h

theorem setFactor_failure {s : CBlock} {idx : Nat} {factor : ℚ}
    (h : (s.setFactor idx factor).1 = false) : (s.setFactor idx factor).2 = s := by
  simp only [setFactor] at h ⊢
  split at h
  · rename_i hidx
    split at h
    · rename_i hrange
      rw [dif_pos hidx, if_pos hrange]
    · cases h
  · rename_i hidx
    rw [dif_neg hidx]

theorem setGainCorrection_eq (s : CBlock) (idx : Fin 32) (correction : ℚ) :
    s.setGainCorrection idx correction =
      if Acceptable correction then
        (true, { s with gainCorrections := Function.update s.gainCorrections idx correction })
      else (false, s) := by
  have hidx : ¬ numCoeff < idx.val := Nat.not_lt.mpr (Nat.le_of_lt idx.isLt)
  rw [setGainCorrection, if_neg hidx]
  by_cases h : Acceptable correction
  · rw [if_neg ((acceptable_iff correction).mp h), dif_pos idx.isLt, if_pos h]
  · have hfar : maxGainCorrectionAbs < |1 - correction| :=
      not_not.mp fun hn => h ((acceptable_iff correction).mpr hn)
    rw [if_pos hfar, if_neg h]

end CBlock

end Lucidac
