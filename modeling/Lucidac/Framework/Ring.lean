import Mathlib.Data.Nat.ModEq
import Mathlib.Logic.Function.Basic

/-!
# Ring buffers

A producer writes one value after the other into `n` slots and starts over when it reaches the
end.  The `n` most recent values can be read back from their slots.
-/

namespace Framework

variable {α : Type}

/-- The slots after the first `m` values were written, starting empty. -/
def ringSlots (n : Nat) (value : Nat → α) : Nat → Nat → Option α
  | 0 => fun _ => none
  | m + 1 => Function.update (ringSlots n value m) (m % n) (some (value m))

private theorem mod_ne_of_near {n i m : Nat} (hlt : i < m) (hnear : m < i + n) : m % n ≠ i % n := by
  intro h
  have hdvd : n ∣ m - i := (Nat.modEq_iff_dvd' (Nat.le_of_lt hlt)).mp h.symm
  have hle : n ≤ m - i := Nat.le_of_dvd (by omega) hdvd
  omega

theorem ringSlots_recent {n : Nat} (value : Nat → α) {i m : Nat} (hlt : i < m)
    (hrecent : m ≤ i + n) : ringSlots n value m (i % n) = some (value i) := by
  induction m with
  | zero => exact absurd hlt (Nat.not_lt_zero i)
  | succ m ih =>
    simp only [ringSlots]
    rcases Nat.lt_succ_iff_lt_or_eq.mp hlt with h | h
    · rw [Function.update_of_ne (mod_ne_of_near h (by omega)).symm]
      exact ih h (by omega)
    · subst h
      exact Function.update_self ..

theorem ringSlots_isSome {n : Nat} (value : Nat → α) {j m : Nat} (hj : j < n) (hpassed : j < m) :
    (ringSlots n value m j).isSome = true := by
  induction m with
  | zero => exact absurd hpassed (Nat.not_lt_zero j)
  | succ m ih =>
    simp only [ringSlots]
    by_cases h : j = m % n
    · subst h
      simp
    · rw [Function.update_of_ne h]
      rcases Nat.lt_succ_iff_lt_or_eq.mp hpassed with hlt | heq
      · exact ih hlt
      · subst heq
        exact absurd (Nat.mod_eq_of_lt hj).symm h

end Framework
