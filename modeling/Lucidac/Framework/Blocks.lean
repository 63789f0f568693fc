import Mathlib.Algebra.Group.Nat.Defs
import Mathlib.Data.Nat.Basic

/-!
# Messages in blocks

A machine that compresses a message block by block, with a last piece that is treated on its own.
It can be fed in pieces of whole blocks.
-/

namespace Framework

structure BlockMachine (n : Nat) (α σ δ : Type) where
  start : σ
  compress : σ → List α → σ
  finish : σ → List α → δ

namespace BlockMachine

variable {n : Nat} {α σ δ : Type} (M : BlockMachine n α σ δ)

def absorbBlocks : Nat → List α → σ → σ
  | 0, _, s => s
  | k + 1, data, s => absorbBlocks k (data.drop n) (M.compress s (data.take n))

def absorb (data : List α) (s : σ) : σ := M.absorbBlocks (data.length / n) data s

def digestFrom (s : σ) (data : List α) : δ :=
  M.finish (M.absorb data s) (data.drop (data.length / n * n))

def digest (data : List α) : δ := M.digestFrom M.start data

theorem absorb_nil (s : σ) : M.absorb [] s = s := by
  rw [absorb, List.length_nil, Nat.zero_div, absorbBlocks]

theorem absorbBlocks_append {k : Nat} {data : List α} (h : data.length = k * n) (m : Nat)
    (rest : List α) (s : σ) :
    M.absorbBlocks (k + m) (data ++ rest) s = M.absorbBlocks m rest (M.absorbBlocks k data s) := by
  induction k generalizing data s with
  | zero =>
    rw [Nat.zero_mul] at h
    rw [List.eq_nil_of_length_eq_zero h, Nat.zero_add, List.nil_append, absorbBlocks]
  | succ k ih =>
    rw [Nat.succ_mul] at h
    have hfirst : n ≤ data.length := by omega
    have hrest : (data.drop n).length = k * n := by
      rw [List.length_drop]
      omega
    rw [Nat.succ_add, absorbBlocks, absorbBlocks, List.take_append_of_le_length hfirst,
      List.drop_append_of_le_length hfirst]
    exact ih hrest _

variable (hn : 0 < n) {data : List α} (h : n ∣ data.length)
include hn h

theorem absorb_append (rest : List α) (s : σ) :
    M.absorb (data ++ rest) s = M.absorb rest (M.absorb data s) := by
  obtain ⟨k, hk⟩ := h
  have hlength : data.length = k * n := by rw [hk, Nat.mul_comm]
  rw [absorb, List.length_append, hlength, Nat.add_comm, Nat.add_mul_div_right _ _ hn,
    Nat.add_comm, absorbBlocks_append M hlength, absorb, absorb, hlength,
    Nat.mul_div_cancel k hn]

/-- Whole blocks may come first. -/
theorem digestFrom_append (rest : List α) (s : σ) :
    M.digestFrom s (data ++ rest) = M.digestFrom (M.absorb data s) rest := by
  rw [digestFrom, digestFrom, absorb_append M hn h]
  obtain ⟨k, hk⟩ := h
  have hlength : data.length = k * n := by rw [hk, Nat.mul_comm]
  have hdrop : (data ++ rest).length / n * n = data.length + rest.length / n * n := by
    rw [List.length_append, hlength, Nat.add_comm, Nat.add_mul_div_right _ _ hn, Nat.add_mul,
      Nat.add_comm]
  rw [hdrop, List.drop_length_add_append]

end BlockMachine

end Framework
