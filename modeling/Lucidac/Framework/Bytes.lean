import Mathlib.Algebra.Group.Nat.Defs
import Mathlib.Data.BitVec

/-!
# The bytes of a word

Words as they lie in the memory of a little endian machine, the least significant byte first.
-/

namespace Framework

/-- The first bytes of a word. -/
def wordBytes {w : Nat} : Nat → BitVec w → List (BitVec 8)
  | 0, _ => []
  | n + 1, x => x.setWidth 8 :: wordBytes n (x >>> 8)

/-- The number that bytes stand for. -/
def ofWordBytes : List (BitVec 8) → Nat
  | [] => 0
  | byte :: bytes => byte.toNat + 256 * ofWordBytes bytes

@[simp] theorem length_wordBytes {w : Nat} (n : Nat) (x : BitVec w) :
    (wordBytes n x).length = n := by
  induction n generalizing x with
  | zero => rfl
  | succ n ih => rw [wordBytes, List.length_cons, ih]

theorem wordBytes_append {w : Nat} (m n : Nat) (x : BitVec w) :
    wordBytes (m + n) x = wordBytes m x ++ wordBytes n (x >>> (8 * m)) := by
  induction m generalizing x with
  | zero => rw [Nat.zero_add, Nat.mul_zero, BitVec.ushiftRight_zero, wordBytes, List.nil_append]
  | succ m ih =>
    rw [Nat.succ_add, wordBytes, wordBytes, ih, List.cons_append, ← BitVec.shiftRight_add,
      Nat.mul_succ, Nat.add_comm 8]

theorem wordBytes_congr {v w : Nat} {n : Nat} {x : BitVec v} {y : BitVec w}
    (h : ∀ i < 8 * n, x.getLsbD i = y.getLsbD i) : wordBytes n x = wordBytes n y := by
  induction n generalizing x y with
  | zero => rfl
  | succ n ih =>
    rw [wordBytes, wordBytes, ih]
    · congr 1
      apply BitVec.eq_of_getLsbD_eq
      intro i hi
      rw [BitVec.getLsbD_setWidth, BitVec.getLsbD_setWidth, h i (by omega)]
    · intro i hi
      rw [BitVec.getLsbD_ushiftRight, BitVec.getLsbD_ushiftRight]
      exact h (8 + i) (by omega)

theorem ofWordBytes_wordBytes {w : Nat} (n : Nat) (x : BitVec w) :
    ofWordBytes (wordBytes n x) = x.toNat % 256 ^ n := by
  induction n generalizing x with
  | zero => rw [wordBytes, ofWordBytes, Nat.pow_zero, Nat.mod_one]
  | succ n ih =>
    have hsplit : x.toNat % 256 ^ (n + 1) =
        x.toNat % 2 ^ 8 + 256 * (x.toNat / 2 ^ 8 % 256 ^ n) := by
      rw [Nat.pow_succ']
      exact Nat.mod_mul
    rw [wordBytes, ofWordBytes, ih, BitVec.toNat_ushiftRight, Nat.shiftRight_eq_div_pow,
      BitVec.toNat_setWidth, hsplit]

theorem ofWordBytes_lt (bytes : List (BitVec 8)) : ofWordBytes bytes < 256 ^ bytes.length := by
  induction bytes with
  | nil => exact Nat.one_pos
  | cons byte bytes ih =>
    have hbyte := byte.isLt
    rw [ofWordBytes, List.length_cons, Nat.pow_succ']
    omega

theorem wordBytes_ofWordBytes {w : Nat} (bytes : List (BitVec 8)) (hw : 8 * bytes.length ≤ w) :
    wordBytes bytes.length (BitVec.ofNat w (ofWordBytes bytes)) = bytes := by
  induction bytes with
  | nil => rfl
  | cons byte bytes ih =>
    have hbyte := byte.isLt
    have hlt := ofWordBytes_lt (byte :: bytes)
    rw [List.length_cons] at hw
    have hwidth : 256 ^ (bytes.length + 1) ≤ 2 ^ w := by
      rw [show (256 : Nat) = 2 ^ 8 from rfl, ← Nat.pow_mul]
      exact Nat.pow_le_pow_right (by decide) hw
    have hfits : ofWordBytes (byte :: bytes) % 2 ^ w = ofWordBytes (byte :: bytes) :=
      Nat.mod_eq_of_lt (Nat.lt_of_lt_of_le hlt hwidth)
    have hhead : (BitVec.ofNat w (ofWordBytes (byte :: bytes))).setWidth 8 = byte := by
      apply BitVec.eq_of_toNat_eq
      rw [BitVec.toNat_setWidth, BitVec.toNat_ofNat, hfits, ofWordBytes]
      omega
    have htail : BitVec.ofNat w (ofWordBytes (byte :: bytes)) >>> 8 =
        BitVec.ofNat w (ofWordBytes bytes) := by
      apply BitVec.eq_of_toNat_eq
      rw [BitVec.toNat_ushiftRight, Nat.shiftRight_eq_div_pow, BitVec.toNat_ofNat, hfits,
        BitVec.toNat_ofNat, ofWordBytes]
      rw [Nat.mod_eq_of_lt]
      · omega
      · rw [ofWordBytes] at hfits
        have := Nat.mod_lt (byte.toNat + 256 * ofWordBytes bytes) (Nat.two_pow_pos w)
        omega
    rw [List.length_cons, wordBytes, hhead, htail, ih (by omega)]

theorem ofNat_ofWordBytes_wordBytes {w n : Nat} (hw : w ≤ 8 * n) (x : BitVec w) :
    BitVec.ofNat w (ofWordBytes (wordBytes n x)) = x := by
  have hwidth : 2 ^ w ≤ 256 ^ n := by
    rw [show (256 : Nat) = 2 ^ 8 from rfl, ← Nat.pow_mul]
    exact Nat.pow_le_pow_right (by decide) hw
  rw [ofWordBytes_wordBytes, Nat.mod_eq_of_lt (Nat.lt_of_lt_of_le x.isLt hwidth),
    BitVec.ofNat_toNat, BitVec.setWidth_eq]

theorem eq_of_wordBytes_eq {w n : Nat} (hw : w ≤ 8 * n) {x y : BitVec w}
    (h : wordBytes n x = wordBytes n y) : x = y := by
  rw [← ofNat_ofWordBytes_wordBytes hw x, ← ofNat_ofWordBytes_wordBytes hw y, h]

end Framework
