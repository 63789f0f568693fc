import Mathlib.Data.BitVec

/-!
# Bit streams

The bits of words and of bytes in the order in which they are sent, the most significant first.
-/

namespace Framework

def bits {w : Nat} (x : BitVec w) : List Bool := (List.range w).map x.getMsbD

@[simp] theorem length_bits {w : Nat} (x : BitVec w) : (bits x).length = w := by
  rw [bits, List.length_map, List.length_range]

theorem bits_zero (w : Nat) : bits (0 : BitVec w) = List.replicate w false := by
  rw [List.eq_replicate_iff]
  refine ⟨length_bits _, ?_⟩
  intro b hb
  obtain ⟨i, -, rfl⟩ := List.mem_map.mp hb
  exact BitVec.getMsbD_zero

theorem bits_or {w : Nat} (x y : BitVec w) :
    bits (x ||| y) = List.zipWith (· || ·) (bits x) (bits y) := by
  apply List.ext_getElem
  · simp
  · intro i hi _
    rw [length_bits] at hi
    simp [bits]

/-- Where one operand has no bits the other one stays. -/
theorem zipWith_or_replicate_false (l : List Bool) :
    List.zipWith (· || ·) l (List.replicate l.length false) = l := by
  induction l with
  | nil => rfl
  | cons b l ih =>
    rw [List.length_cons, List.replicate_succ, List.zipWith_cons_cons, ih, Bool.or_false]

theorem zipWith_replicate_false_or (l : List Bool) :
    List.zipWith (· || ·) (List.replicate l.length false) l = l := by
  induction l with
  | nil => rfl
  | cons b l ih =>
    rw [List.length_cons, List.replicate_succ, List.zipWith_cons_cons, ih, Bool.false_or]

def bitStream (bytes : List (BitVec 8)) : List Bool := bytes.flatMap bits

@[simp] theorem bitStream_nil : bitStream [] = [] := rfl

@[simp] theorem bitStream_cons (byte : BitVec 8) (bytes : List (BitVec 8)) :
    bitStream (byte :: bytes) = bits byte ++ bitStream bytes := rfl

theorem bitStream_append (bytes rest : List (BitVec 8)) :
    bitStream (bytes ++ rest) = bitStream bytes ++ bitStream rest :=
  List.flatMap_append

@[simp] theorem length_bitStream (bytes : List (BitVec 8)) :
    (bitStream bytes).length = 8 * bytes.length := by
  induction bytes with
  | nil => rfl
  | cons byte bytes ih =>
    rw [bitStream_cons, List.length_append, length_bits, ih, List.length_cons]
    omega

theorem bitStream_replicate_zero (count : Nat) :
    bitStream (List.replicate count 0) = List.replicate (8 * count) false := by
  induction count with
  | zero => rfl
  | succ count ih =>
    rw [List.replicate_succ, bitStream_cons, ih, bits_zero, List.replicate_append_replicate]
    congr 1
    omega

section Fields

variable {w b n : Nat}

/-- The bits of a value that was shifted into field `k` of a word with fields of `b` bits. -/
theorem getLsbD_field {i j : Nat} (k : Nat) (hn : n < 2 ^ b) (hj : j < b) (hw : b * i + j < w) :
    (BitVec.ofNat w n <<< (b * k)).getLsbD (b * i + j) = (decide (k = i) && n.testBit j) := by
  rw [BitVec.getLsbD_shiftLeft, BitVec.getLsbD_ofNat]
  obtain hlt | heq | hgt := Nat.lt_trichotomy k i
  · have hfield : b * k + b ≤ b * i := by
      rw [← Nat.mul_succ]
      exact Nat.mul_le_mul_left b hlt
    have hpow : 2 ^ b ≤ 2 ^ (b * i + j - b * k) := Nat.pow_le_pow_right (by decide) (by omega)
    have hzero : n.testBit (b * i + j - b * k) = false :=
      Nat.testBit_lt_two_pow (Nat.lt_of_lt_of_le hn hpow)
    rw [hzero, decide_eq_false (show ¬ k = i by omega)]
    simp
  · have hbit : b * i + j - b * k = j := by
      rw [heq]
      omega
    have hin : ¬ b * i + j < b * k := by
      rw [heq]
      omega
    have hjw : j < w := by omega
    rw [hbit, decide_eq_true heq, decide_eq_true hw, decide_eq_true hjw, decide_eq_false hin]
    rfl
  · have hfield : b * i + b ≤ b * k := by
      rw [← Nat.mul_succ]
      exact Nat.mul_le_mul_left b hgt
    rw [decide_eq_true (show b * i + j < b * k by omega), decide_eq_false (show ¬ k = i by omega)]
    simp

theorem getLsbD_field_above {m : Nat} (k : Nat) (hn : n < 2 ^ b) (hm : b * k + b ≤ m) :
    (BitVec.ofNat w n <<< (b * k)).getLsbD m = false := by
  have hpow : 2 ^ b ≤ 2 ^ (m - b * k) := Nat.pow_le_pow_right (by decide) (by omega)
  have hzero : n.testBit (m - b * k) = false :=
    Nat.testBit_lt_two_pow (Nat.lt_of_lt_of_le hn hpow)
  rw [BitVec.getLsbD_shiftLeft, BitVec.getLsbD_ofNat, hzero, Bool.and_false, Bool.and_false]

end Fields

section Groups

variable {α : Type} {group : α → List Bool} {m : Nat}

theorem length_flatMap_groups (hlength : ∀ a, (group a).length = m) (l : List α) :
    (l.flatMap group).length = m * l.length := by
  induction l with
  | nil => rfl
  | cons a l ih =>
    rw [List.flatMap_cons, List.length_append, hlength, ih, List.length_cons, Nat.mul_succ,
      Nat.add_comm]

/-- In a stream of groups of one length the group at a place is cut out by its length. -/
theorem take_drop_flatMap_groups (hlength : ∀ a, (group a).length = m) {l : List α} {k : Nat}
    (hk : k < l.length) : ((l.flatMap group).drop (m * k)).take m = group l[k] := by
  induction l generalizing k with
  | nil => exact absurd hk (Nat.not_lt_zero k)
  | cons a l ih =>
    cases k with
    | zero =>
      rw [Nat.mul_zero, List.drop_zero, List.flatMap_cons, ← hlength a, List.take_left]
      rfl
    | succ k =>
      rw [List.flatMap_cons, Nat.mul_succ, Nat.add_comm, ← List.drop_drop]
      nth_rewrite 3 [← hlength a]
      rw [List.drop_left, ih (Nat.lt_of_succ_lt_succ hk)]
      rfl

end Groups

end Framework
