import Lucidac.Framework.Checked
import Mathlib.Data.BitVec

/-!
# Single acquisitions

`daq::OneshotDAQ` clocks the converters by hand: one conversion is shifted out of all eight at once,
the most significant of fourteen bits first.
-/

namespace Lucidac.Daq

open Framework (Block)

/-- What the converters hold after they were triggered, by channel. -/
abbrev Conversion := Nat → BitVec 14

/-- What one clock adds to a channel's number: the bit on its line, at its place. -/
def clockBit (conversion : Conversion) (clk pin : Nat) : BitVec 16 :=
  if (conversion pin).getMsbD clk then 1#16 <<< (13 - clk) else 0

/-- One clock of `sample_raw`, which moves a bit of every channel. -/
def clockIn (conversion : Conversion) (data : Nat) (memory : Block (BitVec 16)) (clk : Nat) :
    Option (Block (BitVec 16)) :=
  (List.range 8).foldlM (fun memory pin =>
    memory.modify (data + pin) (· ||| clockBit conversion clk pin)) memory

/-- `OneshotDAQ::sample_raw` into the memory from `data` on. -/
def sampleRaw (conversion : Conversion) (data : Nat) (memory : Block (BitVec 16)) :
    Option (Block (BitVec 16)) := do
  let memory ← (List.range 8).foldlM (fun memory i => memory.store (data + i) 0) memory
  (List.range 14).foldlM (clockIn conversion data) memory

section Bits

/-- The number of a channel after some clocks. -/
def received (conversion : Conversion) (pin : Nat) : Nat → BitVec 16
  | 0 => 0
  | clk + 1 => received conversion pin clk ||| clockBit conversion clk pin

variable {conversion : Conversion} {pin : Nat}

theorem getLsbD_clockBit {clk : Nat} (hclk : clk < 14) {i : Nat} (_ : i < 16) :
    (clockBit conversion clk pin).getLsbD i =
      (decide (i = 13 - clk) && (conversion pin).getLsbD i) := by
  have hline : (conversion pin).getMsbD clk = (conversion pin).getLsbD (13 - clk) := by
    simp [BitVec.getMsbD, hclk]
  have hplace : (1#16 <<< (13 - clk)).getLsbD i = decide (i = 13 - clk) := by
    rw [BitVec.getLsbD_shiftLeft, BitVec.getLsbD_one, Bool.eq_iff_iff]
    simp only [Bool.and_eq_true, Bool.not_eq_true', decide_eq_true_eq, decide_eq_false_iff_not]
    omega
  rw [clockBit, hline]
  cases hbit : (conversion pin).getLsbD (13 - clk) with
  | false =>
    by_cases hat : i = 13 - clk
    · simp [hat, hbit]
    · simp [hat]
  | true =>
    rw [if_pos rfl, hplace]
    by_cases hat : i = 13 - clk
    · simp [hat, hbit]
    · simp [hat]

theorem getLsbD_received {clocks : Nat} (hclocks : clocks ≤ 14) {i : Nat} (hi : i < 16) :
    (received conversion pin clocks).getLsbD i =
      (decide (14 - clocks ≤ i) && (conversion pin).getLsbD i) := by
  induction clocks with
  | zero =>
    rw [received]
    by_cases hlt : 14 ≤ i
    · simp [BitVec.getLsbD_of_ge _ _ hlt]
    · simp [hlt]
  | succ clocks ih =>
    rw [received, BitVec.getLsbD_or, ih (by omega), getLsbD_clockBit (by omega) hi,
      ← Bool.and_or_distrib_right, ← Bool.decide_or]
    congr 2
    rw [eq_iff_iff]
    omega

theorem received_all : received conversion pin 14 = (conversion pin).setWidth 16 := by
  apply BitVec.eq_of_getLsbD_eq
  intro i hi
  rw [getLsbD_received (Nat.le_refl 14) hi, BitVec.getLsbD_setWidth]
  simp [hi]

end Bits

section Loops

variable (conversion : Conversion) {data : Nat} {memory : Block (BitVec 16)}
  (h : data + 8 ≤ memory.size)
include h

theorem clockIn_overwrite (clk : Nat) (a : Nat → BitVec 16) :
    clockIn conversion data (memory.overwrite data 8 a) clk =
      some (memory.overwrite data 8 fun pin => a pin ||| clockBit conversion clk pin) := by
  rw [clockIn, Block.foldlM_modify _ h (Nat.le_refl 8)]
  refine congrArg some (Block.overwrite_congr ?_)
  intro pin hpin
  exact if_pos hpin

theorem foldlM_clockIn (clocks : Nat) :
    (List.range clocks).foldlM (clockIn conversion data) (memory.overwrite data 8 fun _ => 0) =
      some (memory.overwrite data 8 fun pin => received conversion pin clocks) := by
  induction clocks with
  | zero => rfl
  | succ clocks ih =>
    rw [List.range_succ, List.foldlM_append, ih, Option.bind_eq_bind, Option.bind_some,
      List.foldlM_cons, clockIn_overwrite conversion h]
    rfl

theorem sampleRaw_eq :
    sampleRaw conversion data memory =
      some (memory.overwrite data 8 fun pin => (conversion pin).setWidth 16) := by
  rw [sampleRaw, Block.foldlM_store h, Option.bind_eq_bind, Option.bind_some,
    foldlM_clockIn conversion h]
  simp only [received_all]

end Loops

end Lucidac.Daq
