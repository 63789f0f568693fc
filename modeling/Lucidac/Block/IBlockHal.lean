import Mathlib.Data.List.FinRange
import Mathlib.Tactic.FinCases
import Lucidac.Framework.Program
import Lucidac.Framework.Latch

/-!
# The switch matrix behind the I block

The matrix is built from four 16 by 8 crosspoint chips on one 32-bit shift register.  One byte of
the register goes to each chip whenever the matrix is synchronised.  `writeOutputs` resets the
matrix and closes two outputs at a time; a chip without a new switch receives the byte it was
sent before.
-/

namespace Lucidac.IBlockHal

open Framework

def numInputs : Nat := 32

def numOutputs : Nat := 16

def inputBitmask (inputIdx : Nat) : BitVec 32 := 1#32 <<< inputIdx

theorem and_inputBitmask (word : BitVec 32) {inputIdx : Nat} (h : inputIdx < 32) :
    ((word &&& inputBitmask inputIdx) != 0) = word.getLsbD inputIdx := by
  have hmask : inputBitmask inputIdx = BitVec.twoPow 32 inputIdx := rfl
  rw [hmask, BitVec.and_twoPow]
  cases word.getLsbD inputIdx
  · rfl
  · rw [if_pos rfl, bne_iff_ne, ne_eq, ← BitVec.toNat_inj, BitVec.toNat_twoPow_of_lt h]
    exact (Nat.two_pow_pos _).ne'

theorem getLsbD_inputBitmask (inputIdx i : Nat) (hi : i < 32) :
    (inputBitmask inputIdx).getLsbD i = decide (inputIdx = i) := by
  have hmask : inputBitmask inputIdx = BitVec.twoPow 32 inputIdx := rfl
  rw [hmask, BitVec.getLsbD_twoPow, ← Bool.decide_and, decide_eq_decide]
  omega

/-- The command byte of one chip: data bit, three output bits, four input bits. -/
def chipCmdWord (chipInputIdx chipOutputIdx : BitVec 8) (connect : Bool) : BitVec 8 :=
  (if connect then 0b10000000#8 else 0b00000000#8) ||| ((chipOutputIdx &&& 0x7#8) <<< 4) |||
    (chipInputIdx &&& 0xF#8)

/-- What is put on the bus for the matrix. -/
inductive BusEvent where
  | matrixReset
  | transfer32 (word : BitVec 32)
  | matrixSync
  deriving DecidableEq, Repr

def trigger (event : BusEvent) : EStateM Unit (List BusEvent) PUnit :=
  modify (· ++ [event])

/-- A transfer is seen by the bus whether or not it is reported as successful. -/
def transfer32 (transferOk : List BusEvent → Bool) (word : BitVec 32) :
    EStateM Unit (List BusEvent) PUnit :=
  attempt (fun events => (transferOk events, events ++ [.transfer32 word])) ()

def wants (outputs : Fin 16 → BitVec 32) (inputIdx : Fin 32) (outputIdx : Fin 16) : Bool :=
  (outputs outputIdx &&& inputBitmask inputIdx) != 0

/-- The share of chip `chip` in a command word: its new switch, or the byte it got before. -/
def chipShare (outputs : Fin 16 → BitVec 32) (remembered : BitVec 32) (chip : Fin 4)
    (inputIdx : Fin 32) (outputIdx : Fin 16) : BitVec 32 :=
  if wants outputs inputIdx outputIdx then
    (chipCmdWord (.ofNat 8 inputIdx) (.ofNat 8 outputIdx) true).setWidth 32 <<< (8 * chip.val)
  else remembered &&& (0xFF#32 <<< (8 * chip.val))

def oidxOneTwo (outputIdx : Fin 8) : Fin 16 := ⟨outputIdx, by omega⟩

def oidxThreeFour (outputIdx : Fin 8) : Fin 16 := ⟨outputIdx + numOutputs / 2, by
  simp only [numOutputs]
  omega⟩

def iidxOneThree (inputIdx : Fin 16) : Fin 32 := ⟨inputIdx, by omega⟩

def iidxTwoFour (inputIdx : Fin 16) : Fin 32 := ⟨inputIdx + numInputs / 2, by
  simp only [numInputs]
  omega⟩

def command (outputs : Fin 16 → BitVec 32) (remembered : BitVec 32) (outputIdx : Fin 8)
    (inputIdx : Fin 16) : BitVec 32 :=
  0 ||| chipShare outputs remembered 0 (iidxOneThree inputIdx) (oidxOneTwo outputIdx) |||
    chipShare outputs remembered 1 (iidxTwoFour inputIdx) (oidxOneTwo outputIdx) |||
    chipShare outputs remembered 2 (iidxOneThree inputIdx) (oidxThreeFour outputIdx) |||
    chipShare outputs remembered 3 (iidxTwoFour inputIdx) (oidxThreeFour outputIdx)

def actualData (outputs : Fin 16 → BitVec 32) (outputIdx : Fin 8) (inputIdx : Fin 16) : Bool :=
  wants outputs (iidxOneThree inputIdx) (oidxOneTwo outputIdx) ||
    wants outputs (iidxTwoFour inputIdx) (oidxOneTwo outputIdx) ||
    wants outputs (iidxOneThree inputIdx) (oidxThreeFour outputIdx) ||
    wants outputs (iidxTwoFour inputIdx) (oidxThreeFour outputIdx)

/-- One step of the inner loop; the value is the remembered command. -/
def writeSwitches (transferOk : List BusEvent → Bool) (outputs : Fin 16 → BitVec 32)
    (outputIdx : Fin 8) (remembered : BitVec 32) (inputIdx : Fin 16) :
    EStateM Unit (List BusEvent) (BitVec 32) :=
  if actualData outputs outputIdx inputIdx then do
    transfer32 transferOk (command outputs remembered outputIdx inputIdx)
    trigger .matrixSync
    pure (command outputs remembered outputIdx inputIdx)
  else pure remembered

/-- One step of the outer loop: two outputs, or none when both are empty. -/
def writeOutputPair (transferOk : List BusEvent → Bool) (outputs : Fin 16 → BitVec 32)
    (remembered : BitVec 32) (outputIdx : Fin 8) : EStateM Unit (List BusEvent) (BitVec 32) :=
  if outputs (oidxOneTwo outputIdx) = 0 ∧ outputs (oidxThreeFour outputIdx) = 0 then
    pure remembered
  else (List.finRange 16).foldlM (writeSwitches transferOk outputs outputIdx) remembered

def writeOutputs (transferOk : List BusEvent → Bool) (outputs : Fin 16 → BitVec 32) :
    EStateM Unit (List BusEvent) PUnit := do
  trigger .matrixReset
  let _ ← (List.finRange 8).foldlM (writeOutputPair transferOk outputs) 0
  pure ⟨⟩

/-! ### The chips -/

/-- The shift register and the switches of the four chips, addressed by input and output. -/
structure CrosspointBank where
  register : BitVec 32
  chips : Fin 4 → Fin 16 × Fin 8 → Bool

/-- A chip reads its byte as data bit, three output bits and four input bits. -/
def decode (byte : BitVec 8) : LatchCommand (Fin 16 × Fin 8) :=
  ⟨(⟨byte.toNat % 16, Nat.mod_lt _ (by decide)⟩, ⟨byte.toNat / 16 % 8, Nat.mod_lt _ (by decide)⟩),
    byte.getLsbD 7⟩

def chipByte (word : BitVec 32) (chip : Fin 4) : BitVec 8 := word.extractLsb' (8 * chip) 8

namespace CrosspointBank

def step (bank : CrosspointBank) : BusEvent → CrosspointBank
  | .matrixReset => { bank with chips := fun _ _ => false }
  | .transfer32 word => { bank with register := word }
  | .matrixSync =>
    { bank with chips := fun chip => (decode (chipByte bank.register chip)).apply (bank.chips chip) }

def replay (bank : CrosspointBank) (events : List BusEvent) : CrosspointBank :=
  events.foldl step bank

/-- Chips 0 and 1 serve the outputs below 8, chips 0 and 2 the inputs below 16. -/
def closed (bank : CrosspointBank) (input : Fin 32) (output : Fin 16) : Bool :=
  bank.chips ⟨2 * (output.val / 8) + input.val / 16, by omega⟩
    (⟨input.val % 16, Nat.mod_lt _ (by decide)⟩, ⟨output.val % 8, Nat.mod_lt _ (by decide)⟩)

theorem replay_append (bank : CrosspointBank) (done next : List BusEvent) :
    bank.replay (done ++ next) = (bank.replay done).replay next :=
  List.foldl_append

end CrosspointBank

end Lucidac.IBlockHal
