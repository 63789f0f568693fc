import Mathlib.Algebra.Order.Floor.Ring
import Mathlib.Data.List.FinRange
import Mathlib.Data.Rat.Floor
import Mathlib.Tactic.Linarith
import Lucidac.Block.MBlock

/-!
# Measuring the offsets of the multipliers

The offset of the output is read once.  The offset of an input starts at its least value and grows
by a hundredth while the output is read as negative.  The DACs accept offsets up to a tenth.
-/

namespace Lucidac.MMulCalibration

open Framework

/-- The calibration of a multiplier in the memory, and the values its DAC channels accepted last. -/
structure Multiplier where
  stored : MultiplierCalibration
  accepted : MultiplierCalibration

abbrev Multipliers := Fin 4 → Multiplier

def maxOffset : ℚ := 1 / 10

def offsetStep : ℚ := 1 / 100

def writeCalibrationInputOffsets (offsetX offsetY : ℚ) (m : Multiplier) : Bool × Multiplier :=
  if maxOffset < |offsetX| ∨ maxOffset < |offsetY| then (false, m)
  else (true, { m with accepted := { m.accepted with offsetX := offsetX, offsetY := offsetY } })

def writeCalibrationOutputOffset (offsetZ : ℚ) (m : Multiplier) : Bool × Multiplier :=
  if maxOffset < |offsetZ| then (false, m)
  else (true, { m with accepted := { m.accepted with offsetZ := offsetZ } })

def writeStored (m : Multiplier) : Bool × Multiplier :=
  let inputs := writeCalibrationInputOffsets m.stored.offsetX m.stored.offsetY m
  if inputs.1 then writeCalibrationOutputOffset m.stored.offsetZ inputs.2 else inputs

/-- `write_calibration_to_hardware` for the multipliers of a list. -/
def writeAll : List (Fin 4) → Multipliers → Bool × Multipliers
  | [], ms => (true, ms)
  | idx :: rest, ms =>
    let written := writeStored (ms idx)
    let ms := Function.update ms idx written.2
    if written.1 then writeAll rest ms else (false, ms)

def writeCalibrationToHardware (ms : Multipliers) : Bool × Multipliers :=
  writeAll (List.finRange 4) ms

/-! ### The search of one offset -/

/-- The input whose offset is searched. -/
inductive Input where
  | x
  | y

namespace Input

def offset : Input → MultiplierCalibration → ℚ
  | x, calibration => calibration.offsetX
  | y, calibration => calibration.offsetY

def setOffset (value : ℚ) : Input → MultiplierCalibration → MultiplierCalibration
  | x, calibration => { calibration with offsetX := value }
  | y, calibration => { calibration with offsetY := value }

/-- The other offset while one is searched: zero for `y`, and what was found for `x`. -/
def write (value : ℚ) : Input → Multiplier → Bool × Multiplier
  | x, m => writeCalibrationInputOffsets value 0 m
  | y, m => writeCalibrationInputOffsets m.stored.offsetX value m

end Input

def stepsLeft (offset : ℚ) : Nat := (⌊(maxOffset - offset) * 100⌋ + 1).toNat

theorem stepsLeft_add {offset : ℚ} (h : |offset| ≤ maxOffset) :
    stepsLeft (offset + offsetStep) + 1 = stepsLeft offset := by
  have hnonneg : 0 ≤ ⌊(maxOffset - offset) * 100⌋ := by
    rw [Int.floor_nonneg]
    have hle := (abs_le.mp h).2
    linarith
  have hfloor : ⌊(maxOffset - (offset + offsetStep)) * 100⌋ = ⌊(maxOffset - offset) * 100⌋ - 1 := by
    rw [← Int.floor_sub_one]
    congr 1
    rw [offsetStep]
    ring
  rw [stepsLeft, stepsLeft, hfloor]
  omega

theorem write_accepted {input : Input} {value : ℚ} {m : Multiplier}
    (h : (input.write value m).1 = true) :
    |value| ≤ maxOffset ∧ (input.write value m).2.stored = m.stored ∧
      input.offset (input.write value m).2.accepted = value := by
  cases input <;>
  · simp only [Input.write, writeCalibrationInputOffsets] at h ⊢
    split at h
    · cases h
    · rename_i haccepted
      rw [if_neg haccepted]
      rw [not_or, not_lt, not_lt] at haccepted
      first
        | exact ⟨haccepted.1, rfl, rfl⟩
        | exact ⟨haccepted.2, rfl, rfl⟩

@[simp] theorem offset_setOffset (input : Input) (value : ℚ) (c : MultiplierCalibration) :
    input.offset (input.setOffset value c) = value := by
  cases input <;> rfl

/-- How a search ends: without success if an offset was refused. -/
structure Search where
  multiplier : Multiplier
  success : Bool
  taken : Nat

/-- `calibration[idx].offset = value`. -/
def Multiplier.store (input : Input) (value : ℚ) (m : Multiplier) : Multiplier :=
  { m with stored := input.setOffset value m.stored }

/-- The loop of a search, which has taken some of the readings. -/
def search (input : Input) (readings : Nat → ℚ) (taken : Nat) (m : Multiplier) : Search :=
  if readings taken < 0 then
    if haccepted : (input.write (input.offset m.stored) m).1 = true then
      search input readings (taken + 1) ((input.write (input.offset m.stored) m).2.store input
        (input.offset m.stored + offsetStep))
    else ⟨m, false, taken + 1⟩
  else ⟨m, true, taken + 1⟩
termination_by stepsLeft (input.offset m.stored)
decreasing_by
  have hless := stepsLeft_add (write_accepted haccepted).1
  simp only [Multiplier.store, offset_setOffset]
  omega

def searchFromMin (input : Input) (readings : Nat → ℚ) (m : Multiplier) : Search :=
  let started := input.write (-maxOffset) m
  let found := search input readings 0 (started.2.store input (-maxOffset))
  { found with success := started.1 && found.success }

/-! ### All multipliers -/

/-- One round of a loop over the multipliers, with whether everything went well. -/
def oneMultiplier (step : Fin 4 → Multiplier → Bool × Multiplier) (s : Bool × Multipliers)
    (idx : Fin 4) : Bool × Multipliers :=
  (s.1 && (step idx (s.2 idx)).1, Function.update s.2 idx (step idx (s.2 idx)).2)

def forMultipliers (step : Fin 4 → Multiplier → Bool × Multiplier) (s : Bool × Multipliers) :
    Bool × Multipliers :=
  (List.finRange 4).foldl (oneMultiplier step) s

/-- What happens around the searches: the operations that can fail, and the readings. -/
structure Surroundings where
  eeprom : EepromRead
  parentCalibrated : Bool
  grounded : Bool
  offsetZs : Fin 4 → ℚ
  connectedX : Bool
  readingsX : Fin 4 → Nat → ℚ
  connectedY : Bool
  readingsY : Fin 4 → Nat → ℚ

/-- The offset of the output is stored even if it is refused. -/
def calibrateOutput (reading : ℚ) (m : Multiplier) : Bool × Multiplier :=
  let written := writeCalibrationOutputOffset (-reading) m
  (written.1, { written.2 with stored := { written.2.stored with offsetZ := -reading } })

def calibrateInput (input : Input) (readings : Nat → ℚ) (m : Multiplier) : Bool × Multiplier :=
  let found := searchFromMin input readings m
  (found.success, found.multiplier)

/-- The result of `calibrate`, with whether it came to the end. -/
structure Calibrated where
  result : Bool
  searched : Bool
  multipliers : Multipliers

/-- `calibrate` from where the offsets are measured. -/
def calibrateOffsets (around : Surroundings) (ms : Multipliers) : Calibrated :=
  let outputs := forMultipliers (fun idx => calibrateOutput (around.offsetZs idx)) (true, ms)
  if !around.connectedX then ⟨false, false, outputs.2⟩
  else
    let xs := forMultipliers (fun idx => calibrateInput .x (around.readingsX idx)) outputs
    if !around.connectedY then ⟨false, false, xs.2⟩
    else
      let ys := forMultipliers (fun idx => calibrateInput .y (around.readingsY idx)) xs
      ⟨ys.1, true, ys.2⟩

/-- The calibration of the EEPROM is stored and written. -/
def loadCalibration (calibration : Fin 4 → MultiplierCalibration) (ms : Multipliers) :
    Bool × Multipliers :=
  writeCalibrationToHardware fun idx => { ms idx with stored := calibration idx }

/-- `reset` with `CALIBRATION_RESET`. -/
def reset (ms : Multipliers) : Multipliers := fun idx => { ms idx with stored := ⟨0, 0, 0⟩ }

def calibrate (around : Surroundings) (ms : Multipliers) : Calibrated :=
  match around.eeprom with
  | .success calibration =>
    let loaded := loadCalibration calibration ms
    if !loaded.1 || !around.parentCalibrated then ⟨false, false, loaded.2⟩
    else if !around.grounded then ⟨false, false, reset loaded.2⟩
    else calibrateOffsets around (reset loaded.2)
  | _ => ⟨false, false, ms⟩

end Lucidac.MMulCalibration
