import Lucidac.Entity.ResetAction
import Lucidac.Framework.Program
import Lucidac.Utils.Json

/-!
# The M blocks

A cluster takes two math blocks, each with eight integrators or four multipliers.  Integrators
have initial values and time factors.  Multipliers have offsets, which are configured, read from
the EEPROM of the block or measured, and which are written to the hardware at once.
-/

namespace Lucidac

open Framework

structure MIntBlock where
  icValues : Fin 8 → ℚ
  timeFactors : Fin 8 → Nat

namespace MIntBlock

def numIntegrators : Nat := 8

def defaultTimeFactor : Nat := 10000

def initial : MIntBlock := ⟨fun _ => 0, fun _ => defaultTimeFactor⟩

def setIcValue (s : MIntBlock) (idx : Nat) (value : ℚ) : Bool × MIntBlock :=
  if h : idx < 8 then
    if 1 < value ∨ value < -1 then (false, s)
    else (true, { s with icValues := Function.update s.icValues ⟨idx, h⟩ value })
  else (false, s)

def setTimeFactor (s : MIntBlock) (intIdx k : Nat) : Bool × MIntBlock :=
  if ¬ (k = 100 ∨ k = 10000) then (false, s)
  else if h : intIdx < 8 then
    (true, { s with timeFactors := Function.update s.timeFactors ⟨intIdx, h⟩ k })
  else (false, s)

def resetIcValues (s : MIntBlock) : MIntBlock := { s with icValues := fun _ => 0 }

def resetTimeFactors (s : MIntBlock) : MIntBlock :=
  { s with timeFactors := fun _ => defaultTimeFactor }

def reset (s : MIntBlock) (action : ResetAction) : MIntBlock :=
  if action.has ResetAction.circuitReset then s.resetIcValues.resetTimeFactors else s

/-- Array form of `_config_elements_from_json`.  As in the I block, the messages that pass a JSON
value to the formatter keep their placeholders. -/
def configElementArray (elements : List Json) : EStateM ConfigError MIntBlock PUnit := do
  require (elements.length == numIntegrators) (.status (.ofString
    s!"MIntBlock: Provided {elements.length} elments but NUM_INTEGRATORS={numIntegrators}."))
  forM elements.zipIdx fun (element, i) => do
    require (element.containsKey "ic" && (element.member "ic").isFloat) (.status (.ofString
      s!"MIntBlock, element {i}: Requiring IC as float"))
    attempt (fun s => s.setIcValue i ((element.member "ic").asFloat fun _ => 0)) (.status (.ofString
      (s!"MIntBlock, element {i}: Illegal IC " ++ "%f")))
    if element.containsKey "k" then
      require (element.member "k").isUInt32 (.status (.ofString
        s!"MIntBlock, element {i}: Requiring time factor 'k' as int"))
      attempt (fun s => s.setTimeFactor i (element.member "k").asUInt32) (.status (.ofString
        (s!"MIntBlock, element {i}: Illegal time factor " ++ "%d")))

/-- Object form of `_config_elements_from_json`: the keys name the integrators. -/
def configElementObject (elements : List (String × Json)) : EStateM ConfigError MIntBlock PUnit :=
  forM elements fun (key, value) => do
    require value.isObject (.status (.ofCString "MIntBlock configuration value needs to be an object"))
    let intIdx ← readIndex key
    require (decide (intIdx < numIntegrators)) (.status (.ofString
      s!"MIntBlock: Integrator index {intIdx} >= NUM_INTEGRATORS = {numIntegrators}"))
    if value.containsKey "ic" then
      require (value.member "ic").isFloat (.status (.ofString
        s!"MIntBlock: Integrator {intIdx} IC must be float"))
      attempt (fun s => s.setIcValue intIdx ((value.member "ic").asFloat fun _ => 0)) (.status
        (.ofString (s!"MIntBlock: Integrator {intIdx} IC is illegal: " ++ "%f")))
    if value.containsKey "k" then
      require (value.member "k").isUInt32 (.status (.ofString
        s!"MIntBlock: Integrator {intIdx} k must be integer"))
      attempt (fun s => s.setTimeFactor intIdx (value.member "k").asUInt32) (.status
        (.ofString (s!"MIntBlock: Integrator {intIdx} time factor k illegal: " ++ "%d")))

def configElementsFromJson : Json → EStateM ConfigError MIntBlock PUnit
  | .array elements => configElementArray elements
  | .object elements => configElementObject elements
  | _ => throw (.status (.ofCString "MIntBlock: Configuration must either be array or object"))

def configSelfFromJson (cfg : List (String × Json)) : EStateM ConfigError MIntBlock PUnit :=
  forM cfg fun (key, value) =>
    if key = "elements" then configElementsFromJson value
    else throw (.status (.ofCString "Unknown configuration key."))

def elementToJson (s : MIntBlock) (i : Fin 8) : Json :=
  .object [("ic", .float (s.icValues i)), ("k", .integer (s.timeFactors i))]

def configSelfToJson (s : MIntBlock) : List (String × Json) :=
  [("elements", .array (List.ofFn s.elementToJson))]

end MIntBlock

structure MultiplierCalibration where
  offsetX : ℚ
  offsetY : ℚ
  offsetZ : ℚ

structure MMulBlock where
  calibration : Fin 4 → MultiplierCalibration

/-- How reading the calibration from the EEPROM can end. -/
inductive EepromRead where
  | incomplete
  | checksumMismatch
  | success (calibration : Fin 4 → MultiplierCalibration)

/-- What the hardware of a multiplier block answers, counted by the questions. -/
structure MMulHardware where
  accepts : Nat → Bool
  eeprom : Nat → EepromRead

/-- A block and the number of answers the hardware has given. -/
structure Driven (β : Type) where
  block : β
  asked : Nat

/-- A program on the block alone. -/
def onBlock {β : Type} (x : EStateM ConfigError β PUnit) : EStateM ConfigError (Driven β) PUnit :=
  zoom Driven.block (fun block d => { d with block := block }) x

namespace MMulBlock

def numMultipliers : Nat := 4

def initial : MMulBlock := ⟨fun _ => ⟨0, 0, 0⟩⟩

def reset (s : MMulBlock) (action : ResetAction) : MMulBlock :=
  if action.has ResetAction.calibrationReset then ⟨fun _ => ⟨0, 0, 0⟩⟩ else s

def writeOffset (hardware : MMulHardware) (refused : Status) :
    EStateM ConfigError (Driven MMulBlock) PUnit :=
  attempt (fun s => (hardware.accepts s.asked, { s with asked := s.asked + 1 })) (.status refused)

def writeCalibrationToHardware (hardware : MMulHardware) : EStateM ConfigError (Driven MMulBlock) PUnit :=
  forM (List.range numMultipliers) fun i => do
    writeOffset hardware ⟨775,
      s!"MMulBlock::calibration from json for multiplier {i} values offset_x, offset_y not accepted"⟩
    writeOffset hardware ⟨776,
      s!"MMulBlock::calibration from json for multiplier {i} values offset_z not accepted"⟩

def readCalibrationFromEeprom (hardware : MMulHardware) : EStateM ConfigError (Driven MMulBlock) PUnit := do
  let s ← get
  modify fun s => { s with asked := s.asked + 1 }
  match hardware.eeprom s.asked with
  | .incomplete => throw (.status ⟨1, "MMulBlock::read_calibration_from_eeprom: Did not read all data"⟩)
  | .checksumMismatch => throw (.status ⟨2, "MMulBlock::read_calibration_from_eeprom: Checksum mismatch"⟩)
  | .success calibration => modify fun s => { s with block := ⟨calibration⟩ }

/-- `res.attach(description)` on the way out of a failed call. -/
def attaching {σ : Type} (description : String) (x : EStateM ConfigError σ PUnit) :
    EStateM ConfigError σ PUnit := fun s =>
  match x s with
  | .error (.status failed) t => .error (.status (failed.attachMsg description)) t
  | result => result

def offsetsGiven (cfg : Json) (key : String) : Bool :=
  cfg.containsKey key && (cfg.member key).size == numMultipliers

def offset (parseNumber : String → ℚ) (cfg : Json) (key : String) (i : Nat) : ℚ :=
  ((cfg.member key).element i).asFloat parseNumber

/-- `_config_elements_from_json`, built without the flag that allows EEPROM writes. -/
def configElementsFromJson (parseNumber : String → ℚ) (hardware : MMulHardware) (cfg : Json) :
    EStateM ConfigError (Driven MMulBlock) PUnit := do
  require (offsetsGiven cfg "offset_x") (.status ⟨772, "Missing offset_x (need 4 entries)"⟩)
  require (offsetsGiven cfg "offset_y") (.status ⟨773, "Missing offset_y (need 4 entries)"⟩)
  require (offsetsGiven cfg "offset_z") (.status ⟨774, "Missing offset_z (need 4 entries)"⟩)
  modify fun s => { s with block := ⟨fun i =>
    ⟨offset parseNumber cfg "offset_x" i, offset parseNumber cfg "offset_y" i,
      offset parseNumber cfg "offset_z" i⟩⟩ }
  attaching "via MMUlBlock::config_elements_from_json" (writeCalibrationToHardware hardware)
  require (!cfg.containsKey "write_eeprom") (.status ⟨775,
    "MMulBlock::config_elements MUST NOT write to eeprom given the missing ANABRID_WRITE_EEPROM build flag"⟩)

def configSelfFromJson (parseNumber : String → ℚ) (hardware : MMulHardware)
    (cfg : List (String × Json)) : EStateM ConfigError (Driven MMulBlock) PUnit :=
  forM cfg fun (key, value) =>
    if key = "calibration" then configElementsFromJson parseNumber hardware value
    else if key = "read_calibration_from_eeprom" then do
      readCalibrationFromEeprom hardware
      writeCalibrationToHardware hardware
    else throw (.status ⟨771, "MMulBlock: Unknown configuration key"⟩)

def configSelfToJson (s : MMulBlock) : List (String × Json) :=
  [("calibration", .object
    [("offset_x", .array (List.ofFn fun i => .float (s.calibration i).offsetX)),
      ("offset_y", .array (List.ofFn fun i => .float (s.calibration i).offsetY)),
      ("offset_z", .array (List.ofFn fun i => .float (s.calibration i).offsetZ))])]

end MMulBlock

/-- The math block in one of the two slots. -/
inductive MBlock where
  | integrators (block : MIntBlock)
  | multipliers (block : MMulBlock)

namespace MBlock

def isMultipliers : MBlock → Bool
  | .integrators _ => false
  | .multipliers _ => true

def integrators? : MBlock → Option MIntBlock
  | .integrators block => some block
  | .multipliers _ => none

def multipliers? : MBlock → Option MMulBlock
  | .integrators _ => none
  | .multipliers block => some block

def configSelfFromJson (parseNumber : String → ℚ) (hardware : MMulHardware)
    (cfg : List (String × Json)) : EStateM ConfigError (Driven MBlock) PUnit := fun d =>
  match d.block with
  | .integrators block =>
    zoom (fun _ => block) (fun b d => { d with block := .integrators b })
      (MIntBlock.configSelfFromJson cfg) d
  | .multipliers block =>
    zoom (fun d => ⟨block, d.asked⟩) (fun b _ => ⟨.multipliers b.block, b.asked⟩)
      (MMulBlock.configSelfFromJson parseNumber hardware cfg) d

def configSelfToJson : MBlock → List (String × Json)
  | .integrators block => block.configSelfToJson
  | .multipliers block => block.configSelfToJson

def reset (s : MBlock) (action : ResetAction) : MBlock :=
  match s with
  | .integrators block => .integrators (block.reset action)
  | .multipliers block => .multipliers (block.reset action)

end MBlock

end Lucidac
