import Lucidac.Platform.CalibrationFrame

/-!
# Requests to a LUCIDAC

A client sets, resets and reads the circuit, asks for overloads and starts runs.  Setting the
circuit takes six options, each with its own work before or after the configuration.  The work for
the multipliers uses the pointers of both math blocks, and a pointer of its own that only a
multiplier block gives a value.
-/

namespace Lucidac.Platform

open Framework

structure ExtendedOptions where
  resetBefore : Bool
  shKludge : Bool
  mulCalibKludge : Bool
  calibrateMblock : Bool
  calibrateOffset : Bool
  calibrateRoutes : Bool

/-- The options of a message with their defaults. -/
def ExtendedOptions.ofJson (msg : Json) : ExtendedOptions where
  resetBefore := (msg.member "reset_before").boolOr true
  shKludge := (msg.member "sh_kludge").boolOr true
  mulCalibKludge := (msg.member "mul_calib_kludge").boolOr true
  calibrateMblock := (msg.member "calibrate_mblock").boolOr false
  calibrateOffset := (msg.member "calibrate_offset").boolOr false
  calibrateRoutes := (msg.member "calibrate_routes").boolOr false

def resetLucidac (action : ResetAction) : EStateM Stop Machine PUnit :=
  modify fun m => { m with lucidac := m.lucidac.reset action }

/-- The outcome of this write is not looked at. -/
def resetBefore (hw : Hardware) : EStateM Stop Machine PUnit := do
  resetLucidac ⟨ResetAction.circuitReset ||| ResetAction.overloadReset ||| ResetAction.calibrationReset⟩
  let _ ← writeToHardware hw

def shKludge (hw : Hardware) : EStateM Stop Machine PUnit := do
  let m ← get
  forM (List.range m.lucidac.clusters.length) fun idx => do
    let m ← get
    if (m.lucidac.block idx .sh).isSome then do
      changeBlock idx .sh fun sh => SHBlock.setState sh .track
      let _ ← writeToHardware hw
      changeBlock idx .sh fun sh => SHBlock.setState sh .inject
      let _ ← writeToHardware hw

/-- The loop that looks for a multiplier block; the last one found stays. -/
def findMulblock (mulblock : Option (Nat × MSlot)) (idx : Nat) :
    EStateM Stop Machine (Option (Nat × MSlot)) := do
  let m0block ← deref idx .m0
  let mulblock := if MBlock.isMultipliers m0block then some (idx, .m0) else mulblock
  let m1block ← deref idx .m1
  pure (if MBlock.isMultipliers m1block then some (idx, .m1) else mulblock)

def mulCalibKludge (hw : Hardware) : EStateM Stop Machine PUnit := do
  let m ← get
  let mulblock ← (List.range m.lucidac.clusters.length).foldlM findMulblock none
  match mulblock with
  | none => throw (.fault .unassigned)
  | some (idx, slot) => do
    onMultipliers idx slot (MMulBlock.attaching "(mul_calib_kludge)"
      (MMulBlock.readCalibrationFromEeprom hw.toMMulHardware))
    onMultipliers idx slot (MMulBlock.attaching "(mul_calib_kludge)"
      (MMulBlock.writeCalibrationToHardware hw.toMMulHardware))

/-- Work that an option of the message switches on. -/
def onOption (option : Bool) (x : EStateM Stop Machine PUnit) : EStateM Stop Machine PUnit :=
  if option then x else pure ⟨⟩

/-- A calibration whose failure ends the request. -/
def calibrateOr (x : EStateM Stop Machine PUnit) (failed : String) : EStateM Stop Machine PUnit := do
  let ok ← returned x
  require ok (.status ⟨10, failed⟩)

def userSetExtendedConfig (lib : JsonLibrary) (hw : Hardware) (msg : Json) :
    EStateM Stop Machine PUnit := do
  let options := ExtendedOptions.ofJson msg
  onOption options.resetBefore (resetBefore hw)
  onOption options.shKludge (shKludge hw)
  onOption options.mulCalibKludge (mulCalibKludge hw)
  onOption options.calibrateMblock (calibrateOr (calibrateMBlocks hw) "Calibrate MBlocks failed")
  userSetConfig lib hw msg
  onOption options.calibrateOffset (calibrateOr (calibrateOffset hw) "Calibrate-offset failed")
  onOption options.calibrateRoutes
    (calibrateOr (lucidacCalibrateRoutes hw) "Calibrate-Routes failed")

/-- The flags of `user_reset_config`. -/
def resetRequest (msg : Json) : ResetAction :=
  ⟨(if (msg.member "keep_calibration").boolOr true then 0 else ResetAction.calibrationReset) |||
    (if (msg.member "overload_reset").boolOr true then ResetAction.overloadReset else 0) |||
    (if (msg.member "circuit_reset").boolOr true then ResetAction.circuitReset else 0)⟩

def userResetConfig (hw : Hardware) (msg : Json) : EStateM Stop Machine PUnit := do
  resetLucidac (resetRequest msg)
  onOption ((msg.member "sync").boolOr true) do
    let written ← writeToHardware hw
    require written.isOk (.status written)

/-- The entity a resolved path points to is used. -/
def useEntity : Ref → EStateM Stop Machine PUnit
  | .carrier => pure ⟨⟩
  | .cluster idx => do
    let m ← get
    require (decide (idx < m.lucidac.clusters.length)) (.fault .outOfRange)
  | .ctrlBlock => do
    let _ ← derefCtrlBlock
  | .frontPanel => do
    let m ← get
    require m.lucidac.frontPanel.isSome (.fault .absentBlock)
  | .block idx slot => do
    let _ ← deref idx slot

def answered {α : Type} : Except Stop α → EStateM Stop Machine α
  | .ok response => pure response
  | .error stop => throw stop

/-- `user_get_config` on the pointer it has resolved. -/
def getCircuit (lib : JsonLibrary) (msg : Json) : EStateM Stop Machine (List (String × Json)) := do
  let m ← get
  let ref ← answered (m.lucidac.getTarget lib (msg.member "entity"))
  useEntity ref
  answered (userGetConfig lib m.lucidac msg)

def overloadFlagsToJson (hw : Hardware) : EStateM Stop Machine Json := fun m =>
  .ok (.array (List.ofFn fun i => .bool (hw.overloadFlags m.asked i))) { m with asked := m.asked + 1 }

/-- `is_entity_class(M_BLOCK)`. -/
def Slot.isMath : Slot → Bool
  | .m0 | .m1 => true
  | .u | .c | .i | .sh => false

def clusterOverload (hw : Hardware) (idx : Nat) : EStateM Stop Machine (List (String × Json)) :=
  Slot.all.foldlM (fun entries slot => do
    let m ← get
    if (m.lucidac.block idx slot).isSome && slot.isMath then do
      let _ ← deref idx slot
      let flags ← overloadFlagsToJson hw
      pure (entries ++ [("/" ++ slot.entityId, flags)])
    else pure entries) []

def userGetOverloadStatus (hw : Hardware) : EStateM Stop Machine (List (String × Json)) := do
  let m ← get
  let flags ← (List.range m.lucidac.clusters.length).foldlM (fun entries idx => do
    let cluster ← clusterOverload hw idx
    pure (entries ++ [("/" ++ m.lucidac.entityIdOf (.cluster idx), .object cluster)])) []
  pure [("global_overload", .bool (hw.globalOverload m.asked)), ("entity_overload", .object flags)]

/-- The part of `run_next` that uses blocks: a failed calibration is only logged. -/
def runNext (hw : Hardware) (calibrate : Bool) : EStateM Stop Machine PUnit :=
  onOption calibrate do
    let _ ← returned (lucidacCalibrateRoutes hw)

inductive Request where
  | setCircuit (msg : Json)
  | resetCircuit (msg : Json)
  | getCircuit (msg : Json)
  | overloadStatus (msg : Json)
  | run (calibrate : Bool)

def Request.serve (lib : JsonLibrary) (hw : Hardware) : Request → EStateM Stop Machine PUnit
  | .setCircuit msg => userSetExtendedConfig lib hw msg
  | .resetCircuit msg => userResetConfig hw msg
  | .getCircuit msg => do
    let _ ← Platform.getCircuit lib msg
  | .overloadStatus _ => do
    let _ ← userGetOverloadStatus hw
  | .run calibrate => runNext hw calibrate

end Lucidac.Platform
