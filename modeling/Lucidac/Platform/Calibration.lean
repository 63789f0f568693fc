import Lucidac.Carrier.ClusterRoutes
import Lucidac.Platform.AdcChannels
import Lucidac.Platform.Config
import Lucidac.Platform.Reset

/-!
# Calibration on any set of blocks

Routes, offsets and math blocks are calibrated on a LUCIDAC whose slots may be empty.  A
`return false` is an exit with a status, and the use of an empty slot is an exit with a fault.
Only the calibration of offsets asks first whether its blocks are there.
-/

namespace Lucidac.Platform

open Framework

def returnFalse : Stop := .status .failure

/-- The Boolean that a call returns; a fault ends the caller as well. -/
def returned (x : EStateM Stop Machine PUnit) : EStateM Stop Machine Bool := fun m =>
  match x m with
  | .ok _ t => .ok true t
  | .error (.status _) t => .ok false t
  | .error (.fault f) t => .error (.fault f) t

/-! ### Using a block -/

def deref (idx : Nat) (slot : Slot) : EStateM Stop Machine slot.Content := do
  let m ← get
  match m.lucidac.block idx slot with
  | some block => pure block
  | none => throw (.fault .absentBlock)

def changeBlock (idx : Nat) (slot : Slot) (f : slot.Content → slot.Content) :
    EStateM Stop Machine PUnit := do
  let block ← deref idx slot
  modify fun m => { m with lucidac := m.lucidac.setBlock idx slot (f block) }

/-- A call on a block whose failure ends the caller. -/
def tryBlock (idx : Nat) (slot : Slot) (f : slot.Content → Bool × slot.Content) :
    EStateM Stop Machine PUnit := do
  let block ← deref idx slot
  modify fun m => { m with lucidac := m.lucidac.setBlock idx slot (f block).2 }
  require (f block).1 returnFalse

def writeBlock (hw : Hardware) (idx : Nat) (slot : Slot) : EStateM Stop Machine PUnit := do
  let _ ← deref idx slot
  let ok ← askHardware hw
  require ok returnFalse

def derefCtrlBlock : EStateM Stop Machine CTRLBlock := do
  let m ← get
  match m.lucidac.ctrlBlock with
  | some block => pure block
  | none => throw (.fault .absentBlock)

def changeCtrlBlock (f : CTRLBlock → CTRLBlock) : EStateM Stop Machine PUnit := do
  let block ← derefCtrlBlock
  modify fun m => { m with lucidac := { m.lucidac with ctrlBlock := some (f block) } }

def writeCtrlBlock (hw : Hardware) : EStateM Stop Machine PUnit := do
  let _ ← derefCtrlBlock
  let ok ← askHardware hw
  require ok returnFalse

def sample (hw : Hardware) : EStateM Stop Machine (Fin 8 → ℚ) := fun m =>
  .ok (hw.reading m.asked) { m with asked := m.asked + 1 }

/-- `sample_avg(4, 10)` on one channel. -/
def sampleAvg (hw : Hardware) (channel : Fin 8) : EStateM Stop Machine ℚ := do
  let a ← sample hw
  let b ← sample hw
  let c ← sample hw
  let d ← sample hw
  pure (1 / 4 * (0 + a channel + b channel + c channel + d channel))

/-! ### Routes -/

/-- `Cluster::calibrate_offsets`. -/
def calibrateOffsets (hw : Hardware) (idx : Nat) : EStateM Stop Machine PUnit := do
  let m ← get
  require ((m.lucidac.block idx .u).isSome && (m.lucidac.block idx .sh).isSome) returnFalse
  let ublock ← deref idx .u
  let oldTransmissionModes := UBlock.getAllTransmissionModes ublock
  changeBlock idx .u fun u => UBlock.changeAllTransmissionModes u (.ground, .ground)
  writeBlock hw idx .u
  changeBlock idx .sh fun sh => SHBlock.compensateHardwareOffsets sh
  changeBlock idx .u fun u => UBlock.changeAllTransmissionModes u oldTransmissionModes
  writeBlock hw idx .u

def activateLane (hw : Hardware) (idx : Nat) (iInIdx : Fin 32) : EStateM Stop Machine PUnit := do
  let iblock ← deref idx .i
  let upscaledChannel := IBlock.scalingFactors iblock iInIdx
  changeBlock idx .u fun u => UBlock.changeAllTransmissionModes u (.posRef, .posRef)
  changeBlock idx .u fun u =>
    UBlock.changeReferenceMagnitude u (if upscaledChannel then .oneTenth else .one)
  writeBlock hw idx .u
  changeBlock idx .c fun c => (CBlock.setFactor c iInIdx 1).2
  changeBlock idx .c fun c => (CBlock.setGainCorrection c iInIdx 1).2
  writeBlock hw idx .c

/-- The SH block is triggered directly and cannot refuse. -/
def measureGain (hw : Hardware) (idx : Nat) (iOutIdx : Fin 16) (iInIdx : Fin 32) :
    EStateM Stop Machine Bool := do
  changeBlock idx .sh fun sh =>
    SHBlock.setState sh (if iOutIdx.val < 8 then .gainZeroToSeven else .gainEightToFifteen)
  let mAdc ← sampleAvg hw ⟨iOutIdx.val % 8, Cluster.gainChannel_lt iOutIdx⟩
  let gainCorrection := 1 / mAdc
  let cblock ← deref idx .c
  let accepted := (CBlock.setGainCorrection cblock iInIdx gainCorrection).1
  changeBlock idx .c fun c => (CBlock.setGainCorrection c iInIdx gainCorrection).2
  if !accepted then changeBlock idx .c fun c => (CBlock.setGainCorrection c iInIdx 1).2
  pure accepted

def deactivateLane (hw : Hardware) (idx : Nat) (iInIdx : Fin 32) : EStateM Stop Machine PUnit := do
  changeBlock idx .c fun c => (CBlock.setFactor c iInIdx 0).2
  writeBlock hw idx .c

/-- The body of the two loops of `calibrate_routes`. -/
def calibrateLane (hw : Hardware) (idx : Nat) (iOutIdx : Fin 16) (success : Bool)
    (iInIdx : Fin 32) : EStateM Stop Machine Bool := do
  let iblock ← deref idx .i
  if !IBlock.isConnected iblock iInIdx iOutIdx then pure success
  else do
    let ublock ← deref idx .u
    if !UBlock.isOutputConnected ublock iInIdx then pure success
    else do
      activateLane hw idx iInIdx
      calibrateOffsets hw idx
      let accepted ← measureGain hw idx iOutIdx iInIdx
      deactivateLane hw idx iInIdx
      pure (success && accepted)

/-- The closing section of `calibrate_routes`. -/
def restoreBlocks (hw : Hardware) (idx : Nat) (oldUBlock : UBlock) (oldFactors : Fin 32 → ℚ)
    (oldUpscaling : Fin 32 → Bool) : EStateM Stop Machine PUnit := do
  changeBlock idx .c fun c => CBlock.setFactors c oldFactors
  writeBlock hw idx .c
  calibrateOffsets hw idx
  changeBlock idx .u fun u =>
    UBlock.changeAllTransmissionModes u oldUBlock.getAllTransmissionModes
  changeBlock idx .u fun u => UBlock.changeReferenceMagnitude u oldUBlock.refMagnitude
  writeBlock hw idx .u
  changeBlock idx .i fun i => IBlock.setUpscales i oldUpscaling
  writeBlock hw idx .i
  changeBlock idx .sh fun sh => SHBlock.setState sh .inject

def clusterCalibrateRoutes (hw : Hardware) (idx : Nat) : EStateM Stop Machine PUnit := do
  let ublock ← deref idx .u
  let cblock ← deref idx .c
  changeBlock idx .c fun c => CBlock.setFactors c fun _ => 0
  writeBlock hw idx .c
  let iblock ← deref idx .i
  changeBlock idx .i fun i => IBlock.resetUpscaling i
  writeBlock hw idx .i
  let success ← (List.finRange 16).foldlM (fun success iOutIdx =>
    (List.finRange 32).foldlM (calibrateLane hw idx iOutIdx) success) true
  restoreBlocks hw idx ublock (CBlock.factors cblock) (IBlock.scalingFactors iblock)
  require success returnFalse

def calibrateRoutesInCluster (hw : Hardware) (idx : Nat) : EStateM Stop Machine PUnit := do
  let m ← get
  let ctrlBlock ← derefCtrlBlock
  let clusterIdx := ((m.lucidac.clusters[idx]?).map fun c => c.clusterIdx.toNat).getD 0
  changeCtrlBlock fun ctrl => (ctrl.setAdcBusToClusterGain clusterIdx).2
  writeCtrlBlock hw
  clusterCalibrateRoutes hw idx
  changeCtrlBlock (·.setAdcBus ctrlBlock.adcBus)
  writeCtrlBlock hw

def carrierCalibrateRoutes (hw : Hardware) : EStateM Stop Machine PUnit := do
  let m ← get
  forM (List.range m.lucidac.clusters.length) (calibrateRoutesInCluster hw)

def lucidacCalibrateRoutes (hw : Hardware) : EStateM Stop Machine PUnit := do
  let m ← get
  let oldAclSelection := m.lucidac.aclSelect
  modify fun m => { m with lucidac := m.lucidac.resetAclSelect }
  let written ← askHardware hw
  require written returnFalse
  carrierCalibrateRoutes hw
  modify fun m => { m with lucidac := { m.lucidac with aclSelect := oldAclSelection } }
  let restored ← askHardware hw
  require restored returnFalse

/-- `Carrier::calibrate_offset`. -/
def calibrateOffset (hw : Hardware) : EStateM Stop Machine PUnit := do
  let m ← get
  forM (List.range m.lucidac.clusters.length) (calibrateOffsets hw)

def addConstant (idx : Nat) (signalType : TransmissionMode) (uOut : Nat) (cFactor : ℚ)
    (iOut : Nat) : EStateM Stop Machine PUnit := do
  changeBlock idx .i fun i => (IBlock.setUpscaling i uOut (decide (1 < |cFactor|))).2
  tryBlock idx .u fun u => UBlock.connectAlternative u signalType uOut false false
  tryBlock idx .c fun c => CBlock.setFactor c uOut (Lucidac.Cluster.laneFactor cFactor)
  tryBlock idx .i fun i => IBlock.connect i uOut iOut false false

/-! ### Math blocks -/

inductive MSlot where
  | m0
  | m1

def MSlot.toSlot : MSlot → Slot
  | .m0 => .m0
  | .m1 => .m1

def slotToGlobalIoIndex (slot : MSlot) (idx : Nat) : Nat :=
  match slot with
  | .m0 => idx
  | .m1 => idx + 8

namespace LUCIDAC

def mBlock (s : LUCIDAC) (idx : Nat) : MSlot → Option MBlock
  | .m0 => s.block idx .m0
  | .m1 => s.block idx .m1

def setMBlock (s : LUCIDAC) (idx : Nat) (slot : MSlot) (block : MBlock) : LUCIDAC :=
  match slot with
  | .m0 => s.setBlock idx .m0 block
  | .m1 => s.setBlock idx .m1 block

end LUCIDAC

/-- A program of the multiplier block in this slot. -/
def onMultipliers (idx : Nat) (slot : MSlot) (x : EStateM ConfigError (Driven MMulBlock) PUnit) :
    EStateM Stop Machine PUnit := fun m =>
  match m.lucidac.mBlock idx slot with
  | some (.multipliers block) =>
    match x ⟨block, m.asked⟩ with
    | .ok a d => .ok a ⟨m.lucidac.setMBlock idx slot (.multipliers d.block), d.asked⟩
    | .error e d =>
      .error (.ofConfigError e) ⟨m.lucidac.setMBlock idx slot (.multipliers d.block), d.asked⟩
  | _ => .error (.fault .absentBlock) m

def changeCalibration (idx : Nat) (slot : MSlot) (mulIdx : Fin 4)
    (f : MultiplierCalibration → MultiplierCalibration) : EStateM Stop Machine PUnit :=
  onMultipliers idx slot (modify fun d => { d with
    block := ⟨Function.update d.block.calibration mulIdx (f (d.block.calibration mulIdx))⟩ })

def offsetX (s : LUCIDAC) (idx : Nat) (slot : MSlot) (mulIdx : Fin 4) : ℚ :=
  match s.mBlock idx slot with
  | some (.multipliers block) => (block.calibration mulIdx).offsetX
  | _ => 0

/-- Offsets beyond a tenth are refused before anything is written. -/
def writeCalibrationInputOffsets (hw : Hardware) (offsetX offsetY : ℚ) : EStateM Stop Machine Bool :=
  if 1 / 10 < |offsetX| ∨ 1 / 10 < |offsetY| then pure false else askHardware hw

def writeCalibrationOutputOffset (hw : Hardware) (offsetZ : ℚ) : EStateM Stop Machine Bool :=
  if 1 / 10 < |offsetZ| then pure false else askHardware hw

/-- The loops that raise an input offset while the reading is negative.  A refused write ends
them, at the latest the one beyond a tenth. -/
def raiseOffset (hw : Hardware) (mulIdx : Fin 4) (write : ℚ → EStateM Stop Machine Bool)
    (store : ℚ → EStateM Stop Machine PUnit) : Nat → ℚ → Bool → EStateM Stop Machine Bool
  | 0, _, success => pure success
  | fuel + 1, offset, success => do
    let reading ← sample hw
    if reading (mulIdx.castLE (by decide)) < 0 then do
      let ok ← write offset
      if ok then do
        store (offset + 1 / 100)
        raiseOffset hw mulIdx write store fuel (offset + 1 / 100) success
      else pure false
    else pure success

/-- Fuel for the step beyond a tenth is enough. -/
theorem raiseOffset_add {hw : Hardware} {mulIdx : Fin 4} {write : ℚ → EStateM Stop Machine Bool}
    {store : ℚ → EStateM Stop Machine PUnit} (hrefused : ∀ offset, 1 / 10 < offset → write offset = pure false)
    (fuel extra : Nat) (offset : ℚ) (success : Bool) (h : 1 / 10 < offset + fuel / 100) :
    raiseOffset hw mulIdx write store (fuel + 1 + extra) offset success =
      raiseOffset hw mulIdx write store (fuel + 1) offset success := by
  induction fuel generalizing offset with
  | zero =>
    rw [Nat.cast_zero, zero_div, add_zero] at h
    rw [Nat.zero_add, Nat.add_comm 1 extra]
    simp only [raiseOffset]
    rw [hrefused offset h]
    rfl
  | succ fuel ih =>
    have hnext : 1 / 10 < offset + 1 / 100 + (fuel : ℚ) / 100 := by
      rw [Nat.cast_succ] at h
      linarith
    rw [show fuel + 1 + 1 + extra = (fuel + 1 + extra) + 1 by omega]
    simp only [raiseOffset] at ih ⊢
    rw [ih (offset + 1 / 100) hnext]

/-- One multiplier starts at minus a tenth, and the twenty-second step is beyond a tenth. -/
def calibrateInputOffset (hw : Hardware) (write : Fin 4 → ℚ → EStateM Stop Machine Bool)
    (store : Fin 4 → ℚ → EStateM Stop Machine PUnit) (success : Bool) (mulIdx : Fin 4) :
    EStateM Stop Machine Bool := do
  let ok ← write mulIdx (-1 / 10)
  store mulIdx (-1 / 10)
  raiseOffset hw mulIdx (write mulIdx) (store mulIdx) 22 (-1 / 10) (success && ok)

def setFactorOrReturn (idx : Nat) (slot : MSlot) (input : Nat) (factor : ℚ) :
    EStateM Stop Machine PUnit :=
  tryBlock idx .c fun c => CBlock.setFactor c (slotToGlobalIoIndex slot input) factor

/-- New coefficients are written and the offsets are compensated for them. -/
def writeFactors (hw : Hardware) (idx : Nat) : EStateM Stop Machine PUnit := do
  writeBlock hw idx .c
  calibrateOffsets hw idx

def clusterWriteToHardware (hw : Hardware) (idx : Nat) : EStateM Stop Machine Status := fun m =>
  .ok ((((m.lucidac.attemptedWrites (hw.outcomes m.asked)).clusters[idx]?).map
    ClusterWrites.writeToHardware).getD .success) { m with asked := m.asked + 1 }

def resetCluster (idx : Nat) (action : ResetAction) : EStateM Stop Machine PUnit :=
  modify fun m => { m with lucidac :=
    { m.lucidac with clusters := m.lucidac.clusters.modify idx (·.reset action) } }

/-- The output offsets are measured at zero inputs. -/
def calibrateOutputOffsets (hw : Hardware) (idx : Nat) (slot : MSlot) : EStateM Stop Machine Bool := do
  let offsetZs ← sample hw
  (List.finRange 4).foldlM (fun success mulIdx => do
    let offsetZ := -offsetZs (mulIdx.castLE (by decide))
    let ok ← writeCalibrationOutputOffset hw offsetZ
    changeCalibration idx slot mulIdx fun calibration => { calibration with offsetZ := offsetZ }
    pure (success && ok)) true

def writeInputX (hw : Hardware) (_ : Fin 4) (offset : ℚ) : EStateM Stop Machine Bool :=
  writeCalibrationInputOffsets hw offset 0

def writeInputY (hw : Hardware) (idx : Nat) (slot : MSlot) (mulIdx : Fin 4) (offset : ℚ) :
    EStateM Stop Machine Bool := do
  let m ← get
  writeCalibrationInputOffsets hw (offsetX m.lucidac idx slot mulIdx) offset

def calibrateInputXOffsets (hw : Hardware) (idx : Nat) (slot : MSlot) (success : Bool) :
    EStateM Stop Machine Bool :=
  (List.finRange 4).foldlM (calibrateInputOffset hw (writeInputX hw)
    (fun mulIdx offset => changeCalibration idx slot mulIdx fun calibration =>
      { calibration with offsetX := offset })) success

def calibrateInputYOffsets (hw : Hardware) (idx : Nat) (slot : MSlot) (success : Bool) :
    EStateM Stop Machine Bool :=
  (List.finRange 4).foldlM (calibrateInputOffset hw (writeInputY hw idx slot)
    (fun mulIdx offset => changeCalibration idx slot mulIdx fun calibration =>
      { calibration with offsetY := offset })) success

/-- Both inputs refuse an offset beyond a tenth, so that more fuel changes nothing. -/
theorem raiseOffset_fuel (hw : Hardware) (idx : Nat) (slot : MSlot) (mulIdx : Fin 4)
    (store : ℚ → EStateM Stop Machine PUnit) (extra : Nat) (success : Bool) :
    raiseOffset hw mulIdx (writeInputX hw mulIdx) store (22 + extra) (-1 / 10) success =
        raiseOffset hw mulIdx (writeInputX hw mulIdx) store 22 (-1 / 10) success ∧
      raiseOffset hw mulIdx (writeInputY hw idx slot mulIdx) store (22 + extra) (-1 / 10) success =
        raiseOffset hw mulIdx (writeInputY hw idx slot mulIdx) store 22 (-1 / 10) success := by
  have hbeyond : (1 : ℚ) / 10 < -1 / 10 + (21 : Nat) / 100 := by norm_num
  constructor
  · apply raiseOffset_add _ 21 extra _ success hbeyond
    intro offset h
    exact if_pos (Or.inl (h.trans_le (le_abs_self offset)))
  · apply raiseOffset_add _ 21 extra _ success hbeyond
    intro offset h
    funext m
    have hrefused : writeCalibrationInputOffsets hw (offsetX m.lucidac idx slot mulIdx) offset =
        pure false := if_pos (Or.inr (h.trans_le (le_abs_self offset)))
    exact congrFun hrefused m

def mMulCalibrate (hw : Hardware) (idx : Nat) (slot : MSlot) : EStateM Stop Machine PUnit := do
  onMultipliers idx slot (MMulBlock.readCalibrationFromEeprom hw.toMMulHardware)
  onMultipliers idx slot (MMulBlock.writeCalibrationToHardware hw.toMMulHardware)
  onMultipliers idx slot (modify fun d => { d with
    block := d.block.reset ⟨ResetAction.circuitReset ||| ResetAction.calibrationReset⟩ })
  resetCluster idx ⟨ResetAction.circuitReset⟩
  forM (List.range 8) fun input => addConstant idx .ground (slotToGlobalIoIndex slot input) 0
    (slotToGlobalIoIndex slot input)
  let written ← clusterWriteToHardware hw idx
  require written.isOk returnFalse
  calibrateOffsets hw idx
  let success ← calibrateOutputOffsets hw idx slot
  forM (List.range 4) fun mulIdx => setFactorOrReturn idx slot (mulIdx * 2) 1
  writeFactors hw idx
  let success ← calibrateInputXOffsets hw idx slot success
  forM (List.range 4) fun mulIdx => do
    setFactorOrReturn idx slot (mulIdx * 2) 0
    setFactorOrReturn idx slot (mulIdx * 2 + 1) 1
  writeFactors hw idx
  let success ← calibrateInputYOffsets hw idx slot success
  require success returnFalse

/-- `calibrate` of a math block; integrators have nothing to do. -/
def mBlockCalibrate (hw : Hardware) (idx : Nat) (slot : MSlot) : EStateM Stop Machine PUnit := do
  let m ← get
  match m.lucidac.mBlock idx slot with
  | some (.multipliers _) => mMulCalibrate hw idx slot
  | some (.integrators _) => pure ⟨⟩
  | none => throw (.fault .absentBlock)

def setAdcChannel (idx : Nat) (adcChannel : Int) : EStateM Stop Machine PUnit :=
  attempt (fun m => ((m.lucidac.setAdcChannel idx adcChannel).1,
    { m with lucidac := (m.lucidac.setAdcChannel idx adcChannel).2 })) returnFalse

/-- `Carrier::calibrate_mblock` on an installed math block. -/
def calibrateMblock (hw : Hardware) (idx : Nat) (slot : MSlot) : EStateM Stop Machine PUnit := do
  forM (List.range 8) fun inputIdx => addConstant idx .posRef (slotToGlobalIoIndex slot inputIdx) 1
    (slotToGlobalIoIndex slot inputIdx)
  forM (List.range 8) fun outputIdx => setAdcChannel outputIdx (slotToGlobalIoIndex slot outputIdx)
  let written ← writeToHardware hw
  require written.isOk returnFalse
  calibrateRoutesInCluster hw idx
  let success ← returned (mBlockCalibrate hw idx slot)
  resetCluster idx ⟨ResetAction.circuitReset⟩
  changeCtrlBlock (·.reset ⟨ResetAction.circuitReset⟩)
  modify fun m => { m with lucidac := m.lucidac.resetAdcChannels }
  let written ← writeToHardware hw
  require written.isOk returnFalse
  require success returnFalse

/-- The body of the loops of `calibrate_m_blocks`. -/
def calibrateIfInstalled (hw : Hardware) (success : Bool) (position : Nat × MSlot) :
    EStateM Stop Machine Bool := do
  let m ← get
  if (m.lucidac.mBlock position.1 position.2).isSome then do
    let ok ← returned (calibrateMblock hw position.1 position.2)
    pure (success && ok)
  else pure success

/-- `Carrier::calibrate_m_blocks`: a failure does not keep the other block from its turn. -/
def calibrateMBlocks (hw : Hardware) : EStateM Stop Machine PUnit := do
  let m ← get
  let success ← ((List.range m.lucidac.clusters.length).flatMap fun idx =>
    [(idx, MSlot.m0), (idx, MSlot.m1)]).foldlM (calibrateIfInstalled hw) true
  require success returnFalse

end Lucidac.Platform
