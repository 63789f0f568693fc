import Lucidac.Block.CBlock
import Lucidac.Block.IBlock
import Lucidac.Block.SelectorBlocks
import Lucidac.Block.UBlock

/-!
# Calibrating the routes of a cluster

A cluster with its U, C, I and SH blocks installed is measured route by route: the lane gets the
positive reference and a coefficient of one, its offset is compensated, and the averaged reading
of the gain channel gives the new gain correction.  Every hardware write may fail and ends the
calibration; a correction out of range only lowers the returned flag.
-/

namespace Lucidac

open Framework

structure Cluster where
  clusterIdx : Nat
  ublock : UBlock
  cblock : CBlock
  iblock : IBlock
  shblock : SHBlock

/-- A cluster in memory and as it was last written to its hardware. -/
structure MountedCluster where
  cluster : Cluster
  written : Cluster

/-- What the hardware answers: the outcome of every write and the ADC readings, in order. -/
structure Environment where
  writeOk : Nat → Bool
  reading : Nat → Fin 8 → ℚ

/-- One gain measurement, with the blocks in memory and as they were last written. -/
structure GainSample where
  lane : Fin 32
  output : Fin 16
  cluster : Cluster
  written : Cluster

structure Bench extends MountedCluster where
  writeCount : Nat
  sampleCount : Nat
  samples : List GainSample

namespace Bench

def mapUBlock (f : UBlock → UBlock) (b : Bench) : Bench :=
  { b with cluster := { b.cluster with ublock := f b.cluster.ublock } }

def mapCBlock (f : CBlock → CBlock) (b : Bench) : Bench :=
  { b with cluster := { b.cluster with cblock := f b.cluster.cblock } }

def mapIBlock (f : IBlock → IBlock) (b : Bench) : Bench :=
  { b with cluster := { b.cluster with iblock := f b.cluster.iblock } }

/-- The SH block is triggered directly, so memory and hardware change together. -/
def mapSHBlock (f : SHBlock → SHBlock) (b : Bench) : Bench :=
  { b with cluster := { b.cluster with shblock := f b.cluster.shblock }
           written := { b.written with shblock := f b.cluster.shblock } }

end Bench

namespace Cluster

/-- A write of one block; `store` carries its state over to the hardware. -/
def writeBlock (env : Environment) (store : Cluster → Cluster → Cluster) :
    EStateM Unit Bench PUnit :=
  attempt (fun b =>
    if env.writeOk b.writeCount then
      (true, { b with writeCount := b.writeCount + 1, written := store b.cluster b.written })
    else (false, { b with writeCount := b.writeCount + 1 })) ()

def writeUBlock (env : Environment) : EStateM Unit Bench PUnit :=
  writeBlock env fun cluster written => { written with ublock := cluster.ublock }

def writeCBlock (env : Environment) : EStateM Unit Bench PUnit :=
  writeBlock env fun cluster written => { written with cblock := cluster.cblock }

def writeIBlock (env : Environment) : EStateM Unit Bench PUnit :=
  writeBlock env fun cluster written => { written with iblock := cluster.iblock }

def calibrateOffsets (env : Environment) : EStateM Unit Bench PUnit := do
  let b ← get
  let oldTransmissionModes := b.cluster.ublock.getAllTransmissionModes
  modify (·.mapUBlock (·.changeAllTransmissionModes (.ground, .ground)))
  writeUBlock env
  modify (·.mapSHBlock (·.compensateHardwareOffsets))
  modify (·.mapUBlock (·.changeAllTransmissionModes oldTransmissionModes))
  writeUBlock env

/-- `sample_avg(4, 10)` on one channel, from reading `n` on. -/
def sampleAvg (env : Environment) (n : Nat) (channel : Fin 8) : ℚ :=
  1 / 4 * (0 + env.reading n channel + env.reading (n + 1) channel + env.reading (n + 2) channel +
    env.reading (n + 3) channel)

/-- Reference and coefficient of the lane that is measured next. -/
def activateLane (env : Environment) (iInIdx : Fin 32) : EStateM Unit Bench PUnit := do
  let b ← get
  let upscaledChannel := b.cluster.iblock.scalingFactors iInIdx
  modify (·.mapUBlock (·.changeAllTransmissionModes (.posRef, .posRef)))
  modify (·.mapUBlock (·.changeReferenceMagnitude (if upscaledChannel then .oneTenth else .one)))
  writeUBlock env
  modify (·.mapCBlock fun c => (c.setFactor iInIdx 1).2)
  modify (·.mapCBlock fun c => (c.setGainCorrection iInIdx 1).2)
  writeCBlock env

theorem gainChannel_lt (iOutIdx : Fin 16) : iOutIdx.val % 8 < 8 := Nat.mod_lt _ (by decide)

def gainChannel (iOutIdx : Fin 16) : Fin 8 := ⟨iOutIdx.val % 8, gainChannel_lt iOutIdx⟩

/-- The measurement itself; the value tells whether the correction was accepted.  A reading of
zero gives the correction zero, which is out of range as the infinity of the source is. -/
def measureGain (env : Environment) (iOutIdx : Fin 16) (iInIdx : Fin 32) :
    EStateM Unit Bench Bool := do
  modify (·.mapSHBlock (·.setState
    (if iOutIdx.val < 8 then .gainZeroToSeven else .gainEightToFifteen)))
  modify fun b => { b with samples := b.samples ++ [⟨iInIdx, iOutIdx, b.cluster, b.written⟩] }
  let b ← get
  let gainCorrection := 1 / sampleAvg env b.sampleCount (gainChannel iOutIdx)
  modify fun b => { b with sampleCount := b.sampleCount + 4 }
  let accepted := (b.cluster.cblock.setGainCorrection iInIdx gainCorrection).1
  modify (·.mapCBlock fun c => (c.setGainCorrection iInIdx gainCorrection).2)
  modify (·.mapCBlock fun c => if accepted then c else (c.setGainCorrection iInIdx 1).2)
  pure accepted

def deactivateLane (env : Environment) (iInIdx : Fin 32) : EStateM Unit Bench PUnit := do
  modify (·.mapCBlock fun c => (c.setFactor iInIdx 0).2)
  writeCBlock env

/-- The body of the two loops of `calibrate_routes`. -/
def calibrateLane (env : Environment) (iOutIdx : Fin 16) (success : Bool) (iInIdx : Fin 32) :
    EStateM Unit Bench Bool := do
  let b ← get
  if !b.cluster.iblock.isConnected iInIdx iOutIdx then pure success
  else if !b.cluster.ublock.isOutputConnected iInIdx then pure success
  else do
    activateLane env iInIdx
    calibrateOffsets env
    let accepted ← measureGain env iOutIdx iInIdx
    deactivateLane env iInIdx
    pure (success && accepted)

/-- The closing section of `calibrate_routes`: everything saved from `old` is written back. -/
def restoreBlocks (env : Environment) (old : Cluster) : EStateM Unit Bench PUnit := do
  modify (·.mapCBlock (·.setFactors old.cblock.factors))
  writeCBlock env
  calibrateOffsets env
  modify (·.mapUBlock (·.changeAllTransmissionModes old.ublock.getAllTransmissionModes))
  modify (·.mapUBlock (·.changeReferenceMagnitude old.ublock.refMagnitude))
  writeUBlock env
  modify (·.mapIBlock (·.setUpscales old.iblock.scalingFactors))
  writeIBlock env
  modify (·.mapSHBlock (·.setState .inject))

/-- `Cluster::calibrate_routes`; an exit is a `return false` after a failed write. -/
def calibrateRoutes (env : Environment) : EStateM Unit Bench Bool := do
  let b ← get
  modify (·.mapCBlock (·.setFactors fun _ => 0))
  writeCBlock env
  modify (·.mapIBlock (·.resetUpscaling))
  writeIBlock env
  let success ← (List.finRange 16).foldlM (fun success iOutIdx =>
    (List.finRange 32).foldlM (calibrateLane env iOutIdx) success) true
  restoreBlocks env b.cluster
  pure success

end Cluster

end Lucidac
