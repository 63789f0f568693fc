import Lucidac.Entity.ResetAction
import Lucidac.Utils.Json

/-!
# The SH and CTRL blocks

Both blocks hold one selection: the SH block its sample-and-hold state, the CTRL block the
signals on the ADC bus.
-/

namespace Lucidac

inductive SHState where
  | track
  | trackAtIc
  | inject
  | gainZeroToSeven
  | gainEightToFifteen
deriving DecidableEq

structure SHBlock where
  state : SHState
deriving DecidableEq

namespace SHBlock

def setState (_ : SHBlock) (state : SHState) : SHBlock := ⟨state⟩

def reset (s : SHBlock) (action : ResetAction) : SHBlock :=
  if action.has ResetAction.circuitReset then ⟨.inject⟩ else s

/-- `compensate_hardware_offsets` ends in inject mode. -/
def compensateHardwareOffsets (_ : SHBlock) : SHBlock := ⟨.inject⟩

/-- The comparisons of `config_self_from_json`. -/
def stateOfJson : Json → Option SHState
  | .string text =>
    if text = "TRACK" then some .track
    else if text = "TRACK_AT_IC" then some .trackAtIc
    else if text = "INJECT" then some .inject
    else if text = "GAIN_ZERO_TO_SEVEN" then some .gainZeroToSeven
    else if text = "GAIN_EIGHT_TO_FIFTEEN" then some .gainEightToFifteen
    else none
  | _ => none

/-- Only the member "state" is looked at. -/
def configSelfFromJson (cfg : List (String × Json)) : EStateM ConfigError SHBlock PUnit :=
  if (Json.object cfg).containsKey "state" then
    match stateOfJson ((Json.object cfg).member "state") with
    | some state => modify (·.setState state)
    | none => throw (.status (.ofCString "Unknown target state for SH Block"))
  else pure ⟨⟩

end SHBlock

inductive ADCBus where
  | cl0Gain
  | cl1Gain
  | cl2Gain
  | adc
deriving DecidableEq

structure CTRLBlock where
  adcBus : ADCBus
deriving DecidableEq

namespace CTRLBlock

def setAdcBus (_ : CTRLBlock) (adcBus : ADCBus) : CTRLBlock := ⟨adcBus⟩

def resetAdcBus (_ : CTRLBlock) : CTRLBlock := ⟨.adc⟩

/-- `set_adc_bus_to_cluster_gain` refuses every index from three on. -/
def setAdcBusToClusterGain (s : CTRLBlock) (clusterIdx : Nat) : Bool × CTRLBlock :=
  match clusterIdx with
  | 0 => (true, s.setAdcBus .cl0Gain)
  | 1 => (true, s.setAdcBus .cl1Gain)
  | 2 => (true, s.setAdcBus .cl2Gain)
  | _ => (false, s)

def reset (s : CTRLBlock) (action : ResetAction) : CTRLBlock :=
  if action.has ResetAction.circuitReset then s.resetAdcBus else s

end CTRLBlock

end Lucidac
