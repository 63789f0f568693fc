import Lucidac.Entity.ResetAction
import Lucidac.Framework.Program
import Lucidac.Utils.Json

/-!
# The front panel

The front panel has eight LEDs and a signal generator.  Its reader stores value by value; the
setters of amplitude, square levels and offset refuse values out of range without an error, while
a refused DAC output ends the configuration.
-/

namespace Lucidac

open Framework

inductive WaveForm where
  | sine
  | sineAndSquare
  | triangle
deriving DecidableEq

namespace WaveForm

def toText : WaveForm → String
  | .sine => "sine"
  | .sineAndSquare => "sine_and_square"
  | .triangle => "triangle"

def ofJson : Json → Option WaveForm
  | .string text =>
    if text = "sine" then some .sine
    else if text = "sine_and_square" then some .sineAndSquare
    else if text = "triangle" then some .triangle
    else none
  | _ => none

end WaveForm

structure SignalGenerator where
  frequency : ℚ
  phase : ℚ
  waveForm : WaveForm
  amplitude : ℚ
  squareVoltageLow : ℚ
  squareVoltageHigh : ℚ
  offset : ℚ
  dacOut0 : ℚ
  dacOut1 : ℚ
  sleep : Bool
deriving DecidableEq

namespace SignalGenerator

def setAmplitude (s : SignalGenerator) (amplitude : ℚ) : Bool × SignalGenerator :=
  if amplitude < 0 ∨ 1 < amplitude then (false, s) else (true, { s with amplitude := amplitude })

def setSquareVoltageLow (s : SignalGenerator) (low : ℚ) : Bool × SignalGenerator :=
  if 1 < |low| then (false, s) else (true, { s with squareVoltageLow := low })

def setSquareVoltageHigh (s : SignalGenerator) (high : ℚ) : Bool × SignalGenerator :=
  if 1 < |high| then (false, s) else (true, { s with squareVoltageHigh := high })

def setOffset (s : SignalGenerator) (offset : ℚ) : Bool × SignalGenerator :=
  if 1 < |offset| then (false, s) else (true, { s with offset := offset })

def setDacOut0 (s : SignalGenerator) (value : ℚ) : Bool × SignalGenerator :=
  if 1 < |value| then (false, s) else (true, { s with dacOut0 := value })

def setDacOut1 (s : SignalGenerator) (value : ℚ) : Bool × SignalGenerator :=
  if 1 < |value| then (false, s) else (true, { s with dacOut1 := value })

/-- A member that must be a number and is then stored. -/
def configFloat (value : Json) (refused : String) (store : ℚ → SignalGenerator → SignalGenerator) :
    EStateM ConfigError SignalGenerator PUnit := do
  require value.isFloat (.status (.ofCString refused))
  modify (store (value.asFloat fun _ => 0))

def configWaveForm (value : Json) (cfg : Json) : EStateM ConfigError SignalGenerator PUnit := do
  require value.isString (.status (.ofCString "LUCIDACFrontPanel wave form must be string"))
  match WaveForm.ofJson (cfg.member "wave_form") with
  | some waveForm => modify fun s => { s with waveForm := waveForm }
  | none => throw (.status (.ofCString "LUCIDACFrontPanel wave form illegal value"))

def configSleep (value : Json) : EStateM ConfigError SignalGenerator PUnit := do
  require value.isBool (.status (.ofCString "LUCIDACFrontPanel sleep must be bool"))
  modify fun s => { s with sleep := value.asBool }

/-- The two messages on illegal values keep their placeholders, as the source passes JSON values
to the formatter. -/
def configDacOutputs (value : Json) (cfg : Json) : EStateM ConfigError SignalGenerator PUnit := do
  require value.isArray (.status (.ofCString "LUCIDACFrontPanel dac_outputs must be array"))
  let dacOutputs := (cfg.member "dac_outputs").asArray
  require (dacOutputs.length == 2) (.status (.ofCString
    "LUCIDACFrontPanel dac_outputs must be array of size 2"))
  let out0 := dacOutputs.getD 0 .null
  let out1 := dacOutputs.getD 1 .null
  require out0.isFloat (.status (.ofCString "LUCIDACFrontPanel dac_outputs[0] is not float"))
  require out1.isFloat (.status (.ofCString "LUCIDACFrontPanel dac_outputs[1] is not float"))
  attempt (fun s => s.setDacOut0 (out0.asFloat fun _ => 0)) (.status (.ofString
    "LUCIDACFrontPanel dac_outputs[0] illegal value %d"))
  attempt (fun s => s.setDacOut1 (out1.asFloat fun _ => 0)) (.status (.ofString
    "LUCIDACFrontPanel dac_outputs[1] illegal value %d"))

def configMember (cfg : Json) (key : String) (value : Json) :
    EStateM ConfigError SignalGenerator PUnit :=
  if key = "frequency" then
    configFloat value "LUCIDACFrontPanel frequency value must be float" fun x s =>
      { s with frequency := x }
  else if key = "phase" then
    configFloat value "LUCIDACFrontPanel phase value must be float" fun x s => { s with phase := x }
  else if key = "wave_form" then configWaveForm value cfg
  else if key = "amplitude" then
    configFloat value "LUCIDACFrontPanel amplitude must be float" fun x s => (s.setAmplitude x).2
  else if key = "square_voltage_low" then
    configFloat value "LUCIDACFrontPanel square_voltage_low must be float" fun x s =>
      (s.setSquareVoltageLow x).2
  else if key = "square_voltage_high" then
    configFloat value "LUCIDACFrontPanel square_voltage_high must be float" fun x s =>
      (s.setSquareVoltageHigh x).2
  else if key = "offset" then
    configFloat value "LUCIDACFrontPanel offset must be float" fun x s => (s.setOffset x).2
  else if key = "sleep" then configSleep value
  else if key = "dac_outputs" then configDacOutputs value cfg
  else throw (.status (.ofString s!"LUCIDACFrontPanel: Unexpected keyword: {key}"))

def configFromJson : Json → EStateM ConfigError SignalGenerator PUnit
  | .object members => forM members fun (key, value) => configMember (.object members) key value
  | _ => throw (.status (.ofCString
      "LUCIDACFrontPanel signal generator configuration must be object"))

def configToJson (s : SignalGenerator) : Json :=
  .object
    [("frequency", .float s.frequency), ("phase", .float s.phase),
      ("wave_form", .string s.waveForm.toText), ("amplitude", .float s.amplitude),
      ("square_voltage_low", .float s.squareVoltageLow),
      ("square_voltage_high", .float s.squareVoltageHigh), ("offset", .float s.offset),
      ("sleep", .bool s.sleep), ("dac_outputs", .array [.float s.dacOut0, .float s.dacOut1])]

end SignalGenerator

structure FrontPanel where
  leds : BitVec 8
  signalGenerator : SignalGenerator
deriving DecidableEq

namespace FrontPanel

def reset (s : FrontPanel) (action : ResetAction) : FrontPanel :=
  if action.has ResetAction.circuitReset then
    { s with leds := 0, signalGenerator := { s.signalGenerator with sleep := true } }
  else s

def configLedsFromJson (cfg : Json) : EStateM ConfigError FrontPanel PUnit := do
  require cfg.isUInt8 (.status (.ofCString
    "LUCIDACFrontPanel LED configuration must be encoded as single integer"))
  modify fun s => { s with leds := BitVec.ofNat 8 cfg.asUInt8 }

def configSignalGeneratorFromJson (cfg : Json) : EStateM ConfigError FrontPanel PUnit :=
  zoom FrontPanel.signalGenerator (fun generator s => { s with signalGenerator := generator })
    (SignalGenerator.configFromJson cfg)

def configSelfFromJson (cfg : List (String × Json)) : EStateM ConfigError FrontPanel PUnit :=
  forM cfg fun (key, value) =>
    if key = "leds" then configLedsFromJson value
    else if key = "signal_generator" then configSignalGeneratorFromJson value
    else throw (.status (.ofCString "LUCIDACFrontPanel: Unknown configuration key"))

def configSelfToJson (s : FrontPanel) : List (String × Json) :=
  [("leds", .integer s.leds.toNat), ("signal_generator", s.signalGenerator.configToJson)]

end FrontPanel

end Lucidac
