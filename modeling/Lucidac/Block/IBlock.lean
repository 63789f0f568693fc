import Mathlib.Data.Fintype.Basic
import Mathlib.Logic.Function.Basic
import Lucidac.Block.IBlockHal
import Lucidac.Entity.ResetAction
import Lucidac.Utils.Json

/-!
# The I block

The I block sums 32 inputs into 16 outputs.  Every output keeps the set of its inputs as the bits
of a word, and every input may be scaled up by ten.
-/

namespace Lucidac

structure IBlock where
  outputs : Fin 16 → BitVec 32
  scalingFactors : Fin 32 → Bool

namespace IBlock

def numInputs : Nat := IBlockHal.numInputs

def numOutputs : Nat := IBlockHal.numOutputs

def inputBitmask (inputIdx : Nat) : BitVec 32 := IBlockHal.inputBitmask inputIdx

def initial : IBlock := ⟨fun _ => 0, fun _ => false⟩

/-- `_is_connected`, without range checks. -/
def isConnectedUnchecked (s : IBlock) (input : Nat) (output : Fin 16) : Bool :=
  (s.outputs output &&& inputBitmask input) != 0

def isConnected (s : IBlock) (input output : Nat) : Bool :=
  if h : output < 16 ∧ input < 32 then s.isConnectedUnchecked input ⟨output, h.1⟩ else false

def setOutput (s : IBlock) (output : Fin 16) (word : BitVec 32) : IBlock :=
  { s with outputs := Function.update s.outputs output word }

def connect (s : IBlock) (input output : Nat) (exclusive allowInputSplitting : Bool) :
    Bool × IBlock :=
  if h : output < 16 ∧ input < 32 then
    if !allowInputSplitting &&
        decide (∃ other : Fin 16, output ≠ other.val ∧ s.isConnected input other = true) then
      (false, s)
    else
      (true, s.setOutput ⟨output, h.1⟩ (if exclusive then inputBitmask input
        else s.outputs ⟨output, h.1⟩ ||| inputBitmask input))
  else (false, s)

/-- `disconnect(input, output)`. -/
def disconnectInput (s : IBlock) (input output : Nat) : Bool × IBlock :=
  if h : s.isConnected input output = true ∧ output < 16 then
    (true, s.setOutput ⟨output, h.2⟩ (s.outputs ⟨output, h.2⟩ &&& ~~~ inputBitmask input))
  else (false, s)

def disconnect (s : IBlock) (output : Nat) : Bool × IBlock :=
  if h : output < 16 then (true, s.setOutput ⟨output, h⟩ 0) else (false, s)

def resetOutputs (s : IBlock) : IBlock := { s with outputs := fun _ => 0 }

def setUpscaling (s : IBlock) (input : Nat) (upscale : Bool) : Bool × IBlock :=
  if h : input < 32 then
    (true, { s with scalingFactors := Function.update s.scalingFactors ⟨input, h⟩ upscale })
  else (false, s)

/-- `set_upscaling` with a whole bit set. -/
def setUpscales (s : IBlock) (scales : Fin 32 → Bool) : IBlock := { s with scalingFactors := scales }

def resetUpscaling (s : IBlock) : IBlock := { s with scalingFactors := fun _ => false }

def reset (s : IBlock) (action : ResetAction) : IBlock :=
  if action.has ResetAction.circuitReset then s.resetOutputs.resetUpscaling else s

section Configuration

open Framework

/-- `_connect_from_json`.  The source passes its JSON values to the formatter where the two
messages ask for numbers, so the messages stand here with their placeholders. -/
def connectFromJson (inputSpec : Json) (output : Nat) : EStateM ConfigError IBlock PUnit :=
  if inputSpec.isNull then pure ⟨⟩
  else match inputSpec with
    | .array inputs => forM inputs fun input => do
      require input.isUInt8 (.status (.ofCString "IBlock: input is not an integer"))
      attempt (fun s => s.connect input.asUInt8 output false false) (.status (.ofString
        "IBlock: Could not connect %d -> %d, probably out of bounds"))
    | _ => do
      require inputSpec.isUInt8 (.status (.ofCString
        "IBlock: Illegal data type in input specification"))
      attempt (fun s => s.connect inputSpec.asUInt8 output false false) (.status (.ofString
        "IBlock: Could not connect %d -> %d."))

/-- Object form of `_config_outputs_from_json`: only the named outputs are overwritten. -/
def configOutputObject (outputs : List (String × Json)) : EStateM ConfigError IBlock PUnit :=
  forM outputs fun (key, value) => do
    require (isNumber key) (.status (.ofString s!"IBlock: Expected number but key is '{key}'"))
    let output ← readIndex key
    attempt (fun s => s.disconnect (output % 256)) (.status (.ofString
      s!"IBlock: Could not disconnect output '{output}', probably out of range"))
    connectFromJson value (output % 256)

/-- Array form of `_config_outputs_from_json`: all outputs are overwritten. -/
def configOutputArray (outputs : List Json) : EStateM ConfigError IBlock PUnit := do
  require (outputs.length == numOutputs) (.status (.ofString
    s!"IBlock: Given array size {outputs.length} does not meet expected {numOutputs}"))
  modify resetOutputs
  forM outputs.zipIdx fun (inputSpec, idx) => connectFromJson inputSpec idx

def configOutputsFromJson : Json → EStateM ConfigError IBlock PUnit
  | .object outputs => configOutputObject outputs
  | .array outputs => configOutputArray outputs
  | _ => throw (.status (.ofCString "IBlock: Expected either array or object as configuration"))

/-- `IBlock::_config_upscaling_from_json`.  The object form returns after its first member, and
an empty object reaches the closing error. -/
def configUpscalingFromJson : Json → EStateM ConfigError IBlock PUnit
  | .object ((key, value) :: _) => do
    require value.isBool (.status (.ofCString "IBlock upscaling must be boolean"))
    let input ← readIndex key
    require (input ≤ numInputs) (.status (.ofCString "IBlock upscaling too many values"))
    modify fun s => (s.setUpscaling (input % 256) value.asBool).2
  | .array values => do
    require (values.length == numInputs) (.status (.ofCString
      "IBlock upscaling wrong number of inputs"))
    forM values.zipIdx fun (value, input) => do
      require value.isBool (.status (.ofCString "IBlock upscaling expecting boolean"))
      modify fun s => (s.setUpscaling input value.asBool).2
  | _ => throw (.status (.ofCString "IBlock upscaling: Either provide list or object"))

def configSelfFromJson (cfg : List (String × Json)) : EStateM ConfigError IBlock PUnit :=
  forM cfg fun (key, value) =>
    if key = "outputs" then configOutputsFromJson value
    else if key = "upscaling" then configUpscalingFromJson value
    else throw (.status (.ofCString "IBlock: Unknown configuration key"))

/-- One element of the "outputs" array that `config_self_to_json` writes. -/
def outputToJson (s : IBlock) (output : Fin 16) : Json :=
  if s.outputs output = 0 then .null
  else .array (((List.finRange 32).filter fun input : Fin 32 =>
    s.isConnectedUnchecked input output).map fun input => .integer input.val)

def configSelfToJson (s : IBlock) : List (String × Json) :=
  [("outputs", .array (List.ofFn s.outputToJson)),
    ("upscaling", .array (List.ofFn fun input => .bool (s.scalingFactors input)))]

end Configuration

end IBlock

end Lucidac
