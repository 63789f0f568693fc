import Mathlib.Algebra.Order.Field.Rat
import Mathlib.Data.Fintype.Pi
import Lucidac.Entity.ResetAction
import Lucidac.Framework.Program
import Lucidac.Utils.Json

/-!
# The U block

The U block connects each of 32 outputs to at most one of 16 inputs.  Two sides feed the lanes:
input 15 of the outputs below 16 and input 14 of the other outputs belong to the B side, every
other lane to the A side.  Each side transmits either the block inputs or one shared reference.
-/

namespace Lucidac

inductive ReferenceMagnitude where
  | one
  | oneTenth
deriving DecidableEq

inductive TransmissionMode where
  | analogInput
  | posRef
  | negRef
  | ground
deriving DecidableEq

/-- The in-memory state of `blocks::UBlock`; a negative map entry is an open output. -/
structure UBlock where
  outputInputMap : Fin 32 → Int
  refMagnitude : ReferenceMagnitude
  aSideMode : TransmissionMode
  bSideMode : TransmissionMode
deriving DecidableEq

namespace UBlock

def numOfInputs : Nat := 16

def numOfOutputs : Nat := 32

def iSanityCheck (input : Nat) : Bool := input < numOfInputs

/-- First guard of `connect`: the lane is fed from the A side. -/
def aSideLane (input output : Nat) : Bool :=
  (output < 16 && input != 15) || (16 ≤ output && input != 14)

/-- Second guard of `connect`: the lane is fed from the B side. -/
def bSideLane (input output : Nat) : Bool :=
  (output < 16 && input == 15) || (16 ≤ output && input == 14)

/-- `_connect`, without sanity checks. -/
def connectUnchecked (s : UBlock) (input : Nat) (output : Fin 32) : UBlock :=
  { s with outputInputMap := Function.update s.outputInputMap output input }

/-- `_disconnect`, without sanity checks. -/
def disconnectUnchecked (s : UBlock) (output : Fin 32) : UBlock :=
  { s with outputInputMap := Function.update s.outputInputMap output (-1) }

def isOutputConnectedUnchecked (s : UBlock) (output : Fin 32) : Bool :=
  0 ≤ s.outputInputMap output

def isOutputConnected (s : UBlock) (output : Nat) : Bool :=
  if h : output < 32 then s.isOutputConnectedUnchecked ⟨output, h⟩ else false

def isConnectedUnchecked (s : UBlock) (input : Nat) (output : Fin 32) : Bool :=
  s.outputInputMap output == input

def isConnected (s : UBlock) (input output : Nat) : Bool :=
  if h : output < 32 then iSanityCheck input && s.isConnectedUnchecked input ⟨output, h⟩
  else false

/-- `_is_input_connected`: some map entry names the input. -/
def isInputConnectedUnchecked (s : UBlock) (input : Nat) : Bool :=
  decide (∃ output, s.outputInputMap output = input)

def isInputConnected (s : UBlock) (input : Nat) : Bool :=
  iSanityCheck input && s.isInputConnectedUnchecked input

def changeASideTransmissionMode (s : UBlock) (mode : TransmissionMode) : UBlock :=
  { s with aSideMode := mode }

def changeBSideTransmissionMode (s : UBlock) (mode : TransmissionMode) : UBlock :=
  { s with bSideMode := mode }

def changeAllTransmissionModes (s : UBlock) (modes : TransmissionMode × TransmissionMode) :
    UBlock :=
  (s.changeASideTransmissionMode modes.1).changeBSideTransmissionMode modes.2

def getAllTransmissionModes (s : UBlock) : TransmissionMode × TransmissionMode :=
  (s.aSideMode, s.bSideMode)

def changeReferenceMagnitude (s : UBlock) (ref : ReferenceMagnitude) : UBlock :=
  { s with refMagnitude := ref }

def resetReferenceMagnitude (s : UBlock) : UBlock := s.changeReferenceMagnitude .one

def resetConnections (s : UBlock) : UBlock := { s with outputInputMap := fun _ => -1 }

def initial : UBlock := ⟨fun _ => -1, .one, .analogInput, .analogInput⟩

def reset (s : UBlock) (action : ResetAction) : UBlock :=
  if action.has ResetAction.circuitReset then
    ((s.changeAllTransmissionModes (.analogInput, .analogInput)).resetConnections).resetReferenceMagnitude
  else s

def connect (s : UBlock) (input output : Nat) (force : Bool) : Bool × UBlock :=
  if h : iSanityCheck input = true ∧ output < 32 then
    if !force && s.isOutputConnectedUnchecked ⟨output, h.2⟩ then (false, s)
    else
      let changeA := s.aSideMode != .analogInput && aSideLane input output
      if changeA && !force && s.isInputConnected input then (false, s)
      else
        let s₁ := if changeA then s.changeASideTransmissionMode .analogInput else s
        let changeB := s₁.bSideMode != .analogInput && bSideLane input output
        if changeB && !force && s₁.isInputConnected input then (false, s₁)
        else
          let s₂ := if changeB then s₁.changeBSideTransmissionMode .analogInput else s₁
          (true, s₂.connectUnchecked input ⟨output, h.2⟩)
  else (false, s)

/-- The substitute input of `connect_alternative`: one to one where possible, else input zero. -/
def alternativeInput (output : Nat) (useASide : Bool) : Nat :=
  if useASide then
    if output < 15 then output
    else if output = 15 then 0
    else if output = 30 then 0
    else output - 16
  else if output < 16 then 15
  else 14

def connectAlternative (s : UBlock) (signalMode : TransmissionMode) (output : Nat)
    (force useASide : Bool) : Bool × UBlock :=
  if h : output < 32 then
    if signalMode = .analogInput then (false, s)
    else if (signalMode = .posRef ∨ signalMode = .negRef) ∧ s.refMagnitude ≠ .one ∧ force = false then
      (false, s)
    else if !force && s.isOutputConnectedUnchecked ⟨output, h⟩ then (false, s)
    else
      let changeA := s.aSideMode != signalMode && useASide
      if changeA && !force then (false, s)
      else
        let s₁ := if changeA then s.changeASideTransmissionMode signalMode else s
        let changeB := s₁.bSideMode != signalMode && !useASide
        if changeB && !force && (s₁.isInputConnected 14 || s₁.isInputConnected 15) then (false, s₁)
        else
          let s₂ := if changeB then s₁.changeBSideTransmissionMode signalMode else s₁
          (true, s₂.connectUnchecked (alternativeInput output useASide) ⟨output, h⟩)
  else (false, s)

/-- `UBlock::disconnect(input, output)`. -/
def disconnectInput (s : UBlock) (input output : Nat) : Bool × UBlock :=
  if h : iSanityCheck input = true ∧ output < 32 then
    if s.isConnectedUnchecked input ⟨output, h.2⟩ then
      (true, s.disconnectUnchecked ⟨output, h.2⟩)
    else (false, s)
  else (false, s)

def disconnect (s : UBlock) (output : Nat) : Bool × UBlock :=
  if h : output < 32 then (true, s.disconnectUnchecked ⟨output, h⟩) else (false, s)

section Configuration

open Framework

/-- Array form of `_config_outputs_from_json`: every output is given. -/
def configOutputArray (outputs : List Json) : EStateM ConfigError UBlock PUnit := do
  require (outputs.length == numOfOutputs) (.status (.ofString
    s!"Nblock: Wrong number of configuration elements. Given {outputs.length}, expected {numOfOutputs}"))
  modify resetConnections
  forM outputs.zipIdx fun (input, idx) =>
    if input.isNull then pure ⟨⟩
    else do
      require input.isUInt8 (.status (.ofCString "UBlock: Input is not an integer"))
      attempt (fun s => s.connect input.asUInt8 idx false)
        (.status (.ofCString "UBlock: Cannot connect input at idx"))

/-- Object form of `_config_outputs_from_json`: the named outputs are cleared, then connected. -/
def configOutputObject (outputs : List (String × Json)) : EStateM ConfigError UBlock PUnit := do
  forM outputs fun (key, value) => do
    require (value.isUInt8 || value.isNull) (.status (.ofString
      s!"UBlock: Given input is not a number '{value.asCString}'"))
    let output ← readIndex key
    modify fun s => (s.disconnect (output % 256)).2
  forM outputs fun (key, value) => do
    let output ← readIndex key
    if value.isNull then pure ⟨⟩
    else attempt (fun s => s.connect value.asUInt8 (output % 256) false) (.status (.ofString
      s!"UBlock: Could not connect {value.asUInt8} -> {output}"))

def configOutputsFromJson : Json → EStateM ConfigError UBlock PUnit
  | .array outputs => configOutputArray outputs
  | .object outputs => configOutputObject outputs
  | _ => throw (.status (.ofCString "UBlock either requires array or object configuration"))

/-- `0.1f` -/
def tenth : ℚ := 13421773 / 134217728

/-- The `float` that `_config_constants_from_json` compares. -/
def constantValue (parseNumber : String → ℚ) (cfg : Json) : ℚ :=
  if cfg.isNull then 0
  else if cfg.isBool then if cfg.asBool then 1 else 0
  else Json.toFloat (cfg.asFloat parseNumber)

/-- `UBlock::_config_constants_from_json`.  The branch for zero builds a success status without
returning it, so the magnitude checks below run for zero as well. -/
def configConstantsFromJson (parseNumber : String → ℚ) (cfg : Json) :
    EStateM ConfigError UBlock PUnit := do
  let constant := constantValue parseNumber cfg
  modify fun s => if constant = 0 then
    (s.changeBSideTransmissionMode .analogInput).resetReferenceMagnitude else s
  modify fun s => if 0 < constant then s.changeBSideTransmissionMode .posRef else s
  modify fun s => if constant < 0 then s.changeBSideTransmissionMode .negRef else s
  if |constant| = tenth then modify fun s => s.changeReferenceMagnitude .oneTenth
  else if |constant| = 1 then modify fun s => s.changeReferenceMagnitude .one
  else throw (.status (.ofCString "UBlock::config_self_from_json: Pass +-0.1 or +-1."))

def configSelfFromJson (parseNumber : String → ℚ) (cfg : List (String × Json)) :
    EStateM ConfigError UBlock PUnit :=
  forM cfg fun (key, value) =>
    if key = "outputs" then configOutputsFromJson value
    else if key = "constant" then configConstantsFromJson parseNumber value
    else throw (.status (.ofCString "UBlock: Unknown configuration key"))

/-- One element of the array that `config_self_to_json` writes. -/
def entryToJson (entry : Int) : Json := if 0 ≤ entry then .integer entry else .null

/-- The constant that `config_self_to_json` writes. -/
def constantToJson (s : UBlock) : Json :=
  match s.bSideMode with
  | .analogInput => .bool false
  | mode =>
    let val : ℚ := match mode with
      | .posRef => 1
      | .negRef => -1
      | .ground => 0
      | .analogInput => -123
    .float (if s.refMagnitude = .oneTenth then val * tenth else val)

def configSelfToJson (s : UBlock) : List (String × Json) :=
  [("outputs", .array (List.ofFn fun output => entryToJson (s.outputInputMap output))),
    ("constant", constantToJson s)]

end Configuration

end UBlock

end Lucidac
