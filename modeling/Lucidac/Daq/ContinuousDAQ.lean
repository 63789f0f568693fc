import Mathlib.Logic.Function.Basic

/-!
# Continuous data acquisition

The DMA writes one sample vector after the other into a ring buffer and raises an interrupt when
it has filled the first half and when it has filled all of it.  `stream` hands full halves to the
run data handler while the run lasts, and a last call hands over what remains.  Samples are
represented by their number in the run.
-/

namespace Lucidac.Daq

structure DAQConfig where
  numChannels : BitVec 8
  sampleRate : BitVec 32
  sampleOp : Bool
  sampleOpEnd : Bool

namespace DAQConfig

def isValid (config : DAQConfig) : Bool :=
  if 1000000 < (config.sampleRate * config.numChannels.setWidth 32).toNat ∨
      config.sampleRate.toNat < 32 then false
  else if 0 < config.numChannels.toNat ∧ config.numChannels &&& (config.numChannels - 1) ≠ 0 then
    false
  else true

/-- `operator bool`. -/
def isActive (config : DAQConfig) : Bool :=
  config.numChannels != 0 && (config.sampleOp || config.sampleOpEnd)

end DAQConfig

def bufferSize : Nat := 32 * 8

def ringLength (config : DAQConfig) : Nat := bufferSize / config.numChannels.toNat

/-- Vectors in half of the ring buffer, the default of `outer_count`. -/
def halfLength (config : DAQConfig) : Nat := bufferSize / config.numChannels.toNat / 2

/-- One call of `RunDataHandler::handle`: word offset and vector count, and the samples found
there at that moment. -/
structure HandledBlock where
  offset : Nat
  outerCount : BitVec 32
  vectors : List (Option Nat)

/-- The DMA channel with its buffer and flags, the function-static pointer of `stream` as a word
offset, and what the present run produced and handed over so far. -/
structure Device where
  biter : Nat
  citer : Nat
  buffer : Nat → Option Nat
  firstData : Bool
  lastData : Bool
  overflowData : Bool
  partialBufferPart : Nat
  produced : Nat
  handled : List HandledBlock

namespace Device

def boot : Device := ⟨0, 0, fun _ => none, false, false, false, 0, 0, []⟩

def interrupt (dev : Device) : Device :=
  if dev.citer ≠ dev.biter then
    { dev with overflowData := dev.overflowData || dev.firstData, firstData := true }
  else { dev with overflowData := dev.overflowData || dev.lastData, lastData := true }

/-- One major loop of the DMA: a vector is stored, the iteration count falls and is reloaded at
zero, and half and completion raise the interrupt, whose routine is part of the step. -/
def transfer (dev : Device) : Device :=
  let stored := { dev with
    buffer := Function.update dev.buffer (dev.biter - dev.citer) (some dev.produced)
    produced := dev.produced + 1 }
  if dev.citer - 1 = 0 then interrupt { stored with citer := dev.biter }
  else if dev.citer - 1 = dev.biter / 2 then interrupt { stored with citer := dev.citer - 1 }
  else { stored with citer := dev.citer - 1 }

def handle (config : DAQConfig) (offset : Nat) (outerCount : BitVec 32) (dev : Device) : Device :=
  { dev with handled := dev.handled ++ [⟨offset, outerCount,
      (List.range outerCount.toNat).map fun i =>
        dev.buffer (offset / config.numChannels.toNat + i)⟩] }

def getNumberOfDataVectorsInBuffer (dev : Device) : BitVec 32 :=
  BitVec.ofNat 32 dev.biter - BitVec.ofNat 32 dev.citer

def stream (config : DAQConfig) (atEnd : Bool) (dev : Device) : Bool × Device :=
  if !config.isActive then (true, dev)
  else if dev.overflowData then (false, dev)
  else
    let outerCount := BitVec.ofNat 32 (halfLength config)
    if dev.firstData then
      (true, handle config 0 outerCount
        { dev with partialBufferPart := bufferSize / 2, firstData := false })
    else if dev.lastData then
      (true, handle config (bufferSize / 2) outerCount
        { dev with partialBufferPart := 0, lastData := false })
    else if atEnd then
      let outerCount := if dev.partialBufferPart = 0 then dev.getNumberOfDataVectorsInBuffer
        else dev.getNumberOfDataVectorsInBuffer - outerCount
      if outerCount = 0 then (true, dev)
      else (true, handle config dev.partialBufferPart outerCount dev)
    else (true, dev)

/-- `FlexIODAQ::reset`; a new run starts counting. -/
def reset (dev : Device) : Device :=
  { dev with
    buffer := fun _ => none
    firstData := false
    lastData := false
    overflowData := false
    produced := 0
    handled := [] }

/-- `FlexIODAQ::init`, as far as the DMA counters go. -/
def init (config : DAQConfig) (dev : Device) : Device :=
  { dev with biter := ringLength config, citer := ringLength config }

/-- `FlexIODAQ::finalize`, without the error flags of the hardware. -/
def finalize (config : DAQConfig) (dev : Device) : Bool := !config.isActive || !dev.overflowData

end Device

inductive Event where
  | transfer
  | stream

structure Run where
  config : DAQConfig
  events : List Event

/-- The device under the run loop; the loop is left when a call of `stream` fails. -/
structure Acquisition where
  dev : Device
  looping : Bool

namespace Acquisition

/-- An inactive configuration never enables the acquisition. -/
def step (config : DAQConfig) (s : Acquisition) : Event → Acquisition
  | .transfer => if config.isActive then { s with dev := s.dev.transfer } else s
  | .stream =>
    if s.looping then ⟨(s.dev.stream config false).2, (s.dev.stream config false).1⟩ else s

def steps (config : DAQConfig) (s : Acquisition) (events : List Event) : Acquisition :=
  events.foldl (step config) s

end Acquisition

namespace Run

def acquire (run : Run) (dev : Device) : Acquisition :=
  Acquisition.steps run.config ⟨dev.reset.init run.config, true⟩ run.events

/-- `RunManager::run_next_flexio`: an invalid configuration ends the run after the reset. -/
def execute (run : Run) (dev : Device) : Device :=
  if run.config.isValid then ((run.acquire dev).dev.stream run.config true).2 else dev.reset

/-- Neither a call of `stream` nor `finalize` reports an error. -/
def noOverflow (run : Run) (dev : Device) : Bool :=
  (run.acquire dev).looping && ((run.acquire dev).dev.stream run.config true).1 &&
    (run.execute dev).finalize run.config

end Run

def afterRuns (history : List Run) : Device := history.foldl (fun dev run => run.execute dev) .boot

end Lucidac.Daq
