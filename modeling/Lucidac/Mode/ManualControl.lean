import Lucidac.Framework.Interleaving
import Lucidac.Mode.StateMachine
import Lucidac.Utils.Json

/-!
# Manual control

IC and OP can also be chosen by hand: over two plain output pins as long as the state machine was
not set up, and by the state machine itself, stopped, from then on.  The two signals must never be
active together, whoever drives them.
-/

namespace Lucidac.FlexIOControl

open Framework (Running Turn)
open Counters (Mode)

section Model

inductive ModePin where
  | ic | op
deriving DecidableEq

namespace ModePin

def number : ModePin → BitVec 8
  | .ic => pinModeIc
  | .op => pinModeOp

def other : ModePin → ModePin
  | .ic => .op
  | .op => .ic

/-- "FlexIO 3:4" and "FlexIO 3:5" -/
def flexPin : ModePin → Nat
  | .ic => 4
  | .op => 5

end ModePin

/-- The pins as general inputs and outputs. -/
structure Gpio where
  high : ModePin → Bool
  output : ModePin → Bool

structure Board where
  machine : Machine
  gpio : Gpio

/-- One write to the pins, the registers of the module or the stopwatches. -/
inductive Write where
  | level (pin : ModePin) (high : Bool)
  /-- `pinMode`, which also takes the pin back from the module. -/
  | direction (pin : ModePin) (output : Bool)
  | shiftstate (phase : Phase)
  | disable
  /-- `CTRL |= FLEXIO_CTRL_SWRST` clears all registers of the module, and IDLE is state zero. -/
  | softwareReset
  /-- All writes of `init` at once; the module is stopped until the last one. -/
  | init (icTimeNs opTimeNs : BitVec 64) (onOverload : OnOverload) (onExtHalt : OnExtHalt)
      (sync : Sync)
  | mode (micros : BitVec 32) (mode : Mode)

namespace Board

variable (flexio : FlexIOHandler) (fuel : Nat)

def mapControl (f : FlexIOControl → FlexIOControl) (b : Board) : Board :=
  { b with machine := { b.machine with control := f b.machine.control } }

/-- `init` ends with the clock of the board, see `isSome_init`. -/
def perform : Write → Board → Board
  | .level pin high, b =>
    { b with gpio := { b.gpio with high := Function.update b.gpio.high pin high } }
  | .direction pin output, b =>
    { b.mapControl fun c => { c with flexPins := c.flexPins.filter (· ≠ pin.number) } with
      gpio := { b.gpio with output := Function.update b.gpio.output pin output } }
  | .shiftstate phase, b => { b with machine := { b.machine with shiftstate := phase.state } }
  | .disable, b => { b with machine := b.machine.disable }
  | .softwareReset, b =>
    { b with machine :=
      { b.machine with
        control := { b.machine.control with timcmp := fun _ => 0, shiftbuf := fun _ => 0 }
        shiftstate := sIdle } }
  | .init icTimeNs opTimeNs onOverload onExtHalt sync, b =>
    match init flexio fuel icTimeNs opTimeNs onOverload onExtHalt sync b.machine.control with
    | some (_, control) => b.mapControl fun _ => control
    | none => b
  | .mode micros mode, b =>
    { b with machine := { b.machine with counter := b.machine.counter.toMode micros mode } }

def tick (t : Tick) (b : Board) : Board := { b with machine := b.machine.tick t }

/-- A pin is active when it is driven low: by the module, when the pin was given to it and the word of
its state was written, or as a plain output.  `init` writes `PINCFG(3)` just in front of the words of
the states, none of which is zero. -/
def active (pin : ModePin) (b : Board) : Bool :=
  if pin.number ∈ b.machine.control.flexPins then
    b.machine.control.shiftbuf b.machine.shiftstate ≠ 0 && !b.machine.outputs.getLsbD pin.flexPin
  else b.gpio.output pin && !b.gpio.high pin

end Board

namespace ManualControl

def init : List Write :=
  [.level .ic true, .level .op true, .direction .ic true, .direction .op true, .level .ic true,
    .level .op true]

variable (micros : BitVec 32)

def toIc : List Write := [.level .op true, .level .ic false, .mode micros .ic]

def toOp : List Write := [.level .ic true, .level .op false, .mode micros .op]

def toHalt : List Write := [.level .ic true, .level .op true, .mode micros .halt]

end ManualControl

/-- The writes of `Machine.toIdle` and its siblings. -/
def toPhase (phase : Phase) (mode : Mode) (micros : BitVec 32) : List Write :=
  [.shiftstate phase, .mode micros mode]

namespace RealManualControl

variable (micros : BitVec 32) (b : Board)

def enable : List Write :=
  if b.machine.control.isInitialized ∧ b.machine.control.isEnabled then [.disable] else []

def toIc : List Write :=
  enable b ++
    if b.machine.control.isInitialized then toPhase .ic .ic micros else ManualControl.toIc micros

def toOp : List Write :=
  enable b ++
    if b.machine.control.isInitialized then toPhase .op .op micros else ManualControl.toOp micros

def toHalt : List Write :=
  enable b ++
    if b.machine.control.isInitialized then toPhase .idle .halt micros
    else ManualControl.toHalt micros

end RealManualControl

namespace ManualControlHandler

variable (micros : BitVec 32) (queueEmpty : Bool) (b : Board)

/-- `can_manual_control`, zero when it can. -/
def canManualControl : Nat :=
  if !queueEmpty then 1
  else if b.machine.control.isEnabled && !b.machine.isDone && !b.machine.isIdle then 3
  else 0

/-- "setting IC/OP pins to input (floating)" -/
def toMinion : List Write := [.direction .ic false, .direction .op false]

/-- The result code without its prefix, and what is written. -/
def handle (msgIn : Json) : Nat × List Write :=
  let code := canManualControl queueEmpty b
  if code ≠ 0 then (code, [])
  else match msgIn.member "to" with
    | .string "ic" => (0, RealManualControl.toIc micros b)
    | .string "op" => (0, RealManualControl.toOp micros b)
    | .string "halt" => (0, RealManualControl.toHalt micros b)
    | .string "minion" => (0, toMinion)
    | _ => (10, [])

end ManualControlHandler

/-- What the firmware calls, with the time of the call where it is read. -/
inductive Operation where
  | manualInit
  | manual (mode : Mode) (micros : BitVec 32)
  | realEnable
  | real (mode : Mode) (micros : BitVec 32)
  | forceStart (micros : BitVec 32)
  | toIdle (micros : BitVec 32)
  | toOp (micros : BitVec 32)
  | toExthalt (micros : BitVec 32)
  | toEnd (micros : BitVec 32)
  /-- `run_next_flexio` up to the start. -/
  | setUpRun (icTimeNs opTimeNs : BitVec 64) (onOverload : OnOverload)
  | message (msgIn : Json) (queueEmpty : Bool) (micros : BitVec 32)

def Operation.program (b : Board) : Operation → List Write
  | .manualInit => ManualControl.init
  | .manual .ic micros => ManualControl.toIc micros
  | .manual .op micros => ManualControl.toOp micros
  | .manual .halt micros => ManualControl.toHalt micros
  | .realEnable => RealManualControl.enable b
  | .real .ic micros => RealManualControl.toIc micros b
  | .real .op micros => RealManualControl.toOp micros b
  | .real .halt micros => RealManualControl.toHalt micros b
  | .forceStart micros => toPhase .ic .ic micros
  | .toIdle micros => toPhase .idle .halt micros
  | .toOp micros => toPhase .op .op micros
  | .toExthalt micros => toPhase .exthalt .halt micros
  | .toEnd micros => toPhase .done .halt micros
  | .setUpRun icTimeNs opTimeNs onOverload =>
    [.disable, .softwareReset, .init icTimeNs opTimeNs onOverload .ignore .none]
  | .message msgIn queueEmpty micros =>
    (ManualControlHandler.handle micros queueEmpty b msgIn).2

/-- After reset every pin is an input; `setup` calls `init` with the default times and goes on
whatever the answer is. -/
def Board.setUp (flexio : FlexIOHandler) (fuel : Nat) (counter : Counters.PerformanceCounter) :
    Board :=
  Board.perform flexio fuel (.init defaultIcTime defaultOpTime .halt .ignore .none)
    ⟨⟨.afterReset, sIdle, counter⟩, ⟨fun _ => false, fun _ => false⟩⟩

/-- The board after any calls of the firmware, with ticks of the timers between any two writes. -/
def Board.turns (flexio : FlexIOHandler) (fuel : Nat) (b : Board)
    (ts : List (Turn Tick Operation)) : Running Board Write :=
  Running.turns (Board.perform flexio fuel) Board.tick (fun o b => o.program b) ⟨b, []⟩ ts

end Model

end Lucidac.FlexIOControl
