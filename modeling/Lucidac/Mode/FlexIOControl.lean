import Lucidac.Utils.Factorize
import Mathlib.Data.BitVec
import Mathlib.Data.Fin.VecNotation

/-!
# The state machine in the input and output module

`mode::FlexIOControl` sequences a run without the processor: shifters hold the states, timers end
them.  A time is counted by one timer of sixteen bits or by two chained ones.
-/

namespace Lucidac

open Framework (divide)

inductive OnOverload where
  | ignore | halt
deriving DecidableEq

inductive OnExtHalt where
  | ignore | pauseThenRestart
deriving DecidableEq

inductive Sync where
  | none | master | slave
deriving DecidableEq

/-- What the library of the input and output module tells: the clock rate for the chosen settings
and the internal pin of an external one, `0xff` for none. -/
structure FlexIOHandler where
  computeClockRate : BitVec 32
  mapIOPinToFlexPin : BitVec 8 → BitVec 8

structure FlexIOControl where
  timcmp : Fin 8 → BitVec 32
  shiftbuf : Fin 8 → BitVec 32
  flexPins : List (BitVec 8)
  isInitialized : Bool
  isEnabled : Bool

namespace FlexIOControl

section Assignments

def pinModeIc : BitVec 8 := 40
def pinModeOp : BitVec 8 := 41
def pinModeOverload : BitVec 8 := 20
def pinModeExthalt : BitVec 8 := 21
def pinSyncClk : BitVec 8 := 22
def pinSyncId : BitVec 8 := 23

def sIdle : Fin 8 := 0
def sIc : Fin 8 := 1
def sOp : Fin 8 := 2
def sExthalt : Fin 8 := 3
def sEnd : Fin 8 := 4
def sOverload : Fin 8 := 5
def zSyncMatch : Fin 8 := 7

def tSyncClk : Fin 8 := 0
def tSyncTrigger : Fin 8 := 1
def tIc : Fin 8 := 2
def tIcSecond : Fin 8 := 3
def tOp : Fin 8 := 4
def tOpSecond : Fin 8 := 5
def tStateCheck : Fin 8 := 6

/-- "Put relevant pins into FlexIO mode" -/
def relevantPins : List (BitVec 8) :=
  [pinModeIc, pinModeOp, pinModeOverload, pinModeExthalt, pinSyncId, pinSyncClk]

end Assignments

def defaultIcTime : BitVec 64 := 100000
def defaultOpTime : BitVec 64 := 1000000

/-- `FLEXIO_STATE_SHIFTBUF`: the outputs of a state and its successor for each value of the three
inputs. -/
def stateShiftbuf (outputs : BitVec 8) (next : Fin 8 → Fin 8) : BitVec 32 :=
  let field := fun i : Fin 8 => BitVec.ofNat 32 (next i).val <<< (3 * i.val)
  outputs.setWidth 32 <<< 24 ||| field 7 ||| field 6 ||| field 5 ||| field 4 ||| field 3 |||
    field 2 ||| field 1 ||| field 0

def setTimcmp (timer : Fin 8) (compare : BitVec 32) (c : FlexIOControl) : FlexIOControl :=
  { c with timcmp := Function.update c.timcmp timer compare }

def setShiftbuf (shifter : Fin 8) (value : BitVec 32) (c : FlexIOControl) : FlexIOControl :=
  { c with shiftbuf := Function.update c.shiftbuf shifter value }

/-- The case for no synchronisation falls through to the others. -/
def configureIdle (sync : Sync) (c : FlexIOControl) : FlexIOControl :=
  let c := match sync with
    | .none => c.setShiftbuf sIdle (stateShiftbuf 0xff fun _ => sIdle)
    | .master | .slave => c
  c.setShiftbuf sIdle (stateShiftbuf 0xff fun _ => sIc)

/-- The compare values for a time, of the timer and of the second one behind it.  False when a
factor is too large for a timer. -/
def configureTimers (fuel : Nat) (first second : Fin 8) (clkFreqMHz : BitVec 32)
    (timeNs : BitVec 64) (c : FlexIOControl) : Option (Bool × FlexIOControl) := do
  let limit ← divide (0xFFFF * 1000) (clkFreqMHz.setWidth 64)
  let ticks := timeNs * clkFreqMHz.setWidth 64 / 1000
  if timeNs < limit then
    return (true, (c.setTimcmp first (ticks.setWidth 32)).setTimcmp second 0)
  else
    let factors ← factorize fuel ticks 10
    if (1 : BitVec 64) <<< 16 ≤ factors.1 ∨ (1 : BitVec 64) <<< 16 ≤ factors.2 then
      return (false, c)
    else
      return (true, (c.setTimcmp first ((factors.1 - 1).setWidth 32)).setTimcmp second
        (factors.2.setWidth 32))

/-- The successors of OP, for the inputs "time over", "no external halt" and "no overload". -/
def nextAfterOp (onOverload : OnOverload) (onExtHalt : OnExtHalt) : Fin 8 → Fin 8 :=
  let nextIfExthalt := match onExtHalt with
    | .ignore => sOp
    | .pauseThenRestart => sExthalt
  let nextIfOverload := match onOverload with
    | .ignore => sOp
    | .halt => sOverload
  let nextIfOverloadAndExthalt := match onOverload with
    | .ignore => nextIfExthalt
    | .halt => sOverload
  ![nextIfOverloadAndExthalt, nextIfExthalt, nextIfOverload, sOp, sEnd, sEnd, sEnd, sEnd]

def configureStates (onOverload : OnOverload) (onExtHalt : OnExtHalt) (c : FlexIOControl) :
    FlexIOControl :=
  let c := c.setShiftbuf sOp (stateShiftbuf 0xdf (nextAfterOp onOverload onExtHalt))
  let c := c.setShiftbuf sEnd (stateShiftbuf 0xff fun _ => sEnd)
  let c := c.setShiftbuf sOverload (stateShiftbuf 0xff fun _ => sOverload)
  c.setShiftbuf sExthalt (stateShiftbuf 0xff
    ![sExthalt, sExthalt, sOp, sOp, sExthalt, sExthalt, sOp, sOp])

def setIOPinsToFlexMode (flexio : FlexIOHandler) :
    List (BitVec 8) → FlexIOControl → Bool × FlexIOControl
  | [], c => (true, c)
  | pin :: pins, c =>
    if flexio.mapIOPinToFlexPin pin = 0xff then (false, c)
    else setIOPinsToFlexMode flexio pins { c with flexPins := c.flexPins ++ [pin] }

def enable (c : FlexIOControl) : FlexIOControl := { c with isEnabled := true }

/-- `init` from the states of OP on. -/
def configureOp (flexio : FlexIOHandler) (fuel : Nat) (clkFreqMHz : BitVec 32)
    (opTimeNs : BitVec 64) (onOverload : OnOverload) (onExtHalt : OnExtHalt) (c : FlexIOControl) :
    Option (Bool × FlexIOControl) := do
  if opTimeNs < 100 ∨ 9000000000 < opTimeNs then return (false, c)
  let (fits, c) ← c.configureTimers fuel tOp tOpSecond clkFreqMHz opTimeNs
  if !fits then return (false, c)
  let c := c.configureStates onOverload onExtHalt
  let (mapped, c) := c.setIOPinsToFlexMode flexio relevantPins
  if !mapped then return (false, c)
  return (true, enable { c with isInitialized := true })

def init (flexio : FlexIOHandler) (fuel : Nat) (icTimeNs opTimeNs : BitVec 64)
    (onOverload : OnOverload) (onExtHalt : OnExtHalt) (sync : Sync) (c : FlexIOControl) :
    Option (Bool × FlexIOControl) := do
  let clkFreqMHz := flexio.computeClockRate / 1000000
  if flexio.mapIOPinToFlexPin pinSyncClk = 0xff then return (false, c)
  let c := c.setTimcmp tSyncClk 0xff00
  if flexio.mapIOPinToFlexPin pinSyncId = 0xff then return (false, c)
  let c := c.setShiftbuf zSyncMatch 0x550f0000
  let c := c.setTimcmp tSyncTrigger 0x100
  let c := c.configureIdle sync
  let c := c.setTimcmp tStateCheck 1
  if icTimeNs < 100 ∨ 9000000000 ≤ icTimeNs then return (false, c)
  let (fits, c) ← c.configureTimers fuel tIc tIcSecond clkFreqMHz icTimeNs
  if !fits then return (false, c)
  let c := c.setShiftbuf sIc (stateShiftbuf 0xef ![sIc, sIc, sIc, sIc, sOp, sOp, sOp, sOp])
  c.configureOp flexio fuel clkFreqMHz opTimeNs onOverload onExtHalt

/-- `get_actual_op_time`: the counters are promoted to `int`, and so is all that is computed. -/
def getActualOpTime (cntr1 cntr2 : BitVec 16) : BitVec 64 :=
  let ticks := cntr2.setWidth 32 * 0xFFFF + cntr1.setWidth 32
  ((ticks * 671).sdiv 100).signExtend 64

end FlexIOControl

end Lucidac
