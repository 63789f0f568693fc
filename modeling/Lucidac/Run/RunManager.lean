import Lucidac.Daq.ContinuousDAQ
import Lucidac.Framework.TicketQueue
import Lucidac.Utils.Json

/-!
# The run queue

Runs are submitted by messages, wait in a queue and are executed from the main loop, one for each
pass.  A repetitive run stays at the front until it is told to end.  Handlers and the execution of
a run do not interrupt each other.
-/

namespace Lucidac.RunQueue

open Framework

variable (parseNumber : String → ℚ)

structure RunConfig where
  icTime : BitVec 64 := 100000
  opTime : BitVec 64 := 500000000
  haltOnOverload : Bool := false
  streaming : Bool := false
  repetitive : Bool := false
  writeRunStateChanges : Bool := true
  calibrate : Bool := false

/-- `if(json.containsKey(key)) field = json[key];` -/
private def flag (json : Json) (key : String) (default : Bool) : Bool :=
  if json.containsKey key then (json.member key).asBool else default

def RunConfig.fromJson (json : Json) : RunConfig :=
  let number := fun key => BitVec.ofNat 64 ((json.member key).asUnsigned 64 parseNumber)
  let default : RunConfig := {}
  { icTime := number "ic_time" + number "ic_time_ns" + 1000 * number "ic_time_us" +
      1000000 * number "ic_time_ms"
    opTime := number "op_time" + number "op_time_ns" + 1000 * number "op_time_us" +
      1000000 * number "op_time_ms"
    haltOnOverload := flag json "halt_on_overload" default.haltOnOverload
    streaming := flag json "streaming" default.streaming
    repetitive := flag json "repetitive" default.repetitive
    writeRunStateChanges := flag json "write_run_state_changes" default.writeRunStateChanges
    calibrate := flag json "calibrate" default.calibrate }

/-- `daq::DAQConfig::from_json`: options of the wrong type keep their default. -/
def daqConfigFromJson (json : Json) : Daq.DAQConfig :=
  let channels := json.member "num_channels"
  let rate := json.member "sample_rate"
  { numChannels := if channels.isUInt32 then
      BitVec.ofNat 8 (if channels.isUInt8 then channels.asUInt8 else 0) else 8
    sampleRate := if rate.isUInt32 then BitVec.ofNat 32 rate.asUInt32 else 400000
    sampleOp := (json.member "sample_op").boolOr true
    sampleOpEnd := (json.member "sample_op_end").boolOr true }

inductive RunState where
  | new | error | done | queued | takeOff | ic | op | opEnd | tmpHalt
deriving DecidableEq

structure RunStateChange where
  t : BitVec 64
  old : RunState
  new : RunState
deriving DecidableEq

structure Run where
  id : String
  config : RunConfig
  daqConfig : Daq.DAQConfig

namespace Run

/-- The identifier of the message is a text, `start_run` has checked it. -/
def fromJson (json : Json) : Run :=
  let id := match json.member "id" with
    | .string s => s
    | _ => ""
  { id := if id.utf8ByteSize ≠ 32 + 4 then "xxxxxxxx-xxxx-xxxx-xxxx-xxxxxxxxxxxx" else id
    config := RunConfig.fromJson parseNumber (json.member "config")
    daqConfig := daqConfigFromJson (json.member "daq_config") }

/-- `Run::to` for the copy of a queued run that is executed: it is new, and changes its state once,
when it has ended.  The time is an `unsigned int`. -/
def toState (newState : RunState) (t : BitVec 32) : RunStateChange :=
  { t := t.setWidth 64, old := .new, new := newState }

def isRepetitive (run : Run) : Bool := run.config.repetitive

def endRepetition (run : Run) : Run := { run with config.repetitive := false }

@[simp] theorem isRepetitive_endRepetition (run : Run) :
    run.endRepetition.isRepetitive = false := rfl

@[simp] theorem endRepetition_endRepetition (run : Run) :
    run.endRepetition.endRepetition = run.endRepetition := rfl

end Run

structure RunManager where
  queue : List Run

namespace RunManager

/-- Returns true on success. -/
def endRepetitiveRuns (m : RunManager) : Bool × RunManager :=
  match m.queue with
  | [] => (false, m)
  | front :: rest => (true, { m with queue := front.endRepetition :: rest })

def clearQueue (m : RunManager) : RunManager := { m with queue := [] }

/-- Executes a copy of the front, which is the run that is returned, and pops the queue unless
that copy is repetitive.  There is no front of an empty queue. -/
def runNext (m : RunManager) : Option (Run × RunManager) :=
  match m.queue with
  | [] => none
  | run :: rest => some (run, if !run.isRepetitive then { m with queue := rest } else m)

end RunManager

/-- `msg_in.containsKey(key) && msg_in[key].as<bool>()` -/
def requests (msgIn : Json) (key : String) : Bool :=
  msgIn.containsKey key && (msgIn.member key).asBool

/-- Whether the message carries an identifier, without which `start_run` returns at once. -/
def accepts (msgIn : Json) : Bool := msgIn.containsKey "id" && (msgIn.member "id").isString

def RunManager.startRun (msgIn : Json) (m : RunManager) : Int × RunManager :=
  if !accepts msgIn then (1, m)
  else
    let m := if requests msgIn "end_repetitive" then m.endRepetitiveRuns.2 else m
    let m := if requests msgIn "clear_queue" then m.clearQueue else m
    (0, { m with queue := m.queue ++ [Run.fromJson parseNumber msgIn] })

/-- `MessageHandler::error` -/
def error (resultPrefix internalCode : Int) : Int :=
  if internalCode = 0 then 0 else resultPrefix + internalCode

def startRunRequestHandler (msgIn : Json) (m : RunManager) : Int × RunManager :=
  ((error 700 (m.startRun parseNumber msgIn).1), (m.startRun parseNumber msgIn).2)

def stopRunRequestHandler (m : RunManager) : Int × RunManager :=
  ((error 780 (if m.endRepetitiveRuns.1 then 0 else 1)), m.endRepetitiveRuns.2)

/-! ### The main loop -/

/-- What the main loop does next. -/
inductive Event where
  | startRun (msgIn : Json)
  | stopRun
  | processOutOfBandHandlers

/-- The queue and the runs executed so far. -/
structure Session where
  manager : RunManager
  executed : List Run

namespace Session

def start : Session := ⟨⟨[]⟩, []⟩

def processOutOfBandHandlers (s : Session) : Option Session :=
  if !s.manager.queue.isEmpty then
    s.manager.runNext.map fun next => ⟨next.2, s.executed ++ [next.1]⟩
  else some s

/-- `none` stands for the front of an empty queue. -/
def step (s : Session) : Event → Option Session
  | .startRun msgIn => some { s with manager := (startRunRequestHandler parseNumber msgIn s.manager).2 }
  | .stopRun => some { s with manager := (stopRunRequestHandler s.manager).2 }
  | .processOutOfBandHandlers => s.processOutOfBandHandlers

def run (s : Session) (events : List Event) : Option Session :=
  events.foldlM (step parseNumber) s

end Session

/-! ### Submissions -/

/-- Runs in the queue with the number of their submission. -/
abbrev Ledger := TicketQueue Run

namespace Event

/-- The run that the message adds to the queue. -/
def submission : Event → Option Run
  | .startRun msgIn => if accepts msgIn then some (Run.fromJson parseNumber msgIn) else none
  | .stopRun => none
  | .processOutOfBandHandlers => none

def ops : Event → List (QueueOp Run)
  | .startRun msgIn =>
    if accepts msgIn then
      (if requests msgIn "end_repetitive" then [.release] else []) ++
        (if requests msgIn "clear_queue" then [.clear] else []) ++
          [.push (Run.fromJson parseNumber msgIn)]
    else []
  | .stopRun => [.release]
  | .processOutOfBandHandlers => [.serve]

end Event

namespace Ledger

def step (ledger : Ledger) (event : Event) : Ledger :=
  TicketQueue.run Run.isRepetitive Run.endRepetition ledger (event.ops parseNumber)

def run (ledger : Ledger) (events : List Event) : Ledger :=
  events.foldl (step parseNumber) ledger

/-- The session that the ledger describes. -/
def session (ledger : Ledger) : Session :=
  ⟨⟨ledger.waiting.map Ticket.item⟩, ledger.served.map Ticket.item⟩

end Ledger

end Lucidac.RunQueue
