import Lucidac.Framework.Bits
import Lucidac.Mode.FlexIOTimers
import Lucidac.Mode.PerformanceCounter
import Mathlib.Tactic.FinCases

/-!
# Runs of the state machine

Once the registers are written, the shifters step without the processor: at each tick of its timer
the state that is shown in `SHIFTSTATE` selects its successor with three of the pins.
-/

namespace Lucidac.FlexIOControl

open Framework (getLsbD_field getLsbD_field_above)
open Counters (PerformanceCounter)

section Registers

/-- The timer at whose ticks a state looks at its inputs, and the pin of the first of these. -/
structure Shiftctl where
  timsel : Fin 8
  pinsel : Nat

/-- `SHIFTCTL` of the states, as `init` writes it.  A field that is not named there is zero, and timer
zero is that of the clock. -/
def shiftctl (state : Fin 8) : Shiftctl :=
  if state = sIdle then ⟨tSyncTrigger, 0⟩
  else if state = sIc then ⟨tStateCheck, 15⟩
  else if state = sOp ∨ state = sExthalt then ⟨tStateCheck, 10⟩
  else ⟨tSyncClk, 0⟩

/-- "[8 bit outputs][3 bit next state]...": the upper bits drive the pins from 0 on. -/
def shiftbufOutputs (word : BitVec 32) : BitVec 8 := word.extractLsb' 24 8

/-- The successor for a value of the inputs. -/
def shiftbufNext (word : BitVec 32) (inputs : BitVec 3) : Fin 8 :=
  (word.extractLsb' (3 * inputs.toNat) 3).toFin

end Registers

/-- The module with the state it is in, and the stopwatches that are told of it. -/
structure Machine where
  control : FlexIOControl
  shiftstate : Fin 8
  counter : PerformanceCounter

/-- A tick of a timer, with the levels of the pins. -/
structure Tick where
  timer : Fin 8
  pins : BitVec 32

namespace Machine

section Operations

variable (micros : BitVec 32)

def tick (t : Tick) (m : Machine) : Machine :=
  let ctl := shiftctl m.shiftstate
  if m.control.isEnabled ∧ t.timer = ctl.timsel then
    { m with shiftstate :=
        shiftbufNext (m.control.shiftbuf m.shiftstate) (t.pins.extractLsb' ctl.pinsel 3) }
  else m

def ticks (ts : List Tick) (m : Machine) : Machine := ts.foldl (fun m t => m.tick t) m

/-- What the module drives. -/
def outputs (m : Machine) : BitVec 8 := shiftbufOutputs (m.control.shiftbuf m.shiftstate)

def disable (m : Machine) : Machine := { m with control := { m.control with isEnabled := false } }

def enable (m : Machine) : Machine := { m with control := m.control.enable }

def toIdle (m : Machine) : Machine :=
  { m with shiftstate := sIdle, counter := m.counter.toMode micros .halt }

def toIc (m : Machine) : Machine :=
  { m with shiftstate := sIc, counter := m.counter.toMode micros .ic }

def toOp (m : Machine) : Machine :=
  { m with shiftstate := sOp, counter := m.counter.toMode micros .op }

def toExthalt (m : Machine) : Machine :=
  { m with shiftstate := sExthalt, counter := m.counter.toMode micros .halt }

def toEnd (m : Machine) : Machine :=
  { m with shiftstate := sEnd, counter := m.counter.toMode micros .halt }

def forceStart (m : Machine) : Machine := m.toIc micros

def isIdle (m : Machine) : Bool := m.shiftstate = sIdle

def isOp (m : Machine) : Bool := m.shiftstate = sOp

def isDone (m : Machine) : Bool := m.shiftstate = sEnd || m.shiftstate = sOverload

def isOverloaded (m : Machine) : Bool := m.shiftstate = sOverload

def isExthalt (m : Machine) : Bool := m.shiftstate = sExthalt

end Operations

end Machine

section Words

variable (outputs : BitVec 8) (next : Fin 8 → Fin 8)

theorem getLsbD_stateShiftbuf_next (i : Fin 8) {j : Nat} (hj : j < 3) :
    (stateShiftbuf outputs next).getLsbD (3 * i.val + j) = (next i).val.testBit j := by
  have hfield : ∀ k : Fin 8, (BitVec.ofNat 32 (next k).val <<< (3 * k.val)).getLsbD
      (3 * i.val + j) = (decide (k = i) && (next k).val.testBit j) := by
    intro k
    rw [getLsbD_field k.val (next k).isLt hj (by omega), decide_eq_decide.mpr Fin.ext_iff]
  have hlow : (outputs.setWidth 32 <<< 24).getLsbD (3 * i.val + j) = false := by
    rw [BitVec.getLsbD_shiftLeft, decide_eq_true (show 3 * i.val + j < 24 by omega)]
    simp
  rw [stateShiftbuf]
  simp only [BitVec.getLsbD_or, hfield, hlow]
  fin_cases i <;> simp

theorem getLsbD_stateShiftbuf_outputs {j : Nat} (hj : j < 8) :
    (stateShiftbuf outputs next).getLsbD (24 + j) = outputs.getLsbD j := by
  have hfield : ∀ k : Fin 8,
      (BitVec.ofNat 32 (next k).val <<< (3 * k.val)).getLsbD (24 + j) = false := by
    intro k
    exact getLsbD_field_above k.val (next k).isLt (by omega)
  have hhigh : (outputs.setWidth 32 <<< 24).getLsbD (24 + j) = outputs.getLsbD j := by
    rw [BitVec.getLsbD_shiftLeft, BitVec.getLsbD_setWidth, decide_eq_true (by omega),
      decide_eq_false (by omega), Nat.add_sub_cancel_left, decide_eq_true (by omega)]
    rfl
  rw [stateShiftbuf]
  simp only [BitVec.getLsbD_or, hfield, hhigh, Bool.or_false]

@[simp] theorem shiftbufNext_stateShiftbuf (inputs : BitVec 3) :
    shiftbufNext (stateShiftbuf outputs next) inputs = next inputs.toFin := by
  have hfield : (stateShiftbuf outputs next).extractLsb' (3 * inputs.toNat) 3 =
      BitVec.ofFin (next inputs.toFin) := by
    apply BitVec.eq_of_getLsbD_eq
    intro j hj
    rw [BitVec.getLsbD_extractLsb', decide_eq_true hj, Bool.true_and]
    exact getLsbD_stateShiftbuf_next outputs next inputs.toFin hj
  exact congrArg BitVec.toFin hfield

@[simp] theorem shiftbufOutputs_stateShiftbuf :
    shiftbufOutputs (stateShiftbuf outputs next) = outputs := by
  apply BitVec.eq_of_getLsbD_eq
  intro j hj
  rw [shiftbufOutputs, BitVec.getLsbD_extractLsb', decide_eq_true hj, Bool.true_and,
    getLsbD_stateShiftbuf_outputs outputs next hj]

end Words

section Phases

/-- What a run goes through. -/
inductive Phase where
  | idle | ic | op | exthalt | done | overload
deriving DecidableEq

/-- How a run reacts to the two signals of its surroundings. -/
structure Policy where
  onOverload : OnOverload
  onExtHalt : OnExtHalt
deriving DecidableEq

def icOver (pins : BitVec 32) : Bool := pins.getLsbD 17
def opOver (pins : BitVec 32) : Bool := pins.getLsbD 12

/-- Both signals are active when low. -/
def overloaded (pins : BitVec 32) : Bool := !pins.getLsbD 10
def halted (pins : BitVec 32) : Bool := !pins.getLsbD 11

variable (policy : Policy) (pins : BitVec 32)

namespace Policy

/-- "Check with priority op-time-over > overload > ext halt" -/
def afterOp : Phase :=
  if opOver pins then .done
  else if policy.onOverload = .halt ∧ overloaded pins then .overload
  else if policy.onExtHalt = .pauseThenRestart ∧ halted pins then .exthalt
  else .op

end Policy

namespace Phase

def state : Phase → Fin 8
  | .idle => sIdle
  | .ic => sIc
  | .op => sOp
  | .exthalt => sExthalt
  | .done => sEnd
  | .overload => sOverload

/-- IC and OP are signalled by a low pin each. -/
def driven : Phase → BitVec 8
  | .ic => 0b11101111
  | .op => 0b11011111
  | .idle | .exthalt | .done | .overload => 0b11111111

/-- Four of the phases are left when a timer ticks, three of them after a look at the pins. -/
def tick (t : Tick) : Phase → Phase
  | .idle => if t.timer = tSyncTrigger then .ic else .idle
  | .ic => if t.timer = tStateCheck ∧ icOver t.pins then .op else .ic
  | .op => if t.timer = tStateCheck then policy.afterOp t.pins else .op
  | .exthalt => if t.timer = tStateCheck ∧ ¬ halted t.pins then .op else .exthalt
  | .done => .done
  | .overload => .overload

theorem state_injective : Function.Injective state := by
  intro p q h
  cases p <;> cases q <;> first | rfl | exact absurd h (by decide)

end Phase

/-- The words of the states after `init`. -/
structure Programmed (c : FlexIOControl) : Prop where
  idle : c.shiftbuf sIdle = stateShiftbuf 0xff fun _ => sIc
  ic : c.shiftbuf sIc = stateShiftbuf 0xef ![sIc, sIc, sIc, sIc, sOp, sOp, sOp, sOp]
  op : c.shiftbuf sOp = stateShiftbuf 0xdf (nextAfterOp policy.onOverload policy.onExtHalt)
  exthalt : c.shiftbuf sExthalt = stateShiftbuf 0xff
    ![sExthalt, sExthalt, sOp, sOp, sExthalt, sExthalt, sOp, sOp]
  done : c.shiftbuf sEnd = stateShiftbuf 0xff fun _ => sEnd
  overload : c.shiftbuf sOverload = stateShiftbuf 0xff fun _ => sOverload

variable {policy} in
theorem Programmed.congr {c c' : FlexIOControl} (h : Programmed policy c)
    (hsame : c'.shiftbuf = c.shiftbuf) : Programmed policy c' :=
  ⟨hsame ▸ h.idle, hsame ▸ h.ic, hsame ▸ h.op, hsame ▸ h.exthalt, hsame ▸ h.done,
    hsame ▸ h.overload⟩

end Phases

section Init

variable {c c' : FlexIOControl}

@[simp] theorem shiftbuf_setTimcmp (timer : Fin 8) (x : BitVec 32) :
    (c.setTimcmp timer x).shiftbuf = c.shiftbuf := rfl

@[simp] theorem shiftbuf_setShiftbuf_self (shifter : Fin 8) (x : BitVec 32) :
    (c.setShiftbuf shifter x).shiftbuf shifter = x :=
  Function.update_self _ _ _

theorem shiftbuf_setShiftbuf_of_ne {shifter other : Fin 8} (h : other ≠ shifter) (x : BitVec 32) :
    (c.setShiftbuf shifter x).shiftbuf other = c.shiftbuf other :=
  Function.update_of_ne h _ _

theorem eq_of_configureTimers {fuel : Nat} {first second : Fin 8} {clkFreqMHz : BitVec 32}
    {timeNs : BitVec 64} {fits : Bool}
    (h : c.configureTimers fuel first second clkFreqMHz timeNs = some (fits, c')) :
    ∃ timcmp, c' = { c with timcmp := timcmp } := by
  simp only [configureTimers, Option.bind_eq_bind, Option.bind_eq_some_iff] at h
  obtain ⟨limit, -, h⟩ := h
  split at h
  · cases h
    exact ⟨_, rfl⟩
  · obtain ⟨factors, -, h⟩ := Option.bind_eq_some_iff.mp h
    split at h <;> (cases h; exact ⟨_, rfl⟩)

theorem shiftbuf_configureTimers {fuel : Nat} {first second : Fin 8} {clkFreqMHz : BitVec 32}
    {timeNs : BitVec 64} {fits : Bool}
    (h : c.configureTimers fuel first second clkFreqMHz timeNs = some (fits, c')) :
    c'.shiftbuf = c.shiftbuf := by
  obtain ⟨timcmp, rfl⟩ := eq_of_configureTimers h
  rfl

theorem setIOPinsToFlexMode_shiftbuf {flexio : FlexIOHandler} {pins : List (BitVec 8)} :
    (c.setIOPinsToFlexMode flexio pins).2.shiftbuf = c.shiftbuf := by
  induction pins generalizing c with
  | nil => rfl
  | cons pin pins ih =>
    rw [setIOPinsToFlexMode]
    split
    · rfl
    · exact ih

theorem programmed_configureStates (policy : Policy)
    (hidle : c.shiftbuf sIdle = stateShiftbuf 0xff fun _ => sIc)
    (hic : c.shiftbuf sIc = stateShiftbuf 0xef ![sIc, sIc, sIc, sIc, sOp, sOp, sOp, sOp]) :
    Programmed policy (c.configureStates policy.onOverload policy.onExtHalt) where
  idle := hidle
  ic := hic
  op := rfl
  exthalt := rfl
  done := rfl
  overload := rfl

theorem programmed_of_configureOp {flexio : FlexIOHandler} {fuel : Nat} {clkFreqMHz : BitVec 32}
    {opTimeNs : BitVec 64} {policy : Policy}
    (hidle : c.shiftbuf sIdle = stateShiftbuf 0xff fun _ => sIc)
    (hic : c.shiftbuf sIc = stateShiftbuf 0xef ![sIc, sIc, sIc, sIc, sOp, sOp, sOp, sOp])
    (h : c.configureOp flexio fuel clkFreqMHz opTimeNs policy.onOverload policy.onExtHalt =
      some (true, c')) :
    Programmed policy c' ∧ c'.isEnabled = true ∧ c'.isInitialized = true := by
  simp only [configureOp] at h
  split at h
  · cases h
  · rw [Option.bind_eq_bind, Option.bind_eq_some_iff] at h
    obtain ⟨⟨fits, c₁⟩, htimers, h⟩ := h
    have hkept := shiftbuf_configureTimers htimers
    split at h
    · cases h
    · split at h
      · cases h
      · cases h
        refine ⟨?_, rfl, rfl⟩
        have hprogrammed := programmed_configureStates policy
          (hkept ▸ hidle : c₁.shiftbuf sIdle = _) (hkept ▸ hic : c₁.shiftbuf sIc = _)
        exact hprogrammed.congr setIOPinsToFlexMode_shiftbuf

/-- A successful `init` leaves the same words in the states whatever was there before. -/
theorem programmed_of_init (policy : Policy) {flexio : FlexIOHandler} {fuel : Nat}
    {icTimeNs opTimeNs : BitVec 64} {sync : Sync}
    (h : init flexio fuel icTimeNs opTimeNs policy.onOverload policy.onExtHalt sync c =
      some (true, c')) :
    Programmed policy c' ∧ c'.isEnabled = true ∧ c'.isInitialized = true := by
  simp only [init] at h
  split at h
  · cases h
  · split at h
    · cases h
    · split at h
      · cases h
      · rw [Option.bind_eq_bind, Option.bind_eq_some_iff] at h
        obtain ⟨⟨fits, c₁⟩, htimers, h⟩ := h
        have hkept := shiftbuf_configureTimers htimers
        split at h
        · cases h
        · refine programmed_of_configureOp ?_ rfl h
          rw [shiftbuf_setShiftbuf_of_ne (by decide), hkept]
          cases sync <;> rfl

end Init

section Steps

variable {policy : Policy} {m : Machine} {phase : Phase}

/-- The registers are those of a run in the phase. -/
structure Machine.InPhase (policy : Policy) (m : Machine) (phase : Phase) : Prop where
  programmed : Programmed policy m.control
  state : m.shiftstate = phase.state

theorem Machine.InPhase.state_eq_iff (h : m.InPhase policy phase) (p : Phase) :
    m.shiftstate = p.state ↔ phase = p := by
  rw [h.state]
  exact Phase.state_injective.eq_iff

section Answers

variable (h : m.InPhase policy phase)
include h

theorem Machine.InPhase.isIdle : m.isIdle = decide (phase = .idle) :=
  decide_eq_decide.mpr (h.state_eq_iff .idle)

theorem Machine.InPhase.isOp : m.isOp = decide (phase = .op) :=
  decide_eq_decide.mpr (h.state_eq_iff .op)

theorem Machine.InPhase.isOverloaded : m.isOverloaded = decide (phase = .overload) :=
  decide_eq_decide.mpr (h.state_eq_iff .overload)

theorem Machine.InPhase.isExthalt : m.isExthalt = decide (phase = .exthalt) :=
  decide_eq_decide.mpr (h.state_eq_iff .exthalt)

theorem Machine.InPhase.isDone : m.isDone = (phase = .done || phase = .overload) :=
  congrArg₂ or (decide_eq_decide.mpr (h.state_eq_iff .done)) h.isOverloaded

end Answers

theorem Machine.InPhase.outputs (h : m.InPhase policy phase) : m.outputs = phase.driven := by
  rw [Machine.outputs, h.state]
  cases phase with
  | idle => exact (congrArg _ h.programmed.idle).trans (shiftbufOutputs_stateShiftbuf _ _)
  | ic => exact (congrArg _ h.programmed.ic).trans (shiftbufOutputs_stateShiftbuf _ _)
  | op => exact (congrArg _ h.programmed.op).trans (shiftbufOutputs_stateShiftbuf _ _)
  | exthalt => exact (congrArg _ h.programmed.exthalt).trans (shiftbufOutputs_stateShiftbuf _ _)
  | done => exact (congrArg _ h.programmed.done).trans (shiftbufOutputs_stateShiftbuf _ _)
  | overload => exact (congrArg _ h.programmed.overload).trans (shiftbufOutputs_stateShiftbuf _ _)

/-- The successor in a word, for each value of its inputs. -/
theorem next_ic (pins : BitVec 32) :
    (![sIc, sIc, sIc, sIc, sOp, sOp, sOp, sOp] : Fin 8 → Fin 8) (pins.extractLsb' 15 3).toFin =
      if icOver pins then sOp else sIc := by
  have hbit : (pins.extractLsb' 15 3).getLsbD 2 = icOver pins := by
    rw [BitVec.getLsbD_extractLsb']
    rfl
  rw [← hbit]
  generalize pins.extractLsb' 15 3 = inputs
  revert inputs
  decide

theorem next_exthalt (pins : BitVec 32) :
    (![sExthalt, sExthalt, sOp, sOp, sExthalt, sExthalt, sOp, sOp] : Fin 8 → Fin 8)
        (pins.extractLsb' 10 3).toFin =
      if halted pins then sExthalt else sOp := by
  have hbit : halted pins = !(pins.extractLsb' 10 3).getLsbD 1 := by
    rw [BitVec.getLsbD_extractLsb']
    rfl
  rw [hbit]
  generalize pins.extractLsb' 10 3 = inputs
  revert inputs
  decide

theorem nextAfterOp_eq (pins : BitVec 32) :
    nextAfterOp policy.onOverload policy.onExtHalt (pins.extractLsb' 10 3).toFin =
      (policy.afterOp pins).state := by
  have hover : opOver pins = (pins.extractLsb' 10 3).getLsbD 2 := by
    rw [BitVec.getLsbD_extractLsb']
    rfl
  have hhalted : halted pins = !(pins.extractLsb' 10 3).getLsbD 1 := by
    rw [BitVec.getLsbD_extractLsb']
    rfl
  have hoverloaded : overloaded pins = !(pins.extractLsb' 10 3).getLsbD 0 := by
    rw [BitVec.getLsbD_extractLsb']
    rfl
  rw [Policy.afterOp, hover, hhalted, hoverloaded]
  generalize pins.extractLsb' 10 3 = inputs
  obtain ⟨onOverload, onExtHalt⟩ := policy
  cases onOverload <;> cases onExtHalt <;> (revert inputs; decide)

@[simp] theorem Machine.control_tick (t : Tick) : (m.tick t).control = m.control := by
  rw [Machine.tick]
  split <;> rfl

@[simp] theorem Machine.counter_tick (t : Tick) : (m.tick t).counter = m.counter := by
  rw [Machine.tick]
  split <;> rfl

theorem Machine.shiftstate_tick (henabled : m.control.isEnabled = true) (t : Tick) :
    (m.tick t).shiftstate =
      if t.timer = (shiftctl m.shiftstate).timsel then
        shiftbufNext (m.control.shiftbuf m.shiftstate)
          (t.pins.extractLsb' (shiftctl m.shiftstate).pinsel 3)
      else m.shiftstate := by
  rw [Machine.tick]
  by_cases htimer : t.timer = (shiftctl m.shiftstate).timsel
  · rw [if_pos ⟨henabled, htimer⟩, if_pos htimer]
  · rw [if_neg fun h => htimer h.2, if_neg htimer]

theorem Machine.InPhase.tick (h : m.InPhase policy phase) (henabled : m.control.isEnabled = true)
    (t : Tick) : (m.tick t).InPhase policy (phase.tick policy t) where
  programmed := (m.control_tick t).symm ▸ h.programmed
  state := by
    rw [shiftstate_tick henabled, h.state]
    cases phase with
    | idle =>
      rw [show m.control.shiftbuf Phase.idle.state = _ from h.programmed.idle,
        shiftbufNext_stateShiftbuf, Phase.tick, apply_ite Phase.state]
      rfl
    | ic =>
      rw [show m.control.shiftbuf Phase.ic.state = _ from h.programmed.ic,
        shiftbufNext_stateShiftbuf, Phase.tick, apply_ite Phase.state, ite_and]
      exact congrArg (if t.timer = tStateCheck then · else sIc) (next_ic t.pins)
    | op =>
      rw [show m.control.shiftbuf Phase.op.state = _ from h.programmed.op,
        shiftbufNext_stateShiftbuf, Phase.tick, apply_ite Phase.state]
      exact congrArg (if t.timer = tStateCheck then · else sOp) (nextAfterOp_eq t.pins)
    | exthalt =>
      rw [show m.control.shiftbuf Phase.exthalt.state = _ from h.programmed.exthalt,
        shiftbufNext_stateShiftbuf, Phase.tick, apply_ite Phase.state, ite_and, ite_not]
      exact congrArg (if t.timer = tStateCheck then · else sExthalt) (next_exthalt t.pins)
    | done =>
      rw [show m.control.shiftbuf Phase.done.state = _ from h.programmed.done,
        shiftbufNext_stateShiftbuf]
      exact ite_self _
    | overload =>
      rw [show m.control.shiftbuf Phase.overload.state = _ from h.programmed.overload,
        shiftbufNext_stateShiftbuf]
      exact ite_self _

theorem Machine.InPhase.ticks (h : m.InPhase policy phase) (henabled : m.control.isEnabled = true)
    (ts : List Tick) :
    (m.ticks ts).InPhase policy (ts.foldl (fun phase t => phase.tick policy t) phase) ∧
      (m.ticks ts).control = m.control ∧ (m.ticks ts).counter = m.counter := by
  induction ts generalizing m phase with
  | nil => exact ⟨h, rfl, rfl⟩
  | cons t ts ih =>
    obtain ⟨hphase, hcontrol, hcounter⟩ := ih (h.tick henabled t)
      ((congrArg FlexIOControl.isEnabled (m.control_tick t)).trans henabled)
    exact ⟨hphase, hcontrol.trans (m.control_tick t), hcounter.trans (m.counter_tick t)⟩

end Steps

section Verdicts

variable {policy : Policy}

/-- The levels at the ticks of the timer that IC, OP and the pause are checked with. -/
def checks (ts : List Tick) : List (BitVec 32) :=
  (ts.filter fun t => t.timer = tStateCheck).map Tick.pins

namespace Policy

/-- OP is left for good. -/
def decides (policy : Policy) (pins : BitVec 32) : Bool :=
  opOver pins || policy.onOverload = .halt && overloaded pins

def pauses (policy : Policy) (pins : BitVec 32) : Bool :=
  policy.onExtHalt = .pauseThenRestart && halted pins

/-- Where the checks since OP was entered lead: the first that decides counts, but none that
follows one with an external halt, for this is made during the pause. -/
def verdict (policy : Policy) (paused : Bool) (ops : List (BitVec 32)) : Phase :=
  let before := paused :: ops.map policy.pauses
  match (before.zip ops).find? fun x => !x.1 && policy.decides x.2 with
  | some (_, pins) => if opOver pins then .done else .overload
  | none => if before.getLastD paused then .exthalt else .op

/-- The phase of a run that was started before the checks. -/
def outcome (policy : Policy) (pins : List (BitVec 32)) : Phase :=
  match pins.dropWhile fun pins => !icOver pins with
  | [] => .ic
  | _ :: ops => policy.verdict false ops

end Policy

def Phase.check (policy : Policy) (phase : Phase) (pins : BitVec 32) : Phase :=
  phase.tick policy ⟨tStateCheck, pins⟩

theorem foldl_check_done (ops : List (BitVec 32)) :
    ops.foldl (Phase.check policy) .done = .done := by
  induction ops with
  | nil => rfl
  | cons pins ops ih => exact ih

theorem foldl_check_overload (ops : List (BitVec 32)) :
    ops.foldl (Phase.check policy) .overload = .overload := by
  induction ops with
  | nil => rfl
  | cons pins ops ih => exact ih

theorem afterOp_of_decides {pins : BitVec 32} (h : policy.decides pins = true) :
    policy.afterOp pins = if opOver pins then .done else .overload := by
  rw [Policy.afterOp]
  by_cases hover : opOver pins = true
  · rw [if_pos hover, if_pos hover]
  · rw [if_neg hover, if_neg hover, if_pos]
    simpa [Policy.decides, hover] using h

theorem afterOp_of_not_decides {pins : BitVec 32} (h : policy.decides pins = false) :
    policy.afterOp pins = if policy.pauses pins then .exthalt else .op := by
  rw [Policy.decides, Bool.or_eq_false_iff] at h
  rw [Policy.afterOp, h.1, if_neg Bool.false_ne_true, if_neg]
  · simp [Policy.pauses]
  · intro hboth
    simp [hboth] at h

theorem verdict_cons_of_decides {paused : Bool} {pins : BitVec 32} {ops : List (BitVec 32)}
    (h : (!paused && policy.decides pins) = true) :
    policy.verdict paused (pins :: ops) = if opOver pins then .done else .overload := by
  simp only [Policy.verdict, List.zip_cons_cons, List.find?_cons, h]

theorem verdict_cons_of_not_decides {paused : Bool} {pins : BitVec 32} {ops : List (BitVec 32)}
    (h : (!paused && policy.decides pins) = false) :
    policy.verdict paused (pins :: ops) = policy.verdict (policy.pauses pins) ops := by
  simp only [Policy.verdict, List.map_cons, List.zip_cons_cons, List.find?_cons, h]
  rfl

theorem foldl_check_verdict {paused : Bool}
    (hpaused : paused = true → policy.onExtHalt = .pauseThenRestart) (ops : List (BitVec 32)) :
    ops.foldl (Phase.check policy) (if paused then .exthalt else .op) =
      policy.verdict paused ops := by
  induction ops generalizing paused with
  | nil => rfl
  | cons pins ops ih =>
    have hpauses : policy.pauses pins = true → policy.onExtHalt = .pauseThenRestart := by
      intro h
      rw [Policy.pauses, Bool.and_eq_true, decide_eq_true_iff] at h
      exact h.1
    rw [List.foldl_cons]
    cases paused with
    | true =>
      have hcheck : Phase.check policy .exthalt pins =
          if policy.pauses pins then .exthalt else .op := by
        rw [Phase.check, Phase.tick, Policy.pauses, hpaused rfl]
        cases halted pins <;> rfl
      rw [if_pos rfl, hcheck, verdict_cons_of_not_decides rfl, ih hpauses]
    | false =>
      have hcheck : Phase.check policy .op pins = policy.afterOp pins := by
        rw [Phase.check, Phase.tick, if_pos rfl]
      rw [if_neg Bool.false_ne_true, hcheck]
      by_cases hdecides : policy.decides pins = true
      · have hfirst : (!false && policy.decides pins) = true := hdecides
        rw [verdict_cons_of_decides hfirst, afterOp_of_decides hdecides]
        split
        · exact foldl_check_done ops
        · exact foldl_check_overload ops
      · rw [Bool.not_eq_true] at hdecides
        have hfirst : (!false && policy.decides pins) = false := hdecides
        rw [verdict_cons_of_not_decides hfirst, afterOp_of_not_decides hdecides, ih hpauses]

theorem foldl_check_outcome (pins : List (BitVec 32)) :
    pins.foldl (Phase.check policy) .ic = policy.outcome pins := by
  induction pins with
  | nil => rfl
  | cons first pins ih =>
    have hcheck : Phase.check policy .ic first = if icOver first then .op else .ic := by
      rw [Phase.check, Phase.tick, ite_and]
      exact if_pos rfl
    rw [List.foldl_cons, hcheck, Policy.outcome]
    by_cases hover : icOver first = true
    · rw [if_pos hover, List.dropWhile_cons_of_neg (by simp [hover])]
      exact foldl_check_verdict (fun h => absurd h Bool.false_ne_true) pins
    · rw [if_neg hover, List.dropWhile_cons_of_pos (by simp [hover]), ih]
      rfl

theorem Policy.afterOp_ne_idle (pins : BitVec 32) : policy.afterOp pins ≠ .idle := by
  rw [Policy.afterOp]
  repeat' split
  all_goals decide

theorem Phase.tick_ne_idle {phase : Phase} (h : phase ≠ .idle) (t : Tick) :
    phase.tick policy t ≠ .idle := by
  cases phase with
  | idle => exact absurd rfl h
  | ic => rw [Phase.tick]; split <;> decide
  | op =>
    rw [Phase.tick]
    split
    · exact Policy.afterOp_ne_idle t.pins
    · decide
  | exthalt => rw [Phase.tick]; split <;> decide
  | done => exact h
  | overload => exact h

/-- Past IDLE only the checks matter. -/
theorem foldl_tick_eq {phase : Phase} (h : phase ≠ .idle) (ts : List Tick) :
    ts.foldl (fun phase t => phase.tick policy t) phase =
      (checks ts).foldl (Phase.check policy) phase := by
  induction ts generalizing phase with
  | nil => rfl
  | cons t ts ih =>
    rw [List.foldl_cons, ih (Phase.tick_ne_idle h t)]
    by_cases htimer : t.timer = tStateCheck
    · have hchecks : checks (t :: ts) = t.pins :: checks ts := by
        rw [checks, List.filter_cons_of_pos (by simpa using htimer)]
        rfl
      have hcheck : phase.tick policy t = Phase.check policy phase t.pins := by
        rw [Phase.check, ← htimer]
      rw [hchecks, List.foldl_cons, hcheck]
    · have hchecks : checks (t :: ts) = checks ts := by
        rw [checks, List.filter_cons_of_neg (by simpa using htimer)]
        rfl
      have hstays : phase.tick policy t = phase := by
        cases phase <;> simp [Phase.tick, htimer] at h ⊢
      rw [hchecks, hstays]

section Started

variable (policy) {flexio : FlexIOHandler} {fuel : Nat} {icTimeNs opTimeNs : BitVec 64}
  {sync : Sync} {c : FlexIOControl} {m : Machine}
  (h : init flexio fuel icTimeNs opTimeNs policy.onOverload policy.onExtHalt sync c =
    some (true, m.control))
include h

theorem inPhase_forceStart_ticks (micros : BitVec 32) (ts : List Tick) :
    ((m.forceStart micros).ticks ts).InPhase policy (policy.outcome (checks ts)) ∧
      ((m.forceStart micros).ticks ts).control = m.control ∧
      ((m.forceStart micros).ticks ts).counter = (m.forceStart micros).counter := by
  obtain ⟨hprogrammed, henabled, -⟩ := programmed_of_init policy h
  have hstart : (m.forceStart micros).InPhase policy .ic := ⟨hprogrammed, rfl⟩
  have hticks := hstart.ticks henabled ts
  rwa [foldl_tick_eq (by decide), foldl_check_outcome] at hticks

/-- A started run is where its checks have led, whatever the registers held before `init`, and the
pins and the answers to the processor show it. -/
theorem forceStart_ticks (micros : BitVec 32) (ts : List Tick) :
    let started := m.forceStart micros
    let phase := policy.outcome (checks ts)
    (started.ticks ts).shiftstate = phase.state ∧ (started.ticks ts).outputs = phase.driven ∧
      (started.ticks ts).isDone = (phase = .done || phase = .overload) ∧
      (started.ticks ts).isOverloaded = decide (phase = .overload) ∧
      (started.ticks ts).control = m.control ∧ (started.ticks ts).counter = started.counter := by
  intro started phase
  obtain ⟨hphase, hcontrol, hcounter⟩ := inPhase_forceStart_ticks policy h micros ts
  exact ⟨hphase.state, hphase.outputs, hphase.isDone, hphase.isOverloaded, hcontrol, hcounter⟩

end Started

/-- Time is over at the fifth check; the overload before it is seen during a pause, and the one at
the sixth comes too late. -/
theorem forceStart_ticks_example : ∃ m : Machine,
    init board 4320000001 defaultIcTime defaultOpTime .halt .pauseThenRestart .none .afterReset =
        some (true, m.control) ∧
      ((m.forceStart 0).ticks
        ([0x20c00, 0xc00, 0x400, 0x800, 0x1c00, 0x800].map fun pins =>
          ⟨tStateCheck, pins⟩)).isOverloaded = false := by
  obtain ⟨c, hc⟩ := exists_init_of_fits (c := .afterReset)
    (show 100 ≤ defaultOpTime.toNat ∧ defaultOpTime.toNat ≤ 9000000000 by decide)
    (show 4320000000 < 4320000001 by decide) mapped_board rfl
    (show 100 ≤ defaultIcTime.toNat ∧ defaultIcTime.toNat < 9000000000 by decide)
    ⟨48000, 1, by decide, by decide, by decide, by decide⟩
    ⟨480, 1000, by decide, by decide, by decide, by decide⟩ .halt .pauseThenRestart .none
  obtain ⟨-, -, -, hoverloaded, -⟩ := forceStart_ticks ⟨.halt, .pauseThenRestart⟩
    (m := ⟨c, sIdle, ⟨0, 0, 0, .halt, 0, 0, 0, 0⟩⟩) hc 0
    ([0x20c00, 0xc00, 0x400, 0x800, 0x1c00, 0x800].map fun pins => ⟨tStateCheck, pins⟩)
  refine ⟨⟨c, sIdle, ⟨0, 0, 0, .halt, 0, 0, 0, 0⟩⟩, hc, hoverloaded.trans ?_⟩
  decide +kernel

end Verdicts

end Lucidac.FlexIOControl
