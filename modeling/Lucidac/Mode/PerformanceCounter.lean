import Mathlib.Data.BitVec

/-!
# Usage metrics

Three stopwatches and three totals keep account of the time the machine spends in each mode.  Mode
changes under manual control are reported as they happen; a streaming run reports its times when it
has ended.
-/

namespace Lucidac.Counters

inductive Mode where
  | ic | op | halt
deriving DecidableEq

/-- An `elapsedMicros` is represented by the time at which it was zero. -/
structure PerformanceCounter where
  op : BitVec 32
  ic : BitVec 32
  halt : BitVec 32
  curMode : Mode
  totalOpTimeUs : BitVec 32
  totalIcTimeUs : BitVec 32
  totalHaltTimeUs : BitVec 32
  totalNumberOfRuns : BitVec 32
deriving DecidableEq

namespace PerformanceCounter

variable (micros : BitVec 32)

def reset (c : PerformanceCounter) : PerformanceCounter :=
  { c with totalOpTimeUs := 0, totalIcTimeUs := 0, totalNumberOfRuns := 0 }

/-- `to` at the time `micros`.  No branch assigns `cur_mode`. -/
def toMode (newMode : Mode) (c : PerformanceCounter) : PerformanceCounter :=
  match c.curMode, newMode with
  | .ic, .ic => c
  | .ic, .op => { c with totalIcTimeUs := c.totalIcTimeUs + (micros - c.ic), op := micros }
  | .ic, .halt => { c with totalIcTimeUs := c.totalIcTimeUs + (micros - c.ic), halt := micros }
  | .op, .ic => { c with totalOpTimeUs := c.totalOpTimeUs + (micros - c.op), ic := micros }
  | .op, .op => c
  | .op, .halt => { c with totalOpTimeUs := c.totalOpTimeUs + (micros - c.op), halt := micros }
  | .halt, .ic => { c with totalHaltTimeUs := c.totalHaltTimeUs + (micros - c.halt), ic := micros }
  | .halt, .op => { c with totalHaltTimeUs := c.totalHaltTimeUs + (micros - c.halt), op := micros }
  | .halt, .halt => c

def add (someMode : Mode) (us : BitVec 32) (c : PerformanceCounter) : PerformanceCounter :=
  match someMode with
  | .ic => { c with totalIcTimeUs := c.totalIcTimeUs + us }
  | .op => { c with totalOpTimeUs := c.totalOpTimeUs + us }
  | .halt => { c with totalHaltTimeUs := c.totalHaltTimeUs + us }

def increaseRun (c : PerformanceCounter) : PerformanceCounter :=
  { c with totalNumberOfRuns := c.totalNumberOfRuns + 1 }

def total (c : PerformanceCounter) : Mode → BitVec 32
  | .ic => c.totalIcTimeUs
  | .op => c.totalOpTimeUs
  | .halt => c.totalHaltTimeUs

def stopwatch (c : PerformanceCounter) : Mode → BitVec 32
  | .ic => c.ic
  | .op => c.op
  | .halt => c.halt

/-- The calls a streaming run makes: `force_start`, `to_end` and the report of both times. -/
def streamingRun (started ended : BitVec 32) (icTime actualOpTime : BitVec 64)
    (c : PerformanceCounter) : PerformanceCounter :=
  ((((c.toMode started .ic).toMode ended .halt).add .ic ((icTime / 1000).setWidth 32)).add .op
    ((actualOpTime / 1000).setWidth 32)).increaseRun

variable {micros} {c : PerformanceCounter} {mode other : Mode} {us : BitVec 32}

@[simp] theorem toMode_curMode : (c.toMode micros mode).curMode = c.curMode := by
  unfold toMode
  split <;> rfl

@[simp] theorem toMode_self : c.toMode micros c.curMode = c := by
  unfold toMode
  split <;> simp_all

@[simp] theorem add_curMode : (c.add mode us).curMode = c.curMode := by
  cases mode <;> rfl

@[simp] theorem add_stopwatch : (c.add mode us).stopwatch other = c.stopwatch other := by
  cases mode <;> cases other <;> rfl

@[simp] theorem streamingRun_curMode {started ended : BitVec 32}
    {icTime actualOpTime : BitVec 64} :
    (c.streamingRun started ended icTime actualOpTime).curMode = c.curMode := by
  rw [streamingRun]
  simp [increaseRun]

@[simp] theorem increaseRun_total : c.increaseRun.total mode = c.total mode := by
  cases mode <;> rfl

theorem add_total :
    (c.add mode us).total other = c.total other + if other = mode then us else 0 := by
  cases mode <;> cases other <;> simp [add, total]

/-- Leaving the recorded mode adds what its stopwatch shows, and nothing to another mode. -/
theorem toMode_total (hne : mode ≠ c.curMode) :
    (c.toMode micros mode).total other = c.total other +
      if other = c.curMode then micros - c.stopwatch c.curMode else 0 := by
  cases hcur : c.curMode <;> cases mode <;> cases other <;>
    simp_all [toMode, total, stopwatch]

end PerformanceCounter

/-- What is reported to the counter, and the time that passes between the reports. -/
inductive Event where
  | elapse (us : Nat)
  | toMode (mode : Mode)
  | add (mode : Mode) (us : BitVec 32)
  | streamingRun (icTime actualOpTime : BitVec 64) (duration : Nat)

/-- The counter with the microseconds since startup; `micros()` has their lower 32 bits. -/
structure Clocked where
  now : Nat
  counter : PerformanceCounter

namespace Clocked

def step (s : Clocked) : Event → Clocked
  | .elapse us => { s with now := s.now + us }
  | .toMode mode => { s with counter := s.counter.toMode (BitVec.ofNat 32 s.now) mode }
  | .add mode us => { s with counter := s.counter.add mode us }
  | .streamingRun icTime actualOpTime duration =>
    { now := s.now + duration
      counter := s.counter.streamingRun (BitVec.ofNat 32 s.now)
        (BitVec.ofNat 32 (s.now + duration)) icTime actualOpTime }

def run (s : Clocked) (events : List Event) : Clocked := events.foldl step s

end Clocked

/-- The account that is to be kept: exact totals, and the mode the machine is in since when. -/
structure Account where
  now : Nat
  mode : Mode
  since : Nat
  total : Mode → Nat

namespace Account

def credit (a : Account) (mode : Mode) (us : Nat) : Account :=
  { a with total := fun other => a.total other + if other = mode then us else 0 }

/-- The period in the present mode is complete. -/
def enter (a : Account) (mode : Mode) : Account :=
  { a.credit a.mode (a.now - a.since) with mode := mode, since := a.now }

/-- A streaming run contributes its time in IC and its time in OP once. -/
def step (a : Account) : Event → Account
  | .elapse us => { a with now := a.now + us }
  | .toMode mode => if mode = a.mode then a else a.enter mode
  | .add mode us => a.credit mode us.toNat
  | .streamingRun icTime actualOpTime duration =>
    let a := (a.enter .ic).credit .ic (icTime.toNat / 1000)
    let a := a.credit .op (actualOpTime.toNat / 1000)
    { a with now := a.now + duration, mode := .halt, since := a.now + duration }

def run (a : Account) (events : List Event) : Account := events.foldl step a

end Account

namespace Event

/-- Events that leave the mode alone. -/
def isQuiet : Event → Bool
  | .elapse _ | .add _ _ => true
  | .toMode _ | .streamingRun _ _ _ => false

/-- Events that leave HALT alone. -/
def staysInHalt : Event → Bool
  | .toMode mode => mode = .halt
  | event => event.isQuiet

end Event

/-- The condition on what follows a reset in the given mode: the mode is changed once at most, by
a call of `to`, or from HALT by a streaming run.  That run ends in HALT with HALT recorded, so
that further calls of `to` with HALT do no harm. -/
def ChangesOnce (mode : Mode) : List Event → Prop
  | [] => True
  | .elapse _ :: rest | .add _ _ :: rest => ChangesOnce mode rest
  | .toMode newMode :: rest =>
    if newMode = mode then ChangesOnce mode rest else ∀ event ∈ rest, event.isQuiet
  | .streamingRun _ _ _ :: rest => mode = .halt ∧ ∀ event ∈ rest, event.staysInHalt

theorem ofNat_sub_of_le {since now : Nat} (h : since ≤ now) :
    BitVec.ofNat 32 now - BitVec.ofNat 32 since = BitVec.ofNat 32 (now - since) := by
  have hsplit : now = (now - since) + since := by omega
  have hnow : BitVec.ofNat 32 now = BitVec.ofNat 32 (now - since) + BitVec.ofNat 32 since := by
    rw [← BitVec.ofNat_add, ← hsplit]
  rw [hnow, BitVec.add_sub_cancel]

theorem setWidth_div_thousand (time : BitVec 64) :
    (time / 1000).setWidth 32 = BitVec.ofNat 32 (time.toNat / 1000) := by
  apply BitVec.eq_of_toNat_eq
  simp

structure Agrees (s : Clocked) (a : Account) : Prop where
  now : s.now = a.now
  total : ∀ mode, s.counter.total mode = BitVec.ofNat 32 (a.total mode)

/-- As long as the mode has not changed since the reset, the stopwatch of the recorded mode runs
since the beginning of the present period. -/
structure Tracks (s : Clocked) (a : Account) : Prop extends Agrees s a where
  mode : s.counter.curMode = a.mode
  stopwatch : s.counter.stopwatch a.mode = BitVec.ofNat 32 a.since
  since_le : a.since ≤ a.now

/-- After a streaming run HALT is both the recorded mode and the present one, though its stopwatch
is that of the period before the run. -/
structure Halted (s : Clocked) (a : Account) : Prop extends Agrees s a where
  recorded : s.counter.curMode = .halt
  mode : a.mode = .halt

section Steps

variable {s : Clocked} {a : Account}

theorem Agrees.step_quiet (h : Agrees s a) {event : Event} (hquiet : event.isQuiet) :
    Agrees (s.step event) (a.step event) := by
  cases event with
  | elapse us => exact ⟨congrArg (· + us) h.now, h.total⟩
  | add mode us =>
    constructor
    · exact h.now
    · intro other
      change (s.counter.add mode us).total other = _
      rw [PerformanceCounter.add_total, h.total]
      by_cases hother : other = mode
      · simp [Account.step, Account.credit, hother, BitVec.ofNat_add]
      · simp [Account.step, Account.credit, hother]
  | toMode mode => cases hquiet
  | streamingRun icTime actualOpTime duration => cases hquiet

theorem Agrees.run_quiet (h : Agrees s a) {events : List Event}
    (hquiet : ∀ event ∈ events, event.isQuiet) : Agrees (s.run events) (a.run events) := by
  induction events generalizing s a with
  | nil => exact h
  | cons event rest ih =>
    rw [List.forall_mem_cons] at hquiet
    exact ih (h.step_quiet hquiet.1) hquiet.2

theorem Halted.step_toMode_halt (h : Halted s a) :
    Halted (s.step (.toMode .halt)) (a.step (.toMode .halt)) := by
  have hs : s.step (.toMode .halt) = s := by
    simp only [Clocked.step, ← h.recorded, PerformanceCounter.toMode_self]
  have ha : a.step (.toMode .halt) = a := by simp [Account.step, h.mode]
  rw [hs, ha]
  exact h

theorem Halted.step (h : Halted s a) {event : Event} (hstays : event.staysInHalt) :
    Halted (s.step event) (a.step event) := by
  cases event with
  | elapse us => exact ⟨h.toAgrees.step_quiet rfl, h.recorded, h.mode⟩
  | add mode us =>
    exact ⟨h.toAgrees.step_quiet rfl, PerformanceCounter.add_curMode.trans h.recorded, h.mode⟩
  | toMode mode =>
    have hmode : mode = .halt := of_decide_eq_true hstays
    subst hmode
    exact h.step_toMode_halt
  | streamingRun icTime actualOpTime duration => cases hstays

theorem Halted.run (h : Halted s a) {events : List Event}
    (hstays : ∀ event ∈ events, event.staysInHalt) : Halted (s.run events) (a.run events) := by
  induction events generalizing s a with
  | nil => exact h
  | cons event rest ih =>
    rw [List.forall_mem_cons] at hstays
    exact ih (h.step hstays.1) hstays.2

theorem Tracks.step_quiet (h : Tracks s a) {event : Event} (hquiet : event.isQuiet) :
    Tracks (s.step event) (a.step event) where
  toAgrees := h.toAgrees.step_quiet hquiet
  mode := by
    cases event with
    | elapse us => exact h.mode
    | add mode us => exact PerformanceCounter.add_curMode.trans h.mode
    | toMode mode => cases hquiet
    | streamingRun icTime actualOpTime duration => cases hquiet
  stopwatch := by
    cases event with
    | elapse us => exact h.stopwatch
    | add mode us => exact PerformanceCounter.add_stopwatch.trans h.stopwatch
    | toMode mode => cases hquiet
    | streamingRun icTime actualOpTime duration => cases hquiet
  since_le := by
    cases event with
    | elapse us => exact Nat.le_add_right_of_le h.since_le
    | add mode us => exact h.since_le
    | toMode mode => cases hquiet
    | streamingRun icTime actualOpTime duration => cases hquiet

theorem Tracks.step_toMode_self (h : Tracks s a) :
    Tracks (s.step (.toMode a.mode)) (a.step (.toMode a.mode)) := by
  have hs : s.step (.toMode a.mode) = s := by
    simp only [Clocked.step, ← h.mode, PerformanceCounter.toMode_self]
  have ha : a.step (.toMode a.mode) = a := by simp [Account.step]
  rw [hs, ha]
  exact h

/-- The first change is accounted for; from then on the recorded mode is wrong. -/
theorem Tracks.total_toMode (h : Tracks s a) {mode other : Mode} (hne : mode ≠ a.mode) :
    (s.counter.toMode (BitVec.ofNat 32 s.now) mode).total other =
      BitVec.ofNat 32 ((a.enter mode).total other) := by
  have hcur : mode ≠ s.counter.curMode := h.mode ▸ hne
  rw [PerformanceCounter.toMode_total hcur, h.mode, h.total, h.stopwatch, h.now,
    ofNat_sub_of_le h.since_le]
  by_cases hother : other = a.mode
  · simp [Account.enter, Account.credit, hother, BitVec.ofNat_add]
  · simp [Account.enter, Account.credit, hother]

theorem Tracks.step_toMode (h : Tracks s a) {mode : Mode} (hne : mode ≠ a.mode) :
    Agrees (s.step (.toMode mode)) (a.step (.toMode mode)) := by
  rw [Account.step, if_neg hne]
  exact ⟨h.now, fun other => h.total_toMode hne⟩

/-- From HALT the end of the run finds HALT still recorded and adds nothing. -/
theorem Tracks.step_streamingRun (h : Tracks s a) (hhalt : a.mode = .halt)
    (icTime actualOpTime : BitVec 64) (duration : Nat) :
    Halted (s.step (.streamingRun icTime actualOpTime duration))
      (a.step (.streamingRun icTime actualOpTime duration)) where
  now := congrArg (· + duration) h.now
  total := by
    intro other
    have hne : Mode.ic ≠ a.mode := by simp [hhalt]
    have hended : (s.counter.toMode (BitVec.ofNat 32 s.now) .ic).curMode = .halt := by
      rw [PerformanceCounter.toMode_curMode, h.mode, hhalt]
    change (s.counter.streamingRun _ _ icTime actualOpTime).total other = _
    rw [PerformanceCounter.streamingRun, ← hended, PerformanceCounter.toMode_self,
      PerformanceCounter.increaseRun_total, PerformanceCounter.add_total,
      PerformanceCounter.add_total, h.total_toMode hne, setWidth_div_thousand,
      setWidth_div_thousand]
    cases other <;> simp [Account.step, Account.credit, BitVec.ofNat_add]
  recorded := by
    change (s.counter.streamingRun _ _ icTime actualOpTime).curMode = .halt
    rw [PerformanceCounter.streamingRun_curMode, h.mode, hhalt]
  mode := rfl

theorem Tracks.run_changesOnce (h : Tracks s a) {events : List Event}
    (honce : ChangesOnce a.mode events) : Agrees (s.run events) (a.run events) := by
  induction events generalizing s a with
  | nil => exact h.toAgrees
  | cons event rest ih =>
    cases event with
    | elapse us => exact ih (h.step_quiet rfl) honce
    | add mode us => exact ih (h.step_quiet rfl) honce
    | toMode mode =>
      rw [ChangesOnce] at honce
      by_cases hsame : mode = a.mode
      · subst hsame
        rw [if_pos rfl] at honce
        apply ih h.step_toMode_self
        simpa [Account.step] using honce
      · rw [if_neg hsame] at honce
        exact (h.step_toMode hsame).run_quiet honce
    | streamingRun icTime actualOpTime duration =>
      have hended := h.step_streamingRun honce.1 icTime actualOpTime duration
      exact (hended.run honce.2).toAgrees

end Steps

theorem ChangesOnce.of_isPrefix {mode : Mode} {reported events : List Event}
    (honce : ChangesOnce mode events) (hreported : reported <+: events) :
    ChangesOnce mode reported := by
  obtain ⟨rest, rfl⟩ := hreported
  induction reported with
  | nil => trivial
  | cons event reported ih =>
    cases event with
    | elapse us => exact ih honce
    | add mode us => exact ih honce
    | toMode newMode =>
      simp only [List.cons_append, ChangesOnce] at honce ⊢
      split
      · next hsame => exact ih (by rwa [if_pos hsame] at honce)
      · next hne =>
        rw [if_neg hne] at honce
        exact fun event hevent => honce event (List.mem_append_left _ hevent)
    | streamingRun icTime actualOpTime duration =>
      exact ⟨honce.1, fun event hevent => honce.2 event (List.mem_append_left _ hevent)⟩

/-- The account at a reset, in a mode that lasts since the given time. -/
def Account.opened (now since : Nat) (mode : Mode) : Account :=
  { now, mode, since, total := fun _ => 0 }

/-- `reset` leaves the total of HALT as it is. -/
theorem tracks_reset {c : PerformanceCounter} {since now : Nat} (hhalt : c.totalHaltTimeUs = 0)
    (hknown : c.stopwatch c.curMode = BitVec.ofNat 32 since) (hsince : since ≤ now) :
    Tracks ⟨now, c.reset⟩ (Account.opened now since c.curMode) where
  now := rfl
  total := by
    intro mode
    cases mode with
    | ic => rfl
    | op => rfl
    | halt => exact hhalt
  mode := rfl
  stopwatch := by
    cases hmode : c.curMode <;> rw [hmode] at hknown <;> exact hknown
  since_le := hsince

/-- In every state after a reset the totals are those of the account, as long as the mode has
changed once at most and the total of HALT was zero. -/
theorem total_eq_account_of_changesOnce (c : PerformanceCounter) (since now : Nat)
    (hsince : since ≤ now) (hknown : c.stopwatch c.curMode = BitVec.ofNat 32 since)
    (hhalt : c.totalHaltTimeUs = 0) (events : List Event)
    (honce : ChangesOnce c.curMode events) (reported : List Event)
    (hreported : reported <+: events) (mode : Mode) :
    (Clocked.run ⟨now, c.reset⟩ reported).counter.total mode =
      BitVec.ofNat 32 (((Account.opened now since c.curMode).run reported).total mode) :=
  ((tracks_reset hhalt hknown hsince).run_changesOnce (honce.of_isPrefix hreported)).total mode

/-- The counter of a device that was switched on in HALT. -/
private def switchedOn : PerformanceCounter :=
  { op := 0, ic := 0, halt := 0, curMode := .halt, totalOpTimeUs := 0, totalIcTimeUs := 0
    totalHaltTimeUs := 0, totalNumberOfRuns := 0 }

theorem total_eq_account_of_first_streamingRun :
    (Clocked.run ⟨0, switchedOn.reset⟩
        [.elapse 7, .streamingRun 100000 500000 605, .toMode .halt]).counter.total .ic = 100 ∧
      ((Account.opened 0 0 .halt).run
        [.elapse 7, .streamingRun 100000 500000 605, .toMode .halt]).total .ic = 100 := by
  have h := total_eq_account_of_changesOnce switchedOn 0 0 (Nat.le_refl 0) rfl rfl
    [.elapse 7, .streamingRun 100000 500000 605, .toMode .halt]
    ⟨rfl, List.forall_mem_singleton.mpr rfl⟩ _ (List.prefix_refl _) .ic
  exact ⟨h.trans (by decide), by decide⟩

/-- Three ways to a wrong total.  Under manual control the time in OP is lost, since HALT is still
recorded; a streaming run that begins in IC counts its time in IC twice; and a reset keeps the
total of HALT. -/
theorem total_ne_account :
    (Clocked.run ⟨0, switchedOn.reset⟩
        [.elapse 7, .toMode .ic, .elapse 10, .toMode .op, .elapse 5, .toMode .halt]).counter.total
          .op ≠
      BitVec.ofNat 32 (((Account.opened 0 0 .halt).run
        [.elapse 7, .toMode .ic, .elapse 10, .toMode .op, .elapse 5, .toMode .halt]).total .op) ∧
    (Clocked.run ⟨0, { switchedOn with curMode := .ic }.reset⟩
        [.streamingRun 100000 500000 605]).counter.total .ic ≠
      BitVec.ofNat 32 (((Account.opened 0 0 .ic).run
        [.streamingRun 100000 500000 605]).total .ic) ∧
    (Clocked.run ⟨0, { switchedOn with totalHaltTimeUs := 3 }.reset⟩ []).counter.total .halt ≠
      BitVec.ofNat 32 (((Account.opened 0 0 .halt).run []).total .halt) := by
  decide

end Lucidac.Counters
