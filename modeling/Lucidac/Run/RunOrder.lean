import Mathlib.Data.List.Induction
import Lucidac.Run.RunManager

/-!
# Runs are executed in the order of their submission

The ledger numbers the accepted submissions.  It is a ticket queue, and erasing the numbers gives
the session of the firmware, so the laws of ticket queues hold for every order of messages and
passes of the main loop.
-/

namespace Lucidac.RunQueue

open Framework

variable (parseNumber : String → ℚ)

/-! ### The session follows the ledger -/

theorem endRepetitiveRuns_items (tickets : List (Ticket Run)) :
    RunManager.endRepetitiveRuns ⟨tickets.map Ticket.item⟩ =
      (!tickets.isEmpty, ⟨(TicketQueue.releaseFront Run.endRepetition tickets).map Ticket.item⟩) := by
  cases tickets <;> rfl

theorem runNext_items (t : Ticket Run) (rest : List (Ticket Run)) :
    RunManager.runNext ⟨(t :: rest).map Ticket.item⟩ =
      some (t.item, ⟨(if t.item.isRepetitive then t :: rest else rest).map Ticket.item⟩) := by
  cases hrepetitive : t.item.isRepetitive <;> simp [RunManager.runNext, hrepetitive]

theorem session_step (ledger : Ledger) (event : Event) :
    ledger.session.step parseNumber event = some (Ledger.step parseNumber ledger event).session := by
  cases event with
  | startRun msgIn =>
    simp only [Session.step, startRunRequestHandler, RunManager.startRun, Ledger.step, Event.ops]
    cases haccepts : accepts msgIn with
    | false => rfl
    | true =>
      cases requests msgIn "end_repetitive" <;> cases requests msgIn "clear_queue" <;>
        simp [TicketQueue.step, Ledger.session, RunManager.clearQueue, endRepetitiveRuns_items]
  | stopRun =>
    simp [Session.step, stopRunRequestHandler, Ledger.session, Ledger.step, Event.ops,
      TicketQueue.step, endRepetitiveRuns_items]
  | processOutOfBandHandlers =>
    change ledger.session.processOutOfBandHandlers =
      some (Ledger.session (TicketQueue.step Run.isRepetitive Run.endRepetition ledger .serve))
    obtain ⟨waiting, issued, served, dropped⟩ := ledger
    cases waiting with
    | nil => rfl
    | cons t rest =>
      simp only [Session.processOutOfBandHandlers, Ledger.session, runNext_items]
      simp [TicketQueue.step]

theorem session_run (ledger : Ledger) (events : List Event) :
    ledger.session.run parseNumber events = some (Ledger.run parseNumber ledger events).session := by
  induction events generalizing ledger with
  | nil => rfl
  | cons event events ih =>
    rw [Session.run, List.foldlM_cons, session_step]
    exact ih (Ledger.step parseNumber ledger event)

def ledgerOf (events : List Event) : Ledger := Ledger.run parseNumber TicketQueue.empty events

theorem ledgerOf_append (events later : List Event) :
    ledgerOf parseNumber (events ++ later) =
      Ledger.run parseNumber (ledgerOf parseNumber events) later :=
  List.foldl_append

theorem ledger_run_eq (ledger : Ledger) (events : List Event) :
    Ledger.run parseNumber ledger events =
      TicketQueue.run Run.isRepetitive Run.endRepetition ledger
        (events.flatMap (Event.ops parseNumber)) := by
  induction events generalizing ledger with
  | nil => rfl
  | cons event events ih =>
    rw [List.flatMap_cons, TicketQueue.run_append, ← Ledger.step]
    exact ih (Ledger.step parseNumber ledger event)

theorem lawful_ledgerOf (events : List Event) :
    TicketQueue.Lawful Run.isRepetitive Run.endRepetition (ledgerOf parseNumber events) := by
  rw [ledgerOf, ledger_run_eq]
  exact TicketQueue.lawful_run Run.isRepetitive_endRepetition Run.endRepetition_endRepetition _

/-! ### What the ledger records -/

theorem issued_step (ledger : Ledger) (event : Event) :
    (Ledger.step parseNumber ledger event).issued =
      ledger.issued ++ (event.submission parseNumber).toList := by
  cases event with
  | startRun msgIn =>
    simp only [Ledger.step, Event.ops, Event.submission]
    cases haccepts : accepts msgIn with
    | false => simp
    | true =>
      cases requests msgIn "end_repetitive" <;> cases requests msgIn "clear_queue" <;>
        simp [TicketQueue.step]
  | stopRun => simp [Ledger.step, Event.ops, Event.submission, TicketQueue.step]
  | processOutOfBandHandlers => simp [Ledger.step, Event.ops, Event.submission]

theorem issued_ledgerOf (events : List Event) :
    (ledgerOf parseNumber events).issued = events.filterMap (Event.submission parseNumber) := by
  induction events using List.reverseRecOn with
  | nil => rfl
  | append_singleton events event ih =>
    rw [ledgerOf_append, List.filterMap_append, ← ih]
    change (Ledger.step parseNumber _ event).issued = _
    rw [issued_step]
    cases hsubmission : event.submission parseNumber <;> simp [hsubmission]

def Event.clears : Event → Bool
  | .startRun msgIn => accepts msgIn && requests msgIn "clear_queue"
  | .stopRun => false
  | .processOutOfBandHandlers => false

theorem dropped_step (ledger : Ledger) (event : Event) :
    (Ledger.step parseNumber ledger event).dropped = ledger.dropped ++
      if event.clears then ledger.waiting.map Ticket.number else [] := by
  cases event with
  | startRun msgIn =>
    simp only [Ledger.step, Event.ops, Event.clears]
    by_cases haccepts : accepts msgIn = true
    · by_cases hclear : requests msgIn "clear_queue" = true <;>
        cases requests msgIn "end_repetitive" <;> simp [haccepts, hclear, TicketQueue.step]
    · simp [haccepts]
  | stopRun => simp [Ledger.step, Event.ops, Event.clears, TicketQueue.step]
  | processOutOfBandHandlers => simp [Ledger.step, Event.ops, Event.clears]

/-- The submission waited when a later message cleared the queue. -/
def Cleared (events : List Event) (n : Nat) : Prop :=
  ∃ earlier event later, events = earlier ++ event :: later ∧ event.clears = true ∧
    n ∈ (ledgerOf parseNumber earlier).waiting.map Ticket.number

theorem cleared_of_dropped {events : List Event} {n : Nat}
    (h : n ∈ (ledgerOf parseNumber events).dropped) : Cleared parseNumber events n := by
  induction events using List.reverseRecOn with
  | nil => exact absurd h List.not_mem_nil
  | append_singleton events event ih =>
    rw [ledgerOf_append] at h
    change n ∈ (Ledger.step parseNumber _ event).dropped at h
    rw [dropped_step, List.mem_append] at h
    rcases h with h | h
    · obtain ⟨earlier, clearing, later, rfl, hclears, hwaited⟩ := ih h
      exact ⟨earlier, clearing, later ++ [event], by simp, hclears, hwaited⟩
    · cases hclears : event.clears with
      | false =>
        rw [hclears, if_neg Bool.false_ne_true] at h
        exact absurd h List.not_mem_nil
      | true =>
        rw [hclears, if_pos rfl] at h
        exact ⟨events, event, [], rfl, hclears, h⟩

/-! ### The law of the queue -/

/-- The number of the submission behind every execution so far, in the order of execution. -/
def executions (events : List Event) : List (Ticket Run) := (ledgerOf parseNumber events).served

def waitingRuns (events : List Event) : List (Ticket Run) := (ledgerOf parseNumber events).waiting

def acceptedRuns (events : List Event) : List Run :=
  events.filterMap (Event.submission parseNumber)

/-- Submission order, for the events so far and the next pass of the main loop. -/
structure InSubmissionOrder (events : List Event) : Prop where
  /-- The firmware never takes the front of an empty queue. -/
  no_empty_front : Session.start.run parseNumber events =
    some ⟨⟨(waitingRuns parseNumber events).map Ticket.item⟩,
      (executions parseNumber events).map Ticket.item⟩
  /-- What is executed or waits under a number is the run accepted under it. -/
  genuine : ∀ t, t ∈ executions parseNumber events ∨ t ∈ waitingRuns parseNumber events →
    ∃ run, (acceptedRuns parseNumber events)[t.number]? = some run ∧
      (t.item = run ∨ t.item = run.endRepetition)
  in_order : ((executions parseNumber events).map Ticket.number).Pairwise (· ≤ ·)
  waiting_in_order : ((waitingRuns parseNumber events).map Ticket.number).Pairwise (· < ·)
  executed_first : ∀ t ∈ executions parseNumber events, ∀ w ∈ waitingRuns parseNumber events,
    t.number ≤ w.number
  once : ∀ (n : Nat) run, (acceptedRuns parseNumber events)[n]? = some run →
    run.config.repetitive = false →
    ((executions parseNumber events).map Ticket.number).count n ≤ 1
  /-- An execution is preceded by those of all earlier submissions that were not cleared. -/
  none_skipped : ∀ t ∈ executions parseNumber events, ∀ n < t.number,
    n ∈ (executions parseNumber events).map Ticket.number ∨ Cleared parseNumber events n
  none_lost : ∀ n < (acceptedRuns parseNumber events).length,
    n ∈ (executions parseNumber events).map Ticket.number ∨
      n ∈ (waitingRuns parseNumber events).map Ticket.number ∨ Cleared parseNumber events n
  /-- The next pass executes the front, and a repetitive front stays before the same runs. -/
  next_pass : ∀ t rest, waitingRuns parseNumber events = t :: rest →
    executions parseNumber (events ++ [.processOutOfBandHandlers]) =
        executions parseNumber events ++ [t] ∧
      waitingRuns parseNumber (events ++ [.processOutOfBandHandlers]) =
        if t.item.config.repetitive then t :: rest else rest

theorem next_pass_of_waiting {events : List Event} {t : Ticket Run} {rest : List (Ticket Run)}
    (hwaiting : waitingRuns parseNumber events = t :: rest) :
    executions parseNumber (events ++ [.processOutOfBandHandlers]) =
        executions parseNumber events ++ [t] ∧
      waitingRuns parseNumber (events ++ [.processOutOfBandHandlers]) =
        if t.item.config.repetitive then t :: rest else rest := by
  have hstep := TicketQueue.step_serve_cons Run.isRepetitive Run.endRepetition hwaiting
  have hledger : ledgerOf parseNumber (events ++ [.processOutOfBandHandlers]) =
      TicketQueue.step Run.isRepetitive Run.endRepetition (ledgerOf parseNumber events) .serve :=
    ledgerOf_append parseNumber events [.processOutOfBandHandlers]
  rw [executions, executions, waitingRuns, hledger, hstep]
  exact ⟨rfl, rfl⟩

theorem runs_in_submission_order (events : List Event) : InSubmissionOrder parseNumber events := by
  have hlaw := lawful_ledgerOf parseNumber events
  have hissued := issued_ledgerOf parseNumber events
  constructor
  · exact session_run parseNumber TicketQueue.empty events
  · intro t ht
    rw [acceptedRuns, ← hissued]
    rcases ht with ht | ht
    · exact hlaw.genuine.served_item t ht
    · exact hlaw.genuine.waiting_item t ht
  · exact hlaw.orderly.served_le
  · exact hlaw.orderly.waiting_lt
  · exact hlaw.orderly.served_before
  · intro n run hrun honce
    rw [acceptedRuns, ← hissued] at hrun
    exact Nat.le_trans (Nat.le_add_right _ _) (hlaw.once n run hrun honce)
  · intro t ht n hn
    rcases hlaw.orderly.none_skipped ht hn with h | h
    · exact Or.inl h
    · exact Or.inr (cleared_of_dropped parseNumber h)
  · intro n hn
    rw [acceptedRuns, ← hissued] at hn
    rcases hlaw.orderly.complete n hn with h | h | h
    · exact Or.inl h
    · exact Or.inr (Or.inl h)
    · exact Or.inr (Or.inr (cleared_of_dropped parseNumber h))
  · intro t rest hwaiting
    exact next_pass_of_waiting parseNumber hwaiting

end Lucidac.RunQueue
