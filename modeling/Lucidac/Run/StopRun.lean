import Lucidac.Run.RunOrder

/-!
# Ending repetitive runs

A stop only reaches the run at the front of the queue.  So it ends all repetitions exactly if
none of the runs that wait behind the front is repetitive.
-/

namespace Lucidac.RunQueue

open Framework

variable (parseNumber : String → ℚ)

def queueOf (events : List Event) : List Run := (waitingRuns parseNumber events).map Ticket.item

/-- A stop that reports success, or a submission that asks for the end of repetitive runs. -/
def Event.IsStop (events : List Event) : Event → Prop
  | .stopRun => (stopRunRequestHandler ⟨queueOf parseNumber events⟩).1 = 0
  | .startRun msgIn => requests msgIn "end_repetitive" = true
  | .processOutOfBandHandlers => False

/-- From the event on, what was queued is executed at most once more. -/
def EndsRepetition (events : List Event) (event : Event) : Prop :=
  ∀ later, ∀ t ∈ waitingRuns parseNumber events,
    ((executions parseNumber (events ++ event :: later)).map Ticket.number).count t.number ≤
      ((executions parseNumber events).map Ticket.number).count t.number + 1

/-- The queues on which the event reaches every repetitive run.  A submission without identifier
reaches none of them, and clearing the queue reaches all. -/
def Event.Reaches (queue : List Run) : Event → Prop
  | .stopRun => ∀ run ∈ queue.tail, run.config.repetitive = false
  | .startRun msgIn =>
    if accepts msgIn then
      requests msgIn "clear_queue" = true ∨ ∀ run ∈ queue.tail, run.config.repetitive = false
    else ∀ run ∈ queue, run.config.repetitive = false
  | .processOutOfBandHandlers => True

/-! ### Queues that are served on -/

theorem ledger_run_passes (ledger : Ledger) (k : Nat) :
    Ledger.run parseNumber ledger (List.replicate k .processOutOfBandHandlers) =
      TicketQueue.run Run.isRepetitive Run.endRepetition ledger (List.replicate k .serve) := by
  rw [ledger_run_eq]
  congr 1
  induction k with
  | zero => rfl
  | succ k ih =>
    rw [List.replicate_succ, List.flatMap_cons, ih]
    rfl

/-- Whatever happens from a ledger on, its first tickets are served at most once more, if and
only if none of them is kept. -/
theorem served_once_iff {ledger : Ledger} (horderly : ledger.Orderly)
    {first rest : List (Ticket Run)} (hwaiting : ledger.waiting = first ++ rest) :
    (∀ later, ∀ n ∈ first.map Ticket.number,
      (Ledger.run parseNumber ledger later).servings n ≤ ledger.servings n + 1) ↔
      ∀ t ∈ first, t.item.isRepetitive = false := by
  constructor
  · intro h t ht
    by_contra hkept
    rw [Bool.not_eq_false] at hkept
    obtain ⟨k, t', ht', htwice⟩ := TicketQueue.exists_served_twice Run.endRepetition first
      hwaiting ⟨t, ht, hkept⟩
    have honce := h (List.replicate k .processOutOfBandHandlers) t'.number
      (List.mem_map_of_mem ht')
    rw [ledger_run_passes] at honce
    omega
  · intro h later n hn
    obtain ⟨t, ht, rfl⟩ := List.mem_map.mp hn
    have hmem : t ∈ ledger.waiting := by
      rw [hwaiting]
      exact List.mem_append_left _ ht
    have hsettled : TicketQueue.Settled Run.isRepetitive ledger t.number := by
      constructor
      · exact horderly.waiting_issued t hmem
      · intro t' ht' hnumber
        rw [hwaiting] at ht'
        rcases List.mem_append.mp ht' with ht' | ht'
        · exact h t' ht'
        · have hlt := horderly.waiting_lt
          rw [hwaiting, List.map_append, List.pairwise_append] at hlt
          have hne := hlt.2.2 _ hn _ (List.mem_map_of_mem ht')
          exact absurd hnumber (Nat.ne_of_gt hne)
    rw [ledger_run_eq]
    exact hsettled.servings_le Run.isRepetitive_endRepetition horderly _

/-! ### What a stop reaches -/

theorem endsRepetition_iff {events : List Event} {event : Event} {first rest : List (Ticket Run)}
    (hwaiting : (Ledger.step parseNumber (ledgerOf parseNumber events) event).waiting =
      first ++ rest)
    (hnumbers : first.map Ticket.number = (waitingRuns parseNumber events).map Ticket.number)
    (hserved : (Ledger.step parseNumber (ledgerOf parseNumber events) event).served =
      executions parseNumber events) :
    EndsRepetition parseNumber events event ↔ ∀ t ∈ first, t.item.config.repetitive = false := by
  have hledger : ∀ later, ledgerOf parseNumber (events ++ event :: later) =
      Ledger.run parseNumber (Ledger.step parseNumber (ledgerOf parseNumber events) event) later := by
    intro later
    exact ledgerOf_append parseNumber events (event :: later)
  have horderly : (Ledger.step parseNumber (ledgerOf parseNumber events) event).Orderly :=
    (lawful_ledgerOf parseNumber events).orderly.run _
  have hservings : ∀ n, (Ledger.step parseNumber (ledgerOf parseNumber events) event).servings n =
      ((executions parseNumber events).map Ticket.number).count n := by
    intro n
    rw [TicketQueue.servings, hserved]
  have honce := served_once_iff parseNumber horderly hwaiting
  rw [hnumbers] at honce
  apply Iff.trans _ honce
  constructor
  · intro h later n hn
    obtain ⟨t, ht, rfl⟩ := List.mem_map.mp hn
    rw [hservings, ← hledger]
    exact h later t ht
  · intro h later t ht
    rw [executions, hledger, ← hservings]
    exact h later t.number (List.mem_map_of_mem ht)

theorem releaseFront_repetitive_iff (tickets : List (Ticket Run)) :
    (∀ t ∈ TicketQueue.releaseFront Run.endRepetition tickets, t.item.config.repetitive = false) ↔
      ∀ run ∈ (tickets.map Ticket.item).tail, run.config.repetitive = false := by
  rw [← List.map_tail, List.forall_mem_map]
  constructor
  · intro h t ht
    exact h t (TicketQueue.mem_releaseFront_of_mem_tail ht)
  · intro h t ht
    rcases TicketQueue.mem_releaseFront_cases ht with ⟨run, hrun⟩ | ht
    · rw [hrun]
      rfl
    · exact h t ht

/-- A submission that clears the queue drops whatever was repetitive. -/
theorem endsRepetition_of_clears {events : List Event} {msgIn : Json}
    (haccepts : accepts msgIn = true) (hclear : requests msgIn "clear_queue" = true) :
    EndsRepetition parseNumber events (.startRun msgIn) := by
  have hlaw := lawful_ledgerOf parseNumber events
  intro later t ht
  have hissued : t.number < (ledgerOf parseNumber events).issued.length :=
    hlaw.orderly.waiting_issued t ht
  have hstep : ∃ new : Run, (Ledger.step parseNumber (ledgerOf parseNumber events)
        (.startRun msgIn)).waiting = [⟨(ledgerOf parseNumber events).issued.length, new⟩] ∧
      (Ledger.step parseNumber (ledgerOf parseNumber events) (.startRun msgIn)).issued =
        (ledgerOf parseNumber events).issued ++ [new] ∧
      (Ledger.step parseNumber (ledgerOf parseNumber events) (.startRun msgIn)).served =
        executions parseNumber events := by
    refine ⟨Run.fromJson parseNumber msgIn, ?_⟩
    simp only [Ledger.step, Event.ops, haccepts, hclear, if_true]
    cases requests msgIn "end_repetitive" <;> simp [TicketQueue.step, executions]
  obtain ⟨new, hwaiting, hnew, hserved⟩ := hstep
  have hsettled : TicketQueue.Settled Run.isRepetitive
      (Ledger.step parseNumber (ledgerOf parseNumber events) (.startRun msgIn)) t.number := by
    constructor
    · rw [hnew, List.length_append]
      exact Nat.lt_add_right _ hissued
    · intro t' ht' hnumber
      rw [hwaiting, List.mem_singleton] at ht'
      rw [ht'] at hnumber
      exact absurd hnumber (Nat.ne_of_gt hissued)
  have horderly : (Ledger.step parseNumber (ledgerOf parseNumber events) (.startRun msgIn)).Orderly :=
    hlaw.orderly.run _
  have hledger := ledgerOf_append parseNumber events (.startRun msgIn :: later)
  change _ = Ledger.run parseNumber (Ledger.step parseNumber _ _) later at hledger
  have hle := hsettled.servings_le Run.isRepetitive_endRepetition horderly
    (later.flatMap (Event.ops parseNumber))
  rw [← ledger_run_eq, ← hledger, TicketQueue.servings, TicketQueue.servings, hserved] at hle
  exact hle

theorem stop_ends_repetition_iff (events : List Event) (event : Event)
    (hstop : event.IsStop parseNumber events) :
    EndsRepetition parseNumber events event ↔ event.Reaches (queueOf parseNumber events) := by
  cases event with
  | stopRun =>
    rw [endsRepetition_iff parseNumber (List.append_nil _).symm]
    · exact releaseFront_repetitive_iff _
    · exact TicketQueue.map_number_releaseFront _ _
    · rfl
  | startRun msgIn =>
    have hend : requests msgIn "end_repetitive" = true := hstop
    simp only [Event.Reaches]
    by_cases haccepts : accepts msgIn = true
    · rw [if_pos haccepts]
      by_cases hclear : requests msgIn "clear_queue" = true
      · exact iff_of_true (endsRepetition_of_clears parseNumber haccepts hclear) (Or.inl hclear)
      · rw [or_iff_right hclear]
        have hstep : Ledger.step parseNumber (ledgerOf parseNumber events) (.startRun msgIn) =
            TicketQueue.run Run.isRepetitive Run.endRepetition (ledgerOf parseNumber events)
              [.release, .push (Run.fromJson parseNumber msgIn)] := by
          simp [Ledger.step, Event.ops, haccepts, hend, hclear]
        rw [endsRepetition_iff parseNumber (congrArg TicketQueue.waiting hstep)]
        · exact releaseFront_repetitive_iff _
        · exact TicketQueue.map_number_releaseFront _ _
        · rw [hstep]
          rfl
    · rw [if_neg haccepts]
      have hstep : Ledger.step parseNumber (ledgerOf parseNumber events) (.startRun msgIn) =
          ledgerOf parseNumber events := by
        simp [Ledger.step, Event.ops, haccepts]
      rw [endsRepetition_iff parseNumber
        ((congrArg TicketQueue.waiting hstep).trans (List.append_nil _).symm) rfl
        (congrArg TicketQueue.served hstep)]
      simp [queueOf, waitingRuns]
  | processOutOfBandHandlers => exact hstop.elim

/-- Two runs are queued, the second one repetitive, and the stop succeeds. -/
theorem stop_spares_second_run :
    let first := Event.startRun (.object [("id", .string "a")])
    let second := Event.startRun (.object [("id", .string "b"),
      ("config", .object [("repetitive", .bool true)])])
    Event.stopRun.IsStop (fun _ => 0) [first, second] ∧
      ¬ EndsRepetition (fun _ => 0) [first, second] .stopRun := by
  intro first second
  constructor
  · rfl
  · intro h
    have hsecond := h (List.replicate 3 .processOutOfBandHandlers)
    rw [waitingRuns] at hsecond
    exact absurd (hsecond _ (List.mem_cons_of_mem _ List.mem_cons_self)) (by decide +kernel)

theorem stop_ends_repetitive_front :
    let events := [Event.startRun (.object [("id", .string "a"),
      ("config", .object [("repetitive", .bool true)])]), .startRun (.object [("id", .string "b")])]
    EndsRepetition (fun _ => 0) events .stopRun := by
  intro events
  apply (stop_ends_repetition_iff (fun _ => 0) events .stopRun rfl).mpr
  intro run hrun
  rw [List.mem_singleton.mp hrun]
  rfl

end Lucidac.RunQueue
