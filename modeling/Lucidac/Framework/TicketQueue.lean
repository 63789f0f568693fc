import Mathlib.Data.List.Count
import Mathlib.Data.List.Pairwise
import Mathlib.Order.Basic

/-!
# Queues with tickets

Items wait in a queue and are served from its front.  An item that is to be kept stays at the
front after it was served, until it is released or the queue is cleared.  Every item gets the
number of its arrival as a ticket, so that what is served can be related to what arrived.
-/

namespace Framework

variable {α : Type}

structure Ticket (α : Type) where
  number : Nat
  item : α

inductive QueueOp (α : Type) where
  | push (item : α)
  | clear
  | release
  | serve

/-- The waiting tickets, what arrived so far in the order of arrival, the tickets served so far,
one for each service, and the numbers of those that a clearing dropped. -/
structure TicketQueue (α : Type) where
  waiting : List (Ticket α)
  issued : List α
  served : List (Ticket α)
  dropped : List Nat

namespace TicketQueue

def empty : TicketQueue α := ⟨[], [], [], []⟩

section Operations

variable (keep : α → Bool) (release : α → α)

def releaseFront : List (Ticket α) → List (Ticket α)
  | [] => []
  | t :: rest => { t with item := release t.item } :: rest

def step (s : TicketQueue α) : QueueOp α → TicketQueue α
  | .push item =>
    { s with waiting := s.waiting ++ [⟨s.issued.length, item⟩], issued := s.issued ++ [item] }
  | .clear => { s with waiting := [], dropped := s.dropped ++ s.waiting.map Ticket.number }
  | .release => { s with waiting := releaseFront release s.waiting }
  | .serve =>
    match s.waiting with
    | [] => s
    | t :: rest =>
      { s with waiting := if keep t.item then t :: rest else rest, served := s.served ++ [t] }

def run (s : TicketQueue α) (ops : List (QueueOp α)) : TicketQueue α :=
  ops.foldl (step keep release) s

@[simp] theorem run_nil (s : TicketQueue α) : s.run keep release [] = s := rfl

@[simp] theorem run_cons (s : TicketQueue α) (op : QueueOp α) (ops : List (QueueOp α)) :
    s.run keep release (op :: ops) = (s.step keep release op).run keep release ops := rfl

theorem run_append (s : TicketQueue α) (ops later : List (QueueOp α)) :
    s.run keep release (ops ++ later) = (s.run keep release ops).run keep release later :=
  List.foldl_append

@[simp] theorem issued_step_serve (s : TicketQueue α) :
    (s.step keep release .serve).issued = s.issued := by
  simp only [step]
  split <;> rfl

@[simp] theorem dropped_step_serve (s : TicketQueue α) :
    (s.step keep release .serve).dropped = s.dropped := by
  simp only [step]
  split <;> rfl

theorem step_serve_cons {s : TicketQueue α} {t : Ticket α} {rest : List (Ticket α)}
    (hwaiting : s.waiting = t :: rest) :
    s.step keep release .serve =
      { s with waiting := if keep t.item then t :: rest else rest, served := s.served ++ [t] } := by
  simp only [step, hwaiting]

/-- Serving does nothing to an empty queue.  Otherwise the front is served, and nobody but the
front may leave. -/
theorem step_serve_cases (s : TicketQueue α) :
    s.step keep release .serve = s ∨
    ∃ t rest kept, s.waiting = t :: rest ∧ kept.Sublist s.waiting ∧ rest.Sublist kept ∧
      (keep t.item = false → kept = rest) ∧
      s.step keep release .serve = { s with waiting := kept, served := s.served ++ [t] } := by
  cases hwaiting : s.waiting with
  | nil =>
    left
    simp only [step, hwaiting]
  | cons t rest =>
    right
    refine ⟨t, rest, if keep t.item then t :: rest else rest, rfl, ?_, ?_, ?_,
      step_serve_cons keep release hwaiting⟩
    · split
      · exact List.Sublist.refl _
      · exact List.sublist_cons_self _ _
    · split
      · exact List.sublist_cons_self _ _
      · exact List.Sublist.refl _
    · intro hleaves
      rw [hleaves, if_neg Bool.false_ne_true]

variable {keep release}

theorem run_induction {P : TicketQueue α → Prop}
    (hstep : ∀ s op, P s → P (s.step keep release op)) {s : TicketQueue α} (h : P s)
    (ops : List (QueueOp α)) : P (s.run keep release ops) := by
  induction ops generalizing s with
  | nil => exact h
  | cons op ops ih => exact ih (hstep s op h)

end Operations

def servings (s : TicketQueue α) (n : Nat) : Nat := (s.served.map Ticket.number).count n

def waitings (s : TicketQueue α) (n : Nat) : Nat := (s.waiting.map Ticket.number).count n

/-! ### Service in the order of arrival -/

/-- Tickets wait and are served in the order of their numbers, and none is lost. -/
structure Orderly (s : TicketQueue α) : Prop where
  waiting_lt : (s.waiting.map Ticket.number).Pairwise (· < ·)
  waiting_issued : ∀ t ∈ s.waiting, t.number < s.issued.length
  served_le : (s.served.map Ticket.number).Pairwise (· ≤ ·)
  served_issued : ∀ t ∈ s.served, t.number < s.issued.length
  served_before : ∀ t ∈ s.served, ∀ w ∈ s.waiting, t.number ≤ w.number
  complete : ∀ n < s.issued.length,
    n ∈ s.served.map Ticket.number ∨ n ∈ s.waiting.map Ticket.number ∨ n ∈ s.dropped

@[simp] theorem map_number_releaseFront (release : α → α) (l : List (Ticket α)) :
    (releaseFront release l).map Ticket.number = l.map Ticket.number := by
  cases l <;> rfl

theorem mem_releaseFront {release : α → α} {l : List (Ticket α)} {t : Ticket α}
    (h : t ∈ releaseFront release l) :
    ∃ t₀ ∈ l, t.number = t₀.number ∧ (t.item = t₀.item ∨ t.item = release t₀.item) := by
  cases l with
  | nil => exact absurd h List.not_mem_nil
  | cons t₀ rest =>
    rcases List.mem_cons.mp h with rfl | h
    · exact ⟨t₀, List.mem_cons_self, rfl, Or.inr rfl⟩
    · exact ⟨t, List.mem_cons_of_mem _ h, rfl, Or.inl rfl⟩

theorem mem_releaseFront_cases {release : α → α} {l : List (Ticket α)} {t : Ticket α}
    (h : t ∈ releaseFront release l) : (∃ a, t.item = release a) ∨ t ∈ l.tail := by
  cases l with
  | nil => exact absurd h List.not_mem_nil
  | cons t₀ rest =>
    rcases List.mem_cons.mp h with rfl | h
    · exact Or.inl ⟨t₀.item, rfl⟩
    · exact Or.inr h

theorem mem_releaseFront_of_mem_tail {release : α → α} {l : List (Ticket α)} {t : Ticket α}
    (h : t ∈ l.tail) : t ∈ releaseFront release l := by
  cases l with
  | nil => exact h
  | cons t₀ rest => exact List.mem_cons_of_mem _ h

theorem orderly_empty : (empty : TicketQueue α).Orderly := by
  constructor <;> simp [empty]

section Steps

variable {keep : α → Bool} {release : α → α} {s : TicketQueue α}

theorem Orderly.step_push (h : s.Orderly) (item : α) :
    (s.step keep release (.push item)).Orderly := by
  have hlength : (s.issued ++ [item]).length = s.issued.length + 1 := by simp
  constructor
  · simp only [step, List.map_append, List.pairwise_append]
    refine ⟨h.waiting_lt, by simp, ?_⟩
    intro n hn m hm
    obtain ⟨t, ht, rfl⟩ := List.mem_map.mp hn
    rw [List.map_singleton, List.mem_singleton] at hm
    rw [hm]
    exact h.waiting_issued t ht
  · intro t ht
    change t.number < (s.issued ++ [item]).length
    rw [hlength]
    rcases List.mem_append.mp ht with ht | ht
    · exact Nat.lt_succ_of_lt (h.waiting_issued t ht)
    · rw [List.mem_singleton.mp ht]
      exact Nat.lt_succ_self _
  · exact h.served_le
  · intro t ht
    change t.number < (s.issued ++ [item]).length
    rw [hlength]
    exact Nat.lt_succ_of_lt (h.served_issued t ht)
  · intro t ht w hw
    rcases List.mem_append.mp hw with hw | hw
    · exact h.served_before t ht w hw
    · rw [List.mem_singleton.mp hw]
      exact Nat.le_of_lt (h.served_issued t ht)
  · intro n hn
    change n < (s.issued ++ [item]).length at hn
    rw [hlength] at hn
    simp only [step, List.map_append, List.map_singleton, List.mem_append, List.mem_singleton]
    rcases Nat.lt_succ_iff_lt_or_eq.mp hn with hn | hn
    · rcases h.complete n hn with hs | hw | hd
      · exact Or.inl hs
      · exact Or.inr (Or.inl (Or.inl hw))
      · exact Or.inr (Or.inr hd)
    · exact Or.inr (Or.inl (Or.inr hn))

theorem Orderly.step_clear (h : s.Orderly) : (s.step keep release .clear).Orderly := by
  constructor
  · exact List.Pairwise.nil
  · intro t ht
    exact absurd ht List.not_mem_nil
  · exact h.served_le
  · exact h.served_issued
  · intro t _ w hw
    exact absurd hw List.not_mem_nil
  · intro n hn
    rcases h.complete n hn with hs | hw | hd
    · exact Or.inl hs
    · exact Or.inr (Or.inr (List.mem_append_right _ hw))
    · exact Or.inr (Or.inr (List.mem_append_left _ hd))

theorem Orderly.step_release (h : s.Orderly) : (s.step keep release .release).Orderly := by
  constructor
  · simp only [step, map_number_releaseFront]
    exact h.waiting_lt
  · intro t ht
    obtain ⟨t₀, ht₀, hnumber, -⟩ := mem_releaseFront ht
    rw [hnumber]
    exact h.waiting_issued t₀ ht₀
  · exact h.served_le
  · exact h.served_issued
  · intro t ht w hw
    obtain ⟨w₀, hw₀, hnumber, -⟩ := mem_releaseFront hw
    rw [hnumber]
    exact h.served_before t ht w₀ hw₀
  · simp only [step, map_number_releaseFront]
    exact h.complete

/-- The front is the next in order, and whatever still waits does not come before it. -/
theorem Orderly.step_serve (h : s.Orderly) : (s.step keep release .serve).Orderly := by
  obtain heq | ⟨t, rest, kept, hwaiting, hkept, hrest, -, heq⟩ := step_serve_cases keep release s
  · rw [heq]
    exact h
  · rw [heq]
    have hmem : t ∈ s.waiting := by
      rw [hwaiting]
      exact List.mem_cons_self
    have hfront : ∀ w ∈ s.waiting, t.number ≤ w.number := by
      have hlt := h.waiting_lt
      rw [hwaiting, List.map_cons, List.pairwise_cons] at hlt
      intro w hw
      rw [hwaiting] at hw
      rcases List.mem_cons.mp hw with rfl | hw
      · exact Nat.le_refl _
      · exact Nat.le_of_lt (hlt.1 _ (List.mem_map_of_mem hw))
    constructor
    · exact h.waiting_lt.sublist (hkept.map _)
    · intro w hw
      exact h.waiting_issued w (hkept.subset hw)
    · simp only [List.map_append, List.pairwise_append]
      refine ⟨h.served_le, by simp, ?_⟩
      intro n hn m hm
      obtain ⟨t', ht', rfl⟩ := List.mem_map.mp hn
      rw [List.map_singleton, List.mem_singleton] at hm
      rw [hm]
      exact h.served_before t' ht' t hmem
    · intro t' ht'
      rcases List.mem_append.mp ht' with ht' | ht'
      · exact h.served_issued t' ht'
      · rw [List.mem_singleton.mp ht']
        exact h.waiting_issued t hmem
    · intro t' ht' w hw
      rcases List.mem_append.mp ht' with ht' | ht'
      · exact h.served_before t' ht' w (hkept.subset hw)
      · rw [List.mem_singleton.mp ht']
        exact hfront w (hkept.subset hw)
    · intro n hn
      simp only [List.map_append, List.mem_append, List.map_singleton, List.mem_singleton]
      rcases h.complete n hn with hs | hw | hd
      · exact Or.inl (Or.inl hs)
      · rw [hwaiting, List.map_cons, List.mem_cons] at hw
        rcases hw with hw | hw
        · exact Or.inl (Or.inr hw)
        · exact Or.inr (Or.inl ((hrest.map _).subset hw))
      · exact Or.inr (Or.inr hd)

theorem Orderly.step (h : s.Orderly) (op : QueueOp α) : (s.step keep release op).Orderly := by
  cases op with
  | push item => exact h.step_push item
  | clear => exact h.step_clear
  | release => exact h.step_release
  | serve => exact h.step_serve

theorem Orderly.run (h : s.Orderly) (ops : List (QueueOp α)) :
    (s.run keep release ops).Orderly :=
  run_induction (fun _ op hs => hs.step op) h ops

/-- Whoever comes before a served ticket was served as well, or was dropped. -/
theorem Orderly.none_skipped (h : s.Orderly) {t : Ticket α} (ht : t ∈ s.served) {n : Nat}
    (hn : n < t.number) : n ∈ s.served.map Ticket.number ∨ n ∈ s.dropped := by
  rcases h.complete n (Nat.lt_trans hn (h.served_issued t ht)) with hs | hw | hd
  · exact Or.inl hs
  · obtain ⟨w, hmem, rfl⟩ := List.mem_map.mp hw
    exact absurd (h.served_before t ht w hmem) (Nat.not_le.mpr hn)
  · exact Or.inr hd

end Steps

/-! ### Tickets that are not kept -/

/-- The ticket has arrived, and where it waits it leaves the queue when it is served. -/
structure Settled (keep : α → Bool) (s : TicketQueue α) (n : Nat) : Prop where
  issued : n < s.issued.length
  leaves : ∀ t ∈ s.waiting, t.number = n → keep t.item = false

section Settling

variable {keep : α → Bool} {release : α → α} {s : TicketQueue α} {n : Nat}

theorem Settled.step (hrelease : ∀ a, keep (release a) = false) (h : Settled keep s n)
    (op : QueueOp α) : Settled keep (s.step keep release op) n := by
  cases op with
  | push item =>
    constructor
    · simp only [TicketQueue.step, List.length_append, List.length_singleton]
      exact Nat.lt_succ_of_lt h.issued
    · intro t ht hnumber
      rcases List.mem_append.mp ht with ht | ht
      · exact h.leaves t ht hnumber
      · rw [List.mem_singleton.mp ht] at hnumber
        exact absurd h.issued (by rw [← hnumber]; exact Nat.lt_irrefl _)
  | clear => exact ⟨h.issued, fun t ht => absurd ht List.not_mem_nil⟩
  | release =>
    constructor
    · exact h.issued
    · intro t ht hnumber
      obtain ⟨t₀, ht₀, hsame, hitem | hitem⟩ := mem_releaseFront ht
      · rw [hitem]
        exact h.leaves t₀ ht₀ (hsame ▸ hnumber)
      · rw [hitem]
        exact hrelease _
  | serve =>
    obtain heq | ⟨t₀, rest, kept, -, hkept, -, -, heq⟩ := step_serve_cases keep release s
    · rw [heq]
      exact h
    · rw [heq]
      exact ⟨h.issued, fun t ht => h.leaves t (hkept.subset ht)⟩

/-- Serving a settled ticket uses up one of its places in the queue. -/
theorem Settled.budget_step (release : α → α) (h : Settled keep s n) (op : QueueOp α) :
    (s.step keep release op).servings n + (s.step keep release op).waitings n ≤
      s.servings n + s.waitings n := by
  cases op with
  | push item =>
    have hne : ¬ (s.issued.length == n) = true := by
      rw [beq_iff_eq]
      exact Nat.ne_of_gt h.issued
    simp [TicketQueue.step, servings, waitings, List.count_append, List.count_cons, hne]
  | clear => simp [TicketQueue.step, servings, waitings]
  | release => simp [TicketQueue.step, servings, waitings]
  | serve =>
    obtain heq | ⟨t, rest, kept, hwaiting, hkept, -, hleaves, heq⟩ := step_serve_cases keep release s
    · exact Nat.le_of_eq (by rw [heq])
    · have hserved : ((s.served ++ [t]).map Ticket.number).count n =
          (s.served.map Ticket.number).count n + if t.number = n then 1 else 0 := by
        simp [List.count_append, List.count_cons]
      have hfront : (s.waiting.map Ticket.number).count n =
          (rest.map Ticket.number).count n + if t.number = n then 1 else 0 := by
        simp [hwaiting, List.count_cons]
      have hle : (kept.map Ticket.number).count n ≤ (s.waiting.map Ticket.number).count n :=
        (hkept.map _).count_le n
      rw [heq]
      simp only [servings, waitings, hserved]
      by_cases hn : t.number = n
      · rw [hleaves (h.leaves t (by rw [hwaiting]; exact List.mem_cons_self) hn), hfront]
        omega
      · rw [if_neg hn]
        omega

theorem Settled.run_budget (hrelease : ∀ a, keep (release a) = false) (h : Settled keep s n)
    (ops : List (QueueOp α)) :
    Settled keep (s.run keep release ops) n ∧
      (s.run keep release ops).servings n + (s.run keep release ops).waitings n ≤
        s.servings n + s.waitings n := by
  apply run_induction (P := fun s' => Settled keep s' n ∧
    s'.servings n + s'.waitings n ≤ s.servings n + s.waitings n)
  · intro s' op hs'
    exact ⟨hs'.1.step hrelease op, Nat.le_trans (hs'.1.budget_step release op) hs'.2⟩
  · exact ⟨h, Nat.le_refl _⟩

theorem Orderly.waitings_le_one (h : s.Orderly) : s.waitings n ≤ 1 :=
  List.nodup_iff_count.mp (h.waiting_lt.imp Nat.ne_of_lt) n

/-- From now on a settled ticket is served at most once more. -/
theorem Settled.servings_le (hrelease : ∀ a, keep (release a) = false) (h : Settled keep s n)
    (horderly : s.Orderly) (ops : List (QueueOp α)) :
    (s.run keep release ops).servings n ≤ s.servings n + 1 := by
  have hbudget := (h.run_budget hrelease ops).2
  have hwaits : s.waitings n ≤ 1 := horderly.waitings_le_one
  omega

end Settling

/-! ### Items under their tickets -/

/-- Every ticket carries the item that arrived under its number, possibly released since. -/
structure Genuine (release : α → α) (s : TicketQueue α) : Prop where
  waiting_item : ∀ t ∈ s.waiting, ∃ a, s.issued[t.number]? = some a ∧
    (t.item = a ∨ t.item = release a)
  served_item : ∀ t ∈ s.served, ∃ a, s.issued[t.number]? = some a ∧
    (t.item = a ∨ t.item = release a)

section Items

variable {keep : α → Bool} {release : α → α} {s : TicketQueue α}

theorem genuine_empty : Genuine release (empty : TicketQueue α) := by
  constructor <;> simp [empty]

theorem Genuine.step (hidem : ∀ a, release (release a) = release a) (h : Genuine release s)
    (op : QueueOp α) : Genuine release (s.step keep release op) := by
  cases op with
  | push item =>
    have hold : ∀ (n : Nat) a, s.issued[n]? = some a → (s.issued ++ [item])[n]? = some a := by
      intro n a ha
      rw [List.getElem?_append_left (List.getElem?_eq_some_iff.mp ha).1]
      exact ha
    constructor
    · intro t ht
      rcases List.mem_append.mp ht with ht | ht
      · obtain ⟨a, ha, hitem⟩ := h.waiting_item t ht
        exact ⟨a, hold _ _ ha, hitem⟩
      · rw [List.mem_singleton.mp ht]
        exact ⟨item, List.getElem?_concat_length, Or.inl rfl⟩
    · intro t ht
      obtain ⟨a, ha, hitem⟩ := h.served_item t ht
      exact ⟨a, hold _ _ ha, hitem⟩
  | clear => exact ⟨fun t ht => absurd ht List.not_mem_nil, h.served_item⟩
  | release =>
    constructor
    · intro t ht
      obtain ⟨t₀, ht₀, hnumber, hitem⟩ := mem_releaseFront ht
      obtain ⟨a, ha, hitem₀⟩ := h.waiting_item t₀ ht₀
      rw [hnumber]
      refine ⟨a, ha, ?_⟩
      rcases hitem with hitem | hitem <;> rcases hitem₀ with hitem₀ | hitem₀
      · exact Or.inl (hitem.trans hitem₀)
      · exact Or.inr (hitem.trans hitem₀)
      · exact Or.inr (hitem.trans (congrArg release hitem₀))
      · rw [hitem, hitem₀, hidem]
        exact Or.inr rfl
    · exact h.served_item
  | serve =>
    obtain heq | ⟨t₀, rest, kept, hwaiting, hkept, -, -, heq⟩ := step_serve_cases keep release s
    · rw [heq]
      exact h
    · rw [heq]
      constructor
      · intro t ht
        exact h.waiting_item t (hkept.subset ht)
      · intro t ht
        rcases List.mem_append.mp ht with ht | ht
        · exact h.served_item t ht
        · rw [List.mem_singleton.mp ht]
          apply h.waiting_item t₀
          rw [hwaiting]
          exact List.mem_cons_self

/-- An item that arrived without being kept is settled from its arrival on. -/
theorem Genuine.settled (hrelease : ∀ a, keep (release a) = false) (h : Genuine release s)
    {n : Nat} {a : α} (ha : s.issued[n]? = some a) (hkeep : keep a = false) :
    Settled keep s n := by
  constructor
  · exact (List.getElem?_eq_some_iff.mp ha).1
  · intro t ht hnumber
    obtain ⟨a', ha', hitem⟩ := h.waiting_item t ht
    rw [hnumber, ha, Option.some.injEq] at ha'
    subst ha'
    rcases hitem with hitem | hitem
    · rw [hitem]
      exact hkeep
    · rw [hitem]
      exact hrelease a

/-- The laws of the queue over any run from the start. -/
structure Lawful (keep : α → Bool) (release : α → α) (s : TicketQueue α) : Prop where
  orderly : s.Orderly
  genuine : Genuine release s
  once : ∀ n a, s.issued[n]? = some a → keep a = false → s.servings n + s.waitings n ≤ 1

theorem lawful_empty : Lawful keep release (empty : TicketQueue α) :=
  ⟨orderly_empty, genuine_empty, fun n a ha => by simp [empty] at ha⟩

theorem Orderly.servings_fresh (h : s.Orderly) : s.servings s.issued.length = 0 := by
  rw [servings, List.count_eq_zero]
  intro hmem
  obtain ⟨t, ht, hnumber⟩ := List.mem_map.mp hmem
  exact Nat.ne_of_lt (h.served_issued t ht) hnumber

theorem Lawful.step (hrelease : ∀ a, keep (release a) = false)
    (hidem : ∀ a, release (release a) = release a) (h : Lawful keep release s) (op : QueueOp α) :
    Lawful keep release (s.step keep release op) := by
  refine ⟨h.orderly.step op, h.genuine.step hidem op, ?_⟩
  intro n a ha hkeep
  by_cases hold : s.issued[n]? = some a
  · have hbudget := (h.genuine.settled hrelease hold hkeep).budget_step
      release op
    exact Nat.le_trans hbudget (h.once n a hold hkeep)
  · -- Only an arrival issues a new number, and that number was never served before.
    have hnew : n = s.issued.length ∧ ∃ item, op = .push item := by
      cases op with
      | push item =>
        refine ⟨?_, item, rfl⟩
        simp only [TicketQueue.step, List.getElem?_append] at ha
        split at ha
        · exact absurd ha hold
        · have := (List.getElem?_eq_some_iff.mp ha).1
          rw [List.length_singleton] at this
          omega
      | clear => exact absurd ha hold
      | release => exact absurd ha hold
      | serve =>
        rw [issued_step_serve] at ha
        exact absurd ha hold
    obtain ⟨rfl, item, rfl⟩ := hnew
    have hserved := h.orderly.servings_fresh
    have hwaits : (s.step keep release (.push item)).waitings s.issued.length ≤ 1 :=
      (h.orderly.step_push item).waitings_le_one
    change s.servings s.issued.length + _ ≤ 1
    omega

theorem lawful_run (hrelease : ∀ a, keep (release a) = false)
    (hidem : ∀ a, release (release a) = release a) (ops : List (QueueOp α)) :
    Lawful keep release (empty.run keep release ops) :=
  run_induction (fun _ op hs => hs.step hrelease hidem op) lawful_empty ops

end Items

/-! ### Tickets that are kept -/

section Keeping

variable (keep : α → Bool) (release : α → α)

theorem servings_serve_front {s : TicketQueue α} {t : Ticket α} {rest : List (Ticket α)}
    (hwaiting : s.waiting = t :: rest) :
    (s.step keep release .serve).servings t.number = s.servings t.number + 1 := by
  rw [step_serve_cons keep release hwaiting]
  simp [servings, List.count_append]

theorem servings_le_step (s : TicketQueue α) (n : Nat) (op : QueueOp α) :
    s.servings n ≤ (s.step keep release op).servings n := by
  cases op with
  | push item => exact Nat.le_refl _
  | clear => exact Nat.le_refl _
  | release => exact Nat.le_refl _
  | serve =>
    obtain heq | ⟨t, rest, kept, -, -, -, -, heq⟩ := step_serve_cases keep release s
    · exact Nat.le_of_eq (by rw [heq])
    · rw [heq]
      simp [servings, List.count_append]

variable {keep} in
/-- If one of the first tickets is kept, serving often enough serves one of them twice. -/
theorem exists_served_twice (first : List (Ticket α)) {rest : List (Ticket α)}
    {s : TicketQueue α} (hwaiting : s.waiting = first ++ rest)
    (hkept : ∃ t ∈ first, keep t.item = true) :
    ∃ k, ∃ t ∈ first,
      s.servings t.number + 2 ≤ (s.run keep release (List.replicate k .serve)).servings t.number := by
  induction first generalizing s with
  | nil =>
    obtain ⟨t, ht, -⟩ := hkept
    exact absurd ht List.not_mem_nil
  | cons t₀ first ih =>
    have hserved := step_serve_cons keep release hwaiting
    cases hkeep : keep t₀.item with
    | true =>
      refine ⟨2, t₀, List.mem_cons_self, ?_⟩
      have hagain : (s.step keep release .serve).waiting = t₀ :: (first ++ rest) := by
        rw [hserved, hkeep]
        rfl
      have hone := servings_serve_front keep release hwaiting
      have htwo := servings_serve_front keep release hagain
      simp only [List.replicate_succ, List.replicate_zero, run_cons, run_nil]
      omega
    | false =>
      have hnext : (s.step keep release .serve).waiting = first ++ rest := by
        rw [hserved, hkeep]
        rfl
      have hkept' : ∃ t ∈ first, keep t.item = true := by
        obtain ⟨t, ht, hitem⟩ := hkept
        rcases List.mem_cons.mp ht with rfl | ht
        · rw [hkeep] at hitem
          exact absurd hitem Bool.false_ne_true
        · exact ⟨t, ht, hitem⟩
      obtain ⟨k, t, ht, hk⟩ := ih hnext hkept'
      refine ⟨k + 1, t, List.mem_cons_of_mem _ ht, ?_⟩
      have hle := servings_le_step keep release s t.number .serve
      rw [List.replicate_succ, run_cons]
      omega

end Keeping

end TicketQueue

end Framework
