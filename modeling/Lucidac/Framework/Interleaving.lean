import Mathlib.Data.List.Basic

/-!
# Programs among events

A program is a list of atomic actions.  Its surroundings change the state at any time, also between
two of them.  What the surroundings may do is a relation: a property of the states is kept when it
is stable under the relation and the actions of each program keep it.
-/

namespace Framework

variable {σ : Type*} {α : Type*} {ε : Type*} {ο : Type*}

/-- A state and the actions that are left of the program that runs. -/
structure Running (σ : Type*) (α : Type*) where
  state : σ
  pending : List α

inductive Turn (ε : Type*) (ο : Type*) where
  | event (e : ε)
  /-- The next action of the program that runs; the program of `o` is begun when there is none. -/
  | advance (o : ο)

section Interleaving

variable (perform : α → σ → σ) (react : ε → σ → σ) (program : ο → σ → List α)

def Running.turn (c : Running σ α) : Turn ε ο → Running σ α
  | .event e => { c with state := react e c.state }
  | .advance o =>
    match c.pending with
    | [] => { c with pending := program o c.state }
    | a :: rest => ⟨perform a c.state, rest⟩

def Running.turns (c : Running σ α) (ts : List (Turn ε ο)) : Running σ α :=
  ts.foldl (fun c t => c.turn perform react program t) c

variable (R : σ → σ → Prop) (I J : σ → Prop)

/-- `I` holds up to the end of the actions and `J` there, when the surroundings change the state
along `R` before each action. -/
def Through : List α → σ → Prop
  | [], s => J s
  | a :: rest, s => I s ∧ ∀ s', R s s' → Through rest (perform a s')

/-- What the surroundings may do keeps both properties. -/
structure Rely : Prop where
  refl : ∀ s, R s s
  trans : ∀ {s t u}, R s t → R t u → R s u
  invariant : ∀ {s t}, R s t → I s → I t
  rest : ∀ {s t}, R s t → J s → J t
  rest_invariant : ∀ {s}, J s → I s

variable {perform react program R I J}

theorem Through.invariant (h : Rely R I J) {pending : List α} {s : σ}
    (hs : Through perform R I J pending s) : I s := by
  cases pending with
  | nil => exact h.rest_invariant hs
  | cons a rest => exact hs.1

theorem Through.related (h : Rely R I J) {pending : List α} {s t : σ} (hR : R s t)
    (hs : Through perform R I J pending s) : Through perform R I J pending t := by
  cases pending with
  | nil => exact h.rest hR hs
  | cons a rest => exact ⟨h.invariant hR hs.1, fun u hu => hs.2 u (h.trans hR hu)⟩

/-- One action, between two conditions of which the first is stable. -/
theorem Through.cons {K K' : σ → Prop} {a : α} {rest : List α} {s : σ} (hs : K s)
    (hstable : ∀ {s t}, R s t → K s → K t) (hI : ∀ {s}, K s → I s)
    (hstep : ∀ {s}, K s → K' (perform a s))
    (hrest : ∀ {s}, K' s → Through perform R I J rest s) :
    Through perform R I J (a :: rest) s :=
  ⟨hI hs, fun _ hR => hrest (hstep (hstable hR hs))⟩

theorem Through.of_keeps (h : Rely R I J) {actions : List α}
    (hkeeps : ∀ a ∈ actions, ∀ {s}, J s → J (perform a s)) {s : σ} (hs : J s) :
    Through perform R I J actions s := by
  induction actions generalizing s with
  | nil => exact hs
  | cons a rest ih =>
    exact .cons hs h.rest h.rest_invariant (hkeeps a List.mem_cons_self)
      (ih fun b hb => hkeeps b (List.mem_cons_of_mem a hb))

section Runs

variable (h : Rely R I J) (hreact : ∀ e s, R s (react e s))
  (hprogram : ∀ o {s}, J s → Through perform R I J (program o s) s)
include h hreact hprogram

theorem Through.turn {c : Running σ α} (hc : Through perform R I J c.pending c.state)
    (t : Turn ε ο) :
    Through perform R I J (c.turn perform react program t).pending
      (c.turn perform react program t).state := by
  obtain ⟨s, pending⟩ := c
  cases t with
  | event e => exact hc.related h (hreact e s)
  | advance o =>
    cases pending with
    | nil => exact hprogram o hc
    | cons a rest => exact hc.2 s (h.refl s)

/-- The invariant holds after every interleaving of events and actions. -/
theorem Rely.turns {s : σ} (hs : J s) (ts : List (Turn ε ο)) :
    I (Running.turns perform react program ⟨s, []⟩ ts).state := by
  suffices hall : ∀ c : Running σ α, Through perform R I J c.pending c.state →
      I (c.turns perform react program ts).state from hall ⟨s, []⟩ hs
  induction ts with
  | nil => exact fun c hc => hc.invariant h
  | cons t ts ih => exact fun c hc => ih (c.turn perform react program t) (hc.turn h hreact hprogram t)

end Runs

end Interleaving

end Framework
