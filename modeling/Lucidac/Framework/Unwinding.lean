import Mathlib.Data.List.Basic

/-!
# Runs that hide events from an observer

A system takes events, and an observer sees something of each of them.  Two runs that agree on the
events that are not hidden look alike to the observer, if some relation between their states
survives hidden events on one side and all other events on both sides.
-/

namespace Framework

structure ObservedSystem (σ ε ω : Type) where
  step : σ → ε → σ
  observe : σ → ε → List ω

namespace ObservedSystem

variable {σ ε ω : Type} (system : ObservedSystem σ ε ω)

/-- Everything that the observer sees in a run. -/
def observations (s : σ) : List ε → List ω
  | [] => []
  | e :: es => system.observe s e ++ observations (system.step s e) es

/-- Runs that agree on the events that are not hidden look alike. -/
def Noninterfering (hidden : ε → Bool) (s : σ) : Prop :=
  ∀ es es' : List ε, es.filter (!hidden ·) = es'.filter (!hidden ·) →
    system.observations s es = system.observations s es'

/-- The conditions on single steps; the run on the right is the one without the hidden events. -/
structure Unwinding (hidden : ε → Bool) (R : σ → σ → Prop) : Prop where
  silent : ∀ s e, hidden e = true → system.observe s e = []
  hidden_left : ∀ s t e, hidden e = true → R s t → R (system.step s e) t
  visible : ∀ s t e, hidden e = false → R s t → R (system.step s e) (system.step t e)
  observe_eq : ∀ s t e, hidden e = false → R s t → system.observe s e = system.observe t e

variable {system} {hidden : ε → Bool} {R : σ → σ → Prop}

theorem Unwinding.observations_eq (h : system.Unwinding hidden R) {s t : σ} (hst : R s t)
    (es : List ε) :
    system.observations s es = system.observations t (es.filter (!hidden ·)) := by
  induction es generalizing s t with
  | nil => rfl
  | cons e es ih =>
    cases hhidden : hidden e with
    | true =>
      rw [List.filter_cons_of_neg (by simp [hhidden]), observations, h.silent s e hhidden,
        List.nil_append]
      exact ih (h.hidden_left s t e hhidden hst)
    | false =>
      rw [List.filter_cons_of_pos (by simp [hhidden]), observations, observations,
        h.observe_eq s t e hhidden hst, ih (h.visible s t e hhidden hst)]

theorem Unwinding.noninterfering (h : system.Unwinding hidden R) {s : σ} (hs : R s s) :
    system.Noninterfering hidden s := by
  intro es es' heq
  rw [h.observations_eq hs es, heq, ← h.observations_eq hs es']

end ObservedSystem

end Framework
