import Lucidac.Framework.Program

/-!
# Scripts of steps that may be refused

A program that performs a fixed list of operations, each of which reports its success, is
determined by that list.  A script holds the list and whether the program returns after its last
step; a run stops at the first refusal.
-/

namespace Framework

variable {ε σ α β : Type}

/-- How a program ends: whether it returns, and the state it leaves behind. -/
def outcome (x : EStateM ε σ PUnit) (s : σ) : Bool × σ :=
  match x s with
  | .ok _ t => (true, t)
  | .error _ t => (false, t)

/-- The second operation follows where the first one succeeds. -/
def andThen (f g : σ → Bool × σ) (s : σ) : Bool × σ := if (f s).1 then g (f s).2 else f s

theorem outcome_modify (f : σ → σ) (s : σ) :
    outcome (modify f : EStateM ε σ PUnit) s = (true, f s) := rfl

theorem outcome_attempt (f : σ → Bool × σ) (e : ε) (s : σ) : outcome (attempt f e) s = f s := by
  simp only [outcome, attempt]
  cases h : (f s).1 <;> exact Prod.ext h.symm rfl

theorem outcome_seq (x y : EStateM ε σ PUnit) (s : σ) :
    outcome (x >>= fun _ => y) s = andThen (outcome x) (outcome y) s := by
  have hbind : (x >>= fun _ => y) s = EStateM.bind x (fun _ => y) s := rfl
  cases hx : x s with
  | ok a t => simp [outcome, andThen, hbind, EStateM.bind, hx]
  | error e t => simp [outcome, andThen, hbind, EStateM.bind, hx]

theorem outcome_of_wp {x : EStateM ε σ PUnit} {Q E : σ → Prop} {s : σ}
    (h : wp x (fun _ => Q) (fun _ => E) s) :
    ((outcome x s).1 = true → Q (outcome x s).2) ∧
      ((outcome x s).1 = false → E (outcome x s).2) := by
  simp only [wp] at h
  cases hx : x s with
  | ok a t =>
    rw [hx] at h
    simpa [outcome, hx] using h
  | error e t =>
    rw [hx] at h
    simpa [outcome, hx] using h

structure Script (α : Type) where
  steps : List α
  complete : Bool

namespace Script

def done : Script α := ⟨[], true⟩

def refused : Script α := ⟨[], false⟩

def single (a : α) : Script α := ⟨[a], true⟩

def append (first second : Script α) : Script α :=
  if first.complete then ⟨first.steps ++ second.steps, second.complete⟩ else first

def ofList (f : β → Script α) : List β → Script α
  | [] => done
  | b :: rest => (f b).append (ofList f rest)

theorem exists_of_mem_ofList {f : β → Script α} {xs : List β} {a : α}
    (ha : a ∈ (ofList f xs).steps) : ∃ b ∈ xs, a ∈ (f b).steps := by
  induction xs with
  | nil => cases ha
  | cons b rest ih =>
    simp only [ofList, append] at ha
    split at ha
    · rcases List.mem_append.mp ha with h | h
      · exact ⟨b, List.mem_cons_self, h⟩
      · obtain ⟨c, hc, h⟩ := ih h
        exact ⟨c, List.mem_cons_of_mem _ hc, h⟩
    · exact ⟨b, List.mem_cons_self, ha⟩

section Run

variable (run : α → σ → Bool × σ)

def allPass : List α → σ → Bool
  | [], _ => true
  | a :: rest, s => (run a s).1 && allPass rest (run a s).2

/-- The steps up to the first refusal. -/
def passed : List α → σ → List α
  | [], _ => []
  | a :: rest, s => if (run a s).1 then a :: passed rest (run a s).2 else []

def after (steps : List α) (s : σ) : σ := steps.foldl (fun t a => (run a t).2) s

def perform (script : Script α) (s : σ) : Bool × σ :=
  (script.complete && allPass run script.steps s, after run (passed run script.steps s) s)

theorem after_append (xs ys : List α) (s : σ) :
    after run (xs ++ ys) s = after run ys (after run xs s) := by
  simp only [after]
  rw [List.foldl_append]

theorem passed_of_allPass {steps : List α} {s : σ} (h : allPass run steps s = true) :
    passed run steps s = steps := by
  induction steps generalizing s with
  | nil => rfl
  | cons a rest ih =>
    simp only [allPass, Bool.and_eq_true] at h
    simp only [passed]
    rw [if_pos h.1, ih h.2]

theorem allPass_append (xs ys : List α) (s : σ) :
    allPass run (xs ++ ys) s = (allPass run xs s && allPass run ys (after run xs s)) := by
  induction xs generalizing s with
  | nil => rfl
  | cons a rest ih =>
    simp only [List.cons_append, allPass]
    rw [ih, Bool.and_assoc]
    rfl

theorem passed_append (xs ys : List α) (s : σ) :
    passed run (xs ++ ys) s =
      if allPass run xs s then xs ++ passed run ys (after run xs s) else passed run xs s := by
  induction xs generalizing s with
  | nil => rfl
  | cons a rest ih =>
    have hrest := ih (run a s).2
    by_cases ha : (run a s).1 = true
    · by_cases hpass : allPass run rest (run a s).2 = true
      · rw [if_pos hpass] at hrest
        simp [passed, allPass, after, ha, hpass, hrest]
      · rw [if_neg hpass] at hrest
        simp [passed, allPass, ha, hpass, hrest]
    · simp [passed, allPass, ha]

/-- The program does what the script says. -/
def Performs (x : EStateM ε σ PUnit) (script : Script α) : Prop :=
  ∀ s, outcome x s = script.perform run s

namespace Performs

variable {run}

theorem pure : Performs run (pure ⟨⟩ : EStateM ε σ PUnit) done := fun _ => rfl

theorem throw (e : ε) : Performs run (throw e : EStateM ε σ PUnit) refused := fun _ => rfl

/-- A step that is refused must leave the state as it was. -/
theorem single {x : EStateM ε σ PUnit} {a : α} (hx : ∀ s, outcome x s = run a s)
    (hrefused : ∀ s, (run a s).1 = false → (run a s).2 = s) :
    Performs run x (Script.single a) := by
  intro s
  rw [hx]
  simp only [perform, Script.single, allPass, passed, after]
  cases h : (run a s).1 with
  | false => exact Prod.ext h (hrefused s h)
  | true => exact Prod.ext h rfl

theorem seq {x y : EStateM ε σ PUnit} {first second : Script α} (hx : Performs run x first)
    (hy : Performs run y second) : Performs run (x >>= fun _ => y) (first.append second) := by
  intro s
  rw [outcome_seq]
  simp only [andThen]
  rw [hx]
  by_cases hc : first.complete = true
  · by_cases hp : allPass run first.steps s = true
    · have hfirst := passed_of_allPass run hp
      have hsecond := hy (after run first.steps s)
      simp only [perform] at hsecond
      simp [perform, append, hc, hp, hfirst, hsecond, allPass_append, passed_append, after_append]
    · simp [perform, append, hc, hp, allPass_append, passed_append]
  · simp [perform, append, hc]

theorem ite {c : Prop} [Decidable c] {x y : EStateM ε σ PUnit} {first second : Script α}
    (hx : Performs run x first) (hy : Performs run y second) :
    Performs run (if c then x else y) (if c then first else second) := by
  split
  · exact hx
  · exact hy

theorem require_seq (c : Bool) (e : ε) {y : EStateM ε σ PUnit} {script : Script α}
    (hy : Performs run y script) :
    Performs run (Framework.require c e >>= fun _ => y) (if c then script else refused) := by
  cases c with
  | false => exact throw e
  | true => exact hy

theorem forM {f : β → EStateM ε σ PUnit} {g : β → Script α} (h : ∀ b, Performs run (f b) (g b))
    (xs : List β) : Performs run (forM xs f) (ofList g xs) := by
  induction xs with
  | nil => exact pure
  | cons b rest ih =>
    rw [List.forM_cons]
    exact (h b).seq ih

end Performs

end Run

end Script

end Framework
