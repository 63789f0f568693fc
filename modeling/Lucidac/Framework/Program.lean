import Mathlib.Data.List.FinRange
import Mathlib.Logic.Function.Basic

/-!
# Weakest preconditions for programs with early exits

A program in `EStateM ε σ` ends either by returning a value or by an early exit, and the state
survives both ends.  A weakest precondition therefore carries two postconditions.  The loop
rules thread an invariant through `forM` and `List.foldlM`, indexed by the elements that
are already processed.
-/

namespace Framework

variable {ε σ α β : Type}

/-- Started in `s`, the program returns into `Q` or exits early into `E`. -/
def wp (x : EStateM ε σ α) (Q : α → σ → Prop) (E : ε → σ → Prop) (s : σ) : Prop :=
  match x s with
  | .ok a s' => Q a s'
  | .error e s' => E e s'

@[simp] theorem wp_pure (a : α) (Q : α → σ → Prop) (E : ε → σ → Prop) (s : σ) :
    wp (pure a) Q E s = Q a s := rfl

@[simp] theorem wp_bind (x : EStateM ε σ α) (f : α → EStateM ε σ β) (Q : β → σ → Prop)
    (E : ε → σ → Prop) (s : σ) :
    wp (x >>= f) Q E s = wp x (fun a => wp (f a) Q E) E s := by
  change (match EStateM.bind x f s with | .ok a s' => Q a s' | .error e s' => E e s') = _
  simp only [wp, EStateM.bind]
  cases x s <;> rfl

@[simp] theorem wp_get (Q : σ → σ → Prop) (E : ε → σ → Prop) (s : σ) :
    wp (get : EStateM ε σ σ) Q E s = Q s s := rfl

@[simp] theorem wp_modify (f : σ → σ) (Q : PUnit → σ → Prop) (E : ε → σ → Prop) (s : σ) :
    wp (modify f : EStateM ε σ PUnit) Q E s = Q ⟨⟩ (f s) := rfl

@[simp] theorem wp_throw (e : ε) (Q : α → σ → Prop) (E : ε → σ → Prop) (s : σ) :
    wp (throw e : EStateM ε σ α) Q E s = E e s := rfl

@[simp] theorem wp_ite (c : Prop) [Decidable c] (x y : EStateM ε σ α) (Q : α → σ → Prop)
    (E : ε → σ → Prop) (s : σ) :
    wp (if c then x else y) Q E s = if c then wp x Q E s else wp y Q E s := by
  split <;> rfl

def require (c : Bool) (e : ε) : EStateM ε σ PUnit := if c then pure ⟨⟩ else throw e

@[simp] theorem wp_require (c : Bool) (e : ε) (Q : PUnit → σ → Prop) (E : ε → σ → Prop) (s : σ) :
    wp (require c e) Q E s = if c then Q ⟨⟩ s else E e s := by
  cases c <;> rfl

/-- Run an operation that reports its success, and exit with `e` when it fails. -/
def attempt (f : σ → Bool × σ) (e : ε) : EStateM ε σ PUnit := fun s =>
  if (f s).1 then .ok ⟨⟩ (f s).2 else .error e (f s).2

@[simp] theorem wp_attempt (f : σ → Bool × σ) (e : ε) (Q : PUnit → σ → Prop)
    (E : ε → σ → Prop) (s : σ) :
    wp (attempt f e) Q E s = if (f s).1 then Q ⟨⟩ (f s).2 else E e (f s).2 := by
  simp only [wp, attempt]
  cases (f s).1 <;> rfl

theorem attempt_bind_of_success {f : σ → Bool × σ} {e : ε} {g : PUnit → EStateM ε σ β} {s t : σ}
    (h : f s = (true, t)) : (attempt f e >>= g) s = g ⟨⟩ t := by
  change EStateM.bind (attempt f e) g s = g ⟨⟩ t
  simp [EStateM.bind, attempt, h]

theorem wp_mono {x : EStateM ε σ α} {Q Q' : α → σ → Prop} {E E' : ε → σ → Prop} {s : σ}
    (h : wp x Q E s) (hQ : ∀ a t, Q a t → Q' a t) (hE : ∀ e t, E e t → E' e t) :
    wp x Q' E' s := by
  simp only [wp] at *
  cases hx : x s <;> rw [hx] at h
  · exact hQ _ _ h
  · exact hE _ _ h

/-- A loop keeps every invariant its body keeps; the invariant sees the processed elements. -/
theorem wp_forM {f : α → EStateM ε σ PUnit} {E : ε → σ → Prop} (I : List α → σ → Prop)
    (xs : List α) {s : σ} (hs : I [] s)
    (hstep : ∀ done a rest t, xs = done ++ a :: rest → I done t →
      wp (f a) (fun _ => I (done ++ [a])) E t) :
    wp (forM xs f) (fun _ => I xs) E s := by
  suffices h : ∀ rest done t, xs = done ++ rest → I done t →
      wp (forM rest f) (fun _ => I xs) E t from h xs [] s rfl hs
  intro rest
  induction rest with
  | nil =>
    intro done t hxs ht
    have hdone : done = xs := by simpa using hxs.symm
    exact hdone ▸ ht
  | cons a rest ih =>
    intro done t hxs ht
    rw [List.forM_cons, wp_bind]
    refine wp_mono (hstep done a rest t hxs ht) ?_ (fun _ _ h => h)
    intro _ t' ht'
    exact ih (done ++ [a]) t' (by simpa using hxs) ht'

theorem wp_foldlM {f : β → α → EStateM ε σ β} {E : ε → σ → Prop} (I : List α → β → σ → Prop)
    (xs : List α) (b : β) {s : σ} (hs : I [] b s)
    (hstep : ∀ done a rest c t, xs = done ++ a :: rest → I done c t →
      wp (f c a) (I (done ++ [a])) E t) :
    wp (xs.foldlM f b) (I xs) E s := by
  suffices h : ∀ rest done c t, xs = done ++ rest → I done c t →
      wp (rest.foldlM f c) (I xs) E t from h xs [] b s rfl hs
  intro rest
  induction rest with
  | nil =>
    intro done c t hxs ht
    have hdone : done = xs := by simpa using hxs.symm
    exact hdone ▸ ht
  | cons a rest ih =>
    intro done c t hxs ht
    rw [List.foldlM_cons, wp_bind]
    refine wp_mono (hstep done a rest c t hxs ht) ?_ (fun _ _ h => h)
    intro c' t' ht'
    exact ih (done ++ [a]) c' t' (by simpa using hxs) ht'

/-- In a loop over a list with distinct labels, the next element has a label of its own. -/
theorem ne_of_nodup_map {f : α → β} {done rest : List α} {a : α}
    (h : ((done ++ a :: rest).map f).Nodup) {d : α} (hd : d ∈ done) : f d ≠ f a := by
  rw [List.map_append, List.map_cons, List.nodup_append] at h
  exact h.2.2 _ (List.mem_map_of_mem hd) _ List.mem_cons_self

private theorem zipIdx_ofFn_next {n : Nat} {g : Fin n → α} {done rest : List (α × Nat)}
    {a : α × Nat} (h : (List.ofFn g).zipIdx = done ++ a :: rest) :
    ∃ hk : done.length < n, a = (g ⟨done.length, hk⟩, done.length) := by
  have hlen : done.length < n := by
    have := congrArg List.length h
    simp only [List.length_zipIdx, List.length_ofFn, List.length_append, List.length_cons] at this
    omega
  have hget := congrArg (fun l => l[done.length]?) h
  simp only [List.getElem?_append_right (Nat.le_refl _), Nat.sub_self, List.getElem?_cons_zero,
    List.getElem?_zipIdx, List.getElem?_ofFn, hlen, dif_pos, Option.map_some, Nat.zero_add] at hget
  exact ⟨hlen, (Option.some.inj hget).symm⟩

theorem wp_forM_zipIdx {n : Nat} {g : Fin n → α} {f : α × Nat → EStateM ε σ PUnit}
    {E : ε → σ → Prop} (I : Nat → σ → Prop) {s : σ} (hs : I 0 s)
    (hstep : ∀ k (hk : k < n) t, I k t → wp (f (g ⟨k, hk⟩, k)) (fun _ => I (k + 1)) E t) :
    wp (forM (List.ofFn g).zipIdx f) (fun _ => I n) E s := by
  have hloop := wp_forM (f := f) (E := E) (fun done => I done.length) (List.ofFn g).zipIdx hs ?_
  · simpa only [List.length_zipIdx, List.length_ofFn] using hloop
  · intro done a rest t hlist ht
    obtain ⟨hk, rfl⟩ := zipIdx_ofFn_next hlist
    rw [List.length_append, List.length_singleton]
    exact hstep done.length hk t ht

theorem forM_singleton (a : α) (f : α → EStateM ε σ PUnit) : forM [a] f = f a := by
  rw [List.forM_cons, List.forM_nil, bind_pure_unit]

theorem eq_ok_of_wp {x : EStateM ε σ PUnit} {s t : σ}
    (h : wp x (fun _ u => u = t) (fun _ _ => False) s) : x s = .ok ⟨⟩ t := by
  simp only [wp] at h
  cases hx : x s with
  | ok a u =>
    rw [hx] at h
    exact congrArg (EStateM.Result.ok a) h
  | error e u =>
    rw [hx] at h
    exact h.elim

/-- An array whose first `k` entries are already those of `new`. -/
def copied {n : Nat} (new old : Fin n → α) (k : Nat) : Fin n → α :=
  fun i => if i.val < k then new i else old i

theorem copied_zero {n : Nat} (new old : Fin n → α) : copied new old 0 = old := by
  funext i
  exact if_neg (Nat.not_lt_zero _)

theorem copied_all {n : Nat} (new old : Fin n → α) : copied new old n = new := by
  funext i
  exact if_pos i.isLt

theorem copied_succ {n : Nat} (new old : Fin n → α) (k : Nat) (hk : k < n) :
    Function.update (copied new old k) ⟨k, hk⟩ (new ⟨k, hk⟩) = copied new old (k + 1) := by
  funext i
  by_cases hi : i = ⟨k, hk⟩
  · rw [hi, Function.update_self]
    exact (if_pos (Nat.lt_succ_self k)).symm
  · have hne : i.val ≠ k := fun he => hi (Fin.ext he)
    rw [Function.update_of_ne hi]
    simp only [copied]
    exact if_congr (by omega) rfl rfl

private theorem finRange_next {n : Nat} {done rest : List (Fin n)} {a : Fin n}
    (h : List.finRange n = done ++ a :: rest) : done.length = a.val := by
  have hlen : done.length < n := by
    have := congrArg List.length h
    simp only [List.length_finRange, List.length_append, List.length_cons] at this
    omega
  have hget := congrArg (fun l => l[done.length]?) h
  simp [hlen] at hget
  exact congrArg Fin.val hget

theorem wp_foldlM_finRange {n : Nat} {f : β → Fin n → EStateM ε σ β} {E : ε → σ → Prop}
    (I : Nat → β → σ → Prop) (b : β) {s : σ} (hs : I 0 b s)
    (hstep : ∀ (k : Fin n) c t, I k c t → wp (f c k) (I (k + 1)) E t) :
    wp ((List.finRange n).foldlM f b) (I n) E s := by
  have hloop := wp_foldlM (f := f) (E := E) (fun done => I done.length) (List.finRange n) b hs ?_
  · simpa only [List.length_finRange] using hloop
  · intro done k rest c t hlist ht
    have hk := finRange_next hlist
    rw [hk] at ht
    rw [List.length_append, List.length_singleton, hk]
    exact hstep k c t ht

/-- A program on a part of the state; `put` stores the part back, however the program ends. -/
def zoom {τ : Type} (part : σ → τ) (put : τ → σ → σ) (x : EStateM ε τ α) : EStateM ε σ α := fun s =>
  match x (part s) with
  | .ok a t => .ok a (put t s)
  | .error e t => .error e (put t s)

@[simp] theorem wp_zoom {τ : Type} (part : σ → τ) (put : τ → σ → σ) (x : EStateM ε τ α)
    (Q : α → σ → Prop) (E : ε → σ → Prop) (s : σ) :
    wp (zoom part put x) Q E s =
      wp x (fun a t => Q a (put t s)) (fun e t => E e (put t s)) (part s) := by
  simp only [wp, zoom]
  cases x (part s) <;> rfl

/-- The state a program leaves behind, however it ends. -/
def finalState (x : EStateM ε σ α) (s : σ) : σ :=
  match x s with
  | .ok _ t => t
  | .error _ t => t

theorem finalState_attempt (f : σ → Bool × σ) (e : ε) (s : σ) :
    finalState (attempt f e) s = (f s).2 := by
  simp only [finalState, attempt]
  cases (f s).1 <;> rfl

theorem attempt_error {f : σ → Bool × σ} {e e' : ε} {s t : σ} (h : attempt f e s = .error e' t) :
    (f s).1 = false := by
  simp only [attempt] at h
  cases hf : (f s).1 with
  | false => rfl
  | true =>
    rw [hf, if_pos rfl] at h
    cases h

theorem finalState_of_wp {P : σ → Prop} {x : EStateM ε σ α} {s : σ}
    (h : wp x (fun _ => P) (fun _ => P) s) : P (finalState x s) := by
  simp only [wp] at h
  simp only [finalState]
  cases hr : x s <;> rw [hr] at h <;> exact h

/-- The program keeps `P`, whether it returns or exits. -/
def Keeps (P : σ → Prop) (x : EStateM ε σ α) : Prop := ∀ s, P s → P (finalState x s)

namespace Keeps

variable {P : σ → Prop}

theorem wp {x : EStateM ε σ α} (hx : Keeps P x) {s : σ} (hs : P s) :
    wp x (fun _ => P) (fun _ => P) s := by
  have h := hx s hs
  simp only [finalState] at h
  simp only [Framework.wp]
  cases hr : x s <;> rw [hr] at h <;> exact h

theorem of_wp {x : EStateM ε σ α} (h : ∀ s, P s → Framework.wp x (fun _ => P) (fun _ => P) s) :
    Keeps P x := fun s hs => finalState_of_wp (h s hs)

theorem bind {x : EStateM ε σ α} {f : α → EStateM ε σ β} (hx : Keeps P x)
    (hf : ∀ a, Keeps P (f a)) : Keeps P (x >>= f) := by
  apply of_wp
  intro s hs
  rw [wp_bind]
  exact wp_mono (hx.wp hs) (fun a _ ht => (hf a).wp ht) (fun _ _ h => h)

theorem forM {f : α → EStateM ε σ PUnit} (hf : ∀ a, Keeps P (f a)) (xs : List α) :
    Keeps P (forM xs f) := by
  apply of_wp
  intro s hs
  exact wp_forM (fun _ => P) xs hs (fun _ a _ _ _ ht => (hf a).wp ht)

theorem pure (a : α) : Keeps P (pure a : EStateM ε σ α) := fun _ hs => hs

theorem throw (e : ε) : Keeps P (throw e : EStateM ε σ α) := fun _ hs => hs

theorem modify {f : σ → σ} (hf : ∀ s, P s → P (f s)) :
    Keeps P (modify f : EStateM ε σ PUnit) := hf

theorem require (c : Bool) (e : ε) : Keeps P (require c e) := by
  cases c
  · exact throw e
  · exact pure _

theorem attempt {f : σ → Bool × σ} (hf : ∀ s, P s → P (f s).2) (e : ε) :
    Keeps P (attempt f e) := by
  apply of_wp
  intro s hs
  rw [wp_attempt]
  split <;> exact hf s hs

end Keeps

/-- Started in `P`, the program ends in `P`, and its early exits satisfy `E`. -/
def Guarded (P : σ → Prop) (E : ε → Prop) (x : EStateM ε σ α) : Prop :=
  ∀ s, P s → wp x (fun _ => P) (fun e t => E e ∧ P t) s

namespace Guarded

variable {P : σ → Prop} {E : ε → Prop}

theorem bind {x : EStateM ε σ α} {f : α → EStateM ε σ β} (hx : Guarded P E x)
    (hf : ∀ a, Guarded P E (f a)) : Guarded P E (x >>= f) := by
  intro s hs
  rw [wp_bind]
  exact wp_mono (hx s hs) (fun a t ht => hf a t ht) (fun _ _ h => h)

theorem seq {x : EStateM ε σ α} {y : EStateM ε σ β} (hx : Guarded P E x) (hy : Guarded P E y) :
    Guarded P E (x >>= fun _ => y) := hx.bind fun _ => hy

theorem pure (a : α) : Guarded P E (pure a : EStateM ε σ α) := fun _ hs => hs

theorem throw {e : ε} (he : E e) : Guarded P E (throw e : EStateM ε σ α) := fun _ hs => ⟨he, hs⟩

theorem modify {f : σ → σ} (hf : ∀ s, P s → P (f s)) :
    Guarded P E (modify f : EStateM ε σ PUnit) := hf

/-- What is read from the state is known to come from a state in `P`. -/
theorem get_bind {f : σ → EStateM ε σ β} (hf : ∀ s, P s → Guarded P E (f s)) :
    Guarded P E (get >>= f) := by
  intro s hs
  rw [wp_bind, wp_get]
  exact hf s hs s hs

theorem require {e : ε} (c : Bool) (he : c = false → E e) : Guarded P E (require c e) := by
  cases c with
  | false => exact throw (he rfl)
  | true => exact pure _

theorem attempt {f : σ → Bool × σ} {e : ε} (hf : ∀ s, P s → P (f s).2) (he : E e) :
    Guarded P E (attempt f e) := by
  intro s hs
  rw [wp_attempt]
  split
  · exact hf s hs
  · exact ⟨he, hf s hs⟩

theorem require_bind {e : ε} {c : Bool} {x : EStateM ε σ β} (he : E e)
    (hx : c = true → Guarded P E x) : Guarded P E (Framework.require c e >>= fun _ => x) := by
  intro s hs
  rw [wp_bind, wp_require]
  split
  · exact hx ‹c = true› s hs
  · exact ⟨he, hs⟩

theorem ite {c : Prop} [Decidable c] {x y : EStateM ε σ α} (hx : c → Guarded P E x)
    (hy : ¬ c → Guarded P E y) : Guarded P E (if c then x else y) := by
  split
  · exact hx ‹c›
  · exact hy ‹¬ c›

theorem forM {f : α → EStateM ε σ PUnit} (xs : List α) (hf : ∀ a ∈ xs, Guarded P E (f a)) :
    Guarded P E (forM xs f) := by
  intro s hs
  refine wp_forM (fun _ => P) xs hs fun done a rest t hxs ht => hf a ?_ t ht
  rw [hxs]
  exact List.mem_append_right _ List.mem_cons_self

theorem foldlM {f : β → α → EStateM ε σ β} (xs : List α) (b : β)
    (hf : ∀ a ∈ xs, ∀ c, Guarded P E (f c a)) : Guarded P E (xs.foldlM f b) := by
  intro s hs
  refine wp_foldlM (fun _ _ => P) xs b hs fun done a rest c t hxs ht => hf a ?_ c t ht
  rw [hxs]
  exact List.mem_append_right _ List.mem_cons_self

theorem keeps {x : EStateM ε σ α} (hx : Guarded P E x) : Keeps P x :=
  Keeps.of_wp fun s hs => wp_mono (hx s hs) (fun _ _ ht => ht) (fun _ _ ht => ht.2)

end Guarded

/-- Started in `P`, the program does not return, and its exit satisfies `E`. -/
def Exits (P : σ → Prop) (E : ε → Prop) (x : EStateM ε σ α) : Prop :=
  ∀ s, P s → wp x (fun _ _ => False) (fun e _ => E e) s

namespace Exits

variable {P P' : σ → Prop} {E : ε → Prop}

theorem bind {x : EStateM ε σ α} (hx : Exits P E x) (f : α → EStateM ε σ β) :
    Exits P E (x >>= f) := by
  intro s hs
  rw [wp_bind]
  exact wp_mono (hx s hs) (fun _ _ h => h.elim) (fun _ _ h => h)

/-- What comes before the exit may change the precondition. -/
theorem after {x : EStateM ε σ α} {f : α → EStateM ε σ β}
    (hx : ∀ s, P s → wp x (fun _ => P') (fun e _ => E e) s) (hf : ∀ a, Exits P' E (f a)) :
    Exits P E (x >>= f) := by
  intro s hs
  rw [wp_bind]
  exact wp_mono (hx s hs) (fun a t ht => hf a t ht) (fun _ _ h => h)

theorem of_guarded {x : EStateM ε σ α} {f : α → EStateM ε σ β} (hx : Guarded P E x)
    (hf : ∀ a, Exits P E (f a)) : Exits P E (x >>= f) :=
  after (fun s hs => wp_mono (hx s hs) (fun _ _ ht => ht) (fun _ _ ht => ht.1)) hf

theorem get_bind {f : σ → EStateM ε σ β} (hf : ∀ s, P s → Exits P E (f s)) :
    Exits P E (get >>= f) := by
  intro s hs
  rw [wp_bind, wp_get]
  exact hf s hs s hs

theorem throw {e : ε} (he : E e) : Exits P E (throw e : EStateM ε σ α) := fun _ _ => he

/-- An operation that always fails. -/
theorem attempt {f : σ → Bool × σ} {e : ε} (hf : ∀ s, P s → (f s).1 = false) (he : E e) :
    Exits P E (Framework.attempt f e) := by
  intro s hs
  rw [wp_attempt, hf s hs]
  exact he

/-- A loop that is bound to reach an element with an exit does not return. -/
theorem forM_append {f : α → EStateM ε σ PUnit} {before after : List α} {a : α}
    (hbefore : ∀ b ∈ before, Guarded P E (f b)) (ha : Exits P E (f a)) :
    Exits P E (forM (before ++ a :: after) f) := by
  rw [List.forM_append]
  refine of_guarded (Guarded.forM before hbefore) fun _ => ?_
  rw [List.forM_cons]
  exact ha.bind _

theorem weaken {x : EStateM ε σ α} (hx : Exits P' E x) (h : ∀ s, P s → P' s) : Exits P E x :=
  fun s hs => hx s (h s hs)

end Exits

/-- Nothing has to be shown about what follows a program that does not return. -/
theorem Guarded.bind_of_exits {P : σ → Prop} {E E' : ε → Prop} {x : EStateM ε σ α}
    (hx : Guarded P E x) (hexits : Exits P E' x) (f : α → EStateM ε σ β) :
    Guarded P E (x >>= f) := by
  intro s hs
  have hguarded := hx s hs
  have hexit := hexits s hs
  rw [wp_bind]
  simp only [wp] at hguarded hexit ⊢
  cases hr : x s with
  | ok a t =>
    rw [hr] at hexit
    exact hexit.elim
  | error e t =>
    rw [hr] at hguarded
    exact hguarded

end Framework
