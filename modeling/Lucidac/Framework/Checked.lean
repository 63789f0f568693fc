import Mathlib.Logic.Function.Basic

/-!
# Operations that are not defined everywhere

Machine code may divide by zero, shift by the width of a word or leave an allocated block, and
then means nothing.  Such a step has no result here, and neither has a search that reaches it.
-/

namespace Framework

section Words

variable {w : Nat}

def divide (a b : BitVec w) : Option (BitVec w) := if b = 0 then none else some (a / b)

def remainder (a b : BitVec w) : Option (BitVec w) := if b = 0 then none else some (a % b)

def shiftLeft (a : BitVec w) (n : Nat) : Option (BitVec w) := if n < w then some (a <<< n) else none

@[simp] theorem divide_zero (a : BitVec w) : divide a 0 = none := if_pos rfl

theorem divide_of_ne_zero (a : BitVec w) {b : BitVec w} (h : b ≠ 0) : divide a b = some (a / b) :=
  if_neg h

theorem remainder_of_ne_zero (a : BitVec w) {b : BitVec w} (h : b ≠ 0) :
    remainder a b = some (a % b) :=
  if_neg h

theorem shiftLeft_of_lt (a : BitVec w) {n : Nat} (h : n < w) : shiftLeft a n = some (a <<< n) :=
  if_pos h

end Words

theorem mapM_of_forall_eq_some {α β : Type} {f : α → Option β} {g : α → β} {l : List α}
    (h : ∀ a ∈ l, f a = some (g a)) : l.mapM f = some (l.map g) := by
  induction l with
  | nil => rfl
  | cons a l ih =>
    rw [List.mapM_cons, h a List.mem_cons_self, ih fun b hb => h b (List.mem_cons_of_mem a hb)]
    rfl

/-! ### Searching a list -/

section Search

variable {α : Type} (p : α → Option Bool)

theorem anyM_of_forall_eq_some {p : α → Option Bool} {q : α → Bool} {xs : List α}
    (h : ∀ a ∈ xs, p a = some (q a)) : xs.anyM p = some (xs.any q) := by
  induction xs with
  | nil => rfl
  | cons a xs ih =>
    simp only [List.anyM, h a List.mem_cons_self, ih fun b hb => h b (List.mem_cons_of_mem a hb)]
    cases h : q a <;> simp [h]

theorem anyM_eq_some_false_iff (xs : List α) :
    xs.anyM p = some false ↔ ∀ a ∈ xs, p a = some false := by
  induction xs with
  | nil => simp [List.anyM]
  | cons a xs ih =>
    simp only [List.anyM, List.forall_mem_cons, ← ih]
    cases p a with
    | none => simp
    | some found => cases found <;> simp

/-- The search finds an element exactly if no test before it lacks a result. -/
theorem anyM_eq_some_true_iff (xs : List α) :
    xs.anyM p = some true ↔ ∃ (k : Nat) (a : α), xs[k]? = some a ∧ p a = some true ∧
      ∀ j, j < k → ∀ b, xs[j]? = some b → (p b).isSome = true := by
  induction xs with
  | nil => simp [List.anyM]
  | cons x xs ih =>
    cases hx : p x with
    | none =>
      refine ⟨fun h => absurd h (by simp [List.anyM, hx]), ?_⟩
      rintro ⟨k, a, hk, ha, hbefore⟩
      cases k with
      | zero => simp_all
      | succ k =>
        have h := hbefore 0 (Nat.succ_pos k) x rfl
        simp [hx] at h
    | some found =>
      cases found with
      | true =>
        refine ⟨fun _ => ⟨0, x, rfl, hx, fun j hj => absurd hj (Nat.not_lt_zero j)⟩, fun _ => ?_⟩
        simp [List.anyM, hx]
      | false =>
        have hskip : (x :: xs).anyM p = xs.anyM p := by simp [List.anyM, hx]
        rw [hskip, ih]
        constructor
        · rintro ⟨k, a, hk, ha, hbefore⟩
          refine ⟨k + 1, a, hk, ha, fun j hj b hb => ?_⟩
          cases j with
          | zero => simp_all
          | succ j => exact hbefore j (Nat.lt_of_succ_lt_succ hj) b hb
        · rintro ⟨k, a, hk, ha, hbefore⟩
          cases k with
          | zero => simp_all
          | succ k =>
            exact ⟨k, a, hk, ha, fun j hj b hb => hbefore (j + 1) (Nat.succ_lt_succ hj) b hb⟩

end Search

/-! ### Arrays of fixed size -/

section Arrays

variable {α : Type} {n i : Nat}

def readCell (cells : Fin n → α) (i : Nat) : Option α :=
  if h : i < n then some (cells ⟨i, h⟩) else none

def writeCell (cells : Fin n → α) (i : Nat) (a : α) : Option (Fin n → α) :=
  if h : i < n then some (Function.update cells ⟨i, h⟩ a) else none

theorem readCell_of_lt (cells : Fin n → α) (h : i < n) : readCell cells i = some (cells ⟨i, h⟩) :=
  dif_pos h

theorem writeCell_of_lt (cells : Fin n → α) (a : α) (h : i < n) :
    writeCell cells i a = some (Function.update cells ⟨i, h⟩ a) :=
  dif_pos h

theorem readCell_outside (cells : Fin n → α) (h : n ≤ i) : readCell cells i = none :=
  dif_neg (Nat.not_lt.mpr h)

theorem writeCell_outside (cells : Fin n → α) (a : α) (h : n ≤ i) : writeCell cells i a = none :=
  dif_neg (Nat.not_lt.mpr h)

end Arrays

/-! ### Blocks of memory -/

/-- An allocated block; a cell that was never written holds nothing. -/
structure Block (α : Type) where
  size : Nat
  cell : Nat → Option α

namespace Block

variable {α : Type} {b : Block α} {i : Nat}

def allocate (size : Nat) : Block α := ⟨size, fun _ => none⟩

def store (i : Nat) (a : α) (b : Block α) : Option (Block α) :=
  if i < b.size then some { b with cell := Function.update b.cell i (some a) } else none

/-- Reading a cell, with what it holds. -/
def load (b : Block α) (i : Nat) : Option (Option α) := if i < b.size then some (b.cell i) else none

/-- Reading a cell that was written, and writing it again. -/
def modify (i : Nat) (f : α → α) (b : Block α) : Option (Block α) := do
  let a ← (b.load i).join
  b.store i (f a)

theorem store_of_lt (a : α) (h : i < b.size) :
    b.store i a = some { b with cell := Function.update b.cell i (some a) } :=
  if_pos h

theorem load_of_lt (h : i < b.size) : b.load i = some (b.cell i) := if_pos h

/-- The block with `count` cells overwritten from `start` on. -/
def overwrite (b : Block α) (start count : Nat) (a : Nat → α) : Block α :=
  { b with cell := fun i => if start ≤ i ∧ i < start + count then some (a (i - start)) else b.cell i }

section Overwrite

variable {start count : Nat} {a : Nat → α}

@[simp] theorem size_overwrite : (b.overwrite start count a).size = b.size := rfl

theorem cell_overwrite_of_lt {j : Nat} (h : j < count) :
    (b.overwrite start count a).cell (start + j) = some (a j) := by
  simp only [overwrite]
  rw [if_pos ⟨Nat.le_add_right _ _, Nat.add_lt_add_left h start⟩, Nat.add_sub_cancel_left]

theorem cell_overwrite_of_not (h : ¬ (start ≤ i ∧ i < start + count)) :
    (b.overwrite start count a).cell i = b.cell i :=
  if_neg h

theorem overwrite_zero : b.overwrite start 0 a = b := by
  have hcell : (b.overwrite start 0 a).cell = b.cell := by
    funext i
    exact cell_overwrite_of_not (by omega)
  exact congrArg (Block.mk b.size) hcell

theorem overwrite_congr {a' : Nat → α} (h : ∀ j < count, a j = a' j) :
    b.overwrite start count a = b.overwrite start count a' := by
  simp only [overwrite]
  congr 1
  funext i
  split
  · next hi => rw [h _ (by omega)]
  · rfl

theorem store_overwrite (h : start + count < b.size) :
    (b.overwrite start count a).store (start + count) (a count) =
      some (b.overwrite start (count + 1) a) := by
  have hlt : start + count < (b.overwrite start count a).size := h
  have hcell : Function.update (b.overwrite start count a).cell (start + count) (some (a count)) =
      (b.overwrite start (count + 1) a).cell := by
    funext i
    by_cases hi : i = start + count
    · rw [hi, Function.update_self, cell_overwrite_of_lt (Nat.lt_succ_self count)]
    · rw [Function.update_of_ne hi]
      exact if_congr (by omega) rfl rfl
  exact (store_of_lt _ hlt).trans (congrArg (fun cell => some (Block.mk b.size cell)) hcell)

theorem modify_overwrite {k : Nat} (f : α → α) (hk : k < count) (h : start + count ≤ b.size) :
    (b.overwrite start count a).modify (start + k) f =
      some (b.overwrite start count (Function.update a k (f (a k)))) := by
  have hlt : start + k < (b.overwrite start count a).size := by
    rw [size_overwrite]
    omega
  have hcell : Function.update (b.overwrite start count a).cell (start + k) (some (f (a k))) =
      (b.overwrite start count (Function.update a k (f (a k)))).cell := by
    funext i
    by_cases hi : i = start + k
    · rw [hi, Function.update_self, cell_overwrite_of_lt hk, Function.update_self]
    · rw [Function.update_of_ne hi]
      simp only [overwrite]
      split
      · rw [Function.update_of_ne (by omega)]
      · rfl
  rw [modify, load_of_lt hlt, cell_overwrite_of_lt hk]
  exact (store_of_lt _ hlt).trans (congrArg (fun cell => some (Block.mk b.size cell)) hcell)

theorem foldlM_store (h : start + count ≤ b.size) :
    (List.range count).foldlM (fun b j => b.store (start + j) (a j)) b =
      some (b.overwrite start count a) := by
  induction count with
  | zero =>
    rw [overwrite_zero]
    rfl
  | succ count ih =>
    rw [List.range_succ, List.foldlM_append, ih (by omega), Option.bind_eq_bind, Option.bind_some,
      List.foldlM_cons, store_overwrite (by omega)]
    rfl

theorem foldlM_modify (f : Nat → α → α) (h : start + count ≤ b.size) {k : Nat} (hk : k ≤ count) :
    (List.range k).foldlM (fun b j => b.modify (start + j) (f j)) (b.overwrite start count a) =
      some (b.overwrite start count fun j => if j < k then f j (a j) else a j) := by
  induction k with
  | zero => rfl
  | succ k ih =>
    rw [List.range_succ, List.foldlM_append, ih (by omega), Option.bind_eq_bind, Option.bind_some,
      List.foldlM_cons, modify_overwrite _ (by omega) h, if_neg (Nat.lt_irrefl k)]
    refine congrArg some (overwrite_congr ?_)
    intro j _
    by_cases hj : j = k
    · rw [hj, Function.update_self, if_pos (Nat.lt_succ_self k)]
    · rw [Function.update_of_ne hj]
      exact if_congr (by omega) rfl rfl

end Overwrite

end Block

end Framework
