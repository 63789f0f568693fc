import Lucidac.Framework.Checked

/-!
# Texts in arrays

A text is written into an array element by element, and ends at a mark when it is read again.
-/

namespace Framework

variable {α : Type} {n : Nat}

/-- The text from a cell on; there is none if the end of the array is reached before the mark. -/
def readUntil [DecidableEq α] (mark : α) (cells : Fin n → α) (i : Nat) : Option (List α) :=
  if h : i < n then
    if cells ⟨i, h⟩ = mark then some []
    else (readUntil mark cells (i + 1)).map (cells ⟨i, h⟩ :: ·)
  else none
termination_by n - i

private theorem of_readCell_eq_some {cells : Fin n → α} {i : Nat} {a : α}
    (h : readCell cells i = some a) : ∃ hi : i < n, cells ⟨i, hi⟩ = a := by
  by_cases hi : i < n
  · rw [readCell_of_lt cells hi] at h
    exact ⟨hi, Option.some.inj h⟩
  · rw [readCell_outside cells (Nat.not_lt.mp hi)] at h
    cases h

theorem readUntil_eq [DecidableEq α] {mark : α} {cells : Fin n → α} {text : List α} {i : Nat}
    (htext : ∀ k < text.length, readCell cells (i + k) = text[k]?)
    (hmark : readCell cells (i + text.length) = some mark) :
    readUntil mark cells i = some (text.takeWhile (· ≠ mark)) := by
  induction text generalizing i with
  | nil =>
    have hhere : readCell cells i = some mark := hmark
    obtain ⟨hi, hcell⟩ := of_readCell_eq_some hhere
    rw [readUntil, dif_pos hi, if_pos hcell]
    rfl
  | cons a text ih =>
    have hhere : readCell cells i = some a := htext 0 (Nat.succ_pos _)
    obtain ⟨hi, hcell⟩ := of_readCell_eq_some hhere
    rw [readUntil, dif_pos hi, hcell]
    by_cases ha : a = mark
    · rw [if_pos ha, List.takeWhile_cons_of_neg (by simp [ha])]
    · have hrest : ∀ k < text.length, readCell cells (i + 1 + k) = text[k]? := by
        intro k hk
        have hnext := htext (k + 1) (Nat.succ_lt_succ hk)
        rwa [← Nat.add_assoc, Nat.add_right_comm, List.getElem?_cons_succ] at hnext
      have hend : readCell cells (i + 1 + text.length) = some mark := by
        rw [Nat.add_right_comm]
        exact hmark
      rw [if_neg ha, ih hrest hend, List.takeWhile_cons_of_pos (by simp [ha])]
      rfl

def Starts (cells : Fin n → α) (text : List α) : Prop :=
  ∀ k < text.length, readCell cells k = text[k]?

namespace Starts

variable {cells : Fin n → α} {text : List α}

theorem nil (cells : Fin n → α) : Starts cells [] := fun _ hk => absurd hk (Nat.not_lt_zero _)

theorem take (h : Starts cells text) (m : Nat) : Starts cells (text.take m) := by
  intro k hk
  rw [List.length_take, Nat.lt_min] at hk
  rw [h k hk.2, List.getElem?_take_of_lt hk.1]

theorem update (h : Starts cells text) {i : Fin n} (hi : text.length ≤ i) (a : α) :
    Starts (Function.update cells i a) text := by
  intro k hk
  rw [← h k hk]
  simp only [readCell]
  split
  · rename_i hlt
    rw [Function.update_of_ne (Fin.ne_of_val_ne (Nat.ne_of_lt (Nat.lt_of_lt_of_le hk hi)))]
  · rfl

theorem push (h : Starts cells text) {i : Fin n} (hi : i.val = text.length) (a : α) :
    Starts (Function.update cells i a) (text ++ [a]) := by
  intro k hk
  rw [List.length_append, List.length_singleton] at hk
  by_cases hlast : k = text.length
  · subst hlast
    rw [List.getElem?_concat_length, ← hi, readCell_of_lt _ i.isLt, Function.update_self]
  · rw [List.getElem?_append_left (by omega)]
    exact h.update (Nat.le_of_eq hi.symm) a k (by omega)

theorem terminate [DecidableEq α] (h : Starts cells text) (mark : α) {i : Fin n}
    (hi : i.val = text.length) :
    readUntil mark (Function.update cells i mark) 0 =
      some (text.takeWhile (· ≠ mark)) := by
  apply readUntil_eq
  · intro k hk
    rw [Nat.zero_add]
    exact h.update (Nat.le_of_eq hi.symm) mark k hk
  · rw [Nat.zero_add, ← hi, readCell_of_lt _ i.isLt, Function.update_self]

end Starts

end Framework
