import Mathlib.Data.List.GetD
import Mathlib.Logic.Function.Basic

/-!
# Memory that is programmed page by page

A program command carries an address and some data.  Behind the last cell of a page the address
goes on with the first cell of the same page, so that data which crosses a page border lands in
front of the address.  Data that fits into the page is stored where it belongs.
-/

namespace Framework.PagedMemory

variable {α : Type}

/-- The cells with `data` stored from `start` on. -/
def store (cells : Nat → α) (start : Nat) (data : List α) : Nat → α := fun a =>
  if start ≤ a then data.getD (a - start) (cells a) else cells a

@[simp] theorem store_nil (cells : Nat → α) (start : Nat) : store cells start [] = cells := by
  funext a
  rw [store, List.getD_nil, ite_self]

theorem store_cons (cells : Nat → α) (start : Nat) (d : α) (ds : List α) :
    store cells start (d :: ds) = store (Function.update cells start d) (start + 1) ds := by
  funext a
  rcases Nat.lt_trichotomy a start with h | rfl | h
  · rw [store, store, if_neg (by omega), if_neg (by omega), Function.update_of_ne (by omega)]
  · rw [store, store, if_pos (Nat.le_refl a), if_neg (by omega), Function.update_self, Nat.sub_self,
      List.getD_cons_zero]
  · obtain ⟨k, rfl⟩ := Nat.exists_eq_add_of_lt h
    rw [store, store, if_pos (by omega), if_pos (by omega), Function.update_of_ne (by omega),
      show start + k + 1 - start = k + 1 by omega, show start + k + 1 - (start + 1) = k by omega,
      List.getD_cons_succ]

theorem store_append (cells : Nat → α) (start : Nat) (ds es : List α) :
    store cells start (ds ++ es) = store (store cells start ds) (start + ds.length) es := by
  induction ds generalizing cells start with
  | nil => simp
  | cons d ds ih =>
    rw [List.cons_append, store_cons, store_cons, ih, List.length_cons]
    congr 1
    omega

theorem store_inside (cells : Nat → α) (start : Nat) (data : List α) {k : Nat}
    (hk : k < data.length) : store cells start data (start + k) = data.get ⟨k, hk⟩ := by
  rw [store, if_pos (Nat.le_add_right start k), Nat.add_sub_cancel_left,
    List.getD_eq_getElem _ _ hk]
  rfl

theorem store_outside (cells : Nat → α) (start : Nat) (data : List α) {a : Nat}
    (ha : ¬(start ≤ a ∧ a < start + data.length)) : store cells start data a = cells a := by
  rw [store]
  split
  · exact List.getD_eq_default _ _ (by omega)
  · rfl

theorem map_store (cells : Nat → α) (start : Nat) (data : List α) :
    (List.range data.length).map (fun k => store cells start data (start + k)) = data := by
  refine List.ext_getElem (by simp) fun k _ hk => ?_
  rw [List.getElem_map, List.getElem_range, store_inside _ _ _ hk]
  rfl

/-! ### Programming -/

section Program

variable (pageSize : Nat)

/-- The address that follows inside of the page. -/
def nextInPage (a : Nat) : Nat := a - a % pageSize + (a + 1) % pageSize

def program (cells : Nat → α) (start : Nat) : List α → Nat → α
  | [] => cells
  | d :: ds => program (Function.update cells start d) (nextInPage pageSize start) ds

variable {pageSize}

theorem nextInPage_of_lt {a : Nat} (h : a % pageSize + 1 < pageSize) :
    nextInPage pageSize a = a + 1 ∧ (a + 1) % pageSize = a % pageSize + 1 := by
  have hone : 1 % pageSize = 1 := Nat.mod_eq_of_lt (by omega)
  have hmod : (a + 1) % pageSize = a % pageSize + 1 := by
    rw [Nat.add_mod, hone, Nat.mod_eq_of_lt h]
  have hle := Nat.mod_le a pageSize
  rw [nextInPage, hmod]
  omega

theorem program_eq_store {cells : Nat → α} {start : Nat} {data : List α}
    (h : start % pageSize + data.length ≤ pageSize) :
    program pageSize cells start data = store cells start data := by
  induction data generalizing cells start with
  | nil => rw [program, store_nil]
  | cons d ds ih =>
    rw [program, store_cons]
    rw [List.length_cons] at h
    cases ds with
    | nil => rw [program, store_nil]
    | cons e es =>
      rw [List.length_cons] at h
      obtain ⟨hnext, hmod⟩ := nextInPage_of_lt (show start % pageSize + 1 < pageSize by omega)
      rw [hnext]
      refine ih ?_
      rw [hmod, List.length_cons]
      omega

end Program

end Framework.PagedMemory
