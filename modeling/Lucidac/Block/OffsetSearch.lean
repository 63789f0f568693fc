import Mathlib.Tactic.NormNum
import Mathlib.Tactic.Ring
import Lucidac.Block.MMulCalibration

/-!
# What the offset searches leave behind

A search stores the next offset before it knows whether the next reading asks for it.  The search
for `y` writes the offset that was found for `x` once more, but nothing writes the last offset of
`y`, so that the memory is one step ahead of the DAC unless the first reading ends the search.
-/

namespace Lucidac.MMulCalibration

open Framework

/-! ### One search -/

section Search

variable (input : Input) {readings : Nat → ℚ}

/-- The state after an accepted step. -/
def Multiplier.advance (input : Input) (m : Multiplier) : Multiplier :=
  (input.write (input.offset m.stored) m).2.store input (input.offset m.stored + offsetStep)

/-- What every accepted step preserves holds at the end of a search. -/
theorem search_induction {P : Multiplier → Prop}
    (hstep : ∀ m, P m → (input.write (input.offset m.stored) m).1 = true → P (m.advance input))
    (taken : Nat) (m : Multiplier) (hm : P m) : P (search input readings taken m).multiplier := by
  induction taken, m using search.induct input readings with
  | case1 taken m hneg haccepted ih =>
    rw [search, if_pos hneg, dif_pos haccepted]
    exact ih (hstep m hm haccepted)
  | case2 taken m hneg hrefused =>
    rw [search, if_pos hneg, dif_neg hrefused]
    exact hm
  | case3 taken m hstop =>
    rw [search, if_neg hstop]
    exact hm

theorem taken_search_le (taken : Nat) (m : Multiplier) :
    (search input readings taken m).taken ≤ taken + stepsLeft (input.offset m.stored) + 1 := by
  induction taken, m using search.induct input readings with
  | case1 taken m hneg haccepted ih =>
    have hless := stepsLeft_add (write_accepted haccepted).1
    rw [search, if_pos hneg, dif_pos haccepted]
    simp only [Multiplier.store, offset_setOffset] at ih
    simp only [Multiplier.store]
    omega
  | case2 taken m hneg hrefused =>
    rw [search, if_pos hneg, dif_neg hrefused]
    exact Nat.succ_le_succ (Nat.le_add_right _ _)
  | case3 taken m hstop =>
    rw [search, if_neg hstop]
    exact Nat.succ_le_succ (Nat.le_add_right _ _)

/-- A search ends after at most 22 readings, whatever is read. -/
theorem taken_searchFromMin_le (readings : Nat → ℚ) (m : Multiplier) :
    (searchFromMin input readings m).taken ≤ 22 := by
  have htaken := @taken_search_le input readings 0
    ((input.write (-maxOffset) m).2.store input (-maxOffset))
  have hsteps : stepsLeft (-maxOffset) = 21 := by
    have hfloor : ⌊(maxOffset - -maxOffset) * 100⌋ = 20 := by
      rw [maxOffset, Int.floor_eq_iff]
      norm_num
    rw [stepsLeft, hfloor]
    rfl
  simp only [Multiplier.store, offset_setOffset, hsteps] at htaken
  exact htaken

theorem ahead_of_step {m : Multiplier}
    (haccepted : (input.write (input.offset m.stored) m).1 = true) :
    input.offset (m.advance input).stored =
      input.offset (m.advance input).accepted + offsetStep := by
  obtain ⟨-, -, hvalue⟩ := write_accepted haccepted
  rw [Multiplier.advance, Multiplier.store, offset_setOffset]
  exact congrArg (· + offsetStep) hvalue.symm

/-- Once a step was made the memory stays ahead of the DAC. -/
theorem search_ahead (hneg : readings 0 < 0) {m : Multiplier}
    (haccepted : (input.write (input.offset m.stored) m).1 = true) :
    input.offset (search input readings 0 m).multiplier.stored =
      input.offset (search input readings 0 m).multiplier.accepted + offsetStep := by
  rw [search, if_pos hneg, dif_pos haccepted]
  exact search_induction input
    (P := fun m => input.offset m.stored = input.offset m.accepted + offsetStep)
    (fun _ _ => ahead_of_step input) 1 _ (ahead_of_step input haccepted)

theorem offsetZ_write (value : ℚ) (m : Multiplier) :
    (input.write value m).2.stored = m.stored ∧
      (input.write value m).2.accepted.offsetZ = m.accepted.offsetZ := by
  cases input <;>
  · simp only [Input.write, writeCalibrationInputOffsets]
    split <;> exact ⟨rfl, rfl⟩

/-- The offset of the output is left alone. -/
theorem offsetZ_searchFromMin (readings : Nat → ℚ) (m : Multiplier) :
    (searchFromMin input readings m).multiplier.stored.offsetZ = m.stored.offsetZ ∧
      (searchFromMin input readings m).multiplier.accepted.offsetZ = m.accepted.offsetZ := by
  have hstore (value value' : ℚ) (m : Multiplier) :
      ((input.write value m).2.store input value').stored.offsetZ = m.stored.offsetZ ∧
        ((input.write value m).2.store input value').accepted.offsetZ = m.accepted.offsetZ := by
    obtain ⟨hstored, haccepted⟩ := offsetZ_write input value m
    refine ⟨?_, haccepted⟩
    rw [Multiplier.store, hstored]
    cases input <;> rfl
  refine search_induction input (P := fun next => next.stored.offsetZ = m.stored.offsetZ ∧
    next.accepted.offsetZ = m.accepted.offsetZ) (fun next hnext _ => ?_) 0 _ (hstore _ _ m)
  obtain ⟨hstored, haccepted⟩ := hstore (input.offset next.stored)
    (input.offset next.stored + offsetStep) next
  exact ⟨hstored.trans hnext.1, haccepted.trans hnext.2⟩

end Search

/-! ### The input `x` -/

/-- The offset after some steps. -/
def offsetAt (steps : Nat) : ℚ := -maxOffset + steps * offsetStep

theorem abs_offsetAt_le_iff (steps : Nat) : |offsetAt steps| ≤ maxOffset ↔ steps ≤ 20 := by
  rw [abs_le, offsetAt, maxOffset, offsetStep]
  constructor
  · rintro ⟨-, hle⟩
    have hsteps : (steps : ℚ) ≤ 20 := by linarith
    exact_mod_cast hsteps
  · intro h
    have hsteps : (steps : ℚ) ≤ 20 := by exact_mod_cast h
    have hnonneg : (0 : ℚ) ≤ steps := Nat.cast_nonneg steps
    constructor <;> linarith

theorem offsetAt_succ (steps : Nat) : offsetAt (steps + 1) = offsetAt steps + offsetStep := by
  rw [offsetAt, offsetAt, Nat.cast_succ]
  ring

theorem write_x_accepted_iff (value : ℚ) (m : Multiplier) :
    (Input.x.write value m).1 = true ↔ |value| ≤ maxOffset := by
  have hzero : ¬maxOffset < |(0 : ℚ)| := by
    rw [abs_zero, maxOffset]
    norm_num
  simp only [Input.write, writeCalibrationInputOffsets, hzero, or_false]
  split
  · rename_i h
    exact iff_of_false Bool.false_ne_true (not_le.mpr h)
  · rename_i h
    exact iff_of_true rfl (not_lt.mp h)

theorem search_x_inRange_iff (readings : Nat → ℚ) (taken : Nat) (m : Multiplier)
    (hoffset : m.stored.offsetX = offsetAt taken) :
    |(search .x readings taken m).multiplier.stored.offsetX| ≤ maxOffset ↔
      ∃ k, taken ≤ k ∧ k ≤ 20 ∧ 0 ≤ readings k := by
  induction taken, m using search.induct .x readings with
  | case1 taken m hneg haccepted ih =>
    rw [search, if_pos hneg, dif_pos haccepted]
    rw [ih]
    · constructor
      · rintro ⟨k, hk, hlimit, hreading⟩
        exact ⟨k, Nat.le_of_succ_le hk, hlimit, hreading⟩
      · rintro ⟨k, hk, hlimit, hreading⟩
        refine ⟨k, Nat.lt_of_le_of_ne hk ?_, hlimit, hreading⟩
        rintro rfl
        exact absurd hreading (not_le.mpr hneg)
    · rw [offsetAt_succ, ← hoffset]
      rfl
  | case2 taken m hneg hrefused =>
    have hrange : ¬|m.stored.offsetX| ≤ maxOffset := by
      rwa [write_x_accepted_iff] at hrefused
    rw [search, if_pos hneg, dif_neg hrefused]
    refine iff_of_false hrange ?_
    rintro ⟨k, hk, hlimit, -⟩
    rw [hoffset, abs_offsetAt_le_iff] at hrange
    omega
  | case3 taken m hstop =>
    rw [search, if_neg hstop]
    simp only [hoffset, abs_offsetAt_le_iff]
    constructor
    · intro hlimit
      exact ⟨taken, Nat.le_refl taken, hlimit, not_lt.mp hstop⟩
    · rintro ⟨k, hk, hlimit, -⟩
      exact Nat.le_trans hk hlimit

/-- The offset that was found for `x` can be written again exactly if one of the first 21 readings
is not negative. -/
theorem searchFromMin_x_inRange_iff (readings : Nat → ℚ) (m : Multiplier) :
    |(searchFromMin .x readings m).multiplier.stored.offsetX| ≤ maxOffset ↔
      ∃ k ≤ 20, 0 ≤ readings k := by
  have hstart : ((Input.x.write (-maxOffset) m).2.store .x (-maxOffset)).stored.offsetX =
      offsetAt 0 := by
    rw [offsetAt, Nat.cast_zero, zero_mul, add_zero]
    rfl
  rw [searchFromMin, search_x_inRange_iff readings 0 _ hstart]
  simp only [Nat.zero_le, true_and]

/-! ### The input `y` -/

def Multiplier.InputsInStep (m : Multiplier) : Prop :=
  (|m.stored.offsetX| ≤ maxOffset ∧ |m.stored.offsetY| ≤ maxOffset) ∧
    m.accepted.offsetX = m.stored.offsetX ∧ m.accepted.offsetY = m.stored.offsetY

theorem offsetX_searchFromMin_y (readings : Nat → ℚ) (m : Multiplier) :
    (searchFromMin .y readings m).multiplier.stored.offsetX = m.stored.offsetX := by
  have hstore (value value' : ℚ) (m : Multiplier) :
      ((Input.y.write value m).2.store .y value').stored.offsetX = m.stored.offsetX := by
    rw [Multiplier.store, (offsetZ_write .y value m).1]
    rfl
  exact search_induction .y (P := fun next => next.stored.offsetX = m.stored.offsetX)
    (fun next hnext _ => (hstore _ _ next).trans hnext) 0 _ (hstore _ _ m)

theorem searchFromMin_y_inStep_iff (readings : Nat → ℚ) (m : Multiplier) :
    (searchFromMin .y readings m).multiplier.InputsInStep ↔
      |m.stored.offsetX| ≤ maxOffset ∧ 0 ≤ readings 0 := by
  by_cases hx : |m.stored.offsetX| ≤ maxOffset
  · have hmin : |-maxOffset| ≤ maxOffset := by
      rw [maxOffset]
      norm_num
    have hwrite (m' : Multiplier) (h : m'.stored.offsetX = m.stored.offsetX) :
        Input.y.write (-maxOffset) m' = (true, { m' with accepted :=
          { m'.accepted with offsetX := m'.stored.offsetX, offsetY := -maxOffset } }) := by
      refine if_neg (not_or.mpr ⟨not_lt.mpr ?_, not_lt.mpr hmin⟩)
      rw [h]
      exact hx
    rw [searchFromMin, hwrite m rfl, and_iff_right hx]
    by_cases hneg : readings 0 < 0
    · refine iff_of_false ?_ (not_le.mpr hneg)
      rintro ⟨-, -, hsame⟩
      have hahead := search_ahead .y hneg (congrArg Prod.fst (hwrite
        (Multiplier.store .y (-maxOffset) { m with accepted :=
          { m.accepted with offsetX := m.stored.offsetX, offsetY := -maxOffset } }) rfl))
      simp only [Input.offset, offsetStep] at hahead
      dsimp only at hsame
      linarith
    · rw [search, if_neg hneg]
      exact iff_of_true ⟨⟨hx, hmin⟩, rfl, rfl⟩ (not_lt.mp hneg)
  · refine iff_of_false ?_ fun h => hx h.1
    rintro ⟨⟨h, -⟩, -⟩
    rw [offsetX_searchFromMin_y] at h
    exact hx h

end Lucidac.MMulCalibration
