import Lucidac.Block.OffsetSearch

/-!
# The calibration in the memory and at the DACs

When `calibrate` comes to its end, the multipliers whose offsets were found in the first possible
way have the same calibration in the memory and at the DACs.  For all others the stored values
were refused or never written.
-/

namespace Lucidac.MMulCalibration

open Framework

/-! ### Loops over the multipliers -/

theorem foldl_oneMultiplier (step : Fin 4 → Multiplier → Bool × Multiplier) {idxs : List (Fin 4)}
    (hnodup : idxs.Nodup) (s : Bool × Multipliers) (idx : Fin 4) :
    (idxs.foldl (oneMultiplier step) s).2 idx =
      if idx ∈ idxs then (step idx (s.2 idx)).2 else s.2 idx := by
  induction idxs generalizing s with
  | nil => rfl
  | cons i idxs ih =>
    rw [List.nodup_cons] at hnodup
    rw [List.foldl_cons, ih hnodup.2]
    by_cases hi : idx = i
    · subst hi
      rw [if_neg hnodup.1, if_pos List.mem_cons_self]
      exact Function.update_self ..
    · simp only [List.mem_cons, hi, false_or, oneMultiplier, ne_eq, not_false_eq_true,
        Function.update_of_ne]

theorem forMultipliers_snd (step : Fin 4 → Multiplier → Bool × Multiplier) (s : Bool × Multipliers)
    (idx : Fin 4) : (forMultipliers step s).2 idx = (step idx (s.2 idx)).2 := by
  rw [forMultipliers, foldl_oneMultiplier step (List.nodup_finRange 4),
    if_pos (List.mem_finRange idx)]

/-! ### Writing what is stored -/

/-- The DACs accept every offset. -/
def Acceptable (calibration : MultiplierCalibration) : Prop :=
  |calibration.offsetX| ≤ maxOffset ∧ |calibration.offsetY| ≤ maxOffset ∧
    |calibration.offsetZ| ≤ maxOffset

theorem writeStored_acceptable {m : Multiplier} (h : Acceptable m.stored) :
    writeStored m = (true, ⟨m.stored, m.stored⟩) := by
  obtain ⟨hx, hy, hz⟩ := h
  have hinputs : ¬(maxOffset < |m.stored.offsetX| ∨ maxOffset < |m.stored.offsetY|) :=
    not_or.mpr ⟨not_lt.mpr hx, not_lt.mpr hy⟩
  rw [writeStored, writeCalibrationInputOffsets, if_neg hinputs]
  exact if_neg (not_lt.mpr hz)

theorem writeStored_stored (m : Multiplier) : (writeStored m).2.stored = m.stored := by
  rw [writeStored, writeCalibrationInputOffsets]
  split
  · rfl
  · simp only [if_true, writeCalibrationOutputOffset]
    split <;> rfl

theorem acceptable_of_writeStored {m : Multiplier} (h : (writeStored m).1 = true) :
    Acceptable m.stored := by
  rw [writeStored, writeCalibrationInputOffsets] at h
  split at h
  · cases h
  · rename_i hinputs
    rw [not_or, not_lt, not_lt] at hinputs
    simp only [if_true, writeCalibrationOutputOffset] at h
    split at h
    · cases h
    · rename_i hz
      exact ⟨hinputs.1, hinputs.2, not_lt.mp hz⟩

theorem writeAll_accepted_iff (idxs : List (Fin 4)) (ms : Multipliers) :
    (writeAll idxs ms).1 = true ↔ ∀ idx ∈ idxs, Acceptable (ms idx).stored := by
  induction idxs generalizing ms with
  | nil => exact iff_of_true rfl nofun
  | cons i idxs ih =>
    have hstored (idx : Fin 4) :
        (Function.update ms i (writeStored (ms i)).2 idx).stored = (ms idx).stored := by
      by_cases hi : idx = i
      · subst hi
        rw [Function.update_self, writeStored_stored]
      · rw [Function.update_of_ne hi]
    rw [List.forall_mem_cons, writeAll]
    by_cases hwritten : (writeStored (ms i)).1 = true
    · simp only [hwritten, if_true, ih, hstored]
      exact (and_iff_right (acceptable_of_writeStored hwritten)).symm
    · simp only [hwritten]
      refine iff_of_false (by simp) fun h => hwritten ?_
      rw [writeStored_acceptable h.1]

/-- Every multiplier has offsets that are accepted, and its DAC channels have accepted them. -/
def InStep (ms : Multipliers) : Prop :=
  ∀ idx, Acceptable (ms idx).stored ∧ (ms idx).accepted = (ms idx).stored

theorem writeAll_of_inStep {ms : Multipliers} (h : InStep ms) (idxs : List (Fin 4)) :
    writeAll idxs ms = (true, ms) := by
  induction idxs with
  | nil => rfl
  | cons i idxs ih =>
    obtain ⟨hacceptable, hsame⟩ := h i
    have hwritten : writeStored (ms i) = (true, ms i) := by
      rw [writeStored_acceptable hacceptable]
      exact Prod.ext rfl (congrArg (Multiplier.mk _) hsame.symm)
    rw [writeAll, hwritten]
    simp only [Function.update_eq_self, if_true]
    exact ih

/-! ### One multiplier -/

/-- What `calibrate` does with one multiplier once everything is connected. -/
def calibrateMultiplier (offsetZ : ℚ) (readingsX readingsY : Nat → ℚ) (m : Multiplier) :
    Multiplier :=
  (calibrateInput .y readingsY (calibrateInput .x readingsX (calibrateOutput offsetZ m).2).2).2

theorem calibrateOutput_offsetZ (reading : ℚ) (m : Multiplier) :
    (calibrateOutput reading m).2.stored.offsetZ = -reading ∧
      (|reading| ≤ maxOffset → (calibrateOutput reading m).2.accepted.offsetZ = -reading) := by
  refine ⟨rfl, fun h => ?_⟩
  have haccepted : ¬maxOffset < |-reading| := by
    rw [abs_neg]
    exact not_lt.mpr h
  simp only [calibrateOutput, writeCalibrationOutputOffset, if_neg haccepted]

theorem calibration_ext {c d : MultiplierCalibration} (hx : c.offsetX = d.offsetX)
    (hy : c.offsetY = d.offsetY) (hz : c.offsetZ = d.offsetZ) : c = d := by
  cases c
  cases d
  cases hx
  cases hy
  cases hz
  rfl

/-- The readings with which the offsets of a multiplier are found and written. -/
def FoundAndWritten (offsetZ : ℚ) (readingsX readingsY : Nat → ℚ) : Prop :=
  |offsetZ| ≤ maxOffset ∧ (∃ k ≤ 20, 0 ≤ readingsX k) ∧ 0 ≤ readingsY 0

theorem calibrateMultiplier_inStep_iff (offsetZ : ℚ) (readingsX readingsY : Nat → ℚ)
    (m : Multiplier) :
    Acceptable (calibrateMultiplier offsetZ readingsX readingsY m).stored ∧
        (calibrateMultiplier offsetZ readingsX readingsY m).accepted =
          (calibrateMultiplier offsetZ readingsX readingsY m).stored ↔
      FoundAndWritten offsetZ readingsX readingsY := by
  have hinputs := searchFromMin_y_inStep_iff readingsY
    (calibrateInput .x readingsX (calibrateOutput offsetZ m).2).2
  have hx := searchFromMin_x_inRange_iff readingsX (calibrateOutput offsetZ m).2
  obtain ⟨hz, hzaccepted⟩ := calibrateOutput_offsetZ offsetZ m
  obtain ⟨hzx, hzx'⟩ := offsetZ_searchFromMin .x readingsX (calibrateOutput offsetZ m).2
  obtain ⟨hzy, hzy'⟩ := offsetZ_searchFromMin .y readingsY
    (calibrateInput .x readingsX (calibrateOutput offsetZ m).2).2
  have hstored : (calibrateMultiplier offsetZ readingsX readingsY m).stored.offsetZ = -offsetZ :=
    hzy.trans (hzx.trans hz)
  constructor
  · rintro ⟨⟨hrangeX, hrangeY, hrangeZ⟩, hsame⟩
    rw [hstored, abs_neg] at hrangeZ
    obtain ⟨hfound, hfirst⟩ := hinputs.mp ⟨⟨hrangeX, hrangeY⟩, congrArg (·.offsetX) hsame,
      congrArg (·.offsetY) hsame⟩
    exact ⟨hrangeZ, hx.mp hfound, hfirst⟩
  · rintro ⟨hrangeZ, hfound, hfirst⟩
    obtain ⟨⟨hrangeX, hrangeY⟩, hsameX, hsameY⟩ := hinputs.mpr ⟨hx.mpr hfound, hfirst⟩
    have haccepted : (calibrateMultiplier offsetZ readingsX readingsY m).accepted.offsetZ =
        -offsetZ := hzy'.trans (hzx'.trans (hzaccepted hrangeZ))
    refine ⟨⟨hrangeX, hrangeY, ?_⟩, calibration_ext hsameX hsameY (haccepted.trans hstored.symm)⟩
    rw [hstored, abs_neg]
    exact hrangeZ

/-! ### All multipliers -/

/-- Everything around the searches succeeds, so that `calibrate` comes to its end. -/
def ReachesEnd (around : Surroundings) : Prop :=
  (∃ calibration, around.eeprom = .success calibration ∧ ∀ idx, Acceptable (calibration idx)) ∧
    around.parentCalibrated = true ∧ around.grounded = true ∧ around.connectedX = true ∧
    around.connectedY = true

theorem calibrateOffsets_of_connected (around : Surroundings) (ms : Multipliers)
    (hx : around.connectedX = true) (hy : around.connectedY = true) :
    (calibrateOffsets around ms).searched = true ∧ ∀ idx,
      (calibrateOffsets around ms).multipliers idx = calibrateMultiplier (around.offsetZs idx)
        (around.readingsX idx) (around.readingsY idx) (ms idx) := by
  simp only [calibrateOffsets, hx, hy, Bool.not_true, Bool.false_eq_true, if_false, true_and]
  intro idx
  rw [forMultipliers_snd, forMultipliers_snd, forMultipliers_snd]
  rfl

theorem calibrateOffsets_searched_iff (around : Surroundings) (ms : Multipliers) :
    (calibrateOffsets around ms).searched = true ↔
      around.connectedX = true ∧ around.connectedY = true := by
  rw [calibrateOffsets]
  cases around.connectedX <;> cases around.connectedY <;> simp

theorem loadCalibration_accepted_iff (calibration : Fin 4 → MultiplierCalibration)
    (ms : Multipliers) :
    (loadCalibration calibration ms).1 = true ↔ ∀ idx, Acceptable (calibration idx) := by
  rw [loadCalibration, writeCalibrationToHardware, writeAll_accepted_iff]
  simp only [List.mem_finRange, true_implies]

theorem calibrate_searched_iff (around : Surroundings) (ms : Multipliers) :
    (calibrate around ms).searched = true ↔ ReachesEnd around := by
  rw [calibrate, ReachesEnd]
  cases around.eeprom with
  | incomplete => simp
  | checksumMismatch => simp
  | success calibration =>
    simp only [EepromRead.success.injEq, exists_eq_left', ← loadCalibration_accepted_iff calibration ms]
    cases (loadCalibration calibration ms).1 with
    | false => simp
    | true =>
      cases around.parentCalibrated with
      | false => simp
      | true =>
        cases around.grounded with
        | false => simp
        | true => simp [calibrateOffsets_searched_iff]

theorem calibrate_of_reachesEnd {around : Surroundings} (hend : ReachesEnd around)
    (ms : Multipliers) : ∃ before : Multipliers, ∀ idx, (calibrate around ms).multipliers idx =
      calibrateMultiplier (around.offsetZs idx) (around.readingsX idx) (around.readingsY idx)
        (before idx) := by
  obtain ⟨⟨calibration, heeprom, hacceptable⟩, hparent, hgrounded, hx, hy⟩ := hend
  have hloaded := (loadCalibration_accepted_iff calibration ms).mpr hacceptable
  refine ⟨reset (loadCalibration calibration ms).2, fun idx => ?_⟩
  rw [← (calibrateOffsets_of_connected around _ hx hy).2, calibrate, heeprom]
  simp only [hloaded, hparent, hgrounded, Bool.not_true, Bool.or_self, Bool.false_eq_true, if_false]

theorem calibrate_inStep_of_reachesEnd_iff {around : Surroundings} (hend : ReachesEnd around)
    (ms : Multipliers) : InStep (calibrate around ms).multipliers ↔ ∀ idx,
      FoundAndWritten (around.offsetZs idx) (around.readingsX idx) (around.readingsY idx) := by
  obtain ⟨before, hbefore⟩ := calibrate_of_reachesEnd hend ms
  refine forall_congr' fun idx => ?_
  rw [hbefore, calibrateMultiplier_inStep_iff]

/-- Every search ends after at most 22 readings.  If `calibrate` comes to its end then the stored
offsets are acceptable, equal to what the DACs accepted last, and written again without a change
exactly if no output is read beyond a tenth, the first 21 readings for every `x` have one that is
not negative, and the first reading for every `y` is not. -/
theorem calibrate_inStep_iff (around : Surroundings) (ms : Multipliers) :
    (∀ input readings m, (searchFromMin input readings m).taken ≤ 22) ∧
      (((calibrate around ms).searched = true → InStep (calibrate around ms).multipliers ∧
        writeCalibrationToHardware (calibrate around ms).multipliers =
          (true, (calibrate around ms).multipliers)) ↔
        (ReachesEnd around → ∀ idx, FoundAndWritten (around.offsetZs idx) (around.readingsX idx)
          (around.readingsY idx))) := by
  refine ⟨taken_searchFromMin_le, ?_⟩
  rw [calibrate_searched_iff]
  refine forall_congr' fun hend => ?_
  rw [← calibrate_inStep_of_reachesEnd_iff hend ms]
  exact and_iff_left_of_imp fun h => writeAll_of_inStep h _

/-- An EEPROM with zeros, no offset at the outputs, and one negative reading in the search of every
`y`. -/
def oneStepForY : Surroundings where
  eeprom := .success fun _ => ⟨0, 0, 0⟩
  parentCalibrated := true
  grounded := true
  offsetZs := fun _ => 0
  connectedX := true
  readingsX := fun _ _ => 0
  connectedY := true
  readingsY := fun _ k => if k = 0 then -1 else 1

/-- The search of `y` leaves the memory one step ahead of the DACs. -/
theorem calibrate_oneStepForY :
    (calibrate oneStepForY fun _ => ⟨⟨0, 0, 0⟩, ⟨0, 0, 0⟩⟩).searched = true ∧
      ¬InStep (calibrate oneStepForY fun _ => ⟨⟨0, 0, 0⟩, ⟨0, 0, 0⟩⟩).multipliers := by
  have hzero : |(0 : ℚ)| ≤ maxOffset := by
    rw [abs_zero, maxOffset]
    norm_num
  have hend : ReachesEnd oneStepForY :=
    ⟨⟨_, rfl, fun _ => ⟨hzero, hzero, hzero⟩⟩, rfl, rfl, rfl, rfl⟩
  refine ⟨(calibrate_searched_iff _ _).mpr hend, fun h => ?_⟩
  obtain ⟨-, -, hfirst⟩ := (calibrate_inStep_of_reachesEnd_iff hend _).mp h 0
  exact absurd hfirst (by decide +kernel)

end Lucidac.MMulCalibration
