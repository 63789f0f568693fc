import Lucidac.Block.IBlockHal

/-!
# The command stream closes the requested switches

Every chip is latched by a stream of its own, in which new switches alternate with repetitions
of the last byte.  The loop invariant says how far the requested matrix is closed and that the
remembered byte of every chip is settled on it.
-/

namespace Lucidac.IBlockHal

open Framework

/-! ### Bytes of a command word -/

private theorem chipByte_or (a b : BitVec 32) (chip : Fin 4) :
    chipByte (a ||| b) chip = chipByte a chip ||| chipByte b chip := by
  apply BitVec.eq_of_getLsbD_eq
  intro i hi
  simp [chipByte, hi]

private theorem chipByte_shift (byte : BitVec 8) (chip other : Fin 4) :
    chipByte (byte.setWidth 32 <<< (8 * other.val)) chip = if chip = other then byte else 0 := by
  apply BitVec.eq_of_getLsbD_eq
  intro i hi
  by_cases h : chip = other
  · subst h
    have hlt : 8 * chip.val + i < 32 := by omega
    simp [chipByte, hi, hlt]
  · have hne : chip.val ≠ other.val := fun he => h (Fin.ext he)
    simp [chipByte, hi, h]
    intro _ hge _
    exact BitVec.getLsbD_of_ge _ _ (by omega)

private theorem chipByte_mask (word : BitVec 32) (chip other : Fin 4) :
    chipByte (word &&& (0xFF#32 <<< (8 * other.val))) chip =
      if chip = other then chipByte word chip else 0 := by
  have hmask : (0xFF#32 <<< (8 * other.val)) = (0xFF#8).setWidth 32 <<< (8 * other.val) := rfl
  have hand : chipByte (word &&& (0xFF#32 <<< (8 * other.val))) chip =
      chipByte word chip &&& chipByte (0xFF#32 <<< (8 * other.val)) chip := by
    apply BitVec.eq_of_getLsbD_eq
    intro i hi
    simp [chipByte, hi]
  rw [hand, hmask, chipByte_shift]
  split
  · exact BitVec.and_allOnes
  · exact BitVec.and_zero

private theorem chipByte_chipShare (outputs : Fin 16 → BitVec 32) (remembered : BitVec 32)
    (chip other : Fin 4) (inputIdx : Fin 32) (outputIdx : Fin 16) :
    chipByte (chipShare outputs remembered other inputIdx outputIdx) chip =
      if chip = other then
        if wants outputs inputIdx outputIdx then
          chipCmdWord (.ofNat 8 inputIdx) (.ofNat 8 outputIdx) true
        else chipByte remembered chip
      else 0 := by
  simp only [chipShare]
  split
  · exact chipByte_shift _ _ _
  · exact chipByte_mask _ _ _

def chipInput (chip : Fin 4) (x : Fin 16) : Fin 32 := ⟨16 * (chip.val % 2) + x.val, by omega⟩

def chipOutput (chip : Fin 4) (y : Fin 8) : Fin 16 := ⟨8 * (chip.val / 2) + y.val, by omega⟩

private theorem chipInput_eq (chip : Fin 4) (x : Fin 16) :
    chipInput chip x = if chip = 0 ∨ chip = 2 then iidxOneThree x else iidxTwoFour x := by
  simp only [chipInput, iidxOneThree, iidxTwoFour, numInputs]
  obtain rfl | rfl | rfl | rfl : chip = 0 ∨ chip = 1 ∨ chip = 2 ∨ chip = 3 := by omega
  all_goals
    apply Fin.ext
    simp [Nat.add_comm]

private theorem chipOutput_eq (chip : Fin 4) (y : Fin 8) :
    chipOutput chip y = if chip = 0 ∨ chip = 1 then oidxOneTwo y else oidxThreeFour y := by
  simp only [chipOutput, oidxOneTwo, oidxThreeFour, numOutputs]
  obtain rfl | rfl | rfl | rfl : chip = 0 ∨ chip = 1 ∨ chip = 2 ∨ chip = 3 := by omega
  all_goals
    apply Fin.ext
    simp [Nat.add_comm]

def chipWants (outputs : Fin 16 → BitVec 32) (chip : Fin 4) (x : Fin 16) (y : Fin 8) : Bool :=
  wants outputs (chipInput chip x) (chipOutput chip y)

def newSwitch (outputs : Fin 16 → BitVec 32) (chip : Fin 4) (outputIdx : Fin 8)
    (inputIdx : Fin 16) : Option (LatchCommand (Fin 16 × Fin 8)) :=
  if chipWants outputs chip inputIdx outputIdx then some ⟨(inputIdx, outputIdx), true⟩ else none

private theorem decode_chipCmdWord (chip : Fin 4) (x : Fin 16) (y : Fin 8) :
    decode (chipCmdWord (.ofNat 8 (chipInput chip x)) (.ofNat 8 (chipOutput chip y)) true) =
      ⟨(x, y), true⟩ := by
  revert chip x y
  decide +kernel

private theorem decode_chipByte_command (outputs : Fin 16 → BitVec 32) (remembered : BitVec 32)
    (outputIdx : Fin 8) (inputIdx : Fin 16) (chip : Fin 4) :
    decode (chipByte (command outputs remembered outputIdx inputIdx) chip) =
      (newSwitch outputs chip outputIdx inputIdx).getD (decode (chipByte remembered chip)) := by
  have hbyte : chipByte (command outputs remembered outputIdx inputIdx) chip =
      if chipWants outputs chip inputIdx outputIdx then
        chipCmdWord (.ofNat 8 (chipInput chip inputIdx)) (.ofNat 8 (chipOutput chip outputIdx)) true
      else chipByte remembered chip := by
    simp only [command]
    simp only [chipByte_or, chipByte_chipShare]
    obtain rfl | rfl | rfl | rfl : chip = 0 ∨ chip = 1 ∨ chip = 2 ∨ chip = 3 := by omega
    all_goals
      rw [chipWants, chipInput_eq, chipOutput_eq]
      simp [chipByte]
  rw [hbyte]
  simp only [newSwitch]
  split
  · rw [decode_chipCmdWord]
    rfl
  · rfl

private theorem actualData_iff (outputs : Fin 16 → BitVec 32) (outputIdx : Fin 8)
    (inputIdx : Fin 16) :
    actualData outputs outputIdx inputIdx = true ↔
      ∃ chip, chipWants outputs chip inputIdx outputIdx = true := by
  have hchips (P : Fin 4 → Prop) : (∃ chip, P chip) ↔ P 0 ∨ P 1 ∨ P 2 ∨ P 3 := by
    constructor
    · intro h
      obtain ⟨chip, h⟩ := h
      obtain rfl | rfl | rfl | rfl : chip = 0 ∨ chip = 1 ∨ chip = 2 ∨ chip = 3 := by omega
      all_goals simp [h]
    · rintro (h | h | h | h) <;> exact ⟨_, h⟩
  rw [hchips]
  simp [actualData, chipWants, chipInput_eq, chipOutput_eq, or_assoc]

/-! ### The loop invariant -/

/-- The part of the requested matrix closed on a chip when the loops stand at output pair
`pair` and input pair `column`. -/
def progress (outputs : Fin 16 → BitVec 32) (pair column : Nat) (chip : Fin 4) :
    Fin 16 × Fin 8 → Bool := fun (x, y) =>
  chipWants outputs chip x y && decide (y.val < pair ∨ y.val = pair ∧ x.val < column)

private theorem progress_succ (outputs : Fin 16 → BitVec 32) (outputIdx : Fin 8)
    (inputIdx : Fin 16) (chip : Fin 4) :
    progress outputs outputIdx (inputIdx + 1) chip =
      (newSwitch outputs chip outputIdx inputIdx).elim (progress outputs outputIdx inputIdx chip)
        (·.apply (progress outputs outputIdx inputIdx chip)) := by
  funext ⟨x, y⟩
  simp only [newSwitch]
  by_cases hat : x = inputIdx ∧ y = outputIdx
  · obtain ⟨rfl, rfl⟩ := hat
    cases h : chipWants outputs chip x y
    · simp [progress, h]
    · simp [progress, h, LatchCommand.apply]
  · have hcolumn : (y.val < outputIdx.val ∨ y.val = outputIdx.val ∧ x.val < inputIdx.val + 1) ↔
        (y.val < outputIdx.val ∨ y.val = outputIdx.val ∧ x.val < inputIdx.val) := by
      rw [Fin.ext_iff, Fin.ext_iff] at hat
      omega
    have hsame : progress outputs outputIdx (inputIdx + 1) chip (x, y) =
        progress outputs outputIdx inputIdx chip (x, y) := by
      simp only [progress, hcolumn]
    have hne : (x, y) ≠ (inputIdx, outputIdx) := by simpa using hat
    rw [hsame]
    split
    · simp [LatchCommand.apply, hne]
    · rfl

private theorem progress_row (outputs : Fin 16 → BitVec 32) (pair : Nat) (chip : Fin 4) :
    progress outputs pair 16 chip = progress outputs (pair + 1) 0 chip := by
  funext ⟨x, y⟩
  have hrow : (y.val < pair ∨ y.val = pair ∧ x.val < 16) ↔
      (y.val < pair + 1 ∨ y.val = pair + 1 ∧ x.val < 0) := by
    omega
  simp only [progress, hrow]

private theorem progress_skip {outputs : Fin 16 → BitVec 32} {outputIdx : Fin 8}
    (h : ∀ chip, outputs (chipOutput chip outputIdx) = 0) (chip : Fin 4) :
    progress outputs outputIdx 0 chip = progress outputs (outputIdx + 1) 0 chip := by
  funext ⟨x, y⟩
  by_cases hy : y = outputIdx
  · subst hy
    simp [progress, chipWants, wants, h chip]
  · have hne : y.val ≠ outputIdx.val := fun he => hy (Fin.ext he)
    have hrow : (y.val < outputIdx.val ∨ y.val = outputIdx.val ∧ x.val < 0) ↔
        (y.val < outputIdx.val + 1 ∨ y.val = outputIdx.val + 1 ∧ x.val < 0) := by
      omega
    simp only [progress, hrow]

/-- The bank shows the progress of the loops, and every remembered byte is settled on it. -/
def Tracks (outputs : Fin 16 → BitVec 32) (bank : CrosspointBank) (pair column : Nat)
    (remembered : BitVec 32) (events : List BusEvent) : Prop :=
  ∀ chip, (bank.replay events).chips chip = progress outputs pair column chip ∧
    (decode (chipByte remembered chip)).Settled (progress outputs pair column chip)

private theorem replay_command (bank : CrosspointBank) (events : List BusEvent) (word : BitVec 32)
    (chip : Fin 4) :
    (bank.replay (events ++ [.transfer32 word] ++ [.matrixSync])).chips chip =
      (decode (chipByte word chip)).apply ((bank.replay events).chips chip) := by
  rw [CrosspointBank.replay_append, CrosspointBank.replay_append]
  rfl

private theorem writeSwitches_tracks {transferOk : List BusEvent → Bool}
    (hok : ∀ events, transferOk events = true) {outputs : Fin 16 → BitVec 32}
    {bank : CrosspointBank} {outputIdx : Fin 8} {inputIdx : Fin 16} {remembered : BitVec 32}
    {events : List BusEvent} (h : Tracks outputs bank outputIdx inputIdx remembered events) :
    wp (writeSwitches transferOk outputs outputIdx remembered inputIdx)
      (Tracks outputs bank outputIdx (inputIdx + 1)) (fun _ _ => False) events := by
  simp only [writeSwitches]
  by_cases hdata : actualData outputs outputIdx inputIdx = true
  · simp only [hdata, if_true, transfer32, trigger, wp_bind, wp_attempt, hok, wp_modify, wp_pure]
    intro chip
    obtain ⟨hchip, hsettled⟩ := h chip
    obtain ⟨happly, hnext⟩ := LatchCommand.resend hsettled (newSwitch outputs chip outputIdx inputIdx)
    rw [replay_command, hchip, decode_chipByte_command, progress_succ, ← happly]
    exact ⟨rfl, hnext⟩
  · rw [if_neg hdata, wp_pure]
    intro chip
    have hnone : newSwitch outputs chip outputIdx inputIdx = none := by
      simp only [newSwitch]
      rw [if_neg fun hw => hdata ((actualData_iff ..).mpr ⟨chip, hw⟩)]
    rw [progress_succ, hnone]
    exact h chip

private theorem writeOutputPair_tracks {transferOk : List BusEvent → Bool}
    (hok : ∀ events, transferOk events = true) {outputs : Fin 16 → BitVec 32}
    {bank : CrosspointBank} {outputIdx : Fin 8} {remembered : BitVec 32}
    {events : List BusEvent} (h : Tracks outputs bank outputIdx 0 remembered events) :
    wp (writeOutputPair transferOk outputs remembered outputIdx)
      (Tracks outputs bank (outputIdx + 1) 0) (fun _ _ => False) events := by
  simp only [writeOutputPair]
  split
  · rename_i hempty
    rw [wp_pure]
    intro chip
    have hzero (chip : Fin 4) : outputs (chipOutput chip outputIdx) = 0 := by
      rw [chipOutput_eq]
      split
      · exact hempty.1
      · exact hempty.2
    rw [← progress_skip hzero]
    exact h chip
  · refine wp_mono (wp_foldlM_finRange (Tracks outputs bank outputIdx) _ h ?_) ?_ (fun _ _ hf => hf)
    · intro inputIdx remembered' events' htracks
      exact writeSwitches_tracks hok htracks
    · intro remembered' events' htracks chip
      rw [← progress_row]
      exact htracks chip

private theorem tracks_reset (outputs : Fin 16 → BitVec 32) (bank : CrosspointBank) :
    Tracks outputs bank 0 0 0 [.matrixReset] := by
  intro chip
  have hopen : progress outputs 0 0 chip = fun _ => false := by
    funext ⟨x, y⟩
    simp [progress]
  rw [hopen]
  refine ⟨rfl, LatchCommand.settled_of_position ?_⟩
  simp [decode, chipByte]

private theorem writeOutputs_tracks {transferOk : List BusEvent → Bool}
    (hok : ∀ events, transferOk events = true) (outputs : Fin 16 → BitVec 32)
    (bank : CrosspointBank) :
    wp (writeOutputs transferOk outputs)
      (fun _ events => ∃ remembered, Tracks outputs bank 8 0 remembered events)
      (fun _ _ => False) [] := by
  simp only [writeOutputs, trigger, wp_bind, wp_modify, List.nil_append]
  refine wp_mono (wp_foldlM_finRange (fun pair => Tracks outputs bank pair 0) _
    (tracks_reset outputs bank) ?_) ?_ (fun _ _ hf => hf)
  · intro outputIdx remembered events htracks
    exact writeOutputPair_tracks hok htracks
  · intro remembered events htracks
    exact ⟨remembered, htracks⟩

/-- When the loops are through, the switch of every input and output is where it was requested. -/
private theorem Tracks.closed {outputs : Fin 16 → BitVec 32} {bank : CrosspointBank}
    {remembered : BitVec 32} {events : List BusEvent}
    (htracks : Tracks outputs bank 8 0 remembered events) (input : Fin 32) (output : Fin 16) :
    (bank.replay events).closed input output = (outputs output).getLsbD input := by
  have hinput : chipInput ⟨2 * (output.val / 8) + input.val / 16, by omega⟩
      ⟨input.val % 16, by omega⟩ = input := by
    apply Fin.ext
    simp only [chipInput]
    omega
  have houtput : chipOutput ⟨2 * (output.val / 8) + input.val / 16, by omega⟩
      ⟨output.val % 8, by omega⟩ = output := by
    apply Fin.ext
    simp only [chipOutput]
    omega
  have hdone : output.val % 8 < 8 := by omega
  simp only [CrosspointBank.closed]
  rw [(htracks _).1, ← and_inputBitmask _ input.isLt]
  simp only [progress, chipWants, wants, hinput, houtput, hdone, true_or, decide_true,
    Bool.and_true]

/-- Whatever state the matrix is in, replaying what `writeOutputs` sends closes exactly the
requested switches. -/
theorem writeOutputs_closed (outputs : Fin 16 → BitVec 32) (bank : CrosspointBank) :
    ∃ events, writeOutputs (fun _ => true) outputs [] = .ok ⟨⟩ events ∧
      ∀ input output,
        (bank.replay events).closed input output = (outputs output).getLsbD input := by
  have hrun := writeOutputs_tracks (fun _ => rfl) outputs bank
  simp only [wp] at hrun
  cases hres : writeOutputs (fun _ => true) outputs [] with
  | error e events =>
    rw [hres] at hrun
    exact hrun.elim
  | ok a events =>
    rw [hres] at hrun
    obtain ⟨remembered, htracks⟩ := hrun
    exact ⟨events, rfl, htracks.closed⟩

example : writeOutputs (fun _ => true)
    (fun output => if output = 0 then 0b01 else if output = 3 then 0b10 else 0) [] =
      .ok ⟨⟩ [.matrixReset, .transfer32 0b10000000, .matrixSync, .transfer32 0b10110001,
        .matrixSync] := by
  rfl

end Lucidac.IBlockHal
