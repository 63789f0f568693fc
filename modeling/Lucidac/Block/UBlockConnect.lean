import Lucidac.Block.UBlock

/-!
# Connecting lanes of the U block

Both connecting operations have a closed form: either the guards refuse and the block is
unchanged, or one lane takes its entry and the side that feeds it takes its mode.  From these
forms follow what a connected lane carries, and when the other lanes keep their signal.
-/

namespace Lucidac.UBlock

/-- The B side feeds this output, judged by its map entry. -/
def fedFromBSide (s : UBlock) (output : Fin 32) : Bool :=
  if output.val < 16 then s.outputInputMap output == 15 else s.outputInputMap output == 14

def feedingMode (s : UBlock) (output : Fin 32) : TransmissionMode :=
  if s.fedFromBSide output then s.bSideMode else s.aSideMode

inductive Signal where
  | blockInput (entry : Int)
  | posRef (magnitude : ReferenceMagnitude)
  | negRef (magnitude : ReferenceMagnitude)
  | ground
deriving DecidableEq

/-- The signal at a connected output. -/
def signal (s : UBlock) (output : Fin 32) : Signal :=
  match s.feedingMode output with
  | .analogInput => .blockInput (s.outputInputMap output)
  | .posRef => .posRef s.refMagnitude
  | .negRef => .negRef s.refMagnitude
  | .ground => .ground

def laneMode (s : UBlock) (input output : Nat) : TransmissionMode :=
  if bSideLane input output then s.bSideMode else s.aSideMode

def UsesInput (s : UBlock) (input : Nat) : Prop := ∃ output, s.outputInputMap output = input

instance (s : UBlock) (input : Nat) : Decidable (s.UsesInput input) :=
  inferInstanceAs (Decidable (∃ output, s.outputInputMap output = input))

/-- The guards of `connect` for an output in range. -/
def ConnectAllowed (s : UBlock) (input : Nat) (output : Fin 32) (force : Bool) : Prop :=
  input < 16 ∧ (force = false → s.outputInputMap output < 0 ∧
    (s.laneMode input output ≠ .analogInput → ¬ s.UsesInput input))

instance (s : UBlock) (input : Nat) (output : Fin 32) (force : Bool) :
    Decidable (s.ConnectAllowed input output force) :=
  inferInstanceAs (Decidable (_ ∧ _))

def withLane (s : UBlock) (input : Nat) (output : Fin 32) (bSide : Bool)
    (mode : TransmissionMode) : UBlock :=
  { outputInputMap := Function.update s.outputInputMap output input
    refMagnitude := s.refMagnitude
    aSideMode := if bSide then s.aSideMode else mode
    bSideMode := if bSide then mode else s.bSideMode }

theorem aSideLane_eq_not_bSideLane (input output : Nat) :
    aSideLane input output = !bSideLane input output := by
  simp only [aSideLane, bSideLane]
  by_cases ho : output < 16
  · simp [ho, Nat.not_le.mpr ho, bne]
  · simp [ho, Nat.not_lt.mp ho, bne]

theorem isInputConnected_iff (s : UBlock) {input : Nat} (h : input < 16) :
    s.isInputConnected input = true ↔ s.UsesInput input := by
  simp [isInputConnected, iSanityCheck, numOfInputs, h, isInputConnectedUnchecked, UsesInput]

theorem connect_of_range (s : UBlock) (input output : Nat) (force : Bool) (h : 32 ≤ output) :
    s.connect input output force = (false, s) := by
  simp only [connect]
  rw [dif_neg (by omega)]

/-- The guards in the order of the source, where only the side that feeds the lane matters. -/
theorem connect_guards (s : UBlock) {input : Nat} (hi : input < 16) (output : Fin 32)
    (force : Bool) :
    s.connect input output force =
      if (!force && s.isOutputConnectedUnchecked output) = true then (false, s)
      else if (s.laneMode input output != .analogInput && !force && s.isInputConnected input) = true
        then (false, s)
      else (true, s.withLane input output (bSideLane input output) .analogInput) := by
  simp only [connect]
  rw [dif_pos ⟨by simp [iSanityCheck, numOfInputs, hi], output.isLt⟩,
    aSideLane_eq_not_bSideLane, laneMode]
  cases bSideLane input output with
  | false =>
    by_cases hmode : s.aSideMode = .analogInput
    · simp [hmode, withLane, connectUnchecked]
    · simp [hmode, withLane, connectUnchecked, changeASideTransmissionMode]
  | true =>
    by_cases hmode : s.bSideMode = .analogInput
    · simp [hmode, withLane, connectUnchecked]
    · simp [hmode, withLane, connectUnchecked, changeBSideTransmissionMode]

theorem connectAllowed_iff (s : UBlock) {input : Nat} (hi : input < 16) (output : Fin 32)
    (force : Bool) :
    s.ConnectAllowed input output force ↔
      ¬ (!force && s.isOutputConnectedUnchecked output) = true ∧
        ¬ (s.laneMode input output != .analogInput && !force && s.isInputConnected input) = true := by
  have hconnected := isInputConnected_iff s hi
  cases force with
  | true => simp [ConnectAllowed, hi]
  | false => simp [ConnectAllowed, hi, isOutputConnectedUnchecked, hconnected]

theorem connect_eq (s : UBlock) (input : Nat) (output : Fin 32) (force : Bool) :
    s.connect input output force =
      if s.ConnectAllowed input output force then
        (true, s.withLane input output (bSideLane input output) .analogInput)
      else (false, s) := by
  by_cases hi : input < 16
  · rw [connect_guards s hi]
    by_cases hallowed : s.ConnectAllowed input output force
    · obtain ⟨hoccupied, hused⟩ := (connectAllowed_iff s hi output force).mp hallowed
      rw [if_pos hallowed, if_neg hoccupied, if_neg hused]
    · rw [if_neg hallowed]
      by_cases hoccupied : (!force && s.isOutputConnectedUnchecked output) = true
      · rw [if_pos hoccupied]
      · rw [if_neg hoccupied, if_pos]
        by_contra hused
        exact hallowed ((connectAllowed_iff s hi output force).mpr ⟨hoccupied, hused⟩)
  · simp only [connect]
    rw [dif_neg (by simp [iSanityCheck, numOfInputs, hi])]
    simp [ConnectAllowed, hi]

/-- The guards of `connect_alternative` for an output in range. -/
def AlternativeAllowed (s : UBlock) (signalMode : TransmissionMode) (output : Fin 32)
    (force useASide : Bool) : Prop :=
  signalMode ≠ .analogInput ∧ (force = false →
    (signalMode = .posRef ∨ signalMode = .negRef → s.refMagnitude = .one) ∧
    s.outputInputMap output < 0 ∧
    (useASide = true → s.aSideMode = signalMode) ∧
    (useASide = false → s.bSideMode ≠ signalMode → ¬ s.UsesInput 14 ∧ ¬ s.UsesInput 15))

instance (s : UBlock) (signalMode : TransmissionMode) (output : Fin 32) (force useASide : Bool) :
    Decidable (s.AlternativeAllowed signalMode output force useASide) :=
  inferInstanceAs (Decidable (_ ∧ _))

theorem connectAlternative_of_range (s : UBlock) (signalMode : TransmissionMode) (output : Nat)
    (force useASide : Bool) (h : 32 ≤ output) :
    s.connectAlternative signalMode output force useASide = (false, s) := by
  simp only [connectAlternative]
  rw [dif_neg (by omega)]

theorem connectAlternative_forced (s : UBlock) {signalMode : TransmissionMode}
    (hmode : signalMode ≠ .analogInput) (output : Fin 32) (useASide : Bool) :
    s.connectAlternative signalMode output true useASide =
      (true, s.withLane (alternativeInput output useASide) output (!useASide) signalMode) := by
  rw [connectAlternative, dif_pos output.isLt, if_neg hmode, if_neg (by simp)]
  cases useASide with
  | true =>
    by_cases ha : s.aSideMode = signalMode
    · simp [ha, withLane, connectUnchecked]
    · simp [ha, withLane, connectUnchecked, changeASideTransmissionMode]
  | false =>
    by_cases hb : s.bSideMode = signalMode
    · simp [hb, withLane, connectUnchecked]
    · simp [hb, withLane, connectUnchecked, changeBSideTransmissionMode]

/-- Without force, the first guards passed: the side decides. -/
theorem connectAlternative_open (s : UBlock) {signalMode : TransmissionMode}
    (hmode : signalMode ≠ .analogInput) (output : Fin 32) (useASide : Bool)
    (hone : signalMode = .posRef ∨ signalMode = .negRef → s.refMagnitude = .one)
    (hneg : s.outputInputMap output < 0) :
    s.connectAlternative signalMode output false useASide =
      if (useASide = true → s.aSideMode = signalMode) ∧
          (useASide = false → s.bSideMode ≠ signalMode → ¬ s.UsesInput 14 ∧ ¬ s.UsesInput 15) then
        (true, s.withLane (alternativeInput output useASide) output (!useASide) signalMode)
      else (false, s) := by
  have hopen : s.isOutputConnectedUnchecked output = false := by
    simpa [isOutputConnectedUnchecked] using hneg
  have href : ¬ ((signalMode = .posRef ∨ signalMode = .negRef) ∧ s.refMagnitude ≠ .one ∧
      false = false) := fun h => h.2.1 (hone h.1)
  have h14 := isInputConnected_iff s (show 14 < 16 by decide)
  have h15 := isInputConnected_iff s (show 15 < 16 by decide)
  rw [connectAlternative, dif_pos output.isLt, if_neg hmode, if_neg href]
  cases useASide with
  | true =>
    by_cases ha : s.aSideMode = signalMode
    · simp [ha, hopen, withLane, connectUnchecked]
    · simp [ha, hopen]
  | false =>
    by_cases hb : s.bSideMode = signalMode
    · simp [hb, hopen, withLane, connectUnchecked]
    by_cases hused : s.UsesInput 14 ∨ s.UsesInput 15
    · have hfree : ¬ (¬ s.UsesInput 14 ∧ ¬ s.UsesInput 15) := by rwa [← not_or, not_not]
      simp [hb, hopen, h14, h15, hused, hfree]
    · have hfree : ¬ s.UsesInput 14 ∧ ¬ s.UsesInput 15 := not_or.mp hused
      simp [hb, hopen, h14, h15, hfree, withLane, connectUnchecked, changeBSideTransmissionMode]

theorem connectAlternative_eq (s : UBlock) (signalMode : TransmissionMode) (output : Fin 32)
    (force useASide : Bool) :
    s.connectAlternative signalMode output force useASide =
      if s.AlternativeAllowed signalMode output force useASide then
        (true, s.withLane (alternativeInput output useASide) output (!useASide) signalMode)
      else (false, s) := by
  by_cases hmode : signalMode = .analogInput
  · simp [connectAlternative, AlternativeAllowed, hmode]
  cases force with
  | true =>
    have hallowed : s.AlternativeAllowed signalMode output true useASide :=
      ⟨hmode, fun h => absurd h (by decide)⟩
    rw [connectAlternative_forced s hmode, if_pos hallowed]
  | false =>
    by_cases hone : signalMode = .posRef ∨ signalMode = .negRef → s.refMagnitude = .one
    · by_cases hneg : s.outputInputMap output < 0
      · have hallowed : s.AlternativeAllowed signalMode output false useASide ↔
            (useASide = true → s.aSideMode = signalMode) ∧ (useASide = false →
              s.bSideMode ≠ signalMode → ¬ s.UsesInput 14 ∧ ¬ s.UsesInput 15) := by
          constructor
          · intro h
            exact (h.2 rfl).2.2
          · intro h
            exact ⟨hmode, fun _ => ⟨hone, hneg, h⟩⟩
        rw [connectAlternative_open s hmode output useASide hone hneg]
        exact if_congr hallowed.symm rfl rfl
      · simp [connectAlternative, AlternativeAllowed, hmode, hneg, isOutputConnectedUnchecked]
    · have href := Classical.not_imp.mp hone
      rw [if_neg fun h => hone (h.2 rfl).1]
      rw [connectAlternative, dif_pos output.isLt, if_neg hmode, if_pos ⟨href.1, href.2, rfl⟩]

/-- All that a call of `connect` can do. -/
theorem connect_cases (s : UBlock) (input output : Nat) (force : Bool) :
    s.connect input output force = (false, s) ∨
      ∃ ho : output < 32, s.ConnectAllowed input ⟨output, ho⟩ force ∧
        s.connect input output force =
          (true, s.withLane input ⟨output, ho⟩ (bSideLane input output) .analogInput) := by
  by_cases ho : output < 32
  · have heq := connect_eq s input ⟨output, ho⟩ force
    by_cases hallowed : s.ConnectAllowed input ⟨output, ho⟩ force
    · rw [if_pos hallowed] at heq
      exact Or.inr ⟨ho, hallowed, heq⟩
    · rw [if_neg hallowed] at heq
      exact Or.inl heq
  · exact Or.inl (connect_of_range s input output force (Nat.not_lt.mp ho))

theorem connectAlternative_cases (s : UBlock) (signalMode : TransmissionMode) (output : Nat)
    (force useASide : Bool) :
    s.connectAlternative signalMode output force useASide = (false, s) ∨
      ∃ ho : output < 32, s.AlternativeAllowed signalMode ⟨output, ho⟩ force useASide ∧
        s.connectAlternative signalMode output force useASide =
          (true, s.withLane (alternativeInput output useASide) ⟨output, ho⟩ (!useASide)
            signalMode) := by
  by_cases ho : output < 32
  · have heq := connectAlternative_eq s signalMode ⟨output, ho⟩ force useASide
    by_cases hallowed : s.AlternativeAllowed signalMode ⟨output, ho⟩ force useASide
    · rw [if_pos hallowed] at heq
      exact Or.inr ⟨ho, hallowed, heq⟩
    · rw [if_neg hallowed] at heq
      exact Or.inl heq
  · exact Or.inl
      (connectAlternative_of_range s signalMode output force useASide (Nat.not_lt.mp ho))

theorem connect_success {s : UBlock} {input output : Nat} {force : Bool}
    (h : (s.connect input output force).1 = true) :
    ∃ ho : output < 32, s.ConnectAllowed input ⟨output, ho⟩ force ∧
      (s.connect input output force).2 =
        s.withLane input ⟨output, ho⟩ (bSideLane input output) .analogInput := by
  obtain hrefused | ⟨ho, hallowed, hconnected⟩ := s.connect_cases input output force
  · rw [hrefused] at h
    cases h
  · exact ⟨ho, hallowed, congrArg Prod.snd hconnected⟩

theorem connect_failure {s : UBlock} {input output : Nat} {force : Bool}
    (h : (s.connect input output force).1 = false) : (s.connect input output force).2 = s := by
  obtain hrefused | ⟨ho, -, hconnected⟩ := s.connect_cases input output force
  · exact congrArg Prod.snd hrefused
  · rw [hconnected] at h
    cases h

theorem connectAlternative_success {s : UBlock} {signalMode : TransmissionMode} {output : Nat}
    {force useASide : Bool} (h : (s.connectAlternative signalMode output force useASide).1 = true) :
    ∃ ho : output < 32, s.AlternativeAllowed signalMode ⟨output, ho⟩ force useASide ∧
      (s.connectAlternative signalMode output force useASide).2 =
        s.withLane (alternativeInput output useASide) ⟨output, ho⟩ (!useASide) signalMode := by
  obtain hrefused | ⟨ho, hallowed, hconnected⟩ :=
    s.connectAlternative_cases signalMode output force useASide
  · rw [hrefused] at h
    cases h
  · exact ⟨ho, hallowed, congrArg Prod.snd hconnected⟩

theorem connectAlternative_failure {s : UBlock} {signalMode : TransmissionMode} {output : Nat}
    {force useASide : Bool}
    (h : (s.connectAlternative signalMode output force useASide).1 = false) :
    (s.connectAlternative signalMode output force useASide).2 = s := by
  obtain hrefused | ⟨ho, -, hconnected⟩ :=
    s.connectAlternative_cases signalMode output force useASide
  · exact congrArg Prod.snd hrefused
  · rw [hconnected] at h
    cases h

/-! ### What a successful connection leaves behind -/

@[simp] theorem withLane_entry (s : UBlock) (input : Nat) (output : Fin 32) (bSide : Bool)
    (mode : TransmissionMode) :
    (s.withLane input output bSide mode).outputInputMap output = input := by
  simp [withLane]

theorem withLane_other (s : UBlock) (input : Nat) {output other : Fin 32} (bSide : Bool)
    (mode : TransmissionMode) (h : other ≠ output) :
    (s.withLane input output bSide mode).outputInputMap other = s.outputInputMap other := by
  simp [withLane, h]

theorem fedFromBSide_of_entry {s : UBlock} {input : Nat} {output : Fin 32}
    (h : s.outputInputMap output = input) : s.fedFromBSide output = bSideLane input output := by
  simp only [fedFromBSide, bSideLane]
  rw [h]
  by_cases ho : output.val < 16
  · simp only [ho, if_true, decide_true, Bool.true_and, Nat.not_le.mpr ho, decide_false,
      Bool.false_and, Bool.or_false]
    rw [Bool.eq_iff_iff, beq_iff_eq, beq_iff_eq]
    omega
  · simp only [ho, if_false, decide_false, Bool.false_and, Nat.not_lt.mp ho, decide_true,
      Bool.true_and, Bool.false_or]
    rw [Bool.eq_iff_iff, beq_iff_eq, beq_iff_eq]
    omega

theorem bSideLane_alternativeInput (output : Fin 32) (useASide : Bool) :
    bSideLane (alternativeInput output useASide) output = !useASide := by
  revert output useASide
  decide

theorem alternativeInput_lt (output : Fin 32) (useASide : Bool) :
    alternativeInput output useASide < 16 := by
  revert output useASide
  decide

theorem feedingMode_withLane (s : UBlock) (input : Nat) (output : Fin 32)
    (mode : TransmissionMode) :
    (s.withLane input output (bSideLane input output) mode).feedingMode output = mode := by
  simp only [feedingMode]
  rw [fedFromBSide_of_entry (withLane_entry ..)]
  cases bSideLane input output <;> simp [withLane]

/-- Every entry is open or names one of the sixteen inputs. -/
def ValidMap (s : UBlock) : Prop :=
  ∀ output, s.outputInputMap output = -1 ∨
    0 ≤ s.outputInputMap output ∧ s.outputInputMap output < 16

theorem ValidMap.withLane {s : UBlock} (hs : s.ValidMap) {input : Nat} (hi : input < 16)
    (output : Fin 32) (bSide : Bool) (mode : TransmissionMode) :
    (s.withLane input output bSide mode).ValidMap := by
  intro other
  by_cases h : other = output
  · subst h
    rw [withLane_entry]
    omega
  · rw [withLane_other s input bSide mode h]
    exact hs other

theorem ValidMap.connect {s : UBlock} (hs : s.ValidMap) (input output : Nat) (force : Bool) :
    (s.connect input output force).2.ValidMap := by
  cases h : (s.connect input output force).1 with
  | true =>
    obtain ⟨ho, hallowed, heq⟩ := connect_success h
    rw [heq]
    exact hs.withLane hallowed.1 _ _ _
  | false =>
    rw [connect_failure h]
    exact hs

theorem ValidMap.connectAlternative {s : UBlock} (hs : s.ValidMap) (mode : TransmissionMode)
    (output : Nat) (force useASide : Bool) :
    (s.connectAlternative mode output force useASide).2.ValidMap := by
  cases h : (s.connectAlternative mode output force useASide).1 with
  | true =>
    obtain ⟨ho, -, heq⟩ := connectAlternative_success h
    rw [heq]
    exact hs.withLane (alternativeInput_lt ⟨output, ho⟩ useASide) _ _ _
  | false =>
    rw [connectAlternative_failure h]
    exact hs

theorem ValidMap.disconnectUnchecked {s : UBlock} (hs : s.ValidMap) (output : Fin 32) :
    (s.disconnectUnchecked output).ValidMap := by
  intro other
  by_cases h : other = output
  · subst h
    simp [UBlock.disconnectUnchecked]
  · simpa [UBlock.disconnectUnchecked, h] using hs other

theorem ValidMap.disconnect {s : UBlock} (hs : s.ValidMap) (output : Nat) :
    (s.disconnect output).2.ValidMap := by
  simp only [UBlock.disconnect]
  split
  · exact hs.disconnectUnchecked _
  · exact hs

theorem ValidMap.disconnectInput {s : UBlock} (hs : s.ValidMap) (input output : Nat) :
    (s.disconnectInput input output).2.ValidMap := by
  simp only [UBlock.disconnectInput]
  split
  · split
    · exact hs.disconnectUnchecked _
    · exact hs
  · exact hs

theorem validMap_open {s : UBlock} (h : ∀ output, s.outputInputMap output = -1) : s.ValidMap :=
  fun output => Or.inl (h output)

end Lucidac.UBlock
