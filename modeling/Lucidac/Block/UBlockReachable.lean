import Lucidac.Block.UBlockConnect

/-!
# Reachable U block states

A U block is driven by a list of commands.  Connecting through `connect_alternative` never
disturbs another lane.  Connecting through `connect` does so exactly when it switches the mode
of a side that already feeds another connected output: its guard only asks whether the new
input is in use.
-/

namespace Lucidac.UBlock

open Framework

inductive Command where
  | connect (input output : Nat) (force : Bool)
  | connectAlternative (signalMode : TransmissionMode) (output : Nat) (force useASide : Bool)
  | disconnect (output : Nat)
  | disconnectInput (input output : Nat)
  | changeASideTransmissionMode (mode : TransmissionMode)
  | changeBSideTransmissionMode (mode : TransmissionMode)
  | changeReferenceMagnitude (ref : ReferenceMagnitude)
  | reset (action : ResetAction)
  | configSelfFromJson (parseNumber : String → ℚ) (cfg : List (String × Json))

def apply (s : UBlock) : Command → UBlock
  | .connect input output force => (s.connect input output force).2
  | .connectAlternative mode output force useASide =>
      (s.connectAlternative mode output force useASide).2
  | .disconnect output => (s.disconnect output).2
  | .disconnectInput input output => (s.disconnectInput input output).2
  | .changeASideTransmissionMode mode => s.changeASideTransmissionMode mode
  | .changeBSideTransmissionMode mode => s.changeBSideTransmissionMode mode
  | .changeReferenceMagnitude ref => s.changeReferenceMagnitude ref
  | .reset action => s.reset action
  | .configSelfFromJson parseNumber cfg => finalState (configSelfFromJson parseNumber cfg) s

def runCommands (commands : List Command) : UBlock := commands.foldl apply initial

/-! ### Map entries stay valid -/

private theorem keeps_outputArray (outputs : List Json) : Keeps ValidMap (configOutputArray outputs) := by
  refine (Keeps.require _ _).bind fun _ => (Keeps.modify ?_).bind fun _ => Keeps.forM ?_ _
  · intro s _
    exact validMap_open (fun _ => rfl)
  · intro entry
    obtain ⟨input, idx⟩ := entry
    dsimp only
    split
    · exact Keeps.pure _
    · exact (Keeps.require _ _).bind fun _ => Keeps.attempt (fun s hs => hs.connect _ _ _) _

private theorem keeps_outputObject (outputs : List (String × Json)) :
    Keeps ValidMap (configOutputObject outputs) := by
  refine (Keeps.forM ?_ _).bind fun _ => Keeps.forM ?_ _
  · intro entry
    obtain ⟨key, value⟩ := entry
    exact (Keeps.require _ _).bind fun _ => (keeps_readIndex key).bind fun _ =>
      Keeps.modify fun s hs => hs.disconnect _
  · intro entry
    obtain ⟨key, value⟩ := entry
    refine (keeps_readIndex key).bind fun _ => ?_
    split
    · exact Keeps.pure _
    · exact Keeps.attempt (fun s hs => hs.connect _ _ _) _

private theorem keeps_constants (parseNumber : String → ℚ) (cfg : Json) :
    Keeps ValidMap (configConstantsFromJson parseNumber cfg) := by
  have hmap {f : UBlock → UBlock} (hf : ∀ s, (f s).outputInputMap = s.outputInputMap) :
      Keeps ValidMap (modify f : EStateM ConfigError UBlock PUnit) := Keeps.modify fun s hs output => by rw [hf s]; exact hs output
  simp only [configConstantsFromJson]
  refine (hmap fun s => ?_).bind fun _ => (hmap fun s => ?_).bind fun _ =>
    (hmap fun s => ?_).bind fun _ => ?_
  · split <;> rfl
  · split <;> rfl
  · split <;> rfl
  · split
    · exact hmap fun _ => rfl
    · split
      · exact hmap fun _ => rfl
      · exact Keeps.throw _

private theorem keeps_config (parseNumber : String → ℚ) (cfg : List (String × Json)) :
    Keeps ValidMap (configSelfFromJson parseNumber cfg) := by
  refine Keeps.forM ?_ _
  intro entry
  obtain ⟨key, value⟩ := entry
  dsimp only
  split
  · cases value with
    | array outputs => exact keeps_outputArray outputs
    | object outputs => exact keeps_outputObject outputs
    | _ => exact Keeps.throw _
  · split
    · exact keeps_constants _ _
    · exact Keeps.throw _

theorem ValidMap.apply {s : UBlock} (hs : s.ValidMap) (command : Command) :
    (s.apply command).ValidMap := by
  cases command with
  | connect input output force => exact hs.connect input output force
  | connectAlternative mode output force useASide => exact hs.connectAlternative mode output force useASide
  | disconnect output => exact hs.disconnect output
  | disconnectInput input output => exact hs.disconnectInput input output
  | changeASideTransmissionMode mode => exact hs
  | changeBSideTransmissionMode mode => exact hs
  | changeReferenceMagnitude ref => exact hs
  | reset action =>
    simp only [UBlock.apply, UBlock.reset]
    split
    · exact validMap_open (fun _ => rfl)
    · exact hs
  | configSelfFromJson parseNumber cfg => exact keeps_config parseNumber cfg s hs

theorem runCommands_validMap (commands : List Command) : (runCommands commands).ValidMap :=
  List.foldlRecOn commands apply (validMap_open fun _ => rfl) fun _ hs command _ =>
    hs.apply command

/-! ### Signals of the other lanes -/

/-- Every connected output other than `output` carries in `t` what it carries in `s`. -/
def OthersKeepSignal (s t : UBlock) (output : Nat) : Prop :=
  ∀ other : Fin 32, other.val ≠ output → s.isOutputConnectedUnchecked other = true →
    t.signal other = s.signal other

/-- No connected output other than `output` is fed from the given side. -/
def SideUnused (s : UBlock) (bSide : Bool) (output : Nat) : Prop :=
  ∀ other : Fin 32, other.val ≠ output → s.isOutputConnectedUnchecked other = true →
    s.fedFromBSide other ≠ bSide

theorem fedFromBSide_withLane_other (s : UBlock) (input : Nat) {output other : Fin 32}
    (bSide : Bool) (mode : TransmissionMode) (h : other ≠ output) :
    (s.withLane input output bSide mode).fedFromBSide other = s.fedFromBSide other := by
  simp only [fedFromBSide]
  rw [withLane_other s input bSide mode h]

theorem signal_withLane_of_side_ne (s : UBlock) (input : Nat) {output other : Fin 32}
    (bSide : Bool) (mode : TransmissionMode) (h : other ≠ output)
    (hside : s.fedFromBSide other ≠ bSide) :
    (s.withLane input output bSide mode).signal other = s.signal other := by
  simp only [signal, feedingMode]
  rw [fedFromBSide_withLane_other s input bSide mode h, withLane_other s input bSide mode h]
  cases hb : s.fedFromBSide other <;> cases bSide <;> simp_all [withLane]

theorem signal_withLane_of_mode_eq (s : UBlock) (input : Nat) {output other : Fin 32}
    (bSide : Bool) (mode : TransmissionMode) (h : other ≠ output)
    (hmode : (if bSide then s.bSideMode else s.aSideMode) = mode) :
    (s.withLane input output bSide mode).signal other = s.signal other := by
  simp only [signal, feedingMode]
  rw [fedFromBSide_withLane_other s input bSide mode h, withLane_other s input bSide mode h]
  cases bSide <;> simp_all [withLane]

theorem signal_withLane_analog_ne (s : UBlock) (input : Nat) {output other : Fin 32}
    (bSide : Bool) (h : other ≠ output) (hside : s.fedFromBSide other = bSide)
    (hmode : (if bSide then s.bSideMode else s.aSideMode) ≠ .analogInput) :
    (s.withLane input output bSide .analogInput).signal other ≠ s.signal other := by
  have hnew : (s.withLane input output bSide .analogInput).signal other =
      .blockInput (s.outputInputMap other) := by
    simp only [signal, feedingMode]
    rw [fedFromBSide_withLane_other s input bSide _ h, withLane_other s input bSide _ h, hside]
    cases bSide <;> simp [withLane]
  rw [hnew]
  simp only [signal, feedingMode]
  rw [hside]
  cases hm : (if bSide then s.bSideMode else s.aSideMode) <;> simp_all

theorem connect_othersKeepSignal_iff (s : UBlock) (input output : Nat)
    (h : (s.connect input output false).1 = true) :
    s.OthersKeepSignal (s.connect input output false).2 output ↔
      s.laneMode input output = .analogInput ∨ s.SideUnused (bSideLane input output) output := by
  obtain ⟨ho, -, heq⟩ := connect_success h
  rw [heq]
  have hne (other : Fin 32) (hother : other.val ≠ output) : other ≠ ⟨output, ho⟩ :=
    fun he => hother (congrArg Fin.val he)
  constructor
  · intro hkeep
    by_cases hmode : s.laneMode input output = .analogInput
    · exact Or.inl hmode
    · apply Or.inr
      intro other hother hconn hside
      exact signal_withLane_analog_ne s input _ (hne other hother) hside hmode
        (hkeep other hother hconn)
  · intro hcases other hother hconn
    rcases hcases with hmode | hunused
    · exact signal_withLane_of_mode_eq s input _ _ (hne other hother) hmode
    · exact signal_withLane_of_side_ne s input _ _ (hne other hother)
        (hunused other hother hconn)

theorem usesInput_of_fedFromBSide {s : UBlock} {output : Fin 32}
    (h : s.fedFromBSide output = true) : s.UsesInput 14 ∨ s.UsesInput 15 := by
  simp only [fedFromBSide] at h
  split at h
  · exact Or.inr ⟨output, by simpa using h⟩
  · exact Or.inl ⟨output, by simpa using h⟩

theorem connectAlternative_othersKeepSignal (s : UBlock) (signalMode : TransmissionMode)
    (output : Nat) (useASide : Bool)
    (h : (s.connectAlternative signalMode output false useASide).1 = true) :
    s.OthersKeepSignal (s.connectAlternative signalMode output false useASide).2 output := by
  obtain ⟨ho, hallowed, heq⟩ := connectAlternative_success h
  rw [heq]
  intro other hother _
  have hne : other ≠ ⟨output, ho⟩ := fun he => hother (congrArg Fin.val he)
  obtain ⟨-, -, hA, hB⟩ := hallowed.2 rfl
  cases useASide with
  | true => exact signal_withLane_of_mode_eq s _ _ _ hne (hA rfl)
  | false =>
    by_cases hmode : s.bSideMode = signalMode
    · exact signal_withLane_of_mode_eq s _ _ _ hne hmode
    · apply signal_withLane_of_side_ne s _ _ _ hne
      intro hside
      have hunused := hB rfl hmode
      exact (usesInput_of_fedFromBSide hside).elim hunused.1 hunused.2

/-- In every reachable state, a successful non-forced `connect` keeps the signals of all other
connected outputs exactly when the side of the new lane already transmits the block inputs or
feeds no other connected output; `connect_alternative` always keeps them. -/
theorem runCommands_othersKeepSignal (commands : List Command) :
    (∀ input output, ((runCommands commands).connect input output false).1 = true →
      ((runCommands commands).OthersKeepSignal
          ((runCommands commands).connect input output false).2 output ↔
        (runCommands commands).laneMode input output = .analogInput ∨
          (runCommands commands).SideUnused (bSideLane input output) output)) ∧
    (∀ signalMode output useASide,
      ((runCommands commands).connectAlternative signalMode output false useASide).1 = true →
      (runCommands commands).OthersKeepSignal
        ((runCommands commands).connectAlternative signalMode output false useASide).2 output) :=
  ⟨fun input output h => connect_othersKeepSignal_iff _ input output h,
    fun signalMode output useASide h =>
      connectAlternative_othersKeepSignal _ signalMode output useASide h⟩

theorem runCommands_othersKeepSignal_ground :
    (runCommands [.connectAlternative .ground 20 false false]).OthersKeepSignal
      ((runCommands [.connectAlternative .ground 20 false false]).connectAlternative
        .ground 3 false false).2 3 :=
  (runCommands_othersKeepSignal [.connectAlternative .ground 20 false false]).2 .ground 3 false
    (by decide)

/-- Grounding output 20 and then connecting input 15 to output 3 turns the ground at output 20
into block input 14. -/
theorem connect_disturbs_grounded_output :
    ((runCommands [.connectAlternative .ground 20 false false]).connect 15 3 false).1 = true ∧
      ¬ (runCommands [.connectAlternative .ground 20 false false]).OthersKeepSignal
        ((runCommands [.connectAlternative .ground 20 false false]).connect 15 3 false).2 3 := by
  refine ⟨by decide, fun h => ?_⟩
  exact absurd (h 20 (by decide) (by decide)) (by decide)

/-! ### The connected lane itself -/

/-- What `connect` guarantees: a success gives the output its entry on a side that transmits
the block inputs and touches no other entry; a failure changes nothing. -/
theorem connect_outcome (s : UBlock) (input output : Nat) (force : Bool) :
    ((s.connect input output force).1 = true → ∃ ho : output < 32,
      (s.connect input output force).2.outputInputMap ⟨output, ho⟩ = input ∧
      (s.connect input output force).2.feedingMode ⟨output, ho⟩ = .analogInput ∧
      ∀ other, other ≠ ⟨output, ho⟩ →
        (s.connect input output force).2.outputInputMap other = s.outputInputMap other) ∧
    ((s.connect input output force).1 = false → (s.connect input output force).2 = s) := by
  refine ⟨fun h => ?_, connect_failure⟩
  obtain ⟨ho, -, heq⟩ := connect_success h
  rw [heq]
  exact ⟨ho, withLane_entry .., feedingMode_withLane s input ⟨output, ho⟩ _,
    fun other hother => withLane_other s input _ _ hother⟩

theorem connectAlternative_outcome (s : UBlock) (signalMode : TransmissionMode) (output : Nat)
    (force useASide : Bool) :
    ((s.connectAlternative signalMode output force useASide).1 = true → ∃ ho : output < 32,
      0 ≤ (s.connectAlternative signalMode output force useASide).2.outputInputMap ⟨output, ho⟩ ∧
      (s.connectAlternative signalMode output force useASide).2.fedFromBSide ⟨output, ho⟩ =
        !useASide ∧
      (s.connectAlternative signalMode output force useASide).2.feedingMode ⟨output, ho⟩ =
        signalMode ∧
      ∀ other, other ≠ ⟨output, ho⟩ →
        (s.connectAlternative signalMode output force useASide).2.outputInputMap other =
          s.outputInputMap other) ∧
    ((s.connectAlternative signalMode output force useASide).1 = false →
      (s.connectAlternative signalMode output force useASide).2 = s) := by
  refine ⟨fun h => ?_, connectAlternative_failure⟩
  obtain ⟨ho, -, heq⟩ := connectAlternative_success h
  have hside := bSideLane_alternativeInput ⟨output, ho⟩ useASide
  rw [heq]
  refine ⟨ho, by rw [withLane_entry]; omega, ?_, ?_,
    fun other hother => withLane_other s _ _ _ hother⟩
  · rw [fedFromBSide_of_entry (withLane_entry ..)]
    exact hside
  · rw [← hside]
    exact feedingMode_withLane s _ ⟨output, ho⟩ signalMode

/-- Both connecting operations deliver the requested lane or change nothing, and no run of
commands leaves the range of the map entries. -/
theorem connect_correct_reachable_valid :
    (∀ (s : UBlock) (input output : Nat) (force : Bool),
      ((s.connect input output force).1 = true → ∃ ho : output < 32,
        (s.connect input output force).2.outputInputMap ⟨output, ho⟩ = input ∧
        (s.connect input output force).2.feedingMode ⟨output, ho⟩ = .analogInput ∧
        ∀ other, other ≠ ⟨output, ho⟩ →
          (s.connect input output force).2.outputInputMap other = s.outputInputMap other) ∧
      ((s.connect input output force).1 = false → (s.connect input output force).2 = s)) ∧
    (∀ (s : UBlock) (signalMode : TransmissionMode) (output : Nat) (force useASide : Bool),
      ((s.connectAlternative signalMode output force useASide).1 = true → ∃ ho : output < 32,
        0 ≤ (s.connectAlternative signalMode output force useASide).2.outputInputMap ⟨output, ho⟩ ∧
        (s.connectAlternative signalMode output force useASide).2.fedFromBSide ⟨output, ho⟩ =
          !useASide ∧
        (s.connectAlternative signalMode output force useASide).2.feedingMode ⟨output, ho⟩ =
          signalMode ∧
        ∀ other, other ≠ ⟨output, ho⟩ →
          (s.connectAlternative signalMode output force useASide).2.outputInputMap other =
            s.outputInputMap other) ∧
      ((s.connectAlternative signalMode output force useASide).1 = false →
        (s.connectAlternative signalMode output force useASide).2 = s)) ∧
    (∀ (commands : List Command) (output : Fin 32),
      (runCommands commands).outputInputMap output = -1 ∨
        0 ≤ (runCommands commands).outputInputMap output ∧
          (runCommands commands).outputInputMap output < 16) :=
  ⟨connect_outcome, connectAlternative_outcome, runCommands_validMap⟩

theorem connect_correct_reachable_valid_fresh :
    (initial.connect 1 2 false).1 = true ∧
      (initial.connect 1 2 false).2.outputInputMap 2 = 1 := by
  have h : (initial.connect 1 2 false).1 = true := by decide
  obtain ⟨_, hentry, -⟩ := (connect_correct_reachable_valid.1 initial 1 2 false).1 h
  exact ⟨h, hentry⟩

end Lucidac.UBlock
