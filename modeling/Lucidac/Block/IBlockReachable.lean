import Lucidac.Block.IBlockConnect

/-!
# Reachable I block matrices

Without input splitting no writer ever lets one input feed two outputs, whether it succeeds or
gives up midway.  An exclusive connection only takes other inputs from its own output.
-/

namespace Lucidac.IBlock

open Framework

/-! ### One connection -/

/-- The block after a successful `connect`. -/
def switched (s : IBlock) (input : Fin 32) (output : Fin 16) (exclusive : Bool) : IBlock :=
  s.setOutput output (if exclusive then inputBitmask input
    else s.outputs output ||| inputBitmask input)

theorem feeds_switched (s : IBlock) (input other : Fin 32) (output target : Fin 16)
    (exclusive : Bool) :
    (s.switched input output exclusive).Feeds other target ↔
      other = input ∧ target = output ∨
        s.Feeds other target ∧ ¬ (exclusive = true ∧ target = output) := by
  cases exclusive with
  | false =>
    have h := s.feeds_withSwitch input other output target
    simp only [Bool.false_eq_true, false_and, not_false_eq_true, and_true]
    exact h.trans or_comm
  | true =>
    simp only [Feeds, switched, setOutput]
    by_cases htarget : target = output
    · subst htarget
      simp only [Function.update_self, if_true, and_true, not_true_eq_false, and_false, or_false]
      rw [inputBitmask, IBlockHal.getLsbD_inputBitmask _ _ other.isLt, decide_eq_true_eq]
      rw [Fin.ext_iff, eq_comm (a := other.val)]
    · simp [htarget]

/-- All that a call of `connect` without input splitting can do. -/
theorem connect_cases (s : IBlock) (input output : Nat) (exclusive : Bool) :
    s.connect input output exclusive false = (false, s) ∨
      ∃ (hi : input < 32) (ho : output < 16), s.ConnectAllowed ⟨input, hi⟩ ⟨output, ho⟩ ∧
        s.connect input output exclusive false =
          (true, s.switched ⟨input, hi⟩ ⟨output, ho⟩ exclusive) := by
  by_cases hrange : output < 16 ∧ input < 32
  · rw [connect, dif_pos hrange]
    split
    · exact Or.inl rfl
    · rename_i hfree
      refine Or.inr ⟨hrange.2, hrange.1, fun other hne hfeeds => hfree ?_, rfl⟩
      simp only [Bool.not_false, Bool.true_and, decide_eq_true_eq]
      exact ⟨other, fun he => hne (Fin.ext he.symm), (s.isConnected_iff _ other).mpr hfeeds⟩
  · rw [connect, dif_neg hrange]
    exact Or.inl rfl

/-- What the matrix looks like after a call of `connect`. -/
structure ConnectEffect (s : IBlock) (input output : Nat) (exclusive : Bool)
    (result : Bool × IBlock) : Prop where
  failure : result.1 = false → result.2 = s
  success : result.1 = true → input < 32 ∧ output < 16
  feeds : result.1 = true → ∀ (i : Fin 32) (o : Fin 16), result.2.Feeds i o ↔
    i.val = input ∧ o.val = output ∨ s.Feeds i o ∧ ¬ (exclusive = true ∧ o.val = output)
  scalingFactors : result.2.scalingFactors = s.scalingFactors

theorem connect_effect (s : IBlock) (input output : Nat) (exclusive : Bool) :
    ConnectEffect s input output exclusive (s.connect input output exclusive false) := by
  obtain h | ⟨hi, ho, -, h⟩ := s.connect_cases input output exclusive
  · rw [h]
    exact ⟨fun _ => rfl, fun h => absurd h Bool.false_ne_true,
      fun h => absurd h Bool.false_ne_true, rfl⟩
  · rw [h]
    refine ⟨fun h => absurd h.symm Bool.false_ne_true, fun _ => ⟨hi, ho⟩, fun _ i o => ?_, rfl⟩
    have hfeeds := s.feeds_switched ⟨input, hi⟩ i ⟨output, ho⟩ o exclusive
    simp only [Fin.ext_iff] at hfeeds
    exact hfeeds

/-! ### No input feeds two outputs -/

/-- Opening switches cannot split an input. -/
theorem Unsplit.of_feeds {s t : IBlock} (hs : s.Unsplit)
    (h : ∀ input output, t.Feeds input output → s.Feeds input output) : t.Unsplit :=
  fun input output other hfeeds hother =>
    hs input output other (h input output hfeeds) (h input other hother)

theorem unsplit_of_cleared {s : IBlock} (h : ∀ output, s.outputs output = 0) : s.Unsplit := by
  intro input output other hfeeds
  rw [Feeds, h output] at hfeeds
  simp at hfeeds

theorem Unsplit.connect {s : IBlock} (hs : s.Unsplit) (input output : Nat) (exclusive : Bool) :
    (s.connect input output exclusive false).2.Unsplit := by
  obtain h | ⟨hi, ho, hallowed, h⟩ := s.connect_cases input output exclusive
  · rw [h]
    exact hs
  · rw [h]
    intro other target target' hfeeds hfeeds'
    rw [feeds_switched] at hfeeds hfeeds'
    -- a switch of the new input lies on its output, before and after
    have hown : ∀ target, s.Feeds ⟨input, hi⟩ target → target = ⟨output, ho⟩ := by
      intro target hfeeds
      by_contra hne
      exact hallowed target hne hfeeds
    rcases hfeeds with ⟨rfl, rfl⟩ | ⟨hfeeds, -⟩ <;> rcases hfeeds' with ⟨he, rfl⟩ | ⟨hfeeds', -⟩
    · rfl
    · exact (hown target' hfeeds').symm
    · subst he
      exact hown target hfeeds
    · exact hs other target target' hfeeds hfeeds'

theorem Unsplit.setOutput {s : IBlock} (hs : s.Unsplit) (output : Fin 16) {word : BitVec 32}
    (h : ∀ i, word.getLsbD i = true → (s.outputs output).getLsbD i = true) :
    (s.setOutput output word).Unsplit := by
  refine hs.of_feeds fun input target hfeeds => ?_
  by_cases htarget : target = output
  · subst htarget
    simp only [Feeds, IBlock.setOutput, Function.update_self] at hfeeds
    exact h _ hfeeds
  · simp only [Feeds, IBlock.setOutput, Function.update_of_ne htarget] at hfeeds
    exact hfeeds

theorem Unsplit.disconnectInput {s : IBlock} (hs : s.Unsplit) (input output : Nat) :
    (s.disconnectInput input output).2.Unsplit := by
  rw [IBlock.disconnectInput]
  split
  · refine hs.setOutput _ fun i hi => ?_
    rw [BitVec.getLsbD_and, Bool.and_eq_true] at hi
    exact hi.1
  · exact hs

theorem Unsplit.disconnect {s : IBlock} (hs : s.Unsplit) (output : Nat) :
    (s.disconnect output).2.Unsplit := by
  rw [IBlock.disconnect]
  split
  · exact hs.setOutput _ fun i hi => absurd hi (by simp)
  · exact hs

theorem unsplit_resetOutputs (s : IBlock) : s.resetOutputs.Unsplit := unsplit_of_cleared fun _ => rfl

theorem Unsplit.reset {s : IBlock} (hs : s.Unsplit) (action : ResetAction) :
    (s.reset action).Unsplit := by
  rw [IBlock.reset]
  split
  · exact unsplit_of_cleared fun _ => rfl
  · exact hs

/-- The scaling of the inputs is no part of the matrix. -/
theorem Unsplit.setUpscaling {s : IBlock} (hs : s.Unsplit) (input : Nat) (upscale : Bool) :
    (s.setUpscaling input upscale).2.Unsplit := by
  rw [IBlock.setUpscaling]
  split
  · exact hs
  · exact hs

/-! ### Configurations -/

private theorem keeps_connectFromJson (inputSpec : Json) (output : Nat) :
    Keeps Unsplit (connectFromJson inputSpec output) := by
  cases inputSpec with
  | null => exact Keeps.pure _
  | array inputs =>
    refine Keeps.forM (fun input => ?_) _
    exact (Keeps.require _ _).bind fun _ => Keeps.attempt (fun s hs => hs.connect _ _ _) _
  | _ => exact (Keeps.require _ _).bind fun _ => Keeps.attempt (fun s hs => hs.connect _ _ _) _

private theorem keeps_configOutputsFromJson (cfg : Json) :
    Keeps Unsplit (configOutputsFromJson cfg) := by
  cases cfg with
  | object outputs =>
    refine Keeps.forM (fun entry => ?_) _
    obtain ⟨key, value⟩ := entry
    refine (Keeps.require _ _).bind fun _ => (keeps_readIndex key).bind fun output => ?_
    exact (Keeps.attempt (fun s hs => hs.disconnect _) _).bind fun _ =>
      keeps_connectFromJson value _
  | array outputs =>
    refine (Keeps.require _ _).bind fun _ => (Keeps.modify fun s _ => s.unsplit_resetOutputs).bind
      fun _ => Keeps.forM (fun entry => ?_) _
    exact keeps_connectFromJson entry.1 entry.2
  | _ => exact Keeps.throw _

private theorem keeps_configUpscalingFromJson (cfg : Json) :
    Keeps Unsplit (configUpscalingFromJson cfg) := by
  cases cfg with
  | object members =>
    cases members with
    | nil => exact Keeps.throw _
    | cons entry rest =>
      obtain ⟨key, value⟩ := entry
      refine (Keeps.require _ _).bind fun _ => (keeps_readIndex key).bind fun input => ?_
      exact (Keeps.require _ _).bind fun _ => Keeps.modify fun s hs => hs.setUpscaling _ _
  | array values =>
    refine (Keeps.require _ _).bind fun _ => Keeps.forM (fun entry => ?_) _
    exact (Keeps.require _ _).bind fun _ => Keeps.modify fun s hs => hs.setUpscaling _ _
  | _ => exact Keeps.throw _

theorem keeps_configSelfFromJson (cfg : List (String × Json)) :
    Keeps Unsplit (configSelfFromJson cfg) := by
  refine Keeps.forM (fun entry => ?_) _
  obtain ⟨key, value⟩ := entry
  dsimp only
  split
  · exact keeps_configOutputsFromJson value
  · split
    · exact keeps_configUpscalingFromJson value
    · exact Keeps.throw _

/-! ### Runs -/

/-- The writers of the matrix that do not ask for input splitting. -/
inductive Command where
  | connect (input output : Nat) (exclusive : Bool)
  | disconnectInput (input output : Nat)
  | disconnect (output : Nat)
  | reset (action : ResetAction)
  | configSelfFromJson (cfg : List (String × Json))

def apply (s : IBlock) : Command → IBlock
  | .connect input output exclusive => (s.connect input output exclusive false).2
  | .disconnectInput input output => (s.disconnectInput input output).2
  | .disconnect output => (s.disconnect output).2
  | .reset action => s.reset action
  | .configSelfFromJson cfg => finalState (configSelfFromJson cfg) s

def runCommands (commands : List Command) : IBlock := commands.foldl apply initial

theorem Unsplit.apply {s : IBlock} (hs : s.Unsplit) (command : Command) :
    (s.apply command).Unsplit := by
  cases command with
  | connect input output exclusive => exact hs.connect input output exclusive
  | disconnectInput input output => exact hs.disconnectInput input output
  | disconnect output => exact hs.disconnect output
  | reset action => exact hs.reset action
  | configSelfFromJson cfg => exact keeps_configSelfFromJson cfg s hs

/-- After every run each input feeds at most one output, and the next connection changes nothing
or exactly what it was asked for. -/
theorem runCommands_unsplit (commands : List Command) :
    (runCommands commands).Unsplit ∧ ∀ input output exclusive,
      ConnectEffect (runCommands commands) input output exclusive
        ((runCommands commands).connect input output exclusive false) :=
  ⟨List.foldlRecOn commands apply (unsplit_of_cleared fun _ => rfl) fun _ hs command _ =>
    hs.apply command, fun input output exclusive => connect_effect _ input output exclusive⟩

end Lucidac.IBlock
