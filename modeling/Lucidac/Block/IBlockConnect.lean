import Lucidac.Block.IBlock

/-!
# The matrix of the I block

The words of the outputs are read as a relation between inputs and outputs.  `connect` adds one
pair to it, unless the input already feeds another output.
-/

namespace Lucidac.IBlock

def Feeds (s : IBlock) (input : Fin 32) (output : Fin 16) : Prop :=
  (s.outputs output).getLsbD input = true

instance (s : IBlock) (input : Fin 32) (output : Fin 16) : Decidable (s.Feeds input output) :=
  inferInstanceAs (Decidable ((s.outputs output).getLsbD input = true))

def Unsplit (s : IBlock) : Prop :=
  ∀ input output other, s.Feeds input output → s.Feeds input other → output = other

theorem isConnectedUnchecked_iff (s : IBlock) (input : Fin 32) (output : Fin 16) :
    s.isConnectedUnchecked input output = true ↔ s.Feeds input output := by
  simp only [isConnectedUnchecked, Feeds]
  rw [inputBitmask, IBlockHal.and_inputBitmask _ input.isLt]

theorem isConnected_iff (s : IBlock) (input : Fin 32) (output : Fin 16) :
    s.isConnected input output = true ↔ s.Feeds input output := by
  simp only [isConnected]
  rw [dif_pos ⟨output.isLt, input.isLt⟩]
  exact s.isConnectedUnchecked_iff input output

theorem ext_feeds {s t : IBlock} (hfeeds : ∀ input output, s.Feeds input output ↔ t.Feeds input output)
    (hscaling : s.scalingFactors = t.scalingFactors) : s = t := by
  have houtputs : s.outputs = t.outputs := by
    funext output
    apply BitVec.eq_of_getLsbD_eq
    intro i hi
    rw [Bool.eq_iff_iff]
    exact hfeeds ⟨i, hi⟩ output
  cases s
  cases t
  simp_all

def ConnectAllowed (s : IBlock) (input : Fin 32) (output : Fin 16) : Prop :=
  ∀ other, other ≠ output → ¬ s.Feeds input other

def withSwitch (s : IBlock) (input : Fin 32) (output : Fin 16) : IBlock :=
  s.setOutput output (s.outputs output ||| inputBitmask input)

theorem connect_of_allowed {s : IBlock} {input : Fin 32} {output : Fin 16}
    (h : s.ConnectAllowed input output) :
    s.connect input output false false = (true, s.withSwitch input output) := by
  have hother : ¬ ∃ other : Fin 16, output.val ≠ other.val ∧ s.isConnected input other = true := by
    intro h
    obtain ⟨other, hne, hconn⟩ := h
    exact h other (fun he => hne (congrArg Fin.val he).symm) ((s.isConnected_iff input other).mp hconn)
  simp only [connect]
  rw [dif_pos ⟨output.isLt, input.isLt⟩]
  simp only [decide_eq_false hother, Bool.and_false, Bool.false_eq_true, if_false]
  rfl

theorem connect_success {s : IBlock} {input output : Nat}
    (h : (s.connect input output false false).1 = true) :
    ∃ (hi : input < 32) (ho : output < 16),
      (s.connect input output false false).2 = s.withSwitch ⟨input, hi⟩ ⟨output, ho⟩ := by
  simp only [connect] at h ⊢
  split at h
  · rename_i hrange
    refine ⟨hrange.2, hrange.1, ?_⟩
    rw [dif_pos hrange]
    split at h
    · cases h
    · rename_i hsplit
      rw [if_neg hsplit]
      rfl
  · cases h

theorem connect_failure {s : IBlock} {input output : Nat}
    (h : (s.connect input output false false).1 = false) :
    (s.connect input output false false).2 = s := by
  simp only [connect] at h ⊢
  split at h
  · rename_i hrange
    rw [dif_pos hrange]
    split at h
    · rename_i hsplit
      rw [if_pos hsplit]
    · cases h
  · rename_i hrange
    rw [dif_neg hrange]

theorem feeds_withSwitch (s : IBlock) (input other : Fin 32) (output target : Fin 16) :
    (s.withSwitch input output).Feeds other target ↔
      s.Feeds other target ∨ other = input ∧ target = output := by
  simp only [Feeds, withSwitch, setOutput]
  by_cases htarget : target = output
  · subst htarget
    simp only [Function.update_self, BitVec.getLsbD_or, Bool.or_eq_true, and_true]
    rw [inputBitmask, IBlockHal.getLsbD_inputBitmask _ _ other.isLt, decide_eq_true_eq]
    rw [Fin.ext_iff, eq_comm (a := other.val)]
  · simp [htarget]

@[simp] theorem withSwitch_scalingFactors (s : IBlock) (input : Fin 32) (output : Fin 16) :
    (s.withSwitch input output).scalingFactors = s.scalingFactors := rfl

end Lucidac.IBlock
