import Lucidac.Block.IBlockReachable
import Lucidac.Block.UBlockReachable
import Lucidac.Framework.Checked

/-!
# Is anything connected?

The U block asks every output whether it is connected.  The I block goes through the words of its
outputs instead and takes each word, cut down to eight bits, for the index of an output.  Reading
behind the words of the outputs has no result.
-/

namespace Lucidac

open Framework

/-- The answer is there, and it is yes exactly if some input is connected to some output. -/
def AnswersConnected (answer : Option Bool) (isConnected : Nat → Nat → Bool) : Prop :=
  ∃ found, answer = some found ∧
    (found = true ↔ ∃ input output, isConnected input output = true)

namespace UBlock

def outputIdxRange : List Nat := List.range 32

/-- `_is_output_connected` with the bounds of the map. -/
def readOutputConnected (s : UBlock) (output : Nat) : Option Bool :=
  if h : output < 32 then some (s.isOutputConnectedUnchecked ⟨output, h⟩) else none

def isAnythingConnected (s : UBlock) : Option Bool := outputIdxRange.anyM s.readOutputConnected

theorem readOutputConnected_eq {s : UBlock} {output : Nat} (h : output < 32) :
    s.readOutputConnected output = some (s.isOutputConnected output) := by
  rw [readOutputConnected, isOutputConnected, dif_pos h, dif_pos h]

theorem isConnected_iff (s : UBlock) (input output : Nat) :
    s.isConnected input output = true ↔
      input < 16 ∧ ∃ h : output < 32, s.outputInputMap ⟨output, h⟩ = input := by
  rw [isConnected]
  split
  · rename_i hout
    simp only [Bool.and_eq_true, isConnectedUnchecked, beq_iff_eq]
    exact and_congr decide_eq_true_iff ⟨fun h => ⟨hout, h⟩, fun h => h.2⟩
  · rename_i hout
    simp [hout]

theorem ValidMap.isOutputConnected_iff {s : UBlock} (hs : s.ValidMap) (output : Nat) :
    s.isOutputConnected output = true ↔ ∃ input, s.isConnected input output = true := by
  simp only [isConnected_iff, isOutputConnected]
  by_cases hout : output < 32
  · simp only [hout, dif_pos, exists_true_left, isOutputConnectedUnchecked, decide_eq_true_eq]
    constructor
    · intro h
      refine ⟨(s.outputInputMap ⟨output, hout⟩).toNat, ?_, (Int.toNat_of_nonneg h).symm⟩
      have := hs ⟨output, hout⟩
      omega
    · rintro ⟨input, -, h⟩
      rw [h]
      exact Int.natCast_nonneg input
  · simp [hout]

theorem ValidMap.isAnythingConnected {s : UBlock} (hs : s.ValidMap) :
    AnswersConnected s.isAnythingConnected s.isConnected := by
  have hread : ∀ output ∈ outputIdxRange,
      s.readOutputConnected output = some (s.isOutputConnected output) :=
    fun output h => readOutputConnected_eq (List.mem_range.mp h)
  have hlist : s.isAnythingConnected = some (outputIdxRange.any s.isOutputConnected) :=
    anyM_of_forall_eq_some hread
  refine ⟨_, hlist, ?_⟩
  simp only [List.any_eq_true, hs.isOutputConnected_iff]
  constructor
  · rintro ⟨output, -, input, h⟩
    exact ⟨input, output, h⟩
  · rintro ⟨input, output, h⟩
    obtain ⟨-, hout, -⟩ := (s.isConnected_iff input output).mp h
    exact ⟨output, List.mem_range.mpr hout, input, h⟩

end UBlock

namespace IBlock

/-- `_is_output_connected` with the bounds of the words. -/
def readOutputConnected (s : IBlock) (output : Nat) : Option Bool :=
  if h : output < 16 then some (s.outputs ⟨output, h⟩ != 0) else none

/-- A word of the outputs as an argument of type `uint8_t`. -/
def wordAsIndex (word : BitVec 32) : Nat := word.toNat % 256

def isAnythingConnected (s : IBlock) : Option Bool :=
  (List.ofFn s.outputs).anyM fun output => s.readOutputConnected (wordAsIndex output)

theorem exists_isConnected_iff (s : IBlock) :
    (∃ input output, s.isConnected input output = true) ↔ ∃ output, s.outputs output ≠ 0 := by
  constructor
  · rintro ⟨input, output, h⟩
    rw [isConnected] at h
    split at h
    · rename_i hrange
      refine ⟨⟨output, hrange.1⟩, fun hzero => ?_⟩
      simp [isConnectedUnchecked, hzero] at h
    · cases h
  · rintro ⟨output, hne⟩
    by_contra hnone
    apply hne
    apply BitVec.eq_of_getLsbD_eq
    intro input hinput
    simp only [BitVec.ofNat_eq_ofNat, BitVec.getLsbD_zero]
    rw [← Bool.not_eq_true]
    intro hfeeds
    exact hnone ⟨input, output, (s.isConnected_iff ⟨input, hinput⟩ output).mpr hfeeds⟩

/-- The word of the output, taken for an index, finds a connected output. -/
def FindsOutput (s : IBlock) (output : Fin 16) : Prop :=
  ∃ found : Fin 16, wordAsIndex (s.outputs output) = found ∧ s.outputs found ≠ 0

/-- Some word finds a connected output, and no word before it points behind the outputs. -/
def SearchSucceeds (s : IBlock) : Prop :=
  ∃ output, s.FindsOutput output ∧ ∀ other < output, wordAsIndex (s.outputs other) < 16

theorem readOutputConnected_isSome_iff (s : IBlock) (output : Nat) :
    (s.readOutputConnected output).isSome = true ↔ output < 16 := by
  rw [readOutputConnected]
  split <;> simp_all

theorem readOutputConnected_eq_true_iff (s : IBlock) (output : Nat) :
    s.readOutputConnected output = some true ↔
      ∃ found : Fin 16, output = found ∧ s.outputs found ≠ 0 := by
  rw [readOutputConnected]
  constructor
  · intro h
    split at h
    · rename_i hout
      simp only [Option.some.injEq, bne_iff_ne] at h
      exact ⟨⟨output, hout⟩, rfl, h⟩
    · cases h
  · rintro ⟨found, rfl, hne⟩
    rw [dif_pos found.isLt]
    simpa using hne

theorem isAnythingConnected_eq_true_iff (s : IBlock) :
    s.isAnythingConnected = some true ↔ s.SearchSucceeds := by
  have hget : ∀ (k : Nat) (word : BitVec 32), (List.ofFn s.outputs)[k]? = some word ↔
      ∃ h : k < 16, s.outputs ⟨k, h⟩ = word := by
    intro k word
    rw [List.getElem?_ofFn]
    split <;> simp_all
  rw [isAnythingConnected, anyM_eq_some_true_iff]
  simp only [readOutputConnected_eq_true_iff, readOutputConnected_isSome_iff, hget]
  constructor
  · rintro ⟨k, word, ⟨hk, rfl⟩, hfinds, hbefore⟩
    exact ⟨⟨k, hk⟩, hfinds, fun other hlt => hbefore other hlt _ ⟨other.isLt, rfl⟩⟩
  · rintro ⟨output, hfinds, hbefore⟩
    refine ⟨output, _, ⟨output.isLt, rfl⟩, hfinds, ?_⟩
    rintro j hj word ⟨hj', rfl⟩
    exact hbefore ⟨j, hj'⟩ hj

theorem isAnythingConnected_of_empty {s : IBlock} (h : ∀ output, s.outputs output = 0) :
    s.isAnythingConnected = some false := by
  rw [isAnythingConnected, anyM_eq_some_false_iff]
  intro word hword
  obtain ⟨output, rfl⟩ := (List.mem_ofFn' _ _).mp hword
  rw [h output, readOutputConnected, dif_pos (by decide)]
  simp [h]

/-- The answer is right for an empty matrix, and otherwise exactly if the search succeeds. -/
theorem answersConnected_iff (s : IBlock) :
    AnswersConnected s.isAnythingConnected s.isConnected ↔
      (∀ output, s.outputs output = 0) ∨ s.SearchSucceeds := by
  rw [AnswersConnected, exists_isConnected_iff]
  constructor
  · rintro ⟨found, hanswer, hfound⟩
    cases found with
    | true => exact Or.inr ((isAnythingConnected_eq_true_iff s).mp hanswer)
    | false =>
      refine Or.inl fun output => ?_
      by_contra hne
      exact absurd (hfound.mpr ⟨output, hne⟩) Bool.false_ne_true
  · rintro (hempty | hsearch)
    · refine ⟨false, isAnythingConnected_of_empty hempty, ?_⟩
      simp [hempty]
    · refine ⟨true, (isAnythingConnected_eq_true_iff s).mpr hsearch, fun _ => ?_, fun _ => rfl⟩
      obtain ⟨output, ⟨found, -, hne⟩, -⟩ := hsearch
      exact ⟨found, hne⟩

end IBlock

/-- In every reachable state the answer of the U block is right, and that of the I block is right
exactly if its matrix is empty or the words of the outputs happen to find a connected output. -/
theorem isAnythingConnected_right_iff (commands : List UBlock.Command) (s : IBlock) :
    AnswersConnected (UBlock.runCommands commands).isAnythingConnected
        (UBlock.runCommands commands).isConnected ∧
      (AnswersConnected s.isAnythingConnected s.isConnected ↔
        (∀ output, s.outputs output = 0) ∨ s.SearchSucceeds) :=
  ⟨(UBlock.runCommands_validMap commands).isAnythingConnected, s.answersConnected_iff⟩

/-- Input 1 on output 1 alone is not found, and input 4 on output 0 alone is looked for behind the
outputs. -/
theorem isAnythingConnected_one_connection :
    (IBlock.runCommands [.connect 1 1 false]).isAnythingConnected = some false ∧
      (IBlock.runCommands [.connect 1 1 false]).isConnected 1 1 = true ∧
      (IBlock.runCommands [.connect 4 0 false]).isAnythingConnected = none := by
  decide

end Lucidac
