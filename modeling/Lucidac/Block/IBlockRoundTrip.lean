import Lucidac.Block.IBlockOutputs

/-!
# Reading back the configuration of the I block

The reader clears the matrix and closes the written switches output by output.  A block without
split inputs never meets an input that already feeds another output.
-/

namespace Lucidac.IBlock

open Framework

/-- The first `k` outputs of `s` and, on output `k`, the inputs listed in `done`. -/
def Copied (s t : IBlock) (k : Nat) (done : List Json) (u : IBlock) : Prop :=
  u.scalingFactors = t.scalingFactors ∧ ∀ input output, u.Feeds input output ↔
    output.val < k ∧ s.Feeds input output ∨ output.val = k ∧ .integer input.val ∈ done

def writtenInputs (s : IBlock) (output : Fin 16) : List Json :=
  ((List.finRange 32).filter fun input : Fin 32 => s.isConnectedUnchecked input output).map
    fun input => .integer input.val

/-- What is written for one output is a specification of its inputs. -/
private theorem exists_inputSpec (s : IBlock) (output : Fin 16) :
    ∃ inputSpec : InputSpec, s.outputToJson output = inputSpec.toJson ∧
      ∀ input, input ∈ inputSpec.wanted ↔ s.Feeds input output := by
  by_cases hzero : s.outputs output = 0
  · refine ⟨.unconnected, if_pos hzero, fun input => ?_⟩
    simp [InputSpec.wanted, Feeds, hzero]
  · have hwritten : s.outputToJson output = .array (s.writtenInputs output) := if_neg hzero
    refine ⟨.several _, hwritten, fun input => ?_⟩
    rw [InputSpec.wanted, List.mem_filter, isConnectedUnchecked_iff]
    exact and_iff_right (List.mem_finRange input)

private theorem rewired_of_copied {s t u : IBlock} {output : Fin 16} (h : Copied s t output [] u) :
    Rewired u output [] u := by
  refine ⟨fun input target => ?_, by simp, rfl⟩
  have hopen : u.Feeds input target → target ≠ output := by
    rw [h.2]
    rintro (⟨hlt, -⟩ | ⟨-, hmem⟩) rfl
    · exact Nat.lt_irrefl _ hlt
    · exact List.not_mem_nil hmem
  simp only [List.not_mem_nil, and_false, false_or]
  exact ⟨fun hfeeds => ⟨hopen hfeeds, hfeeds⟩, fun h => h.2⟩

private theorem copied_of_rewired {s t u w : IBlock} {output : Fin 16} {wanted : List (Fin 32)}
    (hwanted : ∀ input, input ∈ wanted ↔ s.Feeds input output) (h : Copied s t output [] u)
    (hw : Rewired u output wanted w) : Copied s t (output + 1) [] w := by
  refine ⟨hw.scalingFactors.trans h.1, fun input target => ?_⟩
  rw [hw.feeds, h.2, hwanted]
  by_cases htarget : target = output
  · subst htarget
    simp
  · have hval : target.val ≠ output.val := fun he => htarget (Fin.ext he)
    have hlt : target.val < output.val + 1 ↔ target.val < output.val := by omega
    simp [htarget, hlt]

private theorem connectFromJson_written {s t u : IBlock} (hs : s.Unsplit) (output : Fin 16)
    (h : Copied s t output [] u) :
    wp (connectFromJson (s.outputToJson output) output)
      (fun _ => Copied s t (output + 1) []) (fun _ _ => False) u := by
  obtain ⟨inputSpec, hjson, hwanted⟩ := s.exists_inputSpec output
  rw [hjson]
  refine wp_mono (connectFromJson_inputSpec inputSpec (rewired_of_copied h)) ?_ ?_
  · intro _ w hw
    exact copied_of_rewired hwanted h hw
  · intro _ _ htaken
    obtain ⟨input, hinput, other, hne, hfeeds⟩ := htaken
    rcases (h.2 input other).mp hfeeds with ⟨-, hold⟩ | ⟨-, hmem⟩
    · exact hne (hs input other output hold ((hwanted input).mp hinput))
    · exact List.not_mem_nil hmem

private theorem configOutputs_written {s : IBlock} (hs : s.Unsplit) (t : IBlock) :
    wp (configOutputsFromJson (.array (List.ofFn s.outputToJson)))
      (fun _ => Copied s t 16 []) (fun _ _ => False) t := by
  simp only [configOutputsFromJson, configOutputArray, wp_bind, wp_require, List.length_ofFn,
    numOutputs, IBlockHal.numOutputs, beq_self_eq_true, if_true, wp_modify]
  refine wp_forM_zipIdx (fun k => Copied s t k []) ⟨rfl, ?_⟩
    (fun k hk u hu => connectFromJson_written hs ⟨k, hk⟩ hu)
  intro input output
  simp [Feeds, resetOutputs]

private theorem configUpscaling_written (s u : IBlock) :
    wp (configUpscalingFromJson (.array (List.ofFn fun input => .bool (s.scalingFactors input))))
      (fun _ v => v.outputs = u.outputs ∧ v.scalingFactors = s.scalingFactors)
      (fun _ _ => False) u := by
  simp only [configUpscalingFromJson, wp_bind, wp_require, List.length_ofFn, numInputs,
    IBlockHal.numInputs, beq_self_eq_true, if_true]
  refine wp_mono (wp_forM_zipIdx (fun k v => v.outputs = u.outputs ∧
    ∀ input : Fin 32, input.val < k → v.scalingFactors input = s.scalingFactors input)
    ⟨rfl, by simp⟩ ?_) ?_ (fun _ _ hf => hf)
  · intro k hk v h
    obtain ⟨houtputs, hdone⟩ := h
    simp only [wp_bind, wp_require, Json.isBool, if_true, wp_modify, Json.asBool, setUpscaling,
      dif_pos hk]
    refine ⟨houtputs, fun input hlt => ?_⟩
    by_cases h : input = ⟨k, hk⟩
    · subst h
      simp
    · have hne : input.val ≠ k := fun he => h (Fin.ext he)
      simp only [Function.update_of_ne h]
      exact hdone input (by omega)
  · intro _ v h
    obtain ⟨houtputs, hdone⟩ := h
    exact ⟨houtputs, funext fun input => hdone input input.isLt⟩

/-- A block without split inputs is restored by its written configuration, whatever the reading
block held before. -/
theorem configSelf_roundTrip (s t : IBlock) (hs : s.Unsplit) :
    configSelfFromJson s.configSelfToJson t = .ok ⟨⟩ s := by
  have hrun : wp (configSelfFromJson s.configSelfToJson) (fun _ u => u = s) (fun _ _ => False) t := by
    simp only [configSelfFromJson, configSelfToJson, List.forM_cons, List.forM_nil, wp_bind,
      if_true, String.reduceEq, if_false]
    refine wp_mono (configOutputs_written hs t) ?_ (fun _ _ hf => hf)
    intro _ u hu
    rw [wp_bind]
    refine wp_mono (configUpscaling_written s u) ?_ (fun _ _ hf => hf)
    intro _ v h
    obtain ⟨houtputs, hscaling⟩ := h
    refine ext_feeds (fun input output => ?_) hscaling
    have hv : v.Feeds input output ↔ u.Feeds input output := by
      simp only [Feeds]
      rw [houtputs]
    rw [hv, hu.2]
    simp [output.isLt]
  simp only [wp] at hrun
  cases hres : configSelfFromJson s.configSelfToJson t with
  | ok a u =>
    rw [hres] at hrun
    rw [show u = s from hrun]
  | error e u =>
    rw [hres] at hrun
    exact hrun.elim

theorem configSelf_roundTrip_single :
    configSelfFromJson
      (⟨fun output => if output = 5 then 0b1000 else 0, fun input => input == 2⟩ : IBlock).configSelfToJson
      ⟨fun _ => 0xFF, fun _ => true⟩ =
    .ok ⟨⟩ ⟨fun output => if output = 5 then 0b1000 else 0, fun input => input == 2⟩ := by
  apply configSelf_roundTrip
  have hfive (input : Fin 32) (output : Fin 16) (h : (⟨fun output => if output = 5 then 0b1000 else 0,
      fun input => input == 2⟩ : IBlock).Feeds input output) : output = 5 := by
    by_contra hne
    simp [Feeds, hne] at h
  intro input output other h h'
  rw [hfive input output h, hfive input other h']

end Lucidac.IBlock
