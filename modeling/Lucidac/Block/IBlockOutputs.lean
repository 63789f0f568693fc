import Lucidac.Block.IBlockConnect

/-!
# One output of an I block configuration

An output that was cleared takes the inputs of its specification one by one.  Nothing else
changes, and the only obstacle is an input that feeds another output.
-/

namespace Lucidac.IBlock

open Framework

/-- What a configuration asks of one output. -/
inductive InputSpec where
  | unconnected
  | single (input : Fin 32)
  | several (inputs : List (Fin 32))

namespace InputSpec

def toJson : InputSpec → Json
  | .unconnected => .null
  | .single input => .integer input.val
  | .several inputs => .array (inputs.map fun input => .integer input.val)

def wanted : InputSpec → List (Fin 32)
  | .unconnected => []
  | .single input => [input]
  | .several inputs => inputs

end InputSpec

/-- The block `u` with the inputs in `done`, which feed no other output, on one output. -/
structure Rewired (u : IBlock) (output : Fin 16) (done : List (Fin 32)) (v : IBlock) : Prop where
  feeds : ∀ input target, v.Feeds input target ↔
    target = output ∧ input ∈ done ∨ target ≠ output ∧ u.Feeds input target
  free : ∀ input ∈ done, ∀ other, other ≠ output → ¬ u.Feeds input other
  scalingFactors : v.scalingFactors = u.scalingFactors

theorem disconnect_rewired (u : IBlock) (output : Fin 16) :
    ∃ v, u.disconnect output = (true, v) ∧ Rewired u output [] v := by
  refine ⟨_, dif_pos output.isLt, fun input target => ?_, by simp, rfl⟩
  by_cases htarget : target = output
  · simp [Feeds, setOutput, htarget]
  · simp [Feeds, setOutput, htarget]

theorem Rewired.feeds_other {u v : IBlock} {output other : Fin 16} {done : List (Fin 32)}
    (h : Rewired u output done v) (hne : other ≠ output) (input : Fin 32) :
    v.Feeds input other ↔ u.Feeds input other := by
  rw [h.feeds]
  simp [hne]

theorem Rewired.connect {u v : IBlock} {output : Fin 16} {done : List (Fin 32)}
    (h : Rewired u output done v) (input : Fin 32) :
    (∃ w, v.connect input output false false = (true, w) ∧ Rewired u output (done ++ [input]) w) ∨
      (v.connect input output false false).1 = false ∧
        ∃ other, other ≠ output ∧ u.Feeds input other := by
  by_cases hallowed : v.ConnectAllowed input output
  · refine Or.inl ⟨_, connect_of_allowed hallowed, fun other target => ?_, ?_, h.scalingFactors⟩
    · rw [feeds_withSwitch, h.feeds, List.mem_append, List.mem_singleton]
      tauto
    · intro next hnext other hne
      rcases List.mem_append.mp hnext with hnext | hnext
      · exact h.free next hnext other hne
      · rw [List.mem_singleton.mp hnext, ← h.feeds_other hne]
        exact hallowed other hne
  · have hother : ∃ other, other ≠ output ∧ v.Feeds input other := by
      simpa [ConnectAllowed] using hallowed
    obtain ⟨other, hne, hfeeds⟩ := hother
    refine Or.inr ⟨?_, other, hne, (h.feeds_other hne input).mp hfeeds⟩
    have hconnected := (v.isConnected_iff input other).mpr hfeeds
    have hval : output.val ≠ other.val := fun he => hne (Fin.ext he).symm
    simp only [IBlock.connect]
    rw [dif_pos ⟨output.isLt, input.isLt⟩, if_pos]
    simp only [Bool.not_false, Bool.true_and, decide_eq_true_eq]
    exact ⟨other, hval, hconnected⟩

theorem Rewired.unsplit {u v : IBlock} {output : Fin 16} {done : List (Fin 32)} (hu : u.Unsplit)
    (h : Rewired u output done v) : v.Unsplit := by
  intro input target other htarget hother
  rcases (h.feeds input target).mp htarget with ⟨rfl, hmem⟩ | ⟨hne, hfeeds⟩ <;>
    rcases (h.feeds input other).mp hother with ⟨rfl, hmem'⟩ | ⟨hne', hfeeds'⟩
  · rfl
  · exact absurd hfeeds' (h.free input hmem other hne')
  · exact absurd hfeeds (h.free input hmem' target hne)
  · exact hu input target other hfeeds hfeeds'

private theorem input_lt (input : Fin 32) : input.val < 256 := by omega

/-- Some wanted input feeds another output. -/
def Taken (u : IBlock) (output : Fin 16) (wanted : List (Fin 32)) : Prop :=
  ∃ input ∈ wanted, ∃ other, other ≠ output ∧ u.Feeds input other

private theorem attempt_connect {u v : IBlock} {output : Fin 16} {done wanted : List (Fin 32)}
    (h : Rewired u output done v) {input : Fin 32} (hwanted : input ∈ wanted) (e : ConfigError) :
    wp (attempt (fun s : IBlock => s.connect input output false false) e)
      (fun _ w => Rewired u output (done ++ [input]) w) (fun _ _ => Taken u output wanted) v := by
  rw [wp_attempt]
  rcases h.connect input with ⟨w, hconnect, hw⟩ | ⟨hrefused, hother⟩
  · rw [hconnect, if_pos rfl]
    exact hw
  · rw [hrefused, if_neg Bool.false_ne_true]
    exact ⟨input, hwanted, hother⟩

/-- An open output takes the inputs asked for, unless one of them feeds another output. -/
theorem connectFromJson_inputSpec (inputSpec : InputSpec) {u v : IBlock} {output : Fin 16}
    (h : Rewired u output [] v) :
    wp (connectFromJson inputSpec.toJson output)
      (fun _ w => Rewired u output inputSpec.wanted w)
      (fun _ _ => Taken u output inputSpec.wanted) v := by
  cases inputSpec with
  | unconnected => exact h
  | single input =>
    simp only [InputSpec.toJson, InputSpec.wanted, connectFromJson, Json.isNull,
      Bool.false_eq_true, if_false, wp_bind, wp_require, Json.isUInt8_natCast (input_lt input),
      if_true, Json.asUInt8_natCast (input_lt input)]
    exact attempt_connect h List.mem_cons_self _
  | several inputs =>
    simp only [InputSpec.toJson, InputSpec.wanted, connectFromJson, Json.isNull,
      Bool.false_eq_true, if_false, List.forM_map]
    apply wp_forM (fun done w => Rewired u output done w) inputs h
    intro done input rest w hlist hw
    have hmem : input ∈ inputs := by simp [hlist]
    simp only [wp_bind, wp_require, Json.isUInt8_natCast (input_lt input), if_true,
      Json.asUInt8_natCast (input_lt input)]
    exact attempt_connect hw hmem _

end Lucidac.IBlock
