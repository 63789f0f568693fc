import Lucidac.Block.IBlock

/-!
# Upscaling by input

The object form of the upscaling names single inputs.  Its loop returns after the first member,
so what the later members ask for has to hold already, and an object without members is refused
like a value of another type.
-/

namespace Lucidac.IBlock

open Framework

/-- An object whose keys are numerals of distinct inputs. -/
structure UpscalingRequest where
  members : List (IndexKey 32 × Bool)
  distinct : (members.map fun m => m.1.index).Nodup

namespace UpscalingRequest

def toJson (r : UpscalingRequest) : Json :=
  .object (r.members.map fun m => (m.1.text, .bool m.2))

/-- What the request asks for: the named inputs take their values, all else is kept. -/
structure Fulfilled (r : UpscalingRequest) (s t : IBlock) : Prop where
  named : ∀ m ∈ r.members, t.scalingFactors m.1.index = m.2
  others : ∀ input, (∀ m ∈ r.members, m.1.index ≠ input) →
    t.scalingFactors input = s.scalingFactors input
  outputs : t.outputs = s.outputs

/-- The values that the members after the first one ask for are there before. -/
def RestInPlace (r : UpscalingRequest) (s : IBlock) : Prop :=
  ∀ m ∈ r.members.tail, s.scalingFactors m.1.index = m.2

end UpscalingRequest

def withScaling (s : IBlock) (input : Fin 32) (upscale : Bool) : IBlock :=
  { s with scalingFactors := Function.update s.scalingFactors input upscale }

theorem setUpscaling_eq (s : IBlock) (input : Fin 32) (upscale : Bool) :
    s.setUpscaling input upscale = (true, s.withScaling input upscale) := by
  rw [setUpscaling, dif_pos input.isLt]
  rfl

theorem configUpscalingFromJson_first (key : IndexKey 32) (upscale : Bool)
    (rest : List (String × Json)) (s : IBlock) :
    configUpscalingFromJson (.object ((key.text, .bool upscale) :: rest)) s =
      .ok ⟨⟩ (s.withScaling key.index upscale) := by
  apply eq_ok_of_wp
  have hrange : decide (key.index.val ≤ numInputs) = true :=
    decide_eq_true (Nat.le_of_lt key.index.isLt)
  simp only [configUpscalingFromJson, wp_bind, wp_require, Json.isBool, if_true]
  rw [key.readIndex_text (by decide), wp_pure, hrange, wp_bind, wp_require, if_pos rfl, wp_modify,
    key.index_mod (by decide), setUpscaling_eq]
  rfl

theorem configUpscalingFromJson_empty (s : IBlock) :
    configUpscalingFromJson (.object []) s =
      .error (.status (.ofCString "IBlock upscaling: Either provide list or object")) s := rfl

/-- Of a request that is not empty exactly the first member is carried out. -/
theorem UpscalingRequest.fulfilled_first_iff {r : UpscalingRequest} {key : IndexKey 32}
    {upscale : Bool} {rest : List (IndexKey 32 × Bool)} (h : r.members = (key, upscale) :: rest)
    (s : IBlock) :
    r.Fulfilled s (s.withScaling key.index upscale) ↔ r.RestInPlace s := by
  have hnew : ∀ m ∈ rest, m.1.index ≠ key.index := by
    have hdistinct := r.distinct
    rw [h, List.map_cons, List.nodup_cons] at hdistinct
    intro m hm heq
    exact hdistinct.1 (heq ▸ List.mem_map_of_mem hm)
  simp only [RestInPlace, h, List.tail_cons]
  constructor
  · intro hfulfilled m hm
    have hm' : m ∈ r.members := by
      rw [h]
      exact List.mem_cons_of_mem _ hm
    rw [← hfulfilled.named m hm']
    exact (Function.update_of_ne (hnew m hm) _ _).symm
  · intro hrest
    refine ⟨fun m hm => ?_, fun input hinput => ?_, rfl⟩
    · rw [h] at hm
      rcases List.mem_cons.mp hm with rfl | hm
      · exact Function.update_self _ _ _
      · exact (Function.update_of_ne (hnew m hm) _ _).trans (hrest m hm)
    · rw [h] at hinput
      exact Function.update_of_ne (hinput _ List.mem_cons_self).symm _ _

/-- An upscaling object does what it asks for exactly if it has a first member and everything
after that is in place already. -/
theorem configUpscaling_fulfilled_iff (s : IBlock) (r : UpscalingRequest) :
    (∃ t, configUpscalingFromJson r.toJson s = .ok ⟨⟩ t ∧ r.Fulfilled s t) ↔
      r.members ≠ [] ∧ r.RestInPlace s := by
  cases h : r.members with
  | nil =>
    have hempty : r.toJson = .object [] := by rw [UpscalingRequest.toJson, h]; rfl
    rw [hempty, configUpscalingFromJson_empty]
    simp
  | cons m rest =>
    obtain ⟨key, upscale⟩ := m
    have hjson : r.toJson =
        .object ((key.text, .bool upscale) :: rest.map fun m => (m.1.text, .bool m.2)) := by
      rw [UpscalingRequest.toJson, h]
      rfl
    rw [hjson, configUpscalingFromJson_first, ← UpscalingRequest.fulfilled_first_iff h]
    constructor
    · rintro ⟨t, hok, hfulfilled⟩
      cases hok
      exact ⟨List.cons_ne_nil _ _, hfulfilled⟩
    · rintro ⟨-, hfulfilled⟩
      exact ⟨_, rfl, hfulfilled⟩

/-- The key with this text; the facts about the text are checked together. -/
def keyOf {n : Nat} (text : String) (index : Fin n) (h : isNumber text = true ∧
    text.toList ≠ [] ∧ digitsValue text.toList = index) : IndexKey n :=
  ⟨text, index, h.1, h.2.1, h.2.2⟩

def inputKeyZero : IndexKey 32 := keyOf "0" 0 (by decide)

def inputKeyOne : IndexKey 32 := keyOf "1" 1 (by decide)

/-- `\x7b"0": true, "1": true\x7d` -/
def bothInputs : UpscalingRequest :=
  ⟨[(inputKeyZero, true), (inputKeyOne, true)], by decide⟩

/-- Input 1 is not scaled, though the configuration succeeds; nor is an empty object accepted. -/
theorem configUpscaling_bothInputs :
    (∃ t, configUpscalingFromJson bothInputs.toJson initial = .ok ⟨⟩ t ∧
      t.scalingFactors 1 = false ∧ ¬ bothInputs.Fulfilled initial t) ∧
    ∃ e, configUpscalingFromJson (.object []) initial = .error e initial := by
  refine ⟨⟨_, configUpscalingFromJson_first inputKeyZero true [("1", .bool true)] initial, rfl, ?_⟩,
    _, rfl⟩
  intro h
  have hone := h.named (inputKeyOne, true) (by simp [bothInputs])
  exact absurd hone (by decide)

end Lucidac.IBlock
