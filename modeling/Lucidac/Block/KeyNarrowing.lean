import Lucidac.Block.ObjectKeys

/-!
# Keys in eight bits

A setter touches the element that the low eight bits of the key name.  That is the key's own
element, or none, unless the key is beyond the elements and its low eight bits are not.
-/

namespace Lucidac

open Framework

section Elements

variable {σ α : Type} {n : Nat}

/-- The elements other than `out` are those of `c`. -/
def AgreesOff (element : σ → Fin n → α) (out : Nat) (c : Fin n → α) (s : σ) : Prop :=
  ∀ i, i.val ≠ out → element s i = c i

theorem AgreesOff.update {element : σ → Fin n → α} {out : Nat} {c : Fin n → α} {s t : σ}
    (hs : AgreesOff element out c s) {i : Fin n} (hi : i.val = out) {a : α}
    (ht : element t = Function.update (element s) i a) : AgreesOff element out c t := by
  intro j hj
  have hne : j ≠ i := fun he => hj (he ▸ hi)
  rw [ht, Function.update_of_ne hne]
  exact hs j hj

end Elements

theorem ObjectReader.changesOnly_of_keeps {reader : ObjectReader}
    {allowed : Fin reader.count → Prop} {member : String × Json} {out : Nat}
    (hallowed : ∀ i, ¬ allowed i → i.val ≠ out)
    (passes : List (String × Json → EStateM ConfigError reader.State PUnit))
    (h : ∀ pass ∈ passes, ∀ c, Keeps (AgreesOff reader.element out c) (pass member)) :
    reader.ChangesOnly allowed member passes := by
  induction passes with
  | nil => trivial
  | cons pass rest ih =>
    refine ⟨fun s i hi => ?_, fun _ => ih fun next hnext => h next (List.mem_cons_of_mem _ hnext)⟩
    exact h pass List.mem_cons_self (reader.element s) s (fun _ _ => rfl) i (hallowed i hi)

/-! ### What a member touches -/

namespace UBlock

theorem agreesOff_disconnect {out : Nat} {c : Fin 32 → Int} {s : UBlock}
    (hs : AgreesOff outputInputMap out c s) :
    AgreesOff outputInputMap out c (s.disconnect out).2 := by
  rw [disconnect]
  split
  · rename_i hout
    exact hs.update (i := ⟨out, hout⟩) rfl rfl
  · exact hs

theorem agreesOff_connect {out : Nat} {c : Fin 32 → Int} {s : UBlock}
    (hs : AgreesOff outputInputMap out c s) (input : Nat) (force : Bool) :
    AgreesOff outputInputMap out c (s.connect input out force).2 := by
  cases h : (s.connect input out force).1 with
  | false =>
    rw [connect_failure h]
    exact hs
  | true =>
    obtain ⟨hout, -, heq⟩ := connect_success h
    rw [heq]
    exact hs.update (i := ⟨out, hout⟩) rfl rfl

theorem keeps_clearNamed (key : Numeral) (value : Json) (c : Fin 32 → Int) :
    Keeps (AgreesOff outputInputMap (key.value % 256) c) (clearNamed (key.text, value)) :=
  (Keeps.require _ _).bind fun _ => keeps_readIndex_bind key <|
    Keeps.modify fun _ hs => agreesOff_disconnect hs

theorem keeps_connectNamed (key : Numeral) (value : Json) (c : Fin 32 → Int) :
    Keeps (AgreesOff outputInputMap (key.value % 256) c) (connectNamed (key.text, value)) := by
  refine keeps_readIndex_bind key ?_
  split
  · exact Keeps.pure _
  · exact Keeps.attempt (fun s hs => agreesOff_connect hs _ _) _

end UBlock

namespace IBlock

theorem agreesOff_disconnect {out : Nat} {c : Fin 16 → BitVec 32} {s : IBlock}
    (hs : AgreesOff outputs out c s) : AgreesOff outputs out c (s.disconnect out).2 := by
  rw [disconnect]
  split
  · rename_i hout
    exact hs.update (i := ⟨out, hout⟩) rfl rfl
  · exact hs

theorem agreesOff_connect {out : Nat} {c : Fin 16 → BitVec 32} {s : IBlock}
    (hs : AgreesOff outputs out c s) (input : Nat) (exclusive allowInputSplitting : Bool) :
    AgreesOff outputs out c (s.connect input out exclusive allowInputSplitting).2 := by
  rw [connect]
  split
  · rename_i hrange
    split
    · exact hs
    · exact hs.update (i := ⟨out, hrange.1⟩) rfl rfl
  · exact hs

theorem keeps_connectFromJson_agreesOff (inputSpec : Json) (out : Nat) (c : Fin 16 → BitVec 32) :
    Keeps (AgreesOff outputs out c) (connectFromJson inputSpec out) := by
  cases inputSpec with
  | null => exact Keeps.pure _
  | array inputs =>
    refine Keeps.forM (fun input => ?_) _
    exact (Keeps.require _ _).bind fun _ =>
      Keeps.attempt (fun s hs => agreesOff_connect hs _ _ _) _
  | _ =>
    exact (Keeps.require _ _).bind fun _ =>
      Keeps.attempt (fun s hs => agreesOff_connect hs _ _ _) _

theorem keeps_configNamed (key : Numeral) (value : Json) (c : Fin 16 → BitVec 32) :
    Keeps (AgreesOff outputs (key.value % 256) c) (configNamed (key.text, value)) :=
  (Keeps.require _ _).bind fun _ => keeps_readIndex_bind key <|
    (Keeps.attempt (fun _ hs => agreesOff_disconnect hs) _).bind fun _ =>
      keeps_connectFromJson_agreesOff value _ c

theorem keeps_configUpscaling_first (key : Numeral) (value : Json) (rest : List (String × Json))
    (c : Fin 32 → Bool) :
    Keeps (AgreesOff scalingFactors (key.value % 256) c)
      (configUpscalingFromJson (.object ((key.text, value) :: rest))) := by
  refine (Keeps.require _ _).bind fun _ => keeps_readIndex_bind key <|
    (Keeps.require _ _).bind fun _ => Keeps.modify fun s hs => ?_
  rw [setUpscaling]
  split
  · rename_i hin
    exact hs.update (i := ⟨_, hin⟩) rfl rfl
  · exact hs

end IBlock

theorem CBlock.agreesOff_setFactor {out : Nat} {c : Fin 32 → ℚ} {s : CBlock}
    (hs : AgreesOff factors out c s) (factor : ℚ) :
    AgreesOff factors out c (s.setFactor out factor).2 := by
  cases h : (s.setFactor out factor).1 with
  | false =>
    rw [setFactor_failure h]
    exact hs
  | true =>
    obtain ⟨hout, -, -, heq⟩ := setFactor_success h
    rw [heq]
    exact hs.update (i := ⟨out, hout⟩) rfl rfl

theorem CBlock.keeps_configNamed (parseNumber : String → ℚ) (key : Numeral) (value : Json)
    (c : Fin 32 → ℚ) :
    Keeps (AgreesOff factors (key.value % 256) c) (configNamed parseNumber (key.text, value)) := by
  refine keeps_readIndex_bind key ?_
  split
  · exact Keeps.attempt (fun s hs => agreesOff_setFactor hs _) _
  · split
    · exact Keeps.attempt (fun s hs => agreesOff_setFactor hs _) _
    · exact Keeps.throw _

namespace MIntBlock

theorem agreesOff_setIcValue {out : Nat} {c : Fin 8 → ℚ × Nat} {s : MIntBlock}
    (hs : AgreesOff configured out c s) (value : ℚ) :
    AgreesOff configured out c (s.setIcValue out value).2 := by
  rw [setIcValue]
  split
  · split
    · exact hs
    · intro j hj
      rw [← hs j hj]
      exact Prod.ext (Function.update_of_ne (fun he => hj (congrArg Fin.val he)) _ _) rfl
  · exact hs

theorem agreesOff_setTimeFactor {out : Nat} {c : Fin 8 → ℚ × Nat} {s : MIntBlock}
    (hs : AgreesOff configured out c s) (k : Nat) :
    AgreesOff configured out c (s.setTimeFactor out k).2 := by
  rw [setTimeFactor]
  split
  · exact hs
  · split
    · intro j hj
      rw [← hs j hj]
      exact Prod.ext rfl (Function.update_of_ne (fun he => hj (congrArg Fin.val he)) _ _)
    · exact hs

theorem keeps_configNamed (key : Numeral) (value : Json) (c : Fin 8 → ℚ × Nat) :
    Keeps (AgreesOff configured key.value c) (configNamed (key.text, value)) := by
  refine (Keeps.require _ _).bind fun _ => keeps_readIndex_bind key <|
    (Keeps.require _ _).bind fun _ => Keeps.bind ?_ fun _ => ?_
  · rw [configIc]
    split
    · exact (Keeps.require _ _).bind fun _ =>
        Keeps.attempt (fun s hs => agreesOff_setIcValue hs _) _
    · exact Keeps.pure _
  · rw [configTimeFactor]
    split
    · exact (Keeps.require _ _).bind fun _ =>
        Keeps.attempt (fun s hs => agreesOff_setTimeFactor hs _) _
    · exact Keeps.pure _

end MIntBlock

end Lucidac
