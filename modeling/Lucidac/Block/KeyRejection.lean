import Lucidac.Block.KeyNarrowing

/-!
# Which keys are rejected

A key beyond the elements is rejected where its low eight bits are beyond them as well, or where
its value is refused for another reason.  Else it reaches the element with its low eight bits, or
it is skipped, and a key beyond 32 bits ends in an exception.
-/

namespace Lucidac

open Framework ObjectReader

/-! ### Members that can be read -/

theorem guarded_of_readable {σ : Type} {f : String × Json → EStateM ConfigError σ PUnit}
    (hf : ∀ key : Numeral, key.value < 2^32 → ∀ value,
      Guarded (fun _ => True) IsStatus (f (key.text, value)))
    {members : List (String × Json)} (h : Readable members) :
    ∀ member ∈ members, Guarded (fun _ => True) IsStatus (f member) := by
  intro member hmember
  obtain ⟨name, value⟩ := member
  obtain ⟨key, rfl, hlt⟩ := h _ hmember
  exact hf key hlt value

namespace UBlock

theorem guarded_clearNamed {key : Numeral} (h : key.value < 2^32) (value : Json) :
    Guarded (fun _ => True) IsStatus (clearNamed (key.text, value)) :=
  (Guarded.require _ fun _ => isStatus_status _).bind fun _ =>
    (guarded_readIndex h).bind fun _ => Guarded.modify fun _ _ => trivial

theorem guarded_connectNamed {key : Numeral} (h : key.value < 2^32) (value : Json) :
    Guarded (fun _ => True) IsStatus (connectNamed (key.text, value)) :=
  (guarded_readIndex h).bind fun _ => Guarded.ite (fun _ => Guarded.pure _) fun _ =>
    Guarded.attempt (fun _ _ => trivial) (isStatus_status _)

/-- A value that is neither a number nor null. -/
theorem exits_clearNamed {value : Json} (hnumber : value.isUInt8 = false)
    (hnull : value.isNull = false) (key : String) :
    Exits (fun _ => True) IsStatus (clearNamed (key, value)) := by
  simp only [clearNamed, hnumber, hnull, Bool.or_false]
  exact (Exits.throw (isStatus_status _)).bind _

theorem clearNamed_refused {value : Json} (hnumber : value.isUInt8 = false)
    (hnull : value.isNull = false) (key : String) (s : UBlock) :
    ∃ e, clearNamed (key, value) s = .error e s := by
  simp only [clearNamed, hnumber, hnull, Bool.or_false]
  exact ⟨_, rfl⟩

theorem exits_connectNamed {key : Numeral} (h : key.value < 2^32) (hbeyond : 32 ≤ key.value % 256)
    {value : Json} (hnumber : value.isUInt8 = true) :
    Exits (fun _ => True) IsStatus (connectNamed (key.text, value)) := by
  have hnull : value.isNull = false := by
    cases value with
    | null => cases hnumber
    | _ => rfl
  simp only [connectNamed, hnull, Bool.false_eq_true, if_false]
  rw [key.readIndex_of_lt h, pure_bind]
  refine Exits.attempt (fun s _ => ?_) (isStatus_status _)
  rw [connect_of_range _ _ _ _ hbeyond]

end UBlock

namespace IBlock

theorem guarded_connectFromJson (inputSpec : Json) (output : Nat) :
    Guarded (fun _ => True) IsStatus (connectFromJson inputSpec output) := by
  have hconnect : ∀ input : Json, ∀ illegal refused : Status,
      Guarded (fun _ => True) IsStatus (require input.isUInt8 (.status illegal) >>= fun _ =>
        attempt (fun s : IBlock => s.connect input.asUInt8 output false false) (.status refused)) :=
    fun input illegal refused => (Guarded.require _ fun _ => isStatus_status _).bind fun _ =>
      Guarded.attempt (fun _ _ => trivial) (isStatus_status _)
  cases inputSpec with
  | null => exact Guarded.pure _
  | array inputs => exact Guarded.forM _ fun input _ => hconnect input _ _
  | _ => exact hconnect _ _ _

theorem guarded_configNamed {key : Numeral} (h : key.value < 2^32) (value : Json) :
    Guarded (fun _ => True) IsStatus (configNamed (key.text, value)) :=
  (Guarded.require _ fun _ => isStatus_status _).bind fun _ =>
    (guarded_readIndex h).bind fun _ =>
      (Guarded.attempt (fun _ _ => trivial) (isStatus_status _)).bind fun _ =>
        guarded_connectFromJson value _

theorem exits_configNamed {key : Numeral} (h : key.value < 2^32) (hbeyond : 16 ≤ key.value % 256)
    (value : Json) : Exits (fun _ => True) IsStatus (configNamed (key.text, value)) := by
  simp only [configNamed]
  rw [key.readIndex_of_lt h, pure_bind]
  refine Exits.of_guarded (Guarded.require _ fun _ => isStatus_status _) fun _ => Exits.bind ?_ _
  refine Exits.attempt (fun s _ => ?_) (isStatus_status _)
  rw [disconnect, dif_neg (Nat.not_lt.mpr hbeyond)]

end IBlock

namespace CBlock

variable (parseNumber : String → ℚ)

theorem guarded_configNamed {key : Numeral} (h : key.value < 2^32) (value : Json) :
    Guarded (fun _ => True) IsStatus (configNamed parseNumber (key.text, value)) :=
  (guarded_readIndex h).bind fun _ => Guarded.ite
    (fun _ => Guarded.attempt (fun _ _ => trivial) (isStatus_status _)) fun _ => Guarded.ite
      (fun _ => Guarded.attempt (fun _ _ => trivial) (isStatus_status _))
      fun _ => Guarded.throw (isStatus_status _)

theorem setFactor_beyond (s : CBlock) {idx : Nat} (h : 32 ≤ idx) (factor : ℚ) :
    s.setFactor idx factor = (false, s) := by
  rw [setFactor, dif_neg (Nat.not_lt.mpr h)]

theorem setFactor_out_of_range (s : CBlock) (idx : Nat) {factor : ℚ}
    (h : ¬ (minFactor ≤ factor ∧ factor ≤ maxFactor)) : s.setFactor idx factor = (false, s) := by
  have hrange : maxFactor < factor ∨ factor < minFactor := by
    rw [not_and_or, not_le, not_le] at h
    exact h.symm
  rw [setFactor]
  split <;> rfl

/-- A member whose value is no factor is refused whatever its key is. -/
theorem setFactor_of_not_givesFactor {value : Json} {idx : Nat}
    (h : 32 ≤ idx ∨ ¬ GivesFactor parseNumber value) {factor : ℚ}
    (hfactor : value.containsKey "factor" = true ∧
        factor = (value.member "factor").asFloat parseNumber ∨
      value.containsKey "factor" = false ∧ value.isFloat = true ∧
        factor = value.asFloat parseNumber) (s : CBlock) : s.setFactor idx factor = (false, s) := by
  rcases h with hbeyond | hnone
  · exact s.setFactor_beyond hbeyond factor
  · exact s.setFactor_out_of_range idx fun hrange => hnone ⟨factor, hrange.1, hrange.2, hfactor⟩

theorem exits_configNamed {key : Numeral} (h : key.value < 2^32) {value : Json}
    (hrefused : 32 ≤ key.value % 256 ∨ ¬ GivesFactor parseNumber value) :
    Exits (fun _ => True) IsStatus (configNamed parseNumber (key.text, value)) := by
  simp only [configNamed]
  rw [key.readIndex_of_lt h, pure_bind]
  cases hkey : value.containsKey "factor" with
  | true =>
    refine Exits.attempt (fun s _ => ?_) (isStatus_status _)
    rw [setFactor_of_not_givesFactor parseNumber hrefused (Or.inl ⟨hkey, rfl⟩)]
  | false =>
    cases hfloat : value.isFloat with
    | true =>
      refine Exits.attempt (fun s _ => ?_) (isStatus_status _)
      rw [setFactor_of_not_givesFactor parseNumber hrefused (Or.inr ⟨hkey, hfloat, rfl⟩)]
    | false => exact Exits.throw (isStatus_status _)

theorem keeps_configNamed_refused {key : Numeral} {value : Json}
    (hnone : ¬ GivesFactor parseNumber value) (s : CBlock) :
    finalState (configNamed parseNumber (key.text, value)) s = s := by
  have hkeeps : Keeps (fun t => t = s) (configNamed parseNumber (key.text, value)) := by
    refine keeps_readIndex_bind key ?_
    cases hkey : value.containsKey "factor" with
    | true =>
      refine Keeps.attempt (fun t ht => ?_) _
      rw [setFactor_of_not_givesFactor parseNumber (Or.inr hnone) (Or.inl ⟨hkey, rfl⟩)]
      exact ht
    | false =>
      cases hfloat : value.isFloat with
      | true =>
        refine Keeps.attempt (fun t ht => ?_) _
        rw [setFactor_of_not_givesFactor parseNumber (Or.inr hnone) (Or.inr ⟨hkey, hfloat, rfl⟩)]
        exact ht
      | false => exact Keeps.throw _
  exact hkeeps s rfl

end CBlock

namespace MIntBlock

theorem guarded_configNamed {key : Numeral} (h : key.value < 2^32) (value : Json) :
    Guarded (fun _ => True) IsStatus (configNamed (key.text, value)) := by
  refine (Guarded.require _ fun _ => isStatus_status _).bind fun _ =>
    (guarded_readIndex h).bind fun _ => (Guarded.require _ fun _ => isStatus_status _).bind
      fun _ => Guarded.bind ?_ fun _ => ?_
  · exact Guarded.ite (fun _ => (Guarded.require _ fun _ => isStatus_status _).bind fun _ =>
      Guarded.attempt (fun _ _ => trivial) (isStatus_status _)) fun _ => Guarded.pure _
  · exact Guarded.ite (fun _ => (Guarded.require _ fun _ => isStatus_status _).bind fun _ =>
      Guarded.attempt (fun _ _ => trivial) (isStatus_status _)) fun _ => Guarded.pure _

theorem exits_configNamed_of_not_object {value : Json} (h : value.isObject = false)
    (key : String) : Exits (fun _ => True) IsStatus (configNamed (key, value)) := by
  simp only [configNamed, h]
  exact (Exits.throw (isStatus_status _)).bind _

theorem exits_configNamed {key : Numeral} (h : key.value < 2^32) (hbeyond : 8 ≤ key.value)
    (value : Json) : Exits (fun _ => True) IsStatus (configNamed (key.text, value)) := by
  have hrange : decide (key.value < numIntegrators) = false :=
    decide_eq_false (Nat.not_lt.mpr hbeyond)
  simp only [configNamed]
  rw [key.readIndex_of_lt h, pure_bind, hrange]
  exact Exits.of_guarded (Guarded.require _ fun _ => isStatus_status _) fun _ =>
    (Exits.throw (isStatus_status _)).bind _

end MIntBlock

/-! ### The readers -/

theorem ElementForm.count_le (parseNumber : String → ℚ) (form : ElementForm) :
    (form.reader parseNumber).count ≤ 256 := by
  cases form <;> exact Nat.le_of_ble_eq_true rfl

section Forms

variable (parseNumber : String → ℚ) (key : Numeral) (value : Json)

/-- The element with the low eight bits of the key is the key's own element. -/
private theorem ne_mod_of_ne {n k : Nat} (hn : n ≤ 256) (hk : k < n) (i : Fin n)
    (hi : ¬ i.val = k) : i.val ≠ k % 256 := by
  rw [Nat.mod_eq_of_lt (Nat.lt_of_lt_of_le hk hn)]
  exact hi

/-- The low eight bits of the key name no element. -/
private theorem ne_mod_of_le {n k : Nat} (hk : n ≤ k % 256) (i : Fin n) (_ : ¬ False) :
    i.val ≠ k % 256 :=
  Nat.ne_of_lt (Nat.lt_of_lt_of_le i.isLt hk)

theorem ublock_keyRespected (h : ElementForm.ublockOutputs.KeySafe parseNumber key.value value) :
    (ElementForm.ublockOutputs.reader parseNumber).KeyRespected key value := by
  have hkeeps : ∀ pass ∈ [UBlock.clearNamed, UBlock.connectNamed], ∀ c,
      Keeps (AgreesOff UBlock.outputInputMap (key.value % 256) c) (pass (key.text, value)) := by
    intro pass hpass c
    rcases List.mem_pair.mp hpass with rfl | rfl
    · exact UBlock.keeps_clearNamed key value c
    · exact UBlock.keeps_connectNamed key value c
  have hclear {members : List (String × Json)} (hread : Readable members) :=
    guarded_of_readable (fun _ h => UBlock.guarded_clearNamed h) hread
  have hconnect {members : List (String × Json)} (hread : Readable members) :=
    guarded_of_readable (fun _ h => UBlock.guarded_connectNamed h) hread
  refine ⟨fun hbeyond => ?_, fun hwithin =>
    changesOnly_of_keeps (ne_mod_of_ne (ElementForm.count_le _ _) hwithin) _ hkeeps⟩
  obtain hwithin | ⟨hnumber, hnull⟩ | ⟨hnumber, hlow, hlt⟩ := h
  · exact absurd hwithin (Nat.not_lt.mpr hbeyond)
  · -- the first pass refuses the value
    have hexits := UBlock.exits_clearNamed hnumber hnull key.text
    refine ⟨rejects_of_exits fun before after hbefore _ =>
      (Exits.forM_append (hclear hbefore) hexits).bind _, ?_, fun haccepts => ?_⟩
    · intro s i _
      obtain ⟨e, hrefused⟩ := UBlock.clearNamed_refused hnumber hnull key.text s
      simp only [finalState, hrefused]
    · obtain ⟨s, hs⟩ := haccepts
      obtain ⟨e, hrefused⟩ := UBlock.clearNamed_refused hnumber hnull key.text s
      simp only [outcome, hrefused, Bool.false_eq_true] at hs
  · refine ⟨rejects_of_exits fun before after hbefore hafter => ?_,
      changesOnly_of_keeps (ne_mod_of_le hlow) _ hkeeps⟩
    refine Exits.of_guarded (Guarded.forM _ fun member hmember => ?_) fun _ =>
      Exits.forM_append (hconnect hbefore) (UBlock.exits_connectNamed hlt hlow hnumber)
    rcases List.mem_append.mp hmember with hmember | hmember
    · exact hclear hbefore member hmember
    · rcases List.mem_cons.mp hmember with rfl | hmember
      · exact UBlock.guarded_clearNamed hlt value
      · exact hclear hafter member hmember

theorem iblock_keyRespected (h : ElementForm.iblockOutputs.KeySafe parseNumber key.value value) :
    (ElementForm.iblockOutputs.reader parseNumber).KeyRespected key value := by
  have hkeeps : ∀ pass ∈ [IBlock.configNamed], ∀ c,
      Keeps (AgreesOff IBlock.outputs (key.value % 256) c) (pass (key.text, value)) := by
    intro pass hpass c
    rw [List.mem_singleton.mp hpass]
    exact IBlock.keeps_configNamed key value c
  refine ⟨fun hbeyond => ?_, fun hwithin =>
    changesOnly_of_keeps (ne_mod_of_ne (ElementForm.count_le _ _) hwithin) _ hkeeps⟩
  obtain hwithin | ⟨hlow, hlt⟩ := h
  · exact absurd hwithin (Nat.not_lt.mpr hbeyond)
  · refine ⟨rejects_of_exits fun before after hbefore _ => ?_,
      changesOnly_of_keeps (ne_mod_of_le hlow) _ hkeeps⟩
    exact Exits.forM_append (guarded_of_readable (fun key h => IBlock.guarded_configNamed h) hbefore)
      (IBlock.exits_configNamed hlt hlow value)

theorem iblockUpscaling_keyRespected
    (h : ElementForm.iblockUpscaling.KeySafe parseNumber key.value value) :
    (ElementForm.iblockUpscaling.reader parseNumber).KeyRespected key value := by
  refine ⟨fun hbeyond => absurd h (Nat.not_lt.mpr hbeyond), fun hwithin =>
    changesOnly_of_keeps (ne_mod_of_ne (ElementForm.count_le _ _) hwithin) _ ?_⟩
  intro pass hpass c
  rw [List.mem_singleton.mp hpass]
  exact IBlock.keeps_configUpscaling_first key value [] c

theorem cblock_keyRespected (h : ElementForm.cblockElements.KeySafe parseNumber key.value value) :
    (ElementForm.cblockElements.reader parseNumber).KeyRespected key value := by
  have hkeeps : ∀ pass ∈ [CBlock.configNamed parseNumber], ∀ c,
      Keeps (AgreesOff CBlock.factors (key.value % 256) c) (pass (key.text, value)) := by
    intro pass hpass c
    rw [List.mem_singleton.mp hpass]
    exact CBlock.keeps_configNamed parseNumber key value c
  refine ⟨fun hbeyond => ?_, fun hwithin =>
    changesOnly_of_keeps (ne_mod_of_ne (ElementForm.count_le _ _) hwithin) _ hkeeps⟩
  obtain hwithin | ⟨hlt, hrefused⟩ := h
  · exact absurd hwithin (Nat.not_lt.mpr hbeyond)
  · refine ⟨rejects_of_exits fun before after hbefore _ => ?_, ?_⟩
    · exact Exits.forM_append
        (guarded_of_readable (fun key h => CBlock.guarded_configNamed parseNumber h) hbefore)
        (CBlock.exits_configNamed parseNumber hlt hrefused)
    · rcases hrefused with hlow | hnone
      · exact changesOnly_of_keeps (ne_mod_of_le hlow) _ hkeeps
      · refine ⟨fun s i _ => ?_, fun _ => trivial⟩
        exact congrArg (fun t => CBlock.factors t i)
          (CBlock.keeps_configNamed_refused parseNumber hnone s)

theorem mint_keyRespected (h : ElementForm.mintElements.KeySafe parseNumber key.value value) :
    (ElementForm.mintElements.reader parseNumber).KeyRespected key value := by
  have hkeeps : ∀ pass ∈ [MIntBlock.configNamed], ∀ c,
      Keeps (AgreesOff MIntBlock.configured key.value c) (pass (key.text, value)) := by
    intro pass hpass c
    rw [List.mem_singleton.mp hpass]
    exact MIntBlock.keeps_configNamed key value c
  refine ⟨fun hbeyond => ⟨rejects_of_exits fun before after hbefore _ => ?_, ?_⟩, fun hwithin =>
    changesOnly_of_keeps (fun i hi => hi) _ hkeeps⟩
  · have hexits : Exits (fun _ => True) IsStatus (MIntBlock.configNamed (key.text, value)) := by
      rcases h with hlt | hobject
      · exact MIntBlock.exits_configNamed hlt hbeyond value
      · exact MIntBlock.exits_configNamed_of_not_object hobject key.text
    change Exits _ _ (MIntBlock.configElementObject _)
    rw [MIntBlock.configElementObject_eq]
    exact Exits.forM_append
      (guarded_of_readable (fun key h => MIntBlock.guarded_configNamed h) hbefore) hexits
  · exact changesOnly_of_keeps
      (fun i _ => Nat.ne_of_lt (Nat.lt_of_lt_of_le i.isLt hbeyond)) _ hkeeps

end Forms

end Lucidac
