import Lucidac.Block.IBlockUpscaling
import Lucidac.Block.KeyRejection

/-!
# Which keys are respected

The keys that are refused or reach their own element are all there are: every other key is
accepted, ends in an exception, or changes a wrong element in some state.
-/

namespace Lucidac

open Framework ObjectReader

theorem ObjectReader.not_keyRespected_of_wp {reader : ObjectReader} {key : Numeral} {value : Json}
    (hbeyond : reader.count ≤ key.value) {before : List (String × Json)} (hbefore : Readable before)
    {s : reader.State} (h : wp (reader.read (before ++ [(key.text, value)])) (fun _ _ => True)
      (fun e _ => e = .exception) s) : ¬ reader.KeyRespected key value :=
  fun hrespected => not_rejects_of_wp hbefore h (hrespected.beyond hbeyond).1

theorem readable_nil : Readable [] := by simp [Readable]

/-- Beyond 32 bits the conversion of the key throws. -/
theorem wp_readIndex_overflow {σ β : Type} {key : Numeral} (h : 2^32 ≤ key.value)
    (f : Nat → EStateM ConfigError σ β) (Q : β → σ → Prop) (s : σ) :
    wp (readIndex key.text >>= f) Q (fun e _ => e = .exception) s := by
  rw [key.readIndex_text, if_pos h]
  rfl

section Forms

variable {parseNumber : String → ℚ} {key : Numeral} {value : Json}

theorem ublock_keySafe
    (h : (ElementForm.ublockOutputs.reader parseNumber).KeyRespected key value) :
    ElementForm.ublockOutputs.KeySafe parseNumber key.value value := by
  rcases Nat.lt_or_ge key.value 32 with hwithin | hbeyond
  · exact Or.inl hwithin
  refine Or.inr ?_
  cases hgiven : value.isUInt8 || value.isNull with
  | false => exact Or.inl (Bool.or_eq_false_iff.mp hgiven)
  | true =>
    have hfits : key.value < 2^32 := by
      by_contra hover
      have hread : wp (UBlock.configOutputObject [(key.text, value)]) (fun _ _ => True)
          (fun e _ => e = .exception) UBlock.initial := by
        rw [UBlock.configOutputObject_eq, forM_singleton, wp_bind]
        simp only [UBlock.clearNamed]
        rw [wp_bind, wp_require, hgiven, if_pos rfl]
        exact wp_readIndex_overflow (Nat.not_lt.mp hover) _ _ _
      exact not_keyRespected_of_wp hbeyond readable_nil hread h
    have hnull : value.isNull = false := by
      by_contra hnull
      rw [Bool.not_eq_false] at hnull
      have hread : wp (UBlock.configOutputObject [(key.text, value)]) (fun _ _ => True)
          (fun e _ => e = .exception) UBlock.initial := by
        rw [UBlock.configOutputObject_eq, forM_singleton, forM_singleton, wp_bind]
        simp only [UBlock.clearNamed, UBlock.connectNamed]
        rw [wp_bind, wp_require, hgiven, if_pos rfl, key.readIndex_of_lt hfits]
        simp [hnull]
      exact not_keyRespected_of_wp hbeyond readable_nil hread h
    have hnumber : value.isUInt8 = true := by
      rw [hnull, Bool.or_false] at hgiven
      exact hgiven
    refine Or.inr ⟨hnumber, ?_, hfits⟩
    -- an output with the low eight bits of the key would be cleared
    by_contra hlow
    rw [Nat.not_le] at hlow
    have hchanged := (h.beyond hbeyond).2.1 ⟨fun _ => 0, .one, .analogInput, .analogInput⟩
      ⟨key.value % 256, hlow⟩ id
    have hcleared : (finalState (UBlock.clearNamed (key.text, value))
        ⟨fun _ => 0, .one, .analogInput, .analogInput⟩).outputInputMap
          ⟨key.value % 256, hlow⟩ = -1 := by
      refine finalState_of_wp (P := fun t : UBlock =>
        t.outputInputMap ⟨key.value % 256, hlow⟩ = -1) ?_
      simp only [UBlock.clearNamed]
      rw [wp_bind, wp_require, hgiven, if_pos rfl, key.readIndex_of_lt hfits]
      simp [UBlock.disconnect, hlow, UBlock.disconnectUnchecked]
    have hzero : (-1 : Int) = 0 := hcleared.symm.trans hchanged
    exact absurd hzero (by decide)

/-- Whatever the output held before is gone when its inputs are connected. -/
theorem iblock_finalState_configNamed (hfits : key.value < 2^32) (hlow : key.value % 256 < 16)
    (s : IBlock) :
    finalState (IBlock.configNamed (key.text, value)) s =
      finalState (IBlock.connectFromJson value (key.value % 256))
        (s.setOutput ⟨key.value % 256, hlow⟩ 0) := by
  have hdisconnect : s.disconnect (key.value % 256) =
      (true, s.setOutput ⟨key.value % 256, hlow⟩ 0) := dif_pos hlow
  simp only [IBlock.configNamed]
  rw [key.readIndex_of_lt hfits, key.isNumber_text, pure_bind]
  simp only [finalState, require, if_true, pure_bind]
  rw [attempt_bind_of_success hdisconnect]

theorem iblock_keySafe
    (h : (ElementForm.iblockOutputs.reader parseNumber).KeyRespected key value) :
    ElementForm.iblockOutputs.KeySafe parseNumber key.value value := by
  rcases Nat.lt_or_ge key.value 16 with hwithin | hbeyond
  · exact Or.inl hwithin
  refine Or.inr ?_
  have hfits : key.value < 2^32 := by
    by_contra hover
    have hread : wp (IBlock.configOutputObject [(key.text, value)]) (fun _ _ => True)
        (fun e _ => e = .exception) IBlock.initial := by
      rw [IBlock.configOutputObject_eq, forM_singleton]
      simp only [IBlock.configNamed]
      rw [wp_bind, wp_require, key.isNumber_text, if_pos rfl]
      exact wp_readIndex_overflow (Nat.not_lt.mp hover) _ _ _
    exact not_keyRespected_of_wp hbeyond readable_nil hread h
  refine ⟨?_, hfits⟩
  by_contra hlow
  rw [Nat.not_le] at hlow
  -- two states that differ only in the output that is cleared first
  have hkept : ∀ s : IBlock, (finalState (IBlock.configNamed (key.text, value)) s).outputs
      ⟨key.value % 256, hlow⟩ = s.outputs ⟨key.value % 256, hlow⟩ :=
    fun s => (h.beyond hbeyond).2.1 s ⟨key.value % 256, hlow⟩ id
  have hempty := hkept ⟨fun _ => 0, fun _ => false⟩
  have hfull := hkept ((⟨fun _ => 0, fun _ => false⟩ : IBlock).setOutput ⟨key.value % 256, hlow⟩ 1)
  rw [iblock_finalState_configNamed hfits hlow] at hempty hfull
  simp only [IBlock.setOutput, Function.update_idem, Function.update_self] at hempty hfull
  rw [hempty] at hfull
  exact absurd hfull (by decide)

theorem iblockUpscaling_keySafe
    (h : (ElementForm.iblockUpscaling.reader parseNumber).KeyRespected key value) :
    ElementForm.iblockUpscaling.KeySafe parseNumber key.value value := by
  rcases Nat.lt_or_ge key.value 32 with hwithin | hbeyond
  · exact hwithin
  -- behind another member the key is not read at all
  have hread : wp (IBlock.configUpscalingFromJson (.object [("0", .bool true), (key.text, value)]))
      (fun _ _ => True) (fun e _ => e = .exception) IBlock.initial := by
    simp only [wp]
    rw [show ("0" : String) = IBlock.inputKeyZero.text from rfl,
      IBlock.configUpscalingFromJson_first]
    trivial
  have hbefore : Readable [("0", .bool true)] := by
    intro member hmember
    rw [List.mem_singleton.mp hmember]
    exact ⟨⟨"0", by decide, by decide⟩, rfl, by decide⟩
  exact absurd h (not_keyRespected_of_wp hbeyond hbefore hread)

theorem cblock_keySafe
    (h : (ElementForm.cblockElements.reader parseNumber).KeyRespected key value) :
    ElementForm.cblockElements.KeySafe parseNumber key.value value := by
  rcases Nat.lt_or_ge key.value 32 with hwithin | hbeyond
  · exact Or.inl hwithin
  refine Or.inr ?_
  have hfits : key.value < 2^32 := by
    by_contra hover
    have hread : wp (CBlock.configElementObject parseNumber [(key.text, value)])
        (fun _ _ => True) (fun e _ => e = .exception) CBlock.initial := by
      rw [CBlock.configElementObject_eq, forM_singleton]
      exact wp_readIndex_overflow (Nat.not_lt.mp hover) _ _ _
    exact not_keyRespected_of_wp hbeyond readable_nil hread h
  refine ⟨hfits, ?_⟩
  by_contra hgiven
  rw [not_or, not_not, Nat.not_le] at hgiven
  obtain ⟨hlow, factor, hmin, hmax, hfactor⟩ := hgiven
  -- a state in which the lane has another factor
  have hkept := (h.beyond hbeyond).2.1 ⟨fun _ => factor + 1, fun _ => 1⟩
    ⟨key.value % 256, hlow⟩ id
  have hset : (finalState (CBlock.configNamed parseNumber (key.text, value))
      ⟨fun _ => factor + 1, fun _ => 1⟩).factors ⟨key.value % 256, hlow⟩ = factor := by
    refine finalState_of_wp (P := fun t : CBlock =>
      t.factors ⟨key.value % 256, hlow⟩ = factor) ?_
    have heq := CBlock.setFactor_of_range ⟨fun _ => factor + 1, fun _ => 1⟩
      ⟨key.value % 256, hlow⟩ hmin hmax
    dsimp only at heq
    simp only [CBlock.configNamed]
    rw [key.readIndex_of_lt hfits, pure_bind]
    rcases hfactor with ⟨hkey, rfl⟩ | ⟨hkey, hfloat, rfl⟩
    · rw [hkey, if_pos rfl, wp_attempt, heq]
      simp
    · rw [hkey, hfloat, if_neg Bool.false_ne_true, if_pos rfl, wp_attempt, heq]
      simp
  have hsame : factor = factor + 1 := hset.symm.trans hkept
  linarith

theorem mint_keySafe
    (h : (ElementForm.mintElements.reader parseNumber).KeyRespected key value) :
    ElementForm.mintElements.KeySafe parseNumber key.value value := by
  rcases Nat.lt_or_ge key.value (2^32) with hfits | hover
  · exact Or.inl hfits
  refine Or.inr ?_
  by_contra hobject
  rw [Bool.not_eq_false] at hobject
  have hbeyond : 8 ≤ key.value := Nat.le_trans (by decide) hover
  have hread : wp (MIntBlock.configElementObject [(key.text, value)]) (fun _ _ => True)
      (fun e _ => e = .exception) MIntBlock.initial := by
    rw [MIntBlock.configElementObject_eq, forM_singleton]
    simp only [MIntBlock.configNamed]
    rw [wp_bind, wp_require, hobject, if_pos rfl]
    exact wp_readIndex_overflow hover _ _ _
  exact not_keyRespected_of_wp hbeyond readable_nil hread h

end Forms

/-- A key is respected by one of the five readers exactly if it is safe there. -/
theorem keyRespected_iff (parseNumber : String → ℚ) (form : ElementForm) (key : Numeral)
    (value : Json) :
    (form.reader parseNumber).KeyRespected key value ↔ form.KeySafe parseNumber key.value value := by
  cases form with
  | ublockOutputs => exact ⟨ublock_keySafe, ublock_keyRespected parseNumber key value⟩
  | iblockOutputs => exact ⟨iblock_keySafe, iblock_keyRespected parseNumber key value⟩
  | iblockUpscaling =>
    exact ⟨iblockUpscaling_keySafe, iblockUpscaling_keyRespected parseNumber key value⟩
  | cblockElements => exact ⟨cblock_keySafe, cblock_keyRespected parseNumber key value⟩
  | mintElements => exact ⟨mint_keySafe, mint_keyRespected parseNumber key value⟩

/-- The keys 256, 32 and 40 of elements that do not exist are accepted, and 256 reaches element 0. -/
theorem keys_beyond_accepted :
    ((outcome (IBlock.configOutputsFromJson (.object [("256", .integer 3)])) IBlock.initial).1 =
        true ∧
      (outcome (IBlock.configOutputsFromJson (.object [("256", .integer 3)]))
        IBlock.initial).2.outputs 0 = 8) ∧
    ((outcome (CBlock.configElementsFromJson (fun _ => 0) (.object [("256", .float (1 / 2))]))
        CBlock.initial).1 = true ∧
      (outcome (CBlock.configElementsFromJson (fun _ => 0) (.object [("256", .float (1 / 2))]))
        CBlock.initial).2.factors 0 = 1 / 2) ∧
    (outcome (UBlock.configOutputsFromJson (.object [("40", .null)])) UBlock.initial).1 = true ∧
    (outcome (IBlock.configUpscalingFromJson (.object [("32", .bool true)]))
      IBlock.initial).1 = true := by
  decide +kernel

end Lucidac
