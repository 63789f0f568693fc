import Lucidac.Platform.ConfigPaths

/-!
# Reading back what an entity has written

C block, integrator block, LUCIDAC and front panel each write their own configuration and read it
again.  The readers store value by value, so after `k` values the state is known in closed form:
the first `k` entries are those that were written.
-/

namespace Lucidac

open Framework

namespace CBlock

theorem configSelf_restores (parseNumber : String → ℚ) (s t : CBlock)
    (hs : ∀ lane, minFactor ≤ s.factors lane ∧ s.factors lane ≤ maxFactor) :
    configSelfFromJson parseNumber s.configSelfToJson t =
      .ok ⟨⟩ { t with factors := s.factors } := by
  apply eq_ok_of_wp
  simp only [configSelfFromJson, configSelfToJson, List.forM_cons, List.forM_nil, wp_bind, if_true,
    configElementsFromJson, configElementArray, wp_require, List.length_ofFn, numCoeff,
    beq_self_eq_true]
  refine wp_mono (wp_forM_zipIdx
    (fun k u => u = { t with factors := copied s.factors t.factors k }) ?_ ?_) ?_ (fun _ _ hf => hf)
  · rw [copied_zero]
  · intro k hk u hu
    have hset := u.setFactor_of_range ⟨k, hk⟩ (hs ⟨k, hk⟩).1 (hs ⟨k, hk⟩).2
    simp only [wp_bind, wp_require, Json.isFloat, if_true, wp_attempt, Json.asFloat]
    rw [hset, hu]
    simp only [if_true]
    rw [copied_succ]
  · intro _ u hu
    rw [copied_all] at hu
    exact hu

end CBlock

namespace MIntBlock

structure InRange (s : MIntBlock) : Prop where
  icValue : ∀ i, -1 ≤ s.icValues i ∧ s.icValues i ≤ 1
  timeFactor : ∀ i, s.timeFactors i = 100 ∨ s.timeFactors i = 10000

theorem setIcValue_of_range (s : MIntBlock) (i : Fin 8) {value : ℚ} (h : -1 ≤ value ∧ value ≤ 1) :
    s.setIcValue i value = (true, { s with icValues := Function.update s.icValues i value }) := by
  simp only [setIcValue]
  rw [dif_pos i.isLt, if_neg]
  rw [not_or, not_lt, not_lt]
  exact ⟨h.2, h.1⟩

theorem setTimeFactor_of_legal (s : MIntBlock) (i : Fin 8) {k : Nat} (h : k = 100 ∨ k = 10000) :
    s.setTimeFactor i k = (true, { s with timeFactors := Function.update s.timeFactors i k }) := by
  simp only [setTimeFactor]
  rw [if_neg (not_not.mpr h), dif_pos i.isLt]

theorem configSelf_restores (s t : MIntBlock) (hs : s.InRange) :
    configSelfFromJson s.configSelfToJson t = .ok ⟨⟩ s := by
  apply eq_ok_of_wp
  simp only [configSelfFromJson, configSelfToJson, List.forM_cons, List.forM_nil, wp_bind, if_true,
    configElementsFromJson, configElementArray, wp_require, List.length_ofFn, numIntegrators,
    beq_self_eq_true]
  refine wp_mono (wp_forM_zipIdx
    (fun k u => u = ⟨copied s.icValues t.icValues k, copied s.timeFactors t.timeFactors k⟩) ?_ ?_)
    ?_ (fun _ _ hf => hf)
  · rw [copied_zero, copied_zero]
  · intro k hk u hu
    have hic : (s.elementToJson ⟨k, hk⟩).member "ic" = .float (s.icValues ⟨k, hk⟩) := rfl
    have hk' : (s.elementToJson ⟨k, hk⟩).member "k" = .integer (s.timeFactors ⟨k, hk⟩) := rfl
    have hhasIc : (s.elementToJson ⟨k, hk⟩).containsKey "ic" = true := rfl
    have hhasK : (s.elementToJson ⟨k, hk⟩).containsKey "k" = true := rfl
    have hlegal := hs.timeFactor ⟨k, hk⟩
    have hisUInt : (Json.integer (s.timeFactors ⟨k, hk⟩)).isUInt32 = true := by
      simp only [Json.isUInt32, Bool.and_eq_true, decide_eq_true_eq]
      omega
    have hasUInt : (Json.integer (s.timeFactors ⟨k, hk⟩)).asUInt32 = s.timeFactors ⟨k, hk⟩ := by
      simp only [Json.asUInt32]
      omega
    have hsetIc := u.setIcValue_of_range ⟨k, hk⟩ (hs.icValue ⟨k, hk⟩)
    have hsetK (v : MIntBlock) := v.setTimeFactor_of_legal ⟨k, hk⟩ hlegal
    simp only [wp_bind, wp_require, wp_attempt, hhasIc, hic, hhasK, hk', Json.isFloat, Json.asFloat,
      Bool.and_true, if_true, hisUInt, hasUInt]
    rw [hsetIc]
    simp only [if_true]
    rw [hsetK, hu]
    simp only [if_true]
    rw [copied_succ, copied_succ]
  · intro _ u hu
    rw [copied_all, copied_all] at hu
    exact hu

end MIntBlock

namespace SignalGenerator

structure InRange (s : SignalGenerator) : Prop where
  amplitude : 0 ≤ s.amplitude ∧ s.amplitude ≤ 1
  squareVoltageLow : |s.squareVoltageLow| ≤ 1
  squareVoltageHigh : |s.squareVoltageHigh| ≤ 1
  offset : |s.offset| ≤ 1
  dacOut0 : |s.dacOut0| ≤ 1
  dacOut1 : |s.dacOut1| ≤ 1

theorem setAmplitude_of_range (s : SignalGenerator) {x : ℚ} (h : 0 ≤ x ∧ x ≤ 1) :
    s.setAmplitude x = (true, { s with amplitude := x }) := by
  simp only [setAmplitude]
  rw [if_neg]
  rw [not_or, not_lt, not_lt]
  exact h

theorem ofJson_toText (waveForm : WaveForm) :
    WaveForm.ofJson (.string waveForm.toText) = some waveForm := by
  cases waveForm <;> rfl

theorem config_roundTrip (s t : SignalGenerator) (hs : s.InRange) :
    configFromJson s.configToJson t = .ok ⟨⟩ s := by
  apply eq_ok_of_wp
  have hwave : s.configToJson.member "wave_form" = .string s.waveForm.toText := rfl
  have hdac : s.configToJson.member "dac_outputs" =
      .array [.float s.dacOut0, .float s.dacOut1] := rfl
  have hmembers : configFromJson s.configToJson = forM
      [("frequency", Json.float s.frequency), ("phase", .float s.phase),
        ("wave_form", .string s.waveForm.toText), ("amplitude", .float s.amplitude),
        ("square_voltage_low", .float s.squareVoltageLow),
        ("square_voltage_high", .float s.squareVoltageHigh), ("offset", .float s.offset),
        ("sleep", .bool s.sleep), ("dac_outputs", .array [.float s.dacOut0, .float s.dacOut1])]
      fun entry => configMember s.configToJson entry.1 entry.2 := rfl
  rw [hmembers]
  simp only [List.forM_cons, List.forM_nil, wp_bind, configMember, if_true, String.reduceEq, if_false,
    configFloat, configWaveForm, configSleep, configDacOutputs, wp_require, wp_modify, wp_attempt,
    Json.isFloat, Json.isString, Json.isBool, Json.isArray, Json.asFloat, Json.asBool, hwave, hdac,
    ofJson_toText, Json.asArray, List.length_cons, List.length_nil, beq_self_eq_true, Nat.zero_add,
    Nat.reduceAdd, List.getD_cons_zero, List.getD_cons_succ, setAmplitude_of_range _ hs.amplitude,
    setSquareVoltageLow, setSquareVoltageHigh, setOffset, setDacOut0, setDacOut1,
    not_lt.mpr hs.squareVoltageLow, not_lt.mpr hs.squareVoltageHigh, not_lt.mpr hs.offset,
    not_lt.mpr hs.dacOut0, not_lt.mpr hs.dacOut1]
  rfl

end SignalGenerator

theorem FrontPanel.configSelf_restores (s t : FrontPanel) (hs : s.signalGenerator.InRange) :
    FrontPanel.configSelfFromJson s.configSelfToJson t = .ok ⟨⟩ s := by
  apply eq_ok_of_wp
  have hlt : s.leds.toNat < 256 := s.leds.isLt
  have hisUInt := Json.isUInt8_natCast hlt
  have hasUInt := Json.asUInt8_natCast hlt
  have hgenerator : wp (SignalGenerator.configFromJson s.signalGenerator.configToJson)
      (fun _ u => u = s.signalGenerator) (fun _ _ => False) t.signalGenerator := by
    simp only [wp]
    rw [SignalGenerator.config_roundTrip _ _ hs]
  simp only [FrontPanel.configSelfFromJson, FrontPanel.configSelfToJson, List.forM_cons,
    List.forM_nil, wp_bind, if_true, String.reduceEq, if_false, FrontPanel.configLedsFromJson,
    FrontPanel.configSignalGeneratorFromJson, wp_require, hisUInt, wp_modify, hasUInt, wp_zoom]
  refine wp_mono hgenerator ?_ (fun _ _ hf => hf)
  intro _ u hu
  rw [hu, BitVec.ofNat_toNat, BitVec.setWidth_eq]
  rfl

namespace Platform

theorem readAdcChannels_written (lib : JsonLibrary) (channels old : Fin 8 → Int)
    (h : ∀ i, -1 ≤ channels i ∧ channels i ≤ 15) :
    readAdcChannels lib (List.ofFn fun i => LUCIDAC.adcChannelToJson (channels i)) old = channels := by
  funext i
  simp only [readAdcChannels]
  rw [List.getElem?_ofFn, dif_pos i.isLt]
  dsimp only
  obtain ⟨hmin, hmax⟩ := h i
  by_cases hdisabled : channels i = -1
  · rw [LUCIDAC.adcChannelToJson, if_pos hdisabled, hdisabled]
    rfl
  · rw [LUCIDAC.adcChannelToJson, if_neg hdisabled]
    rw [show (Json.integer (channels i)).isNull = false from rfl, if_neg Bool.false_ne_true]
    have hnonneg : 0 ≤ channels i := by omega
    exact Json.asInt8_integer _ hnonneg (by omega : channels i ≤ 127)

theorem readAclSelect_written (aclSelect old : Fin 8 → ACL) :
    readAclSelect (List.ofFn fun i => LUCIDAC.aclToJson (aclSelect i)) old = .ok ⟨⟩ aclSelect := by
  apply eq_ok_of_wp
  simp only [readAclSelect]
  rw [List.take_of_length_le (by rw [List.length_ofFn])]
  refine wp_mono (wp_forM_zipIdx (fun k acl => acl = copied aclSelect old k) ?_ ?_) ?_
    (fun _ _ hf => hf)
  · rw [copied_zero]
  · intro k hk acl hacl
    have hread : aclOfJson (LUCIDAC.aclToJson (aclSelect ⟨k, hk⟩)) = some (aclSelect ⟨k, hk⟩) := by
      cases aclSelect ⟨k, hk⟩ <;> rfl
    dsimp only
    rw [hread]
    dsimp only
    rw [wp_modify, hacl, ← copied_succ]
    funext j
    by_cases hj : j = ⟨k, hk⟩
    · rw [hj, Function.update_self, if_pos rfl]
    · rw [Function.update_of_ne hj, if_neg (fun he => hj (Fin.ext he))]
  · intro _ acl hacl
    rw [copied_all] at hacl
    exact hacl

theorem lucidac_configSelf_restores (lib : JsonLibrary) (hw : Hardware)
    (hok : ∀ n, hw.accepts n = true) (s : LUCIDAC)
    (hs : ∀ i, -1 ≤ s.adcChannels i ∧ s.adcChannels i ≤ 15) (m : Machine) :
    lucidacConfigSelf lib hw s.configSelfToJson m = .ok ⟨⟩
      ⟨{ m.lucidac with adcChannels := s.adcChannels, aclSelect := s.aclSelect }, m.asked + 2⟩ := by
  apply eq_ok_of_wp
  simp only [lucidacConfigSelf, LUCIDAC.configSelfToJson, List.forM_cons, List.forM_nil, wp_bind,
    if_true, String.reduceEq, if_false, wp_configAdcFromJson, hok, wp_require]
  rw [wp_configAclFromJson hw (readAclSelect_written s.aclSelect _), hok]
  simp only [wp_require, if_true, wp_pure]
  rw [readAdcChannels_written lib _ _ hs]

/-- What C block, integrator block, LUCIDAC and front panel write of themselves is read back by
the same kind of entity in any state, and restores exactly the written values. -/
theorem configSelf_roundTrips (lib : JsonLibrary) (hw : Hardware)
    (hok : ∀ n, hw.accepts n = true) :
    (∀ s t : CBlock, (∀ lane, CBlock.minFactor ≤ s.factors lane ∧ s.factors lane ≤ CBlock.maxFactor) →
      CBlock.configSelfFromJson lib.parseNumber s.configSelfToJson t =
        .ok ⟨⟩ { t with factors := s.factors }) ∧
    (∀ s t : MIntBlock, s.InRange →
      MIntBlock.configSelfFromJson s.configSelfToJson t = .ok ⟨⟩ s) ∧
    (∀ (s : LUCIDAC) (m : Machine), (∀ i, -1 ≤ s.adcChannels i ∧ s.adcChannels i ≤ 15) →
      lucidacConfigSelf lib hw s.configSelfToJson m = .ok ⟨⟩
        ⟨{ m.lucidac with adcChannels := s.adcChannels, aclSelect := s.aclSelect }, m.asked + 2⟩) ∧
    (∀ s t : FrontPanel, s.signalGenerator.InRange →
      FrontPanel.configSelfFromJson s.configSelfToJson t = .ok ⟨⟩ s) :=
  ⟨fun s t hs => CBlock.configSelf_restores lib.parseNumber s t hs,
    fun s t hs => MIntBlock.configSelf_restores s t hs,
    fun s m hs => lucidac_configSelf_restores lib hw hok s hs m,
    fun s t hs => FrontPanel.configSelf_restores s t hs⟩

/-- States away from those at power on. -/
theorem configSelf_roundTrips_configured :
    CBlock.configSelfFromJson LUCIDAC.scalarJson.parseNumber
        (CBlock.configSelfToJson ⟨fun i => if i.val = 3 then -1 / 2 else 3 / 4, fun _ => 1⟩)
        ⟨fun _ => 0, fun _ => 33 / 32⟩ =
      .ok ⟨⟩ ⟨fun i => if i.val = 3 then -1 / 2 else 3 / 4, fun _ => 33 / 32⟩ ∧
    MIntBlock.configSelfFromJson
        (MIntBlock.configSelfToJson
          ⟨fun i => if i.val = 2 then -1 / 4 else 0, fun i => if i.val = 5 then 100 else 10000⟩)
        ⟨fun _ => 1, fun _ => 100⟩ =
      .ok ⟨⟩ ⟨fun i => if i.val = 2 then -1 / 4 else 0, fun i => if i.val = 5 then 100 else 10000⟩ ∧
    lucidacConfigSelf LUCIDAC.scalarJson willing
        (LUCIDAC.configSelfToJson { LUCIDAC.bare with
          adcChannels := fun i => if i.val = 6 then -1 else 2 * i.val
          aclSelect := fun i => if i.val = 1 then .external else .internal })
        ⟨{ LUCIDAC.bare with adcChannels := fun i => i.val }, 0⟩ =
      .ok ⟨⟩ ⟨{ LUCIDAC.bare with
        adcChannels := fun i => if i.val = 6 then -1 else 2 * i.val
        aclSelect := fun i => if i.val = 1 then .external else .internal }, 2⟩ ∧
    FrontPanel.configSelfFromJson
      (FrontPanel.configSelfToJson ⟨5, ⟨50, 0, .sine, 1, -1, 1, 0, 1 / 2, 0, false⟩⟩)
      ⟨0, ⟨0, 0, .triangle, 0, 0, 0, 0, 0, 0, true⟩⟩ =
      .ok ⟨⟩ ⟨5, ⟨50, 0, .sine, 1, -1, 1, 0, 1 / 2, 0, false⟩⟩ := by
  have h := configSelf_roundTrips LUCIDAC.scalarJson willing fun _ => rfl
  refine ⟨h.1 _ _ ?_, h.2.1 _ _ ⟨?_, ?_⟩, h.2.2.1 _ _ ?_, h.2.2.2 _ _ ?_⟩
  · decide +kernel
  · decide +kernel
  · decide +kernel
  · decide +kernel
  · constructor <;> decide +kernel

end Platform

end Lucidac
