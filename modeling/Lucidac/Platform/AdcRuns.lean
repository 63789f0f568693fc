import Lucidac.Platform.CalibrationFrame
import Lucidac.Platform.ConfigPaths

/-!
# The ADC channels over whole runs

Two setters, the JSON reader, the calibration of math blocks and the reset all write the same
eight entries.  The calibration keeps them valid whatever it meets on its way.  The setters lack one bound
each, and the reader checks nothing and stores before it writes, so for these three the condition
on a call is exact.
-/

namespace Lucidac.Platform

open Framework

inductive AdcCall where
  | setAdcChannels (channels : Fin 8 → Int)
  | setAdcChannel (idx : Nat) (adcChannel : Int)
  | configAdc (cfg : Json)
  | calibrateMBlocks
  | reset (action : ResetAction)

namespace AdcCall

def run (lib : JsonLibrary) (hw : Hardware) : AdcCall → EStateM Stop Machine PUnit
  | .setAdcChannels channels => attempt (fun m => ((m.lucidac.setAdcChannels channels).1,
      { m with lucidac := (m.lucidac.setAdcChannels channels).2 })) returnFalse
  | .setAdcChannel idx adcChannel => Platform.setAdcChannel idx adcChannel
  | .configAdc cfg => lucidacConfigSelf lib hw [("adc_channels", cfg)]
  | .calibrateMBlocks => Platform.calibrateMBlocks hw
  | .reset action => modify fun m => { m with lucidac := m.lucidac.reset action }

def after (lib : JsonLibrary) (hw : Hardware) (call : AdcCall) (m : Machine) : Machine :=
  finalState (call.run lib hw) m

/-- The calls that ask for certain channels and can be refused. -/
def isRequest : AdcCall → Bool
  | .setAdcChannels _ | .setAdcChannel _ _ | .configAdc _ => true
  | .calibrateMBlocks | .reset _ => false

def Rejected (lib : JsonLibrary) (hw : Hardware) (call : AdcCall) (m : Machine) : Prop :=
  call.isRequest = true ∧ ∃ e t, call.run lib hw m = .error e t

end AdcCall

/-! ### What a configuration requests -/

/-- The channel that the array gives for an entry, if it reaches so far. -/
def requestedChannel (lib : JsonLibrary) (elements : List Json) (i : Fin 8) : Option Int :=
  (elements[i.val]?).map fun element =>
    if element.isNull then -1 else element.asInt8 lib.parseNumber

/-- The request disables or names lanes, and no lane is read twice, neither inside the request nor
by an entry it does not reach. -/
structure ValidRequest (requested : Fin 8 → Option Int) (old : Fin 8 → Int) : Prop where
  range : ∀ i channel, requested i = some channel → channel = -1 ∨ (0 ≤ channel ∧ channel ≤ 15)
  fresh : ∀ i j channel, i ≠ j → requested i = some channel → 0 ≤ channel →
    requested j ≠ some channel ∧ (requested j = none → old j ≠ channel)

theorem readAdcChannels_eq (lib : JsonLibrary) (elements : List Json) (old : Fin 8 → Int) :
    readAdcChannels lib elements old = fun i => (requestedChannel lib elements i).getD (old i) := by
  funext i
  simp only [readAdcChannels, requestedChannel]
  cases elements[i.val]? <;> rfl

theorem adcValid_getD_iff {requested : Fin 8 → Option Int} {old : Fin 8 → Int} (hold : AdcValid old) :
    AdcValid (fun i => (requested i).getD (old i)) ↔ ValidRequest requested old := by
  constructor
  · intro h
    constructor
    · intro i channel hi
      have hrange := h.range i
      rwa [hi, Option.getD_some] at hrange
    · intro i j channel hne hi hnonneg
      have hdistinct := h.distinct i j
      rw [hi, Option.getD_some] at hdistinct
      constructor
      · intro hj
        rw [hj, Option.getD_some] at hdistinct
        exact hne (hdistinct hnonneg rfl)
      · intro hj heq
        rw [hj, Option.getD_none] at hdistinct
        exact hne (hdistinct hnonneg heq.symm)
  · intro h
    constructor
    · intro i
      cases hi : requested i with
      | none => exact hold.range i
      | some channel => exact h.range i channel hi
    · intro i j hnonneg heq
      by_contra hne
      cases hi : requested i with
      | none =>
        rw [hi, Option.getD_none] at hnonneg heq
        cases hj : requested j with
        | none =>
          rw [hj, Option.getD_none] at heq
          exact hne (hold.distinct i j hnonneg heq)
        | some channel =>
          rw [hj, Option.getD_some] at heq
          exact (h.fresh j i channel (Ne.symm hne) hj (heq ▸ hnonneg)).2 hi heq
      | some channel =>
        rw [hi, Option.getD_some] at hnonneg heq
        have hfresh := h.fresh i j channel hne hi hnonneg
        cases hj : requested j with
        | none =>
          rw [hj, Option.getD_none] at heq
          exact hfresh.2 hj heq.symm
        | some other =>
          rw [hj, Option.getD_some] at heq
          exact hfresh.1 (hj.trans (congrArg some heq.symm))

/-- A request changes nothing if it asks for what is there. -/
theorem getD_eq_iff {requested : Fin 8 → Option Int} {old : Fin 8 → Int} :
    (fun i => (requested i).getD (old i)) = old ↔
      ∀ i channel, requested i = some channel → channel = old i := by
  rw [funext_iff]
  apply forall_congr'
  intro i
  cases requested i with
  | none =>
    constructor
    · intro _ channel h
      cases h
    · intro _
      rfl
  | some channel =>
    constructor
    · intro h other hother
      cases hother
      exact h
    · intro h
      exact h channel rfl

/-! ### One call -/

namespace AdcCall

/-- The condition on a call and the state it finds. -/
def Meets (lib : JsonLibrary) (hw : Hardware) (call : AdcCall) (m : Machine) : Prop :=
  match call with
  | .setAdcChannels channels => LUCIDAC.RefusedChannels channels ∨ ∀ i, -1 ≤ channels i
  | .setAdcChannel idx adcChannel => 8 ≤ idx ∨ adcChannel ≤ 15
  | .configAdc cfg => ∀ elements, cfg = .array elements →
      ValidRequest (requestedChannel lib elements) m.lucidac.adcChannels ∧
      (hw.accepts m.asked = false → ∀ i channel, requestedChannel lib elements i = some channel →
        channel = m.lucidac.adcChannels i)
  | .calibrateMBlocks | .reset _ => True

structure Keeps (lib : JsonLibrary) (hw : Hardware) (call : AdcCall) (m : Machine) : Prop where
  valid : AdcValid (call.after lib hw m).lucidac.adcChannels
  unchanged : call.Rejected lib hw m →
    (call.after lib hw m).lucidac.adcChannels = m.lucidac.adcChannels

variable {lib : JsonLibrary} {hw : Hardware} {m : Machine}

theorem setAdcChannels_keeps_iff (hm : AdcValid m.lucidac.adcChannels) (channels : Fin 8 → Int) :
    Keeps lib hw (.setAdcChannels channels) m ↔
      LUCIDAC.RefusedChannels channels ∨ ∀ i, -1 ≤ channels i := by
  have hafter : (after lib hw (.setAdcChannels channels) m).lucidac =
      (m.lucidac.setAdcChannels channels).2 := congrArg Machine.lucidac (finalState_attempt ..)
  by_cases hrefused : LUCIDAC.RefusedChannels channels
  · rw [m.lucidac.setAdcChannels_of_refused hrefused] at hafter
    constructor
    · exact fun _ => Or.inl hrefused
    · intro _
      constructor
      · rw [hafter]
        exact hm
      · intro _
        rw [hafter]
  · have heq := m.lucidac.setAdcChannels_of_not_refused hrefused
    rw [heq] at hafter
    rw [LUCIDAC.RefusedChannels, not_or] at hrefused
    constructor
    · intro hkeeps
      have hvalid := hkeeps.valid
      rw [hafter] at hvalid
      apply Or.inr
      intro i
      have hrange : channels i = -1 ∨ (0 ≤ channels i ∧ channels i ≤ 15) := hvalid.range i
      omega
    · intro hmeets
      have hmin := hmeets.resolve_left fun h => not_or.mpr hrefused h
      constructor
      · rw [hafter]
        constructor
        · intro i
          have hmax : ¬ 15 < channels i := fun h => hrefused.1 ⟨i, h⟩
          have hlow := hmin i
          change channels i = -1 ∨ (0 ≤ channels i ∧ channels i ≤ 15)
          omega
        · intro i j hnonneg heq
          by_contra hne
          exact hrefused.2 ⟨i, j, hnonneg, hne, heq⟩
      · intro hrejected
        obtain ⟨-, e, t, herror⟩ := hrejected
        have hfalse := attempt_error herror
        rw [heq] at hfalse
        cases hfalse

theorem setAdcChannel_keeps_iff (hm : AdcValid m.lucidac.adcChannels) (idx : Nat) (adcChannel : Int) :
    Keeps lib hw (.setAdcChannel idx adcChannel) m ↔ 8 ≤ idx ∨ adcChannel ≤ 15 := by
  have hafter : (after lib hw (.setAdcChannel idx adcChannel) m).lucidac =
      (m.lucidac.setAdcChannel idx adcChannel).2 := congrArg Machine.lucidac (finalState_attempt ..)
  constructor
  · intro hkeeps
    by_contra hnot
    rw [not_or, Nat.not_le, not_le] at hnot
    -- no valid entry can be in the way of a lane beyond the last one
    have hfree : ∀ other, (⟨idx, hnot.1⟩ : Fin 8) ≠ other →
        m.lucidac.adcChannels other ≠ adcChannel := by
      intro other _ heq
      have hrange := hm.range other
      omega
    have hset := m.lucidac.setAdcChannel_of_free ⟨idx, hnot.1⟩ (by omega : 0 ≤ adcChannel) hfree
    rw [hset] at hafter
    have hvalid := hkeeps.valid.range ⟨idx, hnot.1⟩
    have hentry : (after lib hw (.setAdcChannel idx adcChannel) m).lucidac.adcChannels ⟨idx, hnot.1⟩ =
        adcChannel := by
      rw [hafter]
      exact Function.update_self ..
    rw [hentry] at hvalid
    omega
  · intro hmeets
    constructor
    · rw [hafter]
      obtain hbeyond | hmax := hmeets
      · rw [m.lucidac.setAdcChannel_of_beyond hbeyond]
        exact hm
      · exact hm.setAdcChannel idx hmax
    · intro hrejected
      obtain ⟨-, e, t, herror⟩ := hrejected
      have hfalse : (m.lucidac.setAdcChannel idx adcChannel).1 = false := attempt_error herror
      rw [hafter]
      obtain heq | ⟨i, heq⟩ | ⟨i, -, -, -, heq⟩ := m.lucidac.setAdcChannel_cases idx adcChannel
      · rw [heq]
      · rw [heq] at hfalse
        cases hfalse
      · rw [heq] at hfalse
        cases hfalse

/-- The reader stores what the array gives before it asks the hardware. -/
theorem configAdc_run_array (elements : List Json) : run lib hw (.configAdc (.array elements)) m =
    let stored : Machine := ⟨{ m.lucidac with
      adcChannels := readAdcChannels lib elements m.lucidac.adcChannels }, m.asked + 1⟩
    if hw.accepts m.asked then .ok ⟨⟩ stored
    else .error (.status ⟨530, "Could not configure ADCs from configuration."⟩) stored := by
  simp only [run, lucidacConfigSelf]
  rw [forM_singleton, if_pos rfl]
  change (require (hw.accepts m.asked) _ : EStateM Stop Machine PUnit) _ = _
  cases hw.accepts m.asked <;> rfl

variable (lib hw m) in
theorem configAdc_array_after (elements : List Json) :
    (after lib hw (.configAdc (.array elements)) m).lucidac.adcChannels =
      fun i => (requestedChannel lib elements i).getD (m.lucidac.adcChannels i) := by
  simp only [after, finalState]
  rw [configAdc_run_array, ← readAdcChannels_eq]
  cases hw.accepts m.asked <;> rfl

theorem configAdc_array_rejected_iff (elements : List Json) :
    Rejected lib hw (.configAdc (.array elements)) m ↔ hw.accepts m.asked = false := by
  simp only [Rejected]
  rw [configAdc_run_array]
  cases hw.accepts m.asked with
  | false => exact ⟨fun _ => rfl, fun _ => ⟨rfl, _, _, rfl⟩⟩
  | true =>
    constructor
    · intro h
      obtain ⟨-, e, t, herror⟩ := h
      cases herror
    · intro h
      cases h

variable (lib hw m) in
theorem configAdc_other_after {cfg : Json} (hcfg : ∀ elements, cfg ≠ .array elements) :
    (after lib hw (.configAdc cfg) m).lucidac = m.lucidac := by
  cases cfg with
  | array elements => exact absurd rfl (hcfg elements)
  | _ => rfl

theorem configAdc_keeps_iff (hm : AdcValid m.lucidac.adcChannels) (cfg : Json) :
    Keeps lib hw (.configAdc cfg) m ↔ Meets lib hw (.configAdc cfg) m := by
  by_cases harray : ∃ elements, cfg = .array elements
  · obtain ⟨elements, rfl⟩ := harray
    have hafter := configAdc_array_after lib hw m elements
    constructor
    · intro hkeeps elements' helements
      cases helements
      refine ⟨(adcValid_getD_iff hm).mp (hafter ▸ hkeeps.valid), fun haccepts => ?_⟩
      rw [← getD_eq_iff, ← hafter]
      exact hkeeps.unchanged ((configAdc_array_rejected_iff elements).mpr haccepts)
    · intro hmeets
      obtain ⟨hvalid, hkept⟩ := hmeets elements rfl
      constructor
      · rw [hafter]
        exact (adcValid_getD_iff hm).mpr hvalid
      · intro hrefused
        rw [hafter, getD_eq_iff]
        exact hkept ((configAdc_array_rejected_iff elements).mp hrefused)
  · have hcfg : ∀ elements, cfg ≠ .array elements := fun elements h => harray ⟨elements, h⟩
    have hafter := configAdc_other_after lib hw m hcfg
    constructor
    · exact fun _ elements h => absurd h (hcfg elements)
    · intro _
      constructor
      · rw [hafter]
        exact hm
      · intro _
        rw [hafter]

theorem adcValid_channelInvariant : ChannelInvariant AdcValid where
  cleared := ⟨fun _ => Or.inl rfl, fun _ _ h => absurd h (by decide)⟩
  set _ idx _ hmax h := h.setAdcChannel idx hmax

theorem calibrateMBlocks_keeps (hm : AdcValid m.lucidac.adcChannels) :
    Keeps lib hw .calibrateMBlocks m := by
  constructor
  · have hguarded : Guarded (Holds m.lucidac.layout AdcValid) (Blames True)
        (Platform.calibrateMBlocks hw) := calibrateMBlocks_guarded adcValid_channelInvariant
      (fun _ _ _ _ => trivial) (fun _ => trivial) hw
    exact (hguarded.keeps m ⟨rfl, hm⟩).2
  · intro hrejected
    exact absurd hrejected.1 Bool.false_ne_true

theorem reset_keeps (action : ResetAction) : Keeps lib hw (.reset action) m := by
  constructor
  · have hafter : (after lib hw (.reset action) m).lucidac.adcChannels = fun _ => -1 :=
      m.lucidac.adcChannels_reset action
    rw [hafter]
    exact adcValid_channelInvariant.cleared
  · intro hrejected
    exact absurd hrejected.1 Bool.false_ne_true

/-- From a valid state a call keeps what it has to keep exactly under its condition. -/
theorem keeps_iff (hm : AdcValid m.lucidac.adcChannels) (call : AdcCall) :
    Keeps lib hw call m ↔ Meets lib hw call m := by
  cases call with
  | setAdcChannels channels => exact setAdcChannels_keeps_iff hm channels
  | setAdcChannel idx adcChannel => exact setAdcChannel_keeps_iff hm idx adcChannel
  | configAdc cfg => exact configAdc_keeps_iff hm cfg
  | calibrateMBlocks => exact ⟨fun _ => trivial, fun _ => calibrateMBlocks_keeps hm⟩
  | reset action => exact ⟨fun _ => trivial, fun _ => reset_keeps action⟩

end AdcCall

/-! ### Runs -/

/-- Every state of the run is valid, and no rejected call changes the entries. -/
def AdcRunValid (lib : JsonLibrary) (hw : Hardware) : List AdcCall → Machine → Prop
  | [], m => AdcValid m.lucidac.adcChannels
  | call :: calls, m => AdcValid m.lucidac.adcChannels ∧
      (call.Rejected lib hw m →
        (call.after lib hw m).lucidac.adcChannels = m.lucidac.adcChannels) ∧
      AdcRunValid lib hw calls (call.after lib hw m)

/-- Every call of the run meets its condition in the state it finds. -/
def AdcRunMeets (lib : JsonLibrary) (hw : Hardware) : List AdcCall → Machine → Prop
  | [], _ => True
  | call :: calls, m => call.Meets lib hw m ∧ AdcRunMeets lib hw calls (call.after lib hw m)

theorem AdcRunValid.start {lib : JsonLibrary} {hw : Hardware} {calls : List AdcCall} {m : Machine}
    (h : AdcRunValid lib hw calls m) : AdcValid m.lucidac.adcChannels := by
  cases calls with
  | nil => exact h
  | cons call calls => exact h.1

theorem adcRunValid_of_valid_iff (lib : JsonLibrary) (hw : Hardware) (calls : List AdcCall)
    {m : Machine} (hm : AdcValid m.lucidac.adcChannels) :
    AdcRunValid lib hw calls m ↔ AdcRunMeets lib hw calls m := by
  induction calls generalizing m with
  | nil => exact ⟨fun _ => trivial, fun _ => hm⟩
  | cons call calls ih =>
    constructor
    · intro h
      obtain ⟨-, hunchanged, hrest⟩ := h
      have hkeeps : call.Keeps lib hw m := ⟨hrest.start, hunchanged⟩
      exact ⟨(AdcCall.keeps_iff hm call).mp hkeeps, (ih hrest.start).mp hrest⟩
    · intro h
      have hkeeps := (AdcCall.keeps_iff hm call).mpr h.1
      exact ⟨hm, hkeeps.unchanged, (ih hkeeps.valid).mpr h.2⟩

/-- From the initialised channels on, the entries are valid in every state and kept by every
rejected call exactly in the runs whose calls all meet their condition. -/
theorem adcRun_valid_iff (lib : JsonLibrary) (hw : Hardware) {m : Machine}
    (hinit : ∀ i, m.lucidac.adcChannels i = -1) (calls : List AdcCall) :
    AdcRunValid lib hw calls m ↔ AdcRunMeets lib hw calls m := by
  apply adcRunValid_of_valid_iff
  rw [funext hinit]
  exact AdcCall.adcValid_channelInvariant.cleared

theorem adcRun_valid_seven_fifteen : AdcRunValid LUCIDAC.scalarJson willing
    [.setAdcChannel 0 7, .configAdc (.array [.integer 15, .null]), .calibrateMBlocks]
    ⟨LUCIDAC.bare, 0⟩ := by
  refine (adcRun_valid_iff _ _ (fun _ => rfl) _).mpr ⟨Or.inr (by decide), ?_, trivial, trivial⟩
  intro elements helements
  cases helements
  have hold : AdcValid (AdcCall.after LUCIDAC.scalarJson willing (.setAdcChannel 0 7)
      ⟨LUCIDAC.bare, 0⟩).lucidac.adcChannels := by decide +kernel
  exact ⟨(adcValid_getD_iff hold).mp (by decide +kernel), fun h => absurd h (by decide)⟩

/-- A lane beyond the last one, a value below -1 and a lane read twice are all stored, and so is a
configuration that is rejected because the hardware refuses it. -/
theorem adcRun_invalid :
    (¬ AdcRunValid LUCIDAC.scalarJson willing [.setAdcChannel 0 16] ⟨LUCIDAC.bare, 0⟩) ∧
    (¬ AdcRunValid LUCIDAC.scalarJson willing
      [.setAdcChannels fun i => if i = 0 then -2 else -1] ⟨LUCIDAC.bare, 0⟩) ∧
    (¬ AdcRunValid LUCIDAC.scalarJson willing [.configAdc (.array [.integer 3, .integer 3])]
      ⟨LUCIDAC.bare, 0⟩) ∧
    ¬ AdcRunValid LUCIDAC.scalarJson { willing with accepts := fun _ => false }
      [.configAdc (.array [.integer 3])] ⟨LUCIDAC.bare, 0⟩ := by
  refine ⟨fun h => ?_, fun h => ?_, fun h => ?_, fun h => ?_⟩
  · exact absurd h.2.2.start (by decide +kernel)
  · exact absurd h.2.2.start (by decide +kernel)
  · exact absurd h.2.2.start (by decide +kernel)
  · have hunchanged := congrFun (h.2.1 ⟨rfl, _, _, rfl⟩) 0
    exact absurd hunchanged (by decide +kernel)

end Lucidac.Platform
