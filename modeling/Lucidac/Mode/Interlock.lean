import Lucidac.Mode.ManualControl

/-!
# IC and OP are never active together

No order of the writes of the firmware, and no tick between two of them, makes both signals active.
The plain pins are switched off before they are switched on; the module shows one phase at a time.
-/

namespace Lucidac.FlexIOControl

open Framework (Running Turn Through Rely)
open Counters (Mode)

section Invariants

/-- Each state shows what its phase drives, unless it was not set up yet; all of them are set up
while the module runs. -/
structure Machine.Safe (m : Machine) : Prop where
  words : ∀ p : Phase, m.control.shiftbuf p.state = 0 ∨
    shiftbufOutputs (m.control.shiftbuf p.state) = p.driven
  state : ∃ p : Phase, m.shiftstate = p.state
  enabled : m.control.isEnabled = true → ∃ policy, Programmed policy m.control

def Gpio.driving (g : Gpio) (c : FlexIOControl) (pin : ModePin) : Prop :=
  pin.number ∉ c.flexPins ∧ g.output pin = true ∧ g.high pin = false

/-- A plain output that is low is alone, and the module does not have the other pin. -/
def Gpio.Exclusive (g : Gpio) (c : FlexIOControl) : Prop :=
  ∀ pin : ModePin, g.driving c pin → pin.other.number ∉ c.flexPins ∧ ¬ g.driving c pin.other

/-- Both pins belong to the module or none does. -/
def Paired (c : FlexIOControl) : Prop := pinModeIc ∈ c.flexPins ↔ pinModeOp ∈ c.flexPins

/-- Properties of the board that a tick does not change. -/
def Board.Holds (P : Gpio → FlexIOControl → Prop) (b : Board) : Prop :=
  b.machine.Safe ∧ P b.gpio b.machine.control

def Board.Related (b b' : Board) : Prop :=
  b'.gpio = b.gpio ∧ b'.machine.control = b.machine.control ∧ (b.machine.Safe → b'.machine.Safe)

/-- Between two calls. -/
def AtRest (g : Gpio) (c : FlexIOControl) : Prop := g.Exclusive c ∧ Paired c

theorem Board.Holds.related {P : Gpio → FlexIOControl → Prop} {b b' : Board}
    (h : b.Related b') (hb : b.Holds P) : b'.Holds P := by
  obtain ⟨hgpio, hcontrol, hsafe⟩ := h
  refine ⟨hsafe hb.1, ?_⟩
  rw [hgpio, hcontrol]
  exact hb.2

theorem Board.Holds.mono {P Q : Gpio → FlexIOControl → Prop} {b : Board} (hb : b.Holds P)
    (h : ∀ g c, P g c → Q g c) : b.Holds Q :=
  ⟨hb.1, h _ _ hb.2⟩

theorem AtRest.congr {g : Gpio} {c c' : FlexIOControl} (h : AtRest g c)
    (hpins : c'.flexPins = c.flexPins) : AtRest g c' := by
  unfold AtRest Gpio.Exclusive Gpio.driving Paired at *
  rw [hpins]
  exact h

theorem atRest_of_mem {g : Gpio} {c : FlexIOControl}
    (h : ∀ pin : ModePin, pin.number ∈ c.flexPins) : AtRest g c :=
  ⟨fun pin hdriving => absurd (h pin) hdriving.1, iff_of_true (h .ic) (h .op)⟩

theorem rely_related : Rely Board.Related (Board.Holds Gpio.Exclusive) (Board.Holds AtRest) where
  refl _ := ⟨rfl, rfl, id⟩
  trans h h' := ⟨h'.1.trans h.1, h'.2.1.trans h.2.1, fun hs => h'.2.2 (h.2.2 hs)⟩
  invariant h hb := hb.related h
  rest h hb := hb.related h
  rest_invariant hb := hb.mono fun _ _ h => h.1

theorem Machine.Safe.tick {m : Machine} (h : m.Safe) (t : Tick) : (m.tick t).Safe := by
  obtain ⟨phase, hstate⟩ := h.state
  refine ⟨(m.control_tick t).symm ▸ h.words, ?_, (m.control_tick t).symm ▸ h.enabled⟩
  by_cases henabled : m.control.isEnabled = true
  · obtain ⟨policy, hprogrammed⟩ := h.enabled henabled
    exact ⟨_, (Machine.InPhase.tick ⟨hprogrammed, hstate⟩ henabled t).state⟩
  · rw [Machine.tick, if_neg fun hboth => henabled hboth.1]
    exact ⟨phase, hstate⟩

theorem Board.related_tick (t : Tick) (b : Board) : b.Related (b.tick t) :=
  ⟨rfl, b.machine.control_tick t, fun h => h.tick t⟩

/-- A stopped module has no ticks, and so none can come between the writes of `init`. -/
theorem Board.tick_of_stopped {b : Board} (h : b.machine.control.isEnabled = false) (t : Tick) :
    b.tick t = b := by
  have hmachine : b.machine.tick t = b.machine := by
    rw [Machine.tick, if_neg fun hboth => Bool.false_ne_true (h.symm.trans hboth.1)]
  rw [Board.tick, hmachine]

theorem Board.Holds.not_both_active {b : Board} (h : b.Holds Gpio.Exclusive) :
    ¬ (b.active .ic = true ∧ b.active .op = true) := by
  rintro ⟨hic, hop⟩
  obtain ⟨hsafe, hexclusive⟩ := h
  have hplain : ∀ pin : ModePin, pin.number ∉ b.machine.control.flexPins →
      b.active pin = true → b.gpio.driving b.machine.control pin := by
    intro pin hpin hactive
    rw [Board.active, if_neg hpin, Bool.and_eq_true, Bool.not_eq_true'] at hactive
    exact ⟨hpin, hactive⟩
  by_cases hicFlex : ModePin.ic.number ∈ b.machine.control.flexPins
  · by_cases hopFlex : ModePin.op.number ∈ b.machine.control.flexPins
    · rw [Board.active, if_pos hicFlex, Bool.and_eq_true, decide_eq_true_iff] at hic
      rw [Board.active, if_pos hopFlex, Bool.and_eq_true] at hop
      obtain ⟨phase, hphase⟩ := hsafe.state
      have hdriven := (hsafe.words phase).resolve_left (hphase ▸ hic.1)
      have houtputs : b.machine.outputs = phase.driven := by
        rw [Machine.outputs, hphase, hdriven]
      rw [houtputs] at hic hop
      have hlow := hic.2
      have hlow' := hop.2
      revert hlow hlow'
      cases phase <;> decide
    · exact (hexclusive .op (hplain .op hopFlex hop)).1 hicFlex
  · have hdriving := hexclusive .ic (hplain .ic hicFlex hic)
    exact hdriving.2 (hplain .op hdriving.1 hop)

end Invariants

section Initialisation

variable {flexio : FlexIOHandler} {c c' c'' : FlexIOControl}

/-- Words of states change to what their phases drive, and nothing else that is watched. -/
structure Progress (c c' : FlexIOControl) : Prop where
  words : ∀ p : Phase, c'.shiftbuf p.state = c.shiftbuf p.state ∨
    shiftbufOutputs (c'.shiftbuf p.state) = p.driven
  flexPins : c'.flexPins = c.flexPins
  isEnabled : c'.isEnabled = c.isEnabled

theorem Progress.refl (c : FlexIOControl) : Progress c c := ⟨fun _ => .inl rfl, rfl, rfl⟩

theorem Progress.trans (h : Progress c c') (h' : Progress c' c'') : Progress c c'' where
  words p := by
    obtain hsame | hdriven := h'.words p
    · rw [hsame]
      exact h.words p
    · exact .inr hdriven
  flexPins := h'.flexPins.trans h.flexPins
  isEnabled := h'.isEnabled.trans h.isEnabled

theorem progress_timcmp (timcmp : Fin 8 → BitVec 32) : Progress c { c with timcmp := timcmp } :=
  ⟨fun _ => .inl rfl, rfl, rfl⟩

theorem progress_setShiftbuf (phase : Phase) (next : Fin 8 → Fin 8) :
    Progress c (c.setShiftbuf phase.state (stateShiftbuf phase.driven next)) where
  words p := by
    by_cases h : p = phase
    · rw [h, shiftbuf_setShiftbuf_self]
      exact .inr (shiftbufOutputs_stateShiftbuf _ _)
    · exact .inl (shiftbuf_setShiftbuf_of_ne (Phase.state_injective.ne h) _)
  flexPins := rfl
  isEnabled := rfl

theorem progress_syncMatch (x : BitVec 32) : Progress c (c.setShiftbuf zSyncMatch x) where
  words p := .inl (shiftbuf_setShiftbuf_of_ne (by cases p <;> decide) x)
  flexPins := rfl
  isEnabled := rfl

theorem progress_configureIdle (sync : Sync) : Progress c (c.configureIdle sync) := by
  have hlast : ∀ d : FlexIOControl,
      Progress d (d.setShiftbuf sIdle (stateShiftbuf 0xff fun _ => sIc)) := fun d =>
    progress_setShiftbuf .idle _
  cases sync with
  | none => exact (progress_setShiftbuf .idle _).trans (hlast _)
  | master => exact hlast c
  | slave => exact hlast c

theorem progress_configureStates (onOverload : OnOverload) (onExtHalt : OnExtHalt) :
    Progress c (c.configureStates onOverload onExtHalt) :=
  ((progress_setShiftbuf .op _).trans (progress_setShiftbuf .done _)).trans
    ((progress_setShiftbuf .overload _).trans (progress_setShiftbuf .exthalt _))

theorem setIOPinsToFlexMode_eq {pins : List (BitVec 8)}
    (h : ∀ pin ∈ pins, flexio.mapIOPinToFlexPin pin ≠ 0xff) :
    c.setIOPinsToFlexMode flexio pins = (true, { c with flexPins := c.flexPins ++ pins }) := by
  induction pins generalizing c with
  | nil => rw [setIOPinsToFlexMode, List.append_nil]
  | cons pin pins ih =>
    rw [setIOPinsToFlexMode, if_neg (h pin List.mem_cons_self),
      ih fun pin hpin => h pin (List.mem_cons_of_mem _ hpin), List.append_assoc]
    rfl

/-- What `init` may leave, for each answer. -/
def InitLeaves (c : FlexIOControl) : Bool → FlexIOControl → Prop
  | false, c' => Progress c c'
  | true, c' => ∃ d, Progress c d ∧ c'.shiftbuf = d.shiftbuf ∧
    c'.flexPins = c.flexPins ++ relevantPins

theorem InitLeaves.of_progress {success : Bool} (h : Progress c c')
    (h' : InitLeaves c' success c'') : InitLeaves c success c'' := by
  cases success with
  | false => exact h.trans h'
  | true =>
    obtain ⟨d, hd, hshiftbuf, hpins⟩ := h'
    exact ⟨d, h.trans hd, hshiftbuf, by rw [hpins, h.flexPins]⟩

theorem initLeaves_configureOp (hpins : Mapped flexio) {fuel : Nat} {clkFreqMHz : BitVec 32}
    {opTimeNs : BitVec 64} {onOverload : OnOverload} {onExtHalt : OnExtHalt} {success : Bool}
    (h : c.configureOp flexio fuel clkFreqMHz opTimeNs onOverload onExtHalt = some (success, c')) :
    InitLeaves c success c' := by
  simp only [configureOp] at h
  split at h
  · cases h
    exact Progress.refl c
  · rw [Option.bind_eq_bind, Option.bind_eq_some_iff] at h
    obtain ⟨⟨fits, c₁⟩, htimers, h⟩ := h
    obtain ⟨timcmp, rfl⟩ := eq_of_configureTimers htimers
    refine InitLeaves.of_progress (progress_timcmp timcmp) ?_
    split at h
    · cases h
      exact Progress.refl _
    · rw [setIOPinsToFlexMode_eq hpins] at h
      cases h
      exact ⟨_, progress_configureStates onOverload onExtHalt, rfl, rfl⟩

theorem initLeaves_init (hpins : Mapped flexio) {fuel : Nat} {icTimeNs opTimeNs : BitVec 64}
    {onOverload : OnOverload} {onExtHalt : OnExtHalt} {sync : Sync} {success : Bool}
    (h : init flexio fuel icTimeNs opTimeNs onOverload onExtHalt sync c = some (success, c')) :
    InitLeaves c success c' := by
  have hclk : flexio.mapIOPinToFlexPin pinSyncClk ≠ 0xff := hpins _ (by decide)
  have hid : flexio.mapIOPinToFlexPin pinSyncId ≠ 0xff := hpins _ (by decide)
  simp only [init] at h
  rw [if_neg hclk, if_neg hid] at h
  have hbefore : Progress c (((((c.setTimcmp tSyncClk 0xff00).setShiftbuf zSyncMatch
      0x550f0000).setTimcmp tSyncTrigger 0x100).configureIdle sync).setTimcmp tStateCheck 1) :=
    ((progress_timcmp _).trans (progress_syncMatch 0x550f0000)).trans
      (((progress_timcmp _).trans (progress_configureIdle sync)).trans (progress_timcmp _))
  refine InitLeaves.of_progress hbefore ?_
  split at h
  · cases h
    exact Progress.refl _
  · rw [Option.bind_eq_bind, Option.bind_eq_some_iff] at h
    obtain ⟨⟨fits, c₁⟩, htimers, h⟩ := h
    obtain ⟨timcmp, rfl⟩ := eq_of_configureTimers htimers
    refine InitLeaves.of_progress (progress_timcmp timcmp) ?_
    split at h
    · cases h
      exact Progress.refl _
    · exact InitLeaves.of_progress (progress_setShiftbuf .ic _) (initLeaves_configureOp hpins h)

end Initialisation

section Writes

variable {flexio : FlexIOHandler} {fuel : Nat} {b : Board}

/-- The writes that leave the plain pins alone. -/
def Write.Internal : Write → Prop
  | .shiftstate _ | .disable | .mode _ _ => True
  | .level _ _ | .direction _ _ | .softwareReset | .init _ _ _ _ _ => False

theorem Board.Holds.perform_internal {w : Write} (hw : w.Internal) (hb : b.Holds AtRest) :
    (Board.perform flexio fuel w b).Holds AtRest := by
  obtain ⟨hsafe, hrest⟩ := hb
  cases w with
  | shiftstate phase => exact ⟨⟨hsafe.words, ⟨phase, rfl⟩, hsafe.enabled⟩, hrest⟩
  | disable => exact ⟨⟨hsafe.words, hsafe.state, fun h => absurd h Bool.false_ne_true⟩, hrest⟩
  | mode micros mode => exact ⟨⟨hsafe.words, hsafe.state, hsafe.enabled⟩, hrest⟩
  | level pin high => exact hw.elim
  | direction pin output => exact hw.elim
  | softwareReset => exact hw.elim
  | init icTimeNs opTimeNs onOverload onExtHalt sync => exact hw.elim

/-- Stopped, with nothing set up. -/
theorem Board.Holds.perform_softwareReset
    (hb : b.Holds fun g c => AtRest g c ∧ c.isEnabled = false) :
    (Board.perform flexio fuel .softwareReset b).Holds
      fun g c => AtRest g c ∧ c.isEnabled = false := by
  obtain ⟨-, hrest, hdisabled⟩ := hb
  refine ⟨⟨fun _ => .inl rfl, ⟨.idle, rfl⟩, ?_⟩, hrest, hdisabled⟩
  intro henabled
  exact absurd (hdisabled.symm.trans henabled) Bool.false_ne_true

theorem mem_relevantPins (pin : ModePin) : pin.number ∈ relevantPins := by
  cases pin <;> decide

theorem Board.Holds.perform_init (hpins : Mapped flexio) (icTimeNs opTimeNs : BitVec 64)
    (onOverload : OnOverload) (onExtHalt : OnExtHalt) (sync : Sync)
    (hb : b.Holds fun g c => AtRest g c ∧ c.isEnabled = false) :
    (Board.perform flexio fuel (.init icTimeNs opTimeNs onOverload onExtHalt sync) b).Holds
      AtRest := by
  obtain ⟨hsafe, ⟨hexclusive, hpaired⟩, hdisabled⟩ := hb
  have hwords : ∀ {c : FlexIOControl}, Progress b.machine.control c → ∀ p : Phase,
      c.shiftbuf p.state = 0 ∨ shiftbufOutputs (c.shiftbuf p.state) = p.driven := by
    intro c hc p
    obtain hsame | hdriven := hc.words p
    · rw [hsame]
      exact hsafe.words p
    · exact .inr hdriven
  rw [Board.perform]
  split
  · next success control heq =>
    have hleaves := initLeaves_init hpins heq
    cases success with
    | false =>
      refine ⟨⟨hwords hleaves, hsafe.state, ?_⟩, ?_⟩
      · intro henabled
        rw [Board.mapControl, hleaves.isEnabled, hdisabled] at henabled
        cases henabled
      · exact AtRest.congr ⟨hexclusive, hpaired⟩ hleaves.flexPins
    | true =>
      obtain ⟨d, hd, hshiftbuf, hflex⟩ := hleaves
      have hprogrammed : Programmed ⟨onOverload, onExtHalt⟩ control :=
        (programmed_of_init ⟨onOverload, onExtHalt⟩ heq).1
      refine ⟨⟨?_, hsafe.state, fun _ => ⟨_, hprogrammed⟩⟩, atRest_of_mem ?_⟩
      · intro p
        rw [Board.mapControl, hshiftbuf]
        exact hwords hd p
      · intro pin
        rw [Board.mapControl, hflex, List.mem_append]
        exact .inr (mem_relevantPins pin)
  · exact ⟨hsafe, hexclusive, hpaired⟩

@[simp] theorem not_mem_direction (c : FlexIOControl) (pin : ModePin) :
    pin.number ∉ c.flexPins.filter (· ≠ pin.number) := by
  simp

theorem Gpio.not_driving_of_high {g : Gpio} {c : FlexIOControl} {pin : ModePin}
    (h : g.high pin = true) : ¬ g.driving c pin :=
  fun hdriving => absurd (h.symm.trans hdriving.2.2) (by decide)

theorem ModePin.eq_other {pin q : ModePin} (h : q ≠ pin) : q = pin.other := by
  cases pin <;> cases q
  · exact absurd rfl h
  · rfl
  · rfl
  · exact absurd rfl h

theorem Board.Holds.perform_high (pin : ModePin) (hb : b.Holds AtRest) :
    (Board.perform flexio fuel (.level pin true) b).Holds
      fun g c => AtRest g c ∧ g.high pin = true := by
  obtain ⟨hsafe, hexclusive, hpaired⟩ := hb
  have hself : Function.update b.gpio.high pin true pin = true :=
    Function.update_self pin true b.gpio.high
  have hless : ∀ q : ModePin,
      Gpio.driving { b.gpio with high := Function.update b.gpio.high pin true }
          b.machine.control q →
        b.gpio.driving b.machine.control q := by
    rintro q ⟨hflex, houtput, hlow⟩
    refine ⟨hflex, houtput, ?_⟩
    by_cases hq : q = pin
    · rw [hq] at hlow
      exact absurd (hself.symm.trans hlow) (by decide)
    · exact (Function.update_of_ne hq _ _).symm.trans hlow
  refine ⟨hsafe, ⟨?_, hpaired⟩, hself⟩
  intro q hq
  obtain ⟨hflex, hother⟩ := hexclusive q (hless q hq)
  exact ⟨hflex, fun h => hother (hless q.other h)⟩

theorem Paired.not_mem {c : FlexIOControl} (h : Paired c) {pin : ModePin}
    (hpin : pin.number ∉ c.flexPins) : pin.other.number ∉ c.flexPins := by
  cases pin with
  | ic => exact mt h.mpr hpin
  | op => exact mt h.mp hpin

theorem Board.Holds.perform_low (pin : ModePin)
    (hb : b.Holds fun g c => AtRest g c ∧ g.high pin.other = true) :
    (Board.perform flexio fuel (.level pin false) b).Holds AtRest := by
  obtain ⟨hsafe, ⟨-, hpaired⟩, hother⟩ := hb
  have hne : pin.other ≠ pin := by cases pin <;> decide
  have hhigh : Function.update b.gpio.high pin false pin.other = true :=
    (Function.update_of_ne hne _ _).trans hother
  refine ⟨hsafe, ?_, hpaired⟩
  intro q hq
  by_cases hpin : q = pin
  · subst hpin
    exact ⟨hpaired.not_mem hq.1, Gpio.not_driving_of_high hhigh⟩
  · rw [ModePin.eq_other hpin] at hq
    exact absurd hq (Gpio.not_driving_of_high hhigh)

theorem Machine.Safe.direction (hsafe : b.machine.Safe) (pin : ModePin) (output : Bool) :
    (Board.perform flexio fuel (.direction pin output) b).machine.Safe where
  words := hsafe.words
  state := hsafe.state
  enabled henabled := by
    obtain ⟨policy, hprogrammed⟩ := hsafe.enabled henabled
    exact ⟨policy, hprogrammed.congr rfl⟩

theorem Gpio.exclusive_direction (g : Gpio) (c : FlexIOControl) (pin : ModePin) {output : Bool}
    (h : output = false ∨ g.high pin = true) :
    Gpio.Exclusive { g with output := Function.update g.output pin output }
      { c with flexPins := c.flexPins.filter (· ≠ pin.number) } := by
  have hpin : ¬ Gpio.driving { g with output := Function.update g.output pin output }
      { c with flexPins := c.flexPins.filter (· ≠ pin.number) } pin := by
    rintro ⟨-, houtput, hlow⟩
    have hself : Function.update g.output pin output pin = output := Function.update_self _ _ _
    obtain hinput | hhigh := h
    · exact absurd ((hself.trans hinput).symm.trans houtput) (by decide)
    · exact absurd (hhigh.symm.trans hlow) (by decide)
  intro q hq
  have hne : pin ≠ q := fun heq => hpin (heq ▸ hq)
  rw [← ModePin.eq_other hne]
  exact ⟨not_mem_direction c pin, hpin⟩

theorem Board.Holds.perform_direction {pin : ModePin} {output : Bool}
    {H : (ModePin → Bool) → Prop}
    (hb : b.Holds fun g c => g.Exclusive c ∧ (output = false ∨ g.high pin = true) ∧ H g.high) :
    (Board.perform flexio fuel (.direction pin output) b).Holds
      fun g c => g.Exclusive c ∧ H g.high ∧ pin.number ∉ c.flexPins :=
  ⟨hb.1.direction pin output, Gpio.exclusive_direction _ _ pin hb.2.2.1, hb.2.2.2,
    not_mem_direction _ pin⟩

theorem Board.Holds.perform_direction_last (pin : ModePin) {output : Bool}
    (hb : b.Holds fun g c =>
      g.Exclusive c ∧ (output = false ∨ g.high pin = true) ∧ pin.other.number ∉ c.flexPins) :
    (Board.perform flexio fuel (.direction pin output) b).Holds AtRest := by
  have hpin := not_mem_direction b.machine.control pin
  have hother : pin.other.number ∉ b.machine.control.flexPins.filter (· ≠ pin.number) :=
    fun hmem => hb.2.2.2 (List.mem_of_mem_filter hmem)
  refine ⟨hb.1.direction pin output, Gpio.exclusive_direction _ _ pin hb.2.2.1, ?_⟩
  cases pin with
  | ic => exact iff_of_false hpin hother
  | op => exact iff_of_false hother hpin

end Writes

section Programs

variable {flexio : FlexIOHandler} {fuel : Nat} {b : Board}

/-- What the rule of interleavings wants to know of a program. -/
def Guarded (flexio : FlexIOHandler) (fuel : Nat) (ws : List Write) (b : Board) : Prop :=
  Through (Board.perform flexio fuel) Board.Related (Board.Holds Gpio.Exclusive)
    (Board.Holds AtRest) ws b

theorem guarded_of_internal {ws : List Write} (hws : ∀ w ∈ ws, w.Internal)
    (hb : b.Holds AtRest) : Guarded flexio fuel ws b :=
  .of_keeps rely_related (fun w hw _ hs => hs.perform_internal (hws w hw)) hb

theorem guarded_cons {P Q : Gpio → FlexIOControl → Prop} {w : Write} {ws : List Write}
    (hb : b.Holds P) (hP : ∀ g c, P g c → g.Exclusive c)
    (hstep : ∀ {s : Board}, s.Holds P → (Board.perform flexio fuel w s).Holds Q)
    (hrest : ∀ {s : Board}, s.Holds Q → Guarded flexio fuel ws s) :
    Guarded flexio fuel (w :: ws) b :=
  .cons hb (fun hR hs => hs.related hR) (fun hs => hs.mono hP) hstep hrest

theorem guarded_switch (pin : ModePin) {ws : List Write} (hws : ∀ w ∈ ws, w.Internal)
    (hb : b.Holds AtRest) :
    Guarded flexio fuel (.level pin.other true :: .level pin false :: ws) b :=
  guarded_cons hb (fun _ _ h => h.1) (fun hs => hs.perform_high pin.other) fun hs =>
    guarded_cons hs (fun _ _ h => h.1.1) (fun hs => hs.perform_low pin) fun hs =>
      guarded_of_internal hws hs

theorem guarded_toMinion (hb : b.Holds AtRest) :
    Guarded flexio fuel ManualControlHandler.toMinion b :=
  guarded_cons (P := fun g c => g.Exclusive c ∧ (false = false ∨ g.high .ic = true) ∧ True)
    (hb.mono fun _ _ h => ⟨h.1, .inl rfl, trivial⟩) (fun _ _ h => h.1)
    (fun hs => hs.perform_direction (H := fun _ => True)) fun hs =>
      guarded_cons (P := fun g c =>
          g.Exclusive c ∧ (false = false ∨ g.high .op = true) ∧ pinModeIc ∉ c.flexPins)
        (hs.mono fun _ _ h => ⟨h.1, .inl rfl, h.2.2⟩) (fun _ _ h => h.1)
        (fun hs => hs.perform_direction_last .op) fun hs => hs

theorem guarded_high (pin : ModePin) {ws : List Write} (hb : b.Holds AtRest)
    (hws : ∀ {s : Board}, s.Holds (fun g c => AtRest g c ∧ g.high pin = true) →
      Guarded flexio fuel ws s) :
    Guarded flexio fuel (.level pin true :: ws) b :=
  guarded_cons hb (fun _ _ h => h.1) (fun hs => hs.perform_high pin) hws

theorem Board.Holds.perform_high_both (hb : b.Holds fun g c => AtRest g c ∧ g.high .ic = true) :
    (Board.perform flexio fuel (.level .op true) b).Holds
      fun g c => g.Exclusive c ∧ (true = false ∨ g.high .ic = true) ∧ g.high .op = true := by
  obtain ⟨hsafe, hrest, hop⟩ :=
    @Board.Holds.perform_high flexio fuel b .op (hb.mono fun _ _ h => h.1)
  have hic : Function.update b.gpio.high .op true .ic = true :=
    (Function.update_of_ne (by decide) _ _).trans hb.2.2
  exact ⟨hsafe, hrest.1, .inr hic, hop⟩

theorem guarded_init (hb : b.Holds AtRest) : Guarded flexio fuel ManualControl.init b :=
  guarded_high .ic hb fun hs =>
    guarded_cons hs (fun _ _ h => h.1.1) (fun hs => hs.perform_high_both) fun hs =>
      guarded_cons hs (fun _ _ h => h.1)
        (fun hs => hs.perform_direction (H := fun high => high .op = true)) fun hs =>
          guarded_cons (hs.mono fun _ _ h => ⟨h.1, .inr h.2.1, h.2.2⟩) (fun _ _ h => h.1)
            (fun hs => hs.perform_direction_last .op) fun hs =>
              guarded_high .ic hs fun hs =>
                guarded_high .op (hs.mono fun _ _ h => h.1) fun hs =>
                  hs.mono fun _ _ h => h.1

theorem guarded_setUpRun (hpins : Mapped flexio) (icTimeNs opTimeNs : BitVec 64)
    (onOverload : OnOverload) (hb : b.Holds AtRest) :
    Guarded flexio fuel
      [.disable, .softwareReset, .init icTimeNs opTimeNs onOverload .ignore .none] b :=
  guarded_cons hb (fun _ _ h => h.1)
    (fun hs => ⟨(hs.perform_internal (w := .disable) trivial).1, hs.2, rfl⟩) fun hs =>
      guarded_cons hs (fun _ _ h => h.1.1) (fun hs => hs.perform_softwareReset) fun hs =>
        guarded_cons hs (fun _ _ h => h.1.1)
          (fun hs => hs.perform_init hpins icTimeNs opTimeNs onOverload .ignore .none) fun hs => hs

theorem internal_toPhase (phase : Phase) (mode : Mode) (micros : BitVec 32) :
    ∀ w ∈ toPhase phase mode micros, w.Internal := by
  intro w hw
  obtain rfl | rfl : w = .shiftstate phase ∨ w = .mode micros mode := by
    simpa [toPhase] using hw
  · trivial
  · trivial

theorem guarded_toPhase (phase : Phase) (mode : Mode) (micros : BitVec 32) (hb : b.Holds AtRest) :
    Guarded flexio fuel (toPhase phase mode micros) b :=
  guarded_of_internal (internal_toPhase phase mode micros) hb

theorem guarded_manual (b' : Board) (mode : Mode) (micros : BitVec 32) (hb : b.Holds AtRest) :
    Guarded flexio fuel (Operation.program b' (.manual mode micros)) b := by
  have hmode : ∀ mode, ∀ w ∈ [Write.mode micros mode], w.Internal := by
    intro mode w hw
    rw [List.mem_singleton.mp hw]
    trivial
  cases mode with
  | ic => exact guarded_switch .ic (hmode .ic) hb
  | op => exact guarded_switch .op (hmode .op) hb
  | halt =>
    exact guarded_high .ic hb fun hs => guarded_high .op (hs.mono fun _ _ h => h.1) fun hs =>
      guarded_of_internal (hmode .halt) (hs.mono fun _ _ h => h.1)

/-- The module is stopped before anything else is written. -/
theorem guarded_enable {ws : List Write} (hb : b.Holds AtRest)
    (hws : ∀ {s : Board}, s.Holds AtRest → Guarded flexio fuel ws s) :
    Guarded flexio fuel (RealManualControl.enable b ++ ws) b := by
  rw [RealManualControl.enable]
  split
  · exact guarded_cons hb (fun _ _ h => h.1)
      (fun hs => hs.perform_internal (w := .disable) trivial) hws
  · exact hws hb

theorem guarded_real (mode : Mode) (micros : BitVec 32) (hb : b.Holds AtRest) :
    Guarded flexio fuel (Operation.program b (.real mode micros)) b := by
  have hchoice : ∀ {phase mode} {s : Board}, s.Holds AtRest → Guarded flexio fuel
      (if b.machine.control.isInitialized then toPhase phase mode micros
        else Operation.program b (.manual mode micros)) s := by
    intro phase mode s hs
    split
    · exact guarded_toPhase phase mode micros hs
    · exact guarded_manual b mode micros hs
  cases mode with
  | ic => exact guarded_enable hb hchoice
  | op => exact guarded_enable hb hchoice
  | halt => exact guarded_enable hb hchoice

theorem guarded_handle (msgIn : Json) (queueEmpty : Bool) (micros : BitVec 32)
    (hb : b.Holds AtRest) :
    Guarded flexio fuel (ManualControlHandler.handle micros queueEmpty b msgIn).2 b := by
  have hnil : Guarded flexio fuel [] b := hb
  rw [ManualControlHandler.handle]
  split
  · exact hnil
  · split
    · exact guarded_real .ic micros hb
    · exact guarded_real .op micros hb
    · exact guarded_real .halt micros hb
    · exact guarded_toMinion hb
    · exact hnil

theorem guarded_program (hpins : Mapped flexio) (o : Operation) (hb : b.Holds AtRest) :
    Guarded flexio fuel (o.program b) b := by
  cases o with
  | manualInit => exact guarded_init hb
  | manual mode micros => exact guarded_manual b mode micros hb
  | realEnable =>
    have h : Guarded flexio fuel (RealManualControl.enable b ++ []) b :=
      guarded_enable hb fun hs => hs
    rwa [List.append_nil] at h
  | real mode micros => exact guarded_real mode micros hb
  | forceStart micros => exact guarded_toPhase .ic .ic micros hb
  | toIdle micros => exact guarded_toPhase .idle .halt micros hb
  | toOp micros => exact guarded_toPhase .op .op micros hb
  | toExthalt micros => exact guarded_toPhase .exthalt .halt micros hb
  | toEnd micros => exact guarded_toPhase .done .halt micros hb
  | setUpRun icTimeNs opTimeNs onOverload =>
    exact guarded_setUpRun hpins icTimeNs opTimeNs onOverload hb
  | message msgIn queueEmpty micros => exact guarded_handle msgIn queueEmpty micros hb

end Programs

variable {flexio : FlexIOHandler}

theorem atRest_setUp (hpins : Mapped flexio) (fuel : Nat) (counter : Counters.PerformanceCounter) :
    (Board.setUp flexio fuel counter).Holds AtRest := by
  refine Board.Holds.perform_init hpins _ _ _ _ _
    ⟨⟨fun _ => .inl rfl, ⟨.idle, rfl⟩, ?_⟩, ⟨?_, ?_⟩, rfl⟩
  · exact fun henabled => absurd henabled Bool.false_ne_true
  · exact fun pin hdriving => absurd hdriving.2.1 Bool.false_ne_true
  · exact iff_of_false List.not_mem_nil List.not_mem_nil

/-- Whatever the firmware calls and whenever the timers tick, even between two writes of a call, the
machine is never told to be in IC and in OP. -/
theorem never_both_active (hpins : Mapped flexio) (fuel : Nat)
    (counter : Counters.PerformanceCounter) (ts : List (Turn Tick Operation)) :
    let b := ((Board.setUp flexio fuel counter).turns flexio fuel ts).state
    ¬ (b.active .ic = true ∧ b.active .op = true) :=
  (rely_related.turns (fun t b => b.related_tick t) (fun o _ hs => guarded_program hpins o hs)
    (atRest_setUp hpins fuel counter) ts).not_both_active

/-- A run that is stopped by hand, with a tick before the module is stopped. -/
theorem never_both_active_example :
    let b := ((Board.setUp board 4320000001 ⟨0, 0, 0, .halt, 0, 0, 0, 0⟩).turns board 4320000001
      ([.forceStart 0, .forceStart 0, .forceStart 0].map .advance ++
        [.event ⟨tStateCheck, 0x20c00⟩, .advance (.real .ic 9), .event ⟨tStateCheck, 0x1c00⟩,
          .advance (.real .ic 9), .advance (.real .ic 9)])).state
    ¬ (b.active .ic = true ∧ b.active .op = true) :=
  never_both_active mapped_board _ _ _

section Messages

variable {fuel : Nat} {policy : Policy} {b : Board} {phase : Phase}

def ticksOf : List (Turn Tick Operation) → List Tick
  | [] => []
  | .event t :: ts => t :: ticksOf ts
  | .advance _ :: ts => ticksOf ts

/-- Nothing but messages for the handler is called. -/
def OnlyMessages (ts : List (Turn Tick Operation)) : Prop :=
  ∀ o, .advance o ∈ ts → ∃ msgIn queueEmpty micros, o = .message msgIn queueEmpty micros

/-- A run that is not over. -/
def Phase.Sequenced (phase : Phase) : Prop := phase = .ic ∨ phase = .op ∨ phase = .exthalt

theorem handle_refused (hphase : b.machine.InPhase policy phase)
    (henabled : b.machine.control.isEnabled = true) (hsequenced : phase.Sequenced) (msgIn : Json)
    (queueEmpty : Bool) (micros : BitVec 32) :
    ∃ code, code ≠ 0 ∧ ManualControlHandler.handle micros queueEmpty b msgIn = (code, []) := by
  have hnotDone : b.machine.isDone = false := by
    rw [hphase.isDone]
    obtain rfl | rfl | rfl := hsequenced <;> rfl
  have hnotIdle : b.machine.isIdle = false := by
    rw [hphase.isIdle]
    obtain rfl | rfl | rfl := hsequenced <;> rfl
  have hcode : ManualControlHandler.canManualControl queueEmpty b ≠ 0 := by
    rw [ManualControlHandler.canManualControl, henabled, hnotDone, hnotIdle]
    cases queueEmpty <;> decide
  refine ⟨_, hcode, ?_⟩
  rw [ManualControlHandler.handle, if_pos hcode]

theorem Phase.sequenced_of_foldl {ts : List Tick} (hidle : phase ≠ .idle)
    (h : (ts.foldl (fun phase t => phase.tick policy t) phase).Sequenced) : phase.Sequenced := by
  rw [foldl_tick_eq hidle] at h
  cases phase with
  | idle => exact absurd rfl hidle
  | ic => exact .inl rfl
  | op => exact .inr (.inl rfl)
  | exthalt => exact .inr (.inr rfl)
  | done =>
    rw [foldl_check_done] at h
    exact absurd h (by unfold Sequenced; decide)
  | overload =>
    rw [foldl_check_overload] at h
    exact absurd h (by unfold Sequenced; decide)

theorem turns_of_messages (hphase : b.machine.InPhase policy phase)
    (henabled : b.machine.control.isEnabled = true) (hidle : phase ≠ .idle)
    {ts : List (Turn Tick Operation)} (honly : OnlyMessages ts)
    (hopen : ((ticksOf ts).foldl (fun phase t => phase.tick policy t) phase).Sequenced) :
    b.turns flexio fuel ts = ⟨{ b with machine := b.machine.ticks (ticksOf ts) }, []⟩ := by
  induction ts generalizing b phase with
  | nil => rfl
  | cons turn ts ih =>
    have honly' : OnlyMessages ts := fun o ho => honly o (List.mem_cons_of_mem _ ho)
    cases turn with
    | event t =>
      exact ih (b := b.tick t) (hphase.tick henabled t)
        ((congrArg FlexIOControl.isEnabled (b.machine.control_tick t)).trans henabled)
        (Phase.tick_ne_idle hidle t) honly' hopen
    | advance o =>
      obtain ⟨msgIn, queueEmpty, micros, rfl⟩ := honly o List.mem_cons_self
      obtain ⟨code, -, hrefused⟩ := handle_refused hphase henabled
        (Phase.sequenced_of_foldl hidle hopen) msgIn queueEmpty micros
      have hprogram : Operation.program b (.message msgIn queueEmpty micros) = [] :=
        congrArg Prod.snd hrefused
      have hturn : b.turns flexio fuel (.advance (.message msgIn queueEmpty micros) :: ts) =
          Running.turns (Board.perform flexio fuel) Board.tick (fun o b => o.program b)
            ⟨b, Operation.program b (.message msgIn queueEmpty micros)⟩ ts := rfl
      rw [hturn, hprogram]
      exact ih hphase henabled hidle honly' hopen

/-- Messages for manual control leave a run alone until it is over, whenever they arrive. -/
theorem messages_leave_run (policy : Policy) {icTimeNs opTimeNs : BitVec 64} {sync : Sync}
    {c : FlexIOControl}
    (h : init flexio fuel icTimeNs opTimeNs policy.onOverload policy.onExtHalt sync c =
      some (true, b.machine.control)) (micros : BitVec 32) {ts : List (Turn Tick Operation)}
    (honly : OnlyMessages ts) (hopen : (policy.outcome (checks (ticksOf ts))).Sequenced) :
    Board.turns flexio fuel { b with machine := b.machine.forceStart micros } ts =
      ⟨{ b with machine := (b.machine.forceStart micros).ticks (ticksOf ts) }, []⟩ := by
  obtain ⟨hprogrammed, henabled, -⟩ := programmed_of_init policy h
  have hphase : (b.machine.forceStart micros).InPhase policy .ic := ⟨hprogrammed, rfl⟩
  refine turns_of_messages (b := { b with machine := b.machine.forceStart micros }) hphase
    henabled (by decide) honly ?_
  rw [foldl_tick_eq (by decide), foldl_check_outcome]
  exact hopen

/-- "halt" is asked for in OP. -/
theorem messages_leave_run_example : ∃ c, init board 4320000001 defaultIcTime defaultOpTime .halt
      .ignore .none .afterReset = some (true, c) ∧
    ((Board.turns board 4320000001
      ⟨Machine.forceStart 0 ⟨c, sIdle, ⟨0, 0, 0, .halt, 0, 0, 0, 0⟩⟩,
        ⟨fun _ => false, fun _ => false⟩⟩
      [.event ⟨tStateCheck, 0x20c00⟩, .advance (.message (.object [("to", .string "halt")]) true 7),
        .event ⟨tStateCheck, 0xc00⟩]).state.machine.shiftstate) = sOp := by
  obtain ⟨c, hc⟩ := exists_init_of_fits (c := .afterReset)
    (show 100 ≤ defaultOpTime.toNat ∧ defaultOpTime.toNat ≤ 9000000000 by decide)
    (show 4320000000 < 4320000001 by decide) mapped_board rfl
    (show 100 ≤ defaultIcTime.toNat ∧ defaultIcTime.toNat < 9000000000 by decide)
    ⟨48000, 1, by decide, by decide, by decide, by decide⟩
    ⟨480, 1000, by decide, by decide, by decide, by decide⟩ .halt .ignore .none
  have honly : OnlyMessages [.event ⟨tStateCheck, 0x20c00⟩,
      .advance (.message (.object [("to", .string "halt")]) true 7),
      .event ⟨tStateCheck, 0xc00⟩] := by
    intro o ho
    simp at ho
    exact ⟨_, _, _, ho⟩
  have hleft := messages_leave_run ⟨.halt, .ignore⟩
    (b := ⟨⟨c, sIdle, ⟨0, 0, 0, .halt, 0, 0, 0, 0⟩⟩, ⟨fun _ => false, fun _ => false⟩⟩) hc 0
    honly (.inr (.inl (by decide +kernel)))
  have hphase := (inPhase_forceStart_ticks ⟨.halt, .ignore⟩ hc
    (m := ⟨c, sIdle, ⟨0, 0, 0, .halt, 0, 0, 0, 0⟩⟩) 0
    [⟨tStateCheck, 0x20c00⟩, ⟨tStateCheck, 0xc00⟩]).1.state
  exact ⟨c, hc, (congrArg (fun r => r.state.machine.shiftstate) hleft).trans
    (hphase.trans (by decide +kernel))⟩

end Messages

end Lucidac.FlexIOControl
