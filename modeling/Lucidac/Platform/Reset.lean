import Lucidac.Platform.Entities

/-!
# Resetting a LUCIDAC

A reset carries flags for the circuit, the calibration and the overloads, and every entity looks
at the flags by itself.  The calibration is kept unless its flag is set.  The circuit is kept apart
from the ADC channels, which the carrier clears whatever the flags are.  A circuit reset leaves
nothing of the old circuit but the settings of the signal generator.
-/

namespace Lucidac.Platform

namespace Slot

def reset : (slot : Slot) → slot.Content → ResetAction → slot.Content
  | .m0, block, action | .m1, block, action => MBlock.reset block action
  | .u, block, action => UBlock.reset block action
  | .c, block, action => CBlock.reset block action
  | .i, block, action => IBlock.reset block action
  | .sh, block, action => SHBlock.reset block action

end Slot

def Cluster.reset (s : Cluster) (action : ResetAction) : Cluster :=
  { s with blocks := fun slot => (s.blocks slot).map fun block => slot.reset block action }

namespace LUCIDAC

def resetAdcChannels (s : LUCIDAC) : LUCIDAC := { s with adcChannels := fun _ => -1 }

def resetAclSelect (s : LUCIDAC) : LUCIDAC := { s with aclSelect := fun _ => .internal }

def carrierReset (s : LUCIDAC) (action : ResetAction) : LUCIDAC :=
  resetAdcChannels
    { s with
      clusters := s.clusters.map (·.reset action)
      ctrlBlock := s.ctrlBlock.map (·.reset action) }

def reset (s : LUCIDAC) (action : ResetAction) : LUCIDAC :=
  let s₁ := s.carrierReset action
  let s₂ := { s₁ with frontPanel := s₁.frontPanel.map (·.reset action) }
  if action.has ResetAction.circuitReset then s₂.resetAclSelect.resetAdcChannels else s₂

end LUCIDAC

/-! ### Circuit and calibration -/

/-- The part of a block that belongs to the circuit. -/
abbrev Slot.Circuit : Slot → Type
  | .m0 | .m1 => Option MIntBlock
  | .u => UBlock
  | .c => Fin 32 → ℚ
  | .i => IBlock
  | .sh => SHBlock

/-- The part of a block that belongs to the calibration. -/
abbrev Slot.Calibration : Slot → Type
  | .m0 | .m1 => Option MMulBlock
  | .c => Fin 32 → ℚ
  | .u | .i | .sh => Unit

def Slot.circuit : (slot : Slot) → slot.Content → slot.Circuit
  | .m0, block | .m1, block => MBlock.integrators? block
  | .u, block => block
  | .c, block => CBlock.factors block
  | .i, block => block
  | .sh, block => block

def Slot.calibration : (slot : Slot) → slot.Content → slot.Calibration
  | .m0, block | .m1, block => MBlock.multipliers? block
  | .c, block => CBlock.gainCorrections block
  | .u, _ | .i, _ | .sh, _ => ()

/-- The kind of a math block; nothing else comes in kinds. -/
def Slot.multipliers : (slot : Slot) → slot.Content → Bool
  | .m0, block | .m1, block => MBlock.isMultipliers block
  | .u, _ | .c, _ | .i, _ | .sh, _ => false

/-- The whole circuit configuration. -/
structure Circuit where
  block : Nat → (slot : Slot) → Option slot.Circuit
  adcBus : Option CTRLBlock
  adcChannels : Fin 8 → Int
  aclSelect : Fin 8 → ACL
  frontPanel : Option FrontPanel

namespace LUCIDAC

def circuit (s : LUCIDAC) : Circuit where
  block idx slot := (s.block idx slot).map slot.circuit
  adcBus := s.ctrlBlock
  adcChannels := s.adcChannels
  aclSelect := s.aclSelect
  frontPanel := s.frontPanel

def calibration (s : LUCIDAC) (idx : Nat) (slot : Slot) : Option slot.Calibration :=
  (s.block idx slot).map slot.calibration

/-- The same entities are installed, math blocks of the same kind. -/
structure SameInstalled (s t : LUCIDAC) : Prop where
  block : ∀ idx slot,
    (s.block idx slot).map slot.multipliers = (t.block idx slot).map slot.multipliers
  ctrlBlock : s.ctrlBlock.isSome = t.ctrlBlock.isSome
  frontPanel : s.frontPanel.isSome = t.frontPanel.isSome

/-- What a reset promises, with a second state for comparison. -/
structure ResetKeepsPromise (s t : LUCIDAC) (action : ResetAction) : Prop where
  circuit_kept : action.has ResetAction.circuitReset = false → (s.reset action).circuit = s.circuit
  calibration_kept : action.has ResetAction.calibrationReset = false →
    (s.reset action).calibration = s.calibration
  circuit_cleared : action.has ResetAction.circuitReset = true →
    (s.reset action).circuit = (t.reset action).circuit

/-- The settings of the signal generator that a reset does not touch. -/
def generatorSettings (s : LUCIDAC) : Option SignalGenerator :=
  s.frontPanel.map fun panel => { panel.signalGenerator with sleep := true }

/-! ### The parts of a reset -/

theorem block_reset (s : LUCIDAC) (action : ResetAction) (idx : Nat) (slot : Slot) :
    (s.reset action).block idx slot = (s.block idx slot).map fun block => slot.reset block action := by
  have hclusters : (s.reset action).clusters = s.clusters.map (·.reset action) := by
    simp only [reset]
    split <;> rfl
  simp only [block]
  rw [hclusters, List.getElem?_map]
  cases s.clusters[idx]? <;> rfl

theorem ctrlBlock_reset (s : LUCIDAC) (action : ResetAction) :
    (s.reset action).ctrlBlock = s.ctrlBlock.map (·.reset action) := by
  simp only [reset]
  split <;> rfl

theorem frontPanel_reset (s : LUCIDAC) (action : ResetAction) :
    (s.reset action).frontPanel = s.frontPanel.map (·.reset action) := by
  simp only [reset]
  split <;> rfl

theorem adcChannels_reset (s : LUCIDAC) (action : ResetAction) :
    (s.reset action).adcChannels = fun _ => -1 := by
  simp only [reset]
  split <;> rfl

end LUCIDAC

theorem Slot.circuit_reset_of_not (slot : Slot) (block : slot.Content) {action : ResetAction}
    (h : action.has ResetAction.circuitReset = false) :
    slot.circuit (slot.reset block action) = slot.circuit block := by
  have hneg : ¬ action.has ResetAction.circuitReset = true := by
    rw [h]
    exact Bool.false_ne_true
  have hm (block : MBlock) : (block.reset action).integrators? = block.integrators? := by
    cases block with
    | integrators block =>
      simp only [MBlock.reset, MBlock.integrators?, MIntBlock.reset]
      rw [if_neg hneg]
    | multipliers block => rfl
  cases slot with
  | m0 => exact hm block
  | m1 => exact hm block
  | u => exact if_neg hneg
  | c =>
    simp only [Slot.circuit, Slot.reset, CBlock.reset]
    rw [if_neg hneg]
    split <;> rfl
  | i => exact if_neg hneg
  | sh => exact if_neg hneg

theorem Slot.calibration_reset_of_not (slot : Slot) (block : slot.Content) {action : ResetAction}
    (h : action.has ResetAction.calibrationReset = false) :
    slot.calibration (slot.reset block action) = slot.calibration block := by
  have hneg : ¬ action.has ResetAction.calibrationReset = true := by
    rw [h]
    exact Bool.false_ne_true
  have hm (block : MBlock) : (block.reset action).multipliers? = block.multipliers? := by
    cases block with
    | integrators block => rfl
    | multipliers block =>
      simp only [MBlock.reset, MBlock.multipliers?, MMulBlock.reset]
      rw [if_neg hneg]
  cases slot with
  | m0 => exact hm block
  | m1 => exact hm block
  | c =>
    simp only [Slot.calibration, Slot.reset, CBlock.reset]
    rw [if_neg hneg]
    split <;> rfl
  | u => rfl
  | i => rfl
  | sh => rfl

theorem Slot.circuit_reset_eq (slot : Slot) (block other : slot.Content) {action : ResetAction}
    (h : action.has ResetAction.circuitReset = true)
    (hkind : slot.multipliers block = slot.multipliers other) :
    slot.circuit (slot.reset block action) = slot.circuit (slot.reset other action) := by
  have hm (block other : MBlock) (hkind : block.isMultipliers = other.isMultipliers) :
      (block.reset action).integrators? = (other.reset action).integrators? := by
    cases block with
    | integrators block =>
      cases other with
      | integrators other =>
        simp only [MBlock.reset, MBlock.integrators?, MIntBlock.reset]
        rw [if_pos h, if_pos h]
        rfl
      | multipliers other => exact absurd hkind Bool.false_ne_true
    | multipliers block =>
      cases other with
      | integrators other => exact absurd hkind.symm Bool.false_ne_true
      | multipliers other => rfl
  have hfactors (block : CBlock) : (block.reset action).factors = fun _ => 1 := by
    simp only [CBlock.reset]
    rw [if_pos h]
    split <;> rfl
  cases slot with
  | m0 => exact hm block other hkind
  | m1 => exact hm block other hkind
  | u => exact (if_pos h).trans (if_pos h).symm
  | c => exact (hfactors block).trans (hfactors other).symm
  | i => exact (if_pos h).trans (if_pos h).symm
  | sh => exact (if_pos h).trans (if_pos h).symm

namespace LUCIDAC

theorem calibration_reset_of_not (s : LUCIDAC) {action : ResetAction}
    (h : action.has ResetAction.calibrationReset = false) :
    (s.reset action).calibration = s.calibration := by
  funext idx slot
  simp only [calibration]
  rw [block_reset, Option.map_map]
  congr 1
  funext block
  exact slot.calibration_reset_of_not block h

theorem circuit_reset_of_not_iff (s : LUCIDAC) {action : ResetAction}
    (h : action.has ResetAction.circuitReset = false) :
    (s.reset action).circuit = s.circuit ↔ ∀ i, s.adcChannels i = -1 := by
  have hneg : ¬ action.has ResetAction.circuitReset = true := by
    rw [h]
    exact Bool.false_ne_true
  have hblock : (s.reset action).circuit.block = s.circuit.block := by
    funext idx slot
    simp only [circuit]
    rw [block_reset, Option.map_map]
    congr 1
    funext block
    exact slot.circuit_reset_of_not block h
  have hctrl : (s.reset action).ctrlBlock = s.ctrlBlock := by
    rw [ctrlBlock_reset]
    cases s.ctrlBlock with
    | none => rfl
    | some block => exact congrArg some (if_neg hneg)
  have hpanel : (s.reset action).frontPanel = s.frontPanel := by
    rw [frontPanel_reset]
    cases s.frontPanel with
    | none => rfl
    | some panel => exact congrArg some (if_neg hneg)
  have hacl : (s.reset action).aclSelect = s.aclSelect := by
    simp only [reset]
    rw [if_neg hneg]
    rfl
  constructor
  · intro hcircuit i
    have hchannels : (s.reset action).adcChannels = s.adcChannels :=
      congrArg Circuit.adcChannels hcircuit
    rw [← hchannels, adcChannels_reset]
  · intro hdisabled
    have hchannels : (s.reset action).adcChannels = s.adcChannels := by
      rw [adcChannels_reset]
      funext i
      exact (hdisabled i).symm
    simp only [circuit] at hblock ⊢
    rw [hblock, hctrl, hpanel, hacl, hchannels]

/-- After a circuit reset the blocks do not depend on what was in them before. -/
theorem circuit_block_reset_eq {s t : LUCIDAC} (hsame : SameInstalled s t) {action : ResetAction}
    (h : action.has ResetAction.circuitReset = true) :
    (s.reset action).circuit.block = (t.reset action).circuit.block := by
  funext idx slot
  simp only [circuit]
  rw [block_reset, block_reset]
  have hkind := hsame.block idx slot
  cases hs : s.block idx slot with
  | none =>
    rw [hs, Option.map_none] at hkind
    rw [Option.map_eq_none_iff.mp hkind.symm]
  | some block =>
    rw [hs, Option.map_some] at hkind
    obtain ⟨other, ht, hother⟩ := Option.map_eq_some_iff.mp hkind.symm
    rw [ht]
    exact congrArg some (slot.circuit_reset_eq block other h hother.symm)

theorem ctrlBlock_reset_eq {s t : LUCIDAC} (hsame : SameInstalled s t) {action : ResetAction}
    (h : action.has ResetAction.circuitReset = true) :
    (s.reset action).ctrlBlock = (t.reset action).ctrlBlock := by
  rw [ctrlBlock_reset, ctrlBlock_reset]
  have hsome := hsame.ctrlBlock
  cases hs : s.ctrlBlock with
  | none =>
    rw [hs, Option.isSome_none] at hsome
    have ht : t.ctrlBlock = none :=
      Option.isNone_iff_eq_none.mp (Option.isSome_eq_false_iff.mp hsome.symm)
    rw [ht]
  | some block =>
    rw [hs] at hsome
    obtain ⟨other, ht⟩ := Option.isSome_iff_exists.mp hsome.symm
    rw [ht]
    exact congrArg some ((if_pos h).trans (if_pos h).symm)

/-- A circuit reset leaves nothing of the front panel but the settings of the signal generator. -/
theorem frontPanel_reset_of_circuit (s : LUCIDAC) {action : ResetAction}
    (h : action.has ResetAction.circuitReset = true) :
    (s.reset action).frontPanel = s.generatorSettings.map fun settings => ⟨0, settings⟩ := by
  rw [frontPanel_reset, generatorSettings, Option.map_map]
  congr 1
  funext panel
  exact if_pos h

theorem circuit_reset_eq_iff {s t : LUCIDAC} (hsame : SameInstalled s t) {action : ResetAction}
    (h : action.has ResetAction.circuitReset = true) :
    (s.reset action).circuit = (t.reset action).circuit ↔
      s.generatorSettings = t.generatorSettings := by
  have hacl (s : LUCIDAC) : (s.reset action).aclSelect = fun _ => .internal := by
    simp only [reset]
    rw [if_pos h]
    rfl
  have hinjective : Function.Injective fun settings : SignalGenerator => FrontPanel.mk 0 settings :=
    fun _ _ he => congrArg FrontPanel.signalGenerator he
  constructor
  · intro hcircuit
    have hpanels : (s.reset action).frontPanel = (t.reset action).frontPanel :=
      congrArg Circuit.frontPanel hcircuit
    rw [frontPanel_reset_of_circuit s h, frontPanel_reset_of_circuit t h] at hpanels
    exact Option.map_injective hinjective hpanels
  · intro hsettings
    have hblock := circuit_block_reset_eq hsame h
    simp only [circuit] at hblock ⊢
    rw [hblock, ctrlBlock_reset_eq hsame h, hacl, hacl, frontPanel_reset_of_circuit s h,
      frontPanel_reset_of_circuit t h, hsettings, adcChannels_reset, adcChannels_reset]

/-- A reset keeps its promise exactly when no ADC channel is enabled that it should keep, and a
circuit reset finds the same settings of the signal generator. -/
theorem reset_keepsPromise_iff {s t : LUCIDAC} (hsame : SameInstalled s t) (action : ResetAction) :
    ResetKeepsPromise s t action ↔
      (action.has ResetAction.circuitReset = false → ∀ i, s.adcChannels i = -1) ∧
      (action.has ResetAction.circuitReset = true → s.generatorSettings = t.generatorSettings) := by
  constructor
  · intro hpromise
    exact ⟨fun h => (s.circuit_reset_of_not_iff h).mp (hpromise.circuit_kept h),
      fun h => (circuit_reset_eq_iff hsame h).mp (hpromise.circuit_cleared h)⟩
  · intro hcond
    exact ⟨fun h => (s.circuit_reset_of_not_iff h).mpr (hcond.1 h), s.calibration_reset_of_not,
      fun h => (circuit_reset_eq_iff hsame h).mpr (hcond.2 h)⟩

/-- A LUCIDAC in use: an output is connected and a lane scaled and corrected, and every entity is
away from its initial state. -/
def inUse (correction : ℚ) (adcChannel : Int) : LUCIDAC :=
  { bare with
    clusters := [⟨0, fun
      | .m0 => some (.integrators ⟨fun _ => 1 / 2, fun _ => 100⟩)
      | .m1 => some (.multipliers ⟨fun _ => ⟨1 / 20, 0, 0⟩⟩)
      | .u => some ⟨fun output => if output.val = 4 then 9 else -1, .oneTenth, .posRef, .analogInput⟩
      | .c => some ⟨fun _ => 3 / 4, fun _ => correction⟩
      | .i => some ⟨fun output => if output.val = 2 then 0b10000 else 0, fun input => input.val == 4⟩
      | .sh => some ⟨.gainZeroToSeven⟩⟩]
    ctrlBlock := some ⟨.adc⟩
    frontPanel := some ⟨0b101, ⟨50, 0, .triangle, 1, 0, 1, 0, 0, 0, true⟩⟩
    adcChannels := fun i => if i.val = 0 then adcChannel else -1
    aclSelect := fun i => if i.val = 3 then .external else .internal }

/-- The same LUCIDAC with another circuit and calibration, and the same signal generator. -/
def inUseElsewhere : LUCIDAC :=
  { inUse (17 / 16) 5 with
    clusters := [⟨0, fun
      | .m0 => some (.integrators ⟨fun _ => -1, fun _ => 10000⟩)
      | .m1 => some (.multipliers ⟨fun _ => ⟨0, 1 / 10, 0⟩⟩)
      | .u => some ⟨fun output => if output.val = 15 then 0 else -1, .one, .analogInput, .negRef⟩
      | .c => some ⟨fun _ => -1 / 8, fun _ => 17 / 16⟩
      | .i => some ⟨fun output => if output.val = 0 then 0b11 else 0, fun _ => true⟩
      | .sh => some ⟨.track⟩⟩]
    ctrlBlock := some ⟨.cl1Gain⟩
    aclSelect := fun _ => .external }

theorem sameInstalled_inUse (correction : ℚ) (adcChannel : Int) :
    SameInstalled (inUse correction adcChannel) inUseElsewhere where
  block idx slot := by
    cases idx with
    | zero => cases slot <;> rfl
    | succ idx => rfl
  ctrlBlock := rfl
  frontPanel := rfl

theorem inUse_ne : inUse (33 / 32) 3 ≠ inUseElsewhere := by
  intro h
  have hchannels := congrArg (fun s => s.adcChannels 0) h
  exact absurd hchannels (by decide)

/-- A circuit reset takes two states to the same circuit and keeps their calibrations.  A reset of
the calibration keeps the circuit, as long as no ADC channel is enabled. -/
theorem reset_keepsPromise_inUse :
    inUse (33 / 32) 3 ≠ inUseElsewhere ∧
    ResetKeepsPromise (inUse (33 / 32) 3) inUseElsewhere ⟨ResetAction.circuitReset⟩ ∧
    ResetKeepsPromise (inUse (33 / 32) (-1)) inUseElsewhere ⟨ResetAction.calibrationReset⟩ := by
  refine ⟨inUse_ne, ?_, ?_⟩
  · exact (reset_keepsPromise_iff (sameInstalled_inUse _ _) _).mpr
      ⟨fun h => absurd h (by decide), fun _ => rfl⟩
  · exact (reset_keepsPromise_iff (sameInstalled_inUse _ _) _).mpr
      ⟨fun _ => by decide, fun h => absurd h (by decide)⟩

/-- Resetting only the overloads disables the ADC channels, and a circuit reset keeps the frequency
of the signal generator. -/
theorem reset_breaksPromise :
    (¬ ResetKeepsPromise { bare with adcChannels := fun i => if i = 0 then 3 else -1 }
      { bare with adcChannels := fun i => if i = 0 then 3 else -1 } ⟨ResetAction.overloadReset⟩) ∧
    ¬ ResetKeepsPromise
      { bare with frontPanel := some ⟨0, ⟨50, 0, .sine, 0, 0, 0, 0, 0, 0, true⟩⟩ }
      { bare with frontPanel := some ⟨0, ⟨60, 0, .sine, 0, 0, 0, 0, 0, 0, true⟩⟩ }
      ⟨ResetAction.circuitReset⟩ := by
  constructor
  · intro h
    have hkept := congrArg (fun c => c.adcChannels 0) (h.circuit_kept (by decide))
    exact absurd hkept (by decide)
  · intro h
    have hcleared := congrArg (fun c => c.frontPanel) (h.circuit_cleared (by decide))
    exact absurd hcleared (by decide)

end LUCIDAC

end Lucidac.Platform
