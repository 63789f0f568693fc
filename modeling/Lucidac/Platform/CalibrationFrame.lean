import Lucidac.Platform.Calibration

/-!
# What calibration leaves alone

Calibration neither fills nor empties a slot, and apart from the channels it sets up for a math
block it does not touch the ADC channels.  The statements follow the programs call by call.  Each
names the slots whose pointer is used without a question, and every absent block that a program
reports is one of them.
-/

namespace Lucidac.Platform

open Framework

/-- Which slots are filled, with the kind of the math blocks. -/
structure Layout where
  clusterCount : Nat
  kind : Nat → Slot → Option Bool
  ctrlBlock : Bool
  frontPanel : Bool

def LUCIDAC.layout (s : LUCIDAC) : Layout where
  clusterCount := s.clusters.length
  kind idx slot := (s.block idx slot).map slot.multipliers
  ctrlBlock := s.ctrlBlock.isSome
  frontPanel := s.frontPanel.isSome

structure Kept (L : Layout) (channels : Fin 8 → Int) (m : Machine) : Prop where
  layout : m.lucidac.layout = L
  adcChannels : m.lucidac.adcChannels = channels

/-- The exit comes from an absent block or from a pointer without a value. -/
def Stop.Absent : Stop → Prop
  | .status _ => False
  | .fault f => f = .absentBlock ∨ f = .unassigned

/-- Something is missing if this exit comes from an absent block. -/
def Blames (missing : Prop) (e : Stop) : Prop := e.Absent → missing

theorem blames_status (missing : Prop) (s : Status) : Blames missing (.status s) := fun h => h.elim

theorem blames_configError (missing : Prop) (e : ConfigError) :
    Blames missing (Stop.ofConfigError e) := by
  intro h
  cases e with
  | status s => exact h.elim
  | exception =>
    obtain h | h := h
    · cases h
    · cases h

/-! ### Layouts -/

namespace LUCIDAC

theorem block_setBlock_self {s : LUCIDAC} {idx : Nat} {slot : Slot} {old : slot.Content}
    (h : s.block idx slot = some old) (block : slot.Content) :
    (s.setBlock idx slot block).block idx slot = some block := by
  obtain ⟨cluster, hcluster, -⟩ := Option.bind_eq_some_iff.mp h
  simp only [LUCIDAC.block, setBlock]
  rw [List.getElem?_modify_eq, hcluster]
  exact Function.update_self slot (some block) cluster.blocks

theorem block_setBlock_of_ne (s : LUCIDAC) {idx idx' : Nat} {slot slot' : Slot}
    (h : idx' ≠ idx ∨ slot' ≠ slot) (block : slot.Content) :
    (s.setBlock idx slot block).block idx' slot' = s.block idx' slot' := by
  simp only [LUCIDAC.block, setBlock]
  by_cases hidx : idx' = idx
  · subst hidx
    rw [List.getElem?_modify_eq]
    cases s.clusters[idx']? with
    | none => rfl
    | some cluster =>
      exact Function.update_of_ne (h.resolve_left (fun hne => hne rfl)) (some block) cluster.blocks
  · rw [List.getElem?_modify_ne _ _ (Ne.symm hidx)]

theorem layout_setBlock {s : LUCIDAC} {idx : Nat} {slot : Slot} {old block : slot.Content}
    (h : s.block idx slot = some old) (hkind : slot.multipliers block = slot.multipliers old) :
    (s.setBlock idx slot block).layout = s.layout := by
  have hcount : (s.setBlock idx slot block).clusters.length = s.clusters.length :=
    List.length_modify ..
  have hkinds : (s.setBlock idx slot block).layout.kind = s.layout.kind := by
    funext idx' slot'
    simp only [layout]
    by_cases hsame : idx' = idx ∧ slot' = slot
    · obtain ⟨rfl, rfl⟩ := hsame
      rw [block_setBlock_self h, h, Option.map_some, Option.map_some, hkind]
    · rw [block_setBlock_of_ne]
      exact not_and_or.mp hsame
  simp only [layout] at hkinds ⊢
  rw [hcount, hkinds]
  rfl

end LUCIDAC

theorem Slot.multipliers_reset (slot : Slot) (block : slot.Content) (action : ResetAction) :
    slot.multipliers (slot.reset block action) = slot.multipliers block := by
  have hm (block : MBlock) : (block.reset action).isMultipliers = block.isMultipliers := by
    cases block <;> rfl
  cases slot with
  | m0 => exact hm block
  | m1 => exact hm block
  | u => rfl
  | c => rfl
  | i => rfl
  | sh => rfl

theorem LUCIDAC.layout_modify_reset (s : LUCIDAC) (idx : Nat) (action : ResetAction) :
    ({ s with clusters := s.clusters.modify idx (·.reset action) } : LUCIDAC).layout = s.layout := by
  have hkinds : ({ s with clusters := s.clusters.modify idx (·.reset action) } : LUCIDAC).layout.kind =
      s.layout.kind := by
    funext idx' slot
    simp only [layout, block]
    rw [List.getElem?_modify]
    cases s.clusters[idx']? with
    | none => rfl
    | some cluster =>
      by_cases hidx : idx = idx'
      · simp only [hidx, if_true, Option.map_eq_map, Option.map_some, Option.bind_some, Cluster.reset,
          Option.map_map]
        congr 1
        funext block
        exact slot.multipliers_reset block action
      · simp only [if_neg hidx]
        rfl
  simp only [layout] at hkinds ⊢
  rw [hkinds, List.length_modify]

/-! ### Single calls -/

section Calls

variable {L : Layout} {channels : Fin 8 → Int} {missing : Prop}

theorem Kept.ask {m : Machine} (h : Kept L channels m) :
    Kept L channels { m with asked := m.asked + 1 } := ⟨h.layout, h.adcChannels⟩

theorem Kept.kind_of_block {m : Machine} (h : Kept L channels m) {idx : Nat} {slot : Slot}
    {block : slot.Content} (hblock : m.lucidac.block idx slot = some block) :
    L.kind idx slot = some (slot.multipliers block) := by
  rw [← h.layout]
  simp only [LUCIDAC.layout]
  rw [hblock, Option.map_some]

theorem Kept.kind_of_empty {m : Machine} (h : Kept L channels m) {idx : Nat} {slot : Slot}
    (hblock : m.lucidac.block idx slot = none) : L.kind idx slot = none := by
  rw [← h.layout]
  simp only [LUCIDAC.layout]
  rw [hblock, Option.map_none]

theorem Kept.setBlock {m : Machine} (h : Kept L channels m) {idx : Nat} {slot : Slot}
    {old block : slot.Content} (hold : m.lucidac.block idx slot = some old)
    (hkind : slot.multipliers block = slot.multipliers old) :
    Kept L channels { m with lucidac := m.lucidac.setBlock idx slot block } :=
  ⟨(LUCIDAC.layout_setBlock hold hkind).trans h.layout, h.adcChannels⟩

theorem wp_deref (idx : Nat) (slot : Slot) (Q : slot.Content → Machine → Prop)
    (E : Stop → Machine → Prop) (m : Machine) :
    wp (deref idx slot) Q E m = match m.lucidac.block idx slot with
      | some block => Q block m
      | none => E (.fault .absentBlock) m := by
  simp only [deref, wp_bind, wp_get]
  cases m.lucidac.block idx slot <;> rfl

theorem askHardware_guarded (hw : Hardware) :
    Guarded (Kept L channels) (Blames missing) (askHardware hw) := fun _ hm => hm.ask

theorem sample_guarded (hw : Hardware) :
    Guarded (Kept L channels) (Blames missing) (sample hw) := fun _ hm => hm.ask

theorem requireTrue_guarded (c : Bool) :
    Guarded (Kept L channels) (Blames missing) (require c returnFalse) :=
  Guarded.require c fun _ => blames_status missing _

theorem sampleAvg_guarded (hw : Hardware) (channel : Fin 8) :
    Guarded (Kept L channels) (Blames missing) (sampleAvg hw channel) :=
  (sample_guarded hw).bind fun _ => (sample_guarded hw).bind fun _ =>
    (sample_guarded hw).bind fun _ => (sample_guarded hw).bind fun _ => Guarded.pure _

theorem deref_guarded {idx : Nat} {slot : Slot} (h : L.kind idx slot = none → missing) :
    Guarded (Kept L channels) (Blames missing) (deref idx slot) := by
  intro m hm
  rw [wp_deref]
  cases hblock : m.lucidac.block idx slot with
  | some block => exact hm
  | none => exact ⟨fun _ => h (hm.kind_of_empty hblock), hm⟩

theorem changeBlock_guarded {idx : Nat} {slot : Slot} (h : L.kind idx slot = none → missing)
    (hkind : ∀ a b, slot.multipliers a = slot.multipliers b) (f : slot.Content → slot.Content) :
    Guarded (Kept L channels) (Blames missing) (changeBlock idx slot f) := by
  intro m hm
  rw [changeBlock, wp_bind, wp_deref]
  cases hblock : m.lucidac.block idx slot with
  | some block => exact hm.setBlock hblock (hkind _ _)
  | none => exact ⟨fun _ => h (hm.kind_of_empty hblock), hm⟩

theorem tryBlock_guarded {idx : Nat} {slot : Slot} (h : L.kind idx slot = none → missing)
    (hkind : ∀ a b, slot.multipliers a = slot.multipliers b)
    (f : slot.Content → Bool × slot.Content) :
    Guarded (Kept L channels) (Blames missing) (tryBlock idx slot f) := by
  intro m hm
  rw [tryBlock, wp_bind, wp_deref]
  cases hblock : m.lucidac.block idx slot with
  | some block =>
    simp only [wp_bind, wp_modify]
    exact requireTrue_guarded _ _ (hm.setBlock hblock (hkind _ _))
  | none => exact ⟨fun _ => h (hm.kind_of_empty hblock), hm⟩

theorem writeBlock_guarded (hw : Hardware) {idx : Nat} {slot : Slot}
    (h : L.kind idx slot = none → missing) :
    Guarded (Kept L channels) (Blames missing) (writeBlock hw idx slot) :=
  (deref_guarded h).bind fun _ => (askHardware_guarded hw).bind fun ok => requireTrue_guarded ok

theorem derefCtrlBlock_guarded (h : L.ctrlBlock = false → missing) :
    Guarded (Kept L channels) (Blames missing) derefCtrlBlock := by
  apply Guarded.get_bind
  intro m hm
  cases hblock : m.lucidac.ctrlBlock with
  | some block => exact Guarded.pure block
  | none =>
    refine Guarded.throw fun _ => h ?_
    rw [← hm.layout]
    simp only [LUCIDAC.layout]
    rw [hblock]
    rfl

theorem changeCtrlBlock_guarded (h : L.ctrlBlock = false → missing) (f : CTRLBlock → CTRLBlock) :
    Guarded (Kept L channels) (Blames missing) (changeCtrlBlock f) := by
  intro m hm
  have hguarded : wp derefCtrlBlock (fun _ => Kept L channels)
      (fun e t => Blames missing e ∧ Kept L channels t) m := derefCtrlBlock_guarded h m hm
  simp only [changeCtrlBlock, derefCtrlBlock, wp_bind, wp_get] at hguarded ⊢
  cases hblock : m.lucidac.ctrlBlock with
  | none =>
    rw [hblock] at hguarded
    exact hguarded
  | some block =>
    refine ⟨?_, hm.adcChannels⟩
    rw [← hm.layout]
    simp only [LUCIDAC.layout]
    rw [hblock]
    rfl

theorem writeCtrlBlock_guarded (hw : Hardware) (h : L.ctrlBlock = false → missing) :
    Guarded (Kept L channels) (Blames missing) (writeCtrlBlock hw) :=
  (derefCtrlBlock_guarded h).bind fun _ => (askHardware_guarded hw).bind fun ok =>
    requireTrue_guarded ok

/-! ### Routes -/

theorem Kept.isSome_iff {m : Machine} (h : Kept L channels m) (idx : Nat) (slot : Slot) :
    (m.lucidac.block idx slot).isSome = true ↔ L.kind idx slot ≠ none := by
  rw [← h.layout]
  simp only [LUCIDAC.layout]
  cases m.lucidac.block idx slot <;> simp

/-- The calibration of offsets asks for its blocks, and goes on only when both are there. -/
theorem calibrateOffsets_bind_guarded {α : Type} (hw : Hardware) (idx : Nat)
    {x : EStateM Stop Machine α} (hx : (L.kind idx .sh = none → missing) →
      Guarded (Kept L channels) (Blames missing) x) :
    Guarded (Kept L channels) (Blames missing) (calibrateOffsets hw idx >>= fun _ => x) := by
  simp only [calibrateOffsets, bind_assoc]
  apply Guarded.get_bind
  intro m hm
  apply Guarded.require_bind (blames_status missing _)
  intro hinstalled
  rw [Bool.and_eq_true, hm.isSome_iff, hm.isSome_iff] at hinstalled
  have hu : L.kind idx .u = none → missing := fun h => absurd h hinstalled.1
  have hsh : L.kind idx .sh = none → missing := fun h => absurd h hinstalled.2
  apply (deref_guarded hu).bind
  intro ublock
  apply (changeBlock_guarded hu (fun _ _ => rfl) _).seq
  apply (writeBlock_guarded hw hu).seq
  apply (changeBlock_guarded hsh (fun _ _ => rfl) _).seq
  apply (changeBlock_guarded hu (fun _ _ => rfl) _).seq
  exact (writeBlock_guarded hw hu).bind fun _ => hx hsh

theorem calibrateOffsets_guarded (hw : Hardware) (idx : Nat) :
    Guarded (Kept L channels) (Blames missing) (calibrateOffsets hw idx) := by
  have h : Guarded (Kept L channels) (Blames missing)
      (calibrateOffsets hw idx >>= fun _ => pure PUnit.unit) :=
    calibrateOffsets_bind_guarded hw idx fun _ => Guarded.pure _
  rwa [bind_pure_unit] at h

section Cluster

variable {idx : Nat} (hu : L.kind idx .u = none → missing) (hc : L.kind idx .c = none → missing)
  (hi : L.kind idx .i = none → missing)

include hu hc hi

theorem activateLane_guarded (hw : Hardware) (iInIdx : Fin 32) :
    Guarded (Kept L channels) (Blames missing) (activateLane hw idx iInIdx) := by
  apply (deref_guarded hi).bind
  intro iblock
  apply (changeBlock_guarded hu (fun _ _ => rfl) _).seq
  apply (changeBlock_guarded hu (fun _ _ => rfl) _).seq
  apply (writeBlock_guarded hw hu).seq
  apply (changeBlock_guarded hc (fun _ _ => rfl) _).seq
  apply (changeBlock_guarded hc (fun _ _ => rfl) _).seq
  exact writeBlock_guarded hw hc

omit hu hi in
theorem measureGain_guarded (hsh : L.kind idx .sh = none → missing) (hw : Hardware)
    (iOutIdx : Fin 16) (iInIdx : Fin 32) :
    Guarded (Kept L channels) (Blames missing) (measureGain hw idx iOutIdx iInIdx) := by
  apply (changeBlock_guarded hsh (fun _ _ => rfl) _).seq
  apply (sampleAvg_guarded hw _).bind
  intro mAdc
  apply (deref_guarded hc).bind
  intro cblock
  apply (changeBlock_guarded hc (fun _ _ => rfl) _).seq
  refine Guarded.ite (fun _ => ?_) fun _ => Guarded.pure _
  exact (changeBlock_guarded hc (fun _ _ => rfl) _).bind fun _ => Guarded.pure _

theorem calibrateLane_guarded (hw : Hardware) (iOutIdx : Fin 16) (success : Bool)
    (iInIdx : Fin 32) :
    Guarded (Kept L channels) (Blames missing) (calibrateLane hw idx iOutIdx success iInIdx) := by
  apply (deref_guarded hi).bind
  intro iblock
  apply Guarded.ite (fun _ => Guarded.pure _)
  intro _
  apply (deref_guarded hu).bind
  intro ublock
  apply Guarded.ite (fun _ => Guarded.pure _)
  intro _
  apply (activateLane_guarded hu hc hi hw iInIdx).seq
  apply calibrateOffsets_bind_guarded hw idx
  intro hsh
  apply (measureGain_guarded hc hsh hw iOutIdx iInIdx).bind
  intro accepted
  apply ((changeBlock_guarded hc (fun _ _ => rfl) _).bind fun _ => writeBlock_guarded hw hc).seq
  exact Guarded.pure _

theorem restoreBlocks_guarded (hw : Hardware) (oldUBlock : UBlock) (oldFactors : Fin 32 → ℚ)
    (oldUpscaling : Fin 32 → Bool) :
    Guarded (Kept L channels) (Blames missing)
      (restoreBlocks hw idx oldUBlock oldFactors oldUpscaling) := by
  apply (changeBlock_guarded hc (fun _ _ => rfl) _).seq
  apply (writeBlock_guarded hw hc).seq
  apply calibrateOffsets_bind_guarded hw idx
  intro hsh
  apply (changeBlock_guarded hu (fun _ _ => rfl) _).seq
  apply (changeBlock_guarded hu (fun _ _ => rfl) _).seq
  apply (writeBlock_guarded hw hu).seq
  apply (changeBlock_guarded hi (fun _ _ => rfl) _).seq
  apply (writeBlock_guarded hw hi).seq
  exact changeBlock_guarded hsh (fun _ _ => rfl) _

theorem clusterCalibrateRoutes_guarded (hw : Hardware) :
    Guarded (Kept L channels) (Blames missing) (clusterCalibrateRoutes hw idx) := by
  apply (deref_guarded hu).bind
  intro ublock
  apply (deref_guarded hc).bind
  intro cblock
  apply (changeBlock_guarded hc (fun _ _ => rfl) _).seq
  apply (writeBlock_guarded hw hc).seq
  apply (deref_guarded hi).bind
  intro iblock
  apply (changeBlock_guarded hi (fun _ _ => rfl) _).seq
  apply (writeBlock_guarded hw hi).seq
  refine (Guarded.foldlM _ _ fun iOutIdx _ success => Guarded.foldlM _ _ fun iInIdx _ success =>
    calibrateLane_guarded hu hc hi hw iOutIdx success iInIdx).bind fun success => ?_
  exact (restoreBlocks_guarded hu hc hi hw _ _ _).bind fun _ => requireTrue_guarded success

theorem calibrateRoutesInCluster_guarded (hctrl : L.ctrlBlock = false → missing) (hw : Hardware) :
    Guarded (Kept L channels) (Blames missing) (calibrateRoutesInCluster hw idx) := by
  apply Guarded.get_bind
  intro m _
  apply (derefCtrlBlock_guarded hctrl).bind
  intro ctrlBlock
  apply (changeCtrlBlock_guarded hctrl _).seq
  apply (writeCtrlBlock_guarded hw hctrl).seq
  apply (clusterCalibrateRoutes_guarded hu hc hi hw).seq
  apply (changeCtrlBlock_guarded hctrl _).seq
  exact writeCtrlBlock_guarded hw hctrl

theorem addConstant_guarded (signalType : TransmissionMode) (uOut : Nat) (cFactor : ℚ) (iOut : Nat) :
    Guarded (Kept L channels) (Blames missing) (addConstant idx signalType uOut cFactor iOut) := by
  apply (changeBlock_guarded hi (fun _ _ => rfl) _).seq
  apply (tryBlock_guarded hu (fun _ _ => rfl) _).seq
  apply (tryBlock_guarded hc (fun _ _ => rfl) _).seq
  exact tryBlock_guarded hi (fun _ _ => rfl) _

end Cluster

/-! ### Math blocks -/

theorem Kept.kind_of_mBlock {m : Machine} (h : Kept L channels m) {idx : Nat} {slot : MSlot}
    {block : MBlock} (hblock : m.lucidac.mBlock idx slot = some block) :
    L.kind idx slot.toSlot = some block.isMultipliers := by
  cases slot with
  | m0 => exact h.kind_of_block hblock
  | m1 => exact h.kind_of_block hblock

theorem Kept.kind_of_empty_mBlock {m : Machine} (h : Kept L channels m) {idx : Nat} {slot : MSlot}
    (hblock : m.lucidac.mBlock idx slot = none) : L.kind idx slot.toSlot = none := by
  cases slot with
  | m0 => exact h.kind_of_empty hblock
  | m1 => exact h.kind_of_empty hblock

theorem Kept.setMBlock {m : Machine} (h : Kept L channels m) {idx : Nat} {slot : MSlot}
    {old block : MBlock} (hold : m.lucidac.mBlock idx slot = some old)
    (hkind : block.isMultipliers = old.isMultipliers) (asked : Nat) :
    Kept L channels ⟨m.lucidac.setMBlock idx slot block, asked⟩ := by
  cases slot with
  | m0 =>
    have hset := h.setBlock hold hkind
    exact ⟨hset.layout, hset.adcChannels⟩
  | m1 =>
    have hset := h.setBlock hold hkind
    exact ⟨hset.layout, hset.adcChannels⟩

theorem resetCluster_guarded (idx : Nat) (action : ResetAction) :
    Guarded (Kept L channels) (Blames missing) (resetCluster idx action) :=
  Guarded.modify fun m hm => ⟨(m.lucidac.layout_modify_reset idx action).trans hm.layout, hm.adcChannels⟩

theorem writeInputOffsets_guarded (hw : Hardware) (offsetX offsetY : ℚ) :
    Guarded (Kept L channels) (Blames missing) (writeCalibrationInputOffsets hw offsetX offsetY) :=
  Guarded.ite (fun _ => Guarded.pure _) fun _ => askHardware_guarded hw

theorem writeOutputOffset_guarded (hw : Hardware) (offsetZ : ℚ) :
    Guarded (Kept L channels) (Blames missing) (writeCalibrationOutputOffset hw offsetZ) :=
  Guarded.ite (fun _ => Guarded.pure _) fun _ => askHardware_guarded hw

theorem calibrateInputOffset_guarded (hw : Hardware) {write : Fin 4 → ℚ → EStateM Stop Machine Bool}
    {store : Fin 4 → ℚ → EStateM Stop Machine PUnit}
    (hwrite : ∀ i offset, Guarded (Kept L channels) (Blames missing) (write i offset))
    (hstore : ∀ i offset, Guarded (Kept L channels) (Blames missing) (store i offset))
    (success : Bool) (mulIdx : Fin 4) :
    Guarded (Kept L channels) (Blames missing)
      (calibrateInputOffset hw write store success mulIdx) := by
  have hraise (fuel : Nat) (offset : ℚ) (success : Bool) : Guarded (Kept L channels)
      (Blames missing) (raiseOffset hw mulIdx (write mulIdx) (store mulIdx) fuel offset success) := by
    induction fuel generalizing offset with
    | zero => exact Guarded.pure success
    | succ fuel ih =>
      apply (sample_guarded hw).bind
      intro reading
      refine Guarded.ite (fun _ => ?_) fun _ => Guarded.pure _
      apply (hwrite mulIdx offset).bind
      intro ok
      refine Guarded.ite (fun _ => ?_) fun _ => Guarded.pure _
      exact (hstore mulIdx _).bind fun _ => ih _
  apply (hwrite mulIdx _).bind
  intro ok
  exact (hstore mulIdx _).bind fun _ => hraise _ _ _

section Multipliers

variable {idx : Nat} {slot : MSlot} (hmul : L.kind idx slot.toSlot ≠ some true → missing)

include hmul

theorem onMultipliers_guarded (x : EStateM ConfigError (Driven MMulBlock) PUnit) :
    Guarded (Kept L channels) (Blames missing) (onMultipliers idx slot x) := by
  intro m hm
  have hother {block : Option MBlock} (hblock : m.lucidac.mBlock idx slot = block)
      (hkind : block.map MBlock.isMultipliers ≠ some true) :
      Blames missing (.fault .absentBlock) ∧ Kept L channels m := by
    refine ⟨fun _ => hmul ?_, hm⟩
    cases block with
    | none =>
      rw [hm.kind_of_empty_mBlock hblock]
      exact hkind
    | some block =>
      rw [hm.kind_of_mBlock hblock]
      exact hkind
  simp only [wp, onMultipliers]
  cases hblock : m.lucidac.mBlock idx slot with
  | none => exact hother hblock (by decide)
  | some block =>
    cases block with
    | integrators block => exact hother hblock (by simp [MBlock.isMultipliers])
    | multipliers block =>
      have hset (d : Driven MMulBlock) : Kept L channels
          ⟨m.lucidac.setMBlock idx slot (.multipliers d.block), d.asked⟩ := by
        refine hm.setMBlock hblock ?_ d.asked
        rfl
      dsimp only
      cases x ⟨block, m.asked⟩ with
      | ok a d => exact hset d
      | error e d => exact ⟨blames_configError missing e, hset d⟩

theorem changeCalibration_guarded (mulIdx : Fin 4) (f : MultiplierCalibration → MultiplierCalibration) :
    Guarded (Kept L channels) (Blames missing) (changeCalibration idx slot mulIdx f) :=
  onMultipliers_guarded hmul _

theorem calibrateOutputOffsets_guarded (hw : Hardware) :
    Guarded (Kept L channels) (Blames missing) (calibrateOutputOffsets hw idx slot) := by
  refine (sample_guarded hw).bind fun _ => Guarded.foldlM _ _ fun mulIdx _ success => ?_
  apply (writeOutputOffset_guarded hw _).bind
  intro ok
  exact (changeCalibration_guarded hmul mulIdx _).bind fun _ => Guarded.pure _

theorem calibrateInputXOffsets_guarded (hw : Hardware) (success : Bool) :
    Guarded (Kept L channels) (Blames missing) (calibrateInputXOffsets hw idx slot success) :=
  Guarded.foldlM _ _ fun mulIdx _ success => calibrateInputOffset_guarded hw
    (fun _ _ => writeInputOffsets_guarded hw _ _) (fun _ _ => changeCalibration_guarded hmul _ _)
    success mulIdx

theorem calibrateInputYOffsets_guarded (hw : Hardware) (success : Bool) :
    Guarded (Kept L channels) (Blames missing) (calibrateInputYOffsets hw idx slot success) :=
  Guarded.foldlM _ _ fun mulIdx _ success => calibrateInputOffset_guarded hw
    (fun _ _ => Guarded.get_bind fun _ _ => writeInputOffsets_guarded hw _ _)
    (fun _ _ => changeCalibration_guarded hmul _ _) success mulIdx

variable (hu : L.kind idx .u = none → missing) (hc : L.kind idx .c = none → missing)
  (hi : L.kind idx .i = none → missing)

include hu hc hi

theorem mMulCalibrate_guarded (hw : Hardware) :
    Guarded (Kept L channels) (Blames missing) (mMulCalibrate hw idx slot) := by
  have hfactor (input : Nat) (factor : ℚ) : Guarded (Kept L channels) (Blames missing)
      (setFactorOrReturn idx slot input factor) := tryBlock_guarded hc (fun _ _ => rfl) _
  have hfactors : Guarded (Kept L channels) (Blames missing) (writeFactors hw idx) :=
    (writeBlock_guarded hw hc).bind fun _ => calibrateOffsets_guarded hw idx
  apply (onMultipliers_guarded hmul _).seq
  apply (onMultipliers_guarded hmul _).seq
  apply (onMultipliers_guarded hmul _).seq
  apply (resetCluster_guarded idx _).seq
  apply (Guarded.forM _ fun input _ => addConstant_guarded hu hc hi _ _ _ _).seq
  have hwritten : Guarded (Kept L channels) (Blames missing) (clusterWriteToHardware hw idx) :=
    fun _ hm => hm.ask
  apply hwritten.bind
  intro written
  apply (requireTrue_guarded _).seq
  apply (calibrateOffsets_guarded hw idx).seq
  apply (calibrateOutputOffsets_guarded hmul hw).bind
  intro success
  apply (Guarded.forM _ fun mulIdx _ => hfactor _ _).seq
  apply hfactors.seq
  apply (calibrateInputXOffsets_guarded hmul hw success).bind
  intro success
  apply (Guarded.forM _ fun mulIdx _ => (hfactor _ _).bind fun _ => hfactor _ _).seq
  apply hfactors.seq
  exact (calibrateInputYOffsets_guarded hmul hw success).bind fun success =>
    requireTrue_guarded success

end Multipliers

theorem mBlockCalibrate_guarded {idx : Nat} {slot : MSlot}
    (hinstalled : L.kind idx slot.toSlot = none → missing) (hu : L.kind idx .u = none → missing)
    (hc : L.kind idx .c = none → missing) (hi : L.kind idx .i = none → missing) (hw : Hardware) :
    Guarded (Kept L channels) (Blames missing) (mBlockCalibrate hw idx slot) := by
  apply Guarded.get_bind
  intro m hm
  cases hblock : m.lucidac.mBlock idx slot with
  | none => exact Guarded.throw fun _ => hinstalled (hm.kind_of_empty_mBlock hblock)
  | some block =>
    cases block with
    | integrators block => exact Guarded.pure _
    | multipliers block =>
      refine mMulCalibrate_guarded (fun hne => absurd ?_ hne) hu hc hi hw
      exact hm.kind_of_mBlock hblock

end Calls

/-! ### The ADC channels during calibration -/

/-- What `calibrate_mblock` does to the channels keeps `R`. -/
structure ChannelInvariant (R : (Fin 8 → Int) → Prop) : Prop where
  cleared : R fun _ => -1
  set : ∀ (s : LUCIDAC) (idx : Nat) {adcChannel : Int}, adcChannel ≤ 15 → R s.adcChannels →
    R (s.setAdcChannel idx adcChannel).2.adcChannels

/-- A machine with this layout whose channels satisfy `R`. -/
def Holds (L : Layout) (R : (Fin 8 → Int) → Prop) (m : Machine) : Prop :=
  m.lucidac.layout = L ∧ R m.lucidac.adcChannels

section Holds

variable {L : Layout} {R : (Fin 8 → Int) → Prop} {missing : Prop} {α : Type}

theorem Holds.kept {m : Machine} (h : Holds L R m) : Kept L m.lucidac.adcChannels m := ⟨h.1, rfl⟩

theorem guarded_of_kept {E : Stop → Prop} {x : EStateM Stop Machine α}
    (h : ∀ channels, Guarded (Kept L channels) E x) : Guarded (Holds L R) E x := by
  intro m hm
  refine wp_mono (h m.lucidac.adcChannels m hm.kept) ?_ ?_
  · intro _ t ht
    exact ⟨ht.layout, ht.adcChannels ▸ hm.2⟩
  · intro _ t ht
    exact ⟨ht.1, ht.2.layout, ht.2.adcChannels ▸ hm.2⟩

theorem returned_guarded {P : Machine → Prop} {E : Stop → Prop} {x : EStateM Stop Machine PUnit}
    (hx : Guarded P E x) : Guarded P E (returned x) := by
  intro m hm
  have h := hx m hm
  simp only [wp, returned] at h ⊢
  cases hr : x m with
  | ok a t =>
    rw [hr] at h
    exact h
  | error e t =>
    rw [hr] at h
    cases e with
    | status s => exact h.2
    | fault f => exact h

theorem writeToHardware_guarded (hw : Hardware) :
    Guarded (Holds L R) (Blames missing) (writeToHardware hw) := fun _ hm => hm

theorem setAdcChannel_guarded (hR : ChannelInvariant R) (idx : Nat) {adcChannel : Int}
    (hmax : adcChannel ≤ 15) :
    Guarded (Holds L R) (Blames missing) (setAdcChannel idx adcChannel) := by
  intro m hm
  have hlayout : (m.lucidac.setAdcChannel idx adcChannel).2.layout = m.lucidac.layout := by
    obtain heq | ⟨i, heq⟩ | ⟨i, -, -, -, heq⟩ := m.lucidac.setAdcChannel_cases idx adcChannel
    · rw [heq]
    · rw [heq]
      rfl
    · rw [heq]
      rfl
  have hset : Holds L R { m with lucidac := (m.lucidac.setAdcChannel idx adcChannel).2 } :=
    ⟨hlayout.trans hm.1, hR.set m.lucidac idx hmax hm.2⟩
  rw [setAdcChannel, wp_attempt]
  split
  · exact hset
  · exact ⟨blames_status missing _, hset⟩

theorem slotToGlobalIoIndex_le (slot : MSlot) {idx : Nat} (h : idx < 8) :
    (slotToGlobalIoIndex slot idx : Int) ≤ 15 := by
  cases slot <;> simp only [slotToGlobalIoIndex] <;> omega

theorem calibrateMblock_guarded (hR : ChannelInvariant R) {idx : Nat} {slot : MSlot}
    (hinstalled : L.kind idx slot.toSlot = none → missing) (hu : L.kind idx .u = none → missing)
    (hc : L.kind idx .c = none → missing) (hi : L.kind idx .i = none → missing)
    (hctrl : L.ctrlBlock = false → missing) (hw : Hardware) :
    Guarded (Holds L R) (Blames missing) (calibrateMblock hw idx slot) := by
  have hrequire (c : Bool) : Guarded (Holds L R) (Blames missing) (require c returnFalse) :=
    Guarded.require c fun _ => blames_status missing _
  refine (Guarded.forM _ fun input _ => guarded_of_kept fun _ =>
    addConstant_guarded hu hc hi _ _ _ _).bind fun _ => ?_
  refine (Guarded.forM _ fun output houtput => setAdcChannel_guarded hR output
    (slotToGlobalIoIndex_le slot (List.mem_range.mp houtput))).bind fun _ => ?_
  refine (writeToHardware_guarded hw).bind fun written => (hrequire _).bind fun _ => ?_
  refine (guarded_of_kept fun _ =>
    calibrateRoutesInCluster_guarded hu hc hi hctrl hw).bind fun _ => ?_
  refine (returned_guarded (guarded_of_kept fun _ =>
    mBlockCalibrate_guarded hinstalled hu hc hi hw)).bind fun success => ?_
  apply (guarded_of_kept fun _ => resetCluster_guarded idx _).seq
  apply (guarded_of_kept fun _ => changeCtrlBlock_guarded hctrl _).seq
  apply (Guarded.modify fun m hm => ⟨hm.1, hR.cleared⟩).seq
  apply (writeToHardware_guarded hw).bind
  intro written
  exact (hrequire _).bind fun _ => hrequire success

/-- `missing` covers the slots that the calibration of math blocks needs, as far as there are any
math blocks. -/
theorem calibrateMBlocks_guarded (hR : ChannelInvariant R)
    (hslots : ∀ idx (slot : MSlot), L.kind idx slot.toSlot ≠ none →
      L.kind idx .u = none ∨ L.kind idx .c = none ∨ L.kind idx .i = none → missing)
    (hctrl : L.ctrlBlock = false → missing) (hw : Hardware) :
    Guarded (Holds L R) (Blames missing) (calibrateMBlocks hw) := by
  apply Guarded.get_bind
  intro m _
  refine (Guarded.foldlM _ _ fun position _ success => ?_).bind fun success =>
    Guarded.require success fun _ => blames_status missing _
  obtain ⟨idx, slot⟩ := position
  apply Guarded.get_bind
  intro m hm
  refine Guarded.ite (fun hsome => ?_) fun _ => Guarded.pure success
  obtain ⟨block, hblock⟩ := Option.isSome_iff_exists.mp hsome
  have hkind : L.kind idx slot.toSlot ≠ none := by
    rw [hm.kept.kind_of_mBlock hblock]
    exact Option.some_ne_none _
  have hneeded := hslots idx slot hkind
  refine (returned_guarded (calibrateMblock_guarded hR (fun h => absurd h hkind)
    (fun h => hneeded (Or.inl h)) (fun h => hneeded (Or.inr (Or.inl h)))
    (fun h => hneeded (Or.inr (Or.inr h))) hctrl hw)).bind fun ok => ?_
  exact Guarded.pure _

end Holds

end Lucidac.Platform
