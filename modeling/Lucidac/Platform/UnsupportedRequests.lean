import Lucidac.Platform.AbsentBlocks

/-!
# Unsupported requests reach an absent block

On hardware that accepts everything an unsupported request comes as far as the block that is
missing: the work before it has nothing to refuse.  Together with the frame of the supported
requests this gives the exact condition.
-/

namespace Lucidac.Platform

open Framework

/-- A machine whose U block, if there is one, is as a reset leaves it. -/
structure Fresh (L : Layout) (entityId : String) (m : Machine) : Prop where
  layout : m.lucidac.layout = L
  entityId : m.lucidac.entityId = entityId
  ublock : ∀ u, m.lucidac.block 0 .u = some u → u = UBlock.initial

theorem deref_absent {P : Machine → Prop} (idx : Nat) (slot : Slot) :
    Guarded P Stop.Absent (deref idx slot) := by
  intro m hm
  rw [wp_deref]
  cases m.lucidac.block idx slot with
  | none => exact ⟨Or.inl rfl, hm⟩
  | some block => exact hm

theorem changeBlock_absent {P : Machine → Prop} {idx : Nat} {slot : Slot}
    {f : slot.Content → slot.Content}
    (hP : ∀ m block, P m → m.lucidac.block idx slot = some block →
      P { m with lucidac := m.lucidac.setBlock idx slot (f block) }) :
    Guarded P Stop.Absent (changeBlock idx slot f) := by
  intro m hm
  rw [changeBlock, wp_bind, wp_deref]
  cases hblock : m.lucidac.block idx slot with
  | none => exact ⟨Or.inl rfl, hm⟩
  | some block => exact hP m block hm hblock

theorem deref_exits {L : Layout} {idx : Nat} {slot : Slot} (h : L.kind idx slot = none) :
    Exits (HasLayout L) Stop.Absent (deref idx slot) := by
  intro m hm
  rw [wp_deref]
  cases hblock : m.lucidac.block idx slot with
  | none => exact Or.inl rfl
  | some block =>
    exact absurd ((hm.kept.kind_of_block hblock).symm.trans h) (Option.some_ne_none _)

namespace Fresh

variable {L : Layout} {entityId : String} {m : Machine}

theorem hasLayout (h : Fresh L entityId m) : HasLayout L m := ⟨h.layout, trivial⟩

theorem setBlock (h : Fresh L entityId m) {idx : Nat} {slot : Slot} (hslot : slot ≠ .u)
    {old block : slot.Content} (hold : m.lucidac.block idx slot = some old)
    (hkind : slot.multipliers block = slot.multipliers old) (asked : Nat) :
    Fresh L entityId ⟨m.lucidac.setBlock idx slot block, asked⟩ := by
  refine ⟨(LUCIDAC.layout_setBlock hold hkind).trans h.layout, h.entityId, fun u hu => ?_⟩
  rw [LUCIDAC.block_setBlock_of_ne _ (Or.inr hslot.symm)] at hu
  exact h.ublock u hu

theorem setMBlock (h : Fresh L entityId m) {idx : Nat} {slot : MSlot} {old block : MBlock}
    (hold : m.lucidac.mBlock idx slot = some old)
    (hkind : block.isMultipliers = old.isMultipliers) (asked : Nat) :
    Fresh L entityId ⟨m.lucidac.setMBlock idx slot block, asked⟩ := by
  cases slot with
  | m0 => exact h.setBlock (by decide) hold hkind asked
  | m1 => exact h.setBlock (by decide) hold hkind asked

theorem reset (h : Fresh L entityId m) {action : ResetAction}
    (haction : action.has ResetAction.circuitReset = true) :
    Fresh L entityId { m with lucidac := m.lucidac.reset action } := by
  refine ⟨(layout_reset m.lucidac action).trans h.layout, ?_, fun u hu => ?_⟩
  · rw [← h.entityId]
    simp only [LUCIDAC.reset]
    split <;> rfl
  · rw [m.lucidac.block_reset, Option.map_eq_some_iff] at hu
    obtain ⟨old, -, rfl⟩ := hu
    exact if_pos haction

end Fresh

/-! ### The work before the configuration -/

section Before

variable {L : Layout} {entityId : String}

theorem writeToHardware_fresh (hw : Hardware) :
    Guarded (Fresh L entityId) Stop.Absent (writeToHardware hw) :=
  fun _ hm => ⟨hm.layout, hm.entityId, hm.ublock⟩

theorem resetBefore_fresh (hw : Hardware) :
    Guarded (Fresh L entityId) Stop.Absent (resetBefore hw) :=
  Guarded.bind (Guarded.modify fun _ hm => hm.reset (by decide)) fun _ =>
    (writeToHardware_fresh hw).bind fun _ => Guarded.pure _

theorem shKludge_fresh (hw : Hardware) : Guarded (Fresh L entityId) Stop.Absent (shKludge hw) := by
  apply shKludge_rule (writeToHardware_fresh hw)
  intro idx state _ _ _
  refine changeBlock_absent fun m block hm hblock => hm.setBlock (by decide) hblock ?_ m.asked
  rfl

theorem onMultipliers_fresh (idx : Nat) (slot : MSlot)
    {x : EStateM ConfigError (Driven MMulBlock) PUnit} (hx : ∀ d, ∃ t, x d = .ok ⟨⟩ t) :
    Guarded (Fresh L entityId) Stop.Absent (onMultipliers idx slot x) := by
  intro m hm
  simp only [wp, onMultipliers]
  cases hblock : m.lucidac.mBlock idx slot with
  | none => exact ⟨Or.inl rfl, hm⟩
  | some block =>
    cases block with
    | integrators block => exact ⟨Or.inl rfl, hm⟩
    | multipliers block =>
      obtain ⟨d, hd⟩ := hx ⟨block, m.asked⟩
      dsimp only
      rw [hd]
      refine hm.setMBlock hblock ?_ d.asked
      rfl

theorem mulCalibKludge_fresh (hL : L.Single) :
    Guarded (Fresh L entityId) Stop.Absent (mulCalibKludge willing) := by
  intro m hm
  apply mulCalibKludge_spec hL hm.hasLayout willing
  · intro e habsent _
    exact ⟨habsent, hm⟩
  · intro slot _ _
    exact Guarded.seq (onMultipliers_fresh 0 slot fun d => ⟨_, rfl⟩)
      (onMultipliers_fresh 0 slot fun d => ⟨_, rfl⟩) m hm

theorem mulCalibKludge_exits (hL : L.Single) (h : ¬ L.MultipliersInstalled) (hw : Hardware) :
    Exits (Fresh L entityId) Stop.Absent (mulCalibKludge hw) := by
  intro m hm
  apply mulCalibKludge_spec hL hm.hasLayout hw
  · intro e habsent _
    exact habsent
  · intro slot hinstalled _
    exact absurd hinstalled h

/-- `posRef` can be put on the first lane of a math block when the U block is fresh. -/
theorem tryConnect_fresh (slot : MSlot) {m : Machine} (hm : Fresh L entityId m) :
    wp (tryBlock 0 .u fun u =>
        UBlock.connectAlternative u .posRef (slotToGlobalIoIndex slot 0) false false)
      (fun _ => HasLayout L) (fun e _ => e.Absent) m := by
  rw [tryBlock, wp_bind, wp_deref]
  cases hblock : m.lucidac.block 0 .u with
  | none => exact Or.inl rfl
  | some u =>
    have hu := hm.ublock u hblock
    have haccepted : (UBlock.connectAlternative u .posRef (slotToGlobalIoIndex slot 0) false
        false).1 = true := by
      rw [hu]
      cases slot <;> decide
    dsimp only
    rw [wp_bind, wp_modify, wp_require, if_pos haccepted]
    refine ⟨(hm.hasLayout.kept.setBlock hblock ?_).layout, trivial⟩
    rfl

theorem addConstant_exits (h : ¬ L.RoutesInstalled) (slot : MSlot) (cFactor : ℚ) (iOut : Nat) :
    Exits (Fresh L entityId) Stop.Absent
      (addConstant 0 .posRef (slotToGlobalIoIndex slot 0) cFactor iOut) := by
  have hchange : Guarded (Fresh L entityId) Stop.Absent (changeBlock 0 .i fun i =>
      (IBlock.setUpscaling i (slotToGlobalIoIndex slot 0) (decide (1 < |cFactor|))).2) := by
    refine changeBlock_absent fun m block hm hblock => hm.setBlock (by decide) hblock ?_ m.asked
    rfl
  by_cases hi : L.kind 0 .i = none
  · refine Exits.bind ?_ _
    exact Exits.bind ((deref_exits hi).weaken fun m hm => hm.hasLayout) _
  · apply Exits.of_guarded hchange
    intro _
    by_cases hu : L.kind 0 .u = none
    · refine Exits.bind ?_ _
      exact Exits.bind ((deref_exits hu).weaken fun m hm => hm.hasLayout) _
    · have hc : L.kind 0 .c = none := by
        by_contra hc
        exact h ⟨hu, hc, hi⟩
      apply Exits.after (fun m hm => tryConnect_fresh slot hm)
      intro _
      exact Exits.bind (Exits.bind (deref_exits hc) _) _

theorem calibrateMblock_exits (h : ¬ L.RoutesInstalled) (slot : MSlot) (hw : Hardware) :
    Exits (Fresh L entityId) Stop.Absent (calibrateMblock hw 0 slot) := by
  refine Exits.bind ?_ _
  rw [show List.range 8 = 0 :: (List.range 8).tail from rfl, List.forM_cons]
  exact Exits.bind (addConstant_exits h slot _ _) _

theorem returned_exits {P : Machine → Prop} {x : EStateM Stop Machine PUnit}
    (hx : Exits P Stop.Absent x) : Exits P Stop.Absent (returned x) := by
  intro m hm
  rw [wp_returned]
  apply wp_mono (hx m hm) (fun _ _ h => h)
  intro e t he
  cases e with
  | status s => exact he
  | fault f => exact he

theorem calibrateOr_exits {P : Machine → Prop} {x : EStateM Stop Machine PUnit}
    (hx : Exits P Stop.Absent x) (failed : String) : Exits P Stop.Absent (calibrateOr x failed) :=
  (returned_exits hx).bind _

/-- A calibration that exits only with absent blocks cannot fail otherwise. -/
theorem calibrateOr_absent {P : Machine → Prop} {x : EStateM Stop Machine PUnit}
    (hx : Guarded P Stop.Absent x) (failed : String) :
    Guarded P Stop.Absent (calibrateOr x failed) := by
  intro m hm
  rw [calibrateOr, wp_bind, wp_returned]
  apply wp_mono (hx m hm) (fun _ _ ht => ht)
  intro e t he
  cases e with
  | status s => exact he.1.elim
  | fault f => exact he

theorem mBlock_eq_none {m : Machine} (hm : Fresh L entityId m) (slot : MSlot)
    (h : L.kind 0 slot.toSlot = none) : m.lucidac.mBlock 0 slot = none := by
  cases hblock : m.lucidac.mBlock 0 slot with
  | none => rfl
  | some block =>
    exact absurd ((hm.hasLayout.kept.kind_of_mBlock hblock).symm.trans h) (Option.some_ne_none _)

theorem wp_calibrateIfInstalled_empty {hw : Hardware} {position : Nat × MSlot} {m : Machine}
    (h : m.lucidac.mBlock position.1 position.2 = none) (success : Bool)
    (Q : Bool → Machine → Prop) (E : Stop → Machine → Prop) :
    wp (calibrateIfInstalled hw success position) Q E m = Q success m := by
  have hempty : ¬ (m.lucidac.mBlock position.1 position.2).isSome = true := by
    rw [h]
    exact Bool.false_ne_true
  rw [calibrateIfInstalled, wp_bind, wp_get, wp_ite, if_neg hempty, wp_pure]

theorem calibrateIfInstalled_exits (h : ¬ L.RoutesInstalled) (slot : MSlot)
    (hinstalled : L.kind 0 slot.toSlot ≠ none) (hw : Hardware) (success : Bool) :
    Exits (Fresh L entityId) Stop.Absent (calibrateIfInstalled hw success (0, slot)) := by
  apply Exits.get_bind
  intro m hm
  cases hblock : m.lucidac.mBlock 0 slot with
  | none => exact absurd (hm.hasLayout.kept.kind_of_empty_mBlock hblock) hinstalled
  | some block => exact Exits.bind (returned_exits (calibrateMblock_exits h slot hw)) _

/-- Without math blocks there is nothing to calibrate. -/
theorem calibrateMBlocks_absent (hL : L.Single) (hm0 : L.kind 0 .m0 = none)
    (hm1 : L.kind 0 .m1 = none) (hw : Hardware) :
    Guarded (Fresh L entityId) Stop.Absent (calibrateMBlocks hw) := by
  intro m hm
  have hempty0 := mBlock_eq_none hm .m0 hm0
  have hempty1 := mBlock_eq_none hm .m1 hm1
  rw [calibrateMBlocks, wp_bind, wp_get, clusters_length hL hm.hasLayout, wp_bind]
  change wp (List.foldlM (calibrateIfInstalled hw) true [(0, .m0), (0, .m1)]) _ _ m
  rw [List.foldlM_cons, wp_bind, wp_calibrateIfInstalled_empty hempty0, List.foldlM_cons, wp_bind,
    wp_calibrateIfInstalled_empty hempty1, List.foldlM_nil, wp_pure, wp_require, if_pos rfl]
  exact hm

theorem calibrateMBlocks_exits (hL : L.Single) (h : ¬ L.RoutesInstalled)
    (hinstalled : L.kind 0 .m0 ≠ none ∨ L.kind 0 .m1 ≠ none) (hw : Hardware) :
    Exits (Fresh L entityId) Stop.Absent (calibrateMBlocks hw) := by
  apply Exits.get_bind
  intro m hm
  rw [clusters_length hL hm.hasLayout]
  refine Exits.bind ?_ _
  change Exits _ _ (List.foldlM (calibrateIfInstalled hw) true [(0, .m0), (0, .m1)])
  rw [List.foldlM_cons]
  by_cases hm0 : L.kind 0 .m0 = none
  · refine Exits.of_guarded (fun t ht => ?_) fun success => ?_
    · rw [wp_calibrateIfInstalled_empty (mBlock_eq_none ht .m0 hm0)]
      exact ht
    · rw [List.foldlM_cons]
      have hm1 : L.kind 0 .m1 ≠ none := hinstalled.resolve_left fun hne => hne hm0
      exact Exits.bind (calibrateIfInstalled_exits h .m1 hm1 hw success) _
  · exact Exits.bind (calibrateIfInstalled_exits h .m0 hm0 hw true) _

end Before

/-! ### Configuration and calibration of routes -/

section After

variable {L : Layout} {entityId : String}

theorem writeToHardware_willing (s : LUCIDAC) (n : Nat) :
    (s.attemptedWrites (willing.outcomes n)).writeToHardware.isOk = true := by
  apply HardwareWrites.isOk_of_allOk
  refine ⟨?_, ?_, rfl, ?_, rfl⟩
  · intro cluster hcluster block hblock
    simp only [LUCIDAC.attemptedWrites, List.mem_map] at hcluster
    obtain ⟨installed, -, rfl⟩ := hcluster
    obtain ⟨slot, -, hslot⟩ := List.mem_map.mp hblock
    obtain ⟨content, -, rfl⟩ := Option.map_eq_some_iff.mp hslot
    rfl
  · intro hctrl
    obtain ⟨block, -, hfalse⟩ := Option.map_eq_some_iff.mp hctrl
    cases hfalse
  · intro panel hpanel
    obtain ⟨installed, -, rfl⟩ := Option.map_eq_some_iff.mp hpanel
    exact ⟨rfl, fun _ h => by cases h⟩

/-- The message with these options and an empty configuration of the carrier. -/
def emptyMessage (entityId : String) (options : ExtendedOptions) : Json :=
  .object [("entity", .array [.string entityId]), ("config", .object []),
    ("reset_before", .bool options.resetBefore), ("sh_kludge", .bool options.shKludge),
    ("mul_calib_kludge", .bool options.mulCalibKludge),
    ("calibrate_mblock", .bool options.calibrateMblock),
    ("calibrate_offset", .bool options.calibrateOffset),
    ("calibrate_routes", .bool options.calibrateRoutes)]

theorem ofJson_emptyMessage (options : ExtendedOptions) :
    ExtendedOptions.ofJson (emptyMessage entityId options) = options := rfl

theorem userSetConfig_fresh (lib : JsonLibrary) (options : ExtendedOptions) :
    Guarded (Fresh L entityId) Stop.Absent
      (userSetConfig lib willing (emptyMessage entityId options)) := by
  intro m hm
  have htarget : m.lucidac.setTarget lib [.string entityId] = .ok .carrier := by
    simp only [LUCIDAC.setTarget, List.map_cons, List.map_nil, JsonLibrary.asStdString]
    rw [hm.entityId, if_neg (not_not.mpr rfl)]
    rfl
  have hmember : ((emptyMessage entityId options).member "entity").asArray = [.string entityId] := rfl
  have hkeys : ((emptyMessage entityId options).containsKey "entity" &&
      (emptyMessage entityId options).containsKey "config") = true := rfl
  have hcfg : (emptyMessage entityId options).member "config" = .object [] := rfl
  have hconfig (Q : PUnit → Machine → Prop) (E : Stop → Machine → Prop) :
      wp (configFromJson lib willing .carrier (.object [])) Q E m = Q ⟨⟩ m := rfl
  have hwrite (Q : Status → Machine → Prop) (E : Stop → Machine → Prop) :
      wp (writeToHardware willing) Q E m =
        Q (m.lucidac.attemptedWrites (willing.outcomes m.asked)).writeToHardware
          { m with asked := m.asked + 1 } := rfl
  rw [userSetConfig, wp_bind, wp_require, if_pos hkeys, wp_bind, wp_get, hmember, htarget]
  dsimp only
  rw [wp_bind, hcfg, hconfig, wp_bind, hwrite, wp_require,
    if_pos (writeToHardware_willing m.lucidac m.asked)]
  exact ⟨hm.layout, hm.entityId, hm.ublock⟩

theorem HasLayout.setBlock {m : Machine} (h : HasLayout L m) {idx : Nat} {slot : Slot}
    {old block : slot.Content} (hold : m.lucidac.block idx slot = some old)
    (hkind : slot.multipliers block = slot.multipliers old) :
    HasLayout L { m with lucidac := m.lucidac.setBlock idx slot block } :=
  ⟨(LUCIDAC.layout_setBlock hold hkind).trans h.1, trivial⟩

/-- A change of a block that comes in no kinds. -/
theorem changePlain_absent {idx : Nat} {slot : Slot}
    (hkind : ∀ a b, slot.multipliers a = slot.multipliers b) (f : slot.Content → slot.Content) :
    Guarded (HasLayout L) Stop.Absent (changeBlock idx slot f) :=
  changeBlock_absent fun _ _ hm hblock => hm.setBlock hblock (hkind _ _)

theorem acceptedWrite_absent : Guarded (HasLayout L) Stop.Absent
    (do let ok ← askHardware willing; require ok returnFalse) := fun _ hm => hm

theorem writeBlock_absent (idx : Nat) (slot : Slot) :
    Guarded (HasLayout L) Stop.Absent (writeBlock willing idx slot) :=
  (deref_absent idx slot).bind fun _ => acceptedWrite_absent

theorem calibrateOffsets_absent {idx : Nat} (hu : L.kind idx .u ≠ none) (hsh : L.kind idx .sh ≠ none) :
    Guarded (HasLayout L) Stop.Absent (calibrateOffsets willing idx) := by
  apply Guarded.get_bind
  intro m hm
  have hinstalled : ((m.lucidac.block idx .u).isSome && (m.lucidac.block idx .sh).isSome) = true := by
    rw [Bool.and_eq_true, hm.kept.isSome_iff, hm.kept.isSome_iff]
    exact ⟨hu, hsh⟩
  rw [hinstalled]
  refine Guarded.bind (Guarded.pure _) fun _ => (deref_absent idx .u).bind fun _ => ?_
  apply (changePlain_absent (fun _ _ => rfl) _).seq
  apply (writeBlock_absent idx .u).seq
  apply (changePlain_absent (fun _ _ => rfl) _).seq
  apply (changePlain_absent (fun _ _ => rfl) _).seq
  exact writeBlock_absent idx .u

theorem calibrateOffset_absent (hL : L.Single) (hu : L.kind 0 .u ≠ none) (hsh : L.kind 0 .sh ≠ none) :
    Guarded (HasLayout L) Stop.Absent (calibrateOffset willing) := by
  apply Guarded.get_bind
  intro m hm
  rw [clusters_length hL hm]
  exact Guarded.forM _ fun idx hidx => by
    obtain rfl : idx = 0 := Nat.lt_one_iff.mp (List.mem_range.mp hidx)
    exact calibrateOffsets_absent hu hsh

theorem derefCtrlBlock_absent : Guarded (HasLayout L) Stop.Absent derefCtrlBlock := by
  apply Guarded.get_bind
  intro m hm
  cases m.lucidac.ctrlBlock with
  | some block => exact Guarded.pure block
  | none => exact Guarded.throw (Or.inl rfl)

theorem changeCtrlBlock_absent (hL : L.Single) (f : CTRLBlock → CTRLBlock) :
    Guarded (HasLayout L) Stop.Absent (changeCtrlBlock f) :=
  derefCtrlBlock_absent.bind fun block => Guarded.modify fun m hm => by
    refine ⟨?_, trivial⟩
    have hctrl : m.lucidac.layout.ctrlBlock = true := by
      rw [hm.1]
      exact hL.ctrlBlock
    rw [← hm.1]
    simp only [LUCIDAC.layout] at hctrl ⊢
    rw [hctrl]
    rfl

theorem clusterCalibrateRoutes_exits (h : ¬ L.RoutesInstalled) :
    Exits (HasLayout L) Stop.Absent (clusterCalibrateRoutes willing 0) := by
  by_cases hu : L.kind 0 .u = none
  · exact Exits.bind (deref_exits hu) _
  · apply Exits.of_guarded (deref_absent 0 .u)
    intro _
    by_cases hc : L.kind 0 .c = none
    · exact Exits.bind (deref_exits hc) _
    · have hi : L.kind 0 .i = none := by
        by_contra hi
        exact h ⟨hu, hc, hi⟩
      apply Exits.of_guarded (deref_absent 0 .c)
      intro _
      apply Exits.of_guarded (changePlain_absent (fun _ _ => rfl) _)
      intro _
      apply Exits.of_guarded (writeBlock_absent 0 .c)
      intro _
      exact Exits.bind (deref_exits hi) _

theorem lucidacCalibrateRoutes_exits (hL : L.Single) (h : ¬ L.RoutesInstalled) :
    Exits (HasLayout L) Stop.Absent (lucidacCalibrateRoutes willing) := by
  have hcluster : Exits (HasLayout L) Stop.Absent (calibrateRoutesInCluster willing 0) := by
    apply Exits.get_bind
    intro m _
    apply Exits.of_guarded derefCtrlBlock_absent
    intro _
    apply Exits.of_guarded (changeCtrlBlock_absent hL _)
    intro _
    apply Exits.of_guarded (derefCtrlBlock_absent.bind fun _ => acceptedWrite_absent)
    intro _
    exact Exits.bind (clusterCalibrateRoutes_exits h) _
  have hcarrier : Exits (HasLayout L) Stop.Absent (carrierCalibrateRoutes willing) := by
    apply Exits.get_bind
    intro m hm
    rw [clusters_length hL hm, show List.range 1 = [0] from rfl, forM_singleton]
    exact hcluster
  apply Exits.get_bind
  intro m _
  refine Exits.of_guarded (Guarded.modify fun _ hm => hm) fun _ t ht => ?_
  change wp (carrierCalibrateRoutes willing >>= _) _ _ { t with asked := t.asked + 1 }
  exact Exits.bind hcarrier _ _ ht

theorem setCircuit_exits (hL : L.Single) {options : ExtendedOptions} (h : ¬ L.Supports options)
    (lib : JsonLibrary) : Exits (Fresh L entityId) Stop.Absent
      (userSetExtendedConfig lib willing (emptyMessage entityId options)) := by
  rw [userSetExtendedConfig, ofJson_emptyMessage]
  apply Exits.of_guarded (onOption_guarded fun _ => resetBefore_fresh willing)
  intro _
  apply Exits.of_guarded (onOption_guarded fun _ => shKludge_fresh willing)
  intro _
  by_cases hmultipliers : options.mulCalibKludge = true → L.MultipliersInstalled
  · apply Exits.of_guarded (onOption_guarded fun _ => mulCalibKludge_fresh hL)
    intro _
    by_cases hmblocks : options.calibrateMblock = true →
        L.kind 0 .m0 ≠ none ∨ L.kind 0 .m1 ≠ none → L.RoutesInstalled
    · have hroutes : ¬ (options.calibrateRoutes = true → (options.calibrateOffset = true →
          L.kind 0 .u ≠ none ∧ L.kind 0 .sh ≠ none) → L.RoutesInstalled) :=
        fun hroutes => h ⟨hmultipliers, hmblocks, hroutes⟩
      obtain ⟨hoption, hroutes⟩ := Classical.not_imp.mp hroutes
      obtain ⟨hblocks, hmissing⟩ := Classical.not_imp.mp hroutes
      refine Exits.of_guarded (onOption_guarded fun hcalibrate => ?_) fun _ => ?_
      · have hnone {slot : Slot} (hslot : slot = .m0 ∨ slot = .m1) : L.kind 0 slot = none := by
          by_contra hinstalled
          refine hmissing (hmblocks hcalibrate ?_)
          obtain rfl | rfl := hslot
          · exact Or.inl hinstalled
          · exact Or.inr hinstalled
        exact calibrateOr_absent
          (calibrateMBlocks_absent hL (hnone (Or.inl rfl)) (hnone (Or.inr rfl)) willing) _
      · apply Exits.of_guarded (userSetConfig_fresh lib options)
        intro _
        refine Exits.weaken ?_ fun _ hm => hm.hasLayout
        refine Exits.of_guarded (onOption_guarded fun hoffset => ?_) fun _ => ?_
        · exact calibrateOr_absent
            (calibrateOffset_absent hL (hblocks hoffset).1 (hblocks hoffset).2) _
        · rw [hoption]
          exact calibrateOr_exits (lucidacCalibrateRoutes_exits hL hmissing) _
    · obtain ⟨hoption, hmblocks⟩ := Classical.not_imp.mp hmblocks
      obtain ⟨hinstalled, hmissing⟩ := Classical.not_imp.mp hmblocks
      rw [hoption]
      exact Exits.bind (calibrateOr_exits (calibrateMBlocks_exits hL hmissing hinstalled willing) _) _
  · obtain ⟨hoption, hmissing⟩ := Classical.not_imp.mp hmultipliers
    rw [hoption]
    exact Exits.bind (mulCalibKludge_exits hL hmissing willing) _

end After

/-! ### Sessions -/

/-- A LUCIDAC as `init` leaves it: one cluster with any blocks in it, all of them reset. -/
structure LUCIDAC.Initialised (s : LUCIDAC) : Prop where
  clusters : ∃ blocks, s.clusters = [⟨0, blocks⟩]
  ctrlBlock : s.ctrlBlock.isSome = true
  reset : ∀ slot block, s.block 0 slot = some block →
    slot.reset block ⟨ResetAction.everything⟩ = block

/-- The machines that a client can bring about by requests, as long as they are answered. -/
inductive Reachable (lib : JsonLibrary) (hw : Hardware) (s : LUCIDAC) : Machine → Prop where
  | start : Reachable lib hw s ⟨s, 0⟩
  | answered {m t : Machine} (request : Request) (h : Reachable lib hw s m)
      (hanswer : request.serve lib hw m = .ok ⟨⟩ t ∨
        ∃ status, request.serve lib hw m = .error (.status status) t) : Reachable lib hw s t

theorem LUCIDAC.Initialised.single {s : LUCIDAC} (h : s.Initialised) : s.layout.Single := by
  obtain ⟨blocks, hclusters⟩ := h.clusters
  refine ⟨?_, fun idx slot hidx => ?_, h.ctrlBlock⟩
  · simp only [layout]
    rw [hclusters]
    rfl
  · simp only [layout, block]
    rw [hclusters, List.getElem?_singleton, if_neg hidx]
    rfl

theorem LUCIDAC.Initialised.fresh {s : LUCIDAC} (h : s.Initialised) :
    Fresh s.layout s.entityId ⟨s, 0⟩ := by
  refine ⟨rfl, rfl, fun u hu => ?_⟩
  have hreset : ResetAction.has ⟨ResetAction.everything⟩ ResetAction.circuitReset = true := by decide
  have hinitial : UBlock.reset u ⟨ResetAction.everything⟩ = UBlock.initial := if_pos hreset
  exact (h.reset .u u hu).symm.trans hinitial

theorem Reachable.hasLayout {lib : JsonLibrary} {hw : Hardware} {s : LUCIDAC} (hs : s.Initialised)
    {m : Machine} (h : Reachable lib hw s m) : HasLayout s.layout m := by
  induction h with
  | start => exact ⟨rfl, trivial⟩
  | answered request _ hanswer ih =>
    have hguarded := serve_guarded hs.single lib hw request _ ih
    simp only [wp] at hguarded
    obtain hok | ⟨status, herror⟩ := hanswer
    · rw [hok] at hguarded
      exact hguarded
    · rw [herror] at hguarded
      exact hguarded.2

/-- Neither an absent block nor a pointer without a value is used. -/
def Request.UsesInstalled (lib : JsonLibrary) (hw : Hardware) (request : Request) (m : Machine) :
    Prop := ∀ e t, request.serve lib hw m = .error e t → ¬ e.Absent

theorem not_usesInstalled_of_exits {P : Machine → Prop} {lib : JsonLibrary} {hw : Hardware}
    {request : Request} (h : Exits P Stop.Absent (request.serve lib hw)) {m : Machine} (hm : P m) :
    ¬ request.UsesInstalled lib hw m := by
  intro hinstalled
  have hexit := h m hm
  simp only [wp] at hexit
  cases hserve : request.serve lib hw m with
  | ok a t =>
    rw [hserve] at hexit
    exact hexit
  | error e t =>
    rw [hserve] at hexit
    exact hinstalled e t hserve hexit

/-- The request of this kind that comes as far as a missing block. -/
def Kind.request (entityId : String) : Kind → Request
  | .setCircuit options => .setCircuit (emptyMessage entityId options)
  | .resetCircuit => .resetCircuit .null
  | .getCircuit => .getCircuit .null
  | .overloadStatus => .overloadStatus .null
  | .run calibrate => .run calibrate

theorem Kind.kind_request (entityId : String) (kind : Kind) : (kind.request entityId).kind = kind := by
  cases kind <;> rfl

theorem request_exits {L : Layout} (hL : L.Single) {kind : Kind} (h : ¬ kind.Supported L)
    (entityId : String) (lib : JsonLibrary) :
    Exits (Fresh L entityId) Stop.Absent ((kind.request entityId).serve lib willing) := by
  cases kind with
  | setCircuit options => exact setCircuit_exits hL h lib
  | run calibrate =>
    obtain ⟨hcalibrate, hmissing⟩ := Classical.not_imp.mp h
    rw [hcalibrate]
    refine Exits.weaken ?_ fun _ hm => hm.hasLayout
    exact Exits.bind (returned_exits (lucidacCalibrateRoutes_exits hL hmissing)) _
  | resetCircuit => exact absurd trivial h
  | getCircuit => exact absurd trivial h
  | overloadStatus => exact absurd trivial h

/-- In every session on an initialised LUCIDAC the requests of a kind use installed blocks and
assigned pointers only, exactly when the installed blocks support the kind. -/
theorem requests_useInstalled_iff {s : LUCIDAC} (hs : s.Initialised) (kind : Kind) :
    (∀ (lib : JsonLibrary) (hw : Hardware) (m : Machine) (request : Request),
      Reachable lib hw s m → request.kind = kind → request.UsesInstalled lib hw m) ↔
      kind.Supported s.layout := by
  constructor
  · intro hsafe
    by_contra hunsupported
    refine not_usesInstalled_of_exits
      (request_exits hs.single hunsupported s.entityId LUCIDAC.scalarJson) hs.fresh ?_
    exact hsafe _ _ _ _ .start (kind.kind_request s.entityId)
  · intro hsupported lib hw m request hm hkind e t herror habsent
    have hguarded := serve_guarded hs.single lib hw request m (hm.hasLayout hs)
    simp only [wp] at hguarded
    rw [herror, hkind] at hguarded
    exact hguarded.1 habsent hsupported

/-- Integrators in the first slot, multipliers in the second, and every other block. -/
def LUCIDAC.equipped : LUCIDAC :=
  { bare with clusters := [⟨0, fun
    | .m0 => some (.integrators .initial)
    | .m1 => some (.multipliers .initial)
    | .u => some .initial
    | .c => some .initial
    | .i => some .initial
    | .sh => some ⟨.inject⟩⟩] }

theorem LUCIDAC.initialised_equipped : LUCIDAC.equipped.Initialised where
  clusters := ⟨_, rfl⟩
  ctrlBlock := rfl
  reset := fun slot _ hblock => by
    cases slot <;> (cases hblock; rfl)

/-- With every block installed a message may ask for everything. -/
theorem requests_useInstalled_equipped :
    LUCIDAC.equipped.Initialised ∧
      ∀ (lib : JsonLibrary) (hw : Hardware) (m : Machine) (request : Request),
        Reachable lib hw LUCIDAC.equipped m →
        request.kind = .setCircuit ⟨true, true, true, true, true, true⟩ →
        request.UsesInstalled lib hw m := by
  have hroutes : LUCIDAC.equipped.layout.RoutesInstalled :=
    ⟨Option.some_ne_none _, Option.some_ne_none _, Option.some_ne_none _⟩
  have hmultipliers : LUCIDAC.equipped.layout.MultipliersInstalled :=
    ⟨Option.some_ne_none _, Option.some_ne_none _, Or.inr rfl⟩
  refine ⟨LUCIDAC.initialised_equipped, ?_⟩
  apply (requests_useInstalled_iff LUCIDAC.initialised_equipped _).mpr
  exact ⟨fun _ => hmultipliers, fun _ _ => hroutes, fun _ _ => hroutes⟩

theorem LUCIDAC.initialised_bare : LUCIDAC.bare.Initialised where
  clusters := ⟨_, rfl⟩
  ctrlBlock := rfl
  reset := fun _ _ hblock => by cases hblock

/-- Integrators in both slots and no other block. -/
def LUCIDAC.integratorsOnly : LUCIDAC :=
  { bare with clusters := [⟨0, fun
    | .m0 => some (.integrators .initial)
    | .m1 => some (.integrators .initial)
    | .u | .c | .i | .sh => none⟩] }

theorem LUCIDAC.initialised_integratorsOnly : LUCIDAC.integratorsOnly.Initialised where
  clusters := ⟨_, rfl⟩
  ctrlBlock := rfl
  reset := fun slot _ hblock => by
    cases slot <;> (cases hblock; try rfl)

/-- An empty message makes a LUCIDAC without blocks use an absent one, and a LUCIDAC with two
integrator blocks a pointer that was never assigned.  A calibrated run needs the U block. -/
theorem requests_useAbsent :
    LUCIDAC.bare.Initialised ∧ LUCIDAC.integratorsOnly.Initialised ∧
    (∃ t, (Request.setCircuit (.object [])).serve LUCIDAC.scalarJson willing ⟨.bare, 0⟩ =
      .error (.fault .absentBlock) t) ∧
    (∃ t, (Request.setCircuit (.object [])).serve LUCIDAC.scalarJson willing ⟨.integratorsOnly, 0⟩ =
      .error (.fault .unassigned) t) ∧
    (∃ t, (Request.run true).serve LUCIDAC.scalarJson willing ⟨.bare, 0⟩ =
      .error (.fault .absentBlock) t) ∧
    ¬ (Request.setCircuit (.object [])).UsesInstalled LUCIDAC.scalarJson willing ⟨.bare, 0⟩ := by
  refine ⟨LUCIDAC.initialised_bare, LUCIDAC.initialised_integratorsOnly, ⟨_, rfl⟩, ⟨_, rfl⟩,
    ⟨_, rfl⟩, ?_⟩
  intro hinstalled
  exact hinstalled _ _ rfl (Or.inl rfl)

end Lucidac.Platform
