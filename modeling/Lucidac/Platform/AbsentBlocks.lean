import Lucidac.Platform.ConfigFrame
import Lucidac.Platform.Requests

/-!
# Requests on any set of blocks

Initialisation accepts every set of blocks, so each request has to ask before it uses one.  Most
do.  The exceptions are the two math blocks in the work for the multipliers, and the U, C and I
blocks in the calibration of routes.  A request of some kind reaches one of them exactly when the
kind is not supported by the installed blocks.
-/

namespace Lucidac.Platform

open Framework

/-- What a request asks for, apart from the entity and its configuration. -/
inductive Kind where
  | setCircuit (options : ExtendedOptions)
  | resetCircuit
  | getCircuit
  | overloadStatus
  | run (calibrate : Bool)

def Request.kind : Request → Kind
  | .setCircuit msg => .setCircuit (.ofJson msg)
  | .resetCircuit _ => .resetCircuit
  | .getCircuit _ => .getCircuit
  | .overloadStatus _ => .overloadStatus
  | .run calibrate => .run calibrate

namespace Layout

/-- The blocks of a route are there. -/
def RoutesInstalled (L : Layout) : Prop :=
  L.kind 0 .u ≠ none ∧ L.kind 0 .c ≠ none ∧ L.kind 0 .i ≠ none

/-- Both math blocks are there, and one of them has multipliers. -/
def MultipliersInstalled (L : Layout) : Prop :=
  L.kind 0 .m0 ≠ none ∧ L.kind 0 .m1 ≠ none ∧
    (L.kind 0 .m0 = some true ∨ L.kind 0 .m1 = some true)

/-- The options of `user_set_extended_config` that the blocks support. -/
structure Supports (L : Layout) (options : ExtendedOptions) : Prop where
  multipliers : options.mulCalibKludge = true → L.MultipliersInstalled
  mblocks : options.calibrateMblock = true → L.kind 0 .m0 ≠ none ∨ L.kind 0 .m1 ≠ none →
    L.RoutesInstalled
  routes : options.calibrateRoutes = true →
    (options.calibrateOffset = true → L.kind 0 .u ≠ none ∧ L.kind 0 .sh ≠ none) → L.RoutesInstalled

/-- One cluster and the CTRL block, as the initialisation leaves them. -/
structure Single (L : Layout) : Prop where
  clusterCount : L.clusterCount = 1
  others : ∀ idx slot, idx ≠ 0 → L.kind idx slot = none
  ctrlBlock : L.ctrlBlock = true

end Layout

def Kind.Supported (L : Layout) : Kind → Prop
  | .setCircuit options => L.Supports options
  | .run calibrate => calibrate = true → L.RoutesInstalled
  | .resetCircuit | .getCircuit | .overloadStatus => True

/-! ### Supported requests -/

theorem layout_reset (s : LUCIDAC) (action : ResetAction) : (s.reset action).layout = s.layout := by
  have hcount : (s.reset action).clusters.length = s.clusters.length := by
    simp only [LUCIDAC.reset]
    split <;> exact List.length_map ..
  have hkinds : (s.reset action).layout.kind = s.layout.kind := by
    funext idx slot
    simp only [LUCIDAC.layout]
    rw [s.block_reset, Option.map_map]
    congr 1
    funext block
    exact slot.multipliers_reset block action
  simp only [LUCIDAC.layout] at hkinds ⊢
  rw [hcount, hkinds, s.ctrlBlock_reset, s.frontPanel_reset, Option.isSome_map, Option.isSome_map]

theorem wp_returned (x : EStateM Stop Machine PUnit) (Q : Bool → Machine → Prop)
    (E : Stop → Machine → Prop) (m : Machine) :
    wp (returned x) Q E m = wp x (fun _ => Q true) (fun e t => match e with
      | .status _ => Q false t
      | .fault f => E (.fault f) t) m := by
  simp only [wp, returned]
  cases x m with
  | ok a t => rfl
  | error e t => cases e <;> rfl

section Supported

variable {L : Layout} {missing : Prop}

theorem clusters_length (hL : L.Single) {m : Machine} (hm : HasLayout L m) :
    m.lucidac.clusters.length = 1 := by
  have hcount : m.lucidac.layout.clusterCount = L.clusterCount := by rw [hm.1]
  exact hcount.trans hL.clusterCount

theorem routes_missing (h : ¬ L.RoutesInstalled → missing) {slot : Slot}
    (hslot : slot = .u ∨ slot = .c ∨ slot = .i) : L.kind 0 slot = none → missing := by
  intro hnone
  apply h
  intro hinstalled
  obtain rfl | rfl | rfl := hslot
  · exact hinstalled.1 hnone
  · exact hinstalled.2.1 hnone
  · exact hinstalled.2.2 hnone

theorem onOption_guarded {P : Machine → Prop} {E : Stop → Prop} {option : Bool}
    {x : EStateM Stop Machine PUnit} (hx : option = true → Guarded P E x) :
    Guarded P E (onOption option x) := Guarded.ite hx fun _ => Guarded.pure _

theorem calibrateOr_guarded {x : EStateM Stop Machine PUnit} {E : Stop → Prop}
    (hx : Guarded (HasLayout L) E x) (hstatus : ∀ s, E (.status s)) (failed : String) :
    Guarded (HasLayout L) E (calibrateOr x failed) :=
  (returned_guarded hx).bind fun ok => Guarded.require ok fun _ => hstatus _

theorem lucidacCalibrateRoutes_guarded (hL : L.Single) (h : ¬ L.RoutesInstalled → missing)
    (hw : Hardware) : Guarded (HasLayout L) (Blames missing) (lucidacCalibrateRoutes hw) := by
  have hask : Guarded (HasLayout L) (Blames missing) (askHardware hw) := fun _ hm => hm
  have hcarrier : Guarded (HasLayout L) (Blames missing) (carrierCalibrateRoutes hw) := by
    apply Guarded.get_bind
    intro m hm
    rw [clusters_length hL hm]
    refine Guarded.forM _ fun idx hidx => guarded_of_kept fun _ => ?_
    obtain rfl : idx = 0 := Nat.lt_one_iff.mp (List.mem_range.mp hidx)
    exact calibrateRoutesInCluster_guarded (routes_missing h (Or.inl rfl))
      (routes_missing h (Or.inr (Or.inl rfl))) (routes_missing h (Or.inr (Or.inr rfl)))
      (fun hctrl => absurd (hctrl.symm.trans hL.ctrlBlock) Bool.false_ne_true) hw
  refine Guarded.get_bind fun m _ => Guarded.bind (Guarded.modify fun _ hm => hm) fun _ => ?_
  refine hask.bind fun written => (require_guarded written _).bind fun _ => ?_
  refine hcarrier.bind fun _ => Guarded.bind (Guarded.modify fun _ hm => hm) fun _ => ?_
  exact hask.bind fun restored => require_guarded restored _

theorem calibrateOffset_guarded (hw : Hardware) :
    Guarded (HasLayout L) (Blames missing) (calibrateOffset hw) :=
  Guarded.get_bind fun _ _ => Guarded.forM _ fun idx _ => guarded_of_kept fun _ =>
    calibrateOffsets_guarded hw idx

theorem resetLucidac_guarded {E : Stop → Prop} (action : ResetAction) :
    Guarded (HasLayout L) E (resetLucidac action) :=
  Guarded.modify fun m hm => ⟨(layout_reset m.lucidac action).trans hm.1, trivial⟩

/-- The work for the SH block asks whether it is there. -/
theorem shKludge_rule {P : Machine → Prop} {E : Stop → Prop} {hw : Hardware}
    (hwrite : Guarded P E (writeToHardware hw))
    (hchange : ∀ idx state m, P m → (m.lucidac.block idx .sh).isSome = true →
      Guarded P E (changeBlock idx .sh fun sh => SHBlock.setState sh state)) :
    Guarded P E (shKludge hw) := by
  refine Guarded.get_bind fun _ _ => Guarded.forM _ fun idx _ => Guarded.get_bind fun m hm => ?_
  refine Guarded.ite (fun hinstalled => ?_) fun _ => Guarded.pure _
  apply (hchange idx .track m hm hinstalled).seq
  apply hwrite.seq
  apply (hchange idx .inject m hm hinstalled).seq
  exact hwrite.seq (Guarded.pure _)

theorem shKludge_guarded (hw : Hardware) :
    Guarded (HasLayout L) (Blames missing) (shKludge hw) := by
  apply shKludge_rule (writeToHardware_guarded hw)
  intro idx state m hm hinstalled
  have hsh : L.kind idx .sh = none → missing := fun h => absurd h (kind_ne_none hm hinstalled)
  exact guarded_of_kept fun _ => changeBlock_guarded hsh (fun _ _ => rfl) _

/-- The pointer to a multiplier block after the cluster was looked at. -/
def foundMulblock (L : Layout) (idx : Nat) (mulblock : Option (Nat × MSlot)) : Option (Nat × MSlot) :=
  if L.kind idx .m1 = some true then some (idx, .m1)
  else if L.kind idx .m0 = some true then some (idx, .m0)
  else mulblock

theorem findMulblock_spec {m : Machine} (hm : HasLayout L m) (mulblock : Option (Nat × MSlot))
    (idx : Nat) :
    wp (findMulblock mulblock idx)
      (fun found t => (found = foundMulblock L idx mulblock ∧
        L.kind idx .m0 ≠ none ∧ L.kind idx .m1 ≠ none) ∧ t = m)
      (fun e t => (e = .fault .absentBlock ∧ (L.kind idx .m0 = none ∨ L.kind idx .m1 = none)) ∧ t = m)
      m := by
  rw [findMulblock, wp_bind, wp_deref]
  cases hm0 : m.lucidac.block idx .m0 with
  | none => exact ⟨⟨rfl, Or.inl (hm.kept.kind_of_empty hm0)⟩, rfl⟩
  | some m0block =>
    dsimp only
    rw [wp_bind, wp_deref]
    cases hm1 : m.lucidac.block idx .m1 with
    | none => exact ⟨⟨rfl, Or.inr (hm.kept.kind_of_empty hm1)⟩, rfl⟩
    | some m1block =>
      have hkind0 := hm.kept.kind_of_block hm0
      have hkind1 := hm.kept.kind_of_block hm1
      refine ⟨⟨?_, ?_, ?_⟩, rfl⟩
      · simp only [foundMulblock]
        rw [hkind0, hkind1]
        simp only [Slot.multipliers, Option.some.injEq]
      · rw [hkind0]
        exact Option.some_ne_none _
      · rw [hkind1]
        exact Option.some_ne_none _

theorem foundMulblock_kind {idx : Nat} {found : Nat × MSlot}
    (h : foundMulblock L idx none = some found) :
    found.1 = idx ∧ L.kind idx found.2.toSlot = some true := by
  simp only [foundMulblock] at h
  split at h
  · rename_i hkind
    cases h
    exact ⟨rfl, hkind⟩
  · split at h
    · rename_i hkind
      cases h
      exact ⟨rfl, hkind⟩
    · cases h

/-- The work for the multipliers either finds a multiplier block and is done with it, or ends in
the state where it began. -/
theorem mulCalibKludge_spec (hL : L.Single) {m : Machine} (hm : HasLayout L m) (hw : Hardware)
    {Q : PUnit → Machine → Prop} {E : Stop → Machine → Prop}
    (hmissing : ∀ e : Stop, e.Absent → ¬ L.MultipliersInstalled → E e m)
    (hfound : ∀ slot : MSlot, L.MultipliersInstalled → L.kind 0 slot.toSlot = some true →
      wp (onMultipliers 0 slot (MMulBlock.attaching "(mul_calib_kludge)"
          (MMulBlock.readCalibrationFromEeprom hw.toMMulHardware)) >>= fun _ =>
        onMultipliers 0 slot (MMulBlock.attaching "(mul_calib_kludge)"
          (MMulBlock.writeCalibrationToHardware hw.toMMulHardware))) Q E m) :
    wp (mulCalibKludge hw) Q E m := by
  rw [mulCalibKludge, wp_bind, wp_get, clusters_length hL hm, wp_bind]
  rw [show List.range 1 = [0] from rfl, List.foldlM_cons, wp_bind]
  refine wp_mono (findMulblock_spec hm none 0) ?_ ?_
  · intro found t hspec
    obtain ⟨⟨hfoundEq, hm0, hm1⟩, rfl⟩ := hspec
    rw [List.foldlM_nil, wp_pure]
    cases found with
    | none =>
      apply hmissing (.fault .unassigned) (Or.inr rfl)
      intro hinstalled
      simp only [foundMulblock] at hfoundEq
      obtain hkind | hkind := hinstalled.2.2
      · rw [if_pos hkind] at hfoundEq
        split at hfoundEq <;> cases hfoundEq
      · rw [if_pos hkind] at hfoundEq
        cases hfoundEq
    | some found =>
      obtain ⟨idx, slot⟩ := found
      obtain ⟨rfl, hkind⟩ := foundMulblock_kind hfoundEq.symm
      refine hfound slot ⟨hm0, hm1, ?_⟩ hkind
      cases slot with
      | m0 => exact Or.inl hkind
      | m1 => exact Or.inr hkind
  · intro e t hspec
    obtain ⟨⟨rfl, habsent⟩, rfl⟩ := hspec
    apply hmissing (.fault .absentBlock) (Or.inl rfl)
    intro hinstalled
    exact habsent.elim hinstalled.1 hinstalled.2.1

theorem mulCalibKludge_guarded (hL : L.Single) (h : ¬ L.MultipliersInstalled → missing)
    (hw : Hardware) : Guarded (HasLayout L) (Blames missing) (mulCalibKludge hw) := by
  intro m hm
  apply mulCalibKludge_spec hL hm hw
  · intro e _ hmissing
    exact ⟨fun _ => h hmissing, hm⟩
  · intro slot _ hkind
    have hguarded (x : EStateM ConfigError (Driven MMulBlock) PUnit) : Guarded (HasLayout L)
        (Blames missing) (onMultipliers 0 slot x) :=
      guarded_of_kept fun _ => onMultipliers_guarded (fun hne => absurd hkind hne) x
    exact (hguarded _).seq (hguarded _) m hm

/-- Without its blocks the compensation of offsets always ends the request. -/
theorem calibrateOffset_exits (hL : L.Single)
    (h : ¬ (L.kind 0 .u ≠ none ∧ L.kind 0 .sh ≠ none)) (hw : Hardware) (failed : String) :
    Exits (HasLayout L) (fun _ => True) (calibrateOr (calibrateOffset hw) failed) := by
  intro m hm
  have hrefused : ¬ ((m.lucidac.block 0 .u).isSome && (m.lucidac.block 0 .sh).isSome) = true := by
    rw [Bool.and_eq_true, hm.kept.isSome_iff, hm.kept.isSome_iff]
    exact h
  rw [calibrateOr, wp_bind, wp_returned, calibrateOffset, wp_bind, wp_get, clusters_length hL hm]
  rw [show List.range 1 = [0] from rfl, forM_singleton]
  simp only [calibrateOffsets, wp_bind, wp_get, wp_require]
  rw [if_neg hrefused]
  trivial

theorem userSetExtendedConfig_guarded (hL : L.Single) (lib : JsonLibrary) (hw : Hardware)
    (msg : Json) (h : ¬ L.Supports (.ofJson msg) → missing) :
    Guarded (HasLayout L) (Blames missing) (userSetExtendedConfig lib hw msg) := by
  have hstatus : ∀ s, Blames missing (.status s) := blames_status missing
  refine (onOption_guarded fun _ => ?_).bind fun _ => ?_
  · exact (resetLucidac_guarded _).bind fun _ => (writeToHardware_guarded hw).bind fun _ =>
      Guarded.pure _
  apply (onOption_guarded fun _ => shKludge_guarded hw).seq
  refine (onOption_guarded fun hoption => ?_).bind fun _ => ?_
  · exact mulCalibKludge_guarded hL (fun hmissing => h fun hsupports =>
      hmissing (hsupports.multipliers hoption)) hw
  refine (onOption_guarded fun hoption => ?_).bind fun _ => ?_
  · refine calibrateOr_guarded (calibrateMBlocks_guarded ⟨trivial, fun _ _ _ _ _ => trivial⟩ ?_ ?_ hw)
      hstatus _
    · intro idx slot hinstalled hneeded
      apply h
      intro hsupports
      by_cases hidx : idx = 0
      · subst hidx
        have hmblock : L.kind 0 .m0 ≠ none ∨ L.kind 0 .m1 ≠ none := by
          cases slot with
          | m0 => exact Or.inl hinstalled
          | m1 => exact Or.inr hinstalled
        obtain ⟨hu, hc, hi⟩ := hsupports.mblocks hoption hmblock
        exact hneeded.elim hu fun hneeded => hneeded.elim hc hi
      · exact hinstalled (hL.others idx _ hidx)
    · exact fun hctrl => absurd (hctrl.symm.trans hL.ctrlBlock) Bool.false_ne_true
  apply (userSetConfig_guarded lib hw msg).seq
  have hoffset (failed : String) : Guarded (HasLayout L) (Blames missing)
      (calibrateOr (calibrateOffset hw) failed) :=
    calibrateOr_guarded (calibrateOffset_guarded hw) hstatus failed
  by_cases hblocks : (ExtendedOptions.ofJson msg).calibrateOffset = true →
      L.kind 0 .u ≠ none ∧ L.kind 0 .sh ≠ none
  · refine (onOption_guarded fun _ => hoffset _).bind fun _ => onOption_guarded fun hoption => ?_
    refine calibrateOr_guarded (lucidacCalibrateRoutes_guarded hL ?_ hw) hstatus _
    exact fun hmissing => h fun hsupports => hmissing (hsupports.routes hoption hblocks)
  · -- the calibration of offsets fails, so that of the routes is not reached
    obtain ⟨hoption, habsent⟩ := Classical.not_imp.mp hblocks
    rw [hoption]
    exact (hoffset _).bind_of_exits (calibrateOffset_exits hL habsent hw _) _

theorem useEntity_guarded {m : Machine} (hm : HasLayout L m) {ref : Ref}
    (href : m.lucidac.Installed ref) :
    Guarded (HasLayout L) (Blames missing) (useEntity ref) := by
  cases ref with
  | carrier => exact Guarded.pure _
  | cluster idx =>
    refine Guarded.get_bind fun _ _ => Guarded.require _ fun _ habsent => ?_
    obtain h | h := habsent <;> cases h
  | ctrlBlock =>
    refine Guarded.bind (guarded_of_kept fun _ => derefCtrlBlock_guarded fun h => ?_)
      fun _ => Guarded.pure _
    rw [← hm.1] at h
    exact absurd (h.symm.trans href) Bool.false_ne_true
  | frontPanel =>
    refine Guarded.get_bind fun t ht => Guarded.require _ fun h => ?_
    have hpanel : t.lucidac.layout.frontPanel = m.lucidac.layout.frontPanel := by rw [hm.1, ht.1]
    exact absurd (h.symm.trans (hpanel.trans href)) Bool.false_ne_true
  | block idx slot =>
    refine Guarded.bind (guarded_of_kept fun _ => deref_guarded fun h => ?_) fun _ => Guarded.pure _
    exact absurd h (kind_ne_none hm href)

theorem getCircuit_guarded (lib : JsonLibrary) (msg : Json) :
    Guarded (HasLayout L) (Blames missing) (getCircuit lib msg) := by
  apply Guarded.get_bind
  intro m hm
  have htarget := m.lucidac.getTarget_guarded lib (msg.member "entity")
  cases hget : m.lucidac.getTarget lib (msg.member "entity") with
  | error stop =>
    rw [hget] at htarget
    intro t ht
    rw [wp_bind]
    exact ⟨fun h => absurd h htarget, ht⟩
  | ok ref =>
    rw [hget] at htarget
    have hresponse : ∃ response, userGetConfig lib m.lucidac msg = .ok response := by
      simp only [userGetConfig]
      rw [hget]
      exact ⟨_, rfl⟩
    obtain ⟨response, hresponse⟩ := hresponse
    rw [hresponse]
    simp only [answered, pure_bind]
    exact (useEntity_guarded hm htarget).bind fun _ => Guarded.pure response

theorem overloadStatus_guarded (hw : Hardware) :
    Guarded (HasLayout L) (Blames missing) (userGetOverloadStatus hw) := by
  refine Guarded.get_bind fun _ _ => Guarded.bind ?_ fun _ => Guarded.pure _
  refine Guarded.foldlM _ _ fun idx _ entries => Guarded.bind ?_ fun _ => Guarded.pure _
  refine Guarded.foldlM _ _ fun slot _ entries => Guarded.get_bind fun m hm => ?_
  refine Guarded.ite (fun hinstalled => ?_) fun _ => Guarded.pure _
  rw [Bool.and_eq_true] at hinstalled
  refine (guarded_of_kept fun _ => deref_guarded fun h => ?_).bind fun _ => ?_
  · exact absurd h (kind_ne_none hm hinstalled.1)
  · have hflags : Guarded (HasLayout L) (Blames missing) (overloadFlagsToJson hw) := fun _ ht => ht
    exact hflags.bind fun _ => Guarded.pure _

/-- A request that ends with an absent block is not supported by what is installed. -/
theorem serve_guarded (hL : L.Single) (lib : JsonLibrary) (hw : Hardware) (request : Request) :
    Guarded (HasLayout L) (Blames (¬ request.kind.Supported L)) (request.serve lib hw) := by
  cases request with
  | setCircuit msg => exact userSetExtendedConfig_guarded hL lib hw msg id
  | resetCircuit msg =>
    refine (resetLucidac_guarded _).bind fun _ => onOption_guarded fun _ => ?_
    exact (writeToHardware_guarded hw).bind fun written => require_guarded _ _
  | getCircuit msg => exact (getCircuit_guarded lib msg).bind fun _ => Guarded.pure _
  | overloadStatus msg => exact (overloadStatus_guarded hw).bind fun _ => Guarded.pure _
  | run calibrate =>
    refine onOption_guarded fun hcalibrate => Guarded.bind ?_ fun _ => Guarded.pure _
    refine returned_guarded (lucidacCalibrateRoutes_guarded hL ?_ hw)
    exact fun hmissing hsupported => hmissing (hsupported hcalibrate)

end Supported

end Lucidac.Platform
