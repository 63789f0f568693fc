import Lucidac.Platform.CalibrationFrame
import Lucidac.Platform.ConfigPaths

/-!
# What a configuration leaves alone

A configuration reaches an entity only through the lookup of its parent, which finds nothing in an
empty slot.  So no configuration uses an absent block, and none changes which blocks there are.
-/

namespace Lucidac.Platform

open Framework

/-- Only the layout matters, the channels may be anything. -/
abbrev HasLayout (L : Layout) : Machine → Prop := Holds L fun _ => True

theorem LUCIDAC.getChildEntity_error {s : LUCIDAC} {ref : Ref} {childId : String} {fault : Fault}
    (h : s.getChildEntity ref childId = .error fault) : fault = .exception ∨ fault = .outOfRange := by
  cases ref with
  | carrier =>
    simp only [getChildEntity, lucidacGetChildEntity, carrierGetChildEntity] at h
    split at h
    · cases h
    · split at h
      · split at h
        · cases h
          exact Or.inl rfl
        · split at h
          · cases h
          · split at h
            · cases h
            · cases h
              exact Or.inr rfl
      · split at h <;> cases h
  | cluster idx => cases h
  | ctrlBlock => cases h
  | frontPanel => cases h
  | block idx slot => cases h

theorem not_absent_of_lookup {fault : Fault} (h : fault = .exception ∨ fault = .outOfRange) :
    ¬ (Stop.fault fault).Absent := by
  intro habsent
  obtain rfl | rfl := h
  · obtain h | h := habsent <;> cases h
  · obtain h | h := habsent <;> cases h

theorem LUCIDAC.resolveChildEntity_error {s : LUCIDAC} (path : List String) {ref : Ref}
    {fault : Fault} (h : s.resolveChildEntity ref path = .error fault) :
    fault = .exception ∨ fault = .outOfRange := by
  induction path generalizing ref with
  | nil => cases h
  | cons childId rest ih =>
    simp only [resolveChildEntity] at h
    split at h
    · exact ih h
    · cases h
    · rename_i other hother
      cases h
      exact getChildEntity_error hother

theorem LUCIDAC.resolveChildEntityJson_error {s : LUCIDAC} (path : List Json) {ref : Ref}
    {fault : Fault} (h : s.resolveChildEntityJson ref path = .error fault) :
    fault = .exception ∨ fault = .outOfRange := by
  induction path generalizing ref with
  | nil => cases h
  | cons element rest ih =>
    cases element with
    | string childId =>
      simp only [resolveChildEntityJson] at h
      split at h
      · exact ih h
      · cases h
      · rename_i other hother
        cases h
        exact getChildEntity_error hother
    | _ =>
      cases h
      exact Or.inl rfl

theorem Slot.multipliers_configSelf (lib : JsonLibrary) (hw : Hardware) (cfg : List (String × Json))
    (slot : Slot) (d : Driven slot.Content) :
    slot.multipliers (finalState (slot.configSelfFromJson lib hw cfg) d).block =
      slot.multipliers d.block := by
  have hm (d : Driven MBlock) : MBlock.isMultipliers
      (finalState (MBlock.configSelfFromJson lib.parseNumber hw.toMMulHardware cfg) d).block =
        d.block.isMultipliers := by
    obtain ⟨block, asked⟩ := d
    cases block with
    | integrators block =>
      simp only [finalState, MBlock.configSelfFromJson, zoom]
      cases MIntBlock.configSelfFromJson cfg block <;> rfl
    | multipliers block =>
      simp only [finalState, MBlock.configSelfFromJson, zoom]
      cases MMulBlock.configSelfFromJson lib.parseNumber hw.toMMulHardware cfg ⟨block, asked⟩ <;> rfl
  cases slot with
  | m0 => exact hm d
  | m1 => exact hm d
  | u => rfl
  | c => rfl
  | i => rfl
  | sh => rfl

section Config

variable {L : Layout} {missing : Prop} (lib : JsonLibrary) (hw : Hardware)

theorem require_guarded (c : Bool) (s : Status) :
    Guarded (HasLayout L) (Blames missing) (require c (.status s)) :=
  Guarded.require c fun _ => blames_status missing s

theorem blockConfigSelf_guarded {idx : Nat} {slot : Slot} (h : L.kind idx slot ≠ none)
    (cfg : List (String × Json)) :
    Guarded (HasLayout L) (Blames missing) (blockConfigSelf lib hw idx slot cfg) := by
  intro m hm
  simp only [wp, blockConfigSelf]
  cases hblock : m.lucidac.block idx slot with
  | none => exact absurd (hm.kept.kind_of_empty hblock) h
  | some block =>
    have hkind := slot.multipliers_configSelf lib hw cfg ⟨block, m.asked⟩
    simp only [finalState] at hkind
    dsimp only
    cases hread : slot.configSelfFromJson lib hw cfg ⟨block, m.asked⟩ with
    | ok a d =>
      rw [hread] at hkind
      exact ⟨(hm.kept.setBlock hblock hkind).layout, trivial⟩
    | error e d =>
      rw [hread] at hkind
      exact ⟨blames_configError missing e, (hm.kept.setBlock hblock hkind).layout, trivial⟩

theorem frontPanelConfigSelf_guarded (h : L.frontPanel = true) (cfg : List (String × Json)) :
    Guarded (HasLayout L) (Blames missing) (frontPanelConfigSelf cfg) := by
  intro m hm
  have hinstalled : m.lucidac.frontPanel.isSome = true := by
    rw [← hm.1] at h
    exact h
  obtain ⟨panel, hpanel⟩ := Option.isSome_iff_exists.mp hinstalled
  have hset (panel : FrontPanel) : HasLayout L { m with lucidac :=
      { m.lucidac with frontPanel := some panel } } := by
    refine ⟨?_, trivial⟩
    rw [← hm.1]
    simp only [LUCIDAC.layout]
    rw [hpanel]
    rfl
  simp only [wp, frontPanelConfigSelf]
  rw [hpanel]
  dsimp only
  cases FrontPanel.configSelfFromJson cfg panel with
  | ok a panel => exact hset panel
  | error e panel => exact ⟨blames_configError missing e, hset panel⟩

theorem lucidacConfigSelf_guarded (cfg : List (String × Json)) :
    Guarded (HasLayout L) (Blames missing) (lucidacConfigSelf lib hw cfg) := by
  have hask : Guarded (HasLayout L) (Blames missing) (askHardware hw) := fun _ hm => hm
  have hadc (value : Json) : Guarded (HasLayout L) (Blames missing) (configAdcFromJson lib hw value) := by
    cases value with
    | array elements => exact (Guarded.modify fun _ hm => hm).bind fun _ => hask
    | _ => exact Guarded.pure false
  have hacl (value : Json) : Guarded (HasLayout L) (Blames missing) (configAclFromJson hw value) := by
    cases value with
    | array elements =>
      refine Guarded.get_bind fun m _ => Guarded.bind (Guarded.modify ?_) fun _ => ?_
      · exact fun _ hm => hm
      · split
        · exact hask
        · exact Guarded.pure false
    | _ => exact Guarded.pure false
  apply Guarded.forM _
  intro entry _
  apply Guarded.ite (fun _ => (hadc _).bind fun ok => require_guarded ok _)
  intro _
  apply Guarded.ite (fun _ => (hacl _).bind fun ok => require_guarded ok _)
  intro _
  refine Guarded.ite (fun _ => Guarded.pure _) fun _ => Guarded.throw (blames_status missing _)

theorem configEntity_guarded {entityId : String}
    {configSelf : List (String × Json) → EStateM Stop Machine PUnit}
    {configChild : String → Json → EStateM Stop Machine PUnit}
    (hself : ∀ cfg, Guarded (HasLayout L) (Blames missing) (configSelf cfg))
    (hchild : ∀ childId value, Guarded (HasLayout L) (Blames missing) (configChild childId value))
    (cfg : Json) :
    Guarded (HasLayout L) (Blames missing) (configEntity entityId configSelf configChild cfg) := by
  cases cfg with
  | object members =>
    refine (hself members).bind fun _ => Guarded.forM _ fun entry _ => ?_
    dsimp only
    split
    · exact hchild _ _
    · exact Guarded.pure _
  | _ => exact Guarded.throw (blames_status missing _)

theorem childMissing_guarded (entityId : String) :
    Guarded (HasLayout L) (Blames missing) (childMissing entityId) :=
  Guarded.throw (blames_status missing _)

theorem blockConfigFromJson_guarded {idx : Nat} {slot : Slot} (h : L.kind idx slot ≠ none)
    (cfg : Json) : Guarded (HasLayout L) (Blames missing) (blockConfigFromJson lib hw idx slot cfg) :=
  configEntity_guarded (blockConfigSelf_guarded lib hw h) (fun _ _ => childMissing_guarded _) cfg

theorem ctrlBlockConfigFromJson_guarded (cfg : Json) :
    Guarded (HasLayout L) (Blames missing) (ctrlBlockConfigFromJson cfg) :=
  configEntity_guarded (fun _ => Guarded.pure _) (fun _ _ => childMissing_guarded _) cfg

theorem frontPanelConfigFromJson_guarded (h : L.frontPanel = true) (cfg : Json) :
    Guarded (HasLayout L) (Blames missing) (frontPanelConfigFromJson cfg) :=
  configEntity_guarded (frontPanelConfigSelf_guarded h) (fun _ _ => childMissing_guarded _) cfg

theorem kind_ne_none {m : Machine} (hm : HasLayout L m) {idx : Nat} {slot : Slot}
    (h : (m.lucidac.block idx slot).isSome = true) : L.kind idx slot ≠ none :=
  (hm.kept.isSome_iff idx slot).mp h

theorem clusterConfigFromJson_guarded (idx : Nat) (cfg : Json) :
    Guarded (HasLayout L) (Blames missing) (clusterConfigFromJson lib hw idx cfg) := by
  refine Guarded.get_bind fun m _ => configEntity_guarded (fun _ => Guarded.pure _) ?_ cfg
  intro childId value
  apply Guarded.get_bind
  intro m hm
  split
  · rename_i slot hchild
    obtain ⟨slot', hinstalled, heq⟩ := m.lucidac.getChildEntity_cluster_cases hchild
    cases heq
    exact blockConfigFromJson_guarded lib hw (kind_ne_none hm hinstalled) value
  · exact childMissing_guarded _
  · rename_i fault hfault
    exact Guarded.throw fun h => absurd h (not_absent_of_lookup (LUCIDAC.getChildEntity_error hfault))

theorem carrierConfigFromJson_guarded (cfg : Json) :
    Guarded (HasLayout L) (Blames missing) (carrierConfigFromJson lib hw cfg) := by
  refine Guarded.get_bind fun m _ =>
    configEntity_guarded (lucidacConfigSelf_guarded lib hw) ?_ cfg
  intro childId value
  apply Guarded.get_bind
  intro m hm
  split
  · exact clusterConfigFromJson_guarded lib hw _ value
  · exact ctrlBlockConfigFromJson_guarded value
  · rename_i hchild
    have hinstalled : m.lucidac.frontPanel.isSome = true := m.lucidac.getChildEntity_installed hchild
    refine frontPanelConfigFromJson_guarded ?_ value
    rw [← hm.1]
    exact hinstalled
  · exact childMissing_guarded _
  · rename_i fault hfault
    exact Guarded.throw fun h => absurd h (not_absent_of_lookup (LUCIDAC.getChildEntity_error hfault))

theorem configFromJson_guarded {m : Machine} (hm : HasLayout L m) {ref : Ref}
    (href : m.lucidac.Installed ref) (cfg : Json) :
    Guarded (HasLayout L) (Blames missing) (configFromJson lib hw ref cfg) := by
  cases ref with
  | carrier => exact carrierConfigFromJson_guarded lib hw cfg
  | cluster idx => exact clusterConfigFromJson_guarded lib hw idx cfg
  | ctrlBlock => exact ctrlBlockConfigFromJson_guarded cfg
  | frontPanel =>
    refine frontPanelConfigFromJson_guarded ?_ cfg
    rw [← hm.1]
    exact href
  | block idx slot => exact blockConfigFromJson_guarded lib hw (kind_ne_none hm href) cfg

/-- The target of a path is there, and the faults on the way are those of the lookup. -/
theorem LUCIDAC.setTarget_guarded (s : LUCIDAC) (path : List Json) :
    match s.setTarget lib path with
    | .ok ref => s.Installed ref
    | .error stop => ¬ stop.Absent := by
  simp only [LUCIDAC.setTarget]
  cases path.map lib.asStdString with
  | nil => exact id
  | cons first rest =>
    dsimp only
    by_cases hfirst : first ≠ s.entityId
    · rw [if_pos hfirst]
      exact id
    · rw [if_neg hfirst]
      cases hresolve : s.resolveChildEntity .carrier rest with
      | error fault => exact not_absent_of_lookup (LUCIDAC.resolveChildEntity_error rest hresolve)
      | ok found =>
        cases found with
        | none => exact id
        | some ref =>
          have hcarrier : s.Installed .carrier := trivial
          exact s.resolveChildEntity_installed rest hcarrier hresolve

theorem LUCIDAC.getTarget_guarded (s : LUCIDAC) (entity : Json) :
    match s.getTarget lib entity with
    | .ok ref => s.Installed ref
    | .error stop => ¬ stop.Absent := by
  cases entity with
  | null => exact trivial
  | array path =>
    cases path with
    | nil => exact trivial
    | cons first rest =>
      simp only [LUCIDAC.getTarget]
      by_cases hfirst : lib.asStdString first ≠ s.entityId
      · rw [if_pos hfirst]
        exact id
      · rw [if_neg hfirst]
        cases hresolve : s.resolveChildEntityJson .carrier rest with
        | error fault => exact not_absent_of_lookup (LUCIDAC.resolveChildEntityJson_error rest hresolve)
        | ok found =>
          cases found with
          | none => exact id
          | some ref =>
            have hdefined := s.pathDefined_of_resolve rest .carrier hresolve
            obtain ⟨found, hjson, htext⟩ := s.resolve_of_pathDefined lib rest .carrier hdefined
            rw [hresolve] at hjson
            cases hjson
            have hcarrier : s.Installed .carrier := trivial
            exact s.resolveChildEntity_installed _ hcarrier htext
  | _ => exact id

theorem userSetConfig_guarded (msg : Json) :
    Guarded (HasLayout L) (Blames missing) (userSetConfig lib hw msg) := by
  refine (require_guarded _ _).bind fun _ => Guarded.get_bind fun m hm => ?_
  have htarget := m.lucidac.setTarget_guarded lib (msg.member "entity").asArray
  cases hset : m.lucidac.setTarget lib (msg.member "entity").asArray with
  | error stop =>
    rw [hset] at htarget
    exact Guarded.throw fun h => absurd h htarget
  | ok ref =>
    rw [hset] at htarget
    apply (configFromJson_guarded lib hw hm htarget _).seq
    exact (writeToHardware_guarded hw).bind fun written => require_guarded _ _

end Config

end Lucidac.Platform
