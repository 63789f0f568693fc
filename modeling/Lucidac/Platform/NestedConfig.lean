import Lucidac.Platform.ConfigPaths

/-!
# Nested configurations

A configuration whose only key names a child is passed on to the child: an entity with children
takes nothing from it for itself, and an entity without children refuses it and changes nothing.
By induction along a path, addressing an entity and nesting its configuration come to the same.
-/

namespace Lucidac.Platform

open Framework

/-- How a request ends for its client. -/
inductive Outcome where
  | success
  | refused
  | fault (f : Fault)
deriving DecidableEq

/-- Outcome and final state of a run. -/
def ended : EStateM.Result Stop Machine PUnit → Outcome × Machine
  | .ok _ m => (.success, m)
  | .error (.status _) m => (.refused, m)
  | .error (.fault f) m => (.fault f, m)

theorem ended_bind {x y : EStateM Stop Machine PUnit} {m : Machine} (h : ended (x m) = ended (y m))
    (f : EStateM Stop Machine PUnit) : ended ((x >>= fun _ => f) m) = ended ((y >>= fun _ => f) m) := by
  change ended (EStateM.bind x (fun _ => f) m) = ended (EStateM.bind y (fun _ => f) m)
  simp only [EStateM.bind]
  cases hx : x m with
  | ok a t =>
    cases hy : y m with
    | ok b u =>
      rw [hx, hy] at h
      obtain rfl : t = u := congrArg Prod.snd h
      rfl
    | error e u =>
      rw [hx, hy] at h
      cases e <;> cases congrArg Prod.fst h
  | error e t =>
    cases hy : y m with
    | ok b u =>
      rw [hx, hy] at h
      cases e <;> cases congrArg Prod.fst h
    | error e' u =>
      rw [hx, hy] at h
      exact h

/-! ### Keys that name a child -/

theorem toList_slash (childId : String) : ("/" ++ childId).toList = '/' :: childId.toList := by
  rw [String.toList_append]
  rfl

theorem childKey_slash {childId : String} (h : childId ≠ "") :
    childKey ("/" ++ childId) = some childId := by
  simp only [childKey]
  rw [toList_slash]
  cases hid : childId.toList with
  | nil => exact absurd (String.toList_eq_nil_iff.mp hid) h
  | cons c rest =>
    have hback : String.ofList (c :: rest) = childId := by
      rw [← hid, String.ofList_toList]
    exact congrArg some hback

/-- A key that starts with a slash is none of the words an entity knows. -/
theorem slash_ne {word : String} (h : word.toList.head? ≠ some '/') (childId : String) :
    "/" ++ childId ≠ word := by
  intro he
  rw [← he, toList_slash] at h
  exact h rfl

/-! ### Entities without children -/

/-- The reader answers with an error and leaves the state alone. -/
def Refuses {σ : Type} (x : EStateM ConfigError σ PUnit) : Prop :=
  ∀ s, ∃ refused, x s = .error (.status refused) s

theorem uBlock_refuses (parseNumber : String → ℚ) (childId : String) (cfg : Json) :
    Refuses (UBlock.configSelfFromJson parseNumber [("/" ++ childId, cfg)]) := by
  intro s
  simp only [UBlock.configSelfFromJson]
  rw [forM_singleton, if_neg (slash_ne (by decide) childId), if_neg (slash_ne (by decide) childId)]
  exact ⟨_, rfl⟩

theorem cBlock_refuses (parseNumber : String → ℚ) (childId : String) (cfg : Json) :
    Refuses (CBlock.configSelfFromJson parseNumber [("/" ++ childId, cfg)]) := by
  intro s
  simp only [CBlock.configSelfFromJson]
  rw [forM_singleton, if_neg (slash_ne (by decide) childId)]
  exact ⟨_, rfl⟩

theorem iBlock_refuses (childId : String) (cfg : Json) :
    Refuses (IBlock.configSelfFromJson [("/" ++ childId, cfg)]) := by
  intro s
  simp only [IBlock.configSelfFromJson]
  rw [forM_singleton, if_neg (slash_ne (by decide) childId), if_neg (slash_ne (by decide) childId)]
  exact ⟨_, rfl⟩

theorem mIntBlock_refuses (childId : String) (cfg : Json) :
    Refuses (MIntBlock.configSelfFromJson [("/" ++ childId, cfg)]) := by
  intro s
  simp only [MIntBlock.configSelfFromJson]
  rw [forM_singleton, if_neg (slash_ne (by decide) childId)]
  exact ⟨_, rfl⟩

theorem mMulBlock_refuses (parseNumber : String → ℚ) (hw : MMulHardware) (childId : String)
    (cfg : Json) : Refuses (MMulBlock.configSelfFromJson parseNumber hw [("/" ++ childId, cfg)]) := by
  intro s
  simp only [MMulBlock.configSelfFromJson]
  rw [forM_singleton, if_neg (slash_ne (by decide) childId), if_neg (slash_ne (by decide) childId)]
  exact ⟨_, rfl⟩

theorem frontPanel_refuses (childId : String) (cfg : Json) :
    Refuses (FrontPanel.configSelfFromJson [("/" ++ childId, cfg)]) := by
  intro s
  simp only [FrontPanel.configSelfFromJson]
  rw [forM_singleton, if_neg (slash_ne (by decide) childId), if_neg (slash_ne (by decide) childId)]
  exact ⟨_, rfl⟩

theorem shBlock_ignores (childId : String) (cfg : Json) (s : SHBlock) :
    SHBlock.configSelfFromJson [("/" ++ childId, cfg)] s = .ok ⟨⟩ s := by
  have hkey : ("state" == "/" ++ childId) = false :=
    beq_eq_false_iff_ne.mpr (slash_ne (by decide) childId).symm
  have hmissing : (Json.object [("/" ++ childId, cfg)]).containsKey "state" = false := by
    simp only [Json.containsKey, List.lookup_cons]
    rw [hkey]
    rfl
  simp only [SHBlock.configSelfFromJson]
  rw [hmissing]
  rfl

theorem onBlock_refuses {β : Type} {x : EStateM ConfigError β PUnit} (h : Refuses x) :
    Refuses (onBlock x) := by
  intro d
  obtain ⟨refused, hrefused⟩ := h d.block
  refine ⟨refused, ?_⟩
  simp only [onBlock, zoom]
  rw [hrefused]

theorem mBlock_refuses (parseNumber : String → ℚ) (hw : MMulHardware) (childId : String)
    (cfg : Json) : Refuses (MBlock.configSelfFromJson parseNumber hw [("/" ++ childId, cfg)]) := by
  intro d
  obtain ⟨block, asked⟩ := d
  simp only [MBlock.configSelfFromJson]
  cases block with
  | integrators block =>
    obtain ⟨refused, hrefused⟩ := mIntBlock_refuses childId cfg block
    refine ⟨refused, ?_⟩
    simp only [zoom]
    rw [hrefused]
  | multipliers block =>
    obtain ⟨refused, hrefused⟩ := mMulBlock_refuses parseNumber hw childId cfg ⟨block, asked⟩
    refine ⟨refused, ?_⟩
    simp only [zoom]
    rw [hrefused]

/-- No block takes anything from the key of a child. -/
theorem slot_configSelf_slash (lib : JsonLibrary) (hw : Hardware) (childId : String) (cfg : Json)
    (slot : Slot) (d : Driven slot.Content) :
    (∃ refused, slot.configSelfFromJson lib hw [("/" ++ childId, cfg)] d =
      .error (.status refused) d) ∨
    slot.configSelfFromJson lib hw [("/" ++ childId, cfg)] d = .ok ⟨⟩ d := by
  cases slot with
  | m0 => exact Or.inl (mBlock_refuses _ _ childId cfg d)
  | m1 => exact Or.inl (mBlock_refuses _ _ childId cfg d)
  | u => exact Or.inl (onBlock_refuses (uBlock_refuses _ childId cfg) d)
  | c => exact Or.inl (onBlock_refuses (cBlock_refuses _ childId cfg) d)
  | i => exact Or.inl (onBlock_refuses (iBlock_refuses childId cfg) d)
  | sh =>
    apply Or.inr
    simp only [Slot.configSelfFromJson, onBlock, zoom]
    rw [shBlock_ignores]

theorem setBlock_self {s : LUCIDAC} {idx : Nat} {slot : Slot} {block : slot.Content}
    (h : s.block idx slot = some block) : s.setBlock idx slot block = s := by
  simp only [LUCIDAC.block, Option.bind_eq_some_iff] at h
  obtain ⟨cluster, hcluster, hblock⟩ := h
  have hsame : { cluster with blocks := Function.update cluster.blocks slot (some block) } =
      cluster := by
    rw [← hblock, Function.update_eq_self]
  simp only [LUCIDAC.setBlock]
  have hclusters : s.clusters.modify idx (fun c => { c with
      blocks := Function.update c.blocks slot (some block) }) = s.clusters := by
    apply List.ext_getElem?
    intro k
    rw [List.getElem?_modify]
    by_cases hk : idx = k
    · subst hk
      rw [hcluster]
      simp only [if_true, Option.map_eq_map, Option.map_some]
      rw [hsame]
    · simp only [if_neg hk]
      cases s.clusters[k]? <;> rfl
  rw [hclusters]

/-! ### One step down the tree -/

/-- Configure what a lookup delivered. -/
def configFound (lib : JsonLibrary) (hw : Hardware) (cfg : Json) :
    Except Fault (Option Ref) → EStateM Stop Machine PUnit
  | .ok (some ref) => configFromJson lib hw ref cfg
  | .ok none => throw (.status .failure)
  | .error fault => throw (.fault fault)

/-- An entity that takes nothing from the key itself hands the value to the lookup. -/
theorem configEntity_slash (entityId : String)
    (configSelf : List (String × Json) → EStateM Stop Machine PUnit)
    (configChild : String → Json → EStateM Stop Machine PUnit) {childId : String}
    (hid : childId ≠ "") (cfg : Json) (m : Machine)
    (hself : configSelf [("/" ++ childId, cfg)] m = .ok ⟨⟩ m) :
    configEntity entityId configSelf configChild (.object [("/" ++ childId, cfg)]) m =
      configChild childId cfg m := by
  simp only [configEntity]
  rw [forM_singleton, childKey_slash hid]
  change EStateM.bind _ _ m = _
  simp only [EStateM.bind]
  rw [hself]

theorem configEntity_refused (entityId : String)
    (configSelf : List (String × Json) → EStateM Stop Machine PUnit)
    (configChild : String → Json → EStateM Stop Machine PUnit) (members : List (String × Json))
    (m : Machine) {refused : Status} (hself : configSelf members m = .error (.status refused) m) :
    configEntity entityId configSelf configChild (.object members) m =
      .error (.status refused) m := by
  simp only [configEntity]
  change EStateM.bind _ _ m = _
  simp only [EStateM.bind]
  rw [hself]

theorem lucidacConfigSelf_slash (lib : JsonLibrary) (hw : Hardware) (childId : String) (cfg : Json)
    (m : Machine) : lucidacConfigSelf lib hw [("/" ++ childId, cfg)] m = .ok ⟨⟩ m := by
  simp only [lucidacConfigSelf]
  rw [forM_singleton, if_neg (slash_ne (by decide) childId), if_neg (slash_ne (by decide) childId),
    if_pos (by rw [toList_slash]; rfl)]
  rfl

theorem block_nested (lib : JsonLibrary) (hw : Hardware) {idx : Nat} {slot : Slot} {m : Machine}
    (hinstalled : (m.lucidac.block idx slot).isSome = true) {childId : String} (hid : childId ≠ "")
    (cfg : Json) :
    ended (blockConfigFromJson lib hw idx slot (.object [("/" ++ childId, cfg)]) m) =
      (.refused, m) := by
  obtain ⟨block, hblock⟩ := Option.isSome_iff_exists.mp hinstalled
  have hkept : Machine.mk (m.lucidac.setBlock idx slot block) m.asked = m := by
    rw [setBlock_self hblock]
  rcases slot_configSelf_slash lib hw childId cfg slot ⟨block, m.asked⟩ with ⟨refused, hself⟩ | hself
  · have hrun : blockConfigSelf lib hw idx slot [("/" ++ childId, cfg)] m =
        .error (.status refused) m := by
      simp only [blockConfigSelf]
      rw [hblock]
      dsimp only
      rw [hself]
      exact congrArg (EStateM.Result.error _) hkept
    simp only [blockConfigFromJson]
    rw [configEntity_refused _ _ _ _ m hrun]
    rfl
  · have hrun : blockConfigSelf lib hw idx slot [("/" ++ childId, cfg)] m = .ok ⟨⟩ m := by
      simp only [blockConfigSelf]
      rw [hblock]
      dsimp only
      rw [hself]
      exact congrArg (EStateM.Result.ok _) hkept
    simp only [blockConfigFromJson]
    rw [configEntity_slash _ _ _ hid cfg m hrun]
    rfl

theorem frontPanel_nested {m : Machine} (hinstalled : m.lucidac.frontPanel.isSome = true)
    (childId : String) (cfg : Json) :
    ended (frontPanelConfigFromJson (.object [("/" ++ childId, cfg)]) m) = (.refused, m) := by
  obtain ⟨panel, hpanel⟩ := Option.isSome_iff_exists.mp hinstalled
  obtain ⟨refused, hself⟩ := frontPanel_refuses childId cfg panel
  have hrun : frontPanelConfigSelf [("/" ++ childId, cfg)] m = .error (.status refused) m := by
    simp only [frontPanelConfigSelf]
    rw [hpanel]
    dsimp only
    rw [hself]
    dsimp only
    rw [← hpanel]
    rfl
  simp only [frontPanelConfigFromJson]
  rw [configEntity_refused _ _ _ _ m hrun]
  rfl

theorem carrierConfigChild_eq (lib : JsonLibrary) (hw : Hardware) (childId : String) (cfg : Json)
    (m : Machine) :
    carrierConfigChild lib hw childId cfg m =
      (match m.lucidac.getChildEntity .carrier childId with
      | .ok (some (.cluster idx)) => clusterConfigFromJson lib hw idx cfg
      | .ok (some .ctrlBlock) => ctrlBlockConfigFromJson cfg
      | .ok (some .frontPanel) => frontPanelConfigFromJson cfg
      | .ok _ => childMissing m.lucidac.entityId
      | .error fault => throw (Stop.fault fault)) m := rfl

theorem clusterConfigChild_eq (lib : JsonLibrary) (hw : Hardware) (idx : Nat) (childId : String)
    (cfg : Json) (m : Machine) :
    clusterConfigChild lib hw idx childId cfg m =
      (match m.lucidac.getChildEntity (.cluster idx) childId with
      | .ok (some (.block _ slot)) => blockConfigFromJson lib hw idx slot cfg
      | .ok _ => childMissing (m.lucidac.entityIdOf (.cluster idx))
      | .error fault => throw (Stop.fault fault)) m := rfl

/-- Nesting by one key is looking the child up and configuring it. -/
theorem configFromJson_slash (lib : JsonLibrary) (hw : Hardware) {ref : Ref} {m : Machine}
    (hinstalled : m.lucidac.Installed ref) {childId : String} (hid : childId ≠ "") (cfg : Json) :
    ended (configFromJson lib hw ref (.object [("/" ++ childId, cfg)]) m) =
      ended (configFound lib hw cfg (m.lucidac.getChildEntity ref childId) m) := by
  cases ref with
  | carrier =>
    have hrun : configFromJson lib hw .carrier (.object [("/" ++ childId, cfg)]) m =
        carrierConfigChild lib hw childId cfg m :=
      configEntity_slash m.lucidac.entityId (lucidacConfigSelf lib hw) (carrierConfigChild lib hw)
        hid cfg m (lucidacConfigSelf_slash lib hw childId cfg m)
    rw [hrun, carrierConfigChild_eq]
    cases hlookup : m.lucidac.getChildEntity .carrier childId with
    | error fault => rfl
    | ok found =>
      cases found with
      | none => rfl
      | some child =>
        rcases m.lucidac.getChildEntity_carrier_cases hlookup with
          ⟨idx, -, rfl⟩ | ⟨-, rfl⟩ | ⟨-, rfl⟩
        · rfl
        · rfl
        · rfl
  | cluster idx =>
    have hrun : configFromJson lib hw (.cluster idx) (.object [("/" ++ childId, cfg)]) m =
        clusterConfigChild lib hw idx childId cfg m :=
      configEntity_slash (m.lucidac.entityIdOf (.cluster idx)) (fun _ => pure ⟨⟩)
        (clusterConfigChild lib hw idx) hid cfg m rfl
    rw [hrun, clusterConfigChild_eq]
    cases hlookup : m.lucidac.getChildEntity (.cluster idx) childId with
    | error fault => rfl
    | ok found =>
      cases found with
      | none => rfl
      | some child =>
        obtain ⟨slot, -, rfl⟩ := m.lucidac.getChildEntity_cluster_cases hlookup
        rfl
  | ctrlBlock =>
    have hrun : configFromJson lib hw .ctrlBlock (.object [("/" ++ childId, cfg)]) m =
        childMissing "CTRL" m :=
      configEntity_slash "CTRL" (fun _ => pure ⟨⟩) (fun _ _ => childMissing "CTRL") hid cfg m rfl
    rw [hrun]
    rfl
  | frontPanel => exact frontPanel_nested hinstalled childId cfg
  | block idx slot => exact block_nested lib hw hinstalled hid cfg

/-! ### Whole paths -/

/-- The configuration `cfg` under the keys of a path. -/
def nest : List String → Json → Json
  | [], cfg => cfg
  | childId :: rest, cfg => .object [("/" ++ childId, nest rest cfg)]

theorem configFromJson_nest (lib : JsonLibrary) (hw : Hardware) (path : List String)
    (hpath : ∀ childId ∈ path, childId ≠ "") {ref : Ref} {m : Machine}
    (hinstalled : m.lucidac.Installed ref) (cfg : Json) :
    ended (configFromJson lib hw ref (nest path cfg) m) =
      ended (configFound lib hw cfg (m.lucidac.resolveChildEntity ref path) m) := by
  induction path generalizing ref with
  | nil => rfl
  | cons childId rest ih =>
    have hid : childId ≠ "" := hpath childId List.mem_cons_self
    have hrest : ∀ childId ∈ rest, childId ≠ "" := fun c hc => hpath c (List.mem_cons_of_mem _ hc)
    simp only [nest, LUCIDAC.resolveChildEntity]
    rw [configFromJson_slash lib hw hinstalled hid]
    cases hlookup : m.lucidac.getChildEntity ref childId with
    | error fault => rfl
    | ok found =>
      cases found with
      | none => rfl
      | some child => exact ih hrest (m.lucidac.getChildEntity_installed hlookup)

/-- The message of a `set_circuit` request. -/
def setMessage (path : List Json) (cfg : Json) : Json :=
  .object [("entity", .array path), ("config", cfg)]

/-- `user_set_config` after the checks of message and path. -/
def writeFound (lib : JsonLibrary) (hw : Hardware) (cfg : Json) (found : Except Fault (Option Ref)) :
    EStateM Stop Machine PUnit := do
  configFound lib hw cfg found
  let written ← writeToHardware hw
  require written.isOk (.status written)

theorem userSetConfig_eq (lib : JsonLibrary) (hw : Hardware) (path : List Json) (cfg : Json)
    (m : Machine) :
    userSetConfig lib hw (setMessage path cfg) m =
      (match m.lucidac.setTarget lib path with
      | .error stop => throw stop
      | .ok ref => do
        configFromJson lib hw ref cfg
        let written ← writeToHardware hw
        require written.isOk (.status written)) m := rfl

theorem userSetConfig_own (lib : JsonLibrary) (hw : Hardware) {first : Json} (rest : List Json)
    (cfg : Json) {m : Machine} (h : lib.asStdString first = m.lucidac.entityId) :
    ended (userSetConfig lib hw (setMessage (first :: rest) cfg) m) =
      ended (writeFound lib hw cfg
        (m.lucidac.resolveChildEntity .carrier (rest.map lib.asStdString)) m) := by
  rw [userSetConfig_eq]
  simp only [LUCIDAC.setTarget, List.map_cons]
  rw [if_neg (not_not.mpr h)]
  cases m.lucidac.resolveChildEntity .carrier (rest.map lib.asStdString) with
  | error fault => rfl
  | ok found =>
    cases found with
    | none => rfl
    | some ref => rfl

theorem userSetConfig_foreign (lib : JsonLibrary) (hw : Hardware) {first : Json} (rest : List Json)
    (cfg : Json) {m : Machine} (h : lib.asStdString first ≠ m.lucidac.entityId) :
    ended (userSetConfig lib hw (setMessage (first :: rest) cfg) m) = (.refused, m) := by
  rw [userSetConfig_eq]
  simp only [LUCIDAC.setTarget, List.map_cons]
  rw [if_pos h]
  rfl

theorem userSetConfig_nest (lib : JsonLibrary) (hw : Hardware) (m : Machine) (first : Json)
    (rest : List Json) (path : List String) (hpath : ∀ childId ∈ path, childId ≠ "") (cfg : Json) :
    ended (userSetConfig lib hw (setMessage (first :: rest ++ path.map .string) cfg) m) =
      ended (userSetConfig lib hw (setMessage (first :: rest) (nest path cfg)) m) := by
  by_cases hfirst : lib.asStdString first = m.lucidac.entityId
  · rw [List.cons_append, userSetConfig_own lib hw _ cfg hfirst,
      userSetConfig_own lib hw rest _ hfirst]
    have htexts : (rest ++ path.map Json.string).map lib.asStdString =
        rest.map lib.asStdString ++ path := by
      rw [List.map_append, List.map_map]
      congr 1
      exact List.map_id path
    rw [htexts, m.lucidac.resolveChildEntity_append]
    cases hresolved : m.lucidac.resolveChildEntity .carrier (rest.map lib.asStdString) with
    | error fault => rfl
    | ok found =>
      cases found with
      | none => rfl
      | some ref =>
        have hroot : m.lucidac.Installed .carrier := trivial
        have hinstalled := m.lucidac.resolveChildEntity_installed _ hroot hresolved
        exact (ended_bind (configFromJson_nest lib hw path hpath hinstalled cfg) _).symm
  · rw [List.cons_append, userSetConfig_foreign lib hw _ cfg hfirst,
      userSetConfig_foreign lib hw rest _ hfirst]

/-- Sending a configuration to a child, or sending it to its parent under the key of the child,
ends alike: both succeed, both are refused or both fault in the same way, and every entity has the
same configuration afterwards.  So it is for a whole path of children and nested keys. -/
theorem userSetConfig_path_or_nested (lib : JsonLibrary) (hw : Hardware) (m : Machine)
    (first : Json) (rest : List Json) (cfg : Json) :
    (∀ childId : String, childId ≠ "" →
      ended (userSetConfig lib hw (setMessage (first :: rest ++ [.string childId]) cfg) m) =
        ended (userSetConfig lib hw
          (setMessage (first :: rest) (.object [("/" ++ childId, cfg)])) m)) ∧
    (∀ path : List String, (∀ childId ∈ path, childId ≠ "") →
      ended (userSetConfig lib hw (setMessage (first :: rest ++ path.map .string) cfg) m) =
        ended (userSetConfig lib hw (setMessage (first :: rest) (nest path cfg)) m)) := by
  refine ⟨fun childId hid => ?_, fun path hpath => userSetConfig_nest lib hw m first rest path hpath cfg⟩
  refine userSetConfig_nest lib hw m first rest [childId] ?_ cfg
  intro c hc
  rw [List.mem_singleton.mp hc]
  exact hid

/-- A LUCIDAC with one C block. -/
def scaling : LUCIDAC :=
  { LUCIDAC.bare with clusters := [⟨0, fun | .c => some CBlock.initial | _ => none⟩] }

/-- For a cluster: all coefficients of its C block are one half. -/
def halves : Json :=
  .object [("/C", .object [("elements", .array (List.replicate 32 (.float (1 / 2))))])]

theorem userSetConfig_path_or_nested_cluster :
    ended (userSetConfig LUCIDAC.scalarJson willing
        (setMessage [.string scaling.entityId, .string "0"] halves) ⟨scaling, 0⟩) =
      ended (userSetConfig LUCIDAC.scalarJson willing
        (setMessage [.string scaling.entityId] (.object [("/0", halves)])) ⟨scaling, 0⟩) ∧
    (ended (userSetConfig LUCIDAC.scalarJson willing
      (setMessage [.string scaling.entityId, .string "0"] halves) ⟨scaling, 0⟩)).1 = .success ∧
    ((ended (userSetConfig LUCIDAC.scalarJson willing
      (setMessage [.string scaling.entityId, .string "0"] halves) ⟨scaling, 0⟩)).2.lucidac.block
        0 .c).map (·.factors 7) = some (1 / 2) :=
  ⟨(userSetConfig_path_or_nested LUCIDAC.scalarJson willing ⟨scaling, 0⟩
    (.string scaling.entityId) [] halves).1 "0" (by decide), by decide +kernel, by decide +kernel⟩

end Lucidac.Platform
