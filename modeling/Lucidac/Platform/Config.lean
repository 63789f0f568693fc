import Lucidac.Platform.Entities

/-!
# Configuring entities

A configuration is an object.  An entity reads its own members first and then passes every member
whose key starts with a slash to the child of that name.  A client addresses an entity by a path
that starts with the identifier of the carrier.  `user_set_config` turns the elements of the path
into texts before it walks the tree, `user_get_config` takes them as they are.
-/

namespace Lucidac.Platform

open Framework

/-- The conversions of the JSON library between numbers, values and texts. -/
structure JsonLibrary where
  parseNumber : String → ℚ
  serialize : Json → String

/-- `as<std::string>()`: everything but a text is serialised. -/
def JsonLibrary.asStdString (lib : JsonLibrary) : Json → String
  | .string text => text
  | value => lib.serialize value

/-- The outcomes of one `write_to_hardware`, for whatever is installed. -/
structure WriteOutcomes where
  block : Nat → Slot → Status
  ctrlBlock : Bool
  adcBusMux : Bool
  frontPanel : FrontPanelWrites
  acl : Bool

/-- What the hardware answers, counted by the questions. -/
structure Hardware extends MMulHardware where
  outcomes : Nat → WriteOutcomes
  reading : Nat → Fin 8 → ℚ
  overloadFlags : Nat → Fin 8 → Bool
  globalOverload : Nat → Bool

/-- Hardware that accepts everything, with zero offsets in the EEPROM and readings of one. -/
def willing : Hardware where
  accepts _ := true
  eeprom _ := .success fun _ => ⟨0, 0, 0⟩
  outcomes _ := ⟨fun _ _ => .success, true, true, ⟨true, none⟩, true⟩
  reading _ _ := 1
  overloadFlags _ _ := false
  globalOverload _ := false

/-- The LUCIDAC in memory and the number of answers its hardware has given. -/
structure Machine where
  lucidac : LUCIDAC
  asked : Nat

/-- How a request ends early. -/
inductive Stop where
  | status (s : Status)
  | fault (f : Fault)

def Stop.ofConfigError : ConfigError → Stop
  | .status s => .status s
  | .exception => .fault .exception

namespace LUCIDAC

/-- Absent blocks, CTRL block and front panel are skipped. -/
def attemptedWrites (s : LUCIDAC) (outcomes : WriteOutcomes) : HardwareWrites where
  clusters := s.clusters.zipIdx.map fun (cluster, idx) =>
    Slot.all.map fun slot => (cluster.blocks slot).map fun _ => outcomes.block idx slot
  ctrlBlock := s.ctrlBlock.map fun _ => outcomes.ctrlBlock
  adcBusMux := outcomes.adcBusMux
  frontPanel := s.frontPanel.map fun _ => outcomes.frontPanel
  acl := outcomes.acl

def setBlock (s : LUCIDAC) (idx : Nat) (slot : Slot) (block : slot.Content) : LUCIDAC :=
  { s with clusters := s.clusters.modify idx fun cluster =>
      { cluster with blocks := Function.update cluster.blocks slot (some block) } }

end LUCIDAC

def writeToHardware (hw : Hardware) : EStateM Stop Machine Status := fun m =>
  .ok (m.lucidac.attemptedWrites (hw.outcomes m.asked)).writeToHardware
    { m with asked := m.asked + 1 }

/-- One write on the carrier itself. -/
def askHardware (hw : Hardware) : EStateM Stop Machine Bool := fun m =>
  .ok (hw.accepts m.asked) { m with asked := m.asked + 1 }

/-! ### Own configuration -/

def Slot.configSelfFromJson (lib : JsonLibrary) (hw : Hardware) (cfg : List (String × Json)) :
    (slot : Slot) → EStateM ConfigError (Driven slot.Content) PUnit
  | .m0 | .m1 => MBlock.configSelfFromJson lib.parseNumber hw.toMMulHardware cfg
  | .u => onBlock (UBlock.configSelfFromJson lib.parseNumber cfg)
  | .c => onBlock (CBlock.configSelfFromJson lib.parseNumber cfg)
  | .i => onBlock (IBlock.configSelfFromJson cfg)
  | .sh => onBlock (SHBlock.configSelfFromJson cfg)

def blockConfigSelf (lib : JsonLibrary) (hw : Hardware) (idx : Nat) (slot : Slot)
    (cfg : List (String × Json)) : EStateM Stop Machine PUnit := fun m =>
  match m.lucidac.block idx slot with
  | none => .error (.fault .absentBlock) m
  | some block =>
    match slot.configSelfFromJson lib hw cfg ⟨block, m.asked⟩ with
    | .ok a d => .ok a ⟨m.lucidac.setBlock idx slot d.block, d.asked⟩
    | .error e d => .error (.ofConfigError e) ⟨m.lucidac.setBlock idx slot d.block, d.asked⟩

def frontPanelConfigSelf (cfg : List (String × Json)) : EStateM Stop Machine PUnit := fun m =>
  match m.lucidac.frontPanel with
  | none => .error (.fault .absentBlock) m
  | some panel =>
    match FrontPanel.configSelfFromJson cfg panel with
    | .ok a panel => .ok a { m with lucidac := { m.lucidac with frontPanel := some panel } }
    | .error e panel =>
      .error (.ofConfigError e) { m with lucidac := { m.lucidac with frontPanel := some panel } }

/-- The loop of `_config_adc_from_json`: entries the array does not reach stay. -/
def readAdcChannels (lib : JsonLibrary) (elements : List Json) (old : Fin 8 → Int) : Fin 8 → Int :=
  fun i => match elements[i.val]? with
    | none => old i
    | some element => if element.isNull then -1 else element.asInt8 lib.parseNumber

/-- `_config_adc_from_json`; the channels stay stored when the hardware refuses them. -/
def configAdcFromJson (lib : JsonLibrary) (hw : Hardware) :
    Json → EStateM Stop Machine Bool
  | .array elements => do
    modify fun m => { m with lucidac :=
      { m.lucidac with adcChannels := readAdcChannels lib elements m.lucidac.adcChannels } }
    askHardware hw
  | _ => pure false

@[simp] theorem wp_configAdcFromJson (lib : JsonLibrary) (hw : Hardware) (elements : List Json)
    (Q : Bool → Machine → Prop) (E : Stop → Machine → Prop) (m : Machine) :
    wp (configAdcFromJson lib hw (.array elements)) Q E m = Q (hw.accepts m.asked) ⟨{ m.lucidac with
      adcChannels := readAdcChannels lib elements m.lucidac.adcChannels }, m.asked + 1⟩ := rfl

def aclOfJson : Json → Option ACL
  | .string text =>
    if text = "internal" then some .internal
    else if text = "external" then some .external
    else none
  | _ => none

/-- The loop of `_config_acl_from_json`: a wrong element ends it and keeps the earlier ones. -/
def readAclSelect (elements : List Json) : EStateM PUnit (Fin 8 → ACL) PUnit :=
  forM (elements.take 8).zipIdx fun (element, i) =>
    match aclOfJson element with
    | some selected => modify fun acl j => if j.val = i then selected else acl j
    | none => throw ⟨⟩

def configAclFromJson (hw : Hardware) : Json → EStateM Stop Machine Bool
  | .array elements => do
    let m ← get
    let result := readAclSelect elements m.lucidac.aclSelect
    modify fun m => { m with lucidac :=
      { m.lucidac with aclSelect := finalState (readAclSelect elements) m.lucidac.aclSelect } }
    match result with
    | .ok _ _ => askHardware hw
    | .error _ _ => pure false
  | _ => pure false

theorem wp_configAclFromJson (hw : Hardware) {elements : List Json} {aclSelect : Fin 8 → ACL}
    {m : Machine} (h : readAclSelect elements m.lucidac.aclSelect = .ok ⟨⟩ aclSelect)
    (Q : Bool → Machine → Prop) (E : Stop → Machine → Prop) :
    wp (configAclFromJson hw (.array elements)) Q E m = Q (hw.accepts m.asked)
      ⟨{ m.lucidac with aclSelect := aclSelect }, m.asked + 1⟩ := by
  have hfinal : finalState (readAclSelect elements) m.lucidac.aclSelect = aclSelect := by
    simp only [finalState]
    rw [h]
  simp only [configAclFromJson, wp_bind, wp_get, wp_modify]
  rw [h, hfinal]
  rfl

/-- `LUCIDAC::config_self_from_json`; the carrier's own part accepts everything. -/
def lucidacConfigSelf (lib : JsonLibrary) (hw : Hardware) (cfg : List (String × Json)) :
    EStateM Stop Machine PUnit :=
  forM cfg fun (key, value) =>
    if key = "adc_channels" then do
      let ok ← configAdcFromJson lib hw value
      require ok (.status ⟨530, "Could not configure ADCs from configuration."⟩)
    else if key = "acl_select" then do
      let ok ← configAclFromJson hw value
      require ok (.status ⟨531, "Could not configure ACLs from configuration."⟩)
    else if key.toList.head? = some '/' then pure ⟨⟩
    else throw (.status ⟨532, "LUCIDAC: Unknown configuration key"⟩)

/-! ### Configuration of a whole entity -/

/-- The child that a key of `config_children_from_json` names. -/
def childKey (key : String) : Option String :=
  match key.toList with
  | '/' :: c :: rest => some (String.ofList (c :: rest))
  | _ => none

/-- `Entity::config_from_json` over the virtual methods of one entity.  `configChild` looks the
child up and configures it. -/
def configEntity (entityId : String) (configSelf : List (String × Json) → EStateM Stop Machine PUnit)
    (configChild : String → Json → EStateM Stop Machine PUnit) :
    Json → EStateM Stop Machine PUnit
  | .object cfg => do
    configSelf cfg
    forM cfg fun (key, value) =>
      match childKey key with
      | some childId => configChild childId value
      | none => pure ⟨⟩
  | _ => throw (.status (.ofString s!"Configuration is Null at entity {entityId}"))

/-- The identifier of the missing child is passed to the formatter as an object, so its place in
the message stays open. -/
def childMissing (entityId : String) : EStateM Stop Machine PUnit :=
  throw (.status (.ofString ("Child entity '%s' does not exist at entity '" ++ entityId ++ "'")))

def blockConfigFromJson (lib : JsonLibrary) (hw : Hardware) (idx : Nat) (slot : Slot) :
    Json → EStateM Stop Machine PUnit :=
  configEntity slot.entityId (blockConfigSelf lib hw idx slot) fun _ _ => childMissing slot.entityId

def ctrlBlockConfigFromJson : Json → EStateM Stop Machine PUnit :=
  configEntity "CTRL" (fun _ => pure ⟨⟩) fun _ _ => childMissing "CTRL"

def frontPanelConfigFromJson : Json → EStateM Stop Machine PUnit :=
  configEntity "FP" frontPanelConfigSelf fun _ _ => childMissing "FP"

def clusterConfigChild (lib : JsonLibrary) (hw : Hardware) (idx : Nat) (childId : String)
    (value : Json) : EStateM Stop Machine PUnit := do
  let m ← get
  match m.lucidac.getChildEntity (.cluster idx) childId with
  | .ok (some (.block _ slot)) => blockConfigFromJson lib hw idx slot value
  | .ok _ => childMissing (m.lucidac.entityIdOf (.cluster idx))
  | .error fault => throw (.fault fault)

def clusterConfigFromJson (lib : JsonLibrary) (hw : Hardware) (idx : Nat) (cfg : Json) :
    EStateM Stop Machine PUnit := do
  let m ← get
  configEntity (m.lucidac.entityIdOf (.cluster idx)) (fun _ => pure ⟨⟩)
    (clusterConfigChild lib hw idx) cfg

def carrierConfigChild (lib : JsonLibrary) (hw : Hardware) (childId : String) (value : Json) :
    EStateM Stop Machine PUnit := do
  let m ← get
  match m.lucidac.getChildEntity .carrier childId with
  | .ok (some (.cluster idx)) => clusterConfigFromJson lib hw idx value
  | .ok (some .ctrlBlock) => ctrlBlockConfigFromJson value
  | .ok (some .frontPanel) => frontPanelConfigFromJson value
  | .ok _ => childMissing m.lucidac.entityId
  | .error fault => throw (.fault fault)

def carrierConfigFromJson (lib : JsonLibrary) (hw : Hardware) (cfg : Json) :
    EStateM Stop Machine PUnit := do
  let m ← get
  configEntity m.lucidac.entityId (lucidacConfigSelf lib hw) (carrierConfigChild lib hw) cfg

def configFromJson (lib : JsonLibrary) (hw : Hardware) : Ref → Json → EStateM Stop Machine PUnit
  | .carrier => carrierConfigFromJson lib hw
  | .cluster idx => clusterConfigFromJson lib hw idx
  | .ctrlBlock => ctrlBlockConfigFromJson
  | .frontPanel => frontPanelConfigFromJson
  | .block idx slot => blockConfigFromJson lib hw idx slot

/-! ### Writing the configuration back -/

def Slot.configSelfToJson : (slot : Slot) → slot.Content → List (String × Json)
  | .m0, block | .m1, block => MBlock.configSelfToJson block
  | .u, block => UBlock.configSelfToJson block
  | .c, block => CBlock.configSelfToJson block
  | .i, block => IBlock.configSelfToJson block
  | .sh, _ => []

namespace LUCIDAC

def adcChannelToJson (channel : Int) : Json := if channel = -1 then .null else .integer channel

def aclToJson (acl : ACL) : Json := .string (if acl = .internal then "internal" else "external")

def configSelfToJson (s : LUCIDAC) : List (String × Json) :=
  [("adc_channels", .array (List.ofFn fun i => adcChannelToJson (s.adcChannels i))),
    ("acl_select", .array (List.ofFn fun i => aclToJson (s.aclSelect i)))]

def blockToJson (s : LUCIDAC) (idx : Nat) (slot : Slot) : List (String × Json) :=
  ((s.block idx slot).map slot.configSelfToJson).getD []

/-- `config_to_json` of a cluster; null children are skipped. -/
def clusterToJson (s : LUCIDAC) (idx : Nat) (recursive : Bool) : List (String × Json) :=
  if recursive then
    Slot.all.filterMap fun slot =>
      (s.block idx slot).map fun block => ("/" ++ slot.entityId, .object (slot.configSelfToJson block))
  else []

/-- `config_to_json` of the carrier. -/
def carrierToJson (s : LUCIDAC) (recursive : Bool) : List (String × Json) :=
  s.configSelfToJson ++
    if recursive then
      s.lucidacGetChildEntities.map fun ref => ("/" ++ s.entityIdOf ref, .object
        (match ref with
        | .cluster idx => s.clusterToJson idx true
        | .frontPanel => (s.frontPanel.map FrontPanel.configSelfToJson).getD []
        | _ => []))
    else []

def configToJson (s : LUCIDAC) (ref : Ref) (recursive : Bool) : List (String × Json) :=
  match ref with
  | .carrier => s.carrierToJson recursive
  | .cluster idx => s.clusterToJson idx recursive
  | .ctrlBlock => []
  | .frontPanel => (s.frontPanel.map FrontPanel.configSelfToJson).getD []
  | .block idx slot => s.blockToJson idx slot

/-! ### Requests -/

/-- `resolve_child_entity` on texts. -/
def resolveChildEntity (s : LUCIDAC) : Ref → List String → Except Fault (Option Ref)
  | ref, [] => .ok (some ref)
  | ref, childId :: rest =>
    match s.getChildEntity ref childId with
    | .ok (some child) => s.resolveChildEntity child rest
    | .ok none => .ok none
    | .error fault => .error fault

/-- `resolve_child_entity` on JSON values: the pointer to the text of anything but a text is null,
and no string can be made from it.  The string ends with the first zero of a text; texts of messages
are taken to have none. -/
def resolveChildEntityJson (s : LUCIDAC) : Ref → List Json → Except Fault (Option Ref)
  | ref, [] => .ok (some ref)
  | ref, .string childId :: rest =>
    match s.getChildEntity ref childId with
    | .ok (some child) => s.resolveChildEntityJson child rest
    | .ok none => .ok none
    | .error fault => .error fault
  | _, _ :: _ => .error .exception

/-- The entity that `user_set_config` configures. -/
def setTarget (lib : JsonLibrary) (s : LUCIDAC) (path : List Json) : Except Stop Ref :=
  match path.map lib.asStdString with
  | [] => .error (.status ⟨2, "Invalid entity path (depth)"⟩)
  | first :: rest =>
    if first ≠ s.entityId then .error (.status ⟨3,
      s!"Message intended for another entity ({first} but I am {s.entityId})"⟩)
    else match s.resolveChildEntity .carrier rest with
      | .ok (some ref) => .ok ref
      | .ok none => .error (.status ⟨4, "Could not resolve child entity in given path"⟩)
      | .error fault => .error (.fault fault)

/-- The entity that `user_get_config` reads when the message has this "entity". -/
def getTarget (lib : JsonLibrary) (s : LUCIDAC) : Json → Except Stop Ref
  | .null => .ok .carrier
  | .array [] => .ok .carrier
  | .array (first :: rest) =>
    if lib.asStdString first ≠ s.entityId then .error (.status ⟨1,
      s!"Requested entity {first.asCString} but I am {s.entityId}"⟩)
    else match s.resolveChildEntityJson .carrier rest with
      | .ok (some ref) => .ok ref
      | .ok none => .error (.status ⟨2, "Cannot resolve entity path"⟩)
      | .error fault => .error (.fault fault)
  | _ => .error (.status ⟨3, "Entity path is not a list"⟩)

end LUCIDAC

def userSetConfig (lib : JsonLibrary) (hw : Hardware) (msg : Json) : EStateM Stop Machine PUnit := do
  require (msg.containsKey "entity" && msg.containsKey "config")
    (.status ⟨1, "Malformed message."⟩)
  let m ← get
  match m.lucidac.setTarget lib (msg.member "entity").asArray with
  | .error stop => throw stop
  | .ok ref => do
    configFromJson lib hw ref (msg.member "config")
    let written ← writeToHardware hw
    require written.isOk (.status written)

/-- `user_get_config` with the response it writes. -/
def userGetConfig (lib : JsonLibrary) (s : LUCIDAC) (msg : Json) :
    Except Stop (List (String × Json)) :=
  let recursive := if msg.containsKey "recursive" then (msg.member "recursive").asBool else true
  match s.getTarget lib (msg.member "entity") with
  | .error stop => .error stop
  | .ok ref => .ok [("entity", msg.member "entity"),
      ("config", .object (s.configToJson ref recursive))]

end Lucidac.Platform
