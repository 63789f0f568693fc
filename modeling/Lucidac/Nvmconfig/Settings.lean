import Lucidac.Platform.Config
import Lucidac.Utils.Addresses
import Lucidac.Utils.StreamingJson

/-!
# Persistent settings

Four subsystems keep settings that survive a restart: what the vendor wrote, what the user wants to
store, the network and the users.  Each converts itself to an object and back.
-/

namespace Lucidac.Nvmconfig

open Platform (JsonLibrary)

/-- Who reads or writes a representation. -/
inductive Context where
  | user
  | flash
deriving DecidableEq

/-- `std::string(text.c_str())` -/
def cString (text : String) : String := String.ofList (cStr text.toList)

/-- `as<const char *>()`, which is a null pointer for everything but a text.  Readers that go
through a null pointer have no result. -/
def asCharPtr : Json → Option String
  | .string text => some (cString text)
  | _ => none

def asInt (lib : JsonLibrary) (src : Json) : BitVec 32 :=
  let x := src.asFloat lib.parseNumber
  if -2 ^ 31 ≤ x ∧ x ≤ 2 ^ 31 - 1 then BitVec.ofInt 32 (if x < 0 then x.ceil else x.floor) else 0

/-- `JSON_GET` and `JSON_GET_AS`: a value that is not given stays as it is. -/
def jsonGet {α : Type} (src : Json) (key : String) (convert : Json → Option α) (old : α) :
    Option α :=
  if src.containsKey key then convert (src.member key) else some old

/-! ### Vendor -/

structure UUID where
  ar : Fin 16 → BitVec 8

namespace UUID

def zero : UUID := ⟨fun _ => 0⟩

def toJson (uuid : UUID) : Json := .array (List.ofFn fun i => .integer (uuid.ar i).toNat)

/-- A text is parsed, and the result thrown away. -/
def fromJson (lib : JsonLibrary) (src : Json) (uuid : UUID) : UUID :=
  if src.isString then uuid
  else if src.asArray.length ≠ 16 then uuid
  else ⟨fun i => BitVec.ofNat 8 ((src.element i).asUnsigned 8 lib.parseNumber)⟩

end UUID

structure VendorOTP where
  serialNumber : BitVec 16
  serialUuid : UUID
  defaultAdminPassword : String
  defaultUserPassword : String

namespace VendorOTP

def initial : VendorOTP :=
  { serialNumber := 0, serialUuid := .zero, defaultAdminPassword := "", defaultUserPassword := "" }

/-- Without `ANABRID_WRITE_EEPROM` the user neither sees nor changes anything. -/
def fromJson (lib : JsonLibrary) (src : Json) (c : Context) (v : VendorOTP) : Option VendorOTP := do
  if c = .user then
    return v
  let serialNumber ← jsonGet src "serial_number"
    (fun j => some (BitVec.ofNat 16 (j.asUnsigned 16 lib.parseNumber))) v.serialNumber
  let serialUuid ← jsonGet src "serial_uuid" (fun j => some (UUID.zero.fromJson lib j)) v.serialUuid
  let defaultAdminPassword ← jsonGet src "default_admin_password" (some ∘ lib.asStdString)
    v.defaultAdminPassword
  let defaultUserPassword ← jsonGet src "default_user_password" (some ∘ lib.asStdString)
    v.defaultUserPassword
  return { serialNumber, serialUuid, defaultAdminPassword, defaultUserPassword }

def toJson (c : Context) (v : VendorOTP) : List (String × Json) :=
  if c = .user then []
  else
    [("serial_number", .integer v.serialNumber.toNat),
      ("serial_uuid", v.serialUuid.toJson),
      ("default_admin_password", .string v.defaultAdminPassword),
      ("default_user_password", .string v.defaultUserPassword)]

end VendorOTP

/-! ### What the user stores -/

/-- The pointer to the document of `PermanentUserDefinedStuff`: no document, a document, or the
place where a document was.  Operations that go to such a place have no result. -/
inductive UserDocument where
  | absent
  | live (content : Json)
  | released

namespace UserDocument

/-- `as<JsonObject>()` -/
def membersOf : Json → List (String × Json)
  | .object members => members
  | _ => []

def members : UserDocument → List (String × Json)
  | .live content => membersOf content
  | .absent | .released => []

/-- `delete doc`, which is allowed for a null pointer.  The pointer is not cleared. -/
def delete : UserDocument → Option UserDocument
  | .absent => some .absent
  | .live _ => some .released
  | .released => none

def resetDefaults (doc : UserDocument) : Option UserDocument := doc.delete

def clear (doc : UserDocument) : Option UserDocument := doc.delete

/-- `*doc = src`, where everything but an object is null. -/
def fromJson (src : Json) : UserDocument → Option UserDocument
  | .absent | .live _ => some (.live (if src.isObject then src else .null))
  | .released => none

/-- The object as it was passed: `target = doc->as<JsonObject>()` reads the document and assigns
the handle that this function has for the object. -/
def toJson (target : List (String × Json)) : UserDocument → Option (List (String × Json))
  | .absent | .live _ => some target
  | .released => none

end UserDocument

/-! ### Network -/

/-- The conversions between addresses and texts, which are faithful. -/
structure AddressTexts where
  ofMac : BitVec 48 → String
  toMac : String → BitVec 48
  ofIP : BitVec 32 → String
  toIP : String → BitVec 32
  toMac_ofMac : ∀ mac, toMac (cString (ofMac mac)) = mac
  toIP_ofIP : ∀ ip, toIP (cString (ofIP ip)) = ip

structure StartupConfig where
  enableEthernet : Bool
  enableDhcp : Bool
  enableJsonl : Bool
  enableWebserver : Bool
  enableWebsockets : Bool
  enableMdns : Bool
  jsonlPort : BitVec 32
  webserverPort : BitVec 32
  mac : BitVec 48
  hostname : String
  staticIpaddr : BitVec 32
  staticNetmask : BitVec 32
  staticGw : BitVec 32
  staticDns : BitVec 32
  connectionTimeoutMs : BitVec 32
  maxConnections : BitVec 8

namespace StartupConfig

/-- The defaults on a device with the given permanent address, in a build without
`ANABRID_SKIP_ETHERNET` and `ANABRID_SKIP_DHCP`. -/
def resetDefaults (otp : BitVec 48) : StartupConfig :=
  { enableEthernet := true
    enableDhcp := true
    mac := otp
    hostname := "lucidac-" ++ String.ofList (List.intercalate ['-']
      ([2, 1, 0].map fun k => hexByte (byteAt otp.toNat k)))
    staticIpaddr := 0xC0A80164
    staticNetmask := 0xFFFFFF00
    staticGw := 0xC0A80101
    staticDns := 0x08080808
    enableJsonl := true
    enableWebserver := false
    enableWebsockets := false
    enableMdns := true
    jsonlPort := 5732
    webserverPort := 80
    connectionTimeoutMs := 72000000
    maxConnections := 20 }

/-- The hostname is cut at the maximum length; a character of it is taken for one byte. -/
def limitHostname (hostname : String) : String :=
  if 250 < hostname.length then String.ofList (hostname.toList.take 250) else hostname

def fromJson (lib : JsonLibrary) (texts : AddressTexts) (src : Json) (c : StartupConfig) :
    Option StartupConfig := do
  let enableEthernet ← jsonGet src "enable_ethernet" (some ∘ Json.asBool) c.enableEthernet
  let enableDhcp ← jsonGet src "enable_dhcp" (some ∘ Json.asBool) c.enableDhcp
  let enableJsonl ← jsonGet src "enable_jsonl" (some ∘ Json.asBool) c.enableJsonl
  let enableWebserver ← jsonGet src "enable_webserver" (some ∘ Json.asBool) c.enableWebserver
  let enableWebsockets ← jsonGet src "enable_websockets" (some ∘ Json.asBool) c.enableWebsockets
  let enableMdns ← jsonGet src "enable_mdns" (some ∘ Json.asBool) c.enableMdns
  let jsonlPort ← jsonGet src "jsonl_port" (some ∘ asInt lib) c.jsonlPort
  let webserverPort ← jsonGet src "webserver_port" (some ∘ asInt lib) c.webserverPort
  let mac ← jsonGet src "mac" (fun j => (asCharPtr j).map texts.toMac) c.mac
  let hostname ← jsonGet src "hostname" asCharPtr c.hostname
  let staticIpaddr ← jsonGet src "static_ipaddr" (fun j => (asCharPtr j).map texts.toIP) c.staticIpaddr
  let staticNetmask ← jsonGet src "static_netmask" (fun j => (asCharPtr j).map texts.toIP)
    c.staticNetmask
  let staticGw ← jsonGet src "static_gw" (fun j => (asCharPtr j).map texts.toIP) c.staticGw
  let staticDns ← jsonGet src "static_dns" (fun j => (asCharPtr j).map texts.toIP) c.staticDns
  return { c with
    enableEthernet, enableDhcp, enableJsonl, enableWebserver, enableWebsockets, enableMdns
    jsonlPort, webserverPort, mac, staticIpaddr, staticNetmask, staticGw, staticDns
    hostname := limitHostname hostname }

def toJson (texts : AddressTexts) (c : StartupConfig) : List (String × Json) :=
  [("enable_ethernet", .bool c.enableEthernet),
    ("enable_dhcp", .bool c.enableDhcp),
    ("enable_jsonl", .bool c.enableJsonl),
    ("enable_webserver", .bool c.enableWebserver),
    ("enable_websockets", .bool c.enableWebsockets),
    ("enable_mdns", .bool c.enableMdns),
    ("jsonl_port", .integer c.jsonlPort.toInt),
    ("webserver_port", .integer c.webserverPort.toInt),
    ("mac", .string (texts.ofMac c.mac)),
    ("hostname", .string c.hostname),
    ("static_ipaddr", .string (texts.ofIP c.staticIpaddr)),
    ("static_netmask", .string (texts.ofIP c.staticNetmask)),
    ("static_gw", .string (texts.ofIP c.staticGw)),
    ("static_dns", .string (texts.ofIP c.staticDns))]

end StartupConfig

/-! ### Users -/

/-- A `std::map` from names to passwords, as the list of its entries. -/
structure UserMap where
  entries : List (String × String)
  nodup : (entries.map Prod.fst).Nodup

namespace UserMap

def empty : UserMap := ⟨[], List.nodup_nil⟩

/-- The entries after `db[name] = password`. -/
def assigned (name password : String) (entries : List (String × String)) :
    List (String × String) :=
  if name ∈ entries.map Prod.fst then
    entries.map fun e => if e.1 = name then (name, password) else e
  else entries ++ [(name, password)]

theorem nodup_assigned {name password : String} {entries : List (String × String)}
    (h : (entries.map Prod.fst).Nodup) :
    ((assigned name password entries).map Prod.fst).Nodup := by
  unfold assigned
  split
  · have hnames : (entries.map fun e => if e.1 = name then (name, password) else e).map Prod.fst =
        entries.map Prod.fst := by
      rw [List.map_map]
      apply List.map_congr_left
      intro e _
      by_cases he : e.1 = name
      · simp [he]
      · simp [he]
    rw [hnames]
    exact h
  · next hnew =>
    rw [List.map_append, List.map_singleton, List.nodup_append]
    refine ⟨h, List.nodup_singleton _, ?_⟩
    intro other hother name' hname'
    rw [List.mem_singleton.mp hname']
    intro heq
    subst heq
    exact hnew hother

def assign (db : UserMap) (name password : String) : UserMap :=
  ⟨assigned name password db.entries, nodup_assigned db.nodup⟩

def fromJson (lib : JsonLibrary) (src : Json) : UserMap :=
  (UserDocument.membersOf src).foldl (fun db kv => db.assign (cString kv.1) (lib.asStdString kv.2))
    empty

def toJson (db : UserMap) : Json := .object (db.entries.map fun e => (e.1, .string e.2))

end UserMap

structure Gatekeeper where
  enableAuth : Bool
  enableUsers : Bool
  enableWhitelist : Bool
  users : UserMap
  whitelist : List (BitVec 32 × BitVec 32)
  accessControlAllowOrigin : String

namespace Gatekeeper

def initial : Gatekeeper :=
  { enableAuth := false, enableUsers := false, enableWhitelist := false, users := .empty
    whitelist := [], accessControlAllowOrigin := "" }

/-- The defaults, with the passwords that the vendor chose. -/
def resetDefaults (vendor : VendorOTP) : Gatekeeper :=
  let users := UserMap.empty
  let users := if vendor.defaultAdminPassword.isEmpty then users
    else users.assign "admin" vendor.defaultAdminPassword
  let users := if vendor.defaultUserPassword.isEmpty then users
    else users.assign "user" vendor.defaultUserPassword
  { enableAuth := true, enableUsers := true, enableWhitelist := false, users, whitelist := []
    accessControlAllowOrigin := "*" }

/-- `convertFromJson` of the whitelist does nothing to an empty list. -/
def fromJson (lib : JsonLibrary) (src : Json) (g : Gatekeeper) : Option Gatekeeper := do
  let enableAuth ← jsonGet src "enable_auth" (some ∘ Json.asBool) g.enableAuth
  let enableUsers ← jsonGet src "enable_users" (some ∘ Json.asBool) g.enableUsers
  let enableWhitelist ← jsonGet src "enable_whitelist" (some ∘ Json.asBool) g.enableWhitelist
  let users ← jsonGet src "users" (fun j => some (UserMap.fromJson lib j)) g.users
  let whitelist ← jsonGet src "whitelist" (fun _ => some []) g.whitelist
  let accessControlAllowOrigin ← jsonGet src "access_control_allow_origin" (some ∘ lib.asStdString)
    g.accessControlAllowOrigin
  return { enableAuth, enableUsers, enableWhitelist, users, whitelist, accessControlAllowOrigin }

/-- `convertToJson` of the whitelist leaves a member that is null. -/
def toJson (g : Gatekeeper) : List (String × Json) :=
  [("enable_auth", .bool g.enableAuth),
    ("enable_users", .bool g.enableUsers),
    ("enable_whitelist", .bool g.enableWhitelist),
    ("users", g.users.toJson),
    ("whitelist", .null),
    ("access_control_allow_origin", .string g.accessControlAllowOrigin)]

end Gatekeeper

/-! ### Round trips -/

section RoundTrips

variable {lib : JsonLibrary} {texts : AddressTexts}

theorem jsonGet_object {α : Type} {members : List (String × Json)} {key : String} {value : Json}
    (h : members.lookup key = some value) (convert : Json → Option α) (old : α) :
    jsonGet (.object members) key convert old = convert value := by
  simp [jsonGet, Json.containsKey, Json.member, h]

theorem asInt_toInt (x : BitVec 32) : asInt lib (.integer x.toInt) = x := by
  have hlow : (-2 ^ 31 : ℚ) ≤ (x.toInt : ℚ) := by
    have hle : -2 ^ 31 ≤ x.toInt := BitVec.le_toInt x
    exact_mod_cast hle
  have hhigh : (x.toInt : ℚ) ≤ 2 ^ 31 - 1 := by
    have hlt : x.toInt < 2 ^ 31 := BitVec.toInt_lt
    have hle : x.toInt ≤ 2 ^ 31 - 1 := by omega
    exact_mod_cast hle
  have hcast : (if (x.toInt : ℚ) < 0 then (x.toInt : ℚ).ceil else (x.toInt : ℚ).floor) =
      x.toInt := by
    split
    · exact Rat.ceil_intCast _
    · exact Rat.floor_intCast _
  change (if -2 ^ 31 ≤ (x.toInt : ℚ) ∧ (x.toInt : ℚ) ≤ 2 ^ 31 - 1 then
    BitVec.ofInt 32 (if (x.toInt : ℚ) < 0 then (x.toInt : ℚ).ceil else (x.toInt : ℚ).floor)
    else 0) = x
  rw [if_pos ⟨hlow, hhigh⟩, hcast, BitVec.ofInt_toInt]

theorem asUnsigned_toNat {w : Nat} (x : BitVec w) :
    BitVec.ofNat w ((Json.integer x.toNat).asUnsigned w lib.parseNumber) = x := by
  rw [Json.asUnsigned_integer lib.parseNumber x.isLt, BitVec.ofNat_toNat, BitVec.setWidth_eq]

theorem UUID.fromJson_toJson (uuid old : UUID) : old.fromJson lib uuid.toJson = uuid := by
  have helement : ∀ i : Fin 16, (UUID.toJson uuid).element i = .integer (uuid.ar i).toNat := by
    intro i
    have hlt : i.val < (List.ofFn fun i => Json.integer (uuid.ar i).toNat).length := by
      rw [List.length_ofFn]
      exact i.isLt
    rw [UUID.toJson, Json.element, List.getD_eq_getElem _ _ hlt, List.getElem_ofFn]
  cases uuid with
  | mk ar =>
    simp only [UUID.fromJson, helement, asUnsigned_toNat]
    simp [UUID.toJson, Json.isString, Json.asArray]

theorem VendorOTP.fromJson_toJson (v old : VendorOTP) :
    old.fromJson lib (.object (v.toJson .flash)) .flash = some v := by
  simp only [VendorOTP.fromJson, VendorOTP.toJson, reduceCtorEq, if_false]
  rw [jsonGet_object rfl, jsonGet_object rfl, jsonGet_object rfl, jsonGet_object rfl]
  simp only [asUnsigned_toNat, UUID.fromJson_toJson]
  rfl

/-- Everything but the hostname comes back as it was.  The settings that are not stored are those
of the reading device. -/
theorem StartupConfig.fromJson_toJson (c old : StartupConfig) :
    old.fromJson lib texts (.object (c.toJson texts)) =
      some { c with
        hostname := limitHostname (cString c.hostname)
        connectionTimeoutMs := old.connectionTimeoutMs
        maxConnections := old.maxConnections } := by
  simp only [StartupConfig.fromJson, StartupConfig.toJson]
  iterate 14 rw [jsonGet_object rfl]
  simp only [Function.comp_apply, asInt_toInt, asCharPtr, Option.map_some, texts.toMac_ofMac,
    texts.toIP_ofIP]
  rfl

theorem Gatekeeper.fromJson_toJson (g old : Gatekeeper) :
    old.fromJson lib (.object g.toJson) =
      some { g with users := UserMap.fromJson lib g.users.toJson, whitelist := [] } := by
  simp only [Gatekeeper.fromJson, Gatekeeper.toJson]
  iterate 6 rw [jsonGet_object rfl]
  rfl

/-- A text without the character that ends a C string. -/
def IsCString (text : String) : Prop := '\x00' ∉ text.toList

theorem isCString_cString (text : String) : IsCString (cString text) := by
  unfold IsCString cString
  rw [String.toList_ofList]
  intro hmem
  have hne := List.mem_takeWhile_imp hmem
  simp at hne

theorem cString_eq_self {text : String} (h : IsCString text) : cString text = text := by
  rw [cString, cStr_eq_self h, String.ofList_toList]

theorem limitHostname_length (hostname : String) :
    (StartupConfig.limitHostname hostname).length ≤ 250 := by
  unfold StartupConfig.limitHostname
  split
  · rw [String.length_ofList, List.length_take]
    omega
  · omega

theorem isCString_limitHostname {hostname : String} (h : IsCString hostname) :
    IsCString (StartupConfig.limitHostname hostname) := by
  unfold StartupConfig.limitHostname
  split
  · unfold IsCString
    rw [String.toList_ofList]
    exact fun hmem => h (List.mem_of_mem_take hmem)
  · exact h

theorem limitHostname_cString_eq_iff (hostname : String) :
    StartupConfig.limitHostname (cString hostname) = hostname ↔
      IsCString hostname ∧ hostname.length ≤ 250 := by
  constructor
  · intro h
    rw [← h]
    exact ⟨isCString_limitHostname (isCString_cString hostname), limitHostname_length _⟩
  · rintro ⟨hnul, hlength⟩
    rw [cString_eq_self hnul, StartupConfig.limitHostname, if_neg (by omega)]

theorem isCString_macToString (mac : BitVec 48) : IsCString (macToString mac) := by
  have hdigit : ∀ d < 16, (Nat.digitChar d).toUpper ≠ '\x00' := by decide
  have hbyte : ∀ k, '\x00' ∉ hexByte (byteAt mac.toNat k) := by
    intro k hmem
    have hlt := byteAt_lt mac.toNat k
    simp only [hexByte, List.mem_cons, List.not_mem_nil, or_false] at hmem
    rcases hmem with h | h
    · exact hdigit _ (by omega) h.symm
    · exact hdigit _ (by omega) h.symm
  rw [IsCString, macToString, String.toList_ofList, intercalate_hexByte]
  simp only [List.mem_append, List.mem_cons, hbyte, or_false, false_or]
  decide

theorem isCString_ipToString (ip : BitVec 32) : IsCString (ipToString ip) := by
  have hbyte : ∀ k, '\x00' ∉ Nat.toDigits 10 (byteAt ip.toNat k) := by
    intro k hmem
    exact absurd (Nat.isDigit_of_mem_toDigits (by decide) (by decide) hmem) (by decide)
  rw [IsCString, ipToString, String.toList_ofList]
  simp only [List.map_cons, List.map_nil, List.intercalate_cons_cons, List.intercalate_singleton,
    List.mem_append, List.mem_singleton, hbyte, or_false, false_or]
  decide

/-- The conversions of the firmware are faithful. -/
def AddressTexts.canonical : AddressTexts where
  ofMac := macToString
  toMac text := (macFromString text).getD 0
  ofIP := ipToString
  toIP := ipFromString
  toMac_ofMac mac := by
    rw [cString_eq_self (isCString_macToString mac), macFromString_macToString, Option.getD_some]
  toIP_ofIP ip := by
    rw [cString_eq_self (isCString_ipToString ip), ipFromString_ipToString]

namespace UserMap

theorem ext {db db' : UserMap} (h : db.entries = db'.entries) : db = db' := by
  cases db
  cases db'
  cases h
  rfl

/-- Names that are read end at the first NUL. -/
theorem isCString_assigned {name password : String} {entries : List (String × String)}
    (h : ∀ e ∈ entries, IsCString e.1) :
    ∀ e ∈ assigned (cString name) password entries, IsCString e.1 := by
  have hname := isCString_cString name
  unfold assigned
  split
  · rw [List.forall_mem_map]
    intro e he
    split
    · exact hname
    · exact h e he
  · rw [List.forall_mem_append, List.forall_mem_singleton]
    exact ⟨h, hname⟩

theorem isCString_foldl {members : List (String × Json)} {db : UserMap}
    (h : ∀ e ∈ db.entries, IsCString e.1) :
    ∀ e ∈ (members.foldl (fun db kv => db.assign (cString kv.1) (lib.asStdString kv.2))
      db).entries, IsCString e.1 := by
  induction members generalizing db with
  | nil => exact h
  | cons kv members ih => exact ih (isCString_assigned h)

/-- Names that are new and without NUL are added as they are. -/
theorem foldl_assign {entries : List (String × String)} {db : UserMap}
    (hnames : ∀ e ∈ entries, IsCString e.1)
    (hnodup : ((db.entries ++ entries).map Prod.fst).Nodup) :
    ((entries.map fun e => (e.1, Json.string e.2)).foldl
      (fun db kv => db.assign (cString kv.1) (lib.asStdString kv.2)) db).entries =
        db.entries ++ entries := by
  induction entries generalizing db with
  | nil => simp
  | cons e entries ih =>
    rw [List.forall_mem_cons] at hnames
    have hnew : e.1 ∉ db.entries.map Prod.fst := by
      rw [List.map_append, List.nodup_append] at hnodup
      exact fun hmem => hnodup.2.2 e.1 hmem e.1 (by simp) rfl
    have hassign : (db.assign (cString e.1) (lib.asStdString (.string e.2))).entries =
        db.entries ++ [e] := by
      rw [cString_eq_self hnames.1]
      exact if_neg hnew
    rw [List.map_cons, List.foldl_cons, ih hnames.2, hassign, List.append_assoc,
      List.singleton_append]
    rw [hassign, List.append_assoc, List.singleton_append]
    exact hnodup

theorem fromJson_toJson_eq_iff (db : UserMap) :
    fromJson lib db.toJson = db ↔ ∀ e ∈ db.entries, IsCString e.1 := by
  constructor
  · intro h
    rw [← h]
    exact isCString_foldl (by simp [empty])
  · intro h
    exact ext (foldl_assign h db.nodup)

end UserMap

end RoundTrips

end Lucidac.Nvmconfig
