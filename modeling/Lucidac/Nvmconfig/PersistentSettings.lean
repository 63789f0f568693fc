import Lucidac.Nvmconfig.Settings

/-!
# Settings in the EEPROM

The writer threads over the subsystems.  One object with a member for each subsystem that has
something to store is written to the EEPROM, and read again at the next start.
-/

namespace Lucidac.Nvmconfig

open Platform (JsonLibrary)

def requiredMagic : BitVec 32 := 0xAA03

/-- The registered subsystems, in the order of registration, with the version of the writer. -/
structure Device where
  version : BitVec 32
  vendor : VendorOTP
  user : UserDocument
  net : StartupConfig
  auth : Gatekeeper

/-- A serialised document in the EEPROM: what is read again for it.  Reading fails if the document
is not complete. -/
structure Eeprom where
  Fits : Json → Prop
  readBack : Json → Option Json
  faithful : ∀ doc, Fits doc → readBack doc = some doc

namespace Device

variable (lib : JsonLibrary) (texts : AddressTexts) (otp : BitVec 48)

/-- The singletons of a device that was just started. -/
def started : Device :=
  { version := 0, vendor := .initial, user := .absent, net := .resetDefaults otp, auth := .initial }

/-- Empty subsystems get removed. -/
def toJson (c : Context) (d : Device) : Option Json := do
  let user ← d.user.toJson []
  let subsystems := [("immutable", d.vendor.toJson c), ("user", user), ("net", d.net.toJson texts),
    ("auth", d.auth.toJson)]
  return .object (("version", .integer d.version.toNat) ::
    (subsystems.filter fun sys => sys.2.length ≠ 0).map fun sys => (sys.1, .object sys.2))

/-- Only the subsystems whose key is given are called. -/
def fromJson (src : Json) (c : Context) (d : Device) : Option Device := do
  let vendor ← jsonGet src "immutable" (fun j => d.vendor.fromJson lib j c) d.vendor
  let user ← jsonGet src "user" (fun j => d.user.fromJson j) d.user
  let net ← jsonGet src "net" (fun j => d.net.fromJson lib texts j) d.net
  let auth ← jsonGet src "auth" (fun j => d.auth.fromJson lib j) d.auth
  return { d with vendor, user, net, auth }

def resetDefaults (d : Device) : Option Device := do
  let user ← d.user.resetDefaults
  return { version := requiredMagic, vendor := d.vendor, user, net := .resetDefaults otp
           auth := .resetDefaults d.vendor }

/-- What is read from the EEPROM after the settings were written. -/
def writeToEeprom (eeprom : Eeprom) (d : Device) : Option (Option Json) :=
  (d.toJson texts .flash).map eeprom.readBack

def versionOf (doc : Json) : BitVec 32 :=
  BitVec.ofNat 32 ((doc.member "version").asUnsigned 32 lib.parseNumber)

/-- `none` is an error of `deserializeJson`. -/
def readFromEeprom (stored : Option Json) (d : Device) : Option Device :=
  match stored with
  | some doc =>
    if requiredMagic ≤ versionOf lib doc then
      { d with version := versionOf lib doc }.fromJson lib texts doc .flash
    else d.resetDefaults otp
  | none => d.resetDefaults otp

end Device

section Restoring

variable {lib : JsonLibrary} {texts : AddressTexts} {otp : BitVec 48} {d : Device}

/-- A device that has read its settings, or fell back to the defaults, has a valid version. -/
theorem version_of_readFromEeprom {stored : Option Json} {d' : Device}
    (h : d.readFromEeprom lib texts otp stored = some d') : requiredMagic ≤ d'.version := by
  have hreset : d.resetDefaults otp = some d' → requiredMagic ≤ d'.version := by
    intro hreset
    obtain ⟨user, -, heq⟩ := Option.bind_eq_some_iff.mp hreset
    cases heq
    exact BitVec.le_refl _
  cases stored with
  | none => exact hreset h
  | some doc =>
    rw [Device.readFromEeprom] at h
    split at h
    · next hversion =>
      simp only [Device.fromJson, Option.bind_eq_bind, Option.bind_eq_some_iff] at h
      obtain ⟨vendor, -, user, -, net, -, auth, -, heq⟩ := h
      cases heq
      exact hversion
    · exact hreset h

/-- The document that is written: the user's part is always empty and gets removed. -/
theorem toJson_flash (hlive : d.user ≠ .released) :
    d.toJson texts .flash = some (.object [("version", .integer d.version.toNat),
      ("immutable", .object (d.vendor.toJson .flash)), ("net", .object (d.net.toJson texts)),
      ("auth", .object d.auth.toJson)]) := by
  have huser : d.user.toJson [] = some [] := by
    cases huser : d.user with
    | absent => rfl
    | live content => rfl
    | released => exact absurd huser hlive
  simp only [Device.toJson, huser]
  rfl

/-- What a device comes back to after a restart. -/
def Device.restored (lib : JsonLibrary) (otp : BitVec 48) (d : Device) : Device where
  version := d.version
  vendor := d.vendor
  user := .absent
  net := { d.net with
    hostname := StartupConfig.limitHostname (cString d.net.hostname)
    connectionTimeoutMs := (Device.started otp).net.connectionTimeoutMs
    maxConnections := (Device.started otp).net.maxConnections }
  auth := { d.auth with users := UserMap.fromJson lib d.auth.users.toJson, whitelist := [] }

theorem readFromEeprom_writeToEeprom {eeprom : Eeprom} (hlive : d.user ≠ .released)
    (hversion : requiredMagic ≤ d.version)
    (hfits : ∀ doc, d.toJson texts .flash = some doc → eeprom.Fits doc) :
    (d.writeToEeprom texts eeprom).bind ((Device.started otp).readFromEeprom lib texts otp) =
      some (d.restored lib otp) := by
  have hdoc : d.toJson texts .flash = _ := toJson_flash hlive
  rw [Device.writeToEeprom, hdoc, Option.map_some, Option.bind_some,
    eeprom.faithful _ (hfits _ hdoc), Device.readFromEeprom]
  generalize hnested : [("version", Json.integer d.version.toNat),
      ("immutable", .object (d.vendor.toJson .flash)), ("net", .object (d.net.toJson texts)),
      ("auth", .object d.auth.toJson)] = members
  have hread : Device.versionOf lib (.object members) = d.version := by
    subst hnested
    exact asUnsigned_toNat d.version
  rw [if_pos (by rw [hread]; exact hversion), hread]
  subst hnested
  have huser : ∀ doc : UserDocument, jsonGet (.object [("version", Json.integer d.version.toNat),
      ("immutable", .object (d.vendor.toJson .flash)), ("net", .object (d.net.toJson texts)),
      ("auth", .object d.auth.toJson)]) "user" (fun j => doc.fromJson j) doc = some doc :=
    fun _ => rfl
  simp only [Device.fromJson]
  rw [jsonGet_object rfl, VendorOTP.fromJson_toJson, huser, jsonGet_object rfl,
    StartupConfig.fromJson_toJson, jsonGet_object rfl, Gatekeeper.fromJson_toJson]
  rfl

/-- The values that `fromJson` of each subsystem can set. -/
structure SameSettings (d d' : Device) : Prop where
  vendor : d'.vendor = d.vendor
  user : d'.user.members = d.user.members
  net : { d'.net with
    connectionTimeoutMs := d.net.connectionTimeoutMs
    maxConnections := d.net.maxConnections } = d.net
  auth : d'.auth = d.auth

/-- Written settings are restored on a device that is started exactly if the user has stored
nothing, the whitelist is empty, and the texts that are read as C strings are short enough and
have no NUL. -/
theorem write_read_restores_iff (lib : JsonLibrary) (texts : AddressTexts) (otp : BitVec 48)
    (eeprom : Eeprom) (d : Device) (hlive : d.user ≠ .released)
    (hversion : requiredMagic ≤ d.version)
    (hfits : ∀ doc, d.toJson texts .flash = some doc → eeprom.Fits doc) :
    (∃ d', (d.writeToEeprom texts eeprom).bind
        ((Device.started otp).readFromEeprom lib texts otp) = some d' ∧ SameSettings d d') ↔
      d.user.members = [] ∧ d.auth.whitelist = [] ∧ IsCString d.net.hostname ∧
        d.net.hostname.length ≤ 250 ∧ ∀ e ∈ d.auth.users.entries, IsCString e.1 := by
  rw [readFromEeprom_writeToEeprom hlive hversion hfits]
  constructor
  · rintro ⟨d', heq, hsame⟩
    cases heq
    have hhostname := congrArg StartupConfig.hostname hsame.net
    have husers := congrArg Gatekeeper.users hsame.auth
    have hwhitelist := congrArg Gatekeeper.whitelist hsame.auth
    simp only [Device.restored] at hhostname husers hwhitelist
    rw [limitHostname_cString_eq_iff] at hhostname
    rw [UserMap.fromJson_toJson_eq_iff] at husers
    exact ⟨hsame.user.symm, hwhitelist.symm, hhostname.1, hhostname.2, husers⟩
  · rintro ⟨huser, hwhitelist, hnul, hlength, hnames⟩
    have hhostname := (limitHostname_cString_eq_iff _).mpr ⟨hnul, hlength⟩
    have husers : UserMap.fromJson lib d.auth.users.toJson = d.auth.users :=
      (UserMap.fromJson_toJson_eq_iff _).mpr hnames
    refine ⟨d.restored lib otp, rfl, ?_⟩
    constructor
    · rfl
    · exact huser.symm
    · simp only [Device.restored, hhostname]
    · simp only [Device.restored, husers, ← hwhitelist]

private def anyLibrary : JsonLibrary := ⟨fun _ => 0, fun _ => ""⟩

/-- An EEPROM that is large enough. -/
private def largeEeprom : Eeprom := ⟨fun _ => True, some, fun _ _ => rfl⟩

/-- A device in use, with one user and with what the user has stored. -/
private def inUse (user : UserDocument) : Device :=
  { version := requiredMagic
    vendor := { VendorOTP.initial with serialNumber := 17, defaultAdminPassword := "secret" }
    user
    net := { StartupConfig.resetDefaults 0x04E9E5112233 with enableDhcp := false }
    auth := Gatekeeper.resetDefaults
      { VendorOTP.initial with defaultAdminPassword := "secret" } }

theorem write_read_restores_without_document :
    ∃ d', ((inUse .absent).writeToEeprom .canonical largeEeprom).bind
      ((Device.started 0x04E9E5112233).readFromEeprom anyLibrary .canonical 0x04E9E5112233) =
        some d' ∧ SameSettings (inUse .absent) d' := by
  have hiff := write_read_restores_iff anyLibrary .canonical 0x04E9E5112233 largeEeprom
    (inUse .absent) (by simp [inUse]) (by decide) (fun _ _ => trivial)
  have hhostname : IsCString (inUse .absent).net.hostname := by
    unfold IsCString
    decide +kernel
  have hlength : (inUse .absent).net.hostname.length ≤ 250 := by decide +kernel
  have hnames : ∀ e ∈ (inUse .absent).auth.users.entries, IsCString e.1 := by
    unfold IsCString
    decide +kernel
  exact hiff.mpr ⟨rfl, rfl, hhostname, hlength, hnames⟩

/-- What the user stores is lost. -/
theorem not_write_read_restores_document :
    ¬ ∃ d', ((inUse (.live (.object [("room", .string "5")]))).writeToEeprom .canonical
      largeEeprom).bind
        ((Device.started 0x04E9E5112233).readFromEeprom anyLibrary .canonical 0x04E9E5112233) =
          some d' ∧ SameSettings (inUse (.live (.object [("room", .string "5")]))) d' := by
  rintro ⟨d', hread, hsame⟩
  rw [readFromEeprom_writeToEeprom (by simp [inUse]) (by decide) (fun _ _ => trivial)] at hread
  cases hread
  cases hsame.user

end Restoring

end Lucidac.Nvmconfig
