import Lucidac.Nvmconfig.PersistentSettings

/-!
# The document of the user

The document is created by the first `fromJson` and deleted by `reset_defaults` and `clear`, which
leave the pointer to it as it is.
-/

namespace Lucidac.Nvmconfig

open Platform (JsonLibrary)

inductive UserOp where
  | fromJson (src : Json)
  | toJson
  | resetDefaults
  | clear

/-- An operation that goes to a document that was released has no result. -/
def UserOp.apply (doc : UserDocument) : UserOp → Option UserDocument
  | .fromJson src => doc.fromJson src
  | .toJson => (doc.toJson []).map fun _ => doc
  | .resetDefaults => doc.resetDefaults
  | .clear => doc.clear

def runOps (ops : List UserOp) (doc : UserDocument) : Option UserDocument :=
  ops.foldlM UserOp.apply doc

/-- Whether the store is to be empty after the operations: no `fromJson` since the beginning or
since the latest release. -/
def isEmptied : List UserOp → Bool :=
  List.foldl (fun emptied op => match op with
    | .fromJson _ => false
    | .toJson => emptied
    | .resetDefaults | .clear => true) true

/-- No operation of the sequence goes to a released document, and while the store is to be empty
nothing is written to JSON. -/
structure OwnsDocument (ops : List UserOp) : Prop where
  runs : ∀ before, before <+: ops → (runOps before .absent).isSome
  emptied : ∀ before, before ++ [.toJson] <+: ops → isEmptied before = true →
    (runOps before .absent).bind (·.toJson []) = some []

/-- A release of a document is the last operation. -/
def ReleasesLast : (hasDocument : Bool) → List UserOp → Prop
  | _, [] => True
  | _, .fromJson _ :: rest => ReleasesLast true rest
  | hasDocument, .toJson :: rest => ReleasesLast hasDocument rest
  | hasDocument, .resetDefaults :: rest | hasDocument, .clear :: rest =>
    if hasDocument then rest = [] else ReleasesLast false rest

section Runs

variable {ops : List UserOp}

def UserDocument.isLive : UserDocument → Bool
  | .live _ => true
  | .absent | .released => false

theorem runOps_cons (op : UserOp) (doc : UserDocument) :
    runOps (op :: ops) doc = (op.apply doc).bind (runOps ops) := rfl

theorem runOps_released : (runOps ops .released).isSome = true ↔ ops = [] := by
  cases ops with
  | nil => simp [runOps]
  | cons op ops =>
    rw [runOps_cons]
    cases op <;> simp [UserOp.apply, UserDocument.fromJson, UserDocument.toJson,
      UserDocument.resetDefaults, UserDocument.clear, UserDocument.delete]

/-- The run of a document that is not released fails at the first operation after its release. -/
theorem isSome_runOps_iff {doc : UserDocument} (h : doc ≠ .released) :
    (runOps ops doc).isSome = true ↔ ReleasesLast doc.isLive ops := by
  have habsent : UserDocument.absent ≠ .released := nofun
  have hlive : ∀ content, UserDocument.live content ≠ .released := fun _ => nofun
  induction ops generalizing doc with
  | nil => simp [runOps, ReleasesLast]
  | cons op ops ih =>
    rw [runOps_cons]
    cases doc with
    | released => exact absurd rfl h
    | absent =>
      cases op with
      | fromJson src => exact ih (hlive _)
      | toJson => exact ih habsent
      | resetDefaults => exact ih habsent
      | clear => exact ih habsent
    | live content =>
      cases op with
      | fromJson src => exact ih (hlive _)
      | toJson => exact ih (hlive content)
      | resetDefaults => exact runOps_released
      | clear => exact runOps_released

theorem runOps_append (before after : List UserOp) (doc : UserDocument) :
    runOps (before ++ after) doc = (runOps before doc).bind (runOps after) :=
  List.foldlM_append

theorem isSome_of_isPrefix {before : List UserOp} {doc : UserDocument} (hbefore : before <+: ops)
    (h : (runOps ops doc).isSome = true) : (runOps before doc).isSome = true := by
  obtain ⟨after, rfl⟩ := hbefore
  rw [runOps_append] at h
  exact Option.isSome_of_isSome_bind h

/-- What `toJson` leaves is what it was given, as long as it returns. -/
theorem toJson_of_isSome {doc : UserDocument} {target : List (String × Json)}
    (h : (doc.toJson target).isSome = true) : doc.toJson target = some target := by
  cases doc with
  | absent => rfl
  | live content => rfl
  | released => cases h

/-- Sequences of operations keep to the document they own exactly if each release that finds a
document is the last operation. -/
theorem ownsDocument_iff_releasesLast (ops : List UserOp) :
    OwnsDocument ops ↔ ReleasesLast false ops := by
  have hruns : (runOps ops .absent).isSome = true ↔ ReleasesLast false ops :=
    isSome_runOps_iff nofun
  rw [← hruns]
  constructor
  · intro h
    exact h.runs ops (List.prefix_refl ops)
  · intro h
    refine ⟨fun before hbefore => isSome_of_isPrefix hbefore h, fun before hbefore _ => ?_⟩
    have hnext := isSome_of_isPrefix hbefore h
    rw [runOps_append] at hnext
    obtain ⟨doc, hdoc⟩ := Option.isSome_iff_exists.mp (Option.isSome_of_isSome_bind hnext)
    rw [hdoc, Option.bind_some] at hnext ⊢
    apply toJson_of_isSome
    simpa [runOps, UserOp.apply] using hnext

end Runs

/-! ### The calls that drive the operations -/

/-- Calls of the writer and of the handlers of `net_get`, `net_set` and `net_reset`. -/
inductive SettingsCall where
  | readFromEeprom (stored : Option Json)
  | resetDefaults (writeToEeprom : Bool)
  | netGet
  | netSet (msgIn : Json)
  | netReset

namespace SettingsCall

/-- A device whose settings are converted to JSON, if they are to be. -/
def converted (texts : AddressTexts) (c : Context) (wanted : Bool) (d : Device) : Option Device :=
  if wanted then (d.toJson texts c).map fun _ => d else some d

def apply (lib : JsonLibrary) (texts : AddressTexts) (otp : BitVec 48) (d : Device) :
    SettingsCall → Option Device
  | .readFromEeprom stored => d.readFromEeprom lib texts otp stored
  | .resetDefaults writeToEeprom => do
    let d ← d.resetDefaults otp
    converted texts .flash writeToEeprom d
  | .netGet => converted texts .user true d
  | .netSet msgIn => do
    let d ← d.fromJson lib texts msgIn .user
    let d ← converted texts .flash (!msgIn.containsKey "no_write") d
    converted texts .user true d
  | .netReset => some { d with net := .resetDefaults otp }

/-- `fromJson` is called if its key is given. -/
def fromJsonOps (src : Json) : List UserOp :=
  if src.containsKey "user" then [.fromJson (src.member "user")] else []

def toJsonOps (wanted : Bool) : List UserOp := if wanted then [.toJson] else []

/-- The operations on the document that a call makes. -/
def userOps (lib : JsonLibrary) : SettingsCall → List UserOp
  | .readFromEeprom none => [.resetDefaults]
  | .readFromEeprom (some doc) =>
    if requiredMagic ≤ Device.versionOf lib doc then fromJsonOps doc else [.resetDefaults]
  | .resetDefaults writeToEeprom => .resetDefaults :: toJsonOps writeToEeprom
  | .netGet => toJsonOps true
  | .netSet msgIn =>
    fromJsonOps msgIn ++ (toJsonOps (!msgIn.containsKey "no_write") ++ toJsonOps true)
  | .netReset => []

end SettingsCall

section Calls

variable {lib : JsonLibrary} {texts : AddressTexts} {otp : BitVec 48} {d d' : Device}

theorem runOps_fromJsonOps {src : Json} {c : Context}
    (h : d.fromJson lib texts src c = some d') :
    runOps (SettingsCall.fromJsonOps src) d.user = some d'.user := by
  simp only [Device.fromJson, Option.bind_eq_bind, Option.bind_eq_some_iff] at h
  obtain ⟨vendor, -, user, huser, net, -, auth, -, heq⟩ := h
  cases heq
  unfold jsonGet at huser
  unfold SettingsCall.fromJsonOps
  split at huser
  · next hkey => simpa [hkey, runOps, UserOp.apply] using huser
  · next hkey => simpa [hkey, runOps] using huser

theorem runOps_toJsonOps {c : Context} {wanted : Bool}
    (h : SettingsCall.converted texts c wanted d = some d') :
    runOps (SettingsCall.toJsonOps wanted) d.user = some d'.user := by
  cases wanted with
  | false =>
    cases h
    rfl
  | true =>
    obtain ⟨doc, hdoc, rfl⟩ := Option.map_eq_some_iff.mp h
    simp only [Device.toJson, Option.bind_eq_bind, Option.bind_eq_some_iff] at hdoc
    obtain ⟨user, huser, -⟩ := hdoc
    simp [SettingsCall.toJsonOps, runOps, UserOp.apply, huser]

theorem runOps_resetDefaults (h : d.resetDefaults otp = some d') :
    runOps [.resetDefaults] d.user = some d'.user := by
  simp only [Device.resetDefaults, Option.bind_eq_bind, Option.bind_eq_some_iff] at h
  obtain ⟨user, huser, heq⟩ := h
  cases heq
  simp [runOps, UserOp.apply, huser]

/-- A call that returns has made its operations on the document. -/
theorem runOps_userOps {call : SettingsCall} (h : call.apply lib texts otp d = some d') :
    runOps (call.userOps lib) d.user = some d'.user := by
  cases call with
  | readFromEeprom stored =>
    cases stored with
    | none => exact runOps_resetDefaults h
    | some doc =>
      simp only [SettingsCall.apply, Device.readFromEeprom] at h
      simp only [SettingsCall.userOps]
      split at h
      · next hversion =>
        rw [if_pos hversion]
        have hops := runOps_fromJsonOps h
        exact hops
      · next hversion =>
        rw [if_neg hversion]
        exact runOps_resetDefaults h
  | resetDefaults writeToEeprom =>
    obtain ⟨d₁, hreset, hwrite⟩ := Option.bind_eq_some_iff.mp h
    rw [SettingsCall.userOps, ← List.singleton_append, runOps_append,
      runOps_resetDefaults hreset, Option.bind_some]
    exact runOps_toJsonOps hwrite
  | netGet => exact runOps_toJsonOps h
  | netSet msgIn =>
    obtain ⟨d₁, hset, h⟩ := Option.bind_eq_some_iff.mp h
    obtain ⟨d₂, hwrite, hget⟩ := Option.bind_eq_some_iff.mp h
    rw [SettingsCall.userOps, runOps_append, runOps_fromJsonOps hset, Option.bind_some,
      runOps_append, runOps_toJsonOps hwrite, Option.bind_some]
    exact runOps_toJsonOps hget
  | netReset =>
    cases h
    rfl

/-- What a device does to the document in a run of calls is a run of operations, so the run does
not return if the operations go to a released document. -/
theorem runOps_flatMap_userOps {calls : List SettingsCall}
    (h : calls.foldlM (SettingsCall.apply lib texts otp) d = some d') :
    runOps (calls.flatMap (SettingsCall.userOps lib)) d.user = some d'.user := by
  induction calls generalizing d with
  | nil =>
    cases h
    rfl
  | cons call calls ih =>
    obtain ⟨d₁, hcall, hrest⟩ := Option.bind_eq_some_iff.mp h
    rw [List.flatMap_cons, runOps_append, runOps_userOps hcall, Option.bind_some]
    exact ih hrest

theorem releasesLast_of_returns {calls : List SettingsCall}
    (h : calls.foldlM (SettingsCall.apply lib texts otp) (Device.started otp) = some d') :
    ReleasesLast false (calls.flatMap (SettingsCall.userOps lib)) := by
  have hruns := runOps_flatMap_userOps h
  have hiff : (runOps (calls.flatMap (SettingsCall.userOps lib)) .absent).isSome = true ↔ _ :=
    isSome_runOps_iff nofun
  exact hiff.mp (Option.isSome_iff_exists.mpr ⟨_, hruns⟩)

/-- `net_set` with a value for `user`, then `reset_defaults` with the default of its parameter: the
settings are written to the EEPROM after the document was deleted. -/
theorem not_ownsDocument_after_reset :
    ¬ OwnsDocument ([SettingsCall.netSet (.object [("user", .object [("room", .string "5")])]),
      .resetDefaults true].flatMap (SettingsCall.userOps ⟨fun _ => 0, fun _ => ""⟩)) := by
  intro h
  have hruns := h.runs _ (List.prefix_refl _)
  revert hruns
  decide

end Calls

end Lucidac.Nvmconfig
