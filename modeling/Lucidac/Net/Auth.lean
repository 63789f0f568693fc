import Lucidac.Platform.Config

/-!
# Logins and clearances

Every connection carries the name of the user that logged in on it.  A message is handed to its
handler if the user has the clearance that the handler was registered with.  The build has no
`ANABRID_UNSAFE_INTERNET`.
-/

namespace Lucidac.Net

inductive SecurityLevel where
  | requiresAdmin
  | requiresLogin
  | requiresNothing
  deriving DecidableEq

structure UserPasswordAuthentification where
  db : List (String × String)

namespace UserPasswordAuthentification

def admin : String := "admin"

def isValid (users : UserPasswordAuthentification) (user pwd : String) : Bool :=
  users.db.lookup user == some pwd

/-- The clearance of a name does not depend on the database. -/
def canDo (user : String) : SecurityLevel → Bool
  | .requiresAdmin => user == admin
  | .requiresLogin => !user.isEmpty
  | .requiresNothing => true

end UserPasswordAuthentification

structure Gatekeeper where
  enableAuth : Bool
  enableUsers : Bool
  users : UserPasswordAuthentification

/-- A thin wrapper around the user name, which is empty before a login. -/
structure AuthentificationContext where
  name : String
  deriving DecidableEq

namespace AuthentificationContext

def canDo (g : Gatekeeper) (context : AuthentificationContext) (task : SecurityLevel) : Bool :=
  !g.enableAuth || !g.enableUsers || UserPasswordAuthentification.canDo context.name task

def hasBetterClearenceThen (g : Gatekeeper) (context : AuthentificationContext) (other : String) :
    Bool :=
  (context.canDo g .requiresAdmin && !UserPasswordAuthentification.canDo other .requiresAdmin) ||
    (context.canDo g .requiresLogin && !UserPasswordAuthentification.canDo other .requiresLogin)

def user (context : AuthentificationContext) : String :=
  if context.name.isEmpty then "[nobody]" else context.name

end AuthentificationContext

/-- The code, the error text and the context afterwards. -/
structure LoginResult where
  code : Int
  error : Option String
  context : AuthentificationContext

def Gatekeeper.login (lib : Platform.JsonLibrary) (g : Gatekeeper) (msgIn : Json)
    (context : AuthentificationContext) : LoginResult :=
  if !g.enableAuth && !g.enableUsers then
    ⟨10, some ("No authentification neccessary. Auth system is currently disabled " ++
      "(either by firmware build or user settings)."), context⟩
  else
    let newUser := lib.asStdString (msgIn.member "user")
    if context.hasBetterClearenceThen g newUser then
      ⟨1, some ("Login can only upgrade privileges but you wold loose. " ++
        "Open a new connection instead."), context⟩
    else if !g.users.isValid newUser (lib.asStdString (msgIn.member "password")) then
      ⟨2, some "Invalid username or password.", context⟩
    else ⟨0, none, { context with name := newUser }⟩

/-! ### Message handlers -/

/-- The handlers that use the context of the client; all others leave it alone. -/
inductive Handler where
  | login
  | lockAcquire
  | lockRelease
  | other
  deriving DecidableEq

structure RegistryEntry where
  resultPrefix : Int
  handler : Handler
  clearance : SecurityLevel
  deriving DecidableEq

abbrev Registry := List (String × RegistryEntry)

/-- `DynamicRegistry::init`, without the handlers of `ANABRID_WRITE_EEPROM`. -/
def registry : Registry :=
  [("ping", ⟨100, .other, .requiresNothing⟩),
    ("help", ⟨200, .other, .requiresNothing⟩),
    ("reset_circuit", ⟨300, .other, .requiresLogin⟩),
    ("set_circuit", ⟨400, .other, .requiresLogin⟩),
    ("get_circuit", ⟨500, .other, .requiresLogin⟩),
    ("get_entities", ⟨600, .other, .requiresLogin⟩),
    ("start_run", ⟨700, .other, .requiresLogin⟩),
    ("stop_run", ⟨780, .other, .requiresLogin⟩),
    ("one_shot_daq", ⟨800, .other, .requiresNothing⟩),
    ("manual_mode", ⟨900, .other, .requiresNothing⟩),
    ("overload_status", ⟨1000, .other, .requiresLogin⟩),
    ("net_get", ⟨6000, .other, .requiresAdmin⟩),
    ("net_set", ⟨6100, .other, .requiresAdmin⟩),
    ("net_reset", ⟨6200, .other, .requiresAdmin⟩),
    ("net_status", ⟨6300, .other, .requiresNothing⟩),
    ("login", ⟨3100, .login, .requiresNothing⟩),
    ("lock_acquire", ⟨3200, .lockAcquire, .requiresLogin⟩),
    ("lock_release", ⟨3300, .lockRelease, .requiresLogin⟩),
    ("sys_ident", ⟨3400, .other, .requiresNothing⟩),
    ("sys_reboot", ⟨3500, .other, .requiresAdmin⟩),
    ("sys_log", ⟨3600, .other, .requiresLogin⟩),
    ("sys_stats", ⟨3700, .other, .requiresLogin⟩),
    ("load_plugin", ⟨4100, .other, .requiresAdmin⟩),
    ("unload_plugin", ⟨4200, .other, .requiresAdmin⟩),
    ("ota_update_init", ⟨5000, .other, .requiresAdmin⟩),
    ("ota_update_stream", ⟨5100, .other, .requiresAdmin⟩),
    ("ota_update_abort", ⟨5200, .other, .requiresAdmin⟩),
    ("ota_update_complete", ⟨5300, .other, .requiresAdmin⟩)]

/-- What `handleMessage` did: the handler that ran, the code of a refusal or a login, and the
context afterwards. -/
structure Handled where
  ran : Option RegistryEntry
  code : Option Int
  context : AuthentificationContext

def msgType (lib : Platform.JsonLibrary) (envelopeIn : Json) : String :=
  lib.asStdString (envelopeIn.member "type")

/-- `MessageHandler::error` -/
def RegistryEntry.error (entry : RegistryEntry) (internalCode : Int) : Int :=
  if internalCode = 0 then 0 else entry.resultPrefix + internalCode

def handleMessage (lib : Platform.JsonLibrary) (registry : Registry) (g : Gatekeeper)
    (envelopeIn : Json) (context : AuthentificationContext) : Handled :=
  match registry.lookup (msgType lib envelopeIn) with
  | none => ⟨none, some (-10), context⟩
  | some entry =>
    if !context.canDo g entry.clearance then ⟨none, some (-20), context⟩
    else
      match entry.handler with
      | .login =>
        let result := g.login lib (envelopeIn.member "msg") context
        ⟨some entry, some (entry.error result.code), result.context⟩
      | .lockAcquire | .lockRelease | .other => ⟨some entry, none, context⟩

/-! ### What a login does -/

section Login

variable {lib : Platform.JsonLibrary} {g : Gatekeeper} {context : AuthentificationContext}

theorem canDo_of_enabled (hauth : g.enableAuth = true) (husers : g.enableUsers = true)
    (context : AuthentificationContext) (task : SecurityLevel) :
    context.canDo g task = UserPasswordAuthentification.canDo context.name task := by
  rw [AuthentificationContext.canDo, hauth, husers]
  rfl

/-- A login either fails and changes nothing, or names a valid user that has no less clearance. -/
theorem login_cases (lib : Platform.JsonLibrary) (g : Gatekeeper) (msgIn : Json)
    (context : AuthentificationContext) :
    ((g.login lib msgIn context).code ≠ 0 ∧ (g.login lib msgIn context).context = context) ∨
      ((g.login lib msgIn context).code = 0 ∧
        (g.login lib msgIn context).context = ⟨lib.asStdString (msgIn.member "user")⟩ ∧
        context.hasBetterClearenceThen g (lib.asStdString (msgIn.member "user")) = false ∧
        g.users.isValid (lib.asStdString (msgIn.member "user"))
          (lib.asStdString (msgIn.member "password")) = true) := by
  simp only [Gatekeeper.login]
  by_cases hdisabled : (!g.enableAuth && !g.enableUsers) = true
  · rw [if_pos hdisabled]
    exact Or.inl ⟨(by decide : (10 : Int) ≠ 0), rfl⟩
  rw [if_neg hdisabled]
  by_cases hbetter : context.hasBetterClearenceThen g (lib.asStdString (msgIn.member "user")) = true
  · rw [if_pos hbetter]
    exact Or.inl ⟨(by decide : (1 : Int) ≠ 0), rfl⟩
  rw [if_neg hbetter]
  by_cases hvalid : (!g.users.isValid (lib.asStdString (msgIn.member "user"))
      (lib.asStdString (msgIn.member "password"))) = true
  · rw [if_pos hvalid]
    exact Or.inl ⟨(by decide : (2 : Int) ≠ 0), rfl⟩
  · rw [if_neg hvalid]
    refine Or.inr ⟨rfl, rfl, by simpa using hbetter, by simpa using hvalid⟩

/-- Whoever replaces a name has every clearance that the name had. -/
theorem canDo_of_not_hasBetter {other : String} {task : SecurityLevel}
    (hbetter : context.hasBetterClearenceThen g other = false) (h : context.canDo g task = true) :
    UserPasswordAuthentification.canDo other task = true := by
  rw [AuthentificationContext.hasBetterClearenceThen, Bool.or_eq_false_iff] at hbetter
  cases task with
  | requiresAdmin =>
    rw [h, Bool.true_and] at hbetter
    simpa using hbetter.1
  | requiresLogin =>
    rw [h, Bool.true_and] at hbetter
    simpa using hbetter.2
  | requiresNothing => rfl

end Login

end Lucidac.Net
