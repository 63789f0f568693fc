import Mathlib.Data.List.Induction
import Lucidac.Net.Auth

/-! # The messages handled with one context -/

namespace Lucidac.Net

/-- A message with the settings that are in force when it is handled. -/
structure Exchange where
  gatekeeper : Gatekeeper
  envelopeIn : Json

namespace Exchange

def Enabled (e : Exchange) : Prop :=
  e.gatekeeper.enableAuth = true ∧ e.gatekeeper.enableUsers = true

def handle (lib : Platform.JsonLibrary) (registry : Registry) (e : Exchange)
    (context : AuthentificationContext) : Handled :=
  handleMessage lib registry e.gatekeeper e.envelopeIn context

def login (lib : Platform.JsonLibrary) (e : Exchange) (context : AuthentificationContext) :
    LoginResult :=
  e.gatekeeper.login lib (e.envelopeIn.member "msg") context

/-- A login message that names the user with the password of the database in force. -/
def ValidLogin (lib : Platform.JsonLibrary) (registry : Registry) (e : Exchange) (user : String) :
    Prop :=
  (∃ entry, registry.lookup (msgType lib e.envelopeIn) = some entry ∧ entry.handler = .login) ∧
    lib.asStdString ((e.envelopeIn.member "msg").member "user") = user ∧
    e.gatekeeper.users.db.lookup user =
      some (lib.asStdString ((e.envelopeIn.member "msg").member "password"))

end Exchange

/-- The context that starts without a user, after the messages. -/
def contextAfter (lib : Platform.JsonLibrary) (registry : Registry) (exchanges : List Exchange) :
    AuthentificationContext :=
  exchanges.foldl (fun context e => (e.handle lib registry context).context) ⟨""⟩

section History

variable {lib : Platform.JsonLibrary} {registry : Registry}

variable (lib registry) in
/-- What one message does: it is turned away, or the handler of its type runs. -/
theorem handle_cases (e : Exchange) (context : AuthentificationContext) :
    ((e.handle lib registry context).ran = none ∧
        (e.handle lib registry context).context = context) ∨
      ∃ entry, registry.lookup (msgType lib e.envelopeIn) = some entry ∧
        context.canDo e.gatekeeper entry.clearance = true ∧
        (e.handle lib registry context).ran = some entry ∧
        (e.handle lib registry context).context =
          if entry.handler = .login then (e.login lib context).context else context := by
  simp only [Exchange.handle, handleMessage]
  cases hlookup : registry.lookup (msgType lib e.envelopeIn) with
  | none => exact Or.inl ⟨rfl, rfl⟩
  | some entry =>
    dsimp only
    by_cases hdenied : (!context.canDo e.gatekeeper entry.clearance) = true
    · rw [if_pos hdenied]
      exact Or.inl ⟨rfl, rfl⟩
    · rw [if_neg hdenied]
      refine Or.inr ⟨entry, rfl, by simpa using hdenied, ?_⟩
      cases entry.handler <;> exact ⟨rfl, rfl⟩

variable (lib registry) in
/-- The context only ever changes to a name that a valid login brings. -/
theorem handle_context_cases (e : Exchange) (context : AuthentificationContext) :
    (e.handle lib registry context).context = context ∨
      ∃ user, (e.handle lib registry context).context = ⟨user⟩ ∧
        e.ValidLogin lib registry user := by
  obtain ⟨_, hsame⟩ | ⟨entry, hlookup, _, _, hcontext⟩ := handle_cases lib registry e context
  · exact Or.inl hsame
  by_cases hlogin : entry.handler = .login
  · rw [hcontext, if_pos hlogin]
    obtain ⟨_, hsame⟩ | ⟨_, huser, _, hvalid⟩ :=
      login_cases lib e.gatekeeper (e.envelopeIn.member "msg") context
    · exact Or.inl hsame
    · refine Or.inr ⟨_, huser, ⟨entry, hlookup, hlogin⟩, rfl, ?_⟩
      simpa [UserPasswordAuthentification.isValid] using hvalid
  · rw [hcontext, if_neg hlogin]
    exact Or.inl rfl

theorem contextAfter_append (exchanges : List Exchange) (e : Exchange) :
    contextAfter lib registry (exchanges ++ [e]) =
      (e.handle lib registry (contextAfter lib registry exchanges)).context := by
  simp [contextAfter]

/-- The invariant of the history: the context carries a name that some message logged in. -/
theorem exists_validLogin {exchanges : List Exchange}
    (hname : (contextAfter lib registry exchanges).name ≠ "") :
    ∃ x ∈ exchanges, x.ValidLogin lib registry (contextAfter lib registry exchanges).name := by
  induction exchanges using List.reverseRecOn with
  | nil => exact absurd rfl hname
  | append_singleton exchanges e ih =>
    rw [contextAfter_append] at hname ⊢
    obtain hsame | ⟨user, huser, hvalid⟩ :=
      handle_context_cases lib registry e (contextAfter lib registry exchanges)
    · rw [hsame] at hname ⊢
      obtain ⟨x, hx, hlogin⟩ := ih hname
      exact ⟨x, List.mem_append_left _ hx, hlogin⟩
    · rw [huser]
      exact ⟨e, by simp, hvalid⟩

theorem handle_ran {e : Exchange} {context : AuthentificationContext} {entry : RegistryEntry}
    (h : (e.handle lib registry context).ran = some entry) :
    context.canDo e.gatekeeper entry.clearance = true ∧
      (e.handle lib registry context).context =
        if entry.handler = .login then (e.login lib context).context else context := by
  obtain ⟨hnone, _⟩ | ⟨found, _, hcan, hran, hcontext⟩ := handle_cases lib registry e context
  · rw [hnone] at h
    cases h
  · rw [hran] at h
    cases h
    exact ⟨hcan, hcontext⟩

end History

/-- A handler that needs a login runs only after one, a handler that needs the admin only after the
admin's; and logins never take a clearance away. -/
theorem handlers_run_after_login (lib : Platform.JsonLibrary) (registry : Registry)
    (exchanges : List Exchange) (e : Exchange) (henabled : ∀ x ∈ exchanges ++ [e], x.Enabled)
    (entry : RegistryEntry)
    (hran : (e.handle lib registry (contextAfter lib registry exchanges)).ran = some entry) :
    (entry.clearance = .requiresLogin →
        ∃ x ∈ exchanges, ∃ user, user ≠ "" ∧ x.ValidLogin lib registry user) ∧
      (entry.clearance = .requiresAdmin →
        ∃ x ∈ exchanges, x.ValidLogin lib registry UserPasswordAuthentification.admin) ∧
      (entry.handler = .login →
        ((e.login lib (contextAfter lib registry exchanges)).code ≠ 0 →
          contextAfter lib registry (exchanges ++ [e]) = contextAfter lib registry exchanges) ∧
        ((e.login lib (contextAfter lib registry exchanges)).code = 0 →
          ∀ task, (contextAfter lib registry exchanges).canDo e.gatekeeper task = true →
            (contextAfter lib registry (exchanges ++ [e])).canDo e.gatekeeper task = true)) := by
  obtain ⟨hauth, husers⟩ := henabled e (by simp)
  obtain ⟨hcan, hcontext⟩ := handle_ran hran
  rw [canDo_of_enabled hauth husers] at hcan
  refine ⟨?_, ?_, ?_⟩
  · intro hclearance
    rw [hclearance] at hcan
    have hname : (contextAfter lib registry exchanges).name ≠ "" := by
      simpa [UserPasswordAuthentification.canDo] using hcan
    obtain ⟨x, hx, hvalid⟩ := exists_validLogin hname
    exact ⟨x, hx, _, hname, hvalid⟩
  · intro hclearance
    rw [hclearance] at hcan
    have hname : (contextAfter lib registry exchanges).name =
        UserPasswordAuthentification.admin := by
      simpa [UserPasswordAuthentification.canDo] using hcan
    have hnonempty : (contextAfter lib registry exchanges).name ≠ "" := by
      rw [hname]
      decide
    obtain ⟨x, hx, hvalid⟩ := exists_validLogin hnonempty
    rw [hname] at hvalid
    exact ⟨x, hx, hvalid⟩
  · intro hlogin
    rw [contextAfter_append, hcontext, if_pos hlogin]
    obtain ⟨hfailed, hsame⟩ | ⟨hok, huser, hbetter, _⟩ := login_cases lib e.gatekeeper
      (e.envelopeIn.member "msg") (contextAfter lib registry exchanges)
    · exact ⟨fun _ => hsame, fun hcode => absurd hcode hfailed⟩
    · refine ⟨fun hcode => absurd hok hcode, ?_⟩
      intro _ task htask
      rw [Exchange.login, huser, canDo_of_enabled hauth husers]
      exact canDo_of_not_hasBetter hbetter htask

/-! ### A client that logs in as the admin -/

def loginEnvelope (user password : String) : Json :=
  .object [("type", .string "login"),
    ("msg", .object [("user", .string user), ("password", .string password)])]

def requestEnvelope (type : String) : Json := .object [("type", .string type)]

/-- The settings of a device with one password for the admin and one for the default user. -/
def hardened : Gatekeeper :=
  ⟨true, true, ⟨[("admin", "secret"), ("user", "guest")]⟩⟩

theorem net_get_runs_after_admin_login :
    ((⟨hardened, requestEnvelope "net_get"⟩ : Exchange).handle ⟨fun _ => 0, fun _ => "null"⟩
        registry (contextAfter ⟨fun _ => 0, fun _ => "null"⟩ registry
          [⟨hardened, loginEnvelope "admin" "guess"⟩, ⟨hardened, loginEnvelope "user" "guest"⟩,
            ⟨hardened, loginEnvelope "admin" "secret"⟩])).ran =
        some ⟨6000, .other, .requiresAdmin⟩ ∧
      ∃ x ∈ [(⟨hardened, loginEnvelope "admin" "guess"⟩ : Exchange),
          ⟨hardened, loginEnvelope "user" "guest"⟩, ⟨hardened, loginEnvelope "admin" "secret"⟩],
        x.ValidLogin ⟨fun _ => 0, fun _ => "null"⟩ registry UserPasswordAuthentification.admin := by
  have hran : ((⟨hardened, requestEnvelope "net_get"⟩ : Exchange).handle
      ⟨fun _ => 0, fun _ => "null"⟩ registry
      (contextAfter ⟨fun _ => 0, fun _ => "null"⟩ registry
        [⟨hardened, loginEnvelope "admin" "guess"⟩, ⟨hardened, loginEnvelope "user" "guest"⟩,
          ⟨hardened, loginEnvelope "admin" "secret"⟩])).ran =
      some ⟨6000, .other, .requiresAdmin⟩ := by
    decide +kernel
  have hall := handlers_run_after_login ⟨fun _ => 0, fun _ => "null"⟩ registry _
    ⟨hardened, requestEnvelope "net_get"⟩ (by simp [Exchange.Enabled, hardened]) _ hran
  exact ⟨hran, hall.2.1 rfl⟩

end Lucidac.Net
