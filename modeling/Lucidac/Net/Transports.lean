import Mathlib.Data.List.Forall2
import Lucidac.Framework.Unwinding
import Lucidac.Net.LoginHistory

/-!
# Clients on different transports

The clients talk to one protocol object, but the context of a message depends on the transport.
The serial line has the context of the admin.  Every JSONL connection and every websocket has a
context of its own.  All HTTP requests share one context.
-/

namespace Lucidac.Net

open Framework

inductive Transport where
  | serial
  | tcp
  | http
  | websocket
  deriving DecidableEq

/-- `JsonlServer::Client` and `LucidacWebsocketsClient` -/
structure Connection (Client : Type) where
  client : Client
  userContext : AuthentificationContext

/-- The settings, the static contexts of `loop` and `api`, and the lists of connections. -/
structure Server (Client : Type) where
  gatekeeper : Gatekeeper
  adminContext : AuthentificationContext
  httpContext : AuthentificationContext
  jsonlClients : List (Connection Client)
  websocketClients : List (Connection Client)

/-- The settings change, a client connects or disconnects, or a message of a client is parsed. -/
inductive Event (Client : Type) where
  | settings (g : Gatekeeper)
  | connect (client : Client)
  | disconnect (client : Client)
  | message (client : Client) (envelopeIn : Json)

section Server

variable {Client : Type} [DecidableEq Client]

/-- A client has one connection at a time. -/
def accept (maxConnections : Nat) (client : Client) (clients : List (Connection Client)) :
    List (Connection Client) :=
  if (clients.map Connection.client).contains client then clients
  else if clients.length = maxConnections then clients
  else clients ++ [⟨client, ⟨""⟩⟩]

def erase (client : Client) (clients : List (Connection Client)) : List (Connection Client) :=
  clients.eraseP (·.client = client)

/-- The message of the client is handled with the context of its connection. -/
def Connection.receive (lib : Platform.JsonLibrary) (g : Gatekeeper) (client : Client)
    (envelopeIn : Json) (connection : Connection Client) : Connection Client :=
  if connection.client = client then
    { connection with
      userContext := (handleMessage lib registry g envelopeIn connection.userContext).context }
  else connection

def receive (lib : Platform.JsonLibrary) (g : Gatekeeper) (client : Client) (envelopeIn : Json)
    (clients : List (Connection Client)) : List (Connection Client) :=
  clients.map (·.receive lib g client envelopeIn)

def contextsIn (client : Client) (clients : List (Connection Client)) :
    List AuthentificationContext :=
  (clients.filter (·.client = client)).map Connection.userContext

namespace Server

def initial (g : Gatekeeper) : Server Client :=
  ⟨g, ⟨UserPasswordAuthentification.admin⟩, ⟨""⟩, [], []⟩

variable (lib : Platform.JsonLibrary) (maxConnections : Nat) (transport : Client → Transport)

def step (s : Server Client) : Event Client → Server Client
  | .settings g => { s with gatekeeper := g }
  | .connect client =>
    match transport client with
    | .tcp => { s with jsonlClients := accept maxConnections client s.jsonlClients }
    | .websocket => { s with websocketClients := accept maxConnections client s.websocketClients }
    | .serial | .http => s
  | .disconnect client =>
    match transport client with
    | .tcp => { s with jsonlClients := erase client s.jsonlClients }
    | .websocket => { s with websocketClients := erase client s.websocketClients }
    | .serial | .http => s
  | .message client envelopeIn =>
    match transport client with
    | .serial =>
      { s with
        adminContext :=
          (handleMessage lib registry s.gatekeeper envelopeIn s.adminContext).context }
    | .tcp =>
      { s with jsonlClients := receive lib s.gatekeeper client envelopeIn s.jsonlClients }
    | .http =>
      { s with
        httpContext := (handleMessage lib registry s.gatekeeper envelopeIn s.httpContext).context }
    | .websocket =>
      { s with websocketClients := receive lib s.gatekeeper client envelopeIn s.websocketClients }

/-- The contexts that a message of the client is handled with. -/
def contextsOf (s : Server Client) (client : Client) : List AuthentificationContext :=
  match transport client with
  | .serial => [s.adminContext]
  | .tcp => contextsIn client s.jsonlClients
  | .http => [s.httpContext]
  | .websocket => contextsIn client s.websocketClients

/-- What the client may do when its messages are handled. -/
def clearances (client : Client) (s : Server Client) : Event Client → List (SecurityLevel → Bool)
  | .message sender _ =>
    if sender = client then (s.contextsOf transport client).map (·.canDo s.gatekeeper) else []
  | .settings _ | .connect _ | .disconnect _ => []

def system (client : Client) :
    ObservedSystem (Server Client) (Event Client) (SecurityLevel → Bool) where
  step := step lib maxConnections transport
  observe := clearances transport client

end Server

def loginOfOther (lib : Platform.JsonLibrary) (client : Client) : Event Client → Bool
  | .message sender envelopeIn => sender ≠ client && msgType lib envelopeIn == "login"
  | .settings _ | .connect _ | .disconnect _ => false

theorem sender_ne_of_loginOfOther {lib : Platform.JsonLibrary} {client sender : Client}
    {envelopeIn : Json} (h : loginOfOther lib client (.message sender envelopeIn) = true) :
    sender ≠ client := by
  simp only [loginOfOther, Bool.and_eq_true, decide_eq_true_eq] at h
  exact h.1

/-- What the client may do does not depend on the logins of others. -/
def Isolated (lib : Platform.JsonLibrary) (maxConnections : Nat) (transport : Client → Transport)
    (client : Client) : Prop :=
  ∀ g : Gatekeeper, (Server.system lib maxConnections transport client).Noninterfering
    (loginOfOther lib client) (.initial g)

/-! ### Connections that differ only for other clients -/

/-- Two connections of one client, with the same context if it is the given client. -/
def Connection.SameFor (client : Client) (k k' : Connection Client) : Prop :=
  k.client = k'.client ∧ (k.client = client → k.userContext = k'.userContext)

def SameFor (client : Client) : List (Connection Client) → List (Connection Client) → Prop :=
  List.Forall₂ (Connection.SameFor client)

variable {client : Client} {k k' : Connection Client} {l l' : List (Connection Client)}

theorem Connection.SameFor.receive (h : k.SameFor client k') (lib : Platform.JsonLibrary)
    (g : Gatekeeper) (sender : Client) (envelopeIn : Json) :
    (k.receive lib g sender envelopeIn).SameFor client (k'.receive lib g sender envelopeIn) := by
  obtain ⟨hclients, hcontexts⟩ := h
  rw [Connection.receive, Connection.receive]
  by_cases hsender : k.client = sender
  · rw [if_pos hsender, if_pos (hclients ▸ hsender)]
    refine ⟨hclients, ?_⟩
    intro hclient
    simp only [hcontexts hclient]
  · rw [if_neg hsender, if_neg (hclients ▸ hsender)]
    exact ⟨hclients, hcontexts⟩

theorem Connection.SameFor.receive_left (h : k.SameFor client k') (lib : Platform.JsonLibrary)
    (g : Gatekeeper) {sender : Client} (hsender : sender ≠ client) (envelopeIn : Json) :
    (k.receive lib g sender envelopeIn).SameFor client k' := by
  rw [Connection.receive]
  by_cases hk : k.client = sender
  · rw [if_pos hk]
    exact ⟨h.1, fun hclient => absurd (hk.symm.trans hclient) hsender⟩
  · rw [if_neg hk]
    exact h

theorem SameFor.receive (h : SameFor client l l') (lib : Platform.JsonLibrary) (g : Gatekeeper)
    (sender : Client) (envelopeIn : Json) :
    SameFor client (receive lib g sender envelopeIn l) (receive lib g sender envelopeIn l') := by
  induction h with
  | nil => exact .nil
  | cons hk _ ih => exact .cons (hk.receive lib g sender envelopeIn) ih

theorem SameFor.receive_left (h : SameFor client l l') (lib : Platform.JsonLibrary) (g : Gatekeeper)
    {sender : Client} (hsender : sender ≠ client) (envelopeIn : Json) :
    SameFor client (Net.receive lib g sender envelopeIn l) l' := by
  induction h with
  | nil => exact .nil
  | cons hk _ ih => exact .cons (hk.receive_left lib g hsender envelopeIn) ih

omit [DecidableEq Client] in
theorem SameFor.map_client (h : SameFor client l l') :
    l.map Connection.client = l'.map Connection.client := by
  induction h with
  | nil => rfl
  | cons hk _ ih => rw [List.map_cons, List.map_cons, hk.1, ih]

theorem SameFor.accept (h : SameFor client l l') (maxConnections : Nat) (other : Client) :
    SameFor client (accept maxConnections other l) (accept maxConnections other l') := by
  rw [Net.accept, Net.accept, h.map_client, List.Forall₂.length_eq h]
  split
  · exact h
  split
  · exact h
  · exact List.rel_append h (.cons ⟨rfl, fun _ => rfl⟩ .nil)

theorem SameFor.erase (h : SameFor client l l') (other : Client) :
    SameFor client (erase other l) (erase other l') := by
  induction h with
  | nil => exact .nil
  | @cons k k' l l' hk htail ih =>
    rw [Net.erase, Net.erase]
    by_cases hother : k.client = other
    · have hother' : k'.client = other := hk.1 ▸ hother
      rw [List.eraseP_cons_of_pos (by simpa using hother),
        List.eraseP_cons_of_pos (by simpa using hother')]
      exact htail
    · have hother' : ¬ k'.client = other := hk.1 ▸ hother
      rw [List.eraseP_cons_of_neg (by simpa using hother),
        List.eraseP_cons_of_neg (by simpa using hother')]
      exact .cons hk ih

theorem SameFor.contextsIn (h : SameFor client l l') :
    contextsIn client l = contextsIn client l' := by
  induction h with
  | nil => rfl
  | @cons k k' l l' hk _ ih =>
    rw [Net.contextsIn] at ih ⊢
    by_cases hclient : k.client = client
    · have hclient' : k'.client = client := hk.1 ▸ hclient
      rw [Net.contextsIn, List.filter_cons_of_pos (by simpa using hclient),
        List.filter_cons_of_pos (by simpa using hclient'), List.map_cons, List.map_cons,
        hk.2 hclient, ih]
      rfl
    · have hclient' : ¬ k'.client = client := hk.1 ▸ hclient
      rw [Net.contextsIn, List.filter_cons_of_neg (by simpa using hclient),
        List.filter_cons_of_neg (by simpa using hclient'), ih]
      rfl

/-! ### Two runs with different logins of the others -/

/-- The admin on the serial line cannot log in as anyone else. -/
theorem handleMessage_admin (lib : Platform.JsonLibrary) (registry : Registry) (g : Gatekeeper)
    (envelopeIn : Json) :
    (handleMessage lib registry g envelopeIn ⟨UserPasswordAuthentification.admin⟩).context =
      ⟨UserPasswordAuthentification.admin⟩ := by
  obtain ⟨_, hsame⟩ | ⟨entry, _, _, _, hcontext⟩ :=
    handle_cases lib registry ⟨g, envelopeIn⟩ ⟨UserPasswordAuthentification.admin⟩
  · exact hsame
  refine Eq.trans hcontext ?_
  by_cases hlogin : entry.handler = .login
  · rw [if_pos hlogin]
    obtain ⟨_, hsame⟩ | ⟨_, huser, hbetter, _⟩ := login_cases lib g (envelopeIn.member "msg")
      ⟨UserPasswordAuthentification.admin⟩
    · exact hsame
    · have hadmin : AuthentificationContext.canDo g ⟨UserPasswordAuthentification.admin⟩
          .requiresAdmin = true := by
        simp [AuthentificationContext.canDo, UserPasswordAuthentification.canDo]
      have hname := canDo_of_not_hasBetter hbetter hadmin
      rw [Exchange.login, huser]
      simpa [UserPasswordAuthentification.canDo] using hname
  · rw [if_neg hlogin]

/-- What the runs have in common. -/
structure Server.SameFor (transport : Client → Transport) (client : Client) (s t : Server Client) :
    Prop where
  gatekeeper : s.gatekeeper = t.gatekeeper
  admin_left : s.adminContext = ⟨UserPasswordAuthentification.admin⟩
  admin_right : t.adminContext = ⟨UserPasswordAuthentification.admin⟩
  http : transport client = .http → s.httpContext = t.httpContext
  jsonl : Net.SameFor client s.jsonlClients t.jsonlClients
  websocket : Net.SameFor client s.websocketClients t.websocketClients

namespace Server

variable {lib : Platform.JsonLibrary} {maxConnections : Nat} {transport : Client → Transport}
  {s t : Server Client}

theorem SameFor.contextsOf (h : s.SameFor transport client t) :
    s.contextsOf transport client = t.contextsOf transport client := by
  rw [Server.contextsOf, Server.contextsOf]
  cases htransport : transport client with
  | serial => simp only [h.admin_left, h.admin_right]
  | tcp => exact h.jsonl.contextsIn
  | http => simp only [h.http htransport]
  | websocket => exact h.websocket.contextsIn

theorem SameFor.clearances (h : s.SameFor transport client t) (e : Event Client) :
    clearances transport client s e = clearances transport client t e := by
  cases e with
  | message sender envelopeIn => simp only [Server.clearances, h.contextsOf, h.gatekeeper]
  | settings g => rfl
  | connect other => rfl
  | disconnect other => rfl

variable (lib maxConnections) in
theorem SameFor.message_left
    (hhttp : transport client = .http → ∀ other, other ≠ client → transport other ≠ .http)
    (h : s.SameFor transport client t) {sender : Client}
    (hsender : sender ≠ client) (envelopeIn : Json) :
    (step lib maxConnections transport s (.message sender envelopeIn)).SameFor transport client
      t := by
  rw [step]
  cases htransport : transport sender with
  | serial =>
    refine { h with admin_left := ?_ }
    rw [h.admin_left]
    exact handleMessage_admin lib registry s.gatekeeper envelopeIn
  | tcp => exact { h with jsonl := h.jsonl.receive_left lib s.gatekeeper hsender envelopeIn }
  | http =>
    refine { h with http := ?_ }
    intro hclient
    exact absurd htransport (hhttp hclient sender hsender)
  | websocket =>
    exact { h with websocket := h.websocket.receive_left lib s.gatekeeper hsender envelopeIn }

theorem SameFor.step (h : s.SameFor transport client t) (e : Event Client) :
    (step lib maxConnections transport s e).SameFor transport client
      (step lib maxConnections transport t e) := by
  cases e with
  | settings g => exact { h with gatekeeper := rfl }
  | connect other =>
    rw [Server.step, Server.step]
    cases transport other with
    | tcp => exact { h with jsonl := h.jsonl.accept maxConnections other }
    | websocket => exact { h with websocket := h.websocket.accept maxConnections other }
    | serial => exact h
    | http => exact h
  | disconnect other =>
    rw [Server.step, Server.step]
    cases transport other with
    | tcp => exact { h with jsonl := h.jsonl.erase other }
    | websocket => exact { h with websocket := h.websocket.erase other }
    | serial => exact h
    | http => exact h
  | message sender envelopeIn =>
    have hg := h.gatekeeper
    rw [Server.step, Server.step]
    cases htransport : transport sender with
    | serial =>
      refine { h with admin_left := ?_, admin_right := ?_ }
      · rw [h.admin_left]
        exact handleMessage_admin lib registry s.gatekeeper envelopeIn
      · rw [h.admin_right]
        exact handleMessage_admin lib registry t.gatekeeper envelopeIn
    | tcp =>
      refine { h with jsonl := ?_ }
      rw [hg]
      exact h.jsonl.receive lib t.gatekeeper sender envelopeIn
    | http =>
      refine { h with http := ?_ }
      intro hclient
      simp only [hg, h.http hclient]
    | websocket =>
      refine { h with websocket := ?_ }
      rw [hg]
      exact h.websocket.receive lib t.gatekeeper sender envelopeIn

theorem unwinding
    (hhttp : transport client = .http → ∀ other, other ≠ client → transport other ≠ .http) :
    (system lib maxConnections transport client).Unwinding
    (loginOfOther lib client) (Server.SameFor transport client) where
  silent := by
    intro s e hhidden
    cases e with
    | message sender envelopeIn =>
      simp [system, clearances, sender_ne_of_loginOfOther hhidden]
    | settings g => rfl
    | connect other => rfl
    | disconnect other => rfl
  hidden_left := by
    intro s t e hhidden h
    cases e with
    | message sender envelopeIn =>
      exact h.message_left lib maxConnections hhttp (sender_ne_of_loginOfOther hhidden) envelopeIn
    | settings g => cases hhidden
    | connect other => cases hhidden
    | disconnect other => cases hhidden
  visible := by
    intro s t e _ h
    exact h.step e
  observe_eq := by
    intro s t e _ h
    exact h.clearances e

omit [DecidableEq Client] in
theorem sameFor_initial (g : Gatekeeper) :
    (initial g : Server Client).SameFor transport client (initial g) where
  gatekeeper := rfl
  admin_left := rfl
  admin_right := rfl
  http := fun _ => rfl
  jsonl := .nil
  websocket := .nil

end Server

/-- A login over HTTP, whatever the JSON library does with other values than texts. -/
theorem handleMessage_admin_login (lib : Platform.JsonLibrary) :
    (handleMessage lib registry hardened (loginEnvelope "admin" "secret") ⟨""⟩).context =
      ⟨"admin"⟩ := by
  rfl

/-- The client is isolated from the logins of the others exactly if it does not share HTTP with
any of them. -/
theorem isolated_iff (lib : Platform.JsonLibrary) (maxConnections : Nat)
    (transport : Client → Transport) (client : Client) :
    Isolated lib maxConnections transport client ↔
      (transport client = .http → ∀ other, other ≠ client → transport other ≠ .http) := by
  constructor
  · intro hisolated hclient other hother hotherHttp
    have hsame := hisolated hardened
      [.message other (loginEnvelope "admin" "secret"), .message client (requestEnvelope "ping")]
      [.message client (requestEnvelope "ping")] (by
        simp [loginOfOther, hother, msgType, loginEnvelope, Json.member,
          Platform.JsonLibrary.asStdString])
    simp only [ObservedSystem.observations, Server.system, Server.clearances, Server.step,
      Server.contextsOf, Server.initial, hclient, hotherHttp, if_neg hother, if_true,
      handleMessage_admin_login, List.map_cons, List.map_nil, List.nil_append, List.append_nil,
      List.cons.injEq, and_true] at hsame
    have hadmin := congrFun hsame .requiresAdmin
    revert hadmin
    decide
  · intro hhttp g
    exact (Server.unwinding hhttp).noninterfering (Server.sameFor_initial g)

/-- One HTTP client logs in as the admin, and then another one, which never logged in, may do
everything. -/
theorem http_login_clears_other_client :
    ¬ ∀ (transport : Bool → Transport) (client : Bool),
      Isolated ⟨fun _ => 0, fun _ => "null"⟩ 10 transport client := by
  intro hall
  have hsame := hall (fun _ => .http) false hardened
    [.message true (loginEnvelope "admin" "secret"), .message false (requestEnvelope "ping")]
    [.message false (requestEnvelope "ping")] rfl
  have hadmin := congrArg (List.map fun clearance => clearance .requiresAdmin) hsame
  revert hadmin
  decide +kernel

end Server

end Lucidac.Net
