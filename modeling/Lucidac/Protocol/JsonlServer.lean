import Lucidac.Net.LoginHistory

/-!
# The JSONL server

Each TCP connection has a node in a list of clients.  The address of the socket in that node is
registered as a target of the broadcasts, and has to be removed when the node is erased.
-/

namespace Lucidac.Protocol

open Net

/-- An `AuthentificationContext` with the station it was made for. -/
structure RemoteContext extends AuthentificationContext where
  remote : BitVec 32

/-- A node of the list of clients, with the address of its `socket`.  Copies of a socket stand for
the same connection; `stop` on one of them leaves that copy without a connection. -/
structure Client (Address : Type) where
  address : Address
  lastContact : BitVec 32
  connection : Nat
  stopped : Bool
  userContext : RemoteContext

/-- What a client is found to do when it is visited: whether its connection stands, and the input
that is available, which is a message unless the JSON library refuses it. -/
structure Observation where
  connected : Bool
  available : Option (Option Exchange)
  millis : BitVec 32

/-- A connection that `accept` returns, and the address of the next node. -/
structure Incoming (Address : Type) where
  remoteIP : BitVec 32
  millis : BitVec 32
  node : Address

/-- What one call of `loop` meets, with an observation for each position in the list. -/
structure Iteration (Address : Type) where
  incoming : Option (Incoming Address)
  observed : Nat → Observation

structure StartupLimits where
  maxConnections : Nat
  connectionTimeoutMs : BitVec 32

/-- The server with the Ethernet targets of the broadcast multiplexer.  The last two fields are the
history: the stations whose connections were accepted so far, which gives the connections their
numbers, and the messages that were read. -/
structure JsonlServer (Address : Type) where
  clients : List (Client Address)
  ethTargets : List Address
  accepted : List (BitVec 32)
  received : List (Nat × Exchange)

def exchangesOf (connection : Nat) (received : List (Nat × Exchange)) : List Exchange :=
  received.filterMap fun r => if r.1 = connection then some r.2 else none

section Loop

variable {Address : Type} (lib : Platform.JsonLibrary) (limits : StartupLimits)

def Client.isConnected (client : Client Address) (o : Observation) : Bool :=
  !client.stopped && o.connected

def Client.processTcpInput (client : Client Address) (input : Option Exchange) :
    Client Address :=
  match input with
  | none => client
  | some e =>
    let context := (e.handle lib registry client.userContext.toAuthentificationContext).context
    { client with userContext := { client.userContext with toAuthentificationContext := context } }

/-- The body of the `for` loop for a connected client. -/
def Client.visit (client : Client Address) (o : Observation) : Client Address :=
  match o.available with
  | some input => { client.processTcpInput lib input with lastContact := o.millis }
  | none =>
    if limits.connectionTimeoutMs ≤ o.millis - client.lastContact then
      { client with stopped := true }
    else client

namespace JsonlServer

variable (s : JsonlServer Address)

def initial : JsonlServer Address :=
  { clients := [], ethTargets := [], accepted := [], received := [] }

def newClient (i : Incoming Address) : Client Address :=
  { address := i.node, lastContact := i.millis, connection := s.accepted.length, stopped := false
    userContext := { name := "", remote := i.remoteIP } }

def accept (incoming : Option (Incoming Address)) : JsonlServer Address :=
  match incoming with
  | none => s
  | some i =>
    if s.clients.length = limits.maxConnections then
      { s with accepted := s.accepted ++ [i.remoteIP] }
    else
      { s with clients := s.clients ++ [s.newClient i]
               ethTargets := s.ethTargets ++ [(s.newClient i).address]
               accepted := s.accepted ++ [i.remoteIP] }

/-- The messages that are read on a visit. -/
def read (client : Client Address) (o : Observation) : List (Nat × Exchange) :=
  (o.available.join.map fun e => (client.connection, e)).toList

variable [DecidableEq Address]

/-- The `for` loop, when the clients in `before` have been visited.  The loop ends with the first
client that is found disconnected. -/
def serve (observed : Nat → Observation) (s : JsonlServer Address) (before : List (Client Address)) :
    List (Client Address) → JsonlServer Address
  | [] => { s with clients := before }
  | client :: rest =>
    let o := observed before.length
    if client.isConnected o then
      serve observed { s with received := s.received ++ read client o }
        (before ++ [client.visit lib limits o]) rest
    else
      { s with clients := before ++ rest
               ethTargets := s.ethTargets.filter (· ≠ client.address) }

def loop (it : Iteration Address) : JsonlServer Address :=
  let s := s.accept limits it.incoming
  serve lib limits it.observed s [] s.clients

/-- The states after any number of iterations.  A new node has not the address of another node. -/
inductive Reachable : JsonlServer Address → Prop where
  | initial : Reachable initial
  | loop {s : JsonlServer Address} (it : Iteration Address) (h : Reachable s)
      (hnode : ∀ i ∈ it.incoming, i.node ∉ s.clients.map Client.address) :
      Reachable (s.loop lib limits it)

end JsonlServer

end Loop

section Invariant

variable {Address : Type} {lib : Platform.JsonLibrary} {limits : StartupLimits}
variable {s : JsonlServer Address}

/-- A client's context comes from the messages of its own connection. -/
structure Client.OwnsContext (lib : Platform.JsonLibrary) (s : JsonlServer Address)
    (client : Client Address) : Prop where
  login : client.userContext.toAuthentificationContext =
    contextAfter lib registry (exchangesOf client.connection s.received)
  remote : s.accepted[client.connection]? = some client.userContext.remote

structure Orderly (lib : Platform.JsonLibrary) (limits : StartupLimits)
    (s : JsonlServer Address) : Prop where
  targets : s.ethTargets = s.clients.map Client.address
  addresses : (s.clients.map Client.address).Nodup
  size : s.clients.length ≤ limits.maxConnections
  connections : (s.clients.map Client.connection).Nodup
  owns : ∀ client ∈ s.clients, client.OwnsContext lib s
  received : ∀ r ∈ s.received, r.1 < s.accepted.length

theorem exchangesOf_append (connection : Nat) (before after : List (Nat × Exchange)) :
    exchangesOf connection (before ++ after) =
      exchangesOf connection before ++ exchangesOf connection after :=
  List.filterMap_append

theorem exchangesOf_eq_nil {connection : Nat} {received : List (Nat × Exchange)}
    (h : ∀ r ∈ received, r.1 ≠ connection) : exchangesOf connection received = [] := by
  apply List.filterMap_eq_nil_iff.mpr
  intro r hr
  exact if_neg (h r hr)

theorem Client.OwnsContext.connection_lt {client : Client Address}
    (h : client.OwnsContext lib s) : client.connection < s.accepted.length := by
  obtain ⟨hlt, -⟩ := List.getElem?_eq_some_iff.mp h.remote
  exact hlt

theorem orderly_initial : Orderly lib limits (JsonlServer.initial : JsonlServer Address) where
  targets := rfl
  addresses := List.nodup_nil
  size := Nat.zero_le _
  connections := List.nodup_nil
  owns := by simp [JsonlServer.initial]
  received := by simp [JsonlServer.initial]

/-! ### A new connection -/

/-- One more connection changes nothing for the clients. -/
theorem Client.OwnsContext.accepted {client : Client Address} (h : client.OwnsContext lib s)
    (remoteIP : BitVec 32) :
    client.OwnsContext lib { s with accepted := s.accepted ++ [remoteIP] } where
  login := h.login
  remote := by
    change (s.accepted ++ [remoteIP])[client.connection]? = _
    rw [List.getElem?_append_left h.connection_lt, h.remote]

theorem Orderly.received_lt (h : Orderly lib limits s) (remoteIP : BitVec 32) :
    ∀ r ∈ s.received, r.1 < (s.accepted ++ [remoteIP]).length := by
  intro r hr
  rw [List.length_append, List.length_singleton]
  exact Nat.lt_succ_of_lt (h.received r hr)

/-- The numbers of the other connections are smaller. -/
theorem Orderly.newClient_connection (h : Orderly lib limits s) (i : Incoming Address) :
    ((s.clients ++ [s.newClient i]).map Client.connection).Nodup := by
  rw [List.map_append, List.map_singleton, List.nodup_append]
  refine ⟨h.connections, List.nodup_singleton _, ?_⟩
  intro connection hconnection other hother
  obtain ⟨client, hclient, rfl⟩ := List.mem_map.mp hconnection
  rw [List.mem_singleton.mp hother]
  exact Nat.ne_of_lt (h.owns client hclient).connection_lt

/-- No message was read from a connection that is just accepted. -/
theorem Orderly.newClient_exchanges (h : Orderly lib limits s) (i : Incoming Address) :
    exchangesOf (s.newClient i).connection s.received = [] :=
  exchangesOf_eq_nil fun r hr => Nat.ne_of_lt (h.received r hr)

theorem Orderly.accept (h : Orderly lib limits s) {incoming : Option (Incoming Address)}
    (hnode : ∀ i ∈ incoming, i.node ∉ s.clients.map Client.address) :
    Orderly lib limits (s.accept limits incoming) := by
  cases incoming with
  | none => exact h
  | some i =>
    have howns := fun client hclient => (h.owns client hclient).accepted i.remoteIP
    by_cases hfull : s.clients.length = limits.maxConnections
    · rw [JsonlServer.accept, if_pos hfull]
      exact ⟨h.targets, h.addresses, h.size, h.connections, howns, h.received_lt i.remoteIP⟩
    · rw [JsonlServer.accept, if_neg hfull]
      constructor
      · simp [h.targets]
      · simpa [List.nodup_append, h.addresses, JsonlServer.newClient] using hnode i rfl
      · have hsize := h.size
        simp only [List.length_append, List.length_singleton]
        omega
      · exact h.newClient_connection i
      · rw [List.forall_mem_append, List.forall_mem_singleton]
        refine ⟨fun client hclient => ⟨(howns client hclient).login, (howns client hclient).remote⟩,
          ⟨?_, ?_⟩⟩
        · simp only [h.newClient_exchanges i]
          rfl
        · simp [JsonlServer.newClient]
      · exact h.received_lt i.remoteIP

/-! ### The visits -/

section Visit

variable {client : Client Address} {o : Observation} {before rest : List (Client Address)}

theorem visit_address : (client.visit lib limits o).address = client.address := by
  unfold Client.visit Client.processTcpInput
  split <;> split <;> rfl

theorem visit_connection : (client.visit lib limits o).connection = client.connection := by
  unfold Client.visit Client.processTcpInput
  split <;> split <;> rfl

theorem visit_remote :
    (client.visit lib limits o).userContext.remote = client.userContext.remote := by
  unfold Client.visit Client.processTcpInput
  split <;> split <;> rfl

theorem visit_login :
    (client.visit lib limits o).userContext.toAuthentificationContext =
      (o.available.join.toList).foldl (fun context e => (e.handle lib registry context).context)
        client.userContext.toAuthentificationContext := by
  unfold Client.visit Client.processTcpInput
  cases o.available with
  | none =>
    dsimp only
    split <;> rfl
  | some input => cases input <;> rfl

theorem exchangesOf_read (connection : Nat) :
    exchangesOf connection (JsonlServer.read client o) =
      if client.connection = connection then o.available.join.toList else [] := by
  unfold JsonlServer.read
  cases o.available.join with
  | none => simp [exchangesOf]
  | some e =>
    by_cases hown : client.connection = connection <;> simp [exchangesOf, hown]

theorem Client.OwnsContext.visit (h : client.OwnsContext lib s) :
    (client.visit lib limits o).OwnsContext lib
      { s with received := s.received ++ JsonlServer.read client o } where
  login := by
    rw [visit_login, visit_connection, h.login, exchangesOf_append, exchangesOf_read,
      if_pos rfl, contextAfter, contextAfter, List.foldl_append]
  remote := by
    rw [visit_connection, visit_remote]
    exact h.remote

theorem Client.OwnsContext.visit_other {other : Client Address} (h : other.OwnsContext lib s)
    (hne : client.connection ≠ other.connection) :
    other.OwnsContext lib { s with received := s.received ++ JsonlServer.read client o } where
  login := by
    rw [h.login, exchangesOf_append, exchangesOf_read, if_neg hne, List.append_nil]
  remote := h.remote

theorem Orderly.visit (h : Orderly lib limits { s with clients := before ++ client :: rest })
    (o : Observation) :
    Orderly lib limits { s with received := s.received ++ JsonlServer.read client o
                                clients := before ++ client.visit lib limits o :: rest } := by
  have haddresses : (before ++ client.visit lib limits o :: rest).map Client.address =
      (before ++ client :: rest).map Client.address := by simp [visit_address]
  have hconnections : (before ++ client.visit lib limits o :: rest).map Client.connection =
      (before ++ client :: rest).map Client.connection := by simp [visit_connection]
  have hclient := h.owns client (by simp)
  have hothers : ∀ other ∈ before ++ rest, client.connection ≠ other.connection := by
    have hnodup := h.connections
    simp only [List.map_append, List.map_cons, List.nodup_middle, List.nodup_cons] at hnodup
    intro other hother heq
    exact hnodup.1 (heq ▸ by simpa using List.mem_map_of_mem hother)
  constructor
  · exact h.targets.trans haddresses.symm
  · exact haddresses ▸ h.addresses
  · simpa using h.size
  · exact hconnections ▸ h.connections
  · intro other hother
    rw [List.mem_append, List.mem_cons, or_left_comm, ← List.mem_append] at hother
    rcases hother with rfl | hother
    · exact ⟨hclient.visit.login, hclient.visit.remote⟩
    · have howns := h.owns other (List.mem_append.mpr
        ((List.mem_append.mp hother).imp_right (List.mem_cons_of_mem _)))
      have hvisited := howns.visit_other (o := o) (hothers other hother)
      exact ⟨hvisited.login, hvisited.remote⟩
  · change ∀ r ∈ s.received ++ JsonlServer.read client o, r.1 < s.accepted.length
    rw [List.forall_mem_append]
    refine ⟨h.received, fun r hr => ?_⟩
    obtain ⟨e, -, rfl⟩ := Option.map_eq_some_iff.mp (Option.mem_toList.mp hr)
    exact hclient.connection_lt

variable [DecidableEq Address]

/-- The targets lose the address of the erased node and no other. -/
theorem Orderly.erase (h : Orderly lib limits { s with clients := before ++ client :: rest }) :
    Orderly lib limits { s with clients := before ++ rest
                                ethTargets := s.ethTargets.filter (· ≠ client.address) } := by
  have hsub : (before ++ rest).Sublist (before ++ client :: rest) :=
    List.Sublist.append_left (List.sublist_cons_self client rest) before
  constructor
  · have htargets := h.targets
    have hnodup := h.addresses
    simp only [List.map_append, List.map_cons, List.nodup_middle, List.nodup_cons] at htargets hnodup
    have hothers : ∀ a ∈ before.map Client.address ++ rest.map Client.address,
        a ≠ client.address := fun a ha heq => hnodup.1 (heq ▸ ha)
    rw [List.forall_mem_append] at hothers
    simp only [htargets, List.filter_append, List.filter_cons, ne_eq, not_true_eq_false,
      decide_false, Bool.false_eq_true, if_false, List.map_append]
    rw [List.filter_eq_self.mpr (by simpa using hothers.1),
      List.filter_eq_self.mpr (by simpa using hothers.2)]
  · exact h.addresses.sublist (hsub.map _)
  · exact Nat.le_trans hsub.length_le h.size
  · exact h.connections.sublist (hsub.map _)
  · intro other hother
    have howns := h.owns other (hsub.subset hother)
    exact ⟨howns.login, howns.remote⟩
  · exact h.received

end Visit

variable [DecidableEq Address]

theorem Orderly.serve (observed : Nat → Observation) {rest before : List (Client Address)}
    (h : Orderly lib limits { s with clients := before ++ rest }) :
    Orderly lib limits (s.serve lib limits observed before rest) := by
  induction rest generalizing s before with
  | nil => simpa [JsonlServer.serve] using h
  | cons client rest ih =>
    rw [JsonlServer.serve]
    split
    · apply ih
      simpa using h.visit (observed before.length)
    · exact h.erase

theorem Orderly.loop (h : Orderly lib limits s) {it : Iteration Address}
    (hnode : ∀ i ∈ it.incoming, i.node ∉ s.clients.map Client.address) :
    Orderly lib limits (s.loop lib limits it) := by
  have haccept := h.accept hnode
  change Orderly lib limits { s.accept limits it.incoming with
    clients := [] ++ (s.accept limits it.incoming).clients } at haccept
  exact haccept.serve it.observed

theorem orderly_of_reachable (h : JsonlServer.Reachable lib limits s) :
    Orderly lib limits s := by
  induction h with
  | initial => exact orderly_initial
  | loop it _ hnode ih => exact ih.loop hnode

/-- After every iteration the broadcasts go to the sockets of the clients in the list, each once;
there are not more clients than connections are allowed; no two clients have one connection; and
the context of each is the result of the messages of its own connection, from an empty context for
its own station on. -/
theorem loop_keeps_order (lib : Platform.JsonLibrary) (limits : StartupLimits)
    (s : JsonlServer Address) (h : JsonlServer.Reachable lib limits s) :
    s.ethTargets.Nodup ∧ (∀ a, a ∈ s.ethTargets ↔ ∃ client ∈ s.clients, client.address = a) ∧
      s.clients.length ≤ limits.maxConnections ∧
      (s.clients.map Client.connection).Nodup ∧
      ∀ client ∈ s.clients,
        client.userContext.toAuthentificationContext =
          contextAfter lib registry (exchangesOf client.connection s.received) ∧
        s.accepted[client.connection]? = some client.userContext.remote := by
  have horder := orderly_of_reachable h
  refine ⟨?_, ?_, horder.size, horder.connections, ?_⟩
  · rw [horder.targets]
    exact horder.addresses
  · intro a
    rw [horder.targets, List.mem_map]
  · intro client hclient
    exact ⟨(horder.owns client hclient).login, (horder.owns client hclient).remote⟩

private def anyLibrary : Platform.JsonLibrary := ⟨fun _ => 0, fun _ => ""⟩

private def twentyConnections : StartupLimits :=
  { maxConnections := 20, connectionTimeoutMs := 720000 }

/-- A connection from the station at a node, while the clients before are silent or gone. -/
private def meets (node : Nat) (connected : Bool) : Iteration Nat :=
  { incoming := some { remoteIP := 0xC0A80102, millis := 5, node }
    observed := fun _ => { connected, available := none, millis := 7 } }

/-- The first of two clients is lost, and a third one gets its node. -/
private def reusedNode : JsonlServer Nat :=
  (((JsonlServer.initial.loop anyLibrary twentyConnections (meets 100 true)).loop anyLibrary
    twentyConnections (meets 101 false)).loop anyLibrary twentyConnections (meets 100 true))

theorem loop_keeps_order_reused_node :
    reusedNode.ethTargets = [101, 100] ∧ reusedNode.ethTargets.Nodup ∧
      reusedNode.clients.length ≤ 20 := by
  have hreachable : JsonlServer.Reachable anyLibrary twentyConnections reusedNode := by
    refine .loop _ (.loop _ (.loop _ .initial ?_) ?_) ?_
    all_goals
      intro i hi
      cases hi
      decide
  have horder := loop_keeps_order anyLibrary twentyConnections reusedNode hreachable
  exact ⟨by decide, horder.1, horder.2.2.1⟩

end Invariant

end Lucidac.Protocol
