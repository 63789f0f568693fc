import Lucidac.Websockets.Sending
import Lucidac.Websockets.Session

/-!
# Conversations

Two clients of the library: what one of them sends by any calls, the other one takes as the
messages that these calls mean.
-/

namespace Lucidac.Websockets

open Framework
open Framework.Arrival (Carries weight)

inductive Call where
  | send (data : List (BitVec 8))
  | sendBinary (data : List (BitVec 8))
  | stream (data : List (BitVec 8))
  | streamBinary (data : List (BitVec 8))
  | finish (data : List (BitVec 8))
  | ping (data : List (BitVec 8))
  | pong (data : List (BitVec 8))

namespace Call

def data : Call → List (BitVec 8)
  | send data | sendBinary data | stream data | streamBinary data | finish data | ping data
  | pong data => data

def perform : Call → WebsocketsClient → WebsocketsClient
  | send data, c => c.send data
  | sendBinary data, c => c.sendBinary data
  | stream data, c => c.stream data
  | streamBinary data, c => c.streamBinary data
  | finish data, c => c.finish data
  | ping data, c => c.ping data
  | pong data, c => c.pong data

/-- A message that is being sent in fragments. -/
abbrev Fragments := Option (MessageType × List (BitVec 8))

/-- What a call means: the message that it completes. -/
def meaning : Call → Fragments → Fragments × Option WebsocketsMessage
  | send data, none => (none, some ⟨.text, data, .complete⟩)
  | sendBinary data, none => (none, some ⟨.binary, data, .complete⟩)
  | send data, some (type, content) => (some (type, content ++ data), none)
  | sendBinary data, some (type, content) => (some (type, content ++ data), none)
  | stream data, none => (some (.text, data), none)
  | streamBinary data, none => (some (.binary, data), none)
  | stream _, some fragments => (some fragments, none)
  | streamBinary _, some fragments => (some fragments, none)
  | finish _, none => (none, none)
  | finish data, some (type, content) => (none, some ⟨type, content ++ data, .complete⟩)
  | ping data, fragments =>
    (fragments, if 125 < data.length then none else some ⟨.ping, data, .complete⟩)
  | pong data, fragments =>
    (fragments, if 125 < data.length then none else some ⟨.pong, data, .complete⟩)

def meanings : List Call → Fragments → List WebsocketsMessage
  | [], _ => []
  | call :: calls, fragments =>
    (call.meaning fragments).2.toList ++ meanings calls (call.meaning fragments).1

/-- The frame that a call sends, if it sends one. -/
def emitted : Call → Fragments → Option (ContentType × Bool)
  | send _, none => some (.text, true)
  | sendBinary _, none => some (.binary, true)
  | send _, some _ => some (.continuation, false)
  | sendBinary _, some _ => some (.continuation, false)
  | stream _, none => some (.text, false)
  | streamBinary _, none => some (.binary, false)
  | stream _, some _ => none
  | streamBinary _, some _ => none
  | finish _, none => none
  | finish _, some _ => some (.continuation, true)
  | ping data, _ => if 125 < data.length then none else some (.ping, true)
  | pong data, _ => if 125 < data.length then none else some (.pong, true)

def mode : Fragments → SendMode
  | none => .normal
  | some _ => .streaming

def assembly : Fragments → Assembly
  | none => .idle
  | some (type, content) => .collecting type content

section Frames

variable {call : Call} {fragments : Fragments} {c : WebsocketsClient}

theorem perform_eq (hopen : c.connectionOpen = true) (hmode : c.sendMode = mode fragments) :
    call.perform c =
      match call.emitted fragments with
      | none => c
      | some (opcode, fin) =>
        { c with
          endpoint := c.endpoint.send call.data opcode fin
          sendMode := mode (call.meaning fragments).1 } := by
  obtain ⟨endpoint, connectionOpen, sendMode, events⟩ := c
  obtain rfl : connectionOpen = true := hopen
  obtain rfl : sendMode = mode fragments := hmode
  cases call with
  | ping data =>
    simp only [perform, WebsocketsClient.ping, WebsocketsEndpoint.ping, emitted,
      WebsocketsClient.available, if_true]
    split
    · rfl
    · rfl
  | pong data =>
    simp only [perform, WebsocketsClient.pong, WebsocketsEndpoint.pong, emitted,
      WebsocketsClient.available, if_true]
    split
    · rfl
    · rfl
  | _ => cases fragments <;> rfl

theorem meaning_of_emitted_none (h : call.emitted fragments = none) :
    call.meaning fragments = (fragments, none) := by
  cases call with
  | ping data =>
    rw [emitted, ite_eq_left_iff] at h
    rw [meaning, if_pos (Classical.not_not.mp fun hnot => nomatch h hnot)]
  | pong data =>
    rw [emitted, ite_eq_left_iff] at h
    rw [meaning, if_pos (Classical.not_not.mp fun hnot => nomatch h hnot)]
  | _ => cases fragments <;> first | rfl | cases h

def reaction : Option WebsocketsMessage → Reaction
  | none => .nothing
  | some msg => .deliver msg

/-- An empty fragment is passed over, which comes to the same. -/
theorem step_continuation {frame : WebsocketsFrame} (type : MessageType)
    (content : List (BitVec 8)) (hlen : frame.payload.length < 2 ^ 32) (hfin : frame.fin = false)
    (hopcode : frame.opcode = 0)
    (hlength : frame.payloadLength = BitVec.ofNat 64 frame.payload.length) :
    (Assembly.collecting type content).step frame =
      (.collecting type (content ++ frame.payload), .nothing) := by
  rw [Assembly.step]
  split
  · rename_i hempty
    simp only [WebsocketsFrame.isEmpty, hfin, hopcode, hlength, Bool.not_false, Bool.true_and,
      beq_self_eq_true, beq_iff_eq] at hempty
    have hzero := congrArg BitVec.toNat hempty
    rw [BitVec.toNat_ofNat, Nat.mod_eq_of_lt (by omega)] at hzero
    rw [List.length_eq_zero_iff.mp hzero, List.append_nil]
  · have hkind : frame.kind = .continues := by
      simp [WebsocketsFrame.kind, WebsocketsFrame.isControlFrame, hfin, hopcode]
    simp only [Assembly.accept, hkind]

theorem step_emitted (hlen : call.data.length < 2 ^ 32) {opcode : ContentType} {fin : Bool}
    (h : call.emitted fragments = some (opcode, fin)) (mask : Bool) (j : Junk) :
    (assembly fragments).step
        ((sentFrame call.data hlen opcode.value fin mask WebsocketsEndpoint.defaultMask).received j) =
      (assembly (call.meaning fragments).1, reaction (call.meaning fragments).2) := by
  have hpayload : sentPayload call.data mask WebsocketsEndpoint.defaultMask = call.data :=
    (sentPayload_eq_iff call.data mask _).mpr (.inr (.inr fun _ _ => rfl))
  simp only [sentFrame, PeerFrame.received, hpayload]
  cases call with
  | send data =>
    cases fragments with
    | none => cases h; rfl
    | some fragments => cases h; exact step_continuation _ _ hlen rfl rfl rfl
  | sendBinary data =>
    cases fragments with
    | none => cases h; rfl
    | some fragments => cases h; exact step_continuation _ _ hlen rfl rfl rfl
  | ping data =>
    rw [emitted] at h
    split at h
    · cases h
    · rename_i hshort
      cases h
      rw [meaning, if_neg hshort]
      rfl
  | pong data =>
    rw [emitted] at h
    split at h
    · cases h
    · rename_i hshort
      cases h
      rw [meaning, if_neg hshort]
      rfl
  | stream data =>
    cases fragments with
    | none => cases h; rfl
    | some fragments => cases h
  | streamBinary data =>
    cases fragments with
    | none => cases h; rfl
    | some fragments => cases h
  | finish data =>
    cases fragments with
    | none => cases h
    | some fragments => cases h; rfl

def performs (calls : List Call) (c : WebsocketsClient) : WebsocketsClient :=
  calls.foldl (fun c call => call.perform c) c

/-- What is sent by calls, and what it does at the peer. -/
theorem performs_spec {calls : List Call} (hlen : ∀ call ∈ calls, call.data.length < 2 ^ 32)
    (hopen : c.connectionOpen = true) (hmode : c.sendMode = mode fragments) :
    ∃ frames : List PeerFrame,
      (performs calls c).endpoint.calls =
        c.endpoint.calls ++ frames.map (fun f => SocketCall.send f.wire) ∧
      ∀ {σ : Type} (callback : WebsocketsClient.MessageCallback σ) (j : Junk)
        (p : σ × WebsocketsClient),
        WebsocketsClient.performAll callback
            ((assembly fragments).reactions (frames.map (·.received j))) p =
          WebsocketsClient.performAll callback ((meanings calls fragments).map .deliver) p := by
  induction calls generalizing c fragments with
  | nil => exact ⟨[], (List.append_nil _).symm, fun _ _ _ => rfl⟩
  | cons call calls ih =>
    obtain ⟨hcall, hcalls⟩ := List.forall_mem_cons.mp hlen
    have hperform : call.perform c = _ := perform_eq hopen hmode
    cases hemitted : call.emitted fragments with
    | none =>
      rw [hemitted] at hperform
      obtain ⟨frames, hsent, hdone⟩ := ih hcalls hopen hmode
      refine ⟨frames, ?_, ?_⟩
      · rw [performs, List.foldl_cons, hperform]
        exact hsent
      · intro σ callback j p
        rw [hdone, meanings, meaning_of_emitted_none hemitted]
        rfl
    | some emission =>
      obtain ⟨opcode, fin⟩ := emission
      rw [hemitted] at hperform
      let c' : WebsocketsClient := { c with
        endpoint := c.endpoint.send call.data opcode fin
        sendMode := mode (call.meaning fragments).1 }
      obtain ⟨frames, hsent, hdone⟩ := ih (c := c') hcalls hopen rfl
      let mask := c.endpoint.useMasking
      let f := sentFrame call.data hcall opcode.value fin mask WebsocketsEndpoint.defaultMask
      have hwire : c'.endpoint.calls = c.endpoint.calls ++ [.send f.wire] :=
        congrArg (fun bytes => c.endpoint.calls ++ [SocketCall.send bytes])
          (send_eq_wire hcall opcode.value fin mask WebsocketsEndpoint.defaultMask)
      refine ⟨f :: frames, ?_, ?_⟩
      · rw [performs, List.foldl_cons, hperform]
        refine hsent.trans ?_
        rw [hwire, List.append_assoc]
        rfl
      · intro σ callback j p
        have hstep : (assembly fragments).step (f.received j) =
            (assembly (call.meaning fragments).1, reaction (call.meaning fragments).2) :=
          step_emitted hcall hemitted mask j
        rw [List.map_cons, Assembly.reactions, hstep, meanings]
        cases (call.meaning fragments).2 with
        | none =>
          rw [reaction, WebsocketsClient.performAll_nothing]
          exact hdone callback j p
        | some msg =>
          exact WebsocketsClient.performAll_cons_congr (hdone callback j) p

end Frames

end Call

section Listening

def silent : WebsocketsClient.MessageCallback Unit := fun _ p => p

theorem silent_oblivious : WebsocketsClient.Oblivious silent where
  withReceiving _ _ _ _ := rfl
  fragmentsPolicy _ _ := rfl

/-- How a message is reported. -/
def event (msg : WebsocketsMessage) : Event :=
  match msg.type with
  | .ping => .gotPing msg.data
  | .pong => .gotPong msg.data
  | .close => .connectionClosed msg.data
  | _ => .message msg

/-- How a message is answered by the endpoint itself. -/
def reply (mask : Bool) (msg : WebsocketsMessage) : Option SocketCall :=
  if msg.type = .ping then
    some (.send (send msg.data ContentType.pong.value true mask WebsocketsEndpoint.defaultMask))
  else none

/-- A message that the library sends by a call other than `close`. -/
structure Ordinary (msg : WebsocketsMessage) : Prop where
  role : msg.role = .complete
  type : msg.type = .text ∨ msg.type = .binary ∨ (msg.type = .ping ∧ msg.data.length ≤ 125) ∨
    msg.type = .pong

def reported (msgs : List WebsocketsMessage) (c : WebsocketsClient) : WebsocketsClient :=
  { c with
    events := c.events ++ msgs.map event
    endpoint := { c.endpoint with
      calls := c.endpoint.calls ++ msgs.filterMap (reply c.endpoint.useMasking) } }

theorem reported_nil (c : WebsocketsClient) : reported [] c = c := by
  rw [reported, List.map_nil, List.filterMap_nil, List.append_nil, List.append_nil]

theorem reported_append (msgs rest : List WebsocketsMessage) (c : WebsocketsClient) :
    reported (msgs ++ rest) c = reported rest (reported msgs c) := by
  simp only [reported, List.map_append, List.filterMap_append, List.append_assoc]

theorem perform_ordinary {msg : WebsocketsMessage} (h : Ordinary msg) (c : WebsocketsClient) :
    WebsocketsClient.perform silent (.deliver msg) ((), c) = ((), reported [msg] c) := by
  obtain ⟨type, data, role⟩ := msg
  obtain ⟨hrole, htype⟩ := h
  obtain rfl : role = .complete := hrole
  rcases htype with htype | htype | ⟨htype, hshort⟩ | htype
  · obtain rfl : type = .text := htype
    simp [WebsocketsClient.perform, WebsocketsClient.dispatch, Reaction.message, silent, reported,
      WebsocketsEndpoint.react, WebsocketsEndpoint.handleMessageInternally, reply, event,
      WebsocketsMessage.isEmpty, WebsocketsClient.emit]
  · obtain rfl : type = .binary := htype
    simp [WebsocketsClient.perform, WebsocketsClient.dispatch, Reaction.message, silent, reported,
      WebsocketsEndpoint.react, WebsocketsEndpoint.handleMessageInternally, reply, event,
      WebsocketsMessage.isEmpty, WebsocketsClient.emit]
  · obtain rfl : type = .ping := htype
    have hpong : c.endpoint.pong data = c.endpoint.send data .pong true := by
      rw [WebsocketsEndpoint.pong, if_neg (Nat.not_lt.mpr hshort)]
    simp [WebsocketsClient.perform, WebsocketsClient.dispatch, Reaction.message, reported,
      WebsocketsEndpoint.react, WebsocketsEndpoint.handleMessageInternally, reply, event,
      WebsocketsMessage.isEmpty, WebsocketsClient.emit, hpong, WebsocketsEndpoint.send]
  · obtain rfl : type = .pong := htype
    simp [WebsocketsClient.perform, WebsocketsClient.dispatch, Reaction.message, reported,
      WebsocketsEndpoint.react, WebsocketsEndpoint.handleMessageInternally, reply, event,
      WebsocketsMessage.isEmpty, WebsocketsClient.emit]

theorem performAll_deliver {msgs : List WebsocketsMessage} (h : ∀ msg ∈ msgs, Ordinary msg)
    {c : WebsocketsClient} (hopen : c.listening = true) :
    WebsocketsClient.performAll silent (msgs.map .deliver) ((), c) = ((), reported msgs c) := by
  induction msgs generalizing c with
  | nil => rw [reported_nil]; rfl
  | cons msg msgs ih =>
    obtain ⟨hmsg, hmsgs⟩ := List.forall_mem_cons.mp h
    have hrest : WebsocketsClient.performAll silent (msgs.map .deliver) ((), reported [msg] c) =
        ((), reported msgs (reported [msg] c)) := ih hmsgs hopen
    rw [List.map_cons, WebsocketsClient.performAll, hopen, if_pos rfl, perform_ordinary hmsg,
      hrest, ← reported_append, List.singleton_append]

def DataFragments (fragments : Call.Fragments) : Prop :=
  ∀ type content, fragments = some (type, content) → type = .text ∨ type = .binary

theorem meaning_ordinary {call : Call} {fragments : Call.Fragments} (h : DataFragments fragments) :
    DataFragments (call.meaning fragments).1 ∧
      ∀ msg, (call.meaning fragments).2 = some msg → Ordinary msg := by
  have hcontrol : ∀ {type : MessageType} {data : List (BitVec 8)} {msg : WebsocketsMessage},
      type = .ping ∨ type = .pong →
      (if 125 < data.length then none else some ⟨type, data, .complete⟩) = some msg →
      Ordinary msg := by
    intro type data msg htype hmsg
    split at hmsg
    · cases hmsg
    · rename_i hshort
      cases hmsg
      rcases htype with rfl | rfl
      · exact ⟨rfl, .inr (.inr (.inl ⟨rfl, Nat.not_lt.mp hshort⟩))⟩
      · exact ⟨rfl, .inr (.inr (.inr rfl))⟩
  cases call with
  | ping data => exact ⟨h, fun msg hmsg => hcontrol (.inl rfl) hmsg⟩
  | pong data => exact ⟨h, fun msg hmsg => hcontrol (.inr rfl) hmsg⟩
  | send data =>
    cases fragments with
    | none => exact ⟨h, fun msg hmsg => by cases hmsg; exact ⟨rfl, .inl rfl⟩⟩
    | some f =>
      refine ⟨?_, fun msg hmsg => by cases hmsg⟩
      intro type content heq
      cases heq
      exact h _ _ rfl
  | sendBinary data =>
    cases fragments with
    | none => exact ⟨h, fun msg hmsg => by cases hmsg; exact ⟨rfl, .inr (.inl rfl)⟩⟩
    | some f =>
      refine ⟨?_, fun msg hmsg => by cases hmsg⟩
      intro type content heq
      cases heq
      exact h _ _ rfl
  | stream data =>
    cases fragments with
    | none => exact ⟨fun type content heq => by cases heq; exact .inl rfl, fun _ hmsg => nomatch hmsg⟩
    | some f => exact ⟨h, fun _ hmsg => nomatch hmsg⟩
  | streamBinary data =>
    cases fragments with
    | none => exact ⟨fun type content heq => by cases heq; exact .inr rfl, fun _ hmsg => nomatch hmsg⟩
    | some f => exact ⟨h, fun _ hmsg => nomatch hmsg⟩
  | finish data =>
    cases fragments with
    | none => exact ⟨h, fun _ hmsg => nomatch hmsg⟩
    | some f =>
      refine ⟨fun _ _ heq => (by cases heq), fun msg hmsg => ?_⟩
      cases hmsg
      rcases h f.1 f.2 rfl with htype | htype
      · exact ⟨rfl, .inl htype⟩
      · exact ⟨rfl, .inr (.inl htype)⟩

theorem ordinary_of_mem_meanings {calls : List Call} {fragments : Call.Fragments}
    (h : DataFragments fragments) {msg : WebsocketsMessage}
    (hmem : msg ∈ Call.meanings calls fragments) : Ordinary msg := by
  induction calls generalizing fragments with
  | nil => cases hmem
  | cons call calls ih =>
    obtain ⟨hnext, hmsg⟩ : DataFragments (call.meaning fragments).1 ∧
        ∀ msg, (call.meaning fragments).2 = some msg → Ordinary msg := meaning_ordinary h
    rw [Call.meanings, List.mem_append, Option.mem_toList] at hmem
    rcases hmem with hmem | hmem
    · exact hmsg msg hmem
    · exact ih hnext hmem

/-- What one client sends by any calls, the other one reports as the messages that the calls mean,
each once and in order, and it answers the pings; in whatever pieces the frames arrive. -/
theorem conversation {calls : List Call} (hlen : ∀ call ∈ calls, call.data.length < 2 ^ 32) :
    ∃ frames : List PeerFrame,
      (Call.performs calls .new).endpoint.calls = frames.map (fun f => SocketCall.send f.wire) ∧
      ∀ {s : List (Arrival (BitVec 8))} {rounds : Nat} (junk : Nat → Junk),
        Carries (frames.flatMap PeerFrame.atoms) s → weight s ≤ rounds →
        ∃ c, WebsocketsClient.pollRounds junk silent rounds ((), .new) s = .ok ((), c) ∧
          c.events = (Call.meanings calls none).map event ∧
          c.endpoint.calls = (Call.meanings calls none).filterMap (reply true) ∧
          c.connectionOpen = true ∧ c.endpoint.closeReason = .none := by
  have hmode : WebsocketsClient.new.sendMode = Call.mode none := rfl
  obtain ⟨frames, hsent, hdone⟩ := Call.performs_spec hlen rfl hmode
  refine ⟨frames, hsent, ?_⟩
  intro s rounds junk hs hrounds
  have hordinary : ∀ msg ∈ Call.meanings calls none, Ordinary msg := fun msg hmem =>
    ordinary_of_mem_meanings (fun _ _ heq => by cases heq) hmem
  have hreactions : WebsocketsClient.performAll silent
      (Assembly.idle.reactions (frames.map (·.received (junk 0)))) ((), .new) =
        ((), reported (Call.meanings calls none) .new) :=
    (hdone silent (junk 0) ((), .new)).trans (performAll_deliver hordinary rfl)
  obtain ⟨mode, b, hpoll⟩ : ∃ mode b, WebsocketsClient.pollRounds junk silent rounds ((), .new) s =
      .ok (WebsocketsClient.withReceiving mode b (WebsocketsClient.performAll silent
        (Assembly.idle.reactions (frames.map (·.received (junk 0)))) ((), .new))) :=
    WebsocketsClient.pollRounds_session silent_oblivious (junk 0) hs hrounds rfl .idle
  rw [hpoll, hreactions]
  exact ⟨_, rfl, rfl, rfl, rfl, rfl⟩

/-- Two fragments of a text with a ping between them. -/
theorem conversation_example :
    ∃ frames : List PeerFrame,
      (Call.performs [.stream [0x61], .ping [0x70], .finish [0x62]] .new).endpoint.calls =
        frames.map (fun f => SocketCall.send f.wire) ∧
      ∃ c, WebsocketsClient.pollRounds (fun _ => ⟨⟨0, 0, false, 0, false⟩, fun _ => 0⟩) silent
          (weight [.data (frames.flatMap PeerFrame.atoms).flatten]) ((), .new)
          [.data (frames.flatMap PeerFrame.atoms).flatten] = .ok ((), c) ∧
        c.events = [.gotPing [0x70], .message ⟨.text, [0x61, 0x62], .complete⟩] := by
  let calls : List Call := [.stream [0x61], .ping [0x70], .finish [0x62]]
  obtain ⟨frames, hsent, hreceived⟩ := conversation (by decide : ∀ call ∈ calls, _ < 2 ^ 32)
  obtain ⟨c, hpoll, hevents, -⟩ := hreceived (fun _ => ⟨⟨0, 0, false, 0, false⟩, fun _ => 0⟩)
    (.whole fun _ hmem => PeerFrame.atoms_ne_nil hmem) (Nat.le_refl _)
  exact ⟨frames, hsent, c, hpoll, hevents⟩

end Listening

end Lucidac.Websockets
