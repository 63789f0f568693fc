import Lucidac.Websockets.Closing
import Lucidac.Websockets.Reassembly

/-!
# The websocket of the web server

Texts of the peer are queries; the answer to each of them goes back as a text that is not masked.
-/

namespace Lucidac.Websockets

open Framework
open Framework.Arrival (Carries weight)

section Callback

variable {σ : Type}

/-- What the protocol makes of an envelope: the answer, and its own state afterwards. -/
abbrev ProcessStringInput (σ : Type) := σ → List (BitVec 8) → σ × List (BitVec 8)

def onWebsocketMessageCallback (process : ProcessStringInput σ) :
    WebsocketsClient.MessageCallback σ :=
  fun msg (state, wsclient) =>
    if msg.role ≠ .complete then (state, wsclient)
    else if msg.type ≠ .text then (state, wsclient)
    else
      let (state, envelopeOut) := process state msg.data
      (state, wsclient.send envelopeOut)

/-- `{'hello':'client'}` and a line feed. -/
def hello : List (BitVec 8) :=
  [0x7B, 0x27, 0x68, 0x65, 0x6C, 0x6C, 0x6F, 0x27, 0x3A, 0x27, 0x63, 0x6C, 0x69, 0x65, 0x6E, 0x74,
    0x27, 0x7D, 0x0A]

/-- A client as `LucidacWebServer::loop` adds it to its list. -/
def accepted : WebsocketsClient := (WebsocketsClient.new.setUseMasking false).send hello

def serverFrame (opcode : ContentType) (data : List (BitVec 8)) : SocketCall :=
  .send (send data opcode.value true false WebsocketsEndpoint.defaultMask)

/-- What the server sends for the reactions to its peer's frames, and the state of the protocol
afterwards. -/
def serve (process : ProcessStringInput σ) : List Reaction → σ → σ × List SocketCall
  | [], state => (state, [])
  | .nothing :: rs, state => serve process rs state
  | .reject :: _, state => (state, [serverFrame .close [0x03, 0xEA], .close])
  | .deliver msg :: rs, state =>
    match msg.type with
    | .text =>
      let (state, answer) := process state msg.data
      let (state', calls) := serve process rs state
      (state', serverFrame .text answer :: calls)
    | .ping =>
      let (state', calls) := serve process rs state
      (state', (if 125 < msg.data.length then [] else [serverFrame .pong msg.data]) ++ calls)
    | .close => (state, [serverFrame .close (echo msg.data), .close])
    | _ => serve process rs state

end Callback

namespace WebsocketsClient

variable {σ : Type}

theorem onWebsocketMessageCallback_oblivious (process : ProcessStringInput σ) :
    Oblivious (onWebsocketMessageCallback process) where
  withReceiving msg mode b p := by
    obtain ⟨state, ⟨endpoint, connectionOpen, sendMode, events⟩⟩ := p
    simp only [onWebsocketMessageCallback, withReceiving, send, available]
    cases connectionOpen <;> cases sendMode <;> split_ifs <;> rfl
  fragmentsPolicy msg p := by
    obtain ⟨state, ⟨endpoint, connectionOpen, sendMode, events⟩⟩ := p
    simp only [onWebsocketMessageCallback, send, available]
    cases connectionOpen <;> cases sendMode <;> split_ifs <;> rfl

/-- A client of the server whose connection is open. -/
structure Serving (c : WebsocketsClient) : Prop where
  listening : c.listening = true
  sendMode : c.sendMode = .normal
  useMasking : c.endpoint.useMasking = false

theorem Serving.connectionOpen {c : WebsocketsClient} (h : Serving c) : c.connectionOpen = true :=
  (Bool.and_eq_true_iff.mp h.listening).1

/-- A rejected frame ends the connection. -/
theorem perform_reject (process : ProcessStringInput σ) (state : σ) {c : WebsocketsClient}
    (h : Serving c) :
    ∃ c', perform (onWebsocketMessageCallback process) .reject (state, c) = (state, c') ∧
      c'.listening = false ∧
      c'.endpoint.calls = c.endpoint.calls ++ [serverFrame .close [0x03, 0xEA], .close] := by
  refine ⟨{ c with endpoint := c.endpoint.close .protocolError }, rfl, ?_, ?_⟩
  · rw [listening, WebsocketsEndpoint.close, Bool.not_true, Bool.and_false]
  · have hbytes : WebsocketsEndpoint.reasonBytes .protocolError = [0x03, 0xEA] := by decide
    rw [WebsocketsEndpoint.close, if_neg (by decide), WebsocketsEndpoint.send, hbytes]
    simp [h.useMasking, serverFrame]

/-- A close of the peer ends it too. -/
theorem perform_close (process : ProcessStringInput σ) (state : σ) {c : WebsocketsClient}
    (h : Serving c) (data : List (BitVec 8)) :
    ∃ c', perform (onWebsocketMessageCallback process) (.deliver ⟨.close, data, .complete⟩)
        (state, c) = (state, c') ∧ c'.listening = false ∧
      c'.endpoint.calls = c.endpoint.calls ++ [serverFrame .close (echo data), .close] := by
  refine ⟨{ c with
    connectionOpen := false
    events := c.events ++ [.connectionClosed data]
    endpoint := c.endpoint.handleMessageInternally ⟨.close, data, .complete⟩ }, rfl, rfl, ?_⟩
  rw [WebsocketsEndpoint.handleMessageInternally_close, h.useMasking]
  rfl

theorem send_of_serving {c : WebsocketsClient} (h : Serving c) (data : List (BitVec 8)) :
    c.send data = { c with endpoint := c.endpoint.send data .text true } := by
  have havailable : c.available = true := h.connectionOpen
  rw [send, havailable, if_pos rfl, h.sendMode]

theorem perform_text (process : ProcessStringInput σ) (state : σ) {c : WebsocketsClient}
    (h : Serving c) (data : List (BitVec 8)) :
    ∃ c', perform (onWebsocketMessageCallback process) (.deliver ⟨.text, data, .complete⟩)
        (state, c) = ((process state data).1, c') ∧ Serving c' ∧
      c'.endpoint.calls = c.endpoint.calls ++ [serverFrame .text (process state data).2] := by
  let reported := c.emit (.message ⟨.text, data, .complete⟩)
  have hreported : Serving reported := ⟨h.listening, h.sendMode, h.useMasking⟩
  refine ⟨reported.send (process state data).2, rfl, ?_, ?_⟩
  · rw [send_of_serving hreported]
    exact ⟨h.listening, h.sendMode, h.useMasking⟩
  · rw [send_of_serving hreported]
    simp [WebsocketsEndpoint.send, reported, emit, h.useMasking, serverFrame]

theorem perform_ping (process : ProcessStringInput σ) (state : σ) {c : WebsocketsClient}
    (h : Serving c) (data : List (BitVec 8)) :
    ∃ c', perform (onWebsocketMessageCallback process) (.deliver ⟨.ping, data, .complete⟩)
        (state, c) = (state, c') ∧ Serving c' ∧
      c'.endpoint.calls =
        c.endpoint.calls ++ if 125 < data.length then [] else [serverFrame .pong data] := by
  refine ⟨{ c with endpoint := c.endpoint.pong data }.emit (.gotPing data), rfl, ?_, ?_⟩
  · simp only [emit, WebsocketsEndpoint.pong]
    split
    · exact ⟨h.listening, h.sendMode, h.useMasking⟩
    · exact ⟨h.listening, h.sendMode, h.useMasking⟩
  · simp only [emit, WebsocketsEndpoint.pong]
    split
    · exact (List.append_nil _).symm
    · simp [WebsocketsEndpoint.send, h.useMasking, serverFrame]

theorem performAll_serve (process : ProcessStringInput σ) {rs : List Reaction}
    (hcomplete : ∀ msg, .deliver msg ∈ rs → msg.role = .complete) (state : σ)
    {c : WebsocketsClient} (h : Serving c) :
    ∃ c', performAll (onWebsocketMessageCallback process) rs (state, c) =
        ((serve process rs state).1, c') ∧
      c'.endpoint.calls = c.endpoint.calls ++ (serve process rs state).2 := by
  induction rs generalizing state c with
  | nil => exact ⟨c, rfl, (List.append_nil _).symm⟩
  | cons r rs ih =>
    have hrest : ∀ msg, .deliver msg ∈ rs → msg.role = .complete := fun msg hmem =>
      hcomplete msg (List.mem_cons_of_mem _ hmem)
    rw [performAll, h.listening, if_pos rfl]
    have hsends : ∀ {state' : σ} {sent : List SocketCall}, (∃ c',
        perform (onWebsocketMessageCallback process) r (state, c) = (state', c') ∧ Serving c' ∧
          c'.endpoint.calls = c.endpoint.calls ++ sent) →
        ∃ c', performAll (onWebsocketMessageCallback process) rs
            (perform (onWebsocketMessageCallback process) r (state, c)) =
              ((serve process rs state').1, c') ∧
          c'.endpoint.calls = c.endpoint.calls ++ (sent ++ (serve process rs state').2) := by
      rintro state' sent ⟨c', hperform, hserving, hcalls⟩
      obtain ⟨c'', hall, hall'⟩ := ih hrest state' hserving
      refine ⟨c'', ?_, ?_⟩
      · rw [hperform, hall]
      · rw [hall', hcalls, List.append_assoc]
    have hstops : ∀ {sent : List SocketCall}, (∃ c',
        perform (onWebsocketMessageCallback process) r (state, c) = (state, c') ∧
          c'.listening = false ∧ c'.endpoint.calls = c.endpoint.calls ++ sent) →
        ∃ c', performAll (onWebsocketMessageCallback process) rs
            (perform (onWebsocketMessageCallback process) r (state, c)) = (state, c') ∧
          c'.endpoint.calls = c.endpoint.calls ++ sent := by
      rintro sent ⟨c', hperform, hdeaf, hcalls⟩
      rw [hperform, performAll_deaf hdeaf]
      exact ⟨c', rfl, hcalls⟩
    cases r with
    | nothing => exact ih hrest state h
    | reject => exact hstops (perform_reject process state h)
    | deliver msg =>
      obtain ⟨type, data, role⟩ := msg
      obtain rfl : role = .complete := hcomplete _ List.mem_cons_self
      cases type with
      | text => exact hsends (perform_text process state h data)
      | ping => exact hsends (perform_ping process state h data)
      | close => exact hstops (perform_close process state h data)
      | empty => exact ih hrest state h
      | binary =>
        have hserving : Serving (c.emit (.message ⟨.binary, data, .complete⟩)) :=
          ⟨h.listening, h.sendMode, h.useMasking⟩
        exact ih hrest state hserving
      | pong =>
        have hserving : Serving (c.emit (.gotPong data)) :=
          ⟨h.listening, h.sendMode, h.useMasking⟩
        exact ih hrest state hserving

theorem role_of_mem_reactions {frames : List WebsocketsFrame} {a : Assembly}
    {msg : WebsocketsMessage} (h : .deliver msg ∈ a.reactions frames) : msg.role = .complete := by
  induction frames generalizing a with
  | nil => cases h
  | cons frame frames ih =>
    rcases List.mem_cons.mp h with hmsg | hmem
    · rcases Assembly.step_eq_deliver hmsg.symm with ⟨hnormal, rfl⟩ | ⟨-, type, content, -, rfl⟩
      · rw [WebsocketsEndpoint.createFromFrame_of_normal hnormal]
      · rfl
    · exact ih hmem

/-- The server processes the complete texts of its peer, each once and in order, and answers each
of them with one text; otherwise it sends only pongs, and one close when the peer closes or breaks
the rules, behind which it reads nothing more. -/
theorem server_session (process : ProcessStringInput σ) (j : Junk) (junk : Nat → Junk)
    {frames : List PeerFrame} {s : List (Arrival (BitVec 8))}
    (hs : Carries (frames.flatMap PeerFrame.atoms) s) {rounds : Nat} (hrounds : weight s ≤ rounds)
    (state : σ) :
    ∃ c, let served :=
        serve process (Assembly.idle.reactions (frames.map (·.received j))) state
      pollRounds junk (onWebsocketMessageCallback process) rounds (state, accepted) s =
        .ok (served.1, c) ∧
      c.endpoint.calls = serverFrame .text hello :: served.2 := by
  obtain ⟨mode, b, hpoll⟩ : ∃ mode b,
      pollRounds junk (onWebsocketMessageCallback process) rounds (state, accepted) s =
        .ok (withReceiving mode b (performAll (onWebsocketMessageCallback process)
          (Assembly.idle.reactions (frames.map (·.received j))) (state, accepted))) :=
    pollRounds_session (onWebsocketMessageCallback_oblivious process) j hs hrounds rfl .idle
  obtain ⟨c, hall, hcalls⟩ := performAll_serve process
    (fun _ hmem => role_of_mem_reactions hmem) state (⟨rfl, rfl, rfl⟩ : Serving accepted)
  rw [hpoll, hall]
  exact ⟨_, rfl, hcalls⟩

/-- A protocol that counts its envelopes and sends them back.  The end of a message that was not
begun breaks the rules, and the query behind it is not read. -/
theorem server_session_example :
    ∃ c, pollRounds (fun _ => ⟨⟨0, 0, false, 0, false⟩, fun _ => 0⟩)
        (onWebsocketMessageCallback fun n envelope => (n + 1, envelope)) 20 (0, accepted)
        [.data [0x81, 0x01, 0x71], .failed, .data [0x89, 0x00, 0x80, 0x00, 0x81, 0x01, 0x71]] =
          .ok (1, c) ∧
      c.endpoint.calls =
        [serverFrame .text hello, serverFrame .text [0x71], serverFrame .pong [],
          serverFrame .close [0x03, 0xEA], .close] := by
  let query : PeerFrame := ⟨true, 0, 1, none, .short, [0x71], show 1 < 126 by decide⟩
  let ping : PeerFrame := ⟨true, 0, 9, none, .short, [], show 0 < 126 by decide⟩
  let last : PeerFrame := ⟨true, 0, 0, none, .short, [], show 0 < 126 by decide⟩
  have hatoms : [query, ping, last, query].flatMap PeerFrame.atoms =
      [[0x81, 0x01], [0x71], [0x89, 0x00], [0x80, 0x00], [0x81, 0x01], [0x71]] := by
    decide
  have hcarries : Carries ([query, ping, last, query].flatMap PeerFrame.atoms)
      [.data [0x81, 0x01, 0x71], .failed,
        .data [0x89, 0x00, 0x80, 0x00, 0x81, 0x01, 0x71]] := by
    rw [hatoms]
    exact .piece [[0x81, 0x01], [0x71]] (by decide)
      (.failed (.piece [[0x89, 0x00], [0x80, 0x00], [0x81, 0x01], [0x71]] (by decide) .done))
  obtain ⟨c, hpoll, hcalls⟩ := server_session (fun n envelope => (n + 1, envelope))
    ⟨⟨0, 0, false, 0, false⟩, fun _ => 0⟩ (fun _ => ⟨⟨0, 0, false, 0, false⟩, fun _ => 0⟩)
    hcarries (by decide : _ ≤ 20) 0
  exact ⟨c, hpoll, hcalls⟩

end WebsocketsClient

end Lucidac.Websockets
