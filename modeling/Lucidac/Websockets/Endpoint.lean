import Lucidac.Websockets.Frame

/-!
# The endpoint of a websocket

Frames become messages: fragments are collected until the last one has come, pings are answered
and a close is echoed.  The endpoint's calls of its socket are listed.
-/

namespace Lucidac.Websockets

open Framework

inductive MessageType where
  | empty | text | binary | ping | pong | close
deriving DecidableEq

def messageTypeFromOpcode (opcode : BitVec 4) : MessageType :=
  if opcode = 0x2 then .binary
  else if opcode = 0x1 then .text
  else if opcode = 0x9 then .ping
  else if opcode = 0xA then .pong
  else if opcode = 0x8 then .close
  else .empty

inductive MessageRole where
  | complete | first | continuation | last
deriving DecidableEq

structure WebsocketsMessage where
  type : MessageType
  data : List (BitVec 8)
  role : MessageRole
deriving DecidableEq

namespace WebsocketsMessage

/-- `{}`. -/
def nothing : WebsocketsMessage := ⟨.empty, [], .complete⟩

def isEmpty (msg : WebsocketsMessage) : Bool := msg.type = .empty

def createFromFrame (frame : WebsocketsFrame) : WebsocketsMessage where
  type := messageTypeFromOpcode frame.opcode
  data := frame.payload
  role :=
    if frame.isNormalUnfragmentedMessage then .complete
    else if frame.isBeginningOfFragmentsStream then .first
    else if frame.isContinuesFragment then .continuation
    else if frame.isEndOfFragmentsStream then .last
    else .complete

end WebsocketsMessage

/-- The fields without a value are those that no constructor sets.  They may be copied, as the
assignment of a new builder does, but not read by a call. -/
structure StreamBuilder where
  dummyMode : Bool
  isEmpty : Bool
  isComplete : Bool
  content : List (BitVec 8)
  type : Option MessageType
  didErrored : Option Bool

namespace StreamBuilder

def new (dummyMode : Bool) : StreamBuilder := ⟨dummyMode, true, false, [], none, none⟩

def badFragment (b : StreamBuilder) : StreamBuilder :=
  { b with didErrored := some true, isComplete := false }

def first (frame : WebsocketsFrame) (b : StreamBuilder) : StreamBuilder :=
  if b.isEmpty = false then b.badFragment
  else if frame.isBeginningOfFragmentsStream then
    let b := { b with
      isEmpty := false, isComplete := false, didErrored := some false
      content := if b.dummyMode then b.content else frame.payload
      type := some (messageTypeFromOpcode frame.opcode) }
    if messageTypeFromOpcode frame.opcode = .empty then b.badFragment else b
  else { b with isEmpty := false, didErrored := some true }

/-- None when it is not known whether there was an error. -/
def append (frame : WebsocketsFrame) (b : StreamBuilder) : Option StreamBuilder := do
  if ← b.didErrored then return b
  if b.isEmpty || b.isComplete then return b.badFragment
  if frame.isContinuesFragment then
    return { b with content := if b.dummyMode then b.content else b.content ++ frame.payload }
  else return b.badFragment

def finish (frame : WebsocketsFrame) (b : StreamBuilder) : Option StreamBuilder := do
  if ← b.didErrored then return b
  if b.isEmpty || b.isComplete then return b.badFragment
  if frame.isEndOfFragmentsStream then
    return { b with
      content := if b.dummyMode then b.content else b.content ++ frame.payload
      isComplete := true }
  else return b.badFragment

def isOk (b : StreamBuilder) : Option Bool := b.didErrored.map not

end StreamBuilder

inductive FragmentsPolicy where
  | aggregate | notify
deriving DecidableEq

inductive RecvMode where
  | normal | streaming
deriving DecidableEq

inductive CloseReason where
  | none | normalClosure | goingAway | protocolError | unsupportedData | noStatusRcvd
  | abnormalClosure | invalidPayloadData | policyViolation | messageTooBig | internalServerError
deriving DecidableEq

def CloseReason.value : CloseReason → BitVec 16
  | none => -1
  | normalClosure => 1000
  | goingAway => 1001
  | protocolError => 1002
  | unsupportedData => 1003
  | noStatusRcvd => 1005
  | abnormalClosure => 1006
  | invalidPayloadData => 1007
  | policyViolation => 1008
  | messageTooBig => 1009
  | internalServerError => 1011

def getCloseReason (reasonCode : BitVec 16) : CloseReason :=
  if reasonCode = 1000 then .normalClosure
  else if reasonCode = 1001 then .goingAway
  else if reasonCode = 1002 then .protocolError
  else if reasonCode = 1003 then .unsupportedData
  else if reasonCode = 1006 then .abnormalClosure
  else if reasonCode = 1007 then .invalidPayloadData
  else if reasonCode = 1008 then .policyViolation
  else if reasonCode = 1009 then .messageTooBig
  else if reasonCode = 1005 then .noStatusRcvd
  else if reasonCode = 1011 then .internalServerError
  else .none

inductive SocketCall where
  | send (bytes : List (BitVec 8))
  | close
deriving DecidableEq

/-- A stopped socket has no data any more. -/
structure WebsocketsEndpoint where
  fragmentsPolicy : FragmentsPolicy
  recvMode : RecvMode
  streamBuilder : StreamBuilder
  closeReason : CloseReason
  useMasking : Bool
  calls : List SocketCall
  stopped : Bool

namespace WebsocketsEndpoint

def new (fragmentsPolicy : FragmentsPolicy) : WebsocketsEndpoint where
  fragmentsPolicy := fragmentsPolicy
  recvMode := .normal
  streamBuilder := .new (fragmentsPolicy = .notify)
  closeReason := .none
  useMasking := true
  calls := []
  stopped := false

def defaultMask : Fin 4 → BitVec 8 := fun _ => 0

def send (data : List (BitVec 8)) (opcode : ContentType) (fin : Bool) (e : WebsocketsEndpoint) :
    WebsocketsEndpoint :=
  { e with calls :=
      e.calls ++ [.send (Websockets.send data opcode.value fin e.useMasking defaultMask)] }

def ping (msg : List (BitVec 8)) (e : WebsocketsEndpoint) : WebsocketsEndpoint :=
  if 125 < msg.length then e else e.send msg .ping true

def pong (msg : List (BitVec 8)) (e : WebsocketsEndpoint) : WebsocketsEndpoint :=
  if 125 < msg.length then e else e.send msg .pong true

def reasonBytes (reason : CloseReason) : List (BitVec 8) :=
  wordBytes 2 (reason.value >>> 8 ||| reason.value <<< 8)

def close (reason : CloseReason) (e : WebsocketsEndpoint) : WebsocketsEndpoint :=
  let e := { e with closeReason := reason }
  let e := if reason = .none then e.send [] .close true else e.send (reasonBytes reason) .close true
  { e with calls := e.calls ++ [.close], stopped := true }

def handleMessageInternally (msg : WebsocketsMessage) (e : WebsocketsEndpoint) :
    WebsocketsEndpoint :=
  match msg.type with
  | .ping => e.pong msg.data
  | .close =>
    if 2 ≤ msg.data.length then
      let reason := BitVec.ofNat 16 (ofWordBytes (msg.data.take 2))
      e.close (getCloseReason (reason >>> 8 ||| reason <<< 8))
    else e.close .goingAway
  | _ => e

/-- None when a call of the builder reads a field that was not written. -/
def handleFrameInStreamingMode (frame : WebsocketsFrame) (e : WebsocketsEndpoint) :
    Option (WebsocketsMessage × WebsocketsEndpoint) := do
  if frame.isControlFrame then
    let msg := WebsocketsMessage.createFromFrame frame
    return (msg, e.handleMessageInternally msg)
  else if frame.isBeginningOfFragmentsStream then
    let e := { e with recvMode := .streaming }
    if e.streamBuilder.isEmpty then
      let e := { e with streamBuilder := e.streamBuilder.first frame }
      match e.fragmentsPolicy with
      | .notify => return (⟨← e.streamBuilder.type, frame.payload, .first⟩, e)
      | .aggregate => return (.nothing, e)
    else return (.nothing, e.close .protocolError)
  else if frame.isContinuesFragment then
    let e := { e with streamBuilder := ← e.streamBuilder.append frame }
    if ← e.streamBuilder.isOk then
      match e.fragmentsPolicy with
      | .notify => return (⟨← e.streamBuilder.type, frame.payload, .continuation⟩, e)
      | .aggregate => return (.nothing, e)
    else return (.nothing, e.close .protocolError)
  else if frame.isEndOfFragmentsStream then
    let e := { e with recvMode := .normal, streamBuilder := ← e.streamBuilder.finish frame }
    if ← e.streamBuilder.isOk then
      let type ← e.streamBuilder.type
      match e.fragmentsPolicy with
      | .aggregate =>
        let completeMessage := ⟨type, e.streamBuilder.content, .complete⟩
        let e := { e with streamBuilder := .new false }
        return (completeMessage, e.handleMessageInternally completeMessage)
      | .notify => return (⟨type, frame.payload, .last⟩, { e with streamBuilder := .new true })
    else return (.nothing, e.close .protocolError)
  else return (.nothing, e.close .protocolError)

def handleFrameInStandardMode (frame : WebsocketsFrame) (e : WebsocketsEndpoint) :
    Option (WebsocketsMessage × WebsocketsEndpoint) :=
  if frame.isNormalUnfragmentedMessage || frame.isControlFrame then
    let msg := WebsocketsMessage.createFromFrame frame
    some (msg, e.handleMessageInternally msg)
  else if frame.isBeginningOfFragmentsStream then e.handleFrameInStreamingMode frame
  else some (.nothing, e.close .protocolError)

/-- What `recv` does with the frame that it got. -/
def handleFrame (frame : WebsocketsFrame) (e : WebsocketsEndpoint) :
    Option (WebsocketsMessage × WebsocketsEndpoint) :=
  if frame.isEmpty then some (.nothing, e)
  else
    match e.recvMode with
    | .normal => e.handleFrameInStandardMode frame
    | .streaming => e.handleFrameInStreamingMode frame

def setFragmentsPolicy (newPolicy : FragmentsPolicy) (e : WebsocketsEndpoint) :
    WebsocketsEndpoint :=
  { e with fragmentsPolicy := newPolicy }

section Initialised

/-- A builder whose fields may be read. -/
structure Started (b : StreamBuilder) : Prop where
  notEmpty : b.isEmpty = false
  didErrored : b.didErrored.isSome = true
  type : b.didErrored = some false → b.type.isSome = true

/-- While fragments are received the builder has been started. -/
def Initialised (e : WebsocketsEndpoint) : Prop :=
  (e.recvMode = .normal ∧ e.streamBuilder.isEmpty = true) ∨ Started e.streamBuilder

theorem Started.badFragment {b : StreamBuilder} (h : Started b) : Started b.badFragment where
  notEmpty := h.notEmpty
  didErrored := rfl
  type := nofun

theorem started_first {frame : WebsocketsFrame} {b : StreamBuilder}
    (hframe : frame.isBeginningOfFragmentsStream = true) (hb : b.isEmpty = true) :
    Started (b.first frame) ∧ (b.first frame).type.isSome = true := by
  rw [StreamBuilder.first, hb, if_neg (by decide), if_pos hframe]
  by_cases hempty : messageTypeFromOpcode frame.opcode = .empty
  · rw [if_pos hempty]
    exact ⟨⟨rfl, rfl, nofun⟩, rfl⟩
  · rw [if_neg hempty]
    exact ⟨⟨rfl, rfl, fun _ => rfl⟩, rfl⟩

theorem Started.append {b : StreamBuilder} (h : Started b) (frame : WebsocketsFrame) :
    ∃ b', b.append frame = some b' ∧ Started b' := by
  obtain ⟨errored, herrored⟩ := Option.isSome_iff_exists.mp h.didErrored
  simp only [StreamBuilder.append, herrored, Option.bind_eq_bind, Option.bind_some]
  split
  · exact ⟨b, rfl, h⟩
  · split
    · exact ⟨_, rfl, h.badFragment⟩
    · split
      · exact ⟨_, rfl, ⟨h.notEmpty, rfl, fun hok => h.type (herrored.trans hok)⟩⟩
      · exact ⟨_, rfl, h.badFragment⟩

theorem Started.finish {b : StreamBuilder} (h : Started b) (frame : WebsocketsFrame) :
    ∃ b', b.finish frame = some b' ∧ Started b' := by
  obtain ⟨errored, herrored⟩ := Option.isSome_iff_exists.mp h.didErrored
  simp only [StreamBuilder.finish, herrored, Option.bind_eq_bind, Option.bind_some]
  split
  · exact ⟨b, rfl, h⟩
  · split
    · exact ⟨_, rfl, h.badFragment⟩
    · split
      · exact ⟨_, rfl, ⟨h.notEmpty, rfl, fun hok => h.type (herrored.trans hok)⟩⟩
      · exact ⟨_, rfl, h.badFragment⟩

/-- What a started builder tells about itself is known. -/
theorem Started.isOk {b : StreamBuilder} (h : Started b) :
    b.isOk = some false ∨ (b.isOk = some true ∧ ∃ type, b.type = some type) := by
  obtain ⟨errored, herrored⟩ := Option.isSome_iff_exists.mp h.didErrored
  rw [StreamBuilder.isOk, herrored]
  cases errored with
  | true => exact .inl rfl
  | false => exact .inr ⟨rfl, Option.isSome_iff_exists.mp (h.type herrored)⟩

theorem Initialised.close {e : WebsocketsEndpoint} (h : Initialised e) (reason : CloseReason) :
    Initialised (e.close reason) := by
  rw [WebsocketsEndpoint.close]
  split
  · exact h
  · exact h

theorem Initialised.handleMessageInternally {e : WebsocketsEndpoint} (h : Initialised e)
    (msg : WebsocketsMessage) : Initialised (e.handleMessageInternally msg) := by
  rw [WebsocketsEndpoint.handleMessageInternally]
  split
  · rw [pong]
    split
    · exact h
    · exact h
  · split
    · exact h.close _
    · exact h.close _
  · exact h

theorem Initialised.handleFrameInStreamingMode {e : WebsocketsEndpoint} (h : Initialised e)
    (frame : WebsocketsFrame)
    (hmode : Started e.streamBuilder ∨ frame.isBeginningOfFragmentsStream = true) :
    ∃ msg e', e.handleFrameInStreamingMode frame = some (msg, e') ∧ Initialised e' := by
  obtain ⟨policy, mode, b, reason, masking, calls, stopped⟩ := e
  rw [WebsocketsEndpoint.handleFrameInStreamingMode]
  split
  · exact ⟨_, _, rfl, h.handleMessageInternally _⟩
  · split
    · rename_i hbeginning
      cases hempty : b.isEmpty with
      | true =>
        obtain ⟨hfirst, htype⟩ := started_first hbeginning hempty
        obtain ⟨type, htype⟩ := Option.isSome_iff_exists.mp htype
        cases policy with
        | aggregate =>
          simp only [hempty, if_true]
          exact ⟨_, _, rfl, .inr hfirst⟩
        | notify =>
          simp only [hempty, if_true, htype]
          exact ⟨_, _, rfl, .inr hfirst⟩
      | false =>
        simp only [hempty, Bool.false_eq_true, if_false]
        have hstarted : Started b := by
          rcases h with ⟨-, hnew⟩ | hstarted
          · rw [hempty] at hnew; cases hnew
          · exact hstarted
        exact ⟨_, _, rfl, Initialised.close (.inr hstarted) _⟩
    · rename_i hbeginning
      have hstarted : Started b := hmode.resolve_right hbeginning
      split
      · obtain ⟨b', happend, hb'⟩ := hstarted.append frame
        simp only [happend, Option.bind_eq_bind, Option.bind_some]
        rcases hb'.isOk with hok | ⟨hok, type, htype⟩
        · simp only [hok, Option.bind_some]
          exact ⟨_, _, rfl, Initialised.close (.inr hb') _⟩
        · cases policy with
          | aggregate =>
            simp only [hok, Option.bind_some]
            exact ⟨_, _, rfl, .inr hb'⟩
          | notify =>
            simp only [hok, htype, Option.bind_some]
            exact ⟨_, _, rfl, .inr hb'⟩
      · split
        · obtain ⟨b', hfinish, hb'⟩ := hstarted.finish frame
          simp only [hfinish, Option.bind_eq_bind, Option.bind_some]
          rcases hb'.isOk with hok | ⟨hok, type, htype⟩
          · simp only [hok, Option.bind_some]
            exact ⟨_, _, rfl, Initialised.close (.inr hb') _⟩
          · simp only [hok, htype, Option.bind_some]
            cases policy with
            | aggregate =>
              exact ⟨_, _, rfl, Initialised.handleMessageInternally (.inl ⟨rfl, rfl⟩) _⟩
            | notify => exact ⟨_, _, rfl, .inl ⟨rfl, rfl⟩⟩
        · exact ⟨_, _, rfl, h.close _⟩

theorem Initialised.handleFrame {e : WebsocketsEndpoint} (h : Initialised e)
    (frame : WebsocketsFrame) :
    ∃ msg e', e.handleFrame frame = some (msg, e') ∧ Initialised e' := by
  rw [WebsocketsEndpoint.handleFrame]
  split
  · exact ⟨_, e, rfl, h⟩
  · split
    · rw [handleFrameInStandardMode]
      split
      · exact ⟨_, _, rfl, h.handleMessageInternally _⟩
      · split
        · rename_i hbeginning
          exact h.handleFrameInStreamingMode frame (.inr hbeginning)
        · exact ⟨_, _, rfl, h.close _⟩
    · rename_i hmode
      refine h.handleFrameInStreamingMode frame (.inl ?_)
      rcases h with ⟨hnormal, -⟩ | hstarted
      · rw [hnormal] at hmode; cases hmode
      · exact hstarted

/-- What happens to an endpoint that receives. -/
inductive Input where
  | frame (frame : WebsocketsFrame)
  | setFragmentsPolicy (newPolicy : FragmentsPolicy)

def receive : List Input → WebsocketsEndpoint → Option (List WebsocketsMessage × WebsocketsEndpoint)
  | [], e => some ([], e)
  | .frame frame :: inputs, e => do
    let (msg, e) ← e.handleFrame frame
    let (msgs, e) ← receive inputs e
    return (msg :: msgs, e)
  | .setFragmentsPolicy newPolicy :: inputs, e => receive inputs (e.setFragmentsPolicy newPolicy)

/-- No call of a builder reads a field before it is written, whatever frames come and whenever the
policy changes. -/
theorem receive_isSome (policy : FragmentsPolicy) (inputs : List Input) :
    ((new policy).receive inputs).isSome = true := by
  have hrun : ∀ e : WebsocketsEndpoint, Initialised e → (e.receive inputs).isSome = true := by
    induction inputs with
    | nil => exact fun _ _ => rfl
    | cons input inputs ih =>
      intro e h
      cases input with
      | frame frame =>
        obtain ⟨msg, e', hframe, hnext⟩ := h.handleFrame frame
        obtain ⟨r, hrest⟩ := Option.isSome_iff_exists.mp (ih e' hnext)
        simp only [receive, hframe, Option.bind_eq_bind, Option.bind_some, hrest]
        rfl
      | setFragmentsPolicy newPolicy => exact ih _ h
  exact hrun _ (.inl ⟨rfl, rfl⟩)

end Initialised

end WebsocketsEndpoint

end Lucidac.Websockets
