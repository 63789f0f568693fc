import Lucidac.Websockets.Client

/-!
# The assembly of messages

What an endpoint that aggregates fragments is for: whole frames and complete sequences of fragments
are delivered as messages, and a frame that does not fit is answered with a protocol error.  After
fragments of an unknown kind the assembly is spoilt for good.
-/

namespace Lucidac.Websockets

/-- A message in the making. -/
inductive Assembly where
  | idle
  | collecting (type : MessageType) (content : List (BitVec 8))
  | spoilt (mode : RecvMode)

inductive Reaction where
  | nothing
  | deliver (msg : WebsocketsMessage)
  | reject
deriving DecidableEq

def Reaction.message : Reaction → WebsocketsMessage
  | nothing => .nothing
  | deliver msg => msg
  | reject => .nothing

inductive FrameKind where
  | control | whole | beginning | continues | ending

def WebsocketsFrame.kind (frame : WebsocketsFrame) : FrameKind :=
  if frame.isControlFrame then .control
  else match frame.fin, decide (frame.opcode = 0) with
    | true, false => .whole
    | true, true => .ending
    | false, false => .beginning
    | false, true => .continues

namespace Assembly

def accept (frame : WebsocketsFrame) (a : Assembly) : Assembly × Reaction :=
  let type := messageTypeFromOpcode frame.opcode
  match frame.kind, a with
  | .control, a => (a, .deliver ⟨type, frame.payload, .complete⟩)
  | .whole, idle => (idle, .deliver ⟨type, frame.payload, .complete⟩)
  | .whole, spoilt .normal => (spoilt .normal, .deliver ⟨type, frame.payload, .complete⟩)
  | .whole, a => (a, .reject)
  | .beginning, idle =>
    (if type = .empty then spoilt .streaming else collecting type frame.payload, .nothing)
  | .beginning, collecting type content => (collecting type content, .reject)
  | .beginning, spoilt _ => (spoilt .streaming, .reject)
  | .continues, collecting type content =>
    (collecting type (content ++ frame.payload), .nothing)
  | .continues, a => (a, .reject)
  | .ending, collecting type content =>
    (idle, .deliver ⟨type, content ++ frame.payload, .complete⟩)
  | .ending, idle => (idle, .reject)
  | .ending, spoilt _ => (spoilt .normal, .reject)

def step (frame : WebsocketsFrame) (a : Assembly) : Assembly × Reaction :=
  if frame.isEmpty then (a, .nothing) else a.accept frame

/-- What is done about the frames, one after the other. -/
def reactions : List WebsocketsFrame → Assembly → List Reaction
  | [], _ => []
  | frame :: frames, a => (a.step frame).2 :: (a.step frame).1.reactions frames

def after (frames : List WebsocketsFrame) (a : Assembly) : Assembly :=
  frames.foldl (fun a frame => (a.step frame).1) a

theorem after_append (frames rest : List WebsocketsFrame) (a : Assembly) :
    a.after (frames ++ rest) = (a.after frames).after rest := List.foldl_append

theorem reactions_append (frames rest : List WebsocketsFrame) (a : Assembly) :
    a.reactions (frames ++ rest) = a.reactions frames ++ (a.after frames).reactions rest := by
  induction frames generalizing a with
  | nil => rfl
  | cons frame frames ih =>
    rw [List.cons_append, reactions, ih]
    rfl

@[simp] theorem length_reactions (frames : List WebsocketsFrame) (a : Assembly) :
    (a.reactions frames).length = frames.length := by
  induction frames generalizing a with
  | nil => rfl
  | cons frame frames ih => rw [reactions, List.length_cons, List.length_cons, ih]

/-- How an endpoint holds the assembly. -/
inductive Represents : Assembly → RecvMode → StreamBuilder → Prop
  | idle : Represents idle .normal (.new false)
  | collecting (type : MessageType) (content : List (BitVec 8)) :
      Represents (collecting type content) .streaming
        ⟨false, false, false, content, some type, some false⟩
  | spoilt (mode : RecvMode) (b : StreamBuilder) (hempty : b.isEmpty = false)
      (hbad : b.didErrored = some true) : Represents (spoilt mode) mode b

end Assembly

namespace WebsocketsEndpoint

/-- The endpoint with another message in the making. -/
def withReceiving (mode : RecvMode) (b : StreamBuilder) (e : WebsocketsEndpoint) :
    WebsocketsEndpoint :=
  { e with recvMode := mode, streamBuilder := b }

def react : Reaction → WebsocketsEndpoint → WebsocketsEndpoint
  | .nothing, e => e
  | .deliver msg, e => e.handleMessageInternally msg
  | .reject, e => e.close .protocolError

variable {mode : RecvMode} {b : StreamBuilder} {e : WebsocketsEndpoint}

theorem close_withReceiving (reason : CloseReason) :
    (e.withReceiving mode b).close reason = (e.close reason).withReceiving mode b := by
  rw [close, close]
  split
  · rfl
  · rfl

theorem handleMessageInternally_withReceiving (msg : WebsocketsMessage) :
    (e.withReceiving mode b).handleMessageInternally msg =
      (e.handleMessageInternally msg).withReceiving mode b := by
  rw [handleMessageInternally, handleMessageInternally]
  split
  · rw [pong, pong]
    split
    · rfl
    · rfl
  · split
    · exact close_withReceiving _
    · exact close_withReceiving _
  · rfl

section Kinds

variable {frame : WebsocketsFrame}

theorem isControlFrame_of_kind (h : frame.kind = .control) :
    frame.isControlFrame = true ∧ frame.isNormalUnfragmentedMessage = true := by
  have hcontrol : frame.isControlFrame = true := by
    rw [WebsocketsFrame.kind] at h
    split at h
    · assumption
    · split at h <;> cases h
  refine ⟨hcontrol, ?_⟩
  simp only [WebsocketsFrame.isControlFrame, Bool.and_eq_true, Bool.or_eq_true, beq_iff_eq]
    at hcontrol
  obtain ⟨hfin, (hop | hop) | hop⟩ := hcontrol <;>
    simp [WebsocketsFrame.isNormalUnfragmentedMessage, hfin, hop]

/-- The predicates of the source, for frames that are not control frames. -/
theorem kind_spec (h : frame.kind ≠ .control) :
    frame.isControlFrame = false ∧
    frame.isNormalUnfragmentedMessage = (frame.kind matches .whole) ∧
    frame.isBeginningOfFragmentsStream = (frame.kind matches .beginning) ∧
    frame.isContinuesFragment = (frame.kind matches .continues) ∧
    frame.isEndOfFragmentsStream = (frame.kind matches .ending) := by
  have hcontrol : frame.isControlFrame = false := by
    by_contra hnot
    rw [Bool.not_eq_false] at hnot
    exact h (by rw [WebsocketsFrame.kind, if_pos hnot])
  refine ⟨hcontrol, ?_⟩
  simp only [WebsocketsFrame.kind, hcontrol, WebsocketsFrame.isNormalUnfragmentedMessage,
    WebsocketsFrame.isBeginningOfFragmentsStream, WebsocketsFrame.isContinuesFragment,
    WebsocketsFrame.isEndOfFragmentsStream]
  cases frame.fin <;> by_cases hop : frame.opcode = 0#4 <;> simp [hop]

theorem createFromFrame_of_normal (h : frame.isNormalUnfragmentedMessage = true) :
    WebsocketsMessage.createFromFrame frame =
      ⟨messageTypeFromOpcode frame.opcode, frame.payload, .complete⟩ := by
  rw [WebsocketsMessage.createFromFrame, if_pos h]

end Kinds

theorem handleFrame_control {frame : WebsocketsFrame} (hempty : frame.isEmpty = false)
    (hkind : frame.kind = .control) (e : WebsocketsEndpoint) :
    e.handleFrame frame =
      let msg := ⟨messageTypeFromOpcode frame.opcode, frame.payload, .complete⟩
      some (msg, e.handleMessageInternally msg) := by
  obtain ⟨hcontrol, hnormal⟩ := isControlFrame_of_kind hkind
  rw [handleFrame, hempty, if_neg Bool.false_ne_true]
  cases e.recvMode with
  | normal =>
    simp only [handleFrameInStandardMode, hnormal, Bool.true_or, if_true,
      createFromFrame_of_normal hnormal]
  | streaming =>
    simp only [handleFrameInStreamingMode, hcontrol, if_true, createFromFrame_of_normal hnormal]
    rfl

/-- Outside of a sequence of fragments only whole frames and first fragments are in place. -/
theorem handleFrameInStandardMode_eq {frame : WebsocketsFrame} (hkind : frame.kind ≠ .control)
    (e : WebsocketsEndpoint) :
    e.handleFrameInStandardMode frame =
      match frame.kind with
      | .whole =>
        let msg := ⟨messageTypeFromOpcode frame.opcode, frame.payload, .complete⟩
        some (msg, e.handleMessageInternally msg)
      | .beginning => e.handleFrameInStreamingMode frame
      | _ => some (.nothing, e.close .protocolError) := by
  obtain ⟨hcontrol, hnormal, hbeginning, hcontinues, hending⟩ := kind_spec hkind
  rw [handleFrameInStandardMode, hcontrol, Bool.or_false]
  cases hk : frame.kind <;> rw [hk] at hnormal hbeginning
  · exact absurd hk hkind
  · rw [hnormal, if_pos rfl, createFromFrame_of_normal hnormal]
  · rw [hnormal, hbeginning, if_neg Bool.false_ne_true, if_pos rfl]
  · rw [hnormal, hbeginning, if_neg Bool.false_ne_true, if_neg Bool.false_ne_true]
  · rw [hnormal, hbeginning, if_neg Bool.false_ne_true, if_neg Bool.false_ne_true]

section Builder

variable {frame : WebsocketsFrame} {type : MessageType} {content : List (BitVec 8)}

theorem first_new (h : frame.isBeginningOfFragmentsStream = true) :
    (if messageTypeFromOpcode frame.opcode = .empty then Assembly.spoilt .streaming
      else .collecting (messageTypeFromOpcode frame.opcode) frame.payload).Represents
        .streaming ((StreamBuilder.new false).first frame) := by
  by_cases hempty : messageTypeFromOpcode frame.opcode = .empty
  · rw [if_pos hempty]
    refine .spoilt .streaming _ ?_ ?_ <;>
      simp [StreamBuilder.first, StreamBuilder.new, h, hempty, StreamBuilder.badFragment]
  · have hfirst : (StreamBuilder.new false).first frame =
        ⟨false, false, false, frame.payload, some (messageTypeFromOpcode frame.opcode),
          some false⟩ := by
      simp [StreamBuilder.first, StreamBuilder.new, h, hempty]
    rw [if_neg hempty, hfirst]
    exact .collecting _ _

theorem append_collecting (h : frame.isContinuesFragment = true) :
    StreamBuilder.append frame ⟨false, false, false, content, some type, some false⟩ =
      some ⟨false, false, false, content ++ frame.payload, some type, some false⟩ := by
  simp [StreamBuilder.append, h]

theorem finish_collecting (h : frame.isEndOfFragmentsStream = true) :
    StreamBuilder.finish frame ⟨false, false, false, content, some type, some false⟩ =
      some ⟨false, false, true, content ++ frame.payload, some type, some false⟩ := by
  simp [StreamBuilder.finish, h]

theorem append_of_errored (frame : WebsocketsFrame) (h : b.didErrored = some true) :
    b.append frame = some b := by
  rw [StreamBuilder.append, h]
  rfl

theorem finish_of_errored (frame : WebsocketsFrame) (h : b.didErrored = some true) :
    b.finish frame = some b := by
  rw [StreamBuilder.finish, h]
  rfl

theorem isOk_of_errored (h : b.didErrored = some true) : b.isOk = some false := by
  rw [StreamBuilder.isOk, h]
  rfl

end Builder

/-- The endpoint goes along with the assembly at a frame that is not empty. -/
def Follows (a : Assembly) (frame : WebsocketsFrame) (e : WebsocketsEndpoint) : Prop :=
  ∃ mode b, (a.accept frame).1.Represents mode b ∧
    e.handleFrame frame =
      some ((a.accept frame).2.message, (e.withReceiving mode b).react (a.accept frame).2)

section Follows

variable {frame : WebsocketsFrame} {reason : CloseReason} {masking : Bool}
  {calls : List SocketCall} {stopped : Bool}

theorem follows_control (hempty : frame.isEmpty = false) (hkind : frame.kind = .control)
    {a : Assembly} (h : a.Represents e.recvMode e.streamBuilder) : Follows a frame e := by
  have haccept : a.accept frame =
      (a, .deliver ⟨messageTypeFromOpcode frame.opcode, frame.payload, .complete⟩) := by
    simp only [Assembly.accept, hkind]
  rw [Follows, haccept, handleFrame_control hempty hkind]
  exact ⟨e.recvMode, e.streamBuilder, h, rfl⟩

theorem follows_idle (hempty : frame.isEmpty = false) (hcontrol : frame.kind ≠ .control) :
    Follows .idle frame ⟨.aggregate, .normal, .new false, reason, masking, calls, stopped⟩ := by
  obtain ⟨-, -, hbeginning, -, -⟩ := kind_spec hcontrol
  rw [Follows, handleFrame, hempty, if_neg Bool.false_ne_true]
  simp only [handleFrameInStandardMode_eq hcontrol]
  cases hkind : frame.kind with
  | control => exact absurd hkind hcontrol
  | whole =>
    simp only [Assembly.accept, hkind]
    exact ⟨_, _, .idle, rfl⟩
  | beginning =>
    rw [hkind] at hbeginning
    obtain ⟨hctl, -⟩ := kind_spec hcontrol
    simp only [Assembly.accept, hkind, handleFrameInStreamingMode, hctl, hbeginning]
    exact ⟨_, _, first_new hbeginning, rfl⟩
  | continues =>
    simp only [Assembly.accept, hkind]
    exact ⟨_, _, .idle, rfl⟩
  | ending =>
    simp only [Assembly.accept, hkind]
    exact ⟨_, _, .idle, rfl⟩

theorem follows_collecting (hempty : frame.isEmpty = false) (hcontrol : frame.kind ≠ .control)
    (type : MessageType) (content : List (BitVec 8)) :
    Follows (.collecting type content) frame
      ⟨.aggregate, .streaming, ⟨false, false, false, content, some type, some false⟩, reason,
        masking, calls, stopped⟩ := by
  obtain ⟨hctl, -, hbeginning, hcontinues, hending⟩ := kind_spec hcontrol
  rw [Follows, handleFrame, hempty, if_neg Bool.false_ne_true]
  simp only [handleFrameInStreamingMode, hctl, hbeginning, hcontinues, hending]
  cases hkind : frame.kind with
  | control => exact absurd hkind hcontrol
  | whole =>
    simp only [Assembly.accept, hkind]
    exact ⟨_, _, .collecting type content, rfl⟩
  | beginning =>
    simp only [Assembly.accept, hkind]
    exact ⟨_, _, .collecting type content, rfl⟩
  | continues =>
    simp only [Assembly.accept, hkind]
    rw [append_collecting (by rw [hcontinues, hkind])]
    exact ⟨_, _, .collecting type (content ++ frame.payload), rfl⟩
  | ending =>
    simp only [Assembly.accept, hkind]
    rw [finish_collecting (by rw [hending, hkind])]
    exact ⟨_, _, .idle, rfl⟩

-- A builder that is spoilt takes no further fragment: only the mode changes.
theorem follows_spoilt (hempty : frame.isEmpty = false) (hcontrol : frame.kind ≠ .control)
    (hb : b.isEmpty = false) (hbad : b.didErrored = some true) :
    Follows (.spoilt mode) frame ⟨.aggregate, mode, b, reason, masking, calls, stopped⟩ := by
  obtain ⟨hctl, -, hbeginning, hcontinues, hending⟩ := kind_spec hcontrol
  rw [Follows, handleFrame, hempty, if_neg Bool.false_ne_true]
  simp only [handleFrameInStandardMode_eq hcontrol, handleFrameInStreamingMode, hctl, hbeginning,
    hcontinues, hending]
  cases hkind : frame.kind with
  | control => exact absurd hkind hcontrol
  | whole =>
    simp only [Assembly.accept, hkind]
    cases mode with
    | normal => exact ⟨_, _, .spoilt .normal b hb hbad, rfl⟩
    | streaming => exact ⟨_, _, .spoilt .streaming b hb hbad, rfl⟩
  | beginning =>
    simp only [Assembly.accept, hkind, hb]
    cases mode with
    | normal => exact ⟨_, _, .spoilt .streaming b hb hbad, rfl⟩
    | streaming => exact ⟨_, _, .spoilt .streaming b hb hbad, rfl⟩
  | continues =>
    simp only [Assembly.accept, hkind, append_of_errored frame hbad]
    cases mode with
    | normal => exact ⟨_, _, .spoilt .normal b hb hbad, rfl⟩
    | streaming =>
      refine ⟨_, _, .spoilt .streaming b hb hbad, ?_⟩
      simp only [Option.bind_eq_bind, Option.bind_some, isOk_of_errored hbad]
      rfl
  | ending =>
    simp only [Assembly.accept, hkind, finish_of_errored frame hbad]
    cases mode with
    | normal => exact ⟨_, _, .spoilt .normal b hb hbad, rfl⟩
    | streaming =>
      refine ⟨_, _, .spoilt .normal b hb hbad, ?_⟩
      simp only [Option.bind_eq_bind, Option.bind_some, isOk_of_errored hbad]
      rfl

end Follows

theorem handleFrame_of_represents {a : Assembly}
    (hpolicy : e.fragmentsPolicy = .aggregate)
    (h : a.Represents e.recvMode e.streamBuilder) (frame : WebsocketsFrame) :
    ∃ mode b, (a.step frame).1.Represents mode b ∧
      e.handleFrame frame =
        some ((a.step frame).2.message, (e.withReceiving mode b).react (a.step frame).2) := by
  rw [Assembly.step]
  cases hempty : frame.isEmpty with
  | true =>
    refine ⟨e.recvMode, e.streamBuilder, h, ?_⟩
    rw [handleFrame, hempty]
    rfl
  | false =>
    rw [if_neg Bool.false_ne_true]
    by_cases hcontrol : frame.kind = .control
    · exact follows_control hempty hcontrol h
    · obtain ⟨policy, mode, b, reason, masking, calls, stopped⟩ := e
      obtain rfl : policy = .aggregate := hpolicy
      change a.Represents mode b at h
      cases h with
      | idle => exact follows_idle hempty hcontrol
      | collecting type content => exact follows_collecting hempty hcontrol type content
      | spoilt mode b hb hbad => exact follows_spoilt hempty hcontrol hb hbad

end WebsocketsEndpoint

end Lucidac.Websockets
