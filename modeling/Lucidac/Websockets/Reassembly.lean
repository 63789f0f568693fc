import Lucidac.Websockets.Session

/-!
# Reassembled messages

An endpoint makes up no message: what it returns is the payload of one frame or that of one
sequence of fragments, whatever else its peer sends.
-/

namespace Lucidac.Websockets

open Framework

namespace Assembly

/-- The fragments that an assembly was made from. -/
structure Gathered (frames : List WebsocketsFrame) (type : MessageType)
    (content : List (BitVec 8)) : Prop where
  intro ::
  split : ∃ before first between, frames = before ++ first :: between ∧
    first.isBeginningOfFragmentsStream = true ∧ messageTypeFromOpcode first.opcode = type ∧
    (∀ frame ∈ between, frame.isEndOfFragmentsStream = false) ∧
    content = first.payload ++
      (between.filter (·.isContinuesFragment)).flatMap (·.payload)

def Sized (frame : WebsocketsFrame) : Prop := frame.payload.length = frame.payloadLength.toNat

/-- `_recv` builds frames whose payload is as long as they say. -/
theorem sized_of_recvFrame {junk : Junk} {s s' : List (Arrival (BitVec 8))}
    {frame : WebsocketsFrame} (h : recvFrame junk s = some (frame, s')) : Sized frame := by
  obtain ⟨⟨payload, rest⟩, hdata, hframe⟩ := Option.map_eq_some_iff.mp h
  obtain ⟨-, hread⟩ := Option.ite_none_left_eq_some.mp hdata
  have hlength := Arrival.length_readAll hread
  cases hframe
  rw [Sized]
  dsimp only
  split
  · rw [remaskData, List.length_mapIdx, hlength]
  · exact hlength

theorem predicates_of_kind (frame : WebsocketsFrame) :
    frame.isBeginningOfFragmentsStream = (frame.kind matches .beginning) ∧
    frame.isContinuesFragment = (frame.kind matches .continues) ∧
    frame.isEndOfFragmentsStream = (frame.kind matches .ending) ∧
    frame.isNormalUnfragmentedMessage = (frame.kind matches .whole | .control) := by
  by_cases hcontrol : frame.kind = .control
  · obtain ⟨-, hnormal⟩ := WebsocketsEndpoint.isControlFrame_of_kind hcontrol
    rw [hcontrol]
    simp only [WebsocketsFrame.isNormalUnfragmentedMessage, Bool.and_eq_true, bne_iff_ne]
      at hnormal
    obtain ⟨hfin, hne⟩ := hnormal
    have hopcode : ¬ frame.opcode = 0#4 := hne
    simp [WebsocketsFrame.isBeginningOfFragmentsStream, WebsocketsFrame.isContinuesFragment,
      WebsocketsFrame.isEndOfFragmentsStream, WebsocketsFrame.isNormalUnfragmentedMessage, hfin,
      hopcode]
  · obtain ⟨-, hnormal, hbeginning, hcontinues, hending⟩ := WebsocketsEndpoint.kind_spec hcontrol
    rw [hnormal, hbeginning, hcontinues, hending]
    cases hkind : frame.kind <;> first | exact absurd hkind hcontrol | simp

/-- What one frame can do to the message in the making. -/
theorem step_eq_collecting {frame : WebsocketsFrame} {a : Assembly} {type : MessageType}
    {content : List (BitVec 8)} (hsized : Sized frame)
    (h : (a.step frame).1 = collecting type content) :
    (a = idle ∧ frame.isBeginningOfFragmentsStream = true ∧
      messageTypeFromOpcode frame.opcode = type ∧ content = frame.payload) ∨
    (frame.isEndOfFragmentsStream = false ∧ ∃ content', a = collecting type content' ∧
      content = content' ++ if frame.isContinuesFragment then frame.payload else []) := by
  obtain ⟨hbeginning, hcontinues, hending, -⟩ := predicates_of_kind frame
  rw [step] at h
  split at h
  · rename_i hempty
    simp only [WebsocketsFrame.isEmpty, Bool.and_eq_true, Bool.not_eq_true', beq_iff_eq] at hempty
    obtain ⟨⟨hfin, -⟩, hlength⟩ := hempty
    have hpayload : frame.payload = [] := by
      rw [Sized, hlength] at hsized
      exact List.length_eq_zero_iff.mp hsized
    refine .inr ⟨by simp [WebsocketsFrame.isEndOfFragmentsStream, hfin], content, h, ?_⟩
    rw [hpayload, ite_self, List.append_nil]
  · cases hkind : frame.kind <;> rw [hkind] at hbeginning hcontinues hending <;>
      simp only [accept, hkind] at h
    case control =>
      exact .inr ⟨hending, content, h, by rw [hcontinues]; exact (List.append_nil _).symm⟩
    case whole =>
      refine .inr ⟨hending, content, ?_, by rw [hcontinues]; exact (List.append_nil _).symm⟩
      cases a with
      | idle => cases h
      | collecting type content => exact h
      | spoilt mode => cases mode <;> cases h
    case beginning =>
      cases a with
      | idle =>
        change (if messageTypeFromOpcode frame.opcode = .empty then spoilt .streaming
          else collecting (messageTypeFromOpcode frame.opcode) frame.payload) = _ at h
        split at h
        · cases h
        · cases h
          exact .inl ⟨rfl, hbeginning, rfl, rfl⟩
      | collecting type content =>
        cases h
        exact .inr ⟨hending, _, rfl, by rw [hcontinues]; exact (List.append_nil _).symm⟩
      | spoilt mode => cases h
    case continues =>
      cases a with
      | idle => cases h
      | collecting type content =>
        cases h
        exact .inr ⟨hending, content, rfl, by rw [hcontinues]; rfl⟩
      | spoilt mode => cases h
    case ending =>
      cases a with
      | idle => cases h
      | collecting type content => cases h
      | spoilt mode => cases h

theorem gathered_after {frames : List WebsocketsFrame} (hsized : ∀ frame ∈ frames, Sized frame)
    {type : MessageType} {content : List (BitVec 8)}
    (h : idle.after frames = collecting type content) : Gathered frames type content := by
  induction frames using List.reverseRecOn generalizing type content with
  | nil => cases h
  | append_singleton frames frame ih =>
    obtain ⟨hframes, hframe⟩ := List.forall_mem_append.mp hsized
    rw [after_append] at h
    have hstep : ((idle.after frames).step frame).1 = collecting type content := h
    rcases step_eq_collecting (hframe frame List.mem_cons_self) hstep with
      ⟨-, hbeginning, htype, rfl⟩ | ⟨hending, content', hbefore, rfl⟩
    · refine ⟨frames, frame, [], rfl, hbeginning, htype, ?_, ?_⟩
      · intro f hmem
        cases hmem
      · rw [List.filter_nil, List.flatMap_nil, List.append_nil]
    · obtain ⟨before, first, between, rfl, hfirst, htype, hbetween, rfl⟩ := ih hframes hbefore
      refine ⟨before, first, between ++ [frame], ?_, hfirst, htype, ?_, ?_⟩
      · rw [List.append_assoc, List.cons_append]
      · intro f hmem
        rcases List.mem_append.mp hmem with hmem | hmem
        · exact hbetween f hmem
        · rwa [List.mem_singleton.mp hmem]
      · rw [List.filter_append, List.flatMap_append, List.append_assoc]
        congr 2
        cases hcontinues : frame.isContinuesFragment <;> simp [hcontinues]

/-- What is delivered at a frame. -/
theorem step_eq_deliver {frame : WebsocketsFrame} {a : Assembly} {msg : WebsocketsMessage}
    (h : (a.step frame).2 = .deliver msg) :
    (frame.isNormalUnfragmentedMessage = true ∧ msg = WebsocketsMessage.createFromFrame frame) ∨
    (frame.isEndOfFragmentsStream = true ∧ ∃ type content, a = collecting type content ∧
      msg = ⟨type, content ++ frame.payload, .complete⟩) := by
  obtain ⟨-, -, hending, hnormal⟩ := predicates_of_kind frame
  rw [step] at h
  split at h
  · cases h
  · cases hkind : frame.kind <;> rw [hkind] at hending hnormal <;> simp only [accept, hkind] at h
    case control =>
      cases h
      exact .inl ⟨hnormal, (WebsocketsEndpoint.createFromFrame_of_normal hnormal).symm⟩
    case whole =>
      refine .inl ⟨hnormal, ?_⟩
      rw [WebsocketsEndpoint.createFromFrame_of_normal hnormal]
      cases a with
      | idle => cases h; rfl
      | collecting type content => cases h
      | spoilt mode =>
        cases mode with
        | normal => cases h; rfl
        | streaming => cases h
    case beginning => cases a <;> cases h
    case continues => cases a <;> cases h
    case ending =>
      cases a with
      | idle => cases h
      | collecting type content =>
        cases h
        exact .inr ⟨hending, type, content, rfl, rfl⟩
      | spoilt mode => cases h

end Assembly

namespace WebsocketsEndpoint

def handleFrames : List WebsocketsFrame → WebsocketsEndpoint →
    Option (List WebsocketsMessage × WebsocketsEndpoint)
  | [], e => some ([], e)
  | frame :: frames, e => do
    let (msg, e) ← e.handleFrame frame
    let (msgs, e) ← handleFrames frames e
    return (msg :: msgs, e)

theorem handleFrames_of_represents {a : Assembly} {e : WebsocketsEndpoint}
    (hpolicy : e.fragmentsPolicy = .aggregate) (h : a.Represents e.recvMode e.streamBuilder)
    (frames : List WebsocketsFrame) :
    ∃ e', e.handleFrames frames = some ((a.reactions frames).map Reaction.message, e') := by
  induction frames generalizing a e with
  | nil => exact ⟨e, rfl⟩
  | cons frame frames ih =>
    obtain ⟨mode, b, hnext, hframe⟩ := handleFrame_of_represents hpolicy h frame
    rw [react_withReceiving] at hframe
    have hkept : ((e.react (a.step frame).2).withReceiving mode b).fragmentsPolicy = .aggregate :=
      (fragmentsPolicy_react _ e).trans hpolicy
    obtain ⟨e', hrest⟩ := ih hkept hnext
    refine ⟨e', ?_⟩
    rw [handleFrames, hframe]
    simp only [Option.bind_eq_bind, Option.bind_some, hrest]
    rfl

/-- A message is returned for a whole frame or at the end of fragments, and then it has the kind
of the first fragment and the payloads of all of them. -/
theorem handleFrames_assembled {frames : List WebsocketsFrame}
    (hsized : ∀ frame ∈ frames, Assembly.Sized frame) :
    ∃ msgs e, (new .aggregate).handleFrames frames = some (msgs, e) ∧
      msgs.length = frames.length ∧
      ∀ {before : List WebsocketsFrame} {frame : WebsocketsFrame} {rest : List WebsocketsFrame},
        frames = before ++ frame :: rest → ∀ msg, msgs[before.length]? = some msg →
        msg.isEmpty = true ∨
        (frame.isNormalUnfragmentedMessage = true ∧
          msg = WebsocketsMessage.createFromFrame frame) ∨
        (frame.isEndOfFragmentsStream = true ∧ msg.role = .complete ∧
          ∃ content, Assembly.Gathered before msg.type content ∧
            msg.data = content ++ frame.payload) := by
  obtain ⟨e, hrun⟩ := handleFrames_of_represents (e := new .aggregate) rfl .idle frames
  refine ⟨_, e, hrun, by rw [List.length_map, Assembly.length_reactions], ?_⟩
  intro before frame rest hframes msg hmsg
  have hreactions : Assembly.idle.reactions frames = Assembly.idle.reactions before ++
      ((Assembly.idle.after before).step frame).2 ::
        ((Assembly.idle.after before).step frame).1.reactions rest := by
    rw [hframes, Assembly.reactions_append]
    rfl
  have hindex : (Assembly.idle.reactions before).length = before.length :=
    Assembly.length_reactions before _
  rw [List.getElem?_map, hreactions, ← hindex, List.getElem?_append_right (Nat.le_refl _),
    Nat.sub_self, List.getElem?_cons_zero, Option.map_some, Option.some.injEq] at hmsg
  cases hreaction : ((Assembly.idle.after before).step frame).2 with
  | nothing => rw [← hmsg, hreaction]; exact .inl rfl
  | reject => rw [← hmsg, hreaction]; exact .inl rfl
  | deliver delivered =>
    obtain rfl : delivered = msg := by rw [← hmsg, hreaction]; rfl
    rcases Assembly.step_eq_deliver hreaction with hwhole | ⟨hending, type, content, hbefore, rfl⟩
    · exact .inr (.inl hwhole)
    · have hsizes : ∀ frame ∈ before, Assembly.Sized frame := fun f hmem =>
        hsized f (by rw [hframes]; exact List.mem_append_left _ hmem)
      exact .inr (.inr ⟨hending, rfl, content, Assembly.gathered_after hsizes hbefore, rfl⟩)

/-- A text in two fragments with a ping between them. -/
theorem handleFrames_assembled_example :
    let first : WebsocketsFrame := ⟨false, 1, false, fun _ => 0, 1, [0x61]⟩
    let ping : WebsocketsFrame := ⟨true, 9, false, fun _ => 0, 0, []⟩
    let last : WebsocketsFrame := ⟨true, 0, false, fun _ => 0, 1, [0x62]⟩
    ∃ msgs e, (new .aggregate).handleFrames [first, ping, last] = some (msgs, e) ∧
      msgs = [.nothing, ⟨.ping, [], .complete⟩, ⟨.text, [0x61, 0x62], .complete⟩] ∧
      ∃ content, Assembly.Gathered [first, ping] .text content ∧
        [0x61, 0x62] = content ++ last.payload := by
  intro first ping last
  have hsized : ∀ frame ∈ [first, ping, last], Assembly.Sized frame := by
    simp only [List.forall_mem_cons]
    exact ⟨rfl, rfl, rfl, List.forall_mem_nil _⟩
  obtain ⟨msgs, e, hrun, -, hassembled⟩ := handleFrames_assembled hsized
  have hmsgs : msgs = [.nothing, ⟨.ping, [], .complete⟩, ⟨.text, [0x61, 0x62], .complete⟩] :=
    (congrArg Prod.fst (Option.some_inj.mp hrun)).symm
  refine ⟨msgs, e, hrun, hmsgs, ?_⟩
  rcases @hassembled [first, ping] last [] rfl _ (by rw [hmsgs]; rfl) with
    hempty | ⟨hnormal, -⟩ | ⟨-, -, content, hgathered, hdata⟩
  · cases hempty
  · cases hnormal
  · exact ⟨content, hgathered, hdata⟩

end WebsocketsEndpoint

end Lucidac.Websockets
