import Lucidac.Websockets.Assembly
import Lucidac.Websockets.Delivery

/-!
# Sessions

What a client does with the traffic of its peer, from the bytes of the stream to the calls of its
callbacks and of its socket.
-/

namespace Lucidac.Websockets

open Framework
open Framework.Arrival (Carries weight)

namespace WebsocketsEndpoint

variable {mode : RecvMode} {b : StreamBuilder} {e : WebsocketsEndpoint}

theorem react_withReceiving (r : Reaction) :
    (e.withReceiving mode b).react r = (e.react r).withReceiving mode b := by
  cases r with
  | nothing => rfl
  | deliver msg => exact handleMessageInternally_withReceiving msg
  | reject => exact close_withReceiving .protocolError

@[simp] theorem fragmentsPolicy_close (reason : CloseReason) (e : WebsocketsEndpoint) :
    (e.close reason).fragmentsPolicy = e.fragmentsPolicy := by
  rw [close]
  split
  · rfl
  · rfl

@[simp] theorem fragmentsPolicy_react (r : Reaction) (e : WebsocketsEndpoint) :
    (e.react r).fragmentsPolicy = e.fragmentsPolicy := by
  cases r with
  | nothing => rfl
  | reject => exact fragmentsPolicy_close _ e
  | deliver msg =>
    rw [react, handleMessageInternally]
    split
    · rw [pong]
      split
      · rfl
      · rfl
    · split
      · exact fragmentsPolicy_close _ e
      · exact fragmentsPolicy_close _ e
    · rfl

end WebsocketsEndpoint

namespace WebsocketsClient

variable {σ : Type} {callback : MessageCallback σ}

/-- The client with another message in the making. -/
def withReceiving (mode : RecvMode) (b : StreamBuilder) (p : σ × WebsocketsClient) :
    σ × WebsocketsClient :=
  (p.1, { p.2 with endpoint := p.2.endpoint.withReceiving mode b })

/-- A callback that has nothing to do with the message in the making. -/
structure Oblivious (callback : MessageCallback σ) : Prop where
  withReceiving : ∀ msg mode b p,
    callback msg (withReceiving mode b p) = WebsocketsClient.withReceiving mode b (callback msg p)
  fragmentsPolicy : ∀ msg p,
    (callback msg p).2.endpoint.fragmentsPolicy = p.2.endpoint.fragmentsPolicy

def perform (callback : MessageCallback σ) (r : Reaction) (p : σ × WebsocketsClient) :
    σ × WebsocketsClient :=
  dispatch callback r.message (p.1, { p.2 with endpoint := p.2.endpoint.react r })

/-- Reactions one after the other, until the connection is closed or the socket stopped. -/
def performAll (callback : MessageCallback σ) :
    List Reaction → σ × WebsocketsClient → σ × WebsocketsClient
  | [], p => p
  | r :: rs, p => if p.2.listening then performAll callback rs (perform callback r p) else p

theorem performAll_deaf {rs : List Reaction} {p : σ × WebsocketsClient}
    (hp : p.2.listening = false) : performAll callback rs p = p := by
  cases rs with
  | nil => rfl
  | cons r rs => rw [performAll, hp, if_neg Bool.false_ne_true]

theorem performAll_nothing (rs : List Reaction) (p : σ × WebsocketsClient) :
    performAll callback (.nothing :: rs) p = performAll callback rs p := by
  rw [performAll]
  split
  · rfl
  · rename_i hclosed
    exact (performAll_deaf (Bool.eq_false_iff.mpr hclosed)).symm

theorem performAll_cons_congr {r : Reaction} {rs rs' : List Reaction}
    (h : ∀ p, performAll callback rs p = performAll callback rs' p) (p : σ × WebsocketsClient) :
    performAll callback (r :: rs) p = performAll callback (r :: rs') p := by
  rw [performAll, performAll, h]

section Oblivious

variable (h : Oblivious callback) (mode : RecvMode) (b : StreamBuilder)
include h

theorem dispatch_withReceiving (msg : WebsocketsMessage) (p : σ × WebsocketsClient) :
    dispatch callback msg (withReceiving mode b p) =
      withReceiving mode b (dispatch callback msg p) := by
  obtain ⟨state, c⟩ := p
  have hcallback := h.withReceiving msg mode b (state, c.emit (.message msg))
  simp only [dispatch, withReceiving] at hcallback ⊢
  split_ifs <;> first | rfl | exact hcallback

theorem fragmentsPolicy_dispatch (msg : WebsocketsMessage) (p : σ × WebsocketsClient) :
    (dispatch callback msg p).2.endpoint.fragmentsPolicy = p.2.endpoint.fragmentsPolicy := by
  obtain ⟨state, c⟩ := p
  have hcallback := h.fragmentsPolicy msg (state, c.emit (.message msg))
  simp only [dispatch]
  split_ifs <;> first | rfl | exact hcallback

theorem perform_withReceiving (r : Reaction) (p : σ × WebsocketsClient) :
    perform callback r (withReceiving mode b p) = withReceiving mode b (perform callback r p) := by
  have hreact : (p.2.endpoint.withReceiving mode b).react r =
      (p.2.endpoint.react r).withReceiving mode b := WebsocketsEndpoint.react_withReceiving r
  rw [perform, perform, ← dispatch_withReceiving h]
  simp only [withReceiving, hreact]

theorem performAll_withReceiving (rs : List Reaction) (p : σ × WebsocketsClient) :
    performAll callback rs (withReceiving mode b p) =
      withReceiving mode b (performAll callback rs p) := by
  induction rs generalizing p with
  | nil => rfl
  | cons r rs ih =>
    rw [performAll, performAll]
    have hlistening : (withReceiving mode b p).2.listening = p.2.listening := rfl
    rw [hlistening]
    split
    · rw [perform_withReceiving h, ih]
    · rfl

end Oblivious

/-- The client does with the frames of its peer what the assembly of messages asks for. -/
theorem handleFrames_of_represents (h : Oblivious callback) {a : Assembly}
    (frames : List WebsocketsFrame) {p : σ × WebsocketsClient}
    (hpolicy : p.2.endpoint.fragmentsPolicy = .aggregate)
    (ha : a.Represents p.2.endpoint.recvMode p.2.endpoint.streamBuilder) :
    ∃ mode b, handleFrames callback frames p =
      .ok (withReceiving mode b (performAll callback (a.reactions frames) p)) := by
  induction frames generalizing a p with
  | nil => exact ⟨p.2.endpoint.recvMode, p.2.endpoint.streamBuilder, rfl⟩
  | cons frame frames ih =>
    rw [handleFrames, Assembly.reactions, performAll]
    split
    · obtain ⟨mode, b, hnext, hframe⟩ :=
        WebsocketsEndpoint.handleFrame_of_represents hpolicy ha frame
      have hstep : handleFrame callback frame p =
          .ok (withReceiving mode b (perform callback (a.step frame).2 p)) := by
        rw [← perform_withReceiving h]
        simp only [handleFrame, hframe]
        rfl
      have hkept : (perform callback (a.step frame).2 p).2.endpoint.fragmentsPolicy =
          .aggregate := by
        rw [perform, fragmentsPolicy_dispatch h]
        exact (WebsocketsEndpoint.fragmentsPolicy_react _ _).trans hpolicy
      obtain ⟨mode', b', hrest⟩ := ih (p := withReceiving mode b (perform callback _ p)) hkept hnext
      refine ⟨mode', b', ?_⟩
      rw [hstep, performAll_withReceiving h] at *
      exact hrest
    · exact ⟨p.2.endpoint.recvMode, p.2.endpoint.streamBuilder, rfl⟩

/-- From the bytes of the peer, in whatever pieces they arrive, to the reactions. -/
theorem pollRounds_session (h : Oblivious callback) (j : Junk) {junk : Nat → Junk}
    {frames : List PeerFrame} {s : List (Arrival (BitVec 8))}
    (hs : Carries (frames.flatMap PeerFrame.atoms) s) {rounds : Nat} (hrounds : weight s ≤ rounds)
    {p : σ × WebsocketsClient} (hpolicy : p.2.endpoint.fragmentsPolicy = .aggregate)
    (hp : Assembly.idle.Represents p.2.endpoint.recvMode p.2.endpoint.streamBuilder) :
    ∃ mode b, pollRounds junk callback rounds p s =
      .ok (withReceiving mode b
        (performAll callback (Assembly.idle.reactions (frames.map (·.received j))) p)) := by
  rw [pollRounds_eq j hs hrounds]
  exact handleFrames_of_represents h _ hpolicy hp

end WebsocketsClient

end Lucidac.Websockets
