import Lucidac.Websockets.Endpoint

/-!
# The client of a websocket

`WebsocketsClient` takes messages from its endpoint as long as data are there, and hands them to
the callbacks.
-/

namespace Lucidac.Websockets

open Framework

inductive SendMode where
  | normal | streaming
deriving DecidableEq

/-- The calls of the callbacks. -/
inductive Event where
  | message (msg : WebsocketsMessage)
  | gotPing (data : List (BitVec 8))
  | gotPong (data : List (BitVec 8))
  | connectionClosed (data : List (BitVec 8))
deriving DecidableEq

structure WebsocketsClient where
  endpoint : WebsocketsEndpoint
  connectionOpen : Bool
  sendMode : SendMode
  events : List Event

namespace WebsocketsClient

/-- A client of a socket that is there. -/
def new : WebsocketsClient := ⟨.new .aggregate, true, .normal, []⟩

def available (c : WebsocketsClient) : Bool := c.connectionOpen

def setUseMasking (useMasking : Bool) (c : WebsocketsClient) : WebsocketsClient :=
  { c with endpoint := { c.endpoint with useMasking := useMasking } }

section Sending

def send (data : List (BitVec 8)) (c : WebsocketsClient) : WebsocketsClient :=
  if c.available then
    match c.sendMode with
    | .normal => { c with endpoint := c.endpoint.send data .text true }
    | .streaming => { c with endpoint := c.endpoint.send data .continuation false }
  else c

def sendBinary (data : List (BitVec 8)) (c : WebsocketsClient) : WebsocketsClient :=
  if c.available then
    match c.sendMode with
    | .normal => { c with endpoint := c.endpoint.send data .binary true }
    | .streaming => { c with endpoint := c.endpoint.send data .continuation false }
  else c

def stream (data : List (BitVec 8)) (c : WebsocketsClient) : WebsocketsClient :=
  if c.available ∧ c.sendMode = .normal then
    { c with sendMode := .streaming, endpoint := c.endpoint.send data .text false }
  else c

def streamBinary (data : List (BitVec 8)) (c : WebsocketsClient) : WebsocketsClient :=
  if c.available ∧ c.sendMode = .normal then
    { c with sendMode := .streaming, endpoint := c.endpoint.send data .binary false }
  else c

/-- `end`. -/
def finish (data : List (BitVec 8)) (c : WebsocketsClient) : WebsocketsClient :=
  if c.available ∧ c.sendMode = .streaming then
    { c with sendMode := .normal, endpoint := c.endpoint.send data .continuation true }
  else c

def ping (data : List (BitVec 8)) (c : WebsocketsClient) : WebsocketsClient :=
  if c.available then { c with endpoint := c.endpoint.ping data } else c

def pong (data : List (BitVec 8)) (c : WebsocketsClient) : WebsocketsClient :=
  if c.available then { c with endpoint := c.endpoint.pong data } else c

def close (reason : CloseReason) (c : WebsocketsClient) : WebsocketsClient :=
  if c.available then
    { c with
      connectionOpen := false
      endpoint := c.endpoint.close reason
      events := c.events ++ [.connectionClosed []] }
  else c

end Sending

section Polling

/-- What the message callback makes of its own state and of the client. -/
abbrev MessageCallback (σ : Type) := WebsocketsMessage → σ × WebsocketsClient → σ × WebsocketsClient

variable {σ : Type}

def emit (event : Event) (c : WebsocketsClient) : WebsocketsClient :=
  { c with events := c.events ++ [event] }

/-- What `poll` does with the message that it got. -/
def dispatch (callback : MessageCallback σ) (msg : WebsocketsMessage) :
    σ × WebsocketsClient → σ × WebsocketsClient
  | (state, c) =>
    if msg.isEmpty then (state, c)
    else if msg.type = .binary ∨ msg.type = .text then
      callback msg (state, c.emit (.message msg))
    else if msg.role = .continuation then callback msg (state, c.emit (.message msg))
    else if msg.type = .ping then (state, c.emit (.gotPing msg.data))
    else if msg.type = .pong then (state, c.emit (.gotPong msg.data))
    else if msg.type = .close then
      (state, { c with connectionOpen := false }.emit (.connectionClosed msg.data))
    else (state, c)

def ready : List (Arrival (BitVec 8)) → Bool
  | .data (_ :: _) :: _ => true
  | _ => false

theorem exists_of_ready {s : List (Arrival (BitVec 8))} (h : ready s = true) :
    ∃ byte bytes s0, s = .data (byte :: bytes) :: s0 := by
  cases s with
  | nil => cases h
  | cons arrival s0 =>
    cases arrival with
    | failed => cases h
    | data bytes =>
      cases bytes with
      | nil => cases h
      | cons byte bytes => exact ⟨byte, bytes, s0, rfl⟩

/-- `TcpClient::poll`. -/
def hasData (c : WebsocketsClient) (s : List (Arrival (BitVec 8))) : Bool :=
  !c.endpoint.stopped && ready s

/-- The loop of `poll` goes on as soon as there are data. -/
def listening (c : WebsocketsClient) : Bool := c.available && !c.endpoint.stopped

inductive Stuck where
  /-- The rest of a frame does not come, or there is no room for it. -/
  | waits
  /-- A field is read that was not written. -/
  | uninitialised
deriving DecidableEq

def handleFrame (callback : MessageCallback σ) (frame : WebsocketsFrame) :
    σ × WebsocketsClient → Except Stuck (σ × WebsocketsClient)
  | (state, c) =>
    match c.endpoint.handleFrame frame with
    | none => .error .uninitialised
    | some (msg, endpoint) => .ok (dispatch callback msg (state, { c with endpoint := endpoint }))

/-- The loop of `poll`; every round takes something from the socket. -/
def pollLoop (junk : Nat → Junk) (callback : MessageCallback σ) :
    Nat → σ × WebsocketsClient → List (Arrival (BitVec 8)) →
      Except Stuck ((σ × WebsocketsClient) × List (Arrival (BitVec 8)))
  | 0, p, s => .ok (p, s)
  | fuel + 1, p, s =>
    if p.2.available && p.2.hasData s then
      match recvFrame (junk fuel) s with
      | none => .error .waits
      | some (frame, s) => do pollLoop junk callback fuel (← handleFrame callback frame p) s
    else .ok (p, s)

def poll (junk : Nat → Junk) (callback : MessageCallback σ) (p : σ × WebsocketsClient)
    (s : List (Arrival (BitVec 8))) :
    Except Stuck ((σ × WebsocketsClient) × List (Arrival (BitVec 8))) :=
  pollLoop junk callback (Arrival.weight s) p s

/-- Time passes until the next poll. -/
def tick : List (Arrival (BitVec 8)) → List (Arrival (BitVec 8))
  | .failed :: s => s
  | .data [] :: s => s
  | s => s

/-- Polls one after the other, as the main loop makes them. -/
def pollRounds (junk : Nat → Junk) (callback : MessageCallback σ) :
    Nat → σ × WebsocketsClient → List (Arrival (BitVec 8)) → Except Stuck (σ × WebsocketsClient)
  | 0, p, _ => .ok p
  | rounds + 1, p, s => do
    let (p, s) ← poll junk callback p s
    pollRounds junk callback rounds p (tick s)

/-- Frames handled one after the other, until the connection is closed or the socket stopped. -/
def handleFrames (callback : MessageCallback σ) :
    List WebsocketsFrame → σ × WebsocketsClient → Except Stuck (σ × WebsocketsClient)
  | [], p => .ok p
  | frame :: frames, p =>
    if p.2.listening then do handleFrames callback frames (← handleFrame callback frame p)
    else .ok p

end Polling

end WebsocketsClient

end Lucidac.Websockets
