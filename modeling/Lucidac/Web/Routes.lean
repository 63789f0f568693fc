import Lucidac.Web.Reply
import Lucidac.Utils.Base64Encode

/-!
# Routes

The middlewares of the web server in the order of their registration.  A request passes all that
fit, until one of them ends the response.
-/

namespace Lucidac.Web

open Base64 (bytesOf)

section Router

/-- A character of a text that ends with zero. -/
def charAt (s : List (BitVec 8)) (i : Nat) : BitVec 8 := s.getD i 0

/-- The number of characters up to the next slash. -/
def segment (s : List (BitVec 8)) (i : Nat) : Nat := ((s.drop i).takeWhile (· ≠ 47)).length

/-- The loop of `m_routeMatch`: whether the last step was a match, and both positions. -/
def routeLoop (route pattern : List (BitVec 8)) : Nat → Nat → Nat → Bool → Bool × Nat × Nat
  | 0, i, j, matches' => (matches', i, j)
  | fuel + 1, i, j, matches' =>
    if charAt pattern i = 0 ∨ charAt route j = 0 then (matches', i, j)
    else if charAt pattern i = 58 then
      routeLoop route pattern fuel (i + segment pattern i) (j + segment route j) true
    else if charAt pattern i = charAt route j then routeLoop route pattern fuel (i + 1) (j + 1) true
    else (false, i, j)

def routeMatch (route pattern : List (BitVec 8)) : Bool :=
  if charAt pattern 0 = 0 ∧ charAt route 0 = 0 then true
  else
    let (matches', i, j) := routeLoop route pattern (pattern.length + route.length) 0 0 false
    if matches' ∧ charAt pattern i = 0 ∧ charAt route j = 47 ∧ charAt route i = 0 then true
    else if charAt pattern i ≠ 0 ∨ charAt route j ≠ 0 then false
    else matches'

/-- What a middleware asks of the response, and whether the connection becomes a websocket. -/
abbrev Middleware := Request → Reader → Response → List Call × Bool

/-- A middleware for one method, and for one pattern or for all paths. -/
structure Route where
  type : MethodType
  path : Option (List (BitVec 8))
  middleware : Middleware

def Route.fits (route : Route) (req : Request) : Bool :=
  route.type = req.method && route.path.all (routeMatch req.path ·)

/-- `m_dispatchMiddleware` -/
def dispatch (req : Request) (r : Reader) : List Route → Response × Bool → Response × Bool
  | [], state => state
  | route :: routes, (res, convert) =>
    if res.ended then (res, convert)
    else if route.fits req then
      let (calls, converts) := route.middleware req r res
      dispatch req r routes (calls.foldl Response.perform res, convert || converts)
    else dispatch req r routes (res, convert)

end Router

section Handlers

/-- A file with the headers it was generated with, which leave the connection alone. -/
structure StaticFile where
  filename : List (BitVec 8)
  content : List (BitVec 8)
  headers : List (List (BitVec 8) × List (BitVec 8))
  connection : ∀ header ∈ headers, sameName header.1 (bytesOf "Connection") = false

/-- What became of the content that was posted. -/
inductive ApiAnswer where
  | emptyInput
  | malformed
  | answered (text : List (BitVec 8))

/-- What the web server finds in the rest of the firmware.  What it tells about itself is an object in
JSON and so it is not empty. -/
structure Site where
  firmwareVersion : List (BitVec 8)
  accessControlAllowOrigin : List (BitVec 8)
  enableWebsockets : Bool
  maxConnections : Nat
  attic : List StaticFile
  about : List (BitVec 8)
  about_ne : about ≠ []
  handleMessage : List (BitVec 8) → ApiAnswer
  sha1 : List (BitVec 8) → Fin 20 → BitVec 8

namespace Site

variable (site : Site)

def serverVersion : List (BitVec 8) := bytesOf "LucidacWebServer/" ++ site.firmwareVersion

def println (text : List (BitVec 8)) : Call := .print (text ++ crlf)

def getByFilename (filename : List (BitVec 8)) : Option StaticFile :=
  site.attic.find? (·.filename = filename)

def notfound (req : Request) : List Call :=
  [.status 404, .set (bytesOf "Server") site.serverVersion,
    .set (bytesOf "Content-Type") (bytesOf "text/html"),
    println (bytesOf "<h1>Not found</h1><p>The ressource:<pre>"), println req.path,
    println (bytesOf "</pre><p>was not found on this server."),
    println (bytesOf "<hr><p><i>" ++ site.serverVersion ++ bytesOf "</i>")]

def serveFile (file : StaticFile) : List Call :=
  .status 200 :: (file.headers.map fun header => .set header.1 header.2) ++
    (if file.content = [] then [] else [.write file.content]) ++ [.flush]

/-- Handles the request only if nothing has been sent so far.  The name is the text from the second
character of the buffer on, also behind a path that is empty. -/
def serveStatic : Middleware := fun req _ res =>
  if res.bytesSent ≠ 0 ∨ res.ended = true then ([], false)
  else
    let pathWithoutLeadingSlash := (req.buffer.drop 1).takeWhile (· ≠ 0)
    match site.getByFilename pathWithoutLeadingSlash with
    | some file => (serveFile file ++ [.stop], false)
    | none => (site.notfound req, false)

def welcome : List (BitVec 8) :=
  bytesOf "<h1>LUCIDAC: Welcome</h1>" ++
  bytesOf "<p>Your LUCIDAC can reply to messages on the web via an elevated JSONL API endpoint. " ++
  bytesOf "However. the Single Page Application (SPA) static files have not been installed on the firmware. " ++
  bytesOf "This means you cannot use the beautiful and easy web interface straight out of the way. However, " ++
  bytesOf "you can still use it if you have sufficiently permissive CORS settings active and use a public " ++
  bytesOf "hosted version of the LUCIDAC GUI (SPA)." ++
  bytesOf "<hr><p><i>" ++ site.serverVersion ++ bytesOf "</i>"

def index : Middleware := fun _ _ _ =>
  match site.getByFilename (bytesOf "index.html") with
  | some file => (.status 200 :: serveFile file, false)
  | none =>
    ([.status 501, .set (bytesOf "Content-Type") (bytesOf "text/html"), println site.welcome], false)

def setCors : List Call :=
  [.set (bytesOf "Server") site.serverVersion,
    .set (bytesOf "Content-Type") (bytesOf "application/json"),
    .set (bytesOf "Access-Control-Allow-Origin") site.accessControlAllowOrigin,
    .set (bytesOf "Access-Control-Allow-Credentials") (bytesOf "true"),
    .set (bytesOf "Access-Control-Allow-Methods") (bytesOf "POST, GET, OPTIONS"),
    .set (bytesOf "Access-Control-Allow-Headers")
      (bytesOf "Origin, Cookie, Set-Cookie, Content-Type, Server")]

def apiPreflight : Middleware := fun _ _ _ => (.status 200 :: site.setCors, false)

def api : Middleware := fun req r _ =>
  match site.handleMessage (content req.headers.left r).1 with
  | .emptyInput =>
    (site.setCors ++ [.status 400, println (bytesOf
      "\x7b'type':'error', 'msg':'Empty input. Expecting a Lucidac query in JSON fomat'\x7d")], false)
  | .malformed =>
    (site.setCors ++ [.status 400,
      println (bytesOf "\x7b'type':'error', 'msg': 'Error parsing JSON'\x7d")], false)
  | .answered text => (site.setCors ++ [.status 200, .print text], false)

def aboutStatic : Middleware := fun _ _ _ =>
  ([.set (bytesOf "Server") site.serverVersion,
    .set (bytesOf "Content-Type") (bytesOf "application/json"), .print site.about], false)

end Site

/-- The text in the buffer of the first header with this name. -/
def Request.get (req : Request) (name : List (BitVec 8)) : Option (List (BitVec 8)) :=
  (req.headers.nodes.find? (sameName ·.name name)).map (·.value)

/-- `strstr` finds the needle. -/
def containsText : List (BitVec 8) → List (BitVec 8) → Bool
  | [], needle => needle.isEmpty
  | c :: haystack, needle => needle.isPrefixOf (c :: haystack) || containsText haystack needle

/-- What does not fit to an upgrade.  A header that is not registered would be missing; all that are
asked for are registered. -/
def upgradeErrors (req : Request) : List (List (BitVec 8)) :=
  let text (name : String) := (req.get (bytesOf name)).getD []
  let missing (name : String) := (req.get (bytesOf name)).isNone
  (if missing "Connection" then [bytesOf "Missing 'Connection' header"] else []) ++
  (if containsText (text "Connection") (bytesOf "Upgrade") then []
    else [bytesOf "Connection header contains not 'Upgrade'"]) ++
  (if missing "Upgrade" then [bytesOf "Missing 'Upgrade' header"] else []) ++
  (if text "Upgrade" = bytesOf "websocket" then []
    else [bytesOf "Upgrade header is not 'websocket'"]) ++
  (if missing "Sec-WebSocket-Version" then [bytesOf "Missing Sec-Websocket-Version"] else []) ++
  (if text "Sec-WebSocket-Version" = bytesOf "13" then []
    else [bytesOf "Only Sec-Websocket-Version=13 supported"]) ++
  (if missing "Sec-WebSocket-Key" then [bytesOf "Missing Sec-Websocket-Key"] else [])

namespace Site

variable (site : Site)

def websocketsHandshakeEncodeKey (key : List (BitVec 8)) : List (BitVec 8) :=
  Base64.encode (List.ofFn (site.sha1 (key ++ bytesOf "258EAFA5-E914-47DA-95CA-C5AB0DC85B11"))) 30

def websocketUpgrade (clients : Nat) : Middleware := fun req _ _ =>
  let server : Call := .set (bytesOf "Server") site.serverVersion
  let plain : Call := .set (bytesOf "Content-Type") (bytesOf "text/plain")
  if upgradeErrors req ≠ [] then
    (server :: .status 400 :: plain :: println (bytesOf "This URL is only for Websocket Upgrade.") ::
      (upgradeErrors req).map (fun msg => println (bytesOf "Error: " ++ msg)), false)
  else if clients = site.maxConnections then
    ([server, .status 500, plain,
      println (bytesOf "Maximum number of concurrent websocket connections reached")], false)
  else
    ([server, .set (bytesOf "Connection") (bytesOf "Upgrade"),
      .set (bytesOf "Upgrade") (bytesOf "websocket"),
      .set (bytesOf "Sec-WebSocket-Version") (bytesOf "13"),
      .set (bytesOf "Sec-Websocket-Accept")
        (site.websocketsHandshakeEncodeKey ((req.get (bytesOf "Sec-WebSocket-Key")).getD [])),
      .status 101, .flush, .stop], true)

def fixedRoutes (clients : Nat) : List Route :=
  [⟨.get, some (bytesOf "/"), site.index⟩,
    ⟨.get, some (bytesOf "/api"), site.api⟩,
    ⟨.post, some (bytesOf "/api"), site.api⟩,
    ⟨.options, some (bytesOf "/api"), site.apiPreflight⟩] ++
  (if site.enableWebsockets then
    [⟨.get, some (bytesOf "/websocket"), site.websocketUpgrade clients⟩,
      ⟨.options, some (bytesOf "/websocket"), site.apiPreflight⟩]
  else []) ++
  [⟨.get, some (bytesOf "/webserver-status"), site.aboutStatic⟩]

/-- As `begin` registers them. -/
def routes (clients : Nat) : List Route :=
  site.fixedRoutes clients ++ [⟨.get, none, site.serveStatic⟩]

end Site

/-- The headers whose values are kept. -/
def interestingHeaders : List HeaderNode :=
  ["Host", "Origin", "Connection", "Upgrade", "Sec-WebSocket-Version", "Sec-Websocket-Key"].map
    fun name => ⟨bytesOf name, [], 80⟩

/-- `process` and the middlewares: what was sent, and what is left to read when the connection
became a websocket. -/
def Site.serve (site : Site) (clients : Nat) (stale : List (BitVec 8)) (input : List (Option (BitVec 8))) :
    List (BitVec 8) × Option Reader :=
  match process interestingHeaders stale ⟨[], input, false⟩ with
  | (.error code, _) => ((Response.new.sendStatus code).flushBuf.stream, none)
  | (.ok req, r) =>
    let (res, convert) := dispatch req r (site.routes clients) (.new, false)
    (res.conclude.stream, if convert then some r else none)

end Handlers

section Matching

theorem charAt_append_length (before : List (BitVec 8)) (c : BitVec 8) (s : List (BitVec 8)) :
    charAt (before ++ c :: s) before.length = c := by
  simp [charAt]

theorem charAt_length (s : List (BitVec 8)) : charAt s s.length = 0 := by
  simp [charAt]

/-- At the end of the pattern. -/
theorem charAt_of_nil {before s : List (BitVec 8)} (hs : 0 ∉ s) (sofar : Bool) :
    if s = [] then
      sofar = (sofar || !([] : List (BitVec 8)).isEmpty) ∧
        charAt (before ++ []) before.length = 0
    else charAt (before ++ []) before.length ≠ 0 ∨ charAt (before ++ s) before.length ≠ 0 := by
  cases s with
  | nil => simp [charAt_length]
  | cons a s =>
    rw [List.mem_cons, not_or] at hs
    rw [if_neg (List.cons_ne_nil a s), charAt_append_length]
    exact .inr (Ne.symm hs.1)

/-- Both texts were the same so far. -/
theorem routeLoop_eq {before s t : List (BitVec 8)} (hs : 0 ∉ s) (ht : 0 ∉ t) (hcolon : 58 ∉ t)
    {fuel : Nat} (hfuel : t.length ≤ fuel) (sofar : Bool) : ∃ last i,
    routeLoop (before ++ s) (before ++ t) fuel before.length before.length sofar = (last, i, i) ∧
      (if s = t then last = (sofar || !t.isEmpty) ∧ charAt (before ++ t) i = 0
        else charAt (before ++ t) i ≠ 0 ∨ charAt (before ++ s) i ≠ 0) := by
  induction fuel generalizing before s t sofar with
  | zero =>
    obtain rfl : t = [] := List.eq_nil_of_length_eq_zero (Nat.le_zero.mp hfuel)
    exact ⟨sofar, before.length, rfl, charAt_of_nil hs sofar⟩
  | succ fuel ih =>
    cases t with
    | nil =>
      refine ⟨sofar, before.length, ?_, charAt_of_nil hs sofar⟩
      rw [routeLoop, if_pos (.inl (by rw [List.append_nil, charAt_length]))]
    | cons b t =>
      rw [List.mem_cons, not_or] at ht hcolon
      cases s with
      | nil =>
        refine ⟨sofar, before.length, ?_, ?_⟩
        · rw [routeLoop, if_pos (.inr (by rw [List.append_nil, charAt_length]))]
        · rw [if_neg (List.cons_ne_nil b t).symm, charAt_append_length]
          exact .inl (Ne.symm ht.1)
      | cons a s =>
        rw [List.mem_cons, not_or] at hs
        rw [routeLoop, charAt_append_length, charAt_append_length,
          if_neg (not_or.mpr ⟨Ne.symm ht.1, Ne.symm hs.1⟩), if_neg (Ne.symm hcolon.1)]
        by_cases hab : b = a
        · subst hab
          obtain ⟨last, i, heq, hlast⟩ := @ih (before ++ [b]) _ _ hs.2 ht.2 hcolon.2
            (Nat.le_of_succ_le_succ hfuel) true
          rw [List.append_assoc, List.append_assoc, List.length_append] at heq
          rw [List.append_assoc, List.append_assoc] at hlast
          rw [if_pos rfl]
          refine ⟨last, i, heq, ?_⟩
          simpa only [List.cons.injEq, true_and, List.isEmpty_cons, Bool.not_false, Bool.or_true,
            Bool.true_or, List.singleton_append] using hlast
        · rw [if_neg hab]
          refine ⟨false, before.length, rfl, ?_⟩
          rw [if_neg fun h => hab (List.cons.inj h).1.symm, charAt_append_length]
          exact .inl (Ne.symm ht.1)

/-- Patterns without a colon stand for themselves. -/
theorem routeMatch_eq {route pattern : List (BitVec 8)} (hroute : 0 ∉ route)
    (hpattern : 0 ∉ pattern) (hcolon : 58 ∉ pattern) :
    routeMatch route pattern = decide (route = pattern) := by
  obtain ⟨last, i, heq, hlast⟩ := @routeLoop_eq [] route pattern hroute hpattern hcolon
    (pattern.length + route.length) (Nat.le_add_right _ _) false
  rw [List.nil_append, List.nil_append, List.length_nil] at heq
  rw [List.nil_append, List.nil_append] at hlast
  rw [routeMatch, heq]
  by_cases hsame : route = pattern
  · rw [if_pos hsame] at hlast
    subst hsame
    cases route with
    | nil => rw [if_pos ⟨rfl, rfl⟩, decide_eq_true rfl]
    | cons c route =>
      rw [if_neg fun h => hroute (by rw [show (0 : BitVec 8) = c from h.1.symm]; exact List.mem_cons_self)]
      simp [hlast]
  · rw [if_neg hsame] at hlast
    rw [decide_eq_false hsame, if_neg]
    · dsimp only
      rw [if_neg fun h => absurd (h.2.2.1.symm.trans h.2.2.2) (by decide), if_pos hlast]
    · intro h
      have hempty : ∀ s : List (BitVec 8), 0 ∉ s → charAt s 0 = 0 → s = [] := by
        intro s hs hzero
        cases s with
        | nil => rfl
        | cons c s => exact absurd (show c = 0 from hzero) fun hc => hs (hc ▸ List.mem_cons_self)
      exact hsame ((hempty route hroute h.2).trans (hempty pattern hpattern h.1).symm)

end Matching

end Lucidac.Web
