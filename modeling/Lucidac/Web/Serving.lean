import Lucidac.Web.Routes
import Lucidac.Web.RequestText
import Mathlib.Data.List.Find

/-!
# Requests and their answers

Each request is answered by one middleware, which follows from the method and the path.
-/

namespace Lucidac.Web

open Base64 (bytesOf)

section Started

/-- The status line was sent. -/
def Reply.Started : Reply → Prop
  | .head none _ => False
  | .head (some _) _ => True
  | .body _ _ _ => True

theorem Reply.Started.text_ne_nil {reply : Reply} (h : reply.Started) : reply.text ≠ [] := by
  have hline : ∀ code, statusLine code ≠ [] := by
    intro code hempty
    simp [statusLine, crlf] at hempty
  cases reply with
  | head status headers =>
    cases status with
    | none => exact h.elim
    | some code => exact hline code
  | body code headers content => simp [Reply.text, hline]

theorem Reply.started_complete (reply : Reply) (text : List (BitVec 8)) :
    (reply.complete.add text).Started := by
  cases reply <;> trivial

theorem Reply.Started.perform {reply : Reply} (h : reply.Started) (call : Call) :
    (reply.perform call).Started := by
  match reply with
  | .head none headers => exact h.elim
  | .head (some code) headers =>
    cases call with
    | print text =>
      rw [Reply.perform]
      split
      · trivial
      · exact Reply.started_complete _ text
    | set | status | write | flush | stop => trivial
  | .body code headers content =>
    cases call with
    | print text =>
      rw [Reply.perform]
      split <;> trivial
    | set | status | write | flush | stop => trivial

/-- The call sends something, if nothing was sent before. -/
def Call.starts : Call → Bool
  | .status _ => true
  | .print text => text ≠ []
  | .write _ => true
  | _ => false

theorem Call.started_perform {call : Call} (h : call.starts = true) (reply : Reply) :
    (reply.perform call).Started := by
  cases call with
  | status code =>
    match reply with
    | .head none headers => trivial
    | .head (some code) headers => trivial
    | .body code headers content => trivial
  | print text =>
    rw [Reply.perform, if_neg (of_decide_eq_true h)]
    exact reply.started_complete text
  | write bytes => exact reply.started_complete bytes
  | set | flush | stop => cases h

theorem Reply.started_performAll {calls : List Call} (reply : Reply)
    (h : reply.Started ∨ calls.any Call.starts = true) :
    (calls.foldl Reply.perform reply).Started := by
  induction calls generalizing reply with
  | nil => exact h.resolve_right Bool.false_ne_true
  | cons call calls ih =>
    rw [List.any_cons, Bool.or_eq_true] at h
    rw [List.foldl_cons]
    rcases h with h | h | h
    · exact ih _ (.inl (h.perform call))
    · exact ih _ (.inl (Call.started_perform h reply))
    · exact ih _ (.inr h)

/-- A response that an earlier middleware has taken care of. -/
def Response.Settled (res : Response) : Prop := res.bytesSent ≠ 0 ∨ res.ended = true

theorem Response.settled_of_starts {calls : List Call} (hplain : ∀ call ∈ calls, call.Plain)
    (hstarts : calls.any Call.starts = true) :
    (calls.foldl Response.perform .new).Settled := by
  have hrepresents := Response.represents_new.performAll hplain
  have hstarted := Reply.started_performAll (.head none []) (.inr hstarts)
  refine .inl ?_
  rw [hrepresents.bytesSent]
  exact fun hzero => hstarted.text_ne_nil (List.eq_nil_of_length_eq_zero hzero)

end Started

section Plain

/-- Headers other than the one about the connection are plain whatever their values are. -/
theorem Call.plain_set {name : List (BitVec 8)} (h : sameName name (bytesOf "Connection") = false)
    (value : List (BitVec 8)) : (Call.set name value).Plain := fun hboth =>
  Bool.false_ne_true (h.symm.trans hboth.1)

/-- A middleware answers the request and leaves the connection as it is. -/
structure Plainly (outcome : List Call × Bool) : Prop where
  converts : outcome.2 = false
  plain : ∀ call ∈ outcome.1, call.Plain
  starts : outcome.1.any Call.starts = true

theorem Plainly.settled {outcome : List Call × Bool} (h : Plainly outcome) :
    (outcome.1.foldl Response.perform .new).Settled :=
  Response.settled_of_starts h.plain h.starts

namespace Site

variable (site : Site) (clients : Nat) (req : Request) (r : Reader) (res : Response)

theorem plain_serveFile (file : StaticFile) : ∀ call ∈ serveFile file, call.Plain := by
  simp only [serveFile, List.forall_mem_append, List.forall_mem_cons, List.forall_mem_map]
  refine ⟨⟨⟨Nat.le_refl 200, fun header hheader => ?_⟩, ?_⟩, trivial, List.forall_mem_nil _⟩
  · exact Call.plain_set (file.connection header hheader) header.2
  · split
    · exact List.forall_mem_nil _
    · exact List.forall_mem_singleton.mpr trivial

theorem plain_setCors : ∀ call ∈ site.setCors, call.Plain := by
  simp only [setCors, List.forall_mem_cons]
  refine ⟨?_, ?_, ?_, ?_, ?_, ?_, List.forall_mem_nil _⟩ <;>
    exact Call.plain_set (by decide +kernel) _

theorem plain_notfound : ∀ call ∈ site.notfound req, call.Plain := by
  simp only [notfound, List.forall_mem_cons]
  exact ⟨by decide, Call.plain_set (by decide +kernel) _, Call.plain_set (by decide +kernel) _,
    trivial, trivial, trivial, trivial, List.forall_mem_nil _⟩

theorem plainly_index : Plainly (site.index req r res) := by
  rw [index]
  split
  · next file hfile =>
    refine ⟨rfl, ?_, rfl⟩
    rw [List.forall_mem_cons]
    exact ⟨Nat.le_refl 200, plain_serveFile file⟩
  · refine ⟨rfl, ?_, rfl⟩
    simp only [List.forall_mem_cons]
    exact ⟨by decide, Call.plain_set (by decide +kernel) _, trivial, List.forall_mem_nil _⟩

theorem plainly_api : Plainly (site.api req r res) := by
  rw [api]
  split <;> refine ⟨rfl, ?_, by simp [Call.starts]⟩
  · simp only [List.forall_mem_append, List.forall_mem_cons]
    exact ⟨site.plain_setCors, by decide, trivial, List.forall_mem_nil _⟩
  · simp only [List.forall_mem_append, List.forall_mem_cons]
    exact ⟨site.plain_setCors, by decide, trivial, List.forall_mem_nil _⟩
  · simp only [List.forall_mem_append, List.forall_mem_cons]
    exact ⟨site.plain_setCors, by decide, trivial, List.forall_mem_nil _⟩

theorem plainly_apiPreflight : Plainly (site.apiPreflight req r res) :=
  ⟨rfl, List.forall_mem_cons.mpr ⟨Nat.le_refl 200, site.plain_setCors⟩, rfl⟩

theorem plainly_aboutStatic : Plainly (site.aboutStatic req r res) := by
  refine ⟨rfl, ?_, by simp [aboutStatic, Call.starts, site.about_ne]⟩
  simp only [aboutStatic, List.forall_mem_cons]
  exact ⟨Call.plain_set (by decide +kernel) _, Call.plain_set (by decide +kernel) _, trivial,
    List.forall_mem_nil _⟩

theorem plainly_serveStatic : Plainly (site.serveStatic req r .new) := by
  rw [serveStatic, if_neg (by decide)]
  dsimp only
  split
  · next file hfile =>
    refine ⟨rfl, ?_, rfl⟩
    rw [List.forall_mem_append]
    exact ⟨plain_serveFile file, List.forall_mem_singleton.mpr trivial⟩
  · exact ⟨rfl, site.plain_notfound req, rfl⟩

theorem plainly_websocketUpgrade (h : upgradeErrors req ≠ [] ∨ clients = site.maxConnections) :
    Plainly (site.websocketUpgrade clients req r res) := by
  rw [websocketUpgrade]
  split_ifs with herrors hfull
  · refine ⟨rfl, ?_, rfl⟩
    simp only [List.forall_mem_cons, List.forall_mem_map]
    exact ⟨Call.plain_set (by decide +kernel) _, by decide, Call.plain_set (by decide +kernel) _,
      trivial, fun _ _ => trivial⟩
  · refine ⟨rfl, ?_, rfl⟩
    simp only [List.forall_mem_cons]
    exact ⟨Call.plain_set (by decide +kernel) _, by decide, Call.plain_set (by decide +kernel) _,
      trivial, List.forall_mem_nil _⟩
  · exact absurd h (not_or.mpr ⟨herrors, hfull⟩)

theorem settled_websocketUpgrade :
    ((site.websocketUpgrade clients req r res).1.foldl Response.perform .new).Settled := by
  by_cases h : upgradeErrors req ≠ [] ∨ clients = site.maxConnections
  · exact (site.plainly_websocketUpgrade clients req r res h).settled
  · rw [not_or] at h
    refine .inr ?_
    rw [Response.ended_performAll, websocketUpgrade, if_neg h.1, if_neg h.2]
    simp

end Site

end Plain

section Table

def nothing : Middleware := fun _ _ _ => ([], false)

namespace Site

variable (site : Site) (clients : Nat)

def answering (req : Request) : Middleware :=
  match req.method with
  | .get =>
    if req.path = bytesOf "/" then site.index
    else if req.path = bytesOf "/api" then site.api
    else if site.enableWebsockets ∧ req.path = bytesOf "/websocket" then
      site.websocketUpgrade clients
    else if req.path = bytesOf "/webserver-status" then site.aboutStatic
    else site.serveStatic
  | .post => if req.path = bytesOf "/api" then site.api else nothing
  | .options =>
    if req.path = bytesOf "/api" then site.apiPreflight
    else if site.enableWebsockets ∧ req.path = bytesOf "/websocket" then site.apiPreflight
    else nothing
  | .head | .put | .delete | .patch => nothing

variable {site clients} {req : Request} {r : Reader}

/-- A route with a pattern that stands for itself. -/
def Fixed (route : Route) : Prop :=
  ∃ pattern, route.path = some pattern ∧ pattern.all (fun c => c ≠ 0 && c ≠ 58) = true

theorem Fixed.fits_eq {route : Route} (h : Fixed route) (hpath : 0 ∉ req.path) :
    route.fits req = decide ((route.type, route.path) = (req.method, some req.path)) := by
  obtain ⟨pattern, hpattern, hplain⟩ := h
  have hzero : ∀ c ∈ pattern, c ≠ 0 ∧ c ≠ 58 := by simpa using hplain
  rw [Route.fits, hpattern, Option.all_some, routeMatch_eq hpath (fun h => (hzero 0 h).1 rfl)
    (fun h => (hzero 58 h).2 rfl)]
  simp [eq_comm]

theorem dispatch_skip {route : Route} (h : route.fits req = false) (routes : List Route)
    (state : Response × Bool) : dispatch req r (route :: routes) state = dispatch req r routes state := by
  obtain ⟨res, convert⟩ := state
  rw [dispatch, h]
  split
  · next hended =>
    cases routes with
    | nil => rfl
    | cons route routes => rw [dispatch, if_pos hended]
  · rfl

theorem dispatch_take {route : Route} (h : route.fits req = true) (routes : List Route) :
    dispatch req r (route :: routes) (.new, false) =
      dispatch req r routes ((route.middleware req r .new).1.foldl Response.perform .new,
        (route.middleware req r .new).2) := by
  rw [dispatch, if_neg (by decide), h, if_pos rfl]
  rfl

/-- Nobody answers after the first answer. -/
theorem dispatch_settled {res : Response} (hsettled : res.Settled) {routes : List Route}
    (hroutes : ∀ route ∈ routes, route.fits req = false ∨ route.middleware = site.serveStatic)
    (convert : Bool) : dispatch req r routes (res, convert) = (res, convert) := by
  induction routes with
  | nil => rfl
  | cons route routes ih =>
    have hrest := ih fun other hother => hroutes other (List.mem_cons_of_mem route hother)
    rcases hroutes route List.mem_cons_self with hskip | hstatic
    · rw [dispatch_skip hskip, hrest]
    · rw [dispatch, hstatic, serveStatic]
      split_ifs
      · rfl
      · simpa only [List.foldl_nil, Bool.or_false] using hrest
      · next hunsettled => exact absurd hsettled hunsettled
      · exact hrest

/-- The routes with patterns differ, and behind them the files are served. -/
theorem dispatch_first (hpath : 0 ∉ req.path) {fixed : List Route}
    (hfixed : ∀ route ∈ fixed, Fixed route)
    (hkeys : (fixed.map fun route => (route.type, route.path)).Nodup)
    (hsettled : ∀ route ∈ fixed,
      ((route.middleware req r .new).1.foldl Response.perform .new).Settled) :
    dispatch req r (fixed ++ [⟨.get, none, site.serveStatic⟩]) (.new, false) =
      match fixed.find? (·.fits req) with
      | some route => ((route.middleware req r .new).1.foldl Response.perform .new,
          (route.middleware req r .new).2)
      | none =>
        if req.method = .get then
          ((site.serveStatic req r .new).1.foldl Response.perform .new,
            (site.serveStatic req r .new).2)
        else (.new, false) := by
  induction fixed with
  | nil =>
    simp only [List.nil_append, List.find?_nil]
    split
    · next hget => exact dispatch_take (by simp [Route.fits, hget]) []
    · next hget => exact dispatch_skip (by simp [Route.fits, Ne.symm hget]) [] _
  | cons route fixed ih =>
    rw [List.map_cons, List.nodup_cons] at hkeys
    rw [List.forall_mem_cons] at hfixed hsettled
    rw [List.cons_append, List.find?_cons]
    cases hfits : route.fits req with
    | false =>
      rw [dispatch_skip hfits, ih hfixed.2 hkeys.2 hsettled.2]
    | true =>
      rw [dispatch_take hfits]
      refine @dispatch_settled site req r _ hsettled.1 _ ?_ _
      intro other hother
      rcases List.mem_append.mp hother with hother | hstatic
      · refine .inl ?_
        rw [hfixed.1.fits_eq hpath, decide_eq_true_iff] at hfits
        rw [(hfixed.2 other hother).fits_eq hpath, decide_eq_false_iff_not, ← hfits]
        exact fun hsame => hkeys.1 (hsame ▸ List.mem_map_of_mem hother)
      · exact .inr (List.mem_singleton.mp hstatic ▸ rfl)

theorem fixed_of_mem {route : Route} (h : route ∈ site.fixedRoutes clients) : Fixed route := by
  simp only [fixedRoutes, List.mem_append, List.mem_cons, List.not_mem_nil, or_false,
    List.mem_ite_nil_right] at h
  rcases h with ((rfl | rfl | rfl | rfl) | ⟨-, rfl | rfl⟩) | rfl <;> exact ⟨_, rfl, by decide +kernel⟩

theorem settled_of_mem {route : Route} (h : route ∈ site.fixedRoutes clients) :
    ((route.middleware req r .new).1.foldl Response.perform .new).Settled := by
  simp only [fixedRoutes, List.mem_append, List.mem_cons, List.not_mem_nil, or_false,
    List.mem_ite_nil_right] at h
  rcases h with ((rfl | rfl | rfl | rfl) | ⟨-, rfl | rfl⟩) | rfl
  · exact (site.plainly_index req r .new).settled
  · exact (site.plainly_api req r .new).settled
  · exact (site.plainly_api req r .new).settled
  · exact (site.plainly_apiPreflight req r .new).settled
  · exact site.settled_websocketUpgrade clients req r .new
  · exact (site.plainly_apiPreflight req r .new).settled
  · exact (site.plainly_aboutStatic req r .new).settled

theorem nodup_fixedRoutes :
    ((site.fixedRoutes clients).map fun route => (route.type, route.path)).Nodup := by
  rw [fixedRoutes]
  cases site.enableWebsockets <;>
    simp only [if_true, Bool.false_eq_true, if_false, List.map_append, List.map_cons,
      List.map_nil] <;> decide +kernel

theorem dispatch_routes (hpath : 0 ∉ req.path) :
    dispatch req r (site.routes clients) (.new, false) =
      ((site.answering clients req req r .new).1.foldl Response.perform .new,
        (site.answering clients req req r .new).2) := by
  have hfind : (site.fixedRoutes clients).find? (·.fits req) =
      (site.fixedRoutes clients).find? fun route =>
        (route.type, route.path) = (req.method, some req.path) :=
    List.find?_congr fun route h => (fixed_of_mem h).fits_eq hpath
  rw [routes, dispatch_first hpath (fun _ h => fixed_of_mem h) nodup_fixedRoutes
    (fun _ h => settled_of_mem h), hfind, fixedRoutes, answering]
  -- Method by method only the paths are left to tell the routes apart.
  cases hmethod : req.method <;> cases hwebsockets : site.enableWebsockets <;>
    simp only [List.find?_cons, List.find?_nil, List.cons_append, List.nil_append, if_true, if_false,
      Bool.false_eq_true, Prod.mk.injEq, Option.some.injEq, true_and, false_and, reduceCtorEq,
      decide_false, eq_comm (b := req.path)] <;>
    first
    | (split_ifs <;> simp_all [nothing])
    | exact ⟨rfl, rfl⟩

end Site

end Table

section Serve

/-- The answer to a request whose text does not fit. -/
def refusal (code : Nat) : Reply := (Reply.head (some code) []).complete.add (statusText code)

theorem stream_sendStatus {code : Nat} (hcode : 200 ≤ code) (hcontent : code ≠ 204 ∧ code ≠ 304) :
    (Response.new.sendStatus code).flushBuf.stream = (refusal code).text := by
  have hstatus := Response.represents_new.status hcode
  have hflushed := (hstatus.printHeaders.print_body (statusText code)).flushBuf
  rw [Response.sendStatus, if_pos hcontent]
  have hsent := hflushed.sent
  rwa [Response.buffer_flushBuf, List.append_nil] at hsent

namespace Site

variable (site : Site) (clients : Nat)

/-- The answer to a request that does not ask for a websocket. -/
def reply (req : Request) (r : Reader) : Reply :=
  let calls := (site.answering clients req req r .new).1
  (calls.foldl Reply.perform (.head none [])).conclude (.stop ∈ calls)

def Opens (req : Request) : Prop :=
  req.method = .get ∧ req.path = bytesOf "/websocket" ∧ site.enableWebsockets = true ∧
    upgradeErrors req = [] ∧ clients ≠ site.maxConnections

instance (req : Request) : Decidable (site.Opens clients req) :=
  inferInstanceAs (Decidable (req.method = .get ∧ req.path = bytesOf "/websocket" ∧
    site.enableWebsockets = true ∧ upgradeErrors req = [] ∧ clients ≠ site.maxConnections))

def upgradeHeaders (key : List (BitVec 8)) : List (List (BitVec 8) × List (BitVec 8)) :=
  [(bytesOf "Server", site.serverVersion), (bytesOf "Connection", bytesOf "Upgrade"),
    (bytesOf "Upgrade", bytesOf "websocket"), (bytesOf "Sec-WebSocket-Version", bytesOf "13"),
    (bytesOf "Sec-Websocket-Accept", site.websocketsHandshakeEncodeKey key)]

def switching (key : List (BitVec 8)) : List (BitVec 8) :=
  statusLine 101 ++ (site.upgradeHeaders key).flatMap Response.headerLine ++ crlf

variable {site clients} {req : Request} {r : Reader}

theorem converts_of_opens (h : site.Opens clients req) :
    site.answering clients req req r .new =
      (((site.upgradeHeaders ((req.get (bytesOf "Sec-WebSocket-Key")).getD [])).map
          fun header => .set header.1 header.2) ++ [.status 101, .flush, .stop], true) := by
  obtain ⟨hmethod, hpath, hwebsockets, herrors, hroom⟩ := h
  have hindex : bytesOf "/websocket" ≠ bytesOf "/" := by decide +kernel
  have hapi : bytesOf "/websocket" ≠ bytesOf "/api" := by decide +kernel
  rw [answering, hmethod]
  simp only [hpath, hindex, hapi, hwebsockets, if_false, and_self, if_true]
  rw [websocketUpgrade, if_neg (not_not.mpr herrors), if_neg hroom]
  rfl

theorem plain_upgradeHeaders (key : List (BitVec 8)) :
    ∀ header ∈ site.upgradeHeaders key, (Call.set header.1 header.2).Plain := by
  simp only [upgradeHeaders, List.forall_mem_cons]
  exact ⟨Call.plain_set (by decide +kernel) _, by decide +kernel, Call.plain_set (by decide +kernel) _,
    Call.plain_set (by decide +kernel) _, Call.plain_set (by decide +kernel) _, List.forall_mem_nil _⟩

theorem plain_of_not_opens (h : ¬ site.Opens clients req) :
    (site.answering clients req req r .new).2 = false ∧
      ∀ call ∈ (site.answering clients req req r .new).1, call.Plain := by
  have hplain : ∀ {outcome : List Call × Bool}, Plainly outcome →
      outcome.2 = false ∧ ∀ call ∈ outcome.1, call.Plain := fun hp => ⟨hp.converts, hp.plain⟩
  have hnothing : (nothing req r .new).2 = false ∧ ∀ call ∈ (nothing req r .new).1, call.Plain :=
    ⟨rfl, List.forall_mem_nil _⟩
  rw [answering]
  cases hmethod : req.method with
  | get =>
    dsimp only
    split_ifs with hindex hapi hupgrade habout
    · exact hplain (site.plainly_index req r .new)
    · exact hplain (site.plainly_api req r .new)
    · refine hplain (site.plainly_websocketUpgrade clients req r .new ?_)
      by_contra hboth
      rw [not_or, not_not] at hboth
      exact h ⟨hmethod, hupgrade.2, hupgrade.1, hboth⟩
    · exact hplain (site.plainly_aboutStatic req r .new)
    · exact hplain (site.plainly_serveStatic req r)
  | post =>
    dsimp only
    split_ifs
    · exact hplain (site.plainly_api req r .new)
    · exact hnothing
  | options =>
    dsimp only
    split_ifs
    · exact hplain (site.plainly_apiPreflight req r .new)
    · exact hplain (site.plainly_apiPreflight req r .new)
    · exact hnothing
  | head | put | delete | patch => exact hnothing

theorem zero_not_mem_path (url : List (BitVec 8)) : 0 ∉ (processURL url).1 := by
  intro hmem
  have hurl := List.mem_takeWhile_imp ((List.takeWhile_sublist _).subset hmem)
  exact absurd rfl (of_decide_eq_true hurl)

theorem named_interestingHeaders : ∀ node ∈ interestingHeaders, node.Named := by
  decide +kernel

theorem stream_opens (h : site.Opens clients req) :
    ((site.answering clients req req r .new).1.foldl Response.perform .new).conclude.stream =
      site.switching ((req.get (bytesOf "Sec-WebSocket-Key")).getD []) := by
  rw [converts_of_opens h, List.foldl_append]
  exact (Response.represents_new.setAll (Nat.le_of_ble_eq_true rfl)
    (plain_upgradeHeaders _)).interim (by decide) (by decide)

theorem stream_not_opens (h : ¬ site.Opens clients req) :
    ((site.answering clients req req r .new).1.foldl Response.perform .new).conclude.stream =
      (site.reply clients req r).text :=
  (conclude_performAll (plain_of_not_opens h).2).1

/-- Every request that is well written gets one answer.  Either it opens a websocket, whose frames
are left to be read, or it is answered by one middleware and the connection ends. -/
theorem serve_text (t : RequestText) (body stale : List (BitVec 8))
    (cs : List (Option (BitVec 8)))
    (halone : ∀ line ∈ t.lines, line.Alone (interestingHeaders.map (·.name))) :
    site.serve clients stale ((t.text ++ body).map some ++ cs) =
      match t.answer interestingHeaders stale with
      | .error code => ((refusal code).text, none)
      | .ok req =>
        let r : Reader := ⟨[], body.map some ++ cs, false⟩
        if site.Opens clients req then
          (site.switching ((req.get (bytesOf "Sec-WebSocket-Key")).getD []), some r)
        else ((site.reply clients req r).text, none) := by
  obtain ⟨r, hprocess, hreads⟩ :=
    process_reads t named_interestingHeaders halone (reads_text t.text body cs)
  rw [serve, hprocess]
  cases hanswer : t.answer interestingHeaders stale with
  | error code =>
    have hcode := RequestText.eq_of_answer hanswer
    exact congrArg (·, none) (stream_sendStatus (by omega) (by omega))
  | ok req =>
    rw [hanswer] at hreads
    obtain rfl := (hreads rfl).eq_of_nil
    obtain ⟨headers, -, rfl⟩ := RequestText.exists_of_answer hanswer
    have hdispatch := @dispatch_routes site clients (t.request stale headers)
      ⟨[], body.map some ++ cs, false⟩ (zero_not_mem_path t.address.url)
    simp only [hdispatch]
    by_cases hopens : site.Opens clients (t.request stale headers)
    · rw [if_pos hopens, stream_opens hopens, converts_of_opens hopens, if_pos rfl]
    · rw [if_neg hopens, stream_not_opens hopens, (plain_of_not_opens hopens).1,
        if_neg Bool.false_ne_true]

end Site

/-- A site without files that sends messages back, with a sum in place of the hash. -/
def bareSite : Site where
  firmwareVersion := bytesOf "1"
  accessControlAllowOrigin := bytesOf "*"
  enableWebsockets := true
  maxConnections := 1
  attic := []
  about := bytesOf "\x7b\x7d"
  about_ne := by decide +kernel
  handleMessage := .answered
  sha1 := fun text _ => text.foldl (· + ·) 0

theorem serve_text_posted :
    bareSite.serve 0 [] ((postedMessage.text ++ bytesOf "\x7b\x7d").map some ++ []) =
      (bytesOf "HTTP/1.1 200 OK\r\n" ++ bytesOf "Server: LucidacWebServer/1\r\n" ++
        bytesOf "Content-Type: application/json\r\n" ++
        bytesOf "Access-Control-Allow-Origin: *\r\n" ++
        bytesOf "Access-Control-Allow-Credentials: true\r\n" ++
        bytesOf "Access-Control-Allow-Methods: POST, GET, OPTIONS\r\n" ++
        bytesOf "Access-Control-Allow-Headers: Origin, Cookie, Set-Cookie, Content-Type, Server\r\n" ++
        bytesOf "Connection: close\r\n\r\n" ++ bytesOf "\x7b\x7d", none) :=
  (Site.serve_text postedMessage (bytesOf "\x7b\x7d") [] [] (by decide +kernel)).trans
    (by decide +kernel)

end Serve

end Lucidac.Web
