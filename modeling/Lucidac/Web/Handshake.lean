import Lucidac.Web.Serving

/-!
# Opening a websocket

Whether a request opens a websocket can be told from its lines, and so can the key that the answer
confirms.
-/

namespace Lucidac.Web

open Base64 (bytesOf)

section Values

/-- A further value stands behind a comma. -/
def joined (value more : List (BitVec 8)) : List (BitVec 8) :=
  (if value ≠ [] then value ++ [44] else []) ++ more

def headerText (lines : List HeaderLine) (name : List (BitVec 8)) : List (BitVec 8) :=
  lines.foldl (fun text line => if Similar line.name name then joined text line.value else text) []

/-- No registered name stands in front of the name of the line, and the value is a text. -/
structure HeaderLine.Exact (names : List (List (BitVec 8))) (line : HeaderLine) : Prop where
  name_eq : ∀ name ∈ names, stripPrefix name line.name ≠ none → Similar line.name name
  field_zero : 0 ∉ line.field

/-- The names can be told apart, and none is the length of the content. -/
structure Distinct (names : List (List (BitVec 8))) : Prop where
  pairwise : names.Pairwise fun name other => ¬ Similar name other
  length : ∀ name ∈ names, ¬ Similar name (bytesOf "Content-Length")

/-- The node with one more line. -/
def HeaderNode.read (line : HeaderLine) (node : HeaderNode) : HeaderNode :=
  { node with
    value := if Similar line.name node.name then joined node.value line.value else node.value }

theorem stripPrefix_similar {name p : List (BitVec 8)} (h : Similar p name) :
    stripPrefix name p = some [] := by
  induction name generalizing p with
  | nil =>
    rw [similar_nil.mp h]
    rfl
  | cons a name ih =>
    cases p with
    | nil => cases h
    | cons b p =>
      obtain ⟨hab, hrest⟩ := similar_cons.mp h
      rw [stripPrefix, if_pos hab.symm, ih hrest]

theorem map_read_of_not_similar {line : HeaderLine} {nodes : List HeaderNode}
    (h : ∀ node ∈ nodes, ¬ Similar line.name node.name) : nodes.map (·.read line) = nodes := by
  rw [List.map_congr_left (g := id), List.map_id]
  intro node hnode
  rw [HeaderNode.read, if_neg (h node hnode)]
  rfl

theorem zero_not_mem_joined {value more : List (BitVec 8)} (hvalue : 0 ∉ value) (hmore : 0 ∉ more) :
    0 ∉ joined value more := by
  rw [joined]
  split
  · rw [List.mem_append, List.mem_append, List.mem_singleton, not_or, not_or]
    exact ⟨⟨hvalue, by decide⟩, hmore⟩
  · exact hmore

theorem store_eq {node : HeaderNode} {value : List (BitVec 8)} (hvalue : 0 ∉ value)
    (hnode : 0 ∉ node.value) {text : List (BitVec 8)} (h : node.store value = some text) :
    text = joined node.value value := by
  rw [HeaderNode.store] at h
  obtain ⟨-, heq⟩ := Option.ite_none_right_eq_some.mp h
  have hwhole : (joined node.value value).takeWhile (· ≠ 0) = joined node.value value := by
    rw [List.takeWhile_eq_self_iff]
    intro c hc
    refine decide_eq_true ?_
    rintro rfl
    exact zero_not_mem_joined hnode hvalue hc
  rw [← Option.some_inj, ← heq, ← hwhole]
  rfl

/-- A line is read by the one node with its name. -/
theorem findName_exact {seen nodes : List HeaderNode} {line : HeaderLine}
    (hexact : line.Exact (nodes.map (·.name))) {seen' rest : List HeaderNode} {node : HeaderNode}
    (h : findName seen nodes line.name = some (seen', node, rest)) :
    ∃ before, seen' = seen ++ before ∧ nodes = before ++ node :: rest ∧
      Similar line.name node.name := by
  induction nodes generalizing seen with
  | nil => cases h
  | cons first nodes ih =>
    have hrest : line.Exact (nodes.map (·.name)) :=
      ⟨fun name hname => hexact.name_eq name (List.mem_cons_of_mem _ hname), hexact.field_zero⟩
    rw [findName] at h
    cases hstrip : stripPrefix first.name line.name with
    | none =>
      rw [hstrip] at h
      obtain ⟨before, rfl, rfl, hname⟩ := ih hrest h
      exact ⟨first :: before, by rw [List.append_assoc, List.singleton_append], rfl, hname⟩
    | some behind =>
      have hname : Similar line.name first.name :=
        hexact.name_eq first.name List.mem_cons_self (by rw [hstrip]; exact Option.some_ne_none _)
      rw [stripPrefix_similar hname] at hstrip
      obtain rfl := Option.some_inj.mp hstrip
      rw [stripPrefix_similar hname] at h
      cases h
      exact ⟨[], (List.append_nil _).symm, rfl, hname⟩

theorem not_similar_of_findName {seen nodes : List HeaderNode} {line : HeaderLine}
    (hexact : line.Exact (nodes.map (·.name))) (h : findName seen nodes line.name = none) :
    ∀ node ∈ nodes, ¬ Similar line.name node.name := by
  induction nodes generalizing seen with
  | nil => exact List.forall_mem_nil _
  | cons first nodes ih =>
    have hrest : line.Exact (nodes.map (·.name)) :=
      ⟨fun name hname => hexact.name_eq name (List.mem_cons_of_mem _ hname), hexact.field_zero⟩
    rw [findName] at h
    cases hstrip : stripPrefix first.name line.name with
    | none =>
      rw [hstrip] at h
      refine List.forall_mem_cons.mpr ⟨?_, ih hrest h⟩
      intro hname
      rw [stripPrefix_similar hname] at hstrip
      cases hstrip
    | some behind =>
      have hname : Similar line.name first.name :=
        hexact.name_eq first.name List.mem_cons_self (by rw [hstrip]; exact Option.some_ne_none _)
      rw [stripPrefix_similar hname] at h
      cases h

/-- What a line does to the values. -/
theorem nodes_apply {headers headers' : Headers} {line : HeaderLine}
    (hdistinct : Distinct (headers.nodes.map (·.name)))
    (hexact : line.Exact (headers.nodes.map (·.name)))
    (hzero : ∀ node ∈ headers.nodes, 0 ∉ node.value) (h : headers.apply line = some headers') :
    headers'.nodes = headers.nodes.map (·.read line) := by
  rw [Headers.apply] at h
  split at h
  · next hlength =>
    obtain ⟨left, -, rfl⟩ := Option.map_eq_some_iff.mp h
    refine (map_read_of_not_similar fun node hnode hname => ?_).symm
    exact hdistinct.length node.name (List.mem_map_of_mem hnode) (hname.symm.trans hlength)
  · cases hfind : findName [] headers.nodes line.name with
    | none =>
      rw [hfind] at h
      cases h
      exact (map_read_of_not_similar (not_similar_of_findName hexact hfind)).symm
    | some found =>
      obtain ⟨seen, node, rest⟩ := found
      rw [hfind] at h
      obtain ⟨value, hstore, rfl⟩ := Option.map_eq_some_iff.mp h
      obtain ⟨before, rfl, hnodes, hname⟩ := findName_exact hexact hfind
      have hvalue : 0 ∉ line.value := fun hmem =>
        hexact.field_zero ((List.dropWhile_sublist _).subset hmem)
      have hpairwise := hdistinct.pairwise
      rw [hnodes, List.map_append, List.map_cons, List.pairwise_append, List.pairwise_cons]
        at hpairwise
      obtain ⟨-, ⟨hrest, -⟩, hbefore⟩ := hpairwise
      have hstored := store_eq hvalue (hzero node (by rw [hnodes]; simp)) hstore
      rw [hnodes, List.map_append, List.map_cons,
        map_read_of_not_similar fun other hother hsame =>
          hbefore other.name (List.mem_map_of_mem hother) node.name List.mem_cons_self
            (hsame.symm.trans hname),
        map_read_of_not_similar fun other hother hsame =>
          hrest other.name (List.mem_map_of_mem hother) (hname.symm.trans hsame),
        HeaderNode.read, if_pos hname, hstored]

theorem nodes_foldlM {lines : List HeaderLine} {headers headers' : Headers}
    (hdistinct : Distinct (headers.nodes.map (·.name)))
    (hexact : ∀ line ∈ lines, line.Exact (headers.nodes.map (·.name)))
    (hzero : ∀ node ∈ headers.nodes, 0 ∉ node.value)
    (h : lines.foldlM Headers.apply headers = some headers') :
    headers'.nodes = headers.nodes.map fun node => lines.foldl (fun node line => node.read line) node := by
  induction lines generalizing headers with
  | nil =>
    cases h
    simp
  | cons line lines ih =>
    rw [List.foldlM_cons] at h
    obtain ⟨next, happly, hrest⟩ := Option.bind_eq_some_iff.mp h
    have hnames := Headers.names_apply happly
    rw [List.forall_mem_cons] at hexact
    have hnodes := nodes_apply hdistinct hexact.1 hzero happly
    have hvalue : 0 ∉ line.value := fun hmem =>
      hexact.1.field_zero ((List.dropWhile_sublist _).subset hmem)
    have hzero' : ∀ node ∈ next.nodes, 0 ∉ node.value := by
      rw [hnodes, List.forall_mem_map]
      intro node hnode
      rw [HeaderNode.read]
      dsimp only
      split
      · exact zero_not_mem_joined (hzero node hnode) hvalue
      · exact hzero node hnode
    rw [ih (hnames ▸ hdistinct) (hnames ▸ hexact.2) hzero' hrest, hnodes, List.map_map]
    rfl

theorem foldl_read (lines : List HeaderLine) (node : HeaderNode) :
    lines.foldl (fun node line => node.read line) node =
      { node with
        value := lines.foldl
          (fun text line => if Similar line.name node.name then joined text line.value else text)
          node.value } := by
  induction lines generalizing node with
  | nil => rfl
  | cons line lines ih =>
    rw [List.foldl_cons, ih, List.foldl_cons]
    rfl

theorem distinct_interestingHeaders : Distinct (interestingHeaders.map (·.name)) :=
  ⟨by decide +kernel, by decide +kernel⟩

/-- The text of a registered header is what its lines tell. -/
theorem get_request {t : RequestText} {stale : List (BitVec 8)}
    (hexact : ∀ line ∈ t.lines, line.Exact (interestingHeaders.map (·.name))) {req : Request}
    (hanswer : t.answer interestingHeaders stale = .ok req) {name registered : List (BitVec 8)}
    (hfind : interestingHeaders.find? (sameName ·.name name) = some ⟨registered, [], 80⟩) :
    req.get name = some (headerText t.lines registered) := by
  obtain ⟨headers, hfold, rfl⟩ := RequestText.exists_of_answer hanswer
  have hnodes := @nodes_foldlM t.lines ⟨interestingHeaders, 0⟩ headers distinct_interestingHeaders
    hexact (by decide +kernel) hfold
  have hnode : (headers.nodes.find? (sameName ·.name name)) =
      some (t.lines.foldl (fun node line => node.read line) ⟨registered, [], 80⟩) := by
    simp only [foldl_read] at hnodes ⊢
    rw [hnodes, List.find?_map]
    exact congrArg _ hfind
  rw [Request.get]
  exact (congrArg _ hnode).trans (by rw [foldl_read]; rfl)

end Values

section Handshake

variable {site : Site} {clients : Nat} {t : RequestText} {stale : List (BitVec 8)}

theorem upgradeErrors_eq_nil {req : Request}
    (hexact : ∀ line ∈ t.lines, line.Exact (interestingHeaders.map (·.name)))
    (hanswer : t.answer interestingHeaders stale = .ok req) :
    upgradeErrors req = [] ↔
      containsText (headerText t.lines (bytesOf "Connection")) (bytesOf "Upgrade") = true ∧
        headerText t.lines (bytesOf "Upgrade") = bytesOf "websocket" ∧
        headerText t.lines (bytesOf "Sec-WebSocket-Version") = bytesOf "13" := by
  have hconnection := @get_request t stale hexact req hanswer (bytesOf "Connection") (bytesOf "Connection")
    (by decide +kernel)
  have hupgrade := @get_request t stale hexact req hanswer (bytesOf "Upgrade") (bytesOf "Upgrade")
    (by decide +kernel)
  have hversion := @get_request t stale hexact req hanswer (bytesOf "Sec-WebSocket-Version")
    (bytesOf "Sec-WebSocket-Version") (by decide +kernel)
  have hkey := @get_request t stale hexact req hanswer (bytesOf "Sec-WebSocket-Key")
    (bytesOf "Sec-Websocket-Key") (by decide +kernel)
  simp only [upgradeErrors, hconnection, hupgrade, hversion, hkey]
  simp

/-- The request asks for a websocket, and there is room for one. -/
structure Requests (site : Site) (clients : Nat) (t : RequestText) : Prop where
  method : t.method = .get
  path : (processURL t.address.url).1 = bytesOf "/websocket"
  enabled : site.enableWebsockets = true
  connection : containsText (headerText t.lines (bytesOf "Connection")) (bytesOf "Upgrade") = true
  upgrade : headerText t.lines (bytesOf "Upgrade") = bytesOf "websocket"
  version : headerText t.lines (bytesOf "Sec-WebSocket-Version") = bytesOf "13"
  room : clients ≠ site.maxConnections

theorem opens_iff {req : Request}
    (hexact : ∀ line ∈ t.lines, line.Exact (interestingHeaders.map (·.name)))
    (hanswer : t.answer interestingHeaders stale = .ok req) :
    site.Opens clients req ↔ Requests site clients t := by
  have herrors := upgradeErrors_eq_nil hexact hanswer
  obtain ⟨headers, -, rfl⟩ := RequestText.exists_of_answer hanswer
  constructor
  · rintro ⟨hmethod, hpath, henabled, hnone, hroom⟩
    obtain ⟨hconnection, hupgrade, hversion⟩ := herrors.mp hnone
    exact ⟨hmethod, hpath, henabled, hconnection, hupgrade, hversion, hroom⟩
  · rintro ⟨hmethod, hpath, henabled, hconnection, hupgrade, hversion, hroom⟩
    exact ⟨hmethod, hpath, henabled, herrors.mpr ⟨hconnection, hupgrade, hversion⟩, hroom⟩

/-- The confirmation of the key can be decoded to its checksum. -/
theorem decode_websocketsHandshakeEncodeKey (site : Site) (key : List (BitVec 8)) :
    Base64.decode (site.websocketsHandshakeEncodeKey key) 20 =
      List.ofFn (site.sha1 (key ++ bytesOf "258EAFA5-E914-47DA-95CA-C5AB0DC85B11")) := by
  rw [Site.websocketsHandshakeEncodeKey, Base64.decode_encode, List.length_ofFn,
    if_pos (by decide)]

/-- A connection becomes a websocket exactly if its request asks for one.  The answer confirms the key
of the request, and nothing behind the request was read. -/
theorem handshake {req : Request} (cs : List (Option (BitVec 8)))
    (halone : ∀ line ∈ t.lines, line.Alone (interestingHeaders.map (·.name)))
    (hexact : ∀ line ∈ t.lines, line.Exact (interestingHeaders.map (·.name)))
    (hanswer : t.answer interestingHeaders stale = .ok req) :
    ((site.serve clients stale (t.text.map some ++ cs)).2.isSome = true ↔ Requests site clients t) ∧
      (Requests site clients t → ∃ accept,
        site.serve clients stale (t.text.map some ++ cs) =
          (statusLine 101 ++
            [(bytesOf "Server", site.serverVersion), (bytesOf "Connection", bytesOf "Upgrade"),
              (bytesOf "Upgrade", bytesOf "websocket"),
              (bytesOf "Sec-WebSocket-Version", bytesOf "13"),
              (bytesOf "Sec-Websocket-Accept", accept)].flatMap Response.headerLine ++ crlf,
            some ⟨[], cs, false⟩) ∧
        Base64.decode accept 20 = List.ofFn (site.sha1
          (headerText t.lines (bytesOf "Sec-Websocket-Key") ++
            bytesOf "258EAFA5-E914-47DA-95CA-C5AB0DC85B11"))) := by
  have hserve := @Site.serve_text site clients t [] stale cs halone
  have hkey := @get_request t stale hexact req hanswer (bytesOf "Sec-WebSocket-Key")
    (bytesOf "Sec-Websocket-Key") (by decide +kernel)
  rw [List.append_nil, hanswer] at hserve
  rw [hserve, ← opens_iff hexact hanswer]
  refine ⟨?_, fun hopens => ?_⟩
  · by_cases hopens : site.Opens clients req
    · simp [hopens]
    · simp [hopens]
  · refine ⟨site.websocketsHandshakeEncodeKey (headerText t.lines (bytesOf "Sec-Websocket-Key")),
      ?_, decode_websocketsHandshakeEncodeKey site _⟩
    simp only [if_pos hopens, hkey, Option.getD_some]
    rfl

/-- A request for a websocket, with the headers in an order and a spelling of its own. -/
def upgradeRequest : RequestText where
  method := .get
  verb := bytesOf "GET "
  verb_similar := .refl _
  address := ⟨(bytesOf "/websocket").map fun c => (c, .plain), by decide +kernel⟩
  version := .one
  protocol := versionText .one
  protocol_similar := .refl _
  lines :=
    [⟨bytesOf "sec-websocket-key", bytesOf " x3JJHMbDL1EzLkh9GBhXDw==", by decide +kernel,
        by decide +kernel, by decide +kernel⟩,
      ⟨bytesOf "Connection", bytesOf " keep-alive", by decide +kernel, by decide +kernel,
        by decide +kernel⟩,
      ⟨bytesOf "Cache-Control", bytesOf " no-cache", by decide +kernel, by decide +kernel,
        by decide +kernel⟩,
      ⟨bytesOf "connection", bytesOf " Upgrade", by decide +kernel, by decide +kernel,
        by decide +kernel⟩,
      ⟨bytesOf "Upgrade", bytesOf " websocket", by decide +kernel, by decide +kernel,
        by decide +kernel⟩,
      ⟨bytesOf "Sec-WebSocket-Version", bytesOf " 13", by decide +kernel, by decide +kernel,
        by decide +kernel⟩]

theorem handshake_upgradeRequest :
    Requests bareSite 0 upgradeRequest ∧ ¬ Requests bareSite 1 upgradeRequest ∧
      ∃ accept, (bareSite.serve 0 [] (upgradeRequest.text.map some ++ [some 0x81])) =
          (statusLine 101 ++
            [(bytesOf "Server", bareSite.serverVersion), (bytesOf "Connection", bytesOf "Upgrade"),
              (bytesOf "Upgrade", bytesOf "websocket"),
              (bytesOf "Sec-WebSocket-Version", bytesOf "13"),
              (bytesOf "Sec-Websocket-Accept", accept)].flatMap Response.headerLine ++ crlf,
            some ⟨[], [some 0x81], false⟩) ∧
        Base64.decode accept 20 = List.ofFn (bareSite.sha1
          (bytesOf "x3JJHMbDL1EzLkh9GBhXDw==" ++
            bytesOf "258EAFA5-E914-47DA-95CA-C5AB0DC85B11")) := by
  have hrequests : Requests bareSite 0 upgradeRequest :=
    ⟨rfl, by decide +kernel, rfl, by decide +kernel, by decide +kernel, by decide +kernel, by decide⟩
  have hkey : headerText upgradeRequest.lines (bytesOf "Sec-Websocket-Key") =
      bytesOf "x3JJHMbDL1EzLkh9GBhXDw==" := by decide +kernel
  have hok : (upgradeRequest.answer interestingHeaders []).isOk = true := by decide +kernel
  have hexact : ∀ line ∈ upgradeRequest.lines,
      (∀ name ∈ interestingHeaders.map (·.name),
        stripPrefix name line.name ≠ none → Similar line.name name) ∧ 0 ∉ line.field := by
    decide +kernel
  refine ⟨hrequests, fun h => h.room rfl, ?_⟩
  rw [← hkey]
  cases hanswer : upgradeRequest.answer interestingHeaders [] with
  | error code =>
    rw [hanswer] at hok
    cases hok
  | ok req =>
    exact (handshake [some 0x81] (by decide +kernel)
      (fun line hline => ⟨(hexact line hline).1, (hexact line hline).2⟩) hanswer).2 hrequests

end Handshake

end Lucidac.Web
