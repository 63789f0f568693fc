import Lucidac.Web.Response

/-!
# What a client receives

Whatever a middleware asks for and however often the buffer is sent, the client gets one status
line, one block of headers and then the content in the order of the calls.
-/

namespace Lucidac.Web

open Base64 (bytesOf)

section Reply

/-- An answer as it grows: before the end of its headers and behind it. -/
inductive Reply where
  | head (code : Option Nat) (headers : List (List (BitVec 8) × List (BitVec 8)))
  | body (code : Nat) (headers : List (List (BitVec 8) × List (BitVec 8)))
    (content : List (BitVec 8))
deriving DecidableEq

/-- Further headers are dropped. -/
def addHeader (headers : List (List (BitVec 8) × List (BitVec 8)))
    (name value : List (BitVec 8)) : List (List (BitVec 8) × List (BitVec 8)) :=
  if maxHeaders ≤ headers.length then headers else headers ++ [(name, value)]

/-- The type of the content is told, or there is no content. -/
def typed (code : Option Nat) (headers : List (List (BitVec 8) × List (BitVec 8))) : Bool :=
  headers.any (fun header => sameName header.1 (bytesOf "Content-Type")) ||
    code = some 204 || code = some 304

def withDefaults (typed : Bool) (headers : List (List (BitVec 8) × List (BitVec 8))) :
    List (List (BitVec 8) × List (BitVec 8)) :=
  addHeader
    (if typed then headers else addHeader headers (bytesOf "Content-Type") (bytesOf "text/plain"))
    (bytesOf "Connection") (bytesOf "close")

/-- The first line, if it was sent already. -/
def startLine : Option Nat → List (BitVec 8)
  | none => []
  | some code => statusLine code

namespace Reply

def text : Reply → List (BitVec 8)
  | .head code _ => startLine code
  | .body code headers content =>
    statusLine code ++ headers.flatMap Response.headerLine ++ crlf ++ content

/-- The content begins. -/
def complete : Reply → Reply
  | .head code headers => .body (code.getD 200) (withDefaults (typed code headers) headers) []
  | reply => reply

def add (more : List (BitVec 8)) : Reply → Reply
  | .body code headers content => .body code headers (content ++ more)
  | reply => reply

def perform (reply : Reply) : Call → Reply
  | .set name value =>
    match reply with
    | .head code headers => .head code (addHeader headers name value)
    | reply => reply
  | .status code =>
    match reply with
    | .head none headers => .head (some code) headers
    | reply => reply
  | .print text => if text = [] then reply else reply.complete.add text
  | .write bytes => reply.complete.add bytes
  | .flush => reply
  | .stop => reply

/-- An answer that nobody started is that nothing was found. -/
def conclude (ended : Bool) : Reply → Reply
  | .head none headers =>
    if ended then (Reply.head none headers).complete
    else (Reply.head (some 404) headers).complete.add (statusText 404)
  | reply => reply.complete

end Reply

/-- The call neither keeps the connection nor sends an interim answer. -/
def Call.Plain : Call → Prop
  | .set name value =>
    ¬ (sameName name (bytesOf "Connection") ∧ sameName value (bytesOf "keep-alive"))
  | .status code => 200 ≤ code
  | _ => True

instance : (call : Call) → Decidable call.Plain
  | .set name value => inferInstanceAs (Decidable
      (¬ (sameName name (bytesOf "Connection") ∧ sameName value (bytesOf "keep-alive"))))
  | .status code => inferInstanceAs (Decidable (200 ≤ code))
  | .print _ => .isTrue trivial
  | .write _ => .isTrue trivial
  | .flush => .isTrue trivial
  | .stop => .isTrue trivial

end Reply

section Buffer

/-- More text was sent or is in the buffer, and nothing else is different. -/
def Response.Sends (res : Response) (text : List (BitVec 8)) (res' : Response) : Prop :=
  ∃ buffer stream,
    res' = { res with buffer, stream, bytesSent := res.bytesSent + text.length } ∧
      stream ++ buffer = res.stream ++ res.buffer ++ text

namespace Response

variable {res res' res'' : Response} {text text' : List (BitVec 8)}

theorem Sends.refl (res : Response) : res.Sends [] res :=
  ⟨res.buffer, res.stream, rfl, (List.append_nil _).symm⟩

theorem Sends.trans (h : res.Sends text res') (h' : res'.Sends text' res'') :
    res.Sends (text ++ text') res'' := by
  obtain ⟨buffer, stream, rfl, heq⟩ := h
  obtain ⟨buffer', stream', rfl, heq'⟩ := h'
  refine ⟨buffer', stream', ?_, ?_⟩
  · rw [List.length_append, Nat.add_assoc]
  · rw [heq', heq, List.append_assoc]

theorem Sends.separator_eq (h : res.Sends text res') : res'.separator = res.separator := by
  obtain ⟨buffer, stream, rfl, -⟩ := h
  rfl

theorem sends_put (hseparator : res.separator = []) (data : BitVec 8) :
    res.Sends [data] (res.put data) := by
  by_cases hfull : (res.buffer ++ [data]).length = outputBufferSize
  · refine ⟨[], res.stream ++ (res.buffer ++ [data]), ?_, ?_⟩
    · simp only [put, hfull, if_true, hseparator, List.append_nil]
      rfl
    · rw [List.append_nil, List.append_assoc]
  · refine ⟨res.buffer ++ [data], res.stream, ?_, ?_⟩
    · simp only [put, hfull, if_false]
      rfl
    · rw [List.append_assoc]

theorem sends_putAll (hseparator : res.separator = []) (text : List (BitVec 8)) :
    res.Sends text (res.putAll text) := by
  induction text generalizing res with
  | nil => exact .refl res
  | cons data text ih =>
    have hput := sends_put hseparator data
    exact hput.trans (ih (hput.separator_eq.trans hseparator))

theorem sends_flushBuf (hseparator : res.separator = []) : res.Sends [] res.flushBuf := by
  refine ⟨[], res.stream ++ res.buffer, ?_, ?_⟩
  · rw [flushBuf]
    split
    · rw [hseparator, List.append_nil]
      rfl
    · next hempty =>
      rw [ne_eq, not_not] at hempty
      rw [hempty, List.append_nil]
      cases res
      cases hempty
      rfl
  · simp only [List.append_nil]

theorem buffer_flushBuf (res : Response) : res.flushBuf.buffer = [] := by
  rw [flushBuf]
  split
  · rfl
  · next hempty => exact not_not.mp hempty

theorem foldl_headerLine (headers : List (List (BitVec 8) × List (BitVec 8))) (res : Response) :
    headers.foldl (fun res header => res.putAll (headerLine header)) res =
      res.putAll (headers.flatMap headerLine) := by
  induction headers generalizing res with
  | nil => rfl
  | cons header headers ih =>
    rw [List.foldl_cons, ih, List.flatMap_cons, putAll, putAll, putAll, List.foldl_append]

end Response

end Buffer

section Refinement

variable {res res' : Response} {reply : Reply} {text : List (BitVec 8)}

/-- What the flags of a response say about the part of the answer that was sent. -/
def Response.Phase (res : Response) : Reply → Prop
  | .head code headers =>
    res.headersSent = false ∧ res.statusSent = code.getD 0 ∧ (∀ c ∈ code, 200 ≤ c) ∧
      res.headers = headers ∧ res.contentTypeSet = typed code headers
  | .body code _ _ =>
    res.headersSent = true ∧ res.statusSent = code ∧ 200 ≤ code ∧ res.contentLengthSet = true

/-- Between two calls the response stands for the answer. -/
structure Response.Represents (res : Response) (reply : Reply) : Prop where
  sent : res.stream ++ res.buffer = reply.text
  bytesSent : res.bytesSent = reply.text.length
  sendingStatus : res.sendingStatus = false
  sendingHeaders : res.sendingHeaders = false
  keepAlive : res.keepAlive = false
  phase : res.Phase reply

namespace Response

theorem represents_new : new.Represents (.head none []) :=
  ⟨rfl, rfl, rfl, rfl, rfl, rfl, rfl, fun _ h => absurd h (Option.not_mem_none _), rfl, rfl⟩

theorem Represents.separator_eq (h : res.Represents reply) : res.separator = [] := by
  have hphase := h.phase
  cases reply with
  | head code headers => rw [separator, hphase.1, Bool.false_and, if_neg Bool.false_ne_true]
  | body code headers content =>
    rw [separator, hphase.2.2.2, Bool.not_true, Bool.and_false, if_neg Bool.false_ne_true]

/-- More of the content is sent. -/
theorem Represents.sends {code : Nat} {headers : List (List (BitVec 8) × List (BitVec 8))}
    {content : List (BitVec 8)} (h : res.Represents (.body code headers content))
    (hsends : res.Sends text res') : res'.Represents ((Reply.body code headers content).add text) := by
  obtain ⟨buffer, stream, rfl, heq⟩ := hsends
  have htext : ((Reply.body code headers content).add text).text =
      (Reply.body code headers content).text ++ text := by
    simp only [Reply.add, Reply.text, List.append_assoc]
  refine ⟨?_, ?_, h.sendingStatus, h.sendingHeaders, h.keepAlive, h.phase⟩
  · rw [htext, ← h.sent]
    exact heq
  · rw [htext, List.length_append, ← h.bytesSent]

theorem Represents.flushBuf (h : res.Represents reply) : res.flushBuf.Represents reply := by
  obtain ⟨buffer, stream, hflush, heq⟩ := sends_flushBuf h.separator_eq
  rw [hflush]
  rw [List.append_nil] at heq
  exact ⟨heq.trans h.sent, h.bytesSent, h.sendingStatus, h.sendingHeaders, h.keepAlive, h.phase⟩

/-- A header that leaves the decision about the connection as it was. -/
theorem set_eq {name value : List (BitVec 8)}
    (hconnection : sameName name (bytesOf "Connection") = true →
      sameName value (bytesOf "keep-alive") = res.keepAlive) : ∃ contentLengthSet,
    res.set name value =
      { res with
        headers := addHeader res.headers name value
        contentTypeSet := if maxHeaders ≤ res.headers.length then res.contentTypeSet
          else res.contentTypeSet || sameName name (bytesOf "Content-Type")
        contentLengthSet } ∧
      (res.contentLengthSet = true → contentLengthSet = true) := by
  have hkeepAlive : (if sameName name (bytesOf "Connection") then
      sameName value (bytesOf "keep-alive") else res.keepAlive) = res.keepAlive := by
    split
    · next hname => exact hconnection hname
    · rfl
  rw [set, addHeader, hkeepAlive]
  by_cases hfull : maxHeaders ≤ res.headers.length
  · simp only [if_pos hfull]
    exact ⟨res.contentLengthSet, rfl, id⟩
  · simp only [if_neg hfull]
    exact ⟨_, rfl, fun hset => by rw [hset, Bool.true_or]⟩

theorem typed_addHeader (code : Option Nat) (headers : List (List (BitVec 8) × List (BitVec 8)))
    (name value : List (BitVec 8)) : typed code (addHeader headers name value) =
      if maxHeaders ≤ headers.length then typed code headers
      else typed code headers || sameName name (bytesOf "Content-Type") := by
  rw [addHeader]
  split
  · rfl
  · simp only [typed, List.any_append, List.any_cons, List.any_nil, Bool.or_false]
    cases sameName name (bytesOf "Content-Type") <;> simp

theorem Represents.set (h : res.Represents reply) {name value : List (BitVec 8)}
    (hplain : (Call.set name value).Plain) :
    (res.set name value).Represents (reply.perform (.set name value)) := by
  obtain ⟨contentLengthSet, heq, hkept⟩ := @set_eq res name value (by
    intro hname
    rw [h.keepAlive, Bool.eq_false_iff]
    exact fun hvalue => hplain ⟨hname, hvalue⟩)
  have hphase := h.phase
  cases reply with
  | head code headers =>
    obtain ⟨hsent, hstatus, hcode, rfl, htyped⟩ := hphase
    refine ⟨?_, ?_, ?_, ?_, ?_, ?_⟩ <;> rw [heq]
    · exact h.sent
    · exact h.bytesSent
    · exact h.sendingStatus
    · exact h.sendingHeaders
    · exact h.keepAlive
    · refine ⟨hsent, hstatus, hcode, rfl, ?_⟩
      rw [typed_addHeader, htyped]
  | body code headers content =>
    obtain ⟨hsent, hstatus, hcode, hlength⟩ := hphase
    refine ⟨?_, ?_, ?_, ?_, ?_, ?_⟩ <;> rw [heq]
    · exact h.sent
    · exact h.bytesSent
    · exact h.sendingStatus
    · exact h.sendingHeaders
    · exact h.keepAlive
    · exact ⟨hsent, hstatus, hcode, hkept hlength⟩

theorem startStatus_eq (hheaders : res.headersSent = false) (code : Nat) : ∃ buffer stream,
    res.startStatus code =
      { res with
        statusSent := code, sendingStatus := true, buffer, stream
        bytesSent := res.bytesSent + (statusLine code).length } ∧
      stream ++ buffer = res.stream ++ res.buffer ++ statusLine code := by
  have hseparator : { res with statusSent := code, sendingStatus := true }.separator = [] := by
    rw [separator, hheaders, Bool.false_and, if_neg Bool.false_ne_true]
  obtain ⟨buffer, stream, heq, hsent⟩ := sends_putAll hseparator (statusLine code)
  exact ⟨buffer, stream, heq, hsent⟩

theorem beginHeaders_eq (hheaders : res.headersSent = false) (hstatus : res.statusSent ≠ 0) :
    ∃ buffer stream,
      res.beginHeaders =
        { res with
          sendingHeaders := true, buffer, stream
          bytesSent := res.bytesSent + (res.headers.flatMap headerLine).length } ∧
        stream ++ buffer = res.stream ++ res.buffer ++ res.headers.flatMap headerLine := by
  have hseparator : { res with sendingHeaders := true }.separator = [] := by
    rw [separator, hheaders, Bool.false_and, if_neg Bool.false_ne_true]
  obtain ⟨buffer, stream, heq, hsent⟩ := sends_putAll hseparator (res.headers.flatMap headerLine)
  refine ⟨buffer, stream, ?_, hsent⟩
  rw [beginHeaders, if_neg hstatus, foldl_headerLine]
  exact heq

theorem endHeaders_eq (hheaders : res.headersSent = false) : ∃ stream,
    res.endHeaders =
      { res with
        sendingHeaders := false, headersSent := true, buffer := [], stream
        bytesSent := res.bytesSent + crlf.length } ∧
      stream = res.stream ++ res.buffer ++ crlf := by
  have hseparator : res.separator = [] := by
    rw [separator, hheaders, Bool.false_and, if_neg Bool.false_ne_true]
  have hput := sends_putAll hseparator crlf
  obtain ⟨buffer, stream, heq, hsent⟩ :=
    hput.trans (sends_flushBuf (hput.separator_eq.trans hseparator))
  have hbuffer := buffer_flushBuf (res.putAll crlf)
  rw [heq] at hbuffer
  obtain rfl : buffer = [] := hbuffer
  simp only [List.append_nil] at heq hsent
  refine ⟨stream, ?_, hsent⟩
  rw [endHeaders, heq]

/-- The defaults behind the type of the content. -/
theorem setClose_eq (hkeepAlive : res.keepAlive = false) : ∃ contentTypeSet,
    (let r := if res.keepAlive && !res.contentLengthSet then
        res.set (bytesOf "Transfer-Encoding") (bytesOf "chunked") else res
      if r.keepAlive then r
      else { r with contentLengthSet := true }.set (bytesOf "Connection") (bytesOf "close")) =
      { res with
        headers := addHeader res.headers (bytesOf "Connection") (bytesOf "close")
        contentTypeSet, contentLengthSet := true } := by
  have hvalue : sameName (bytesOf "close") (bytesOf "keep-alive") = false := by decide +kernel
  obtain ⟨lengthSet, heq, hkept⟩ := @set_eq { res with contentLengthSet := true }
    (bytesOf "Connection") (bytesOf "close") fun _ => hvalue.trans hkeepAlive.symm
  obtain rfl : lengthSet = true := hkept rfl
  have hchunked : (if res.keepAlive && !res.contentLengthSet then
      res.set (bytesOf "Transfer-Encoding") (bytesOf "chunked") else res) = res := by
    rw [hkeepAlive, Bool.false_and, if_neg Bool.false_ne_true]
  simp only [hchunked]
  rw [if_neg (Bool.not_eq_true _ ▸ hkeepAlive)]
  exact ⟨_, heq⟩

theorem setDefaults_eq (hkeepAlive : res.keepAlive = false) : ∃ contentTypeSet,
    res.setDefaults =
      { res with
        headers := withDefaults res.contentTypeSet res.headers
        contentTypeSet, contentLengthSet := true } := by
  rw [setDefaults, withDefaults]
  split
  · exact setClose_eq hkeepAlive
  · have hname : sameName (bytesOf "Content-Type") (bytesOf "Connection") = false := by
      decide +kernel
    obtain ⟨lengthSet, htyped, -⟩ := @set_eq res (bytesOf "Content-Type") (bytesOf "text/plain")
      fun h => absurd (hname.symm.trans h) Bool.false_ne_true
    rw [htyped]
    exact setClose_eq hkeepAlive

theorem Represents.status (h : res.Represents reply) {code : Nat} (hcode : 200 ≤ code) :
    (res.status code).Represents (reply.perform (.status code)) := by
  have hphase := h.phase
  cases reply with
  | body sent headers content =>
    obtain ⟨-, hstatus, hsent, -⟩ := hphase
    rw [Response.status, if_pos (by omega)]
    exact h
  | head sent headers =>
    obtain ⟨hheaders, hstatus, hsent, hset, htyped⟩ := hphase
    cases sent with
    | some c =>
      have hc := hsent c rfl
      rw [Option.getD_some] at hstatus
      rw [Response.status, if_pos (by omega)]
      exact h
    | none =>
      obtain ⟨buffer, stream, heq, hstream⟩ := startStatus_eq hheaders code
      have hbytes : res.bytesSent + (statusLine code).length = (statusLine code).length := by
        rw [h.bytesSent]
        exact Nat.zero_add _
      have htext : stream ++ buffer = statusLine code := by
        rw [hstream, h.sent]
        rfl
      have hcodes : ∀ c ∈ some code, 200 ≤ c := fun c hc => Option.mem_some.mp hc ▸ hcode
      rw [Option.getD_none] at hstatus
      rw [Response.status, if_neg (not_not.mpr hstatus)]
      simp only [heq, if_neg (Nat.not_lt.mpr hcode)]
      by_cases hempty : code = 204 ∨ code = 304
      · rw [if_pos hempty]
        refine ⟨htext, hbytes, rfl, h.sendingHeaders, h.keepAlive, hheaders, rfl, hcodes, hset, ?_⟩
        rcases hempty with rfl | rfl <;> simp [typed]
      · rw [if_neg hempty]
        refine ⟨htext, hbytes, rfl, h.sendingHeaders, h.keepAlive, hheaders, rfl, hcodes, hset, ?_⟩
        rw [not_or] at hempty
        simpa [typed, hempty.1, hempty.2] using htyped

/-- The headers and the empty line behind them, when the status line was sent already. -/
theorem represents_body {code : Nat} (hcode : 200 ≤ code)
    (hsent : res.stream ++ res.buffer = statusLine code)
    (hbytes : res.bytesSent = (statusLine code).length) (hstatus : res.statusSent = code)
    (hheaders : res.headersSent = false) (hsending : res.sendingStatus = false)
    (hkeepAlive : res.keepAlive = false) (hlength : res.contentLengthSet = true) :
    res.beginHeaders.endHeaders.Represents (.body code res.headers []) := by
  obtain ⟨buffer, stream, hbegin, hbegun⟩ := beginHeaders_eq hheaders (by omega)
  obtain ⟨stream', hend, hended⟩ := @endHeaders_eq
    { res with
      sendingHeaders := true, buffer, stream
      bytesSent := res.bytesSent + (res.headers.flatMap headerLine).length } hheaders
  have htext : (Reply.body code res.headers []).text =
      statusLine code ++ res.headers.flatMap headerLine ++ crlf := List.append_nil _
  rw [hbegin, hend]
  refine ⟨?_, ?_, hsending, rfl, hkeepAlive, rfl, hstatus, hcode, hlength⟩
  · rw [htext, List.append_nil, hended, ← hsent, ← hbegun]
  · rw [htext, List.length_append, List.length_append, ← hbytes]

theorem beginHeaders_of_zero (hheaders : res.headersSent = false) (hstatus : res.statusSent = 0) :
    ∃ buffer stream, res.beginHeaders =
        { res with
          statusSent := 200, sendingStatus := false, buffer, stream
          bytesSent := res.bytesSent + (statusLine 200).length }.beginHeaders ∧
      stream ++ buffer = res.stream ++ res.buffer ++ statusLine 200 := by
  obtain ⟨buffer, stream, hstart, hstarted⟩ := startStatus_eq hheaders 200
  refine ⟨buffer, stream, ?_, hstarted⟩
  rw [beginHeaders, if_pos hstatus, hstart]
  rfl

theorem Represents.printHeaders {code : Option Nat}
    {headers : List (List (BitVec 8) × List (BitVec 8))}
    (h : res.Represents (.head code headers)) :
    res.printHeaders.Represents (Reply.head code headers).complete := by
  obtain ⟨hheaders, hstatus, hcode, rfl, htyped⟩ := h.phase
  obtain ⟨typeSet, hdefaults⟩ := setDefaults_eq h.keepAlive
  rw [Response.printHeaders, hdefaults, Reply.complete, ← htyped]
  cases code with
  | some code =>
    exact represents_body (hcode code rfl) h.sent h.bytesSent hstatus hheaders h.sendingStatus
      h.keepAlive rfl
  | none =>
    obtain ⟨buffer, stream, hbegin, hbegun⟩ := @beginHeaders_of_zero
      { res with
        headers := withDefaults res.contentTypeSet res.headers
        contentTypeSet := typeSet, contentLengthSet := true } hheaders hstatus
    rw [hbegin]
    refine represents_body (Nat.le_refl 200) ?_ ?_ rfl hheaders rfl h.keepAlive rfl
    · rw [hbegun, h.sent]
      rfl
    · rw [h.bytesSent]
      exact Nat.zero_add _

theorem Represents.prepared (h : res.Represents reply) :
    res.prepared.Represents reply.complete := by
  have hphase := h.phase
  rw [Response.prepared, h.sendingStatus, h.sendingHeaders]
  cases reply with
  | head code headers =>
    rw [hphase.1]
    exact h.printHeaders
  | body code headers content =>
    rw [hphase.1]
    exact h

theorem exists_complete (reply : Reply) :
    ∃ code headers content, reply.complete = .body code headers content := by
  cases reply with
  | head code headers => exact ⟨_, _, _, rfl⟩
  | body code headers content => exact ⟨_, _, _, rfl⟩

/-- A response whose headers were sent. -/
theorem prepared_of_body {code : Nat} {headers : List (List (BitVec 8) × List (BitVec 8))}
    {content : List (BitVec 8)} (h : res.Represents (.body code headers content)) :
    res.prepared = res := by
  rw [Response.prepared, h.phase.1]
  rfl

theorem Represents.print_body {code : Nat} {headers : List (List (BitVec 8) × List (BitVec 8))}
    {content : List (BitVec 8)} (h : res.Represents (.body code headers content))
    (text : List (BitVec 8)) :
    (res.print text).Represents ((Reply.body code headers content).add text) := by
  induction text generalizing res content with
  | nil =>
    rw [Reply.add, List.append_nil]
    exact h
  | cons data text ih =>
    have hput : (res.write data).Represents ((Reply.body code headers content).add [data]) := by
      rw [Response.write, prepared_of_body h]
      exact h.sends (sends_put h.separator_eq data)
    have hrest := ih hput
    rwa [Reply.add, List.append_assoc, List.singleton_append] at hrest

theorem Represents.print (h : res.Represents reply) {text : List (BitVec 8)} (hempty : text ≠ []) :
    (res.print text).Represents (reply.complete.add text) := by
  obtain ⟨code, headers, content, hcomplete⟩ := exists_complete reply
  have hprepared := h.prepared
  obtain ⟨data, text, rfl⟩ := List.exists_cons_of_ne_nil hempty
  have hprint : res.print (data :: text) = res.prepared.print (data :: text) := by
    rw [hcomplete] at hprepared
    rw [Response.print, Response.print, List.foldl_cons, List.foldl_cons, Response.write,
      Response.write, prepared_of_body hprepared]
  rw [hprint]
  rw [hcomplete] at hprepared ⊢
  exact hprepared.print_body (data :: text)

theorem Represents.writeAll (h : res.Represents reply) (bytes : List (BitVec 8)) :
    (res.writeAll bytes).Represents (reply.complete.add bytes) := by
  obtain ⟨code, headers, content, hcomplete⟩ := exists_complete reply
  have hflushed := h.prepared.flushBuf
  rw [hcomplete] at hflushed ⊢
  refine hflushed.sends
    ⟨res.prepared.flushBuf.buffer, res.prepared.flushBuf.stream ++ bytes, ?_, ?_⟩
  · rw [Response.writeAll]
    simp only [hflushed.separator_eq, List.append_nil]
  · rw [buffer_flushBuf, List.append_nil, List.append_nil]

/-- Every call does to the answer what it says. -/
theorem Represents.perform (h : res.Represents reply) {call : Call} (hplain : call.Plain) :
    (res.perform call).Represents (reply.perform call) := by
  cases call with
  | set name value => exact h.set hplain
  | status code => exact h.status hplain
  | print text =>
    rw [Reply.perform]
    split
    · next hempty =>
      rw [hempty]
      exact h
    · next hempty => exact h.print hempty
  | write bytes => exact h.writeAll bytes
  | flush => exact h.flushBuf
  | stop => exact ⟨h.sent, h.bytesSent, h.sendingStatus, h.sendingHeaders, h.keepAlive, h.phase⟩

theorem Represents.performAll (h : res.Represents reply) {calls : List Call}
    (hplain : ∀ call ∈ calls, call.Plain) :
    (calls.foldl Response.perform res).Represents (calls.foldl Reply.perform reply) := by
  induction calls generalizing res reply with
  | nil => exact h
  | cons call calls ih =>
    rw [List.foldl_cons, List.foldl_cons]
    exact ih (h.perform (hplain call List.mem_cons_self))
      fun c hc => hplain c (List.mem_cons_of_mem call hc)

theorem Represents.conclude (h : res.Represents reply) :
    res.conclude.Represents (reply.conclude res.ended) ∧ res.conclude.buffer = [] := by
  refine ⟨?_, buffer_flushBuf _⟩
  have hphase := h.phase
  rw [Response.conclude]
  cases reply with
  | body code headers content =>
    obtain ⟨hheaders, hstatus, hcode, -⟩ := hphase
    rw [if_neg (by omega), if_neg (by rw [hheaders]; decide)]
    exact h.flushBuf
  | head code headers =>
    obtain ⟨hheaders, hstatus, hcode, -, -⟩ := hphase
    cases code with
    | some code =>
      have hpos := hcode code rfl
      rw [Option.getD_some] at hstatus
      rw [if_neg (by omega), if_pos hheaders]
      exact h.printHeaders.flushBuf
    | none =>
      cases hended : res.ended with
      | true =>
        rw [if_neg (by simp), if_pos hheaders]
        exact h.printHeaders.flushBuf
      | false =>
        rw [if_pos ⟨hstatus, rfl⟩, sendStatus, if_pos (by decide)]
        exact ((h.status (by decide : 200 ≤ 404)).printHeaders.print_body (statusText 404)).flushBuf

end Response

section Ended

variable (res : Response)

@[simp] theorem Response.ended_put (data : BitVec 8) : (res.put data).ended = res.ended := by
  rw [put]
  split <;> rfl

@[simp] theorem Response.ended_putAll (text : List (BitVec 8)) :
    (res.putAll text).ended = res.ended := by
  induction text generalizing res with
  | nil => rfl
  | cons data text ih => exact (ih (res.put data)).trans (res.ended_put data)

@[simp] theorem Response.ended_flushBuf : res.flushBuf.ended = res.ended := by
  rw [flushBuf]
  split <;> rfl

@[simp] theorem Response.ended_set (name value : List (BitVec 8)) :
    (res.set name value).ended = res.ended := by
  rw [set]
  split <;> rfl

@[simp] theorem Response.ended_setDefaults : res.setDefaults.ended = res.ended := by
  simp only [setDefaults]
  split_ifs <;> simp

@[simp] theorem Response.ended_startStatus (code : Nat) :
    (res.startStatus code).ended = res.ended := by
  simp [startStatus]

@[simp] theorem Response.ended_beginHeaders : res.beginHeaders.ended = res.ended := by
  rw [beginHeaders, foldl_headerLine]
  split_ifs <;> simp

@[simp] theorem Response.ended_endHeaders : res.endHeaders.ended = res.ended := by
  simp [endHeaders]

@[simp] theorem Response.ended_status (code : Nat) : (res.status code).ended = res.ended := by
  rw [status]
  split_ifs <;> simp

@[simp] theorem Response.ended_prepared : res.prepared.ended = res.ended := by
  rw [prepared]
  split_ifs <;> simp [printHeaders]

@[simp] theorem Response.ended_print (text : List (BitVec 8)) :
    (res.print text).ended = res.ended := by
  induction text generalizing res with
  | nil => rfl
  | cons data text ih => exact (ih (res.write data)).trans (by simp [write])

theorem Response.ended_performAll (calls : List Call) :
    (calls.foldl perform res).ended = (res.ended || decide (.stop ∈ calls)) := by
  induction calls generalizing res with
  | nil => exact (Bool.or_false _).symm
  | cons call calls ih =>
    rw [List.foldl_cons, ih]
    cases call <;> simp [perform, writeAll]

end Ended

/-- The client receives what the calls say, and nothing is left in the buffer. -/
theorem conclude_performAll {calls : List Call} (hplain : ∀ call ∈ calls, call.Plain) :
    let res := (calls.foldl Response.perform .new).conclude
    res.stream =
        ((calls.foldl Reply.perform (.head none [])).conclude (.stop ∈ calls)).text ∧
      res.buffer = [] := by
  have hrepresents := Response.represents_new.performAll hplain
  obtain ⟨hconcluded, hbuffer⟩ := hrepresents.conclude
  rw [Response.ended_performAll] at hconcluded
  refine ⟨?_, hbuffer⟩
  have hsent := hconcluded.sent
  rwa [hbuffer, List.append_nil] at hsent

/-- An answer in three calls: the type of the content has its default, and the connection ends. -/
theorem conclude_performAll_example :
    (([.set (bytesOf "Server") (bytesOf "S"), .print (bytesOf "ab"), .write (bytesOf "c")] :
        List Call).foldl Response.perform .new).conclude.stream =
      bytesOf "HTTP/1.1 200 OK\r\nServer: S\r\nContent-Type: text/plain\r\nConnection: close\r\n\r\nabc" := by
  refine (@conclude_performAll
    [.set (bytesOf "Server") (bytesOf "S"), .print (bytesOf "ab"), .write (bytesOf "c")]
    (by decide +kernel)).1.trans ?_
  decide +kernel

end Refinement

section Interim

theorem Response.Represents.setAll {res : Response}
    {headers more : List (List (BitVec 8) × List (BitVec 8))}
    (h : res.Represents (.head none headers)) (hroom : headers.length + more.length ≤ maxHeaders)
    (hplain : ∀ header ∈ more, (Call.set header.1 header.2).Plain) :
    ((more.map fun header => Call.set header.1 header.2).foldl Response.perform res).Represents
      (.head none (headers ++ more)) := by
  induction more generalizing res headers with
  | nil =>
    rw [List.append_nil]
    exact h
  | cons header more ih =>
    rw [List.forall_mem_cons] at hplain
    rw [List.length_cons] at hroom
    have hset := h.set hplain.1
    rw [Reply.perform, addHeader, if_neg (by omega)] at hset
    have hrest := ih hset (by rw [List.length_append, List.length_singleton]; omega) hplain.2
    rwa [List.append_assoc, List.singleton_append] at hrest

/-- An interim status is sent with the headers, and nothing is sent by default. -/
theorem Response.Represents.interim {res : Response}
    {headers : List (List (BitVec 8) × List (BitVec 8))} (h : res.Represents (.head none headers))
    {code : Nat} (hpos : code ≠ 0) (hcode : code < 200) :
    (([.status code, .flush, .stop] : List Call).foldl Response.perform res).conclude.stream =
      statusLine code ++ headers.flatMap headerLine ++ crlf := by
  obtain ⟨hheaders, hstatus, -, rfl, -⟩ := h.phase
  rw [Option.getD_none] at hstatus
  obtain ⟨buffer₁, stream₁, hstart, hstarted⟩ := startStatus_eq hheaders code
  obtain ⟨buffer₂, stream₂, hbegin, hbegun⟩ := @beginHeaders_eq
    { res with
      statusSent := code, sendingStatus := true, buffer := buffer₁, stream := stream₁
      bytesSent := res.bytesSent + (statusLine code).length } hheaders hpos
  obtain ⟨stream, hend, hended⟩ := @endHeaders_eq
    { res with
      statusSent := code, sendingStatus := true, buffer := buffer₂, stream := stream₂
      bytesSent := res.bytesSent + (statusLine code).length + (res.headers.flatMap headerLine).length
      sendingHeaders := true } hheaders
  have hsent : stream = statusLine code ++ res.headers.flatMap headerLine ++ crlf := by
    rw [hended, hbegun, hstarted, h.sent]
    rfl
  have hinterim : res.status code =
      { res with
        statusSent := 0, sendingStatus := false, sendingHeaders := false, headersSent := true
        buffer := [], stream
        bytesSent := res.bytesSent + (statusLine code).length +
          (res.headers.flatMap headerLine).length + crlf.length } := by
    rw [Response.status, if_neg (not_not.mpr hstatus)]
    simp only [hstart, hbegin, hend, if_pos hcode]
  rw [← hsent]
  simp only [List.foldl_cons, List.foldl_nil, Response.perform, hinterim]
  rfl

end Interim

end Lucidac.Web
