import Lucidac.Framework.JsonSerialize
import Lucidac.Net.Auth
import Lucidac.Protocol.StreamLogger

/-!
# Answers to messages

A message is handed to the handler that is registered for its type.  Handlers either fill a
document, which is serialised by the JSON library, or write their part of the answer while the
envelope around it is streamed.  A code other than zero is logged, and the serial console is a sink
of the log.
-/

namespace Lucidac.Protocol

open Framework.JsonText Net

/-- An object in the memory of the JSON library. -/
structure Document where
  members : List (List Char × JsonTree)
  proper : properMembers members

def Document.empty : Document := ⟨[], trivial⟩

/-- `msg_out["error"] = text` on an empty object. -/
def Document.error (text : String) : Document :=
  ⟨[("error".toList, .string text.toList)], trivial, trivial⟩

/-- `msg_out["error"]`, which is null if there is none. -/
def Document.errorMember (msgOut : Document) : JsonTree :=
  (msgOut.members.lookup "error".toList).getD .null

/-- The calls a streaming handler can make on the writer. -/
inductive Call where
  | beginDict | endDict | beginList | endList | beginStr | endStr | null | checkComma | needsComma
  | key (str : List Char)
  | val (str : List Char)
  | valBool (b : Bool)
  | valNumber (literal : List Char)
  | json (str : List Char)

def Call.run (s : StreamingJson) : Call → StreamingJson
  | .beginDict => s.beginDict
  | .endDict => s.endDict
  | .beginList => s.beginList
  | .endList => s.endList
  | .beginStr => s.beginStr
  | .endStr => s.endStr
  | .null => s.null
  | .checkComma => s.checkComma
  | .needsComma => s.requireComma
  | .key str => s.key str
  | .val str => s.val str
  | .valBool b => s.valBool b
  | .valNumber literal => s.valNumber literal
  | .json str => s.json str

def runCalls (calls : List Call) (s : StreamingJson) : StreamingJson := calls.foldl Call.run s

def notImplemented : Int := -99

/-- What `LOG_ALWAYS` puts on the output: one line, with the number of lines before it, if the
output is a sink of the log. -/
def logAlways (lineCount : Option (BitVec 16)) (millis : BitVec 32) (text : String) : List Char :=
  match lineCount with
  | none => []
  | some lineCount =>
    ({ StreamLogger.initial with lineCount }.println millis text.toList).target.output

/-- Every code but zero is logged. -/
def logCode (lineCount : Option (BitVec 16)) (millis : BitVec 32) (code : Int) (text : String) :
    List Char :=
  if code ≠ 0 then logAlways lineCount millis text else []

/-- The three overloads of `handle`; each returns its code. -/
structure MessageHandler where
  handle : Json → Document → Int × Document
  handleWithContext : Json → Document → AuthentificationContext → Int × Document
  handleStreaming : Json → Int × List Call

abbrev HandlerRegistry := List (String × MessageHandler × SecurityLevel)

/-- How a message is answered. -/
inductive Answer where
  | document (code : Int) (msgOut : Document)
  | streaming (code : Int) (calls : List Call)

section Message

variable (lib : Platform.JsonLibrary) (serializeJson : JsonTree → List Char)
variable (registry : HandlerRegistry) (g : Gatekeeper) (context : AuthentificationContext)
variable (lineCount : Option (BitVec 16)) (millis : BitVec 32)

/-- Selects the message handler and runs it. -/
def answer (msgType : String) (msgIn : Json) : Answer :=
  match registry.lookup msgType with
  | none =>
    .document (-10) (.error "Unknown message type. Try this message: \x7b'type':'help'\x7d.")
  | some (msgHandler, requiredClearance) =>
    if !context.canDo g requiredClearance then
      .document (-20) (.error "User is not authorized for action")
    else
      let first := msgHandler.handle msgIn .empty
      if first.1 ≠ notImplemented then .document first.1 first.2
      else
        let second := msgHandler.handleWithContext msgIn first.2 context
        if second.1 ≠ notImplemented then .document second.1 second.2
        else
          let third := msgHandler.handleStreaming msgIn
          .streaming third.1 third.2

/-- The envelope as a document.  An error replaces the message. -/
def envelopeOut (msgId msgType : String) (code : Int) (msgOut : Document) (perf : Option Nat) :
    JsonTree :=
  .object ([("id".toList, .string msgId.toList), ("type".toList, .string msgType.toList),
    if code ≠ 0 then ("error".toList, msgOut.errorMember)
    else ("msg".toList, .object msgOut.members),
    ("code".toList, .number (intText code))] ++
    (perf.map fun us => ("perf_handle_message_time_us".toList,
      JsonTree.number (intText us))).toList)

/-- The envelope as a stream.  A handler that is not implemented is assumed to have written
nothing. -/
def envelopeAndMsgOut (msgId msgType : String) (code : Int) (calls : List Call)
    (perf : Option Nat) : StreamingJson :=
  let s := StreamingJson.empty.beginDict
  let s := s.kv "id".toList msgId.toList
  let s := s.kv "type".toList msgType.toList
  let s := runCalls calls (s.key "msg".toList)
  let s := if code = notImplemented then s.beginDict.endDict else s
  let s := s.print (logCode lineCount millis code "Error while handling streaming message.")
  let s := s.kvNumber "code".toList (intText code)
  let s := match perf with
    | some us => s.kvNumber "perf_handle_message_time_us".toList (intText us)
    | none => s
  s.endDict

/-- `handleMessage`: what is written to the output.  The time is what a performance trace would
report, and `millis` is when something is logged. -/
def handleMessage (envelopeIn : Json) (handleMessageTimeUs : Nat) : List Char :=
  let msgId := lib.asStdString (envelopeIn.member "id")
  let msgType := lib.asStdString (envelopeIn.member "type")
  let perf := if (envelopeIn.member "perf_trace").boolOr false then some handleMessageTimeUs
    else none
  match answer registry g context msgType (envelopeIn.member "msg") with
  | .document code msgOut =>
    logCode lineCount millis code "Error while handling message." ++
      serializeJson (envelopeOut msgId msgType code msgOut perf)
  | .streaming code calls =>
    (envelopeAndMsgOut lineCount millis msgId msgType code calls perf).output

end Message

/-! ### What an answer has to be -/

/-- One JSON object that carries the identifier, the type and the code. -/
def Answers (text : List Char) (msgId msgType : String) (code : Int) : Prop :=
  ∃ members, Denotes text (.object members) ∧
    HasMember members "id" (.string msgId.toList) ∧
    HasMember members "type" (.string msgType.toList) ∧
    HasMember members "code" (.number (intText code))

/-- The code of the first overload that is implemented. -/
def MessageHandler.result (h : MessageHandler) (msgIn : Json) (context : AuthentificationContext) :
    Int :=
  let first := h.handle msgIn .empty
  let second := h.handleWithContext msgIn first.2 context
  if first.1 ≠ notImplemented then first.1
  else if second.1 ≠ notImplemented then second.1
  else (h.handleStreaming msgIn).1

def resultCode (registry : HandlerRegistry) (g : Gatekeeper) (context : AuthentificationContext)
    (msgType : String) (msgIn : Json) : Int :=
  match registry.lookup msgType with
  | none => -10
  | some (handler, clearance) =>
    if context.canDo g clearance then handler.result msgIn context else -20

/-- A streaming handler writes one value, or nothing when it is not implemented. -/
def MessageHandler.WritesOneValue (h : MessageHandler) (msgIn : Json) : Prop :=
  let (code, calls) := h.handleStreaming msgIn
  if code = notImplemented then (runCalls calls StreamingJson.empty).output = []
  else ∃ value, Denotes (runCalls calls StreamingJson.empty).output value

section Calls

/-- Calls only append to the output, and the output does not influence them. -/
theorem Call.run_append (call : Call) (needed : Bool) (output : List Char) :
    call.run ⟨needed, output⟩ =
      { needsComma := (call.run ⟨needed, []⟩).needsComma
        output := output ++ (call.run ⟨needed, []⟩).output } := by
  cases call <;> cases needed <;>
    simp [Call.run, StreamingJson.beginDict, StreamingJson.endDict, StreamingJson.beginList,
      StreamingJson.endList, StreamingJson.beginStr, StreamingJson.endStr, StreamingJson.null,
      StreamingJson.checkComma, StreamingJson.requireComma, StreamingJson.key, StreamingJson.val,
      StreamingJson.valBool, StreamingJson.valNumber, StreamingJson.json, StreamingJson.print]

theorem runCalls_append (calls : List Call) (needed : Bool) (output : List Char) :
    runCalls calls ⟨needed, output⟩ =
      { needsComma := (runCalls calls ⟨needed, []⟩).needsComma
        output := output ++ (runCalls calls ⟨needed, []⟩).output } := by
  induction calls generalizing needed output with
  | nil => simp [runCalls]
  | cons call calls ih =>
    have hrun := call.run_append needed output
    simp only [runCalls, List.foldl_cons] at ih ⊢
    rw [hrun, ih]
    have hfirst := ih (call.run ⟨needed, []⟩).needsComma (call.run ⟨needed, []⟩).output
    simp [hfirst]

end Calls

section Log

variable {lineCount : Option (BitVec 16)} {millis : BitVec 32} {code : Int} {text : String}

theorem logCode_eq_nil (h : lineCount = none ∨ code = 0) :
    logCode lineCount millis code text = [] := by
  rw [logCode]
  rcases h with rfl | rfl
  · exact ite_self _
  · exact if_neg (by simp)

/-- The log puts an object on a line of its own on the output. -/
theorem logCode_line (millis : BitVec 32) (text : String) (h : ¬ (lineCount = none ∨ code = 0))
    (htext : text.toList.all isPrintable = true) :
    ∃ count, logCode lineCount millis code text =
      lineText count millis text.toList ++ ['\r', '\n'] := by
  obtain ⟨hcount, hcode⟩ := not_or.mp h
  obtain ⟨count, rfl⟩ := Option.ne_none_iff_exists'.mp hcount
  refine ⟨count, ?_⟩
  rw [logCode, if_pos hcode, logAlways, println_eq rfl htext]
  rfl

/-- Nothing that is put behind a line of the log makes one document of them. -/
theorem not_denotes_lineText {count : BitVec 16} {raw answer : List Char} {value value' : JsonTree}
    (hraw : Plain raw) (hanswer : Denotes answer value) :
    ¬ Denotes (lineText count millis raw ++ ['\r', '\n'] ++ answer) value' := by
  rintro ⟨fuel, rest, hparse, hrest⟩
  have hline : Denotes (lineText count millis raw) _ :=
    LogEntry.denotes_text (e := ⟨count, millis, raw⟩) hraw
  rw [List.append_assoc] at hparse
  obtain ⟨-, hleft⟩ := hline.eq_of_some (delimited_cons rfl) hparse
  have hblank : skipSpace (['\r', '\n'] ++ answer) = skipSpace answer := rfl
  obtain ⟨fuel', rest', hanswer, -⟩ := hanswer
  rw [parseValue_nil (hblank.symm.trans (hleft.symm.trans hrest))] at hanswer
  cases hanswer

end Log

section Streaming

variable {lineCount : Option (BitVec 16)} {millis : BitVec 32}
variable {msgId msgType : String} {code : Int} {calls : List Call} {perf : Option Nat}

/-- What the handler's part comes to, and whether a comma follows. -/
def streamedMsg (code : Int) (calls : List Call) : List Char :=
  if code = notImplemented then (runCalls calls StreamingJson.empty).output ++ ['{', '}']
  else (runCalls calls StreamingJson.empty).output

def commaFollows (code : Int) (calls : List Call) : Bool :=
  code = notImplemented || (runCalls calls StreamingJson.empty).needsComma

def perfMembers (perf : Option Nat) : List Member :=
  (perf.map fun us =>
    ⟨"perf_handle_message_time_us".toList, intText us, .number (intText us)⟩).toList

/-- The code and, when asked for, the time. -/
def codeText (code : Int) (perf : Option Nat) : List Char :=
  memberText "code".toList (intText code) ++
    (perfMembers perf).flatMap fun m => ',' :: memberText m.key m.text

/-- The envelope up to the handler's part. -/
theorem envelope_head :
    ((StreamingJson.empty.beginDict.kv "id".toList msgId.toList).kv "type".toList
        msgType.toList).key "msg".toList =
      { needsComma := false
        output := '{' :: memberText "id".toList ('"' :: (cStr msgId.toList ++ '"' :: ',' ::
          memberText "type".toList ('"' :: (cStr msgType.toList ++ '"' :: ',' ::
            memberText "msg".toList [])))) } := by
  have hplain : Plain "id".toList ∧ Plain "type".toList ∧ Plain "msg".toList := by decide
  simp only [StreamingJson.kv, key_eq hplain.1, key_eq hplain.2.1, key_eq hplain.2.2, val_eq_cStr]
  simp [StreamingJson.empty, StreamingJson.beginDict, StreamingJson.print, commaText, memberText]

/-- After the handler's part and, if there is none, the empty object. -/
theorem envelope_msg (head : List Char) :
    (if code = notImplemented then (runCalls calls ⟨false, head⟩).beginDict.endDict
      else runCalls calls ⟨false, head⟩) =
      { needsComma := commaFollows code calls, output := head ++ streamedMsg code calls } := by
  rw [runCalls_append]
  by_cases hcode : code = notImplemented
  · simp [hcode, commaFollows, streamedMsg, StreamingJson.beginDict, StreamingJson.endDict,
      StreamingJson.print, StreamingJson.requireComma, StreamingJson.empty]
  · simp [hcode, commaFollows, streamedMsg, StreamingJson.empty]

theorem envelopeAndMsgOut_output :
    (envelopeAndMsgOut lineCount millis msgId msgType code calls perf).output =
      '{' :: memberText "id".toList ('"' :: (cStr msgId.toList ++ '"' :: ',' ::
        memberText "type".toList ('"' :: (cStr msgType.toList ++ '"' :: ',' ::
          memberText "msg".toList (streamedMsg code calls ++
            (logCode lineCount millis code "Error while handling streaming message." ++
              (commaText (commaFollows code calls) ++ (codeText code perf ++ ['}'])))))))) := by
  have hcode : Plain "code".toList := by decide
  have hperf : Plain "perf_handle_message_time_us".toList := by decide
  simp only [envelopeAndMsgOut, envelope_head, envelope_msg, kvNumber_eq hcode]
  cases perf with
  | none =>
    simp [StreamingJson.endDict, StreamingJson.print, StreamingJson.requireComma, codeText,
      perfMembers, memberText]
  | some us =>
    simp only [kvNumber_eq hperf]
    simp [StreamingJson.endDict, StreamingJson.print, StreamingJson.requireComma, codeText,
      perfMembers, memberText, commaText]

def envelopeMembers (msgId msgType : String) (code : Int) (calls : List Call) (value : JsonTree)
    (perf : Option Nat) : List Member :=
  [⟨"id".toList, '"' :: (msgId.toList ++ ['"']), .string msgId.toList⟩,
    ⟨"type".toList, '"' :: (msgType.toList ++ ['"']), .string msgType.toList⟩,
    ⟨"msg".toList, streamedMsg code calls, value⟩,
    ⟨"code".toList, intText code, .number (intText code)⟩] ++ perfMembers perf

theorem envelopeAndMsgOut_members (hid : Plain msgId.toList) (htype : Plain msgType.toList)
    (hcomma : commaFollows code calls = true) (hlog : lineCount = none ∨ code = 0)
    (value : JsonTree) :
    (envelopeAndMsgOut lineCount millis msgId msgType code calls perf).output =
      '{' :: (List.intercalate [','] ((envelopeMembers msgId msgType code calls value perf).map
        fun m => memberText m.key m.text) ++ ['}']) := by
  rw [envelopeAndMsgOut_output, cStr_of_plain hid, cStr_of_plain htype, hcomma,
    logCode_eq_nil hlog]
  cases perf with
  | none =>
    simp [envelopeMembers, perfMembers, codeText, memberText, commaText,
      List.intercalate_cons_cons]
  | some us =>
    simp [envelopeMembers, perfMembers, codeText, memberText, commaText,
      List.intercalate_cons_cons]

/-- With plain identifiers and the comma in its place the stream is the expected object. -/
theorem answers_of_plain (hid : Plain msgId.toList) (htype : Plain msgType.toList)
    (hcomma : commaFollows code calls = true) (hlog : lineCount = none ∨ code = 0)
    {value : JsonTree} (hmsg : Denotes (streamedMsg code calls) value) :
    Answers (envelopeAndMsgOut lineCount millis msgId msgType code calls perf).output msgId msgType code := by
  have hcode := denotes_number (isNumeral_intText code)
  have hwritten : ∀ m ∈ envelopeMembers msgId msgType code calls value perf, m.IsWritten := by
    simp only [envelopeMembers, List.forall_mem_append, List.forall_mem_cons]
    refine ⟨⟨(denotes_string hid).member (by decide), (denotes_string htype).member (by decide),
      hmsg.member (by decide), hcode.member (by decide), by simp⟩, ?_⟩
    cases perf with
    | none => simp [perfMembers]
    | some us =>
      simp only [perfMembers, Option.map_some, Option.toList_some, List.forall_mem_singleton]
      exact (denotes_number (isNumeral_intText us)).member (by decide)
  have hobject := denotes_object _ hwritten
  rw [← envelopeAndMsgOut_members hid htype hcomma hlog value] at hobject
  refine ⟨_, hobject, ?_, ?_, ?_⟩ <;> cases perf <;>
    simp [HasMember, envelopeMembers, perfMembers]

/-- A member with a text between quotes is read back exactly if the text is plain; otherwise the
object has another value there or none at all.  Behind it is another member. -/
theorem plain_of_hasMember {fuel count : Nat} {key : String} {str next tail rest : List Char}
    {members : List (List Char × JsonTree)} (hkey : Plain key.toList)
    (hnext : ∃ c k, next = c :: k ∧ isBlank c = false ∧ c ≠ ',' ∧ c ≠ '}')
    (h : parseItems (parseMember (parseValue fuel)) '}' count
      (memberText key.toList ('"' :: (cStr str ++ '"' :: ',' :: memberText next tail))) =
        some (members, rest))
    (hmember : HasMember members key (.string str)) :
    Plain str ∧ ∃ others count', members = (key.toList, .string str) :: others ∧
      parseItems (parseMember (parseValue fuel)) '}' count' (memberText next tail) =
        some (others, rest) := by
  by_cases hplain : Plain (cStr str)
  · have hstring := denotes_string hplain
    obtain ⟨others, count', rfl, hrest⟩ := parseItems_member_next hkey hstring (by simpa using h)
    have hcstr := hasMember_self hmember
    rw [JsonTree.string.injEq] at hcstr
    rw [hcstr] at hplain
    exact ⟨hplain, others, count', by rw [hcstr], hrest⟩
  · have hstop : ∀ content left,
        lexString .text (',' :: memberText next tail) = some (content, left) →
        ∃ c tail, skipSpace left = c :: tail ∧ c ≠ ',' ∧ c ≠ '}' := by
      intro content left hlex
      have hcomma : lexString .text (',' :: memberText next tail) =
          some ([','], next ++ '"' :: ':' :: tail) := rfl
      rw [hcomma] at hlex
      cases hlex
      obtain ⟨c, k, rfl, hspace, hc⟩ := hnext
      exact ⟨c, _, skipSpace_cons hspace, hc⟩
    obtain ⟨content, others, rfl, hlt⟩ := parseItems_misread hkey hplain h hstop
    have hcontent := hasMember_self hmember
    cases hcontent
    have hle : (cStr str).length ≤ str.length := (List.takeWhile_prefix _).length_le
    omega

theorem streamed_answers_iff {value : JsonTree} (hmsg : Denotes (streamedMsg code calls) value) :
    Answers (envelopeAndMsgOut lineCount millis msgId msgType code calls perf).output msgId msgType
        code ↔
      (lineCount = none ∨ code = 0) ∧
        Plain msgId.toList ∧ Plain msgType.toList ∧ commaFollows code calls = true := by
  constructor
  · rintro ⟨members, hdenotes, hid, htype, -⟩
    rw [envelopeAndMsgOut_output] at hdenotes
    obtain ⟨fuel, members', rest, heq, hparse₁⟩ := hdenotes.exists_parseItems
    cases heq
    obtain ⟨hplainId, others, count, rfl, hparse₂⟩ := plain_of_hasMember (by decide)
      ⟨'t', _, rfl, by decide⟩ hparse₁ hid
    have htype' := hasMember_of_ne (by decide) htype
    obtain ⟨hplainType, others, count, rfl, hparse₃⟩ := plain_of_hasMember (by decide)
      ⟨'m', _, rfl, by decide⟩ hparse₂ htype'
    obtain ⟨value', left, others, hvalue, -, hcontinues⟩ :=
      parseItems_memberText (by decide) hparse₃
    have hlog : lineCount = none ∨ code = 0 := by
      by_contra hlog
      obtain ⟨count', hline⟩ := logCode_line millis
        "Error while handling streaming message." hlog (by decide +kernel)
      rw [hline] at hvalue
      have hskip := (hmsg.eq_of_some (delimited_cons rfl) hvalue).2
      exact hcontinues.ne_cons (by decide) (by decide) (hskip.trans (skipSpace_cons rfl))
    refine ⟨hlog, hplainId, hplainType, ?_⟩
    by_contra hcomma
    rw [Bool.not_eq_true] at hcomma
    rw [logCode_eq_nil hlog, hcomma] at hvalue
    have hskip := (hmsg.eq_of_some (delimited_cons rfl) hvalue).2
    exact hcontinues.ne_cons (by decide) (by decide) (hskip.trans (skipSpace_cons rfl))
  · rintro ⟨hlog, hid, htype, hcomma⟩
    exact answers_of_plain hid htype hcomma hlog hmsg

end Streaming

section Documents

variable {serializeJson : JsonTree → List Char}

theorem Document.proper_errorMember (msgOut : Document) : Proper msgOut.errorMember := by
  unfold Document.errorMember
  cases hlookup : msgOut.members.lookup "error".toList with
  | none => trivial
  | some value =>
    have hproper := properMembers_iff.mp msgOut.proper
    obtain ⟨l₁, l₂, hmembers, -⟩ := List.lookup_eq_some_iff.mp hlookup
    exact hproper ("error".toList, value) (by simp [hmembers])

theorem proper_envelopeOut (msgId msgType : String) (code : Int) (msgOut : Document)
    (perf : Option Nat) : Proper (envelopeOut msgId msgType code msgOut perf) := by
  rw [envelopeOut, Proper, properMembers_iff]
  simp only [List.forall_mem_append, List.forall_mem_cons]
  refine ⟨⟨trivial, trivial, ?_, isNumeral_intText code, by simp⟩, ?_⟩
  · split
    · exact msgOut.proper_errorMember
    · exact msgOut.proper
  · intro m hm
    obtain ⟨us, -, rfl⟩ := Option.map_eq_some_iff.mp (Option.mem_toList.mp hm)
    exact isNumeral_intText us

theorem document_answers (hserialize : ∀ t, Proper t → Denotes (serializeJson t) t)
    (msgId msgType : String) (code : Int) (msgOut : Document) (perf : Option Nat) :
    Answers (serializeJson (envelopeOut msgId msgType code msgOut perf)) msgId msgType code := by
  have hdenotes := hserialize _ (proper_envelopeOut msgId msgType code msgOut perf)
  refine ⟨_, hdenotes, ?_, ?_, ?_⟩ <;> cases perf <;> by_cases hcode : code = 0 <;>
    simp [HasMember, hcode]

end Documents

section Main

variable {lib : Platform.JsonLibrary} {registry : HandlerRegistry} {g : Gatekeeper}
variable {context : AuthentificationContext}

theorem answer_code (msgType : String) (msgIn : Json) :
    (∃ msgOut, answer registry g context msgType msgIn =
      .document (resultCode registry g context msgType msgIn) msgOut) ∨
    ∃ handler clearance, registry.lookup msgType = some (handler, clearance) ∧
      answer registry g context msgType msgIn =
        .streaming (resultCode registry g context msgType msgIn)
          (handler.handleStreaming msgIn).2 ∧
      resultCode registry g context msgType msgIn = (handler.handleStreaming msgIn).1 := by
  unfold answer resultCode
  cases hlookup : registry.lookup msgType with
  | none => exact .inl ⟨_, rfl⟩
  | some entry =>
    obtain ⟨handler, clearance⟩ := entry
    simp only
    by_cases hcan : context.canDo g clearance = true
    · simp only [hcan, Bool.not_true, Bool.false_eq_true, if_false, if_true, MessageHandler.result]
      split_ifs
      · exact .inl ⟨_, rfl⟩
      · exact .inl ⟨_, rfl⟩
      · exact .inr ⟨handler, clearance, rfl, rfl, rfl⟩
    · rw [Bool.not_eq_true] at hcan
      simp only [hcan, Bool.not_false, if_true]
      exact .inl ⟨_, rfl⟩

theorem MessageHandler.WritesOneValue.denotes {handler : MessageHandler} {msgIn : Json}
    (h : handler.WritesOneValue msgIn) :
    ∃ value, Denotes (streamedMsg (handler.handleStreaming msgIn).1
      (handler.handleStreaming msgIn).2) value := by
  unfold MessageHandler.WritesOneValue at h
  unfold streamedMsg
  simp only at h
  by_cases hcode : (handler.handleStreaming msgIn).1 = notImplemented
  · rw [if_pos hcode] at h ⊢
    rw [h]
    exact ⟨.object [], 1, [], rfl, rfl⟩
  · rw [if_neg hcode] at h ⊢
    exact h

/-- An answer is one object exactly if its code is zero or the output is no sink of the log, and, in
case it is streamed, the identifier and the type need no escape sequence and the handler leaves the
comma flag set. -/
theorem handleMessage_answers_iff (lib : Platform.JsonLibrary) (serializeJson : JsonTree → List Char)
    (hserialize : ∀ t, Proper t → Denotes (serializeJson t) t) (registry : HandlerRegistry)
    (g : Gatekeeper) (context : AuthentificationContext) (envelopeIn : Json) (msgId msgType : String)
    (hid : envelopeIn.member "id" = .string msgId)
    (htype : envelopeIn.member "type" = .string msgType)
    (hhandler : ∀ handler clearance, registry.lookup msgType = some (handler, clearance) →
      handler.WritesOneValue (envelopeIn.member "msg"))
    (lineCount : Option (BitVec 16)) (millis : BitVec 32) (time : Nat) :
    Answers (handleMessage lib serializeJson registry g context lineCount millis envelopeIn time)
        msgId msgType (resultCode registry g context msgType (envelopeIn.member "msg")) ↔
      (lineCount = none ∨ resultCode registry g context msgType (envelopeIn.member "msg") = 0) ∧
      ∀ code calls, answer registry g context msgType (envelopeIn.member "msg") =
          .streaming code calls →
        Plain msgId.toList ∧ Plain msgType.toList ∧
          (code ≠ notImplemented → (runCalls calls StreamingJson.empty).needsComma = true) := by
  have hmsgId : lib.asStdString (envelopeIn.member "id") = msgId := by rw [hid]; rfl
  have hmsgType : lib.asStdString (envelopeIn.member "type") = msgType := by rw [htype]; rfl
  unfold handleMessage
  simp only [hmsgId, hmsgType]
  rcases answer_code msgType (envelopeIn.member "msg") with ⟨msgOut, hanswer⟩ |
      ⟨handler, clearance, hlookup, hanswer, hcode⟩
  · rw [hanswer]
    dsimp only
    constructor
    · intro hanswers
      refine ⟨?_, fun code calls hstreaming => by cases hstreaming⟩
      by_contra hlog
      obtain ⟨members, hdenotes, -⟩ := hanswers
      obtain ⟨count, hline⟩ := logCode_line millis
        "Error while handling message." hlog (by decide +kernel)
      rw [hline] at hdenotes
      exact not_denotes_lineText (by decide)
        (hserialize _ (proper_envelopeOut _ _ _ _ _)) hdenotes
    · rintro ⟨hlog, -⟩
      rw [logCode_eq_nil hlog]
      exact document_answers hserialize _ _ _ _ _
  · rw [hanswer]
    obtain ⟨value, hmsg⟩ := (hhandler handler clearance hlookup).denotes
    rw [← hcode] at hmsg
    simp only [streamed_answers_iff hmsg]
    refine and_congr_right fun _ => ⟨?_, fun h => ?_⟩
    · rintro ⟨hplainId, hplainType, hcomma⟩ code calls hstreaming
      cases hstreaming
      refine ⟨hplainId, hplainType, fun hne => ?_⟩
      simpa [commaFollows, hne] using hcomma
    · obtain ⟨hplainId, hplainType, hcomma⟩ := h _ _ rfl
      refine ⟨hplainId, hplainType, ?_⟩
      rw [commaFollows, Bool.or_eq_true, decide_eq_true_iff]
      exact Decidable.or_iff_not_imp_left.mpr hcomma

/-- A handler that streams one flag, as `sys_log` streams the log. -/
private def streamingHandler : MessageHandler where
  handle _ msgOut := (notImplemented, msgOut)
  handleWithContext _ msgOut _ := (notImplemented, msgOut)
  handleStreaming _ :=
    (0, [.beginDict, .key "is_active".toList, .valBool true, .endDict])

private def sysLog (msgId : String) : Json :=
  .object [("id", .string msgId), ("type", .string "sys_log"), ("msg", .object [])]

private def openGate : Gatekeeper := { enableAuth := false, enableUsers := false, users := ⟨[]⟩ }

private theorem streamingHandler_writesOneValue (msgIn : Json) :
    streamingHandler.WritesOneValue msgIn := by
  have hdenotes := denotes_object [⟨"is_active".toList, ['t', 'r', 'u', 'e'], .bool true⟩]
    (by
      simp only [List.forall_mem_singleton]
      exact denotes_true.member (by decide))
  exact ⟨_, hdenotes⟩

/-- On the serial console a code of zero leaves nothing in the log. -/
theorem handleMessage_answers_sysLog :
    handleMessage ⟨fun _ => 0, fun _ => ""⟩ serialize
        [("sys_log", streamingHandler, .requiresLogin)] openGate ⟨""⟩ (some 3) 1000 (sysLog "7") 0 =
      ("\x7b\"id\":\"7\",\"type\":\"sys_log\",\"msg\":\x7b\"is_active\":true\x7d," ++
        "\"code\":0\x7d").toList ∧
    Answers (handleMessage ⟨fun _ => 0, fun _ => ""⟩ serialize
      [("sys_log", streamingHandler, .requiresLogin)] openGate ⟨""⟩ (some 3) 1000 (sysLog "7") 0)
      "7" "sys_log" 0 := by
  refine ⟨by decide +kernel, (handleMessage_answers_iff ⟨fun _ => 0, fun _ => ""⟩ serialize
    (fun _ => denotes_serialize) _ openGate ⟨""⟩ (sysLog "7") "7" "sys_log" rfl rfl
    (fun handler clearance hlookup => ?_) (some 3) 1000 0).mpr
      ⟨Or.inr rfl, fun code calls hstreaming => ?_⟩⟩
  · cases hlookup
    exact streamingHandler_writesOneValue _
  · cases hstreaming
    exact ⟨by decide, by decide, fun _ => rfl⟩

/-- A handler that implements none of the overloads. -/
private def idleHandler : MessageHandler where
  handle _ msgOut := (notImplemented, msgOut)
  handleWithContext _ msgOut _ := (notImplemented, msgOut)
  handleStreaming _ := (notImplemented, [])

/-- The request `\x7b"id":"a\"b","type":"sys_log"\x7d`: the quote is not escaped in the answer.  And
on the serial console the log puts a line into the answer of a handler that is not implemented. -/
theorem handleMessage_not_answers_quote :
    (handleMessage ⟨fun _ => 0, fun _ => ""⟩ serialize
        [("sys_log", streamingHandler, .requiresLogin)] openGate ⟨""⟩ none 0 (sysLog "a\"b") 0 =
      ("\x7b\"id\":\"a\"b\",\"type\":\"sys_log\",\"msg\":\x7b\"is_active\":true\x7d," ++
        "\"code\":0\x7d").toList ∧
    ¬ Answers (handleMessage ⟨fun _ => 0, fun _ => ""⟩ serialize
      [("sys_log", streamingHandler, .requiresLogin)] openGate ⟨""⟩ none 0 (sysLog "a\"b") 0)
      "a\"b" "sys_log" 0) ∧
    handleMessage ⟨fun _ => 0, fun _ => ""⟩ serialize
        [("sys_log", idleHandler, .requiresLogin)] openGate ⟨""⟩ (some 3) 1000 (sysLog "7") 0 =
      ("\x7b\"id\":\"7\",\"type\":\"sys_log\",\"msg\":\x7b\x7d" ++
        "\x7b\"type\":\"log\",\"count\":3,\"time\":1000," ++
        "\"msg\":\"Error while handling streaming message.\"\x7d\r\n" ++
        ",\"code\":-99\x7d").toList ∧
    ¬ Answers (handleMessage ⟨fun _ => 0, fun _ => ""⟩ serialize
      [("sys_log", idleHandler, .requiresLogin)] openGate ⟨""⟩ (some 3) 1000 (sysLog "7") 0)
      "7" "sys_log" (-99) := by
  refine ⟨⟨by decide +kernel, fun h => ?_⟩, by decide +kernel, fun h => ?_⟩
  · obtain ⟨value, hmsg⟩ := (streamingHandler_writesOneValue (.object [])).denotes
    have hplain := ((streamed_answers_iff hmsg).mp h).2.1
    revert hplain
    decide
  · have hmsg : Denotes (streamedMsg notImplemented []) (.object []) := ⟨1, [], rfl, rfl⟩
    have hlog := ((streamed_answers_iff hmsg).mp h).1
    revert hlog
    decide

end Main

end Lucidac.Protocol
