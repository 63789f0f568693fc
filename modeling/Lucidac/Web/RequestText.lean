import Lucidac.Web.RequestLine
import Lucidac.Web.HeaderLines

/-!
# Requests as clients write them

A request comes out of the parser as it was put into text, or it is refused with the status that
says which part does not fit.  Content is read up to its length, and nothing behind it.
-/

namespace Lucidac.Web

open Base64 (bytesOf)

section Text

/-- A request with the spelling of its parts. -/
structure RequestText where
  method : MethodType
  verb : List (BitVec 8)
  verb_similar : Similar verb method.verb
  address : Address
  version : MinorVersion
  protocol : List (BitVec 8)
  protocol_similar : Similar protocol (versionText version)
  lines : List HeaderLine

namespace RequestText

def text (t : RequestText) : List (BitVec 8) :=
  t.verb ++ (t.address.text ++ 32 :: (t.protocol ++ (t.lines.flatMap HeaderLine.text ++ crlf)))

def request (t : RequestText) (stale : List (BitVec 8)) (headers : Headers) : Request where
  method := t.method
  path := (processURL t.address.url).1
  query := (processURL t.address.url).2
  buffer := urlBuffer stale t.address.url
  minorVersion := some t.version.toNat
  headers := headers

/-- The request, or the status it is refused with. -/
def answer (t : RequestText) (nodes : List HeaderNode) (stale : List (BitVec 8)) :
    Except Nat Request :=
  if t.address.bytes.length < pathLength then
    match t.lines.foldlM Headers.apply ⟨nodes, 0⟩ with
    | none => .error 431
    | some headers => .ok (t.request stale headers)
  else .error 414

end RequestText

end Text

section Parsing

variable {r : Reader} {rest stale : List (BitVec 8)} {cs : List (Option (BitVec 8))}

theorem readURL_address (a : Address) (h : Reads r (a.text ++ 32 :: rest) cs) :
    ∃ r', (if a.bytes.length < pathLength then
        readURL pathLength [] r = (true, a.url, r') ∧ Reads r' rest cs
      else ∃ written, readURL pathLength [] r = (false, written, r')) ∧
      r'.readTimedout = false :=
  readURL_bytes a.plain (by decide) [] h

theorem process_reads (t : RequestText) {nodes : List HeaderNode}
    (hnodes : ∀ node ∈ nodes, node.Named)
    (halone : ∀ line ∈ t.lines, line.Alone (nodes.map (·.name))) (h : Reads r (t.text ++ rest) cs) :
    ∃ r', process nodes stale r = (t.answer nodes stale, r') ∧
      ((t.answer nodes stale).isOk = true → Reads r' rest cs) := by
  have htext : t.text ++ rest = t.verb ++ (t.address.text ++ 32 :: (t.protocol ++
      (t.lines.flatMap HeaderLine.text ++ 13 :: 10 :: rest))) := by
    simp [RequestText.text, crlf]
  rw [htext] at h
  obtain ⟨r₁, hmethod, h₁⟩ := processMethod_verb t.verb_similar h
  obtain ⟨r₂, haddress, htimely₂⟩ := readURL_address t.address h₁
  rw [process, hmethod, RequestText.answer]
  by_cases hlength : t.address.bytes.length < pathLength
  · rw [if_pos hlength] at haddress
    obtain ⟨hurl, h₂⟩ := haddress
    obtain ⟨r₃, hversion, h₃⟩ := readVersion_text t.version t.protocol_similar h₂
    obtain ⟨r₄, hheaders, htimely₄, h₄⟩ :=
      @processHeaders_reads _ _ _ _ ⟨nodes, 0⟩ hnodes halone h₃
    rw [if_pos hlength]
    simp only [hurl, hversion, hheaders]
    cases hfold : t.lines.foldlM Headers.apply ⟨nodes, 0⟩ with
    | none =>
      refine ⟨r₄, ?_, fun hok => absurd hok Bool.false_ne_true⟩
      simp only [htimely₄, Bool.false_eq_true, if_false]
    | some headers =>
      rw [hfold] at h₄
      exact ⟨r₄, rfl, fun _ => h₄ rfl⟩
  · rw [if_neg hlength] at haddress
    obtain ⟨written, hurl⟩ := haddress
    rw [if_neg hlength]
    refine ⟨r₂, ?_, fun hok => absurd hok Bool.false_ne_true⟩
    simp only [hurl, htimely₂, Bool.false_eq_true, if_false]

theorem reads_text (text body : List (BitVec 8)) (cs : List (Option (BitVec 8))) :
    Reads ⟨[], (text ++ body).map some ++ cs, false⟩ (text ++ []) (body.map some ++ cs) := by
  refine ⟨?_, Nat.zero_le _, Nat.zero_le _, rfl⟩
  rw [List.append_nil, List.map_append, List.append_assoc]
  rfl

theorem RequestText.exists_of_answer {t : RequestText} {nodes : List HeaderNode} {req : Request}
    (h : t.answer nodes stale = .ok req) :
    ∃ headers, t.lines.foldlM Headers.apply ⟨nodes, 0⟩ = some headers ∧
      req = t.request stale headers := by
  rw [answer] at h
  split at h
  · split at h
    · cases h
    · next headers hfold =>
      cases h
      exact ⟨headers, hfold, rfl⟩
  · cases h

theorem RequestText.eq_of_answer {t : RequestText} {nodes : List HeaderNode} {code : Nat}
    (h : t.answer nodes stale = .error code) : code = 431 ∨ code = 414 := by
  rw [answer] at h
  split at h
  · split at h
    · cases h
      exact .inl rfl
    · cases h
  · cases h
    exact .inr rfl

end Parsing

section Content

/-- One byte less is left, which an `int` can tell. -/
theorem toInt_sub_one {left : Int32} {n : Nat} (h : left.toInt = (n + 1 : Nat)) :
    (left - 1).toInt = n := by
  have hbound := left.toInt_lt
  rw [Int32.toInt_sub, h, Int32.toInt_one]
  rw [Int.bmod_eq_of_le_mul_two (by omega) (by omega)]
  omega

theorem contentLoop_body (body : List (BitVec 8)) (cs : List (Option (BitVec 8))) {fuel : Nat}
    (hfuel : body.length < fuel) (before : List (BitVec 8)) {left : Int32}
    (hleft : left.toInt = body.length) :
    contentLoop fuel before left ⟨[], body.map some ++ cs, false⟩ =
      (before ++ body, ⟨[], cs, false⟩) := by
  induction fuel generalizing body before left with
  | zero => exact absurd hfuel (Nat.not_lt_zero _)
  | succ fuel ih =>
    cases body with
    | nil =>
      obtain rfl : left = 0 := Int32.toInt_inj.mp hleft
      simp [contentLoop, readContent]
    | cons c body =>
      have hne : left ≠ 0 := by
        rintro rfl
        rw [List.length_cons, Int32.toInt_zero] at hleft
        omega
      rw [contentLoop, List.map_cons, List.cons_append, readContent]
      simp only [hne, if_false]
      rw [ih body (Nat.lt_of_succ_lt_succ hfuel) _ (toInt_sub_one hleft), List.append_assoc,
        List.singleton_append]

theorem content_body (body : List (BitVec 8)) (cs : List (Option (BitVec 8))) {left : Int32}
    (hleft : left.toInt = body.length) :
    content left ⟨[], body.map some ++ cs, false⟩ = (body, ⟨[], cs, false⟩) := by
  rw [content, contentLoop_body body cs _ [] hleft, List.nil_append]
  simp only [Reader.size, List.length_nil, List.length_append, List.length_map]
  omega

/-- A request and the content behind it are read as the client wrote them, and what the connection
holds behind the content stays there. -/
theorem process_text (t : RequestText) (body : List (BitVec 8)) (cs : List (Option (BitVec 8)))
    {nodes : List HeaderNode} (stale : List (BitVec 8)) (hnodes : ∀ node ∈ nodes, node.Named)
    (halone : ∀ line ∈ t.lines, line.Alone (nodes.map (·.name))) :
    ∃ r, process nodes stale ⟨[], (t.text ++ body).map some ++ cs, false⟩ =
        (t.answer nodes stale, r) ∧
      ∀ request, t.answer nodes stale = .ok request → request.headers.left.toInt = body.length →
        content request.headers.left r = (body, ⟨[], cs, false⟩) := by
  obtain ⟨r, hprocess, hreads⟩ := process_reads t hnodes halone (reads_text t.text body cs)
  refine ⟨r, hprocess, ?_⟩
  intro request hanswer hleft
  rw [hanswer] at hreads
  rw [(hreads rfl).eq_of_nil]
  exact content_body body cs hleft

/-- A message that is posted, with an escape in the address and letters of either case. -/
def postedMessage : RequestText where
  method := .post
  verb := bytesOf "post "
  verb_similar := by decide +kernel
  address := ⟨[(47, .plain), (97, .percent true false), (112, .plain), (105, .plain)],
    by decide +kernel⟩
  version := .one
  protocol := bytesOf "HTTP/1.1" ++ crlf
  protocol_similar := by decide +kernel
  lines :=
    [⟨bytesOf "host", bytesOf " lucidac", by decide +kernel, by decide +kernel, by decide +kernel⟩,
      ⟨bytesOf "Accept", bytesOf "*/*", by decide +kernel, by decide +kernel, by decide +kernel⟩,
      ⟨bytesOf "content-length", bytesOf " 2", by decide +kernel, by decide +kernel,
        by decide +kernel⟩]

theorem process_text_posted :
    postedMessage.answer [⟨bytesOf "Host", [], 80⟩] [] =
        .ok { method := .post, path := bytesOf "/api", query := [],
              buffer := bytesOf "/api" ++ [0], minorVersion := some 1,
              headers := ⟨[⟨bytesOf "Host", bytesOf "lucidac", 80⟩], 2⟩ } ∧
      ∃ r, process [⟨bytesOf "Host", [], 80⟩] []
          ⟨[], (postedMessage.text ++ bytesOf "{}").map some ++ [none], false⟩ =
          (postedMessage.answer [⟨bytesOf "Host", [], 80⟩] [], r) ∧
        ∀ request, postedMessage.answer [⟨bytesOf "Host", [], 80⟩] [] = .ok request →
          request.headers.left.toInt = (bytesOf "{}").length →
            content request.headers.left r = (bytesOf "{}", ⟨[], [none], false⟩) :=
  ⟨by decide +kernel, process_text postedMessage (bytesOf "{}") [none] []
    (by decide +kernel) (by decide +kernel)⟩

end Content

end Lucidac.Web
