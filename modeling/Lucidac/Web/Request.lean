import Lucidac.Utils.Base64

/-!
# HTTP requests

The web server reads a request byte by byte.  To look ahead it pushes bytes back, and it keeps the
values of only those headers that were registered before.
-/

namespace Lucidac.Web

open Base64 (bytesOf)

section Reading

/-- The bytes of a connection; `none` is a pause as long as the timeout. -/
structure Reader where
  pushback : List (BitVec 8)
  input : List (Option (BitVec 8))
  readTimedout : Bool
deriving DecidableEq

namespace Reader

/-- "can't raise error here, so just replace last char over and over" -/
def push (r : Reader) (ch : BitVec 8) : Reader :=
  if r.pushback.length + 1 = 128 then r else { r with pushback := ch :: r.pushback }

def timedRead (r : Reader) : Option (BitVec 8) × Reader :=
  match r.pushback, r.input with
  | ch :: pushback, _ => (some ch, { r with pushback })
  | [], some ch :: input => (some ch, { r with input })
  | [], none :: input => (none, { r with input, readTimedout := true })
  | [], [] => (none, { r with readTimedout := true })

/-- Bytes and pauses that are left. -/
def size (r : Reader) : Nat := r.pushback.length + r.input.length

end Reader

def tolower (ch : BitVec 8) : BitVec 8 :=
  if 65 ≤ ch.toNat ∧ ch.toNat ≤ 90 then ch + 32 else ch

/-- `m_expect` from the middle of the text on.  What was matched is pushed back as it is spelled in
the text. -/
def expectFrom (matched : List (BitVec 8)) : List (BitVec 8) → Reader → Bool × Reader
  | [], r => (true, r)
  | candidate :: expected, r =>
    match r.timedRead with
    | (none, r) => (false, r)
    | (some ch, r) =>
      if tolower ch ≠ tolower candidate then (false, matched.foldl Reader.push (r.push ch))
      else expectFrom (candidate :: matched) expected r

def expect (expected : List (BitVec 8)) (r : Reader) : Bool × Reader := expectFrom [] expected r

def crlf : List (BitVec 8) := [13, 10]

def isBlank (ch : BitVec 8) : Bool := ch = 32 || ch = 9

/-- `m_skipSpace`; a loop gets the number of bytes and pauses that are left as its fuel. -/
def skipSpaceLoop : Nat → Reader → Bool × Reader
  | 0, r => (false, r)
  | fuel + 1, r =>
    match r.timedRead with
    | (none, r) => (false, r)
    | (some ch, r) => if isBlank ch then skipSpaceLoop fuel r else (true, r.push ch)

def skipSpace (r : Reader) : Bool × Reader := skipSpaceLoop (r.size + 1) r

def skipLineLoop : Nat → Reader → Bool × Reader
  | 0, r => (false, r)
  | fuel + 1, r =>
    match expect crlf r with
    | (true, r) => (true, r)
    | (false, r) =>
      match r.timedRead with
      | (none, r) => (false, r)
      | (some _, r) => skipLineLoop fuel r

def skipLine (r : Reader) : Bool × Reader := skipLineLoop (r.size + 1) r

end Reading

section Line

inductive MethodType where
  | get | head | post | put | delete | patch | options
deriving DecidableEq

/-- In the order in which they are tried. -/
def verbs : List (List (BitVec 8) × MethodType) :=
  [(bytesOf "GET ", .get), (bytesOf "HEAD ", .head), (bytesOf "POST ", .post),
    (bytesOf "PUT ", .put), (bytesOf "DELETE ", .delete), (bytesOf "PATCH ", .patch),
    (bytesOf "OPTIONS ", .options)]

def processMethod : List (List (BitVec 8) × MethodType) → Reader → Option MethodType × Reader
  | [], r => (none, r)
  | (verb, method) :: verbs, r =>
    match expect verb r with
    | (true, r) => (some method, r)
    | (false, r) => processMethod verbs r

/-- The value of a hexadecimal digit; other characters have one as well. -/
def hexValue (ch : BitVec 8) : BitVec 8 := (if 0x39 < ch.toNat then ch - 7 else ch) &&& 0x0f

/-- `m_readURL`, with the space that is left in the buffer and what was written. -/
def readURL : Nat → List (BitVec 8) → Reader → Bool × List (BitVec 8) × Reader
  | 0, url, r => (false, url, r)
  | bufferLeft + 1, url, r =>
    match r.timedRead with
    | (none, r) => (true, url, r)
    | (some ch, r) =>
      if ch = 32 ∨ ch = 10 ∨ ch = 13 then (true, url, r)
      else if bufferLeft = 0 then (false, url, r)
      else if ch = 37 then
        match r.timedRead with
        | (none, r) => (false, url, r)
        | (some high, r) =>
          match r.timedRead with
          | (none, r) => (false, url, r)
          | (some low, r) =>
            readURL bufferLeft (url ++ [hexValue high <<< 4 ||| hexValue low]) r
      else readURL bufferLeft (url ++ [ch]) r

def pathLength : Nat := 255

/-- `m_processURL`: path and query of a text that ends with its first zero. -/
def processURL (url : List (BitVec 8)) : List (BitVec 8) × List (BitVec 8) :=
  let text := url.takeWhile (· ≠ 0)
  (text.takeWhile (· ≠ 63), (text.dropWhile (· ≠ 63)).drop 1)

/-- The buffer of the path, whose question mark is overwritten; `stale` is what an empty text leaves
behind its zero. -/
def urlBuffer (stale url : List (BitVec 8)) : List (BitVec 8) :=
  (if (url.takeWhile (· ≠ 0)).contains 63 then url.set (processURL url).1.length 0 else url) ++ 0 :: stale

/-- `m_readVersion`, with the minor version read so far. -/
def readVersionLoop : Nat → Option Nat → Reader → Bool × Option Nat × Reader
  | 0, minor, r => (false, minor, r)
  | fuel + 1, minor, r =>
    match expect crlf r with
    | (true, r) => (true, minor, r)
    | (false, r) =>
      match expect (bytesOf "1.0") r with
      | (true, r) => readVersionLoop fuel (some 0) r
      | (false, r) =>
        match expect (bytesOf "1.1") r with
        | (true, r) => readVersionLoop fuel (some 1) r
        | (false, r) =>
          match r.timedRead with
          | (none, r) => (false, minor, r)
          | (some _, r) => readVersionLoop fuel minor r

def readVersion (r : Reader) : Bool × Option Nat × Reader := readVersionLoop (r.size + 1) none r

end Line

section Headers

/-- A registered header with the text in its buffer. -/
structure HeaderNode where
  name : List (BitVec 8)
  value : List (BitVec 8)
  bufferLength : Nat
deriving DecidableEq

/-- The characters of a value, up to the end of the line. -/
def headerValueLoop : Nat → Int → List (BitVec 8) → Reader → Option (List (BitVec 8)) × Reader
  | 0, _, _, r => (none, r)
  | fuel + 1, bufferLength, written, r =>
    match r.timedRead with
    | (none, r) => (none, r)
    | (some ch, r) =>
      let bufferLength := bufferLength - 1
      let written := if 0 < bufferLength then written ++ [ch] else written
      match expect crlf r with
      | (true, r) => (if 0 < bufferLength then some written else none, r)
      | (false, r) => headerValueLoop fuel bufferLength written r

/-- `m_headerValue`: the new text in the buffer, which ends with its first zero, or nothing when the
request is refused. -/
def headerValue (node : HeaderNode) (r : Reader) : Option (List (BitVec 8)) × Reader :=
  let start := if node.value ≠ [] then node.value ++ [44] else []
  match skipSpace r with
  | (false, r) => (none, r)
  | (true, r) =>
    let (written, r) := headerValueLoop (r.size + 1) (node.bufferLength - start.length) start r
    (written.map (·.takeWhile (· ≠ 0)), r)

def isDigit (ch : BitVec 8) : Bool := 48 ≤ ch.toNat && ch.toNat ≤ 57

/-- The digits from `ch` on. -/
def readDigits : Nat → Bool → Int32 → BitVec 8 → Reader → Option (Bool × Int32) × Reader
  | 0, _, _, _, r => (none, r)
  | fuel + 1, gotNumber, number, ch, r =>
    if isDigit ch then
      match r.timedRead with
      | (none, r) => (none, r)
      | (some next, r) => readDigits fuel true (number * 10 + .ofNat ch.toNat - 48) next r
    else (some (gotNumber, number), r.push ch)

/-- `m_readInt`; numbers that an `int` cannot hold wrap around. -/
def readInt (r : Reader) : Option Int32 × Reader :=
  match skipSpace r with
  | (false, r) => (none, r)
  | (true, r) =>
    match r.timedRead with
    | (none, r) => (none, r)
    | (some ch, r) =>
      if ch = 45 then
        match r.timedRead with
        | (none, r) => (none, r)
        | (some ch, r) =>
          match readDigits (r.size + 1) false 0 ch r with
          | (some (true, number), r) => (some (-number), r)
          | (_, r) => (none, r)
      else
        match readDigits (r.size + 1) false 0 ch r with
        | (some (true, number), r) => (some number, r)
        | (_, r) => (none, r)

/-- The registered headers are tried one after the other; a name that is not followed by a colon
stays read. -/
def findHeader (seen : List HeaderNode) :
    List HeaderNode → Reader → Option (List HeaderNode × HeaderNode × List HeaderNode) × Reader
  | [], r => (none, r)
  | node :: nodes, r =>
    match expect node.name r with
    | (false, r) => findHeader (seen ++ [node]) nodes r
    | (true, r) =>
      match expect [58] r with
      | (false, r) => findHeader (seen ++ [node]) nodes r
      | (true, r) => (some (seen, node, nodes), r)

/-- What the headers leave: the values and the length of the content. -/
structure Headers where
  nodes : List HeaderNode
  left : Int32
deriving DecidableEq

def processHeader (h : Headers) (r : Reader) : Option Headers × Reader :=
  match expect (bytesOf "Content-Length:") r with
  | (true, r) =>
    match readInt r with
    | (none, r) => (none, r)
    | (some left, r) =>
      match expect crlf r with
      | (false, r) => (none, r)
      | (true, r) => (some { h with left }, r)
  | (false, r) =>
    match findHeader [] h.nodes r with
    | (some (seen, node, nodes), r) =>
      let (value, r) := headerValue node r
      (value.map fun value => { h with nodes := seen ++ { node with value } :: nodes }, r)
    | (none, r) =>
      match skipLine r with
      | (false, r) => (none, r)
      | (true, r) => (some h, r)

/-- `m_processHeaders` -/
def processHeadersLoop : Nat → Headers → Reader → Option Headers × Reader
  | 0, _, r => (none, r)
  | fuel + 1, h, r =>
    match expect crlf r with
    | (true, r) => (some h, r)
    | (false, r) =>
      match processHeader h r with
      | (none, r) => (none, r)
      | (some h, r) => processHeadersLoop fuel h r

def processHeaders (h : Headers) (r : Reader) : Option Headers × Reader :=
  processHeadersLoop (r.size + 1) h r

end Headers

section Content

/-- `read` behind the headers, with the length of the content that is left. -/
def readContent (left : Int32) (r : Reader) : Option (BitVec 8) × Int32 × Reader :=
  match r.pushback, r.input with
  | ch :: pushback, _ => (some ch, left, { r with pushback })
  | [], input =>
    if left = 0 then (none, left, r)
    else
      match input with
      | some ch :: input => (some ch, left - 1, { r with input })
      | none :: input => (none, left, { r with input })
      | [] => (none, left, r)

/-- A middleware that reads until nothing comes. -/
def contentLoop : Nat → List (BitVec 8) → Int32 → Reader → List (BitVec 8) × Reader
  | 0, content, _, r => (content, r)
  | fuel + 1, content, left, r =>
    match readContent left r with
    | (none, _, r) => (content, r)
    | (some ch, left, r) => contentLoop fuel (content ++ [ch]) left r

def content (left : Int32) (r : Reader) : List (BitVec 8) × Reader :=
  contentLoop (r.size + 1) [] left r

end Content

structure Request where
  method : MethodType
  path : List (BitVec 8)
  query : List (BitVec 8)
  buffer : List (BitVec 8)
  minorVersion : Option Nat
  headers : Headers
deriving DecidableEq

/-- `m_process` up to the routes: a request or the status it is refused with, and what is left. -/
def process (nodes : List HeaderNode) (stale : List (BitVec 8)) (r : Reader) : Except Nat Request × Reader :=
  let refuse (code : Nat) (r : Reader) : Except Nat Request × Reader :=
    (.error (if r.readTimedout then 408 else code), r)
  match processMethod verbs r with
  | (none, r) => refuse 400 r
  | (some method, r) =>
    match readURL pathLength [] r with
    | (false, _, r) => refuse 414 r
    | (true, url, r) =>
      match readVersion r with
      | (false, _, r) => refuse 505 r
      | (true, minorVersion, r) =>
        match processHeaders ⟨nodes, 0⟩ r with
        | (none, r) => refuse 431 r
        | (some headers, r) =>
          let (path, query) := processURL url
          (.ok { method, path, query, buffer := urlBuffer stale url, minorVersion, headers }, r)

end Lucidac.Web
