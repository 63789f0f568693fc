import Lucidac.Web.Request

/-!
# HTTP responses

A response prints its status line and its headers in front of the first byte of the content, and
all bytes go through one buffer.
-/

namespace Lucidac.Web

open Base64 (bytesOf)

section Status

def statusTexts : List (Nat × String) :=
  [(100, "Continue"), (101, "Switching Protocols"), (102, "Processing"), (103, "Early Hints"),
    (200, "OK"), (201, "Created"), (202, "Accepted"), (203, "Non-Authoritative Information"),
    (204, "No Content"), (205, "Reset Content"), (206, "Partial Content"), (207, "Multi-Status"),
    (208, "Already Reported"), (226, "IM Used"), (300, "Multiple Choices"),
    (301, "Moved Permanently"), (302, "Found"), (303, "See Other"), (304, "Not Modified"),
    (305, "Use Proxy"), (306, "(Unused)"), (307, "Temporary Redirect"),
    (308, "Permanent Redirect"), (400, "Bad Request"), (401, "Unauthorized"),
    (402, "Payment Required"), (403, "Forbidden"), (404, "Not Found"), (405, "Method Not Allowed"),
    (406, "Not Acceptable"), (407, "Proxy Authentication Required"), (408, "Request Timeout"),
    (409, "Conflict"), (410, "Gone"), (411, "Length Required"), (412, "Precondition Failed"),
    (413, "Payload Too Large"), (414, "URI Too Long"), (415, "Unsupported Media Type"),
    (416, "Range Not Satisfiable"), (417, "Expectation Failed"), (421, "Misdirected Request"),
    (422, "Unprocessable Entity"), (423, "Locked"), (424, "Failed Dependency"), (425, "Too Early"),
    (426, "Upgrade Required"), (428, "Precondition Required"), (429, "Too Many Requests"),
    (431, "Request Header Fields Too Large"), (451, "Unavailable For Legal Reasons"),
    (500, "Internal Server Error"), (501, "Not Implemented"), (502, "Bad Gateway"),
    (503, "Service Unavailable"), (504, "Gateway Timeout"), (505, "HTTP Version Not Supported"),
    (506, "Variant Also Negotiates"), (507, "Insufficient Storage"), (508, "Loop Detected"),
    (510, "Not Extended"), (511, "Network Authentication Required")]

/-- Other codes are printed as numbers. -/
def statusText (code : Nat) : List (BitVec 8) :=
  bytesOf ((statusTexts.lookup code).getD (toString code))

def statusLine (code : Nat) : List (BitVec 8) :=
  bytesOf "HTTP/1.1 " ++ bytesOf (toString code) ++ [32] ++ statusText code ++ crlf

end Status

/-- `strcmpi` finds no difference: characters that differ in the bit of the case are the same. -/
def sameName : List (BitVec 8) → List (BitVec 8) → Bool
  | [], [] => true
  | a :: s, b :: t => (a = b || a ^^^ 32 = b) && sameName s t
  | _, _ => false

/-- A response with what the buffer holds and what went to the client. -/
structure Response where
  headers : List (List (BitVec 8) × List (BitVec 8))
  contentLengthSet : Bool
  contentTypeSet : Bool
  keepAlive : Bool
  statusSent : Nat
  headersSent : Bool
  sendingStatus : Bool
  sendingHeaders : Bool
  bytesSent : Nat
  ended : Bool
  buffer : List (BitVec 8)
  stream : List (BitVec 8)
deriving DecidableEq

def outputBufferSize : Nat := 1024

def maxHeaders : Nat := 10

namespace Response

def new : Response := ⟨[], false, false, false, 0, false, false, false, 0, false, [], []⟩

/-- What is sent behind a piece of content without a length. -/
def separator (res : Response) : List (BitVec 8) :=
  if res.headersSent && !res.contentLengthSet then crlf else []

/-- `write` of one byte behind the headers. -/
def put (res : Response) (data : BitVec 8) : Response :=
  let buffer := res.buffer ++ [data]
  let bytesSent := res.bytesSent + 1
  if buffer.length = outputBufferSize then
    { res with stream := res.stream ++ buffer ++ res.separator, buffer := [], bytesSent }
  else { res with buffer, bytesSent }

def putAll (res : Response) (text : List (BitVec 8)) : Response := text.foldl put res

def flushBuf (res : Response) : Response :=
  if res.buffer ≠ [] then
    { res with stream := res.stream ++ res.buffer ++ res.separator, buffer := [] }
  else res

def set (res : Response) (name value : List (BitVec 8)) : Response :=
  if maxHeaders ≤ res.headers.length then res
  else
    { res with
      headers := res.headers ++ [(name, value)]
      contentTypeSet := res.contentTypeSet || sameName name (bytesOf "Content-Type")
      contentLengthSet := res.contentLengthSet || sameName name (bytesOf "Content-Length")
      keepAlive := if sameName name (bytesOf "Connection") then
          sameName value (bytesOf "keep-alive")
        else res.keepAlive }

def setDefaults (res : Response) : Response :=
  let res := if res.contentTypeSet then res
    else res.set (bytesOf "Content-Type") (bytesOf "text/plain")
  let res := if res.keepAlive && !res.contentLengthSet then
      res.set (bytesOf "Transfer-Encoding") (bytesOf "chunked")
    else res
  if res.keepAlive then res
  else { res with contentLengthSet := true }.set (bytesOf "Connection") (bytesOf "close")

/-- The first line, while no headers are printed in front of what is written. -/
def startStatus (res : Response) (code : Nat) : Response :=
  { res with statusSent := code, sendingStatus := true }.putAll (statusLine code)

def headerLine (header : List (BitVec 8) × List (BitVec 8)) : List (BitVec 8) :=
  header.1 ++ bytesOf ": " ++ header.2 ++ crlf

def beginHeaders (res : Response) : Response :=
  let res := if res.statusSent = 0 then
      { res.startStatus 200 with sendingStatus := false }
    else res
  let res := { res with sendingHeaders := true }
  res.headers.foldl (fun res header => res.putAll (headerLine header)) res

def endHeaders (res : Response) : Response :=
  { (res.putAll crlf).flushBuf with sendingHeaders := false, headersSent := true }

def status (res : Response) (code : Nat) : Response :=
  if res.statusSent ≠ 0 then res
  else
    let res := res.startStatus code
    let res :=
      if code < 200 then { res.beginHeaders.endHeaders with statusSent := 0 }
      else if code = 204 ∨ code = 304 then
        { res with contentLengthSet := true, contentTypeSet := true }
      else res
    { res with sendingStatus := false }

def printHeaders (res : Response) : Response := res.setDefaults.beginHeaders.endHeaders

/-- In front of what is written first come the headers. -/
def prepared (res : Response) : Response :=
  if !res.headersSent && !res.sendingHeaders && !res.sendingStatus then res.printHeaders else res

def write (res : Response) (data : BitVec 8) : Response := res.prepared.put data

def print (res : Response) (text : List (BitVec 8)) : Response := text.foldl write res

def writeAll (res : Response) (bytes : List (BitVec 8)) : Response :=
  let res := res.prepared.flushBuf
  { res with
    stream := res.stream ++ bytes ++ res.separator
    bytesSent := res.bytesSent + bytes.length }

def sendStatus (res : Response) (code : Nat) : Response :=
  let res := (res.status code).printHeaders
  if code ≠ 204 ∧ code ≠ 304 then res.print (statusText code) else res

end Response

/-- What the middlewares ask of a response.  None of them calls `sendStatus`, `beginHeaders`,
`endHeaders` or `setDefaults` itself. -/
inductive Call where
  | set (name value : List (BitVec 8))
  | status (code : Nat)
  | print (text : List (BitVec 8))
  | write (bytes : List (BitVec 8))
  | flush
  | stop
deriving DecidableEq

namespace Response

def perform (res : Response) : Call → Response
  | .set name value => res.set name value
  | .status code => res.status code
  | .print text => res.print text
  | .write bytes => res.writeAll bytes
  | .flush => res.flushBuf
  | .stop => { res with ended := true }

/-- The end of `m_process` and `m_finalize`. -/
def conclude (res : Response) : Response :=
  let res :=
    if res.statusSent = 0 ∧ res.ended = false then res.sendStatus 404
    else if res.headersSent = false then res.printHeaders
    else res
  res.flushBuf

end Response

end Lucidac.Web
