import Lucidac.Framework.Arrivals
import Lucidac.Framework.Bytes
import Mathlib.Data.List.OfFn
import Mathlib.Tactic.IntervalCases

/-!
# Websocket frames

A frame is written with a header, the masking key and the payload, and read back from a socket
that has only a part of the stream at a time.
-/

namespace Lucidac.Websockets

open Framework

inductive ContentType where
  | none | continuation | text | binary | close | ping | pong

def ContentType.value : ContentType → BitVec 8
  | none => -1
  | continuation => 0x0
  | text => 0x1
  | binary => 0x2
  | close => 0x8
  | ping => 0x9
  | pong => 0xA

structure Header where
  opcode : BitVec 4
  flags : BitVec 3
  fin : Bool
  payload : BitVec 7
  mask : Bool

structure WebsocketsFrame where
  fin : Bool
  opcode : BitVec 4
  mask : Bool
  maskBuf : Fin 4 → BitVec 8
  payloadLength : BitVec 64
  payload : List (BitVec 8)

namespace WebsocketsFrame

def isControlFrame (frame : WebsocketsFrame) : Bool :=
  frame.fin && (frame.opcode == 0x8 || frame.opcode == 0x9 || frame.opcode == 0xA)

def isEmpty (frame : WebsocketsFrame) : Bool :=
  !frame.fin && frame.opcode == 0 && frame.payloadLength == 0

def isBeginningOfFragmentsStream (frame : WebsocketsFrame) : Bool :=
  !frame.fin && frame.opcode != 0

def isContinuesFragment (frame : WebsocketsFrame) : Bool := !frame.fin && frame.opcode == 0

def isEndOfFragmentsStream (frame : WebsocketsFrame) : Bool := frame.fin && frame.opcode == 0

def isNormalUnfragmentedMessage (frame : WebsocketsFrame) : Bool := frame.fin && frame.opcode != 0

end WebsocketsFrame

section Sending

def swapEndianess32 (num : BitVec 32) : BitVec 32 :=
  let highest := num >>> 24
  let second := (num <<< 8) >>> 24
  let third := (num <<< 16) >>> 24
  let lowest := (num <<< 24) >>> 24
  highest ||| second <<< 8 ||| third <<< 16 ||| lowest <<< 24

def swapEndianess (num : BitVec 64) : BitVec 64 :=
  let upper := swapEndianess32 ((num >>> 32).setWidth 32)
  let lower := swapEndianess32 (((num <<< 32) >>> 32).setWidth 32)
  upper.setWidth 64 ||| lower.setWidth 64 <<< 32

theorem wordBytes_swapEndianess16 (num : BitVec 16) :
    wordBytes 2 (num <<< 8 ||| num >>> 8) = (wordBytes 2 num).reverse := by
  simp only [wordBytes, List.reverse_cons, List.reverse_nil, List.nil_append, List.cons_append,
    List.cons.injEq, and_true]
  constructor <;> ext i hi <;> interval_cases i <;> simp

theorem wordBytes_swapEndianess32 (num : BitVec 32) :
    wordBytes 4 (swapEndianess32 num) = (wordBytes 4 num).reverse := by
  simp only [wordBytes, List.reverse_cons, List.reverse_nil, List.nil_append, List.cons_append,
    List.cons.injEq, and_true, swapEndianess32]
  refine ⟨?_, ?_, ?_, ?_⟩ <;> ext i hi <;> interval_cases i <;> simp

theorem wordBytes_swapEndianess (num : BitVec 64) :
    wordBytes 8 (swapEndianess num) = (wordBytes 8 num).reverse := by
  let upper : BitVec 32 := (num >>> 32).setWidth 32
  let lower : BitVec 32 := ((num <<< 32) >>> 32).setWidth 32
  have hfirst : wordBytes 4 (swapEndianess num) = wordBytes 4 (swapEndianess32 upper) := by
    apply wordBytes_congr
    intro i hi
    have h32 : i < 32 := hi
    have h64 : i < 64 := by omega
    simp [swapEndianess, upper, h32, h64]
  have hlast : wordBytes 4 (swapEndianess num >>> 32) = wordBytes 4 (swapEndianess32 lower) := by
    apply wordBytes_congr
    intro i hi
    have h64 : i < 64 := by omega
    have hsum : 32 + i < 64 := by omega
    simp [swapEndianess, lower, h64, hsum]
  have hupper : wordBytes 4 upper = wordBytes 4 (num >>> 32) := by
    apply wordBytes_congr
    intro i hi
    have h32 : i < 32 := hi
    simp [upper, h32]
  have hlower : wordBytes 4 lower = wordBytes 4 num := by
    apply wordBytes_congr
    intro i hi
    have h32 : i < 32 := hi
    have h64 : i < 64 := by omega
    have hsum : 32 + i < 64 := by omega
    simp [lower, h32, hsum, BitVec.getLsbD_eq_getElem h64]
  rw [wordBytes_append 4 4 (swapEndianess num), wordBytes_append 4 4 num, hfirst, hlast,
    wordBytes_swapEndianess32, wordBytes_swapEndianess32, hupper, hlower, List.reverse_append]

theorem swapEndianess16_swapEndianess16 (num : BitVec 16) :
    (num <<< 8 ||| num >>> 8) <<< 8 ||| (num <<< 8 ||| num >>> 8) >>> 8 = num := by
  apply eq_of_wordBytes_eq (by decide : 16 ≤ 8 * 2)
  rw [wordBytes_swapEndianess16, wordBytes_swapEndianess16, List.reverse_reverse]

theorem swapEndianess_swapEndianess (num : BitVec 64) :
    swapEndianess (swapEndianess num) = num := by
  apply eq_of_wordBytes_eq (by decide : 64 ≤ 8 * 8)
  rw [wordBytes_swapEndianess, wordBytes_swapEndianess, List.reverse_reverse]

/-- `MakeHeader`; a length is a `size_t`. -/
def makeHeader (len : BitVec 32) (opcode : BitVec 8) (fin mask : Bool) : Header where
  fin := fin
  flags := 0
  opcode := opcode.setWidth 4
  mask := mask
  payload := if len < 126 then len.setWidth 7 else if len < 65536 then 126 else 127

/-- The header in memory, with its bit-fields from the least significant bit on. -/
def Header.bytes (header : Header) : List (BitVec 8) :=
  [BitVec.ofBool header.fin ++ header.flags ++ header.opcode,
    BitVec.ofBool header.mask ++ header.payload]

def getHeader (len : BitVec 64) (opcode : BitVec 8) (fin mask : Bool) : List (BitVec 8) :=
  let header := makeHeader (len.setWidth 32) opcode fin mask
  if len < 126 then header.bytes
  else if len < 65536 then
    header.bytes ++ wordBytes 2 ((len <<< 8 ||| len >>> 8).setWidth 16)
  else header.bytes ++ wordBytes 8 (swapEndianess len)

theorem keyIndex_lt (i : Nat) : i % 4 < 4 := Nat.mod_lt i (Nat.zero_lt_succ 3)

/-- `i % 4`, the byte of the masking key for byte `i` of the data. -/
def keyIndex (i : Nat) : Fin 4 := ⟨i % 4, keyIndex_lt i⟩

/-- `remaskData` of the sender: the key is indexed like the whole message. -/
def remaskMessage (data : List (BitVec 8)) (maskingKey : Fin 4 → BitVec 8) (first len : Nat) :
    List (BitVec 8) :=
  data.mapIdx fun i byte =>
    if first ≤ i ∧ i < first + len then byte ^^^ maskingKey (keyIndex i) else byte

/-- The bytes that `send` hands to the socket. -/
def send (data : List (BitVec 8)) (opcode : BitVec 8) (fin mask : Bool)
    (maskingKey : Fin 4 → BitVec 8) : List (BitVec 8) :=
  let messageData := getHeader (BitVec.ofNat 64 data.length) opcode fin mask
  let messageData := if mask then messageData ++ List.ofFn maskingKey else messageData
  let dataStart := messageData.length
  let messageData := messageData ++ data
  if mask ∧ maskingKey ≠ (fun _ => 0) then
    remaskMessage messageData maskingKey dataStart data.length
  else messageData

end Sending

section Receiving

/-- What the local variables of `_recv` hold before they are written. -/
structure Junk where
  header : Header
  maskingKey : Fin 4 → BitVec 8

/-- The header after bytes were read into its memory. -/
def Header.overwrite (header : Header) : List (BitVec 8) → Header
  | [] => header
  | first :: rest =>
    let header := { header with
      opcode := first.setWidth 4, flags := first.extractLsb' 4 3, fin := first.msb }
    match rest with
    | [] => header
    | second :: _ => { header with payload := second.setWidth 7, mask := second.msb }

def readHeaderFromSocket (junk : Header) (s : List (Arrival (BitVec 8))) :
    Header × List (Arrival (BitVec 8)) :=
  let (bytes, s) := Arrival.read 2 s
  ({ junk with payload := 0 }.overwrite bytes, s)

/-- Bytes that are missing are zero. -/
def readExtendedPayloadLength (header : Header) (s : List (Arrival (BitVec 8))) :
    BitVec 64 × List (Arrival (BitVec 8)) :=
  if header.payload = 126 then
    let (bytes, s) := Arrival.read 2 s
    let tmp := BitVec.ofNat 16 (ofWordBytes bytes)
    ((tmp <<< 8 ||| tmp >>> 8).setWidth 64, s)
  else if header.payload = 127 then
    let (bytes, s) := Arrival.read 8 s
    (swapEndianess (BitVec.ofNat 64 (ofWordBytes bytes)), s)
  else (header.payload.setWidth 64, s)

def readMaskingKey (junk : Fin 4 → BitVec 8) (s : List (Arrival (BitVec 8))) :
    (Fin 4 → BitVec 8) × List (Arrival (BitVec 8)) :=
  let (bytes, s) := Arrival.read 4 s
  (fun i => bytes.getD i (junk i), s)

/-- `_WS_BUFFER_SIZE`. -/
def bufferSize : Nat := 1024

/-- None when the socket waits for data that does not come, or when the data are more than their
string has room for, whose size is a `size_t`. -/
def readData (extendedPayload : Nat) (s : List (Arrival (BitVec 8))) :
    Option (List (BitVec 8) × List (Arrival (BitVec 8))) :=
  if 2 ^ 32 ≤ extendedPayload then none
  else Arrival.readAll bufferSize (Arrival.weight s) extendedPayload s

/-- `remaskData` of the receiver. -/
def remaskData (data : List (BitVec 8)) (maskingKey : Fin 4 → BitVec 8) : List (BitVec 8) :=
  data.mapIdx fun i byte => byte ^^^ maskingKey (keyIndex i)

/-- `_recv` of a socket whose client is there. -/
def recvFrame (junk : Junk) (s : List (Arrival (BitVec 8))) :
    Option (WebsocketsFrame × List (Arrival (BitVec 8))) :=
  let (header, s) := readHeaderFromSocket junk.header s
  let (payloadLength, s) := readExtendedPayloadLength header s
  let (maskingKey, s) :=
    if header.mask then readMaskingKey junk.maskingKey s else (junk.maskingKey, s)
  (readData payloadLength.toNat s).map fun (payload, s) =>
    ({ fin := header.fin
       opcode := header.opcode
       mask := header.mask
       maskBuf := maskingKey
       payloadLength := payloadLength
       payload := if header.mask then remaskData payload maskingKey else payload }, s)

end Receiving

end Lucidac.Websockets
