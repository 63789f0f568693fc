import Lucidac.Ota.Flash
import Lucidac.Platform.Config
import Lucidac.Utils.Base64

/-!
# Firmware upgrades over the network

A new firmware image is announced, streamed in chunks into the free part of the flash, and moved
into place.  The handlers share one record of the running upgrade, which is a null pointer while
there is none.  The build has over-the-air flashing enabled.
-/

namespace Lucidac.Ota

open Framework NorMemory

abbrev Sha256 := Vector (BitVec 8) 32

/-- What the handlers use besides the flash: the JSON library, the hash unit, and the bytes that
happen to lie behind a text in memory. -/
structure Environment where
  json : Platform.JsonLibrary
  hashSha256 : List (BitVec 8) → Sha256
  behindText : Nat → BitVec 8

/-! ### Hashes as text -/

private def isSpaceByte (c : BitVec 8) : Bool := c == 32 || (9 ≤ c.toNat && c.toNat ≤ 13)

def hexValue (c : BitVec 8) : Option Nat :=
  let c := c.toNat
  if '0'.toNat ≤ c ∧ c ≤ '9'.toNat then some (c - '0'.toNat)
  else if 'a'.toNat ≤ c ∧ c ≤ 'f'.toNat then some (c - 'a'.toNat + 10)
  else if 'A'.toNat ≤ c ∧ c ≤ 'F'.toNat then some (c - 'A'.toNat + 10)
  else none

/-- `strtoul(text, NULL, 16)` for a text of two characters, where a leading `0x` leaves no digits
and reads as zero. -/
def strtoulHex (text : List (BitVec 8)) : Nat :=
  let (negative, rest) := match (text.takeWhile (· ≠ 0)).dropWhile isSpaceByte with
    | 45 :: rest => (true, rest)
    | 43 :: rest => (false, rest)
    | rest => (false, rest)
  let digits := (rest.takeWhile fun c => (hexValue c).isSome).filterMap hexValue
  let value := digits.foldl (fun n d => 16 * n + d) 0
  if negative then (2^32 - value) % 2^32 else value

/-- `hash[i]` of a text, which ends with a zero. -/
def charAt (env : Environment) (text : List (BitVec 8)) (i : Nat) : BitVec 8 :=
  if i ≤ text.length then text.getD i 0 else env.behindText i

def parseSha256 (env : Environment) (hash : String) : Sha256 :=
  let text := Base64.bytesOf hash
  Vector.ofFn fun i => BitVec.ofNat 8
    (strtoulHex [charAt env text (2 * i.val), charAt env text (2 * i.val + 1)])

def sha256ToString (hash : Sha256) : String :=
  String.ofList (hash.toList.flatMap fun b =>
    [Nat.digitChar (b.toNat / 16), Nat.digitChar (b.toNat % 16)])

/-! ### The upgrade record -/

structure FirmwareBuffer where
  name : String
  imagelen : Nat
  upstreamHash : Sha256
  bytesTransmitted : Nat
  bufferAddr : Nat
  bufferSize : Nat

def FirmwareBuffer.transferCompleted (upgrade : FirmwareBuffer) : Bool :=
  upgrade.imagelen == upgrade.bytesTransmitted

structure Flasher where
  mem : Memory
  upgrade : Option FirmwareBuffer

/-- How a handler ends: with a code and the members of the answer, without a code, by using the
record although there is none, or in a reset of the processor. -/
inductive Outcome where
  | answered (code : Int) (msgOut : List (String × Json)) (after : Flasher)
  | reported (msgOut : List (String × Json))
  | nullAccess
  | rebooted (mem : Memory)

def returnErr (code : Int) (msg : String) (after : Flasher) : Outcome :=
  .answered code [("error", .string msg)] after

def base64ChunkSize : Nat := 4096 / 2
def binChunkSize : Nat := base64ChunkSize * 3 / 4

namespace Flasher

variable (env : Environment)

def requestedLength (msgIn : Json) : Nat :=
  (msgIn.member "imagelen").asUnsigned 32 env.json.parseNumber

/-- The record that a message announces. -/
def announced (msgIn : Json) (mem : Memory) : FirmwareBuffer where
  name := env.json.asStdString (msgIn.member "name")
  imagelen := requestedLength env msgIn
  upstreamHash := parseSha256 env (env.json.asStdString (msgIn.member "upstream_hash"))
  bytesTransmitted := 0
  bufferAddr := (firmwareBufferInit mem).1
  bufferSize := (firmwareBufferInit mem).2

def init (msgIn : Json) (f : Flasher) : Outcome :=
  match f.upgrade with
  | some _ =>
    returnErr 1 "Firmware upgrade already running. Cancel it before doing another one" f
  | none =>
    let upgrade := announced env msgIn f.mem
    if upgrade.imagelen > upgrade.bufferSize then
      -- The record is deleted, and then the error message is made from its fields.
      .nullAccess
    else
      .answered 0 [("bin_chunk_size", .integer binChunkSize), ("encoding", .string "binary-base64")]
        { f with upgrade := some upgrade }

def decodedPayload (msgIn : Json) : List (BitVec 8) :=
  Base64.decode (Base64.bytesOf (env.json.asStdString (msgIn.member "payload"))) binChunkSize

def stream (msgIn : Json) (f : Flasher) : Outcome :=
  match f.upgrade with
  | none => returnErr 1 "No firmware upgrade running." f
  | some upgrade =>
    let base64Payload := Base64.bytesOf (env.json.asStdString (msgIn.member "payload"))
    let decoded := decodedPayload env msgIn
    let total := upgrade.bytesTransmitted + decoded.length
    if upgrade.transferCompleted then returnErr 2 "Transfer already completed" f
    else if base64Payload.length = 0 then returnErr 3 "Missing payload." f
    else if base64Payload.length % 4 ≠ 0 then
      returnErr 4 "Payload has not correct length to be base64-encoded." f
    else if decoded.length = 0 then returnErr 2 "Could not decode base64-encoded payload." f
    else if decoded.length > binChunkSize then
      returnErr 6 ("Chunk size too large. Given " ++ toString decoded.length ++
        " bytes > buffer size " ++ toString binChunkSize ++ " bytes") f
    else if total > upgrade.imagelen then
      returnErr 7 ("Chunk size too large, yields to image size " ++ toString total ++
        " bytes but only " ++ toString upgrade.imagelen ++ " announced.") f
    else if decoded.length % 4 ≠ 0 then
      returnErr 8 "Chunk not 32-bit aligned. Expecting buffer size multiples of 4 bytes." f
    else
      let written := flashWriteBlock f.mem (upgrade.bufferAddr + upgrade.bytesTransmitted) decoded
      if written.1 ≠ 0 then
        returnErr (50 + written.1) ("flash_write_block() error 0" ++ toString written.1)
          { f with mem := written.2 }
      else .answered 0 [] ⟨written.2, some { upgrade with bytesTransmitted := total }⟩

def image (mem : Memory) (upgrade : FirmwareBuffer) : List (BitVec 8) :=
  (List.range upgrade.imagelen).map fun i => mem (upgrade.bufferAddr + i)

def status (f : Flasher) : Outcome :=
  match f.upgrade with
  | none =>
    .reported [("is_upgrade_running", .bool false),
      ("buffer_addr", .integer (firmwareBufferInit f.mem).1),
      ("buffer_size", .integer (firmwareBufferInit f.mem).2)]
  | some upgrade =>
    let actualHash := env.hashSha256 (image f.mem upgrade)
    .reported ([("is_upgrade_running", .bool true), ("name", .string upgrade.name),
      ("size", .integer upgrade.imagelen),
      ("upstream_hash", .string (sha256ToString upgrade.upstreamHash)),
      ("bytes_transmitted", .integer upgrade.bytesTransmitted),
      ("transfer_completed", .bool upgrade.transferCompleted)] ++
      (if upgrade.transferCompleted then
        [("hash_correct", .bool (actualHash == upgrade.upstreamHash)),
          ("actual_hash", .string (sha256ToString actualHash))] else []) ++
      [("buffer_addr", .integer upgrade.bufferAddr), ("buffer_size", .integer upgrade.bufferSize)])

def abort (f : Flasher) : Outcome :=
  match f.upgrade with
  | none => returnErr 1 "No upgrade running which I could abort" f
  | some upgrade =>
    -- `return true`
    .answered 1 [] ⟨firmwareBufferFree f.mem upgrade.bufferAddr upgrade.bufferSize, none⟩

def complete (f : Flasher) : Outcome :=
  match f.upgrade with
  | none => .nullAccess
  | some upgrade =>
    if !upgrade.transferCompleted then returnErr 1 "Require transfer to be completed" f
    else if env.hashSha256 (image f.mem upgrade) ≠ upgrade.upstreamHash then
      returnErr 2 "Corrupted upload data, hash mismatch. Please try again (start new init)" f
    else .rebooted (flashMove f.mem flashBaseAddr upgrade.bufferAddr upgrade.imagelen)

end Flasher

inductive Message where
  | init (msgIn : Json)
  | stream (msgIn : Json)
  | abort
  | status
  | complete

def Message.handle (env : Environment) (f : Flasher) : Message → Outcome
  | .init msgIn => f.init env msgIn
  | .stream msgIn => f.stream env msgIn
  | .abort => f.abort
  | .status => f.status env
  | .complete => f.complete env

end Lucidac.Ota
