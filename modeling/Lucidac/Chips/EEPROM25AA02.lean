import Lucidac.Framework.PagedMemory

/-!
# The EEPROM 25AA02

The chip holds 256 bytes in pages of 16 and executes what it received when it is deselected.  It
ignores everything but status reads while it writes.  The driver splits a write at the page
borders and polls the status register after every page.
-/

namespace Lucidac.EEPROM25AA02

open Framework

abbrev Byte := BitVec 8

def commandRead : Byte := 0x03
def commandReadStatusRegister : Byte := 0x05
def commandWrite : Byte := 0x02
def commandWriteEnable : Byte := 0x06

def addressMask : BitVec 32 := 0x0F

def maxAddress : BitVec 32 := 255

def isAddressValid (address : BitVec 32) : Bool := address ≤ maxAddress

def pageSize : Nat := 16

/-! ### The chip -/

/-- An unprotected chip. `remaining` are the milliseconds until the running write is complete. -/
structure Chip where
  memory : Nat → Byte
  writeEnabled : Bool
  remaining : Nat
  internalWrites : Nat

namespace Chip

/-- The byte that is sent to the host while it sends the next one. -/
def answer (chip : Chip) : List Byte → Byte
  | command :: sent =>
    if command = commandReadStatusRegister then
      (if chip.remaining = 0 then 0 else 1) ||| (if chip.writeEnabled then 2 else 0)
    else if command = commandRead ∧ chip.remaining = 0 then
      match sent with
      | address :: read => chip.memory ((address.toNat + read.length) % 256)
      | [] => 0
    else 0
  | [] => 0

/-- A write takes `duration` milliseconds, which may be different every time.  Without data nothing
is written. -/
def execute (duration : Nat → Nat) (chip : Chip) : List Byte → Chip
  | command :: sent =>
    if chip.remaining ≠ 0 then chip
    else if command = commandWriteEnable then { chip with writeEnabled := true }
    else if command = commandWrite ∧ chip.writeEnabled = true then
      match sent with
      | address :: first :: data => {
          memory := PagedMemory.program pageSize chip.memory address.toNat (first :: data)
          writeEnabled := false
          remaining := duration chip.internalWrites
          internalWrites := chip.internalWrites + 1 }
      | _ => chip
    else chip
  | [] => chip

end Chip

/-! ### The bus -/

/-- A write command that was sent: its address and the number of its bytes. -/
structure WriteCommand where
  address : Byte
  count : Nat

structure Bus where
  chip : Chip
  selected : Bool
  received : List Byte
  commands : List WriteCommand

namespace Bus

/-- Selecting the chip again starts another command. -/
def beginCommunication (bus : Bus) : Bus := { bus with selected := true, received := [] }

def endCommunication (duration : Nat → Nat) (bus : Bus) : Bus := {
  chip := bus.chip.execute duration bus.received
  selected := false
  received := []
  commands := bus.commands ++
    match bus.received with
    | command :: address :: data => if command = commandWrite then [⟨address, data.length⟩] else []
    | _ => [] }

def send (data : List Byte) (bus : Bus) : Bus := { bus with received := bus.received ++ data }

/-- Sends zeros and collects what is answered. -/
def receive : Nat → Bus → List Byte × Bus
  | 0, bus => ([], bus)
  | count + 1, bus =>
    let rest := receive count (bus.send [0])
    (bus.chip.answer bus.received :: rest.1, rest.2)

/-- A millisecond passes. -/
def delay (bus : Bus) : Bus :=
  { bus with chip := { bus.chip with remaining := bus.chip.remaining - 1 } }

end Bus

/-! ### The driver -/

structure Status where
  data : Byte

def Status.isWriteInProgress (status : Status) : Bool := status.data &&& 1 ≠ 0

def Status.isWriteEnabled (status : Status) : Bool := status.data &&& 2 ≠ 0

section Driver

variable (duration : Nat → Nat)

def setWriteEnable (bus : Bus) : Bus :=
  ((bus.beginCommunication).send [commandWriteEnable]).endCommunication duration

def readStatusRegister (bus : Bus) : Status × Bus :=
  let answered := ((bus.beginCommunication).send [commandReadStatusRegister]).receive 1
  (⟨answered.1.headD 0 &&& 0x0F⟩, answered.2.endCommunication duration)

/-- The loop of `await_write_complete` from a number of tries on. -/
def awaitTries (tries : Nat) (bus : Bus) : Bool × Bus :=
  if 20 < tries then (false, bus.delay)
  else
    let status := readStatusRegister duration bus.delay
    if status.1.isWriteInProgress then awaitTries (tries + 1) status.2 else (true, status.2)
termination_by 21 - tries

def awaitWriteComplete (bus : Bus) : Bool × Bus := awaitTries duration 0 bus

/-- The number of bytes that are reported and the bytes that were stored. -/
def read (address length : BitVec 32) (bus : Bus) : (BitVec 32 × List Byte) × Bus :=
  if !isAddressValid address || !isAddressValid (address + length - 1) then ((0, []), bus)
  else
    let answered := ((bus.beginCommunication).send [commandRead, address.setWidth 8]).receive
      length.toNat
    ((length, answered.1), answered.2.endCommunication duration)

def bytesFrom (buffer : Nat → Byte) (position count : Nat) : List Byte :=
  (List.range count).map fun k => buffer (position + k)

/-- One command of `write`, for the addresses from `pageStart` to `pageEnd`. -/
def writePage (address pageStart pageEnd : BitVec 32) (buffer : Nat → Byte) (bus : Bus) : Bus :=
  let data := bytesFrom buffer (pageStart - address).toNat (pageEnd - pageStart + 1).toNat
  ((setWriteEnable duration bus).beginCommunication.send
    (commandWrite :: pageStart.setWidth 8 :: data)).endCommunication duration

/-- The last address of a page, or of the buffer. -/
def pageEnd (lastByte pageStart : BitVec 32) : BitVec 32 :=
  if pageStart ||| addressMask < lastByte then pageStart ||| addressMask else lastByte

theorem or_addressMask_toNat (pageStart : BitVec 32) :
    (pageStart ||| addressMask).toNat = pageStart.toNat / 16 * 16 + 15 := by
  have hsmall : ∀ n < 2 ^ 4, n ||| 15 = 15 := by decide
  have hlow : pageStart.toNat % 2 ^ 4 ||| 15 = 15 := hsmall _ (Nat.mod_lt _ (by decide))
  have hsplit := Nat.two_pow_add_eq_or_of_lt (Nat.mod_lt pageStart.toNat (show 0 < 2 ^ 4 by decide))
    (pageStart.toNat / 16)
  have hfull := Nat.two_pow_add_eq_or_of_lt (show 15 < 2 ^ 4 by decide) (pageStart.toNat / 16)
  have hdiv := Nat.div_add_mod pageStart.toNat 16
  calc (pageStart ||| addressMask).toNat = pageStart.toNat ||| 15 := rfl
    _ = (2 ^ 4 * (pageStart.toNat / 16) ||| pageStart.toNat % 2 ^ 4) ||| 15 := by
      rw [← hsplit]
      congr 1
      omega
    _ = 2 ^ 4 * (pageStart.toNat / 16) ||| 15 := by
      rw [Nat.or_assoc, hlow]
    _ = pageStart.toNat / 16 * 16 + 15 := by
      rw [← hfull]
      omega

theorem pageEnd_toNat (lastByte pageStart : BitVec 32) :
    (pageEnd lastByte pageStart).toNat = min lastByte.toNat (pageStart.toNat / 16 * 16 + 15) := by
  rw [← or_addressMask_toNat, pageEnd]
  split
  · rename_i h
    rw [BitVec.lt_def] at h
    omega
  · rename_i h
    rw [BitVec.lt_def] at h
    omega

theorem isAddressValid_iff (address : BitVec 32) :
    isAddressValid address = true ↔ address.toNat ≤ 255 := by
  rw [isAddressValid, decide_eq_true_eq, BitVec.le_def]
  rfl

/-- The page that follows starts behind the page before it. -/
theorem next_toNat {lastByte : BitVec 32} (hlast : isAddressValid lastByte = true)
    (pageStart : BitVec 32) : (pageEnd lastByte pageStart + 1).toNat =
      min lastByte.toNat (pageStart.toNat / 16 * 16 + 15) + 1 := by
  rw [isAddressValid_iff] at hlast
  rw [BitVec.toNat_add, pageEnd_toNat]
  refine Nat.mod_eq_of_lt ?_
  change _ + 1 < 2 ^ 32
  omega

/-- The loop of `write`.  Every page is followed by a wait, the last one behind the loop. -/
def writePages (address lastByte : BitVec 32) (hlast : isAddressValid lastByte = true)
    (buffer : Nat → Byte) (pageStart : BitVec 32) (bus : Bus) : Bool × Bus :=
  let awaited := awaitWriteComplete duration
    (writePage duration address pageStart (pageEnd lastByte pageStart) buffer bus)
  if hnext : lastByte < pageEnd lastByte pageStart + 1 then awaited
  else if awaited.1 then
    writePages address lastByte hlast buffer (pageEnd lastByte pageStart + 1) awaited.2
  else (false, awaited.2)
termination_by lastByte.toNat - pageStart.toNat
decreasing_by
  have hstart := next_toNat hlast pageStart
  rw [BitVec.lt_def] at hnext
  omega

/-- The comparison at the end of `write`. -/
def compareWritten (address length : BitVec 32) (buffer : Nat → Byte) (bus : Bus) :
    BitVec 32 × Bus :=
  let written := read duration address length bus
  if written.1.1 = 0 then (0, written.2)
  else if written.1.2 = bytesFrom buffer 0 length.toNat then (1, written.2)
  else (0, written.2)

/-- `write` behind the check of the status. -/
def writeRange (pedantic : Bool) (address length : BitVec 32) (buffer : Nat → Byte) (bus : Bus) :
    BitVec 32 × Bus :=
  let lastByte := address + length - 1
  if hlast : isAddressValid lastByte = true then
    let written := writePages duration address lastByte hlast buffer address bus.beginCommunication
    if !written.1 then (0, written.2)
    else if pedantic then compareWritten duration address length buffer written.2
    else (length, written.2)
  else (0, bus.beginCommunication)

/-- `write` with and without `ANABRID_PEDANTIC`. -/
def write (pedantic : Bool) (address length : BitVec 32) (buffer : Nat → Byte) (bus : Bus) :
    BitVec 32 × Bus :=
  let enabled := setWriteEnable duration bus
  if pedantic then
    let status := readStatusRegister duration enabled
    if status.1.isWriteEnabled then writeRange duration pedantic address length buffer status.2
    else (0, status.2)
  else writeRange duration pedantic address length buffer enabled

/-- `write8` behind the check of the status. -/
def writeByte (pedantic : Bool) (address : BitVec 32) (data : Byte) (bus : Bus) : Bool × Bus :=
  let awaited := awaitWriteComplete duration
    ((bus.beginCommunication.send [commandWrite, address.setWidth 8, data]).endCommunication duration)
  if !awaited.1 then (false, awaited.2)
  else if pedantic then
    let written := read duration address 1 awaited.2
    (written.1.1 == 1 && written.1.2 == [data], written.2)
  else (true, awaited.2)

def write8 (pedantic : Bool) (address : BitVec 32) (data : Byte) (bus : Bus) : Bool × Bus :=
  let enabled := setWriteEnable duration bus
  if pedantic then
    let status := readStatusRegister duration enabled
    if status.1.isWriteEnabled then writeByte duration pedantic address data status.2
    else (false, status.2)
  else writeByte duration pedantic address data enabled

end Driver

end Lucidac.EEPROM25AA02
