import Lucidac.Chips.EEPROMRoundTrip

/-!
# Calls of the driver one after the other

Every call waits for what it wrote.  If the chip always completes its writes in time it is at rest
between the calls, whatever they are, so that a write after any run is stored and read again.
-/

namespace Lucidac.EEPROM25AA02

open Framework

section Driver

variable (duration : Nat → Nat) (pedantic : Bool)

/-- A call of the driver; the forms for two and four bytes are reads and writes of that length. -/
inductive Call where
  | read (address length : BitVec 32)
  | write (address length : BitVec 32) (buffer : Nat → Byte)
  | write8 (address : BitVec 32) (data : Byte)

def Bus.call (bus : Bus) : Call → Bus
  | .read address length => (EEPROM25AA02.read duration address length bus).2
  | .write address length buffer =>
    (EEPROM25AA02.write duration pedantic address length buffer bus).2
  | .write8 address data => (EEPROM25AA02.write8 duration pedantic address data bus).2

def runCalls (memory : Nat → Byte) (calls : List Call) : Bus :=
  calls.foldl (Bus.call duration pedantic) (.closed ⟨memory, false, 0, 0⟩ [])

/-! ### The chip is at rest between the calls -/

section Rest

variable {duration} (hduration : ∀ k, duration k ≤ pollingLimit) {bus : Bus}
  (hrest : bus.chip.remaining = 0)

theorem awaitWriteComplete_of_le {chip : Chip} (h : chip.remaining ≤ pollingLimit)
    (commands : List WriteCommand) : awaitWriteComplete duration (.closed chip commands) =
      (true, .closed { chip with remaining := 0 } commands) := by
  rw [awaitWriteComplete_eq, if_pos h]

include hrest in
theorem rest_read (address length : BitVec 32) :
    (read duration address length bus).2.chip.remaining = 0 := by
  by_cases hvalid : isAddressValid address = true ∧ isAddressValid (address + length - 1) = true
  · rw [read_valid duration hvalid.1 hvalid.2 hrest]
    exact hrest
  · rw [read_invalid duration bus hvalid]
    exact hrest

include hrest in
theorem rest_compareWritten (address length : BitVec 32) (buffer : Nat → Byte) :
    (compareWritten duration address length buffer bus).2.chip.remaining = 0 := by
  have hread : (read duration address length bus).2.chip.remaining = 0 :=
    rest_read hrest address length
  rw [compareWritten]
  split
  · exact hread
  · split <;> exact hread

include hduration hrest in
theorem rest_writePage (address pageStart pageEnd : BitVec 32) (buffer : Nat → Byte) :
    ∃ chip commands, writePage duration address pageStart pageEnd buffer bus =
      .closed chip commands ∧ chip.remaining ≤ pollingLimit := by
  by_cases hcount : (pageEnd - pageStart + 1).toNat = 0
  · -- without data the command changes nothing
    have hexecute : Chip.execute duration { bus.chip with writeEnabled := true }
        [commandWrite, pageStart.setWidth 8] = { bus.chip with writeEnabled := true } := by
      simp [Chip.execute, commandWrite, commandWriteEnable]
    refine ⟨{ bus.chip with writeEnabled := true },
      bus.commands ++ [⟨pageStart.setWidth 8, 0⟩], ?_, ?_⟩
    · rw [writePage, setWriteEnable_eq duration hrest, hcount]
      simp only [bytesFrom, List.range_zero, List.map_nil, Bus.closed, Bus.beginCommunication, Bus.send,
        Bus.endCommunication, List.nil_append, hexecute, if_true, List.length_nil]
    · exact Nat.le_trans (Nat.le_of_eq hrest) (Nat.zero_le _)
  · exact ⟨_, _, writePage_eq duration address _ _ buffer hcount hrest, hduration _⟩

include hduration hrest in
theorem rest_awaited (address pageStart pageEnd : BitVec 32) (buffer : Nat → Byte) :
    (awaitWriteComplete duration
      (writePage duration address pageStart pageEnd buffer bus)).2.chip.remaining = 0 := by
  obtain ⟨chip, commands, hpage, hle⟩ :=
    rest_writePage hduration hrest address pageStart pageEnd buffer
  rw [hpage, awaitWriteComplete_of_le hle]
  rfl

include hduration hrest in
theorem rest_writePages (address : BitVec 32) {lastByte : BitVec 32}
    (hlast : isAddressValid lastByte = true) (buffer : Nat → Byte) (pageStart : BitVec 32) :
    (writePages duration address lastByte hlast buffer pageStart bus).2.chip.remaining = 0 := by
  induction pageStart, bus using writePages.induct duration address lastByte hlast buffer with
  | case1 pageStart bus hdone =>
    rw [writePages, dif_pos hdone]
    exact rest_awaited hduration hrest address _ _ buffer
  | case2 pageStart bus _ hmore hawaited ih =>
    rw [writePages, dif_neg hmore]
    refine Eq.trans (congrArg (fun r : Bool × Bus => r.2.chip.remaining) (if_pos hawaited)) ?_
    exact ih (rest_awaited hduration hrest address _ _ buffer)
  | case3 pageStart bus _ hmore hawaited =>
    rw [writePages, dif_neg hmore]
    refine Eq.trans (congrArg (fun r : Bool × Bus => r.2.chip.remaining) (if_neg hawaited)) ?_
    exact rest_awaited hduration hrest address _ _ buffer

include hduration hrest in
theorem rest_writeRange (address length : BitVec 32) (buffer : Nat → Byte) :
    (writeRange duration pedantic address length buffer bus).2.chip.remaining = 0 := by
  rw [writeRange]
  split
  · rename_i hlast
    have hbegun : bus.beginCommunication.chip.remaining = 0 := hrest
    have hpages := rest_writePages hduration hbegun address hlast buffer address
    dsimp only
    split
    · exact hpages
    · split
      · exact rest_compareWritten hpages address length buffer
      · exact hpages
  · exact hrest

include hduration hrest in
theorem rest_writeByte (henabled : bus.chip.writeEnabled = true) (address : BitVec 32)
    (data : Byte) : (writeByte duration pedantic address data bus).2.chip.remaining = 0 := by
  have hsent := endCommunication_write duration (List.cons_ne_nil data [])
    (show (bus.beginCommunication.send [commandWrite, address.setWidth 8, data]).received =
      [commandWrite, address.setWidth 8, data] from rfl) hrest henabled
  rw [writeByte, hsent, awaitWriteComplete_of_le (hduration _)]
  cases pedantic with
  | false => rfl
  | true => exact rest_read rfl address 1

include hduration hrest in
theorem rest_call (c : Call) : (bus.call duration pedantic c).chip.remaining = 0 := by
  cases c with
  | read address length => exact rest_read hrest address length
  | write address length buffer =>
    have henabled : (Bus.closed { bus.chip with writeEnabled := true }
        bus.commands).chip.remaining = 0 := hrest
    rw [Bus.call, write_eq duration pedantic _ _ _ hrest]
    exact rest_writeRange pedantic hduration henabled address length buffer
  | write8 address data =>
    rw [Bus.call, write8, setWriteEnable_eq duration hrest]
    have hbyte := rest_writeByte pedantic hduration
      (show (Bus.closed { bus.chip with writeEnabled := true } bus.commands).chip.remaining = 0
        from hrest) rfl address data
    cases pedantic with
    | false => exact hbyte
    | true =>
      have henabled := isWriteEnabled_status { bus.chip with writeEnabled := true }
      simp only [readStatusRegister_eq]
      refine Eq.trans (congrArg (fun r : Bool × Bus => r.2.chip.remaining) (if_pos henabled)) ?_
      exact hbyte

include hduration in
theorem rest_runCalls (memory : Nat → Byte) (calls : List Call) :
    (runCalls duration pedantic memory calls).chip.remaining = 0 :=
  List.foldlRecOn (motive := fun bus => bus.chip.remaining = 0) calls (Bus.call duration pedantic)
    rfl fun _ hbus c _ => rest_call pedantic hduration hbus c

end Rest

/-- After any calls of the driver, in both builds, a write changes exactly the bytes of its range,
does not cross a page border with any command, and is read again, if the chip completes its writes
in time. -/
theorem runCalls_write_read (hduration : ∀ k, duration k ≤ pollingLimit) (memory : Nat → Byte)
    (calls : List Call) {address length : BitVec 32} (buffer : Nat → Byte)
    (hlength : 1 ≤ length.toNat) (hrange : address.toNat + length.toNat ≤ 256) :
    ∃ (bus after : Bus) (commands : List WriteCommand),
      runCalls duration pedantic memory calls = bus ∧
      (write duration pedantic address length buffer bus).2 = after ∧
      after.commands = bus.commands ++ commands ∧ (∀ command ∈ commands, command.FitsPage) ∧
      (∀ a, after.chip.memory a = if address.toNat ≤ a ∧ a < address.toNat + length.toNat then
        buffer (a - address.toNat) else bus.chip.memory a) ∧
      (read duration address length after).1 = (length, bytesFrom buffer 0 length.toNat) := by
  obtain ⟨commands, after, hwrite⟩ := write_read_of_rest duration pedantic buffer hduration hlength
    hrange (rest_runCalls pedantic hduration memory calls)
  exact ⟨_, after, commands, rfl, hwrite⟩

end Driver

/-- Four bytes across a page border, after a byte was written in front of them. -/
theorem runCalls_write_read_across_border :
    ∃ after, (write (fun _ => 5) true 14 4 (fun k => BitVec.ofNat 8 k)
        (runCalls (fun _ => 5) true (fun _ => 0xFF) [.write8 13 7])).2 = after ∧
      after.chip.memory 15 = 1 ∧ after.chip.memory 17 = 3 := by
  obtain ⟨bus, after, -, hbus, hafter, -, -, hmemory, -⟩ := runCalls_write_read (fun _ => 5) true
    (fun _ => by decide) (fun _ => 0xFF) [.write8 13 7] (fun k => BitVec.ofNat 8 k)
    (show 1 ≤ (4 : BitVec 32).toNat by decide)
    (show (14 : BitVec 32).toNat + (4 : BitVec 32).toNat ≤ 256 by decide)
  rw [← hbus] at hafter
  exact ⟨after, hafter, (hmemory 15).trans (if_pos (by decide)),
    (hmemory 17).trans (if_pos (by decide))⟩

end Lucidac.EEPROM25AA02
