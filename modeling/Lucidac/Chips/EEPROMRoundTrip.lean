import Lucidac.Chips.EEPROMWrites

/-!
# Reading what was written

A write inside of the memory changes exactly the bytes of the buffer, whether its status and its
bytes are checked or not, and they are read again.
-/

namespace Lucidac.EEPROM25AA02

open Framework

section Driver

variable (duration : Nat → Nat)

/-- What the chip answers to a read command. -/
def Chip.bytes (chip : Chip) (address count : Nat) : List Byte :=
  (List.range count).map fun k => chip.memory ((address + k) % 256)

theorem read_valid {address length : BitVec 32} (haddress : isAddressValid address = true)
    (hlast : isAddressValid (address + length - 1) = true) {bus : Bus}
    (hrest : bus.chip.remaining = 0) : read duration address length bus =
      ((length, bus.chip.bytes address.toNat length.toNat), .closed bus.chip bus.commands) := by
  have hlow : (address.setWidth 8).toNat = address.toNat := by
    rw [isAddressValid_iff] at haddress
    rw [BitVec.toNat_setWidth]
    exact Nat.mod_eq_of_lt (by omega)
  have hreceived : (bus.beginCommunication.send [commandRead, address.setWidth 8]).received =
      [commandRead, address.setWidth 8] := rfl
  have hanswered := receive_memory hreceived hrest length.toNat
  rw [read, haddress, hlast, if_neg (by decide)]
  simp only [receive_snd, hanswered, hlow, List.length_nil, Nat.zero_add]
  have hsent : ((bus.beginCommunication.send [commandRead, address.setWidth 8]).send
      (List.replicate length.toNat 0)).received =
        commandRead :: address.setWidth 8 :: List.replicate length.toNat 0 := rfl
  exact Prod.ext rfl (endCommunication_reading duration hsent (Or.inl rfl))

theorem read_invalid {address length : BitVec 32} (bus : Bus)
    (h : ¬(isAddressValid address = true ∧ isAddressValid (address + length - 1) = true)) :
    read duration address length bus = ((0, []), bus) := by
  rw [read, if_pos]
  simp only [Bool.or_eq_true, Bool.not_eq_true']
  rcases not_and_or.mp h with h | h
  · exact Or.inl (Bool.eq_false_iff.mpr h)
  · exact Or.inr (Bool.eq_false_iff.mpr h)

theorem ne_zero_of_length {length : BitVec 32} (hlength : 1 ≤ length.toNat) : length ≠ 0 := by
  rintro rfl
  exact absurd hlength (by decide)

theorem compareWritten_eq {address length : BitVec 32} (buffer : Nat → Byte)
    (hlength : 1 ≤ length.toNat) (haddress : isAddressValid address = true)
    (hlast : isAddressValid (address + length - 1) = true) {bus : Bus}
    (hrest : bus.chip.remaining = 0) : compareWritten duration address length buffer bus =
      (if bus.chip.bytes address.toNat length.toNat = bytesFrom buffer 0 length.toNat then 1 else 0,
        .closed bus.chip bus.commands) := by
  have hne := ne_zero_of_length hlength
  rw [compareWritten, read_valid duration haddress hlast hrest]
  simp only [hne, if_false]
  split <;> rfl

/-- The check of the status is passed. -/
theorem write_eq (pedantic : Bool) (address length : BitVec 32) (buffer : Nat → Byte) {bus : Bus}
    (hrest : bus.chip.remaining = 0) : write duration pedantic address length buffer bus =
      writeRange duration pedantic address length buffer
        (.closed { bus.chip with writeEnabled := true } bus.commands) := by
  rw [write, setWriteEnable_eq duration hrest]
  cases pedantic with
  | false => rfl
  | true =>
    have henabled := isWriteEnabled_status { bus.chip with writeEnabled := true }
    simp only [readStatusRegister_eq]
    exact if_pos henabled

theorem bytes_stored (chip : Chip) {address length : Nat} (writes remaining : Nat)
    (buffer : Nat → Byte) (hrange : address + length ≤ 256) :
    (chip.stored address address (address + length) writes remaining buffer).bytes address length =
      bytesFrom buffer 0 length := by
  have hdata : (bytesFrom buffer (address - address) (address + length - address)) =
      bytesFrom buffer 0 length := by
    rw [Nat.sub_self, Nat.add_sub_cancel_left]
  have hread := PagedMemory.map_store chip.memory address (bytesFrom buffer 0 length)
  rw [length_bytesFrom] at hread
  rw [← hread, Chip.bytes]
  refine List.map_congr_left fun k hk => ?_
  rw [List.mem_range] at hk
  rw [Nat.mod_eq_of_lt (by omega), Chip.stored, hdata]

theorem memory_stored (chip : Chip) (address length writes remaining : Nat) (buffer : Nat → Byte)
    (a : Nat) : (chip.stored address address (address + length) writes remaining buffer).memory a =
      if address ≤ a ∧ a < address + length then buffer (a - address) else chip.memory a := by
  have hlength := length_bytesFrom buffer (address - address) (address + length - address)
  simp only [Chip.stored]
  split
  · rename_i ha
    obtain ⟨k, rfl⟩ := Nat.exists_eq_add_of_le ha.1
    rw [PagedMemory.store_inside _ _ _ (by omega)]
    simp [bytesFrom]
  · rename_i ha
    exact PagedMemory.store_outside _ _ _ (by omega)

section Inside

variable (pedantic : Bool) {address length : BitVec 32} (buffer : Nat → Byte)

theorem lastByte_toNat (hlength : 1 ≤ length.toNat) (hrange : address.toNat + length.toNat ≤ 256) :
    (address + length - 1).toNat = address.toNat + length.toNat - 1 := by
  bv_omega

theorem valid_of_range (hlength : 1 ≤ length.toNat)
    (hrange : address.toNat + length.toNat ≤ 256) : isAddressValid address = true ∧
      isAddressValid (address + length - 1) = true ∧ address ≤ address + length - 1 := by
  have hlast := lastByte_toNat hlength hrange
  rw [isAddressValid_iff, isAddressValid_iff, BitVec.le_def]
  omega

/-- Every page is completed in time. -/
def Completes (chip : Chip) (address length : Nat) : Prop :=
  ∀ k < pagesTouched address (address + length - 1),
    duration (chip.internalWrites + k) ≤ pollingLimit

theorem write_completes (hlength : 1 ≤ length.toNat)
    (hrange : address.toNat + length.toNat ≤ 256) {bus : Bus} (hrest : bus.chip.remaining = 0)
    (hcompletes : Completes duration bus.chip address.toNat length.toNat) :
    ∃ commands : List WriteCommand, (∀ command ∈ commands, command.FitsPage) ∧
      write duration pedantic address length buffer bus =
        (if pedantic then 1 else length,
          .closed (bus.chip.stored address.toNat address.toNat (address.toNat + length.toNat)
            (pagesTouched address.toNat (address.toNat + length.toNat - 1)) 0 buffer)
            (bus.commands ++ commands)) := by
  have hlast := lastByte_toNat hlength hrange
  obtain ⟨haddress, hvalid, hstart⟩ := valid_of_range hlength hrange
  have hopen : (Bus.closed { bus.chip with writeEnabled := true }
      bus.commands).beginCommunication.chip.remaining = 0 := hrest
  obtain ⟨commands, hcommands, hwritten⟩ := writePages_completes duration address hvalid buffer
    (BitVec.le_refl address) hstart hopen (by rw [hlast]; exact hcompletes)
  have hnext : (address + length - 1).toNat + 1 = address.toNat + length.toNat := by omega
  rw [hnext, hlast] at hwritten
  refine ⟨commands, hcommands, ?_⟩
  rw [write_eq duration pedantic _ _ _ hrest, writeRange]
  simp only [dif_pos hvalid, hwritten]
  cases pedantic with
  | false => rfl
  | true =>
    have hcompared := compareWritten_eq duration buffer hlength haddress hvalid
      (show (Bus.closed (bus.chip.stored address.toNat address.toNat
        (address.toNat + length.toNat) (pagesTouched address.toNat
          (address.toNat + length.toNat - 1)) 0 buffer)
        (bus.commands ++ commands)).chip.remaining = 0 from rfl)
    have hbytes := bytes_stored bus.chip
      (pagesTouched address.toNat (address.toNat + length.toNat - 1)) 0 buffer hrange
    exact hcompared.trans (Prod.ext (if_pos hbytes) rfl)

theorem write_gives_up (hlength : 1 ≤ length.toNat)
    (hrange : address.toNat + length.toNat ≤ 256) {bus : Bus} (hrest : bus.chip.remaining = 0)
    (hcompletes : ¬Completes duration bus.chip address.toNat length.toNat) :
    (write duration pedantic address length buffer bus).1 = 0 ∧
      (write duration pedantic address length buffer bus).2.selected = false := by
  have hlast := lastByte_toNat hlength hrange
  obtain ⟨-, hvalid, hstart⟩ := valid_of_range hlength hrange
  have hopen : (Bus.closed { bus.chip with writeEnabled := true }
      bus.commands).beginCommunication.chip.remaining = 0 := hrest
  obtain ⟨k, hk⟩ := not_forall.mp hcompletes
  rw [Classical.not_imp, Nat.not_le, ← hlast] at hk
  obtain ⟨hfailed, hclosed⟩ := writePages_gives_up duration address hvalid buffer
    (BitVec.le_refl address) hstart hopen ⟨k, hk⟩
  rw [write_eq duration pedantic _ _ _ hrest, writeRange]
  simp only [dif_pos hvalid, hfailed]
  exact ⟨rfl, hclosed⟩

/-- In both builds a write changes exactly the bytes of its range, does not cross a page border
with any command, and is read again, if the chip completes every page in time. -/
theorem write_read_of_rest (hduration : ∀ k, duration k ≤ pollingLimit) (hlength : 1 ≤ length.toNat)
    (hrange : address.toNat + length.toNat ≤ 256) {bus : Bus} (hrest : bus.chip.remaining = 0) :
    ∃ (commands : List WriteCommand) (after : Bus),
      (write duration pedantic address length buffer bus).2 = after ∧
      after.commands = bus.commands ++ commands ∧ (∀ command ∈ commands, command.FitsPage) ∧
      (∀ a, after.chip.memory a = if address.toNat ≤ a ∧ a < address.toNat + length.toNat then
        buffer (a - address.toNat) else bus.chip.memory a) ∧
      (read duration address length after).1 = (length, bytesFrom buffer 0 length.toNat) := by
  obtain ⟨commands, hcommands, hwrite⟩ := write_completes duration pedantic buffer hlength hrange
    hrest fun k _ => hduration _
  refine ⟨commands, _, congrArg Prod.snd hwrite, rfl, hcommands, ?_, ?_⟩
  · exact memory_stored _ _ _ _ _ _
  · obtain ⟨haddress, hlast, -⟩ := valid_of_range hlength hrange
    rw [read_valid duration haddress hlast rfl]
    exact Prod.ext rfl (bytes_stored bus.chip _ 0 buffer hrange)

end Inside

end Driver

/-- An erased chip that was never written. -/
def erased : Bus := .closed ⟨fun _ => 0xFF, false, 0, 0⟩ []

end Lucidac.EEPROM25AA02
