import Lucidac.Chips.EEPROMRoundTrip
import Mathlib.Algebra.Group.Nat.Defs

/-!
# What is returned for any address and length

The driver computes the last address modulo 2³² and checks it while the transaction is already
open.  A sum that wraps around is taken for a range inside of the memory, a range that is refused
leaves the transaction open, and the comparison of the pedantic build returns one for any length.
-/

namespace Lucidac.EEPROM25AA02

open Framework

section Driver

variable (duration : Nat → Nat) (address length : BitVec 32)

/-- The bytes fit into the memory. -/
def InRange : Prop := address.toNat + length.toNat ≤ 256

instance : Decidable (InRange address length) := Nat.decLe _ _

/-- Zero is returned for a range that does not fit, and the length otherwise. -/
def ReadRight (bus : Bus) : Prop :=
  let after := read duration address length bus
  (after.1.1 = 0 ↔ ¬InRange address length) ∧ (InRange address length → after.1.1 = length) ∧
    after.2.selected = false

/-- Zero is returned for a range that does not fit, which changes no byte, and for a write that is
not completed, and the length otherwise. -/
def WriteRight (pedantic : Bool) (buffer : Nat → Byte) (bus : Bus) : Prop :=
  let after := write duration pedantic address length buffer bus
  let completed := InRange address length ∧
    Completes duration bus.chip address.toNat length.toNat
  (after.1 = 0 ↔ ¬completed) ∧ (completed → after.1 = length) ∧ after.2.selected = false ∧
    (¬InRange address length → after.2.chip.memory = bus.chip.memory)

/-- The sum wraps around to an address of the memory. -/
def Wraps : Prop :=
  2 ^ 32 < address.toNat + length.toNat ∧ address.toNat + length.toNat ≤ 2 ^ 32 + 256

variable {address length}

theorem lastByte_valid_iff (hlength : 1 ≤ length.toNat) :
    isAddressValid (address + length - 1) = true ↔
      InRange address length ∨ Wraps address length := by
  rw [isAddressValid_iff, InRange, Wraps]
  bv_omega

theorem readRight_iff (hlength : 1 ≤ length.toNat) {bus : Bus} (hrest : bus.chip.remaining = 0)
    (hclosed : bus.selected = false) : ReadRight duration address length bus ↔
      ¬(address.toNat ≤ 255 ∧ Wraps address length) := by
  have hne := ne_zero_of_length hlength
  rw [ReadRight]
  by_cases hvalid : isAddressValid address = true ∧ isAddressValid (address + length - 1) = true
  · rw [read_valid duration hvalid.1 hvalid.2 hrest]
    rw [isAddressValid_iff, lastByte_valid_iff hlength] at hvalid
    simp only [hne, false_iff, not_not, Bus.closed]
    refine ⟨fun h hwraps => ?_, fun h => ?_⟩
    · have hrange := h.1
      rw [InRange] at hrange
      rw [Wraps] at hwraps
      omega
    · have hrange := hvalid.2.resolve_right fun hwraps => h ⟨hvalid.1, hwraps⟩
      exact ⟨hrange, fun _ => trivial, trivial⟩
  · rw [read_invalid duration bus hvalid]
    rw [isAddressValid_iff, lastByte_valid_iff hlength] at hvalid
    have hout : ¬InRange address length := by
      intro hrange
      refine hvalid ⟨?_, Or.inl hrange⟩
      rw [InRange] at hrange
      omega
    refine iff_of_true ⟨iff_of_true rfl hout, fun h => absurd h hout, hclosed⟩ ?_
    rintro ⟨haddress, hwraps⟩
    exact hvalid ⟨haddress, Or.inr hwraps⟩

/-! ### Writing -/

section Write

variable (pedantic : Bool) (buffer : Nat → Byte)

theorem write_rejected (hrange : ¬InRange address length) (hwraps : ¬Wraps address length)
    (hlength : 1 ≤ length.toNat) {bus : Bus} (hrest : bus.chip.remaining = 0) :
    (write duration pedantic address length buffer bus).2.selected = true := by
  have hinvalid : ¬isAddressValid (address + length - 1) = true := by
    rw [lastByte_valid_iff hlength]
    exact not_or.mpr ⟨hrange, hwraps⟩
  rw [write_eq duration pedantic _ _ _ hrest, writeRange]
  simp only [dif_neg hinvalid]
  rfl

theorem compareWritten_invalid {address : BitVec 32} (length : BitVec 32) (buffer : Nat → Byte)
    (haddress : ¬address.toNat ≤ 255) (bus : Bus) :
    compareWritten duration address length buffer bus = (0, bus) := by
  rw [compareWritten, read_invalid duration bus]
  · rfl
  · rw [isAddressValid_iff]
    exact fun h => haddress h.1

/-- The chip after the only command of a write that wraps around. -/
def Chip.wrapped (chip : Chip) (address length : BitVec 32) (buffer : Nat → Byte) : Chip :=
  chip.programmed duration (address.setWidth 8).toNat (bytesFrom buffer 0 length.toNat)

theorem writePages_wraps (hwraps : Wraps address length)
    (hlast : isAddressValid (address + length - 1) = true) {bus : Bus}
    (hrest : bus.chip.remaining = 0) :
    writePages duration address (address + length - 1) hlast buffer address bus =
      if duration bus.chip.internalWrites ≤ pollingLimit then
        (true, .closed { bus.chip.wrapped duration address length buffer with remaining := 0 }
          (bus.commands ++ [⟨address.setWidth 8, length.toNat⟩]))
      else (false, .closed ((bus.chip.wrapped duration address length buffer).wait 22)
        (bus.commands ++ [⟨address.setWidth 8, length.toNat⟩])) := by
  rw [Wraps] at hwraps
  have hend : pageEnd (address + length - 1) address = address + length - 1 := by
    rw [← BitVec.toNat_inj, pageEnd_toNat]
    bv_omega
  have hcount : (address + length - 1 - address + 1).toNat = length.toNat := by bv_omega
  have hposition : (address - address).toNat = 0 := by bv_omega
  have hdone : address + length - 1 < address + length - 1 + 1 := by
    rw [isAddressValid_iff] at hlast
    bv_omega
  have hsome : (address + length - 1 - address + 1).toNat ≠ 0 := by bv_omega
  rw [writePages, hend, dif_pos hdone, writePage_eq duration address _ _ buffer hsome hrest, hcount,
    hposition]
  exact awaitWriteComplete_eq duration _ _

/-- What a write returns whose range wraps around. -/
def wrappedResult (address length : BitVec 32) (chip : Chip) : BitVec 32 :=
  if duration chip.internalWrites ≤ pollingLimit then
    if pedantic then
      if address.toNat ≤ 255 ∧ (chip.wrapped duration address length buffer).bytes address.toNat
          length.toNat = bytesFrom buffer 0 length.toNat then 1 else 0
    else length
  else 0

theorem write_wraps (hlength : 1 ≤ length.toNat) (hwraps : Wraps address length) {bus : Bus}
    (hrest : bus.chip.remaining = 0) :
    ∃ after, write duration pedantic address length buffer bus =
        (wrappedResult duration pedantic buffer address length bus.chip, after) ∧
      after.selected = false ∧
      after.chip.memory = (bus.chip.wrapped duration address length buffer).memory := by
  have hvalid := (lastByte_valid_iff hlength).mpr (Or.inr hwraps)
  have hopen : (Bus.closed { bus.chip with writeEnabled := true }
      bus.commands).beginCommunication.chip.remaining = 0 := hrest
  have hwritten := writePages_wraps duration buffer hwraps hvalid hopen
  rw [write_eq duration pedantic _ _ _ hrest, writeRange, wrappedResult]
  simp only [dif_pos hvalid]
  by_cases hcompletes : duration bus.chip.internalWrites ≤ pollingLimit
  · rw [hwritten.trans (if_pos hcompletes), if_pos hcompletes]
    cases pedantic with
    | false => exact ⟨_, rfl, rfl, rfl⟩
    | true =>
      by_cases haddress : address.toNat ≤ 255
      · have hcompared := compareWritten_eq duration buffer hlength
          ((isAddressValid_iff address).mpr haddress) hvalid
          (show (Bus.closed { bus.chip.wrapped duration address length buffer with remaining := 0 }
            (bus.commands ++ [⟨address.setWidth 8, length.toNat⟩])).chip.remaining = 0 from rfl)
        refine ⟨_, hcompared.trans (Prod.ext ?_ rfl), rfl, rfl⟩
        simp only [haddress, true_and, if_true]
        rfl
      · have hcompared := compareWritten_invalid duration length buffer haddress
          (.closed { bus.chip.wrapped duration address length buffer with remaining := 0 }
            (bus.commands ++ [⟨address.setWidth 8, length.toNat⟩]))
        refine ⟨_, hcompared.trans (Prod.ext ?_ rfl), rfl, rfl⟩
        simp only [haddress, false_and, if_false, if_true]
  · rw [hwritten.trans (if_neg hcompletes), if_neg hcompletes]
    exact ⟨_, rfl, rfl, rfl⟩

theorem not_inRange_of_wraps (hwraps : Wraps address length) : ¬InRange address length := by
  rw [Wraps] at hwraps
  rw [InRange]
  omega

theorem writeRight_inRange_iff (hlength : 1 ≤ length.toNat) (hrange : InRange address length)
    {bus : Bus} (hrest : bus.chip.remaining = 0) :
    WriteRight duration address length pedantic buffer bus ↔
      (pedantic = true → Completes duration bus.chip address.toNat length.toNat → length = 1) := by
  rw [WriteRight]
  by_cases hcompletes : Completes duration bus.chip address.toNat length.toNat
  · obtain ⟨commands, -, hwrite⟩ :=
      write_completes duration pedantic buffer hlength hrange hrest hcompletes
    rw [hwrite]
    cases pedantic with
    | false =>
      refine iff_of_true ⟨iff_of_false (ne_zero_of_length hlength) ?_, fun _ => rfl, rfl, ?_⟩ nofun
      · exact not_not.mpr ⟨hrange, hcompletes⟩
      · exact fun h => absurd hrange h
    | true =>
      constructor
      · rintro ⟨-, hvalue, -⟩ - -
        exact (hvalue ⟨hrange, hcompletes⟩).symm
      · intro hone
        refine ⟨iff_of_false (show (1 : BitVec 32) ≠ 0 by decide)
          (not_not.mpr ⟨hrange, hcompletes⟩), fun _ => ?_, rfl,
          fun h => absurd hrange h⟩
        exact (hone rfl hcompletes).symm
  · obtain ⟨hzero, hclosed⟩ :=
      write_gives_up duration pedantic buffer hlength hrange hrest hcompletes
    refine iff_of_true ⟨iff_of_true hzero fun h => hcompletes h.2, fun h => absurd h.2 hcompletes,
      hclosed, fun h => absurd hrange h⟩ fun _ h => absurd h hcompletes

/-- The one command of a write that wraps around stores what is there already, and zero is
returned because it is not completed or the comparison fails. -/
def Unnoticed (address length : BitVec 32) (chip : Chip) : Prop :=
  Wraps address length ∧ (chip.wrapped duration address length buffer).memory = chip.memory ∧
    (pollingLimit < duration chip.internalWrites ∨ pedantic = true ∧ ¬(address.toNat ≤ 255 ∧
      chip.bytes address.toNat length.toNat = bytesFrom buffer 0 length.toNat))

theorem wrappedResult_eq_zero_iff (hlength : 1 ≤ length.toNat) (chip : Chip) :
    wrappedResult duration pedantic buffer address length chip = 0 ↔
      pollingLimit < duration chip.internalWrites ∨ pedantic = true ∧ ¬(address.toNat ≤ 255 ∧
        (chip.wrapped duration address length buffer).bytes address.toNat length.toNat =
          bytesFrom buffer 0 length.toNat) := by
  rw [wrappedResult]
  split
  · rename_i hcompletes
    rw [or_iff_right (Nat.not_lt.mpr hcompletes)]
    cases pedantic with
    | false => exact iff_of_false (ne_zero_of_length hlength) nofun
    | true =>
      rw [if_pos rfl]
      split
      · rename_i h
        exact iff_of_false (by decide) fun hfails => hfails.2 h
      · rename_i h
        exact iff_of_true rfl ⟨rfl, h⟩
  · rename_i hlong
    exact iff_of_true rfl (Or.inl (Nat.not_le.mp hlong))

theorem writeRight_wraps_iff (hlength : 1 ≤ length.toNat) (hwraps : Wraps address length)
    {bus : Bus} (hrest : bus.chip.remaining = 0) :
    WriteRight duration address length pedantic buffer bus ↔
      Unnoticed duration pedantic buffer address length bus.chip := by
  have hout := not_inRange_of_wraps hwraps
  obtain ⟨after, hwrite, hclosed, hmemory⟩ :=
    write_wraps duration pedantic buffer hlength hwraps hrest
  have hbytes : (bus.chip.wrapped duration address length buffer).memory = bus.chip.memory →
      (bus.chip.wrapped duration address length buffer).bytes address.toNat length.toNat =
        bus.chip.bytes address.toNat length.toNat := by
    intro hsame
    rw [Chip.bytes, Chip.bytes, hsame]
  rw [WriteRight, hwrite, Unnoticed]
  simp only [hmemory, hclosed, hout, false_and, not_false_eq_true, iff_true, false_implies, true_and,
    true_implies, wrappedResult_eq_zero_iff duration pedantic buffer hlength, and_iff_right hwraps]
  constructor
  · rintro ⟨hzero, hsame⟩
    rw [hbytes hsame] at hzero
    exact ⟨hsame, hzero⟩
  · rintro ⟨hsame, hzero⟩
    rw [← hbytes hsame] at hzero
    exact ⟨hzero, hsame⟩

theorem writeRight_iff (hlength : 1 ≤ length.toNat) {bus : Bus} (hrest : bus.chip.remaining = 0) :
    WriteRight duration address length pedantic buffer bus ↔
      (InRange address length ∧ (pedantic = true →
        Completes duration bus.chip address.toNat length.toNat → length = 1)) ∨
      Unnoticed duration pedantic buffer address length bus.chip := by
  by_cases hrange : InRange address length
  · have hnot : ¬Unnoticed duration pedantic buffer address length bus.chip :=
      fun h => not_inRange_of_wraps h.1 hrange
    rw [writeRight_inRange_iff duration pedantic buffer hlength hrange hrest, or_iff_left hnot,
      and_iff_right hrange]
  · rw [or_iff_right fun h => hrange h.1]
    by_cases hwraps : Wraps address length
    · exact writeRight_wraps_iff duration pedantic buffer hlength hwraps hrest
    · refine iff_of_false ?_ fun h => hwraps h.1
      rintro ⟨-, -, hclosed, -⟩
      rw [write_rejected duration pedantic buffer hrange hwraps hlength hrest] at hclosed
      cases hclosed

/-- With the bus closed and the chip at rest, reading keeps its promises exactly if the range does
not wrap around from an address of the memory.  Writing keeps them exactly if the range fits and,
in the pedantic build, has one byte or is not completed, or if it wraps around unnoticed. -/
theorem returns_right_iff (hlength : 1 ≤ length.toNat) {bus : Bus} (hrest : bus.chip.remaining = 0)
    (hclosed : bus.selected = false) :
    (ReadRight duration address length bus ↔ ¬(address.toNat ≤ 255 ∧ Wraps address length)) ∧
      (WriteRight duration address length pedantic buffer bus ↔
        (InRange address length ∧ (pedantic = true →
          Completes duration bus.chip address.toNat length.toNat → length = 1)) ∨
        Unnoticed duration pedantic buffer address length bus.chip) :=
  ⟨readRight_iff duration hlength hrest hclosed,
    writeRight_iff duration pedantic buffer hlength hrest⟩

end Write

end Driver

/-- A range that fits and one that wraps around, in the pedantic build. -/
theorem returns_right_of_one_byte :
    WriteRight (fun _ => 5) 255 1 true (fun _ => 0) erased ∧
      ¬ReadRight (fun _ => 5) 255 0xFFFFFF02 erased := by
  have hwrite : WriteRight (fun _ => 5) 255 1 true (fun _ => 0) erased ↔ _ :=
    (returns_right_iff (fun _ => 5) true (fun _ => 0) (by decide) rfl rfl).2
  have hread : ReadRight (fun _ => 5) 255 0xFFFFFF02 erased ↔ _ :=
    (returns_right_iff (fun _ => 5) true (fun _ => 0) (by decide) rfl rfl).1
  exact ⟨hwrite.mpr (Or.inl ⟨by decide, fun _ _ => rfl⟩),
    fun h => hread.mp h (by rw [Wraps]; decide)⟩

/-- Refusing a byte behind the memory leaves the transaction open, and the pedantic build reports
one byte for two that were written. -/
theorem write_returns_wrong :
    ¬WriteRight (fun _ => 5) 256 1 false (fun _ => 0) erased ∧
      ¬WriteRight (fun _ => 5) 0 2 true (fun _ => 0) erased := by
  have hcompletes : Completes (fun _ => 5) erased.chip 0 2 :=
    fun _ _ => show 5 ≤ 21 by decide
  constructor
  · rintro ⟨-, -, hclosed, -⟩
    rw [write_rejected (fun _ => 5) false (fun _ => 0) (by decide) (by rw [Wraps]; decide)
      (by decide) rfl] at hclosed
    cases hclosed
  · intro h
    have hone := (writeRight_inRange_iff (fun _ => 5) true (fun _ => 0) (by decide)
      (by decide) rfl).mp h rfl hcompletes
    exact absurd hone (by decide)

end Lucidac.EEPROM25AA02
