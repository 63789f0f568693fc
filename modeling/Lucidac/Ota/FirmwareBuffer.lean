import Lucidac.Ota.Flash

/-!
# Where the firmware buffer lies

The buffer takes everything between the last programmed sector and the reserve.  The downward
search stops inside of the flash as soon as one word below the reserve is programmed.
-/

namespace Lucidac.Ota

open Framework NorMemory

/-- A word below the reserve that is not erased. -/
def Programmed (mem : Memory) (w : Nat) : Prop :=
  flashBaseAddr ≤ w ∧ w < flashLimit ∧ 4 ∣ w ∧ word mem w ≠ 0xFFFFFFFF

/-- What a firmware may be written to: it reaches up to the reserve, its words are erased, and it
shares no sector with a programmed word. -/
structure WritableRegion (mem : Memory) (addr size : Nat) : Prop where
  aligned : addr % flashSectorSize = 0
  top : addr + size = flashLimit
  erased : ∀ w, 4 ∣ w → addr ≤ w → w < flashLimit → word mem w = 0xFFFFFFFF
  disjoint : ∀ w, Programmed mem w → ∀ a, a / flashSectorSize = w / flashSectorSize →
    ¬ (addr ≤ a ∧ a < addr + size)

/-- The word at which the search of `firmware_buffer_init` stops. -/
def lastProgrammed (mem : Memory) : Nat := lastWord mem ((flashLimit - 4) / 4)

theorem Programmed.le_lastProgrammed {mem : Memory} {w : Nat} (h : Programmed mem w) :
    w ≤ lastProgrammed mem := by
  obtain ⟨-, hlimit, ⟨i, rfl⟩, hword⟩ := h
  refine le_lastWord mem ?_ hword
  have htop : flashLimit = 4 * ((flashLimit - 4) / 4) + 4 := by decide
  omega

/-- The search does not run past the bottom of the flash. -/
theorem programmed_lastProgrammed {mem : Memory} (h : ∃ w, Programmed mem w) :
    Programmed mem (lastProgrammed mem) := by
  obtain ⟨w, hw⟩ := h
  have hbase := Nat.le_trans hw.1 hw.le_lastProgrammed
  have hpos : 0 < lastProgrammed mem := Nat.lt_of_lt_of_le (by decide) hbase
  obtain ⟨hdvd, hword⟩ := lastWord_stops mem hpos
  have htop : 4 * ((flashLimit - 4) / 4) < flashLimit := by decide
  exact ⟨hbase, Nat.lt_of_le_of_lt (lastWord_le mem _) htop, hdvd, hword⟩

theorem firmwareBufferInit_addr_eq (mem : Memory) :
    (firmwareBufferInit mem).1 = sectorCeil flashSectorSize (lastProgrammed mem + 4) :=
  firmwareBufferInit_addr mem

theorem writableRegion_firmwareBufferInit (mem : Memory) :
    WritableRegion mem (firmwareBufferInit mem).1 (firmwareBufferInit mem).2 := by
  have hfree := freeBuffer_firmwareBufferInit mem
  have hdvd : 4 ∣ (firmwareBufferInit mem).1 :=
    (by decide : 4 ∣ flashSectorSize).trans (Nat.dvd_of_mod_eq_zero hfree.aligned)
  refine ⟨hfree.aligned, hfree.top, ?_, ?_⟩
  · intro w hw hlow hlimit
    refine (word_eq_allOnes_iff mem w).mpr (hfree.erased.mono hlow ?_)
    have htop : 4 ∣ flashLimit := by decide
    omega
  · intro w hw a hsector hin
    have hbelow : w < (firmwareBufferInit mem).1 := by
      have hle := le_sectorCeil (show 0 < flashSectorSize by decide) (lastProgrammed mem + 4)
      rw [← firmwareBufferInit_addr_eq] at hle
      have := hw.le_lastProgrammed
      omega
    -- the buffer starts at a boundary, so the programmed sector ends before it
    have hdiv : w / flashSectorSize < a / flashSectorSize := by
      obtain ⟨k, hk⟩ := Nat.dvd_of_mod_eq_zero hfree.aligned
      rw [hk, Nat.mul_comm] at hbelow
      have hwk := (Nat.div_lt_iff_lt_mul (by decide : 0 < flashSectorSize)).mpr hbelow
      have hak : k ≤ a / flashSectorSize := by
        rw [Nat.le_div_iff_mul_le (by decide), Nat.mul_comm, ← hk]
        exact hin.1
      exact Nat.lt_of_lt_of_le hwk hak
    exact absurd hsector (Nat.ne_of_gt hdiv)

/-- A region of erased words ends the search at the latest where it begins. -/
theorem WritableRegion.firmwareBufferInit_le {mem : Memory} {addr size : Nat}
    (hregion : WritableRegion mem addr size) (hlast : Programmed mem (lastProgrammed mem)) :
    (firmwareBufferInit mem).1 ≤ addr := by
  obtain ⟨-, hlimit, hdvd, hword⟩ := hlast
  have hlt : lastProgrammed mem < addr := by
    by_contra hle
    exact hword (hregion.erased _ hdvd (Nat.le_of_not_lt hle) hlimit)
  have haddr : 4 ∣ addr :=
    (by decide : 4 ∣ flashSectorSize).trans (Nat.dvd_of_mod_eq_zero hregion.aligned)
  rw [firmwareBufferInit_addr_eq]
  exact sectorCeil_le (by decide) (by omega) hregion.aligned

/-- If a word below the reserve is programmed, the search stops at the last such word, and the
buffer is the largest region of erased sectors below the reserve. -/
theorem firmwareBufferInit_largest (mem : Memory) (h : ∃ w, Programmed mem w) :
    Programmed mem (lastProgrammed mem) ∧ flashBaseAddr ≤ (firmwareBufferInit mem).1 ∧
      WritableRegion mem (firmwareBufferInit mem).1 (firmwareBufferInit mem).2 ∧
      ∀ addr size, WritableRegion mem addr size →
        (firmwareBufferInit mem).1 ≤ addr ∧ size ≤ (firmwareBufferInit mem).2 := by
  have hlast := programmed_lastProgrammed h
  have hregion := writableRegion_firmwareBufferInit mem
  have hbase : flashBaseAddr ≤ (firmwareBufferInit mem).1 := by
    have hle := le_sectorCeil (show 0 < flashSectorSize by decide) (lastProgrammed mem + 4)
    rw [← firmwareBufferInit_addr_eq] at hle
    have := hlast.1
    omega
  refine ⟨hlast, hbase, hregion, fun addr size hother => ?_⟩
  have hle := hother.firmwareBufferInit_le hlast
  have htop := hregion.top
  have htop' := hother.top
  exact ⟨hle, by omega⟩

theorem firmwareBufferInit_largest_oneWord :
    WritableRegion (fun a => if a = flashBaseAddr then 0 else BitVec.allOnes 8)
      (firmwareBufferInit fun a => if a = flashBaseAddr then 0 else BitVec.allOnes 8).1
      (firmwareBufferInit fun a => if a = flashBaseAddr then 0 else BitVec.allOnes 8).2 :=
  (firmwareBufferInit_largest (fun a => if a = flashBaseAddr then 0 else BitVec.allOnes 8)
    ⟨flashBaseAddr, by decide, by decide, by decide, by decide⟩).2.2.1

end Lucidac.Ota
