import Lucidac.Ota.Flash

/-!
# Moving a new program into place

The new program lies at least one sector above its destination, and may overlap it.  Erasing a
destination sector therefore never reaches the words that are still to be copied.
-/

namespace Lucidac.Ota

open Framework NorMemory

section Copying

variable (mem : Memory) (dst src : Nat)

/-- The memory while the program is copied: what is copied so far, the erased rest of the sector
that is being filled, and everything else as it was. -/
def movedTo (offset : Nat) : Memory := fun a =>
  if dst ≤ a ∧ a < dst + offset then mem (src + (a - dst))
  else if dst + offset ≤ a ∧ a < sectorCeil flashSectorSize (dst + offset) then BitVec.allOnes 8
  else mem a

/-- The same, with the sector of the next word erased as well. -/
def erasedTo (offset : Nat) : Memory := fun a =>
  if dst ≤ a ∧ a < dst + offset then mem (src + (a - dst))
  else if dst + offset ≤ a ∧ a < sectorCeil flashSectorSize (dst + offset + 4) then
    BitVec.allOnes 8
  else mem a

variable {dst src} {offset : Nat}

theorem eraseAtBoundary_movedTo (hdst : dst % flashSectorSize = 0) (hoffset : offset % 4 = 0) :
    eraseAtBoundary (movedTo mem dst src offset) (dst + offset) = erasedTo mem dst src offset := by
  have hpos : 0 < flashSectorSize := by decide
  by_cases haligned : (dst + offset) % flashSectorSize = 0
  · funext a
    rw [eraseAtBoundary_aligned _ haligned, eraseSector_aligned hpos haligned, movedTo, erasedTo,
      sectorCeil_aligned hpos haligned, sectorCeil_add_of_aligned (by decide) (by decide) haligned]
    by_cases hcopied : dst ≤ a ∧ a < dst + offset
    · rw [if_neg (by omega), if_pos hcopied, if_pos hcopied]
    · rw [if_neg hcopied, if_neg hcopied, if_neg (by omega : ¬ (dst + offset ≤ a ∧ a < dst + offset))]
  · have hdvd : 4 ∣ dst + offset := by
      rw [flashSectorSize] at hdst
      omega
    funext a
    rw [eraseAtBoundary_not_aligned _ haligned, movedTo, erasedTo,
      sectorCeil_add_of_not_aligned hpos (by decide) hdvd haligned]

theorem sectorCeil_next_le (hdst : dst % flashSectorSize = 0) (hoffset : offset % 4 = 0) :
    dst + offset + 4 ≤ sectorCeil flashSectorSize (dst + offset + 4) ∧
      sectorCeil flashSectorSize (dst + offset + 4) ≤ dst + offset + flashSectorSize := by
  have hpos : 0 < flashSectorSize := by decide
  refine ⟨le_sectorCeil hpos _, ?_⟩
  by_cases haligned : (dst + offset) % flashSectorSize = 0
  · rw [sectorCeil_add_of_aligned (by decide) (by decide) haligned]
  · have hdvd : 4 ∣ dst + offset := by
      rw [flashSectorSize] at hdst
      omega
    rw [sectorCeil_add_of_not_aligned hpos (by decide) hdvd haligned]
    exact Nat.le_of_lt (sectorCeil_lt hpos _)

/-- The next word of the source is still intact. -/
theorem value_erasedTo (hdst : dst % flashSectorSize = 0) (hoffset : offset % 4 = 0)
    (hsrc : dst + flashSectorSize ≤ src) :
    value (erasedTo mem dst src offset) (src + offset) = value mem (src + offset) := by
  apply List.map_congr_left
  intro i _
  have hceil := (sectorCeil_next_le hdst hoffset).2
  rw [erasedTo, if_neg (by rw [flashSectorSize] at hsrc; omega), if_neg (by omega)]

theorem moveWord_movedTo (hdst : dst % flashSectorSize = 0) (hoffset : offset % 4 = 0)
    (hsrc : dst + flashSectorSize ≤ src) :
    moveWord dst src offset (movedTo mem dst src offset) = movedTo mem dst src (offset + 4) := by
  simp only [moveWord, eepromemuFlashWrite]
  rw [eraseAtBoundary_movedTo mem hdst hoffset, value_erasedTo mem hdst hoffset hsrc]
  obtain ⟨hlow, -⟩ := sectorCeil_next_le hdst hoffset
  have hlength : (value mem (src + offset)).length = 4 := rfl
  have herased : ErasedOn (erasedTo mem dst src offset) (dst + offset)
      (dst + offset + (value mem (src + offset)).length) := by
    intro a ha ha'
    rw [hlength] at ha'
    rw [erasedTo, if_neg (by omega), if_pos (by omega)]
  funext a
  by_cases hword : dst + offset ≤ a ∧ a < dst + offset + 4
  · obtain ⟨i, rfl⟩ := Nat.exists_eq_add_of_le hword.1
    have hi : i < (value mem (src + offset)).length := by
      rw [hlength]
      omega
    rw [program_erased herased hi, movedTo, if_pos (by omega)]
    simp only [value, List.getElem_map, List.getElem_range]
    congr 1
    omega
  · rw [program_outside _ (by rw [hlength]; omega), erasedTo, movedTo, ← Nat.add_assoc]
    by_cases hcopied : dst ≤ a ∧ a < dst + offset
    · rw [if_pos hcopied, if_pos (by omega)]
    · have hnext : ¬ (dst ≤ a ∧ a < dst + offset + 4) := by omega
      rw [if_neg hcopied, if_neg hnext]
      congr 1
      simp only [eq_iff_iff]
      omega

theorem moveWhile_movedTo (hdst : dst % flashSectorSize = 0)
    (hsrc : dst + flashSectorSize ≤ src) {size : Nat} (hsize : size % 4 = 0)
    (hoffset : offset % 4 = 0) (hle : offset ≤ size) :
    moveWhile dst src size offset (movedTo mem dst src offset) =
      (size, movedTo mem dst src size) := by
  induction hn : (size - offset) / 4 generalizing offset with
  | zero =>
    have heq : offset = size := by omega
    rw [moveWhile, if_neg (by omega), heq]
  | succ n ih =>
    rw [moveWhile, if_pos (by omega), moveWord_movedTo mem hdst hoffset hsrc]
    exact ih (by omega) (by omega) (by omega)

end Copying

/-- The whole memory after a move to the start of the flash. -/
theorem flashMove_eq (mem : Memory) {src size : Nat} (hsize : size % 4 = 0)
    (hsrc : flashBaseAddr + flashSectorSize ≤ src) (hend : src + size ≤ flashLimit) :
    flashMove mem flashBaseAddr src size = fun a =>
      if flashBaseAddr ≤ a ∧ a < flashBaseAddr + size then mem (src + (a - flashBaseAddr))
      else if flashBaseAddr + size ≤ a ∧ a < flashLimit then BitVec.allOnes 8
      else mem a := by
  have hpos : 0 < flashSectorSize := by decide
  have hbase : flashBaseAddr % flashSectorSize = 0 := by decide
  have hstart : movedTo mem flashBaseAddr src 0 = mem := by
    funext a
    rw [movedTo, if_neg (by omega), Nat.add_zero, sectorCeil_aligned hpos hbase, if_neg (by omega)]
  have hcopy := moveWhile_movedTo mem hbase hsrc hsize (Nat.zero_mod 4) (Nat.zero_le size)
  rw [hstart] at hcopy
  have hin : inFlash src = true := by
    simp only [inFlash, Bool.and_eq_true, decide_eq_true_eq]
    simp only [flashLimit, flashBaseAddr, flashSize, flashReserve, flashSectorSize] at *
    omega
  have hlimit : flashBaseAddr + (flashSize - flashReserve) = flashLimit := by decide
  have hdvd : 4 ∣ flashBaseAddr + size := by
    rw [flashBaseAddr]
    omega
  simp only [flashMove, hcopy, hin, if_true]
  rw [hlimit, eraseWhile_eq (by decide) (by decide) hdvd]
  funext a
  have hceil := le_sectorCeil hpos (flashBaseAddr + size)
  have hfits : sectorCeil flashSectorSize (flashBaseAddr + size) ≤ flashLimit := by
    have hlt := sectorCeil_lt hpos (flashBaseAddr + size)
    simp only [flashLimit, flashBaseAddr, flashSize, flashReserve, flashSectorSize] at *
    omega
  by_cases hrest : sectorCeil flashSectorSize (flashBaseAddr + size) ≤ a ∧ a < flashLimit
  · rw [if_pos hrest, if_neg (by omega), if_pos (by omega)]
  · rw [if_neg hrest, movedTo]
    congr 2
    simp only [eq_iff_iff]
    omega

theorem flash_move_correct (mem : Memory) (src size : Nat) (hsize : size % 4 = 0)
    (hsrc : flashBaseAddr + flashSectorSize ≤ src)
    (hend : src + size ≤ flashBaseAddr + flashSize - flashReserve) :
    (∀ i < size, flashMove mem flashBaseAddr src size (flashBaseAddr + i) = mem (src + i)) ∧
      (∀ a, flashBaseAddr + size ≤ a → a < flashBaseAddr + flashSize - flashReserve →
        flashMove mem flashBaseAddr src size a = BitVec.allOnes 8) ∧
      ∀ a, flashBaseAddr + flashSize - flashReserve ≤ a →
        flashMove mem flashBaseAddr src size a = mem a := by
  have hmove := flashMove_eq mem hsize hsrc hend
  refine ⟨?_, ?_, ?_⟩
  · intro i hi
    rw [hmove]
    simp only
    rw [if_pos (by omega), Nat.add_sub_cancel_left]
  · intro a ha ha'
    rw [hmove]
    simp only
    rw [if_neg (by omega), if_pos ⟨ha, ha'⟩]
  · intro a ha
    rw [hmove]
    simp only
    rw [if_neg (by omega), if_neg (by rw [flashLimit]; omega)]

/-- A program of three sectors that starts one sector above its destination. -/
theorem flash_move_overlapping :
    flashBaseAddr + flashSectorSize < flashBaseAddr + 3 * flashSectorSize ∧
      ∀ i < 3 * flashSectorSize,
        flashMove (fun a => BitVec.ofNat 8 a) flashBaseAddr (flashBaseAddr + flashSectorSize)
          (3 * flashSectorSize) (flashBaseAddr + i) =
            BitVec.ofNat 8 (flashBaseAddr + flashSectorSize + i) :=
  ⟨by decide, (flash_move_correct (fun a => BitVec.ofNat 8 a) (flashBaseAddr + flashSectorSize)
    (3 * flashSectorSize) (by decide) (by decide) (by decide)).1⟩

end Lucidac.Ota
