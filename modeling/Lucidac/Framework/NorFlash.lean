import Mathlib.Data.List.GetD
import Mathlib.Data.Nat.ModEq

/-!
# NOR memory

Programming a cell can only clear bits, so what is read back is the conjunction with the previous
content.  Bits are set by erasing a whole sector.  Programming erased cells stores the data.
-/

namespace Framework

/-- Cells of `w` bits by their address. -/
abbrev NorMemory (w : Nat) := Nat → BitVec w

namespace NorMemory

variable {w : Nat}

def program (mem : NorMemory w) (addr : Nat) (data : List (BitVec w)) : NorMemory w := fun a =>
  if addr ≤ a ∧ a < addr + data.length then mem a &&& data.getD (a - addr) 0 else mem a

def eraseSector (sectorSize : Nat) (mem : NorMemory w) (addr : Nat) : NorMemory w := fun a =>
  if a / sectorSize = addr / sectorSize then BitVec.allOnes w else mem a

/-- Every cell from `lo` on and below `hi` is erased. -/
def ErasedOn (mem : NorMemory w) (lo hi : Nat) : Prop :=
  ∀ a, lo ≤ a → a < hi → mem a = BitVec.allOnes w

theorem ErasedOn.mono {mem : NorMemory w} {lo hi lo' hi' : Nat} (h : mem.ErasedOn lo hi)
    (hlo : lo ≤ lo') (hhi : hi' ≤ hi) : mem.ErasedOn lo' hi' := by
  intro a ha ha'
  exact h a (Nat.le_trans hlo ha) (Nat.lt_of_lt_of_le ha' hhi)

/-! ### Programming -/

@[simp] theorem program_nil (mem : NorMemory w) (addr : Nat) : mem.program addr [] = mem := by
  funext a
  rw [program, if_neg]
  rw [List.length_nil]
  omega

theorem program_outside (mem : NorMemory w) {addr : Nat} {data : List (BitVec w)} {a : Nat}
    (h : a < addr ∨ addr + data.length ≤ a) : mem.program addr data a = mem a := by
  rw [program, if_neg]
  omega

theorem program_erased {mem : NorMemory w} {addr : Nat} {data : List (BitVec w)}
    (h : mem.ErasedOn addr (addr + data.length)) {i : Nat} (hi : i < data.length) :
    mem.program addr data (addr + i) = data[i] := by
  rw [program, if_pos ⟨Nat.le_add_right _ _, Nat.add_lt_add_left hi _⟩,
    h _ (Nat.le_add_right _ _) (Nat.add_lt_add_left hi _), BitVec.allOnes_and,
    Nat.add_sub_cancel_left, List.getD_eq_getElem _ _ hi]

theorem program_append (mem : NorMemory w) (addr : Nat) (data more : List (BitVec w)) :
    (mem.program addr data).program (addr + data.length) more =
      mem.program addr (data ++ more) := by
  funext a
  simp only [program, List.length_append]
  by_cases hbefore : a < addr + data.length
  · rw [if_neg (by omega)]
    by_cases hdata : addr ≤ a
    · rw [if_pos ⟨hdata, hbefore⟩, if_pos (by omega),
        List.getD_append _ _ _ _ (by omega)]
    · rw [if_neg (by omega), if_neg (by omega)]
  · by_cases hmore : a < addr + data.length + more.length
    · rw [if_pos (by omega), if_neg (by omega), if_pos (by omega),
        List.getD_append_right _ _ _ _ (by omega), Nat.sub_add_eq]
    · rw [if_neg (by omega), if_neg (by omega), if_neg (by omega)]

/-! ### Erasing -/

section Erasing

variable {sectorSize : Nat} {mem : NorMemory w} {addr : Nat}

theorem div_eq_div_iff_of_aligned (hpos : 0 < sectorSize) (haligned : addr % sectorSize = 0)
    (a : Nat) : a / sectorSize = addr / sectorSize ↔ addr ≤ a ∧ a < addr + sectorSize := by
  have hmul : addr / sectorSize * sectorSize = addr := Nat.div_mul_cancel (Nat.dvd_of_mod_eq_zero haligned)
  rw [Nat.div_eq_iff hpos, hmul]
  omega

theorem eraseSector_aligned (hpos : 0 < sectorSize) (haligned : addr % sectorSize = 0) (a : Nat) :
    eraseSector sectorSize mem addr a =
      if addr ≤ a ∧ a < addr + sectorSize then BitVec.allOnes w else mem a := by
  simp only [eraseSector, div_eq_div_iff_of_aligned hpos haligned]

theorem eraseSector_erased (hpos : 0 < sectorSize) (haligned : addr % sectorSize = 0)
    (h : mem.ErasedOn addr (addr + sectorSize)) : eraseSector sectorSize mem addr = mem := by
  funext a
  rw [eraseSector_aligned hpos haligned]
  split
  · rename_i ha
    exact (h a ha.1 ha.2).symm
  · rfl

end Erasing

/-! ### The end of a sector -/

/-- The first sector boundary at or above the address. -/
def sectorCeil (sectorSize addr : Nat) : Nat := (addr + (sectorSize - 1)) / sectorSize * sectorSize

section Boundary

variable {sectorSize addr : Nat}

theorem le_sectorCeil (hpos : 0 < sectorSize) (addr : Nat) : addr ≤ sectorCeil sectorSize addr := by
  have h := Nat.div_add_mod (addr + (sectorSize - 1)) sectorSize
  have hmod := Nat.mod_lt (addr + (sectorSize - 1)) hpos
  rw [sectorCeil, Nat.mul_comm]
  omega

theorem sectorCeil_lt (hpos : 0 < sectorSize) (addr : Nat) :
    sectorCeil sectorSize addr < addr + sectorSize := by
  have h := Nat.div_mul_le_self (addr + (sectorSize - 1)) sectorSize
  rw [sectorCeil]
  omega

theorem sectorCeil_mod (sectorSize addr : Nat) : sectorCeil sectorSize addr % sectorSize = 0 :=
  Nat.mul_mod_left _ _

/-- No boundary lies between the address and the one above it. -/
theorem sectorCeil_le (hpos : 0 < sectorSize) {top : Nat} (hle : addr ≤ top)
    (haligned : top % sectorSize = 0) : sectorCeil sectorSize addr ≤ top := by
  obtain ⟨k, rfl⟩ := Nat.dvd_of_mod_eq_zero haligned
  have hdiv : (addr + (sectorSize - 1)) / sectorSize ≤ k := by
    rw [← Nat.lt_succ_iff, Nat.div_lt_iff_lt_mul hpos, Nat.succ_mul, Nat.mul_comm k]
    omega
  rw [sectorCeil, Nat.mul_comm]
  exact Nat.mul_le_mul_left _ hdiv

/-- The boundary is the only one in the sector's length above the address. -/
theorem sectorCeil_eq_iff (hpos : 0 < sectorSize) {top : Nat} :
    sectorCeil sectorSize addr = top ↔
      addr ≤ top ∧ top < addr + sectorSize ∧ top % sectorSize = 0 := by
  constructor
  · rintro rfl
    exact ⟨le_sectorCeil hpos _, sectorCeil_lt hpos _, sectorCeil_mod _ _⟩
  · rintro ⟨hle, hlt, hmod⟩
    have hle' := le_sectorCeil hpos addr
    have hlt' := sectorCeil_lt hpos addr
    obtain ⟨k, hk⟩ := Nat.dvd_of_mod_eq_zero hmod
    obtain ⟨k', hk'⟩ := Nat.dvd_of_mod_eq_zero (sectorCeil_mod sectorSize addr)
    rw [hk'] at hle' hlt' ⊢
    rw [hk] at hle hlt ⊢
    have hkk : sectorSize * k' < sectorSize * (k + 1) := by
      rw [Nat.mul_succ]
      omega
    have hkk' : sectorSize * k < sectorSize * (k' + 1) := by
      rw [Nat.mul_succ]
      omega
    have h := Nat.lt_of_mul_lt_mul_left hkk
    have h' := Nat.lt_of_mul_lt_mul_left hkk'
    rw [show k' = k by omega]

theorem sectorCeil_aligned (hpos : 0 < sectorSize) (haligned : addr % sectorSize = 0) :
    sectorCeil sectorSize addr = addr :=
  (sectorCeil_eq_iff hpos).mpr ⟨Nat.le_refl _, Nat.lt_add_of_pos_right hpos, haligned⟩

/-- One stride after a boundary the next boundary is that of the following sector. -/
theorem sectorCeil_add_of_aligned {stride : Nat} (hstride : 0 < stride) (hle : stride ≤ sectorSize)
    (haligned : addr % sectorSize = 0) :
    sectorCeil sectorSize (addr + stride) = addr + sectorSize := by
  apply (sectorCeil_eq_iff (Nat.lt_of_lt_of_le hstride hle)).mpr
  refine ⟨Nat.add_le_add_left hle _, by omega, ?_⟩
  rw [Nat.add_mod_right]
  exact haligned

/-- Inside of a sector a stride does not reach over the next boundary. -/
theorem sectorCeil_add_of_not_aligned {stride : Nat} (hpos : 0 < sectorSize)
    (hsector : stride ∣ sectorSize) (haddr : stride ∣ addr)
    (haligned : addr % sectorSize ≠ 0) :
    sectorCeil sectorSize (addr + stride) = sectorCeil sectorSize addr := by
  have hle := le_sectorCeil hpos addr
  have hlt := sectorCeil_lt hpos addr
  have hmod := sectorCeil_mod sectorSize addr
  have hne : addr ≠ sectorCeil sectorSize addr := by
    intro h
    rw [h] at haligned
    exact haligned hmod
  have hdvd : stride ∣ sectorCeil sectorSize addr - addr :=
    Nat.dvd_sub (hsector.trans (Nat.dvd_of_mod_eq_zero hmod)) haddr
  have hgap := Nat.le_of_dvd (by omega) hdvd
  exact (sectorCeil_eq_iff hpos).mpr ⟨by omega, by omega, hmod⟩

end Boundary

end NorMemory

end Framework
