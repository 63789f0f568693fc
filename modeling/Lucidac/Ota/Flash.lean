import Lucidac.Framework.NorFlash

/-!
# The program flash

The flash of the microcontroller holds the running program, a buffer for a new one, and a reserve
at its top.  Addresses and sizes stay far below 32 bits.  The routines of the Teensy core that
program and erase the chip are those of NOR memory.
-/

namespace Lucidac.Ota

open Framework NorMemory

abbrev Memory := NorMemory 8

def flashSize : Nat := 0x800000
def flashSectorSize : Nat := 0x1000
def flashReserve : Nat := 80 * flashSectorSize
def flashBaseAddr : Nat := 0x60000000

def flashLimit : Nat := flashBaseAddr + flashSize - flashReserve

def inFlash (a : Nat) : Bool := flashBaseAddr ≤ a && a < flashBaseAddr + flashSize

def eepromemuFlashWrite (mem : Memory) (addr : Nat) (data : List (BitVec 8)) : Memory :=
  mem.program addr data

def eepromemuFlashEraseSector (mem : Memory) (addr : Nat) : Memory :=
  eraseSector flashSectorSize mem addr

/-- `*(uint32_t *)addr`, little endian. -/
def word (mem : Memory) (addr : Nat) : Nat :=
  (mem addr).toNat + 2^8 * (mem (addr + 1)).toNat + 2^16 * (mem (addr + 2)).toNat +
    2^24 * (mem (addr + 3)).toNat

def flashSectorNotErased (mem : Memory) (address : Nat) : Bool :=
  let sector := address - address % flashSectorSize
  (List.range (flashSectorSize / 4)).any fun i => word mem (sector + 4 * i) != 0xFFFFFFFF

/-- The erasure of a sector that all loops share. -/
def eraseAtBoundary (mem : Memory) (addr : Nat) : Memory :=
  if addr % flashSectorSize = 0 then
    if flashSectorNotErased mem addr then eepromemuFlashEraseSector mem addr else mem
  else mem

/-- The loops that only erase: `while (address < stop) { …; address += stride; }` -/
def eraseWhile (stride : Nat) [NeZero stride] (stop address : Nat) (mem : Memory) : Memory :=
  if address < stop then eraseWhile stride stop (address + stride) (eraseAtBoundary mem address)
  else mem
termination_by stop - address
decreasing_by
  have := NeZero.ne stride
  omega

def value (mem : Memory) (addr : Nat) : List (BitVec 8) := (List.range 4).map fun i => mem (addr + i)

/-- One pass of the copying loop. -/
def moveWord (dst src offset : Nat) (mem : Memory) : Memory :=
  let mem := eraseAtBoundary mem (dst + offset)
  eepromemuFlashWrite mem (dst + offset) (value mem (src + offset))

/-- The copying loop with its offset. -/
def moveWhile (dst src size offset : Nat) (mem : Memory) : Nat × Memory :=
  if offset < size then moveWhile dst src size (offset + 4) (moveWord dst src offset mem)
  else (offset, mem)
termination_by size - offset

theorem wordSize_neZero : NeZero 4 := ⟨by decide⟩

/-- The memory when the processor is reset. -/
def flashMove (mem : Memory) (dst src size : Nat) : Memory :=
  haveI := wordSize_neZero
  let moved := moveWhile dst src size 0 mem
  if inFlash src then eraseWhile 4 (dst + (flashSize - flashReserve)) (dst + moved.1) moved.2
  else moved.2

def flashEraseBlock (mem : Memory) (start size : Nat) : Memory :=
  haveI : NeZero flashSectorSize := ⟨by decide⟩
  eraseWhile flashSectorSize (start + size) start mem

def firmwareBufferFree (mem : Memory) (bufferAddr bufferSize : Nat) : Memory :=
  flashEraseBlock mem bufferAddr bufferSize

/-- The loop that gathers the data into words and writes them. -/
def writeWords (mem : Memory) (addr : Nat) : List (BitVec 8) → Memory
  | b₀ :: b₁ :: b₂ :: b₃ :: rest =>
    writeWords (eepromemuFlashWrite mem addr [b₀, b₁, b₂, b₃]) (addr + 4) rest
  | _ => mem

/-- The error code with the memory.  No bytes remain in the static buffer between two calls,
since every call writes whole words. -/
def flashWriteBlock (mem : Memory) (addr : Nat) (data : List (BitVec 8)) : Int × Memory :=
  if !inFlash addr then (4, mem)
  else if addr % 4 ≠ 0 ∨ data.length % 4 ≠ 0 then (1, mem)
  else (0, writeWords mem addr data)

/-- `while (*addr > 0 && word == 0xFFFFFFFF) addr -= 4;` from the given number of words. -/
def lastWord (mem : Memory) : Nat → Nat
  | 0 => 0
  | k + 1 => if word mem (4 * (k + 1)) = 0xFFFFFFFF then lastWord mem k else 4 * (k + 1)

/-- Address and size of the buffer. -/
def firmwareBufferInit (mem : Memory) : Nat × Nat :=
  let addr := lastWord mem ((flashLimit - 4) / 4) + 4
  let addr := if 0 < addr % flashSectorSize then
    addr + (flashSectorSize - addr % flashSectorSize) else addr
  (addr, (flashBaseAddr + 2^32 - addr + flashSize - flashReserve) % 2^32)

/-! ### Words and sectors -/

theorem word_eq_allOnes_iff (mem : Memory) (addr : Nat) :
    word mem addr = 0xFFFFFFFF ↔ mem.ErasedOn addr (addr + 4) := by
  have h₀ := (mem addr).isLt
  have h₁ := (mem (addr + 1)).isLt
  have h₂ := (mem (addr + 2)).isLt
  have h₃ := (mem (addr + 3)).isLt
  constructor
  · intro h a ha ha'
    rw [word] at h
    apply BitVec.eq_of_toNat_eq
    rw [BitVec.toNat_allOnes]
    obtain rfl | rfl | rfl | rfl : a = addr ∨ a = addr + 1 ∨ a = addr + 2 ∨ a = addr + 3 := by
      omega
    all_goals omega
  · intro h
    rw [word, h addr (by omega) (by omega), h (addr + 1) (by omega) (by omega),
      h (addr + 2) (by omega) (by omega), h (addr + 3) (by omega) (by omega)]
    rfl

theorem flashSectorNotErased_eq_false_iff (mem : Memory) {address : Nat}
    (haligned : address % flashSectorSize = 0) :
    flashSectorNotErased mem address = false ↔
      mem.ErasedOn address (address + flashSectorSize) := by
  simp only [flashSectorNotErased, haligned, Nat.sub_zero, List.any_eq_false, List.mem_range,
    bne_iff_ne, not_not, word_eq_allOnes_iff]
  constructor
  · intro h a ha ha'
    have hword := h ((a - address) / 4) (by
      rw [flashSectorSize] at ha' ⊢
      omega)
    exact hword a (by omega) (by omega)
  · intro h i hi
    rw [flashSectorSize] at h hi
    exact h.mono (by omega) (by omega)

/-- Sectors that are erased already are skipped, which makes no difference. -/
theorem eraseAtBoundary_aligned (mem : Memory) {addr : Nat} (h : addr % flashSectorSize = 0) :
    eraseAtBoundary mem addr = eraseSector flashSectorSize mem addr := by
  rw [eraseAtBoundary, if_pos h]
  split
  · rfl
  · rename_i herased
    rw [Bool.not_eq_true, flashSectorNotErased_eq_false_iff mem h] at herased
    exact (eraseSector_erased (by decide) h herased).symm

theorem eraseAtBoundary_not_aligned (mem : Memory) {addr : Nat}
    (h : addr % flashSectorSize ≠ 0) : eraseAtBoundary mem addr = mem := by
  rw [eraseAtBoundary, if_neg h]

/-! ### The erasing loops -/

theorem eraseWhile_eq {stride : Nat} [NeZero stride] (hsector : stride ∣ flashSectorSize)
    {stop : Nat} (hstop : stop % flashSectorSize = 0) {address : Nat} (haddress : stride ∣ address)
    (mem : Memory) :
    eraseWhile stride stop address mem = fun a =>
      if sectorCeil flashSectorSize address ≤ a ∧ a < stop then BitVec.allOnes 8 else mem a := by
  have hpos : 0 < flashSectorSize := by decide
  induction address, mem using eraseWhile.induct stride stop with
  | case1 address mem hlt ih =>
    rw [eraseWhile, if_pos hlt, ih (Nat.dvd_add haddress (Nat.dvd_refl stride))]
    funext a
    by_cases haligned : address % flashSectorSize = 0
    · have hroom : address + flashSectorSize ≤ stop := by
        rw [flashSectorSize] at *
        omega
      rw [eraseAtBoundary_aligned mem haligned, sectorCeil_aligned hpos haligned,
        sectorCeil_add_of_aligned (Nat.pos_of_ne_zero (NeZero.ne stride)) (Nat.le_of_dvd hpos hsector) haligned,
        eraseSector_aligned hpos haligned]
      by_cases hsect : address ≤ a ∧ a < address + flashSectorSize
      · rw [if_pos hsect, ite_self, if_pos (by omega)]
      · rw [if_neg hsect]
        congr 1
        simp only [eq_iff_iff]
        omega
    · rw [eraseAtBoundary_not_aligned mem haligned,
        sectorCeil_add_of_not_aligned hpos hsector haddress haligned]
  | case2 address mem hge =>
    rw [eraseWhile, if_neg hge]
    funext a
    have hceil := le_sectorCeil hpos address
    rw [if_neg (by omega)]

theorem flashEraseBlock_eq (mem : Memory) {start size : Nat} (hstart : start % flashSectorSize = 0)
    (hsize : size % flashSectorSize = 0) :
    flashEraseBlock mem start size = fun a =>
      if start ≤ a ∧ a < start + size then BitVec.allOnes 8 else mem a := by
  have hstop : (start + size) % flashSectorSize = 0 := by
    rw [flashSectorSize] at *
    omega
  have hne : NeZero flashSectorSize := ⟨by decide⟩
  rw [flashEraseBlock, eraseWhile_eq (Nat.dvd_refl _) hstop (Nat.dvd_of_mod_eq_zero hstart),
    sectorCeil_aligned (by decide) hstart]

/-! ### Writing blocks -/

theorem writeWords_eq (mem : Memory) (addr : Nat) {data : List (BitVec 8)}
    (h : data.length % 4 = 0) : writeWords mem addr data = mem.program addr data := by
  induction mem, addr, data using writeWords.induct with
  | case1 mem addr b₀ b₁ b₂ b₃ rest ih =>
    have hrest : rest.length % 4 = 0 := by
      simp only [List.length_cons] at h
      omega
    rw [writeWords, ih hrest]
    exact program_append mem addr [b₀, b₁, b₂, b₃] rest
  | case2 data mem addr hshort =>
    have hnil : data = [] := by
      cases data with
      | nil => rfl
      | cons b₀ data =>
        match data with
        | [] => simp at h
        | [_] => simp at h
        | [_, _] => simp at h
        | b₁ :: b₂ :: b₃ :: rest => exact (hshort b₀ b₁ b₂ b₃ rest rfl).elim
    rw [hnil, program_nil]
    rfl

theorem flashWriteBlock_eq (mem : Memory) {addr : Nat} {data : List (BitVec 8)}
    (hflash : inFlash addr = true) (haddr : addr % 4 = 0) (hdata : data.length % 4 = 0) :
    flashWriteBlock mem addr data = (0, mem.program addr data) := by
  rw [flashWriteBlock, if_neg (by rw [hflash]; exact Bool.false_ne_true), if_neg (by omega),
    writeWords_eq mem addr hdata]

theorem flashWriteBlock_refused (mem : Memory) {addr : Nat} {data : List (BitVec 8)}
    (h : ¬ (inFlash addr = true ∧ addr % 4 = 0 ∧ data.length % 4 = 0)) :
    ∃ code : Int, 0 < code ∧ flashWriteBlock mem addr data = (code, mem) := by
  simp only [flashWriteBlock]
  by_cases hflash : inFlash addr = true
  · rw [if_neg (by rw [hflash]; exact Bool.false_ne_true), if_pos (by tauto)]
    exact ⟨1, by decide, rfl⟩
  · rw [Bool.not_eq_true] at hflash
    rw [if_pos (by rw [hflash]; rfl)]
    exact ⟨4, by decide, rfl⟩

/-! ### The free part of the flash -/

theorem lastWord_le (mem : Memory) (k : Nat) : lastWord mem k ≤ 4 * k := by
  induction k with
  | zero => exact Nat.le_refl _
  | succ k ih =>
    rw [lastWord]
    split
    · omega
    · exact Nat.le_refl _

theorem lastWord_erased (mem : Memory) (k : Nat) :
    mem.ErasedOn (lastWord mem k + 4) (4 * k + 4) := by
  induction k with
  | zero =>
    intro a ha ha'
    rw [lastWord] at ha
    omega
  | succ k ih =>
    rw [lastWord]
    split
    · rename_i herased
      rw [word_eq_allOnes_iff] at herased
      intro a ha ha'
      by_cases hlow : a < 4 * k + 4
      · exact ih a ha hlow
      · exact herased a (by omega) (by omega)
    · intro a ha ha'
      omega

/-- The search ends at address zero or at a word that is not erased. -/
theorem lastWord_stops (mem : Memory) {k : Nat} (h : 0 < lastWord mem k) :
    4 ∣ lastWord mem k ∧ word mem (lastWord mem k) ≠ 0xFFFFFFFF := by
  induction k with
  | zero => exact absurd h (Nat.lt_irrefl 0)
  | succ k ih =>
    by_cases hword : word mem (4 * (k + 1)) = 0xFFFFFFFF
    · rw [lastWord, if_pos hword] at h ⊢
      exact ih h
    · rw [lastWord, if_neg hword]
      exact ⟨Nat.dvd_mul_right 4 _, hword⟩

/-- A word that is not erased is not passed. -/
theorem le_lastWord (mem : Memory) {k i : Nat} (hi : i ≤ k) (h : word mem (4 * i) ≠ 0xFFFFFFFF) :
    4 * i ≤ lastWord mem k := by
  induction k with
  | zero =>
    rw [Nat.le_zero.mp hi]
    exact Nat.zero_le _
  | succ k ih =>
    rw [lastWord]
    split
    · rename_i herased
      rcases Nat.lt_succ_iff_lt_or_eq.mp (Nat.lt_succ_of_le hi) with hlt | heq
      · exact ih (Nat.le_of_lt_succ hlt)
      · rw [heq] at h
        exact absurd herased h
    · exact Nat.mul_le_mul_left 4 hi

theorem lastWord_le_of_erased (mem : Memory) {k i : Nat}
    (h : mem.ErasedOn (4 * (i + 1)) (4 * k + 4)) : lastWord mem k ≤ 4 * i := by
  induction k with
  | zero => exact Nat.zero_le _
  | succ k ih =>
    rw [lastWord]
    by_cases hk : i ≤ k
    · have herased : word mem (4 * (k + 1)) = 0xFFFFFFFF :=
        (word_eq_allOnes_iff mem _).mpr (h.mono (by omega) (by omega))
      rw [if_pos herased]
      exact ih (h.mono (Nat.le_refl _) (by omega))
    · have hle := lastWord_le mem k
      split <;> omega

/-- The buffer is made of whole erased sectors below the reserve. -/
structure FreeBuffer (mem : Memory) (addr size : Nat) : Prop where
  aligned : addr % flashSectorSize = 0
  top : addr + size = flashLimit
  erased : mem.ErasedOn addr flashLimit

theorem FreeBuffer.size_eq {mem : Memory} {addr size : Nat} (h : FreeBuffer mem addr size) :
    size = flashLimit - addr :=
  (Nat.sub_eq_of_eq_add' h.top.symm).symm

theorem firmwareBufferInit_addr (mem : Memory) :
    (firmwareBufferInit mem).1 =
      sectorCeil flashSectorSize (lastWord mem ((flashLimit - 4) / 4) + 4) := by
  symm
  apply (sectorCeil_eq_iff (by decide)).mpr
  simp only [firmwareBufferInit]
  generalize lastWord mem ((flashLimit - 4) / 4) + 4 = addr
  rw [flashSectorSize]
  by_cases h : 0 < addr % 0x1000
  · rw [if_pos h]
    omega
  · rw [if_neg h]
    omega

/-- The buffer starts at a sector boundary if the word before it is the last one of the program. -/
theorem firmwareBufferInit_of_program {mem : Memory} {addr : Nat}
    (haligned : addr % flashSectorSize = 0) (hpos : 0 < addr) (hlimit : addr ≤ flashLimit)
    (hword : word mem (addr - 4) ≠ 0xFFFFFFFF) (herased : mem.ErasedOn addr flashLimit) :
    (firmwareBufferInit mem).1 = addr := by
  have hfour : addr % 4 = 0 := by
    rw [flashSectorSize] at haligned
    omega
  have hsplit : 4 * ((addr - 4) / 4) = addr - 4 := by omega
  have hlow : addr - 4 ≤ lastWord mem ((flashLimit - 4) / 4) := by
    have h := le_lastWord mem (k := (flashLimit - 4) / 4) (i := (addr - 4) / 4)
      (Nat.div_le_div_right (Nat.sub_le_sub_right hlimit 4)) (by rw [hsplit]; exact hword)
    rwa [hsplit] at h
  have hhigh : lastWord mem ((flashLimit - 4) / 4) ≤ addr - 4 := by
    have h := lastWord_le_of_erased mem (k := (flashLimit - 4) / 4) (i := (addr - 4) / 4)
      (herased.mono (by omega) (by decide))
    rwa [hsplit] at h
  rw [firmwareBufferInit_addr, Nat.le_antisymm hhigh hlow, Nat.sub_add_cancel (by omega)]
  exact sectorCeil_aligned (by decide) haligned

theorem freeBuffer_firmwareBufferInit (mem : Memory) :
    FreeBuffer mem (firmwareBufferInit mem).1 (firmwareBufferInit mem).2 := by
  have hpos : 0 < flashSectorSize := by decide
  have haddr := firmwareBufferInit_addr mem
  have hword := lastWord_le mem ((flashLimit - 4) / 4)
  have herased := lastWord_erased mem ((flashLimit - 4) / 4)
  have hle := le_sectorCeil hpos (lastWord mem ((flashLimit - 4) / 4) + 4)
  have hlt := sectorCeil_lt hpos (lastWord mem ((flashLimit - 4) / 4) + 4)
  have hmod := sectorCeil_mod flashSectorSize (lastWord mem ((flashLimit - 4) / 4) + 4)
  rw [← haddr] at hle hlt hmod
  have htop : (firmwareBufferInit mem).1 ≤ flashLimit := by
    simp only [flashLimit, flashBaseAddr, flashSize, flashReserve, flashSectorSize] at *
    omega
  constructor
  · exact hmod
  · change _ + (flashBaseAddr + 2^32 - (firmwareBufferInit mem).1 + flashSize - flashReserve) % 2^32 = _
    simp only [flashLimit, flashBaseAddr, flashSize, flashReserve, flashSectorSize] at *
    omega
  · exact herased.mono hle (by decide)

attribute [irreducible] firmwareBufferInit

end Lucidac.Ota
