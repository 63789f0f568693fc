import Lucidac.Daq.StreamCalls

/-!
# The order of the streamed vectors

While `stream` keeps up, the blocks handed over are the complete halves in order, at most two of
which are pending.  The order is lost when both are pending and the DMA has left the beginning of
the ring; the last call hands over one block only.
-/

namespace Lucidac.Daq

namespace Device

/-- The run loop may call `stream`: it is not the case that both halves are pending and the DMA
has left the beginning of the ring. -/
def inOrder (config : DAQConfig) (dev : Device) : Prop :=
  config.isActive = true → dev.firstData = true → dev.lastData = true → dev.citer = dev.biter

instance (config : DAQConfig) (dev : Device) : Decidable (dev.inOrder config) :=
  inferInstanceAs (Decidable (_ → _))

/-- The last call finds one block at most: nothing else is pending beside a pending half, and
without one the remembered part of the buffer is the one the DMA is in. -/
def complete (config : DAQConfig) (dev : Device) : Prop :=
  config.isActive = true →
    ¬(dev.firstData = true ∧ dev.lastData = true) ∧
    (dev.firstData = true ∨ dev.lastData = true →
      (dev.biter - dev.citer) % halfLength config = 0) ∧
    (dev.firstData = false → dev.lastData = false →
      (dev.partialBufferPart = 0 ↔ dev.biter - dev.citer < halfLength config))

instance (config : DAQConfig) (dev : Device) : Decidable (dev.complete config) :=
  inferInstanceAs (Decidable (_ → _))

end Device

/-- A vector was handed over in the place of another one. -/
def Misplaced (dev : Device) : Prop :=
  ∃ (i : Nat) (vector : Option Nat), dev.handledVectors[i]? = some vector ∧ vector ≠ some i

theorem Misplaced.mono {dev dev' : Device} (hwrong : Misplaced dev)
    (hmore : dev.handledVectors <+: dev'.handledVectors) : Misplaced dev' := by
  obtain ⟨i, vector, hi, hne⟩ := hwrong
  obtain ⟨rest, hrest⟩ := hmore
  refine ⟨i, vector, ?_, hne⟩
  obtain ⟨hlt, -⟩ := List.getElem?_eq_some_iff.mp hi
  rw [← hrest, List.getElem?_append_left hlt, hi]

theorem Misplaced.not_range {dev : Device} (hwrong : Misplaced dev) (n : Nat) :
    dev.handledVectors ≠ (List.range n).map some := by
  intro heq
  obtain ⟨i, vector, hi, hne⟩ := hwrong
  rw [heq] at hi
  obtain ⟨hlt, hvector⟩ := List.getElem?_eq_some_iff.mp hi
  apply hne
  rw [← hvector, List.getElem_map, List.getElem_range]

/-- Of `c` complete halves `k` are handed over, in order; `start` is the part of the buffer
remembered from the runs before. -/
structure Synced (h start k c r : Nat) (dev : Device) : Prop where
  position : At h c r dev
  intact : dev.overflowData = false
  served : k ≤ c
  pending : c ≤ k + 2
  first : dev.firstData = true ↔ k % 2 = 0 ∧ k < c ∨ k % 2 = 1 ∧ k + 1 < c
  last : dev.lastData = true ↔ k % 2 = 1 ∧ k < c ∨ k % 2 = 0 ∧ k + 1 < c
  remembered : dev.partialBufferPart = if k = 0 then start else k % 2 * (bufferSize / 2)
  vectors : dev.handledVectors = (List.range (k * h)).map some

namespace Synced

variable {h start k c r : Nat} {dev : Device}

/-- A transfer moves the position, or reports that it completed a half that is still pending. -/
theorem transfer (hs : Synced h start k c r dev) :
    (∃ c r, Synced h start k c r dev.transfer) ∨ dev.transfer.overflowData = true := by
  have hvectors : dev.transfer.handledVectors = dev.handledVectors := by
    simp only [Device.handledVectors, Device.transfer_handled]
  have hserved := hs.served
  have hpending := hs.pending
  rcases Nat.lt_or_ge (r + 1) h with hr | hr
  · obtain ⟨hat, hfirst, hlast, hover, hpart, -⟩ := hs.position.transfer_inside hr
    refine Or.inl ⟨c, r + 1, hat, hover.trans hs.intact, hserved, hpending, ?_, ?_,
      hpart.trans hs.remembered, hvectors.trans hs.vectors⟩
    · rw [hfirst, hs.first]
    · rw [hlast, hs.last]
  · have hinside := hs.position.inside
    obtain ⟨hat, hfirst, hlast, hover, hpart, -⟩ := hs.position.transfer_boundary (by omega)
    rcases Nat.lt_or_ge c (k + 2) with hc | hc
    · refine Or.inl ⟨c + 1, 0, hat, ?_, by omega, by omega, ?_, ?_,
        hpart.trans hs.remembered, hvectors.trans hs.vectors⟩
      · rw [hover, hs.intact, Bool.false_or]
        split_ifs with hparity
        · rw [← Bool.not_eq_true, hs.first]
          omega
        · rw [← Bool.not_eq_true, hs.last]
          omega
      · rw [hfirst, Bool.or_eq_true, hs.first, beq_iff_eq]
        omega
      · rw [hlast, Bool.or_eq_true, hs.last, beq_iff_eq]
        omega
    · right
      rw [hover, hs.intact, Bool.false_or]
      split_ifs with hparity
      · rw [hs.first]
        omega
      · rw [hs.last]
        omega

/-- Without a pending half no flag is up. -/
theorem idle (hs : Synced h start c c r dev) : dev.firstData = false ∧ dev.lastData = false := by
  constructor
  · rw [← Bool.not_eq_true, hs.first]
    omega
  · rw [← Bool.not_eq_true, hs.last]
    omega

private theorem vectors_frame (hs : Synced h start k c r dev) (dev' : Device)
    (hhandled : dev'.handled = dev.handled) :
    dev'.handledVectors = (List.range (k * h)).map some := by
  rw [← hs.vectors]
  simp only [Device.handledVectors, hhandled]

private theorem range_half (k h : Nat) :
    (List.range (k * h)).map some ++ (List.range h).map (fun i => some (k * h + i)) =
      (List.range ((k + 1) * h)).map some := by
  rw [Nat.succ_mul, List.range_add, List.map_append, List.map_map]
  rfl

section Stream

variable {config : DAQConfig} (hvalid : config.isValid = true) (hactive : config.isActive = true)

include hvalid hactive

/-- Handing over the next half while the DMA has not come around to it. -/
private theorem handle_vectors (hs : Synced (halfLength config) start k c r dev) (hk : k < c)
    (hfresh : c * halfLength config + r ≤ k * halfLength config + 2 * halfLength config)
    (dev' : Device) (hbuffer : dev'.buffer = dev.buffer) (hhandled : dev'.handled = dev.handled) :
    (Device.handle config (k % 2 * (bufferSize / 2)) (BitVec.ofNat 32 (halfLength config))
      dev').handledVectors = (List.range ((k + 1) * halfLength config)).map some := by
  have hvectors := hs.vectors_frame dev' hhandled
  have hle : (k + 1) * halfLength config ≤ c * halfLength config := Nat.mul_le_mul_right _ hk
  rw [Nat.succ_mul] at hle
  rw [Device.handledVectors_handle, DAQConfig.halfLength_toNat hvalid hactive, hvectors, hbuffer,
    DAQConfig.half_offset hvalid hactive (Nat.mod_lt k Nat.two_pos), ← range_half]
  congr 1
  apply List.map_congr_left
  intro i hi
  have hlt := List.mem_range.mp hi
  exact hs.position.slot hlt (by omega) (by omega)

omit hvalid in
/-- A call in order finds both halves pending only when the DMA is back at the first one. -/
private theorem back_at_start (hs : Synced (halfLength config) start k c r dev)
    (horder : dev.inOrder config) (hc : c = k + 2) : k % 2 = 0 ∧ r = 0 := by
  have hciter := horder hactive (hs.first.mpr (by omega)) (hs.last.mpr (by omega))
  have hpos := hs.position.position
  have hinside := hs.position.inside
  rcases Nat.mod_two_eq_zero_or_one c with hparity | hparity
  · rw [hparity] at hpos
    omega
  · rw [hparity] at hpos
    omega

omit hvalid in
private theorem not_overwritten (hs : Synced (halfLength config) start k c r dev) (hk : k < c)
    (horder : dev.inOrder config) :
    c * halfLength config + r ≤ k * halfLength config + 2 * halfLength config := by
  have hpending := hs.pending
  have hinside := hs.position.inside
  rcases (by omega : c = k + 1 ∨ c = k + 2) with hc | hc
  · rw [hc, Nat.succ_mul]
    omega
  · rw [hc, Nat.add_mul, (hs.back_at_start hactive horder hc).2, Nat.add_zero]

private theorem serve_first (hs : Synced (halfLength config) start k c r dev) (hk : k < c)
    (horder : dev.inOrder config) (hparity : k % 2 = 0) (atEnd : Bool) :
    (dev.stream config atEnd).1 = true ∧
      Synced (halfLength config) start (k + 1) c r (dev.stream config atEnd).2 := by
  have hpending := hs.pending
  have hfirst : dev.firstData = true := hs.first.mpr (by omega)
  have hvectors := handle_vectors hvalid hactive hs hk (hs.not_overwritten hactive hk horder)
    { dev with partialBufferPart := bufferSize / 2, firstData := false } rfl rfl
  rw [hparity, Nat.zero_mul] at hvectors
  have hnext : (k + 1) % 2 = 1 := by omega
  rw [Device.stream_first hactive hs.intact hfirst]
  refine ⟨rfl, hs.position.frame rfl rfl rfl rfl, hs.intact, hk, by omega, ?_, ?_, ?_, hvectors⟩
  · simp only [Device.handle, Bool.false_eq_true, false_iff]
    omega
  · simp only [Device.handle, hs.last]
    omega
  · simp only [Device.handle, if_neg (Nat.succ_ne_zero k), hnext, Nat.one_mul]

private theorem serve_last (hs : Synced (halfLength config) start k c r dev) (hk : k < c)
    (horder : dev.inOrder config) (hparity : k % 2 = 1) (atEnd : Bool) :
    (dev.stream config atEnd).1 = true ∧
      Synced (halfLength config) start (k + 1) c r (dev.stream config atEnd).2 := by
  have hpending := hs.pending
  have hc : c = k + 1 := by
    by_contra hne
    have := hs.back_at_start hactive horder (by omega)
    omega
  have hfirst : dev.firstData = false := by
    rw [← Bool.not_eq_true, hs.first]
    omega
  have hlast : dev.lastData = true := hs.last.mpr (by omega)
  have hvectors := handle_vectors hvalid hactive hs hk (hs.not_overwritten hactive hk horder)
    { dev with partialBufferPart := 0, lastData := false } rfl rfl
  rw [hparity, Nat.one_mul] at hvectors
  have hnext : (k + 1) % 2 = 0 := by omega
  rw [Device.stream_last hactive hs.intact hfirst hlast]
  refine ⟨rfl, hs.position.frame rfl rfl rfl rfl, hs.intact, hk, by omega, ?_, ?_, ?_, hvectors⟩
  · simp only [Device.handle, hs.first]
    omega
  · simp only [Device.handle, Bool.false_eq_true, false_iff]
    omega
  · simp only [Device.handle, if_neg (Nat.succ_ne_zero k), hnext, Nat.zero_mul]

/-- A call with a pending half hands over the next one, unless both are pending and the DMA has
left the beginning of the ring. -/
theorem serve (hs : Synced (halfLength config) start k c r dev) (hk : k < c)
    (horder : dev.inOrder config) (atEnd : Bool) :
    (dev.stream config atEnd).1 = true ∧
      Synced (halfLength config) start (k + 1) c r (dev.stream config atEnd).2 := by
  rcases Nat.mod_two_eq_zero_or_one k with hparity | hparity
  · exact hs.serve_first hvalid hactive hk horder hparity atEnd
  · exact hs.serve_last hvalid hactive hk horder hparity atEnd

/-- A call out of order puts a wrong vector where half `k` belongs. -/
theorem misorder (hs : Synced (halfLength config) start k c r dev) (horder : ¬dev.inOrder config) :
    Misplaced (dev.stream config false).2 := by
  simp only [Device.inOrder, Classical.not_imp] at horder
  obtain ⟨-, hfirst, hlast, hciter⟩ := horder
  have hpos := hs.position.position
  have hinside := hs.position.inside
  have hk := hs.first.mp hfirst
  have hc : c = k + 2 := by
    have := hs.last.mp hlast
    have := hs.pending
    omega
  have hwrong : ∃ j, k < j ∧ dev.buffer 0 = some (j * halfLength config) := by
    rcases Nat.mod_two_eq_zero_or_one k with hparity | hparity
    · have hnext : c % 2 = 0 := by omega
      have hcount := hs.position.citer_le
      rw [hnext] at hpos
      have hslot := hs.position.slot (j := c) (i := 0) (by omega) (by omega) (by omega)
      rw [hnext] at hslot
      exact ⟨c, by omega, by simpa using hslot⟩
    · have hnext : (k + 1) % 2 = 0 := by omega
      have hmul : c * halfLength config = (k + 1) * halfLength config + halfLength config := by
        rw [hc, ← Nat.succ_mul]
      have hslot := hs.position.slot (j := k + 1) (i := 0) (by omega) (by omega) (by omega)
      rw [hnext] at hslot
      exact ⟨k + 1, by omega, by simpa using hslot⟩
  obtain ⟨j, hj, hslot⟩ := hwrong
  have hpositive := DAQConfig.halfLength_pos hvalid hactive
  refine ⟨k * halfLength config, some (j * halfLength config), ?_, ?_⟩
  · rw [Device.stream_first hactive hs.intact hfirst, Device.handledVectors_handle,
      DAQConfig.halfLength_toNat hvalid hactive, Nat.zero_div]
    rw [hs.vectors_frame { dev with partialBufferPart := bufferSize / 2, firstData := false } rfl,
      List.getElem?_append_right (by simp)]
    simp only [List.length_map, List.length_range, Nat.sub_self, List.getElem?_map,
      List.getElem?_range hpositive, Option.map_some, Nat.add_zero, hslot]
  · intro heq
    have hmul := Nat.mul_lt_mul_of_pos_right hj hpositive
    rw [Option.some.inj heq] at hmul
    exact Nat.lt_irrefl _ hmul

private theorem finish_pending (hs : Synced (halfLength config) start k c r dev) (hk : k < c) :
    (dev.stream config true).2.handledVectors = (List.range dev.produced).map some ↔
      dev.complete config := by
  have hpending := hs.pending
  have hinside := hs.position.inside
  rw [hs.position.produced]
  rcases (by omega : c = k + 2 ∨ c = k + 1) with hc | hc
  · have hfirst : dev.firstData = true := hs.first.mpr (by omega)
    have hlast : dev.lastData = true := hs.last.mpr (by omega)
    refine ⟨fun heq => ?_, fun hcomplete => absurd ⟨hfirst, hlast⟩ (hcomplete hactive).1⟩
    have hlength := congrArg List.length heq
    rw [Device.stream_first hactive hs.intact hfirst, Device.handledVectors_handle,
      hs.vectors_frame { dev with partialBufferPart := bufferSize / 2, firstData := false } rfl,
      DAQConfig.halfLength_toNat hvalid hactive] at hlength
    simp only [List.length_append, List.length_map, List.length_range, hc, Nat.add_mul] at hlength
    omega
  · have hnotBoth : ¬(dev.firstData = true ∧ dev.lastData = true) := by
      rw [hs.first, hs.last]
      omega
    have hone : dev.firstData = true ∨ dev.lastData = true := by
      rw [hs.first, hs.last]
      omega
    have hserve := (hs.serve hvalid hactive hk
      (fun _ hfirst hlast => absurd ⟨hfirst, hlast⟩ hnotBoth) true).2
    have hcomplete : dev.complete config ↔ r = 0 := by
      have hmod : (dev.biter - dev.citer) % halfLength config = r := by
        rw [hs.position.position, Nat.mul_add_mod_of_lt hinside]
      constructor
      · intro hcomplete
        rw [← hmod]
        exact (hcomplete hactive).2.1 hone
      · intro hr _
        refine ⟨hnotBoth, fun _ => hmod.trans hr, fun hfirst hlast => ?_⟩
        rw [hfirst, hlast] at hone
        simp at hone
    rw [hcomplete, hserve.vectors, hc]
    constructor
    · intro heq
      have hlength := congrArg List.length heq
      simp only [List.length_map, List.length_range] at hlength
      omega
    · intro hr
      simp only [hr, Nat.add_zero]

omit hvalid in
private theorem complete_idle_iff (hs : Synced (halfLength config) start c c r dev) :
    dev.complete config ↔ (dev.partialBufferPart = 0 ↔ c % 2 = 0) := by
  have hinside := hs.position.inside
  obtain ⟨hfirst, hlast⟩ := hs.idle
  have hpos : dev.biter - dev.citer < halfLength config ↔ c % 2 = 0 := by
    rw [hs.position.position]
    rcases Nat.mod_two_eq_zero_or_one c with hparity | hparity <;> rw [hparity] <;> omega
  rw [← hpos]
  constructor
  · intro hcomplete
    exact (hcomplete hactive).2.2 hfirst hlast
  · intro hiff _
    refine ⟨?_, ?_, fun _ _ => hiff⟩
    · simp [hfirst]
    · simp [hfirst, hlast]

private theorem remembered_offset (hs : Synced (halfLength config) start c c r dev)
    (hiff : dev.partialBufferPart = 0 ↔ c % 2 = 0) :
    dev.partialBufferPart / config.numChannels.toNat = c % 2 * halfLength config := by
  rw [← DAQConfig.half_offset hvalid hactive (Nat.mod_lt c Nat.two_pos)]
  congr 1
  by_cases hzero : c = 0
  · rw [hzero, Nat.zero_mod, Nat.zero_mul]
    exact hiff.mpr (by rw [hzero])
  · rw [hs.remembered, if_neg hzero]

private theorem finish_rest (hs : Synced (halfLength config) start c c r dev) :
    (dev.stream config true).2.handledVectors = (List.range dev.produced).map some ↔
      dev.complete config := by
  have hle := DAQConfig.halfLength_le hvalid hactive
  have hinside := hs.position.inside
  obtain ⟨hfirst, hlast⟩ := hs.idle
  have hcount := hs.position.restCount_toNat hvalid hactive
  rw [hs.complete_idle_iff hactive, Device.stream_rest_vectors hactive hs.intact hfirst hlast,
    hs.vectors, hs.position.produced]
  constructor
  · intro heq
    have hlength := congrArg List.length heq
    simp only [List.length_append, List.length_map, List.length_range] at hlength
    rw [hcount] at hlength
    split_ifs at hlength with hpart hparity
    · rcases Nat.mod_two_eq_zero_or_one c with hparity | hparity
      · exact iff_of_true hpart hparity
      · rw [hparity] at hlength
        omega
    · omega
    · exact iff_of_false hpart hparity
  · intro hiff
    have hrest : (dev.restCount config).toNat = r := by
      rw [hcount]
      split_ifs with hpart hparity
      · rw [hiff.mp hpart, Nat.zero_mul, Nat.zero_add]
      · exact absurd (hiff.mpr hparity) hpart
      · rfl
    rw [hrest, hs.remembered_offset hvalid hactive hiff, List.range_add, List.map_append,
      List.map_map]
    congr 1
    apply List.map_congr_left
    intro i hi
    have hlt := List.mem_range.mp hi
    exact hs.position.slot (by omega) (by omega) (by omega)

/-- After a run in order the last call completes the sequence exactly when it finds one block. -/
theorem finish (hs : Synced (halfLength config) start k c r dev) :
    (dev.stream config true).2.handledVectors = (List.range dev.produced).map some ↔
      dev.complete config := by
  rcases Nat.lt_or_ge k c with hk | hk
  · exact finish_pending hvalid hactive hs hk
  · have hkc : k = c := Nat.le_antisymm hs.served hk
    subst hkc
    exact finish_rest hvalid hactive hs

end Stream

end Synced

end Lucidac.Daq
