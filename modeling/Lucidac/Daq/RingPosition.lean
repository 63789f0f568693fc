import Mathlib.Data.Nat.ModEq
import Mathlib.Tactic.Ring
import Lucidac.Daq.ContinuousDAQ
import Lucidac.Framework.Ring

/-!
# Where the DMA stands

After `c` complete halves and `r` further vectors the position in the ring follows from the parity
of `c`.  A transfer moves on inside a half, or completes it and raises the flag of its parity.
-/

namespace Lucidac.Daq

open Framework

namespace DAQConfig

private theorem powerOfTwo_geometry (channels : BitVec 8) (hne : channels ≠ 0)
    (hpow : channels &&& (channels - 1) = 0) :
    bufferSize / channels.toNat = 2 * (bufferSize / channels.toNat / 2) ∧
      bufferSize / 2 / channels.toNat = bufferSize / channels.toNat / 2 ∧
      0 < bufferSize / channels.toNat / 2 ∧ bufferSize / channels.toNat / 2 ≤ 128 := by
  revert channels
  decide +kernel

private theorem geometry {config : DAQConfig} (hvalid : config.isValid = true)
    (hactive : config.isActive = true) :
    ringLength config = 2 * halfLength config ∧
      bufferSize / 2 / config.numChannels.toNat = halfLength config ∧
      0 < halfLength config ∧ halfLength config ≤ 128 := by
  have hne : config.numChannels ≠ 0 := by
    simp only [isActive, Bool.and_eq_true, bne_iff_ne] at hactive
    exact hactive.1
  have hpos : 0 < config.numChannels.toNat := by
    rw [Nat.pos_iff_ne_zero]
    intro h
    exact hne (BitVec.eq_of_toNat_eq h)
  have hpow : config.numChannels &&& (config.numChannels - 1) = 0 := by
    by_contra h
    simp only [isValid] at hvalid
    split at hvalid
    · exact Bool.false_ne_true hvalid
    · rw [if_pos ⟨hpos, h⟩] at hvalid
      exact Bool.false_ne_true hvalid
  exact powerOfTwo_geometry config.numChannels hne hpow

theorem ringLength_eq {config : DAQConfig} (hvalid : config.isValid = true)
    (hactive : config.isActive = true) : ringLength config = 2 * halfLength config :=
  (geometry hvalid hactive).1

private theorem second_half_offset {config : DAQConfig} (hvalid : config.isValid = true)
    (hactive : config.isActive = true) :
    bufferSize / 2 / config.numChannels.toNat = halfLength config :=
  (geometry hvalid hactive).2.1

theorem halfLength_pos {config : DAQConfig} (hvalid : config.isValid = true)
    (hactive : config.isActive = true) : 0 < halfLength config :=
  (geometry hvalid hactive).2.2.1

theorem halfLength_le {config : DAQConfig} (hvalid : config.isValid = true)
    (hactive : config.isActive = true) : halfLength config ≤ 128 :=
  (geometry hvalid hactive).2.2.2

theorem halfLength_toNat {config : DAQConfig} (hvalid : config.isValid = true)
    (hactive : config.isActive = true) :
    (BitVec.ofNat 32 (halfLength config)).toNat = halfLength config := by
  have hle := halfLength_le hvalid hactive
  rw [BitVec.toNat_ofNat]
  exact Nat.mod_eq_of_lt (by omega)

theorem half_offset {config : DAQConfig} (hvalid : config.isValid = true)
    (hactive : config.isActive = true) {b : Nat} (hb : b < 2) :
    b * (bufferSize / 2) / config.numChannels.toNat = b * halfLength config := by
  have hoffset := second_half_offset hvalid hactive
  rcases (by omega : b = 0 ∨ b = 1) with rfl | rfl
  · simp only [Nat.zero_mul, Nat.zero_div]
  · simp only [Nat.one_mul, hoffset]

end DAQConfig

/-- The DMA has completed `c` halves of `h` vectors and `r` vectors of the next one. -/
structure At (h c r : Nat) (dev : Device) : Prop where
  inside : r < h
  biter : dev.biter = 2 * h
  citer : dev.citer = 2 * h - (c % 2 * h + r)
  produced : dev.produced = c * h + r
  buffer : dev.buffer = ringSlots (2 * h) id dev.produced

private theorem position_lt {h c r : Nat} (hr : r < h) : c % 2 * h + r < 2 * h := by
  rcases Nat.mod_two_eq_zero_or_one c with hc | hc <;> rw [hc] <;> omega

theorem half_mod {h r : Nat} (c : Nat) (hr : r < h) : (c * h + r) % (2 * h) = c % 2 * h + r := by
  have hsplit : c * h + r = c % 2 * h + r + 2 * h * (c / 2) := by
    have hc : c = c % 2 + 2 * (c / 2) := (Nat.mod_add_div c 2).symm
    calc c * h + r = (c % 2 + 2 * (c / 2)) * h + r := by rw [← hc]
      _ = c % 2 * h + r + 2 * h * (c / 2) := by ring
  rw [hsplit, Nat.add_mul_mod_self_left, Nat.mod_eq_of_lt (position_lt hr)]

theorem At.position {h c r : Nat} {dev : Device} (hat : At h c r dev) :
    dev.biter - dev.citer = c % 2 * h + r := by
  have hlt := position_lt (c := c) hat.inside
  rw [hat.biter, hat.citer]
  omega

theorem At.citer_le {h c r : Nat} {dev : Device} (hat : At h c r dev) : dev.citer ≤ dev.biter := by
  rw [hat.citer, hat.biter]
  exact Nat.sub_le _ _

/-- The position depends on counters and buffer only. -/
theorem At.frame {h c r : Nat} {dev dev' : Device} (hat : At h c r dev)
    (hbiter : dev'.biter = dev.biter) (hciter : dev'.citer = dev.citer)
    (hproduced : dev'.produced = dev.produced) (hbuffer : dev'.buffer = dev.buffer) :
    At h c r dev' := by
  refine ⟨hat.inside, hbiter.trans hat.biter, hciter.trans hat.citer,
    hproduced.trans hat.produced, ?_⟩
  rw [hbuffer, hproduced]
  exact hat.buffer

private theorem At.stored {h c r : Nat} {dev : Device} (hat : At h c r dev) :
    Function.update dev.buffer (dev.biter - dev.citer) (some dev.produced) =
      ringSlots (2 * h) id (dev.produced + 1) := by
  rw [hat.position, ← half_mod c hat.inside, ← hat.produced, hat.buffer]
  rfl

theorem At.transfer_inside {h c r : Nat} {dev : Device} (hat : At h c r dev) (hr : r + 1 < h) :
    At h c (r + 1) dev.transfer ∧ dev.transfer.firstData = dev.firstData ∧
      dev.transfer.lastData = dev.lastData ∧ dev.transfer.overflowData = dev.overflowData ∧
      dev.transfer.partialBufferPart = dev.partialBufferPart ∧
      dev.transfer.handled = dev.handled := by
  have hciter : dev.citer - 1 ≠ 0 ∧ dev.citer - 1 ≠ dev.biter / 2 ∧
      dev.citer - 1 = 2 * h - (c % 2 * h + (r + 1)) := by
    rw [hat.citer, hat.biter]
    rcases Nat.mod_two_eq_zero_or_one c with hc | hc <;> rw [hc] <;> omega
  have heq : dev.transfer = { dev with
      buffer := ringSlots (2 * h) id (dev.produced + 1)
      produced := dev.produced + 1
      citer := dev.citer - 1 } := by
    simp only [Device.transfer, if_neg hciter.1, if_neg hciter.2.1, hat.stored]
  rw [heq]
  refine ⟨⟨hr, hat.biter, hciter.2.2, ?_, rfl⟩, rfl, rfl, rfl, rfl, rfl⟩
  simp only [hat.produced]
  omega

private theorem At.next_produced {h c r : Nat} {dev : Device} (hat : At h c r dev)
    (hr : r + 1 = h) : dev.produced + 1 = (c + 1) * h + 0 := by
  rw [hat.produced, Nat.succ_mul]
  omega

private theorem At.transfer_half {h c r : Nat} {dev : Device} (hat : At h c r dev)
    (hr : r + 1 = h) (hc : c % 2 = 0) :
    At h (c + 1) 0 dev.transfer ∧ dev.transfer = { dev with
      buffer := dev.transfer.buffer
      produced := dev.transfer.produced
      citer := dev.transfer.citer
      overflowData := dev.overflowData || dev.firstData
      firstData := true } := by
  have hnext : (c + 1) % 2 = 1 := by omega
  have hciter : dev.citer - 1 = h := by
    rw [hat.citer, hc]
    omega
  have hhalf : dev.biter / 2 = h := by
    rw [hat.biter]
    omega
  have hne : dev.citer - 1 ≠ dev.biter := by
    rw [hciter, hat.biter]
    omega
  have heq : dev.transfer = { dev with
      buffer := ringSlots (2 * h) id (dev.produced + 1)
      produced := dev.produced + 1
      citer := dev.citer - 1
      overflowData := dev.overflowData || dev.firstData
      firstData := true } := by
    have h0 : dev.citer - 1 ≠ 0 := by omega
    simp only [Device.transfer, if_neg h0, if_pos (hciter.trans hhalf.symm), hat.stored,
      Device.interrupt, if_pos hne]
  rw [heq]
  refine ⟨⟨by omega, hat.biter, ?_, hat.next_produced hr, rfl⟩, rfl⟩
  simp only [hciter, hnext]
  omega

private theorem At.transfer_full {h c r : Nat} {dev : Device} (hat : At h c r dev)
    (hr : r + 1 = h) (hc : c % 2 = 1) :
    At h (c + 1) 0 dev.transfer ∧ dev.transfer = { dev with
      buffer := dev.transfer.buffer
      produced := dev.transfer.produced
      citer := dev.transfer.citer
      overflowData := dev.overflowData || dev.lastData
      lastData := true } := by
  have hnext : (c + 1) % 2 = 0 := by omega
  have hciter : dev.citer - 1 = 0 := by
    rw [hat.citer, hc]
    omega
  have heq : dev.transfer = { dev with
      buffer := ringSlots (2 * h) id (dev.produced + 1)
      produced := dev.produced + 1
      citer := dev.biter
      overflowData := dev.overflowData || dev.lastData
      lastData := true } := by
    simp only [Device.transfer, if_pos hciter, hat.stored, Device.interrupt, ne_eq,
      not_true_eq_false, if_false]
  rw [heq]
  refine ⟨⟨by omega, hat.biter, ?_, hat.next_produced hr, rfl⟩, rfl⟩
  simp only [hat.biter, hnext]
  omega

/-- The transfer that completes a half raises the flag of its parity, or reports an overflow when
the flag is still up. -/
theorem At.transfer_boundary {h c r : Nat} {dev : Device} (hat : At h c r dev) (hr : r + 1 = h) :
    At h (c + 1) 0 dev.transfer ∧
      dev.transfer.firstData = (dev.firstData || c % 2 == 0) ∧
      dev.transfer.lastData = (dev.lastData || c % 2 == 1) ∧
      dev.transfer.overflowData =
        (dev.overflowData || if c % 2 = 0 then dev.firstData else dev.lastData) ∧
      dev.transfer.partialBufferPart = dev.partialBufferPart ∧
      dev.transfer.handled = dev.handled := by
  rcases Nat.mod_two_eq_zero_or_one c with hc | hc
  · obtain ⟨hnext, heq⟩ := hat.transfer_half hr hc
    refine ⟨hnext, ?_⟩
    rw [heq]
    simp [hc]
  · obtain ⟨hnext, heq⟩ := hat.transfer_full hr hc
    refine ⟨hnext, ?_⟩
    rw [heq]
    simp [hc]

theorem at_init {config : DAQConfig} (hvalid : config.isValid = true)
    (hactive : config.isActive = true) (dev : Device) :
    At (halfLength config) 0 0 (dev.reset.init config) := by
  have hring := DAQConfig.ringLength_eq hvalid hactive
  have hpos := DAQConfig.halfLength_pos hvalid hactive
  refine ⟨hpos, hring, ?_, ?_, rfl⟩
  · simp only [Device.init, hring]
    omega
  · simp only [Device.init, Device.reset]
    omega

/-- The slot of a vector that is written and not overwritten yet. -/
theorem At.slot {h c r : Nat} {dev : Device} (hat : At h c r dev) {j i : Nat} (hi : i < h)
    (hwritten : j * h + i < c * h + r) (hfresh : c * h + r ≤ j * h + i + 2 * h) :
    dev.buffer (j % 2 * h + i) = some (j * h + i) := by
  rw [hat.buffer, ← half_mod j hi, hat.produced]
  exact ringSlots_recent id hwritten hfresh

end Lucidac.Daq
