import Lucidac.Daq.RingPosition

/-!
# The branches of `stream`

One equation for each branch, the count of the last call, and the rule that carries an invariant
of the steps through the run loop.
-/

namespace Lucidac.Daq

namespace Device

def handledVectors (dev : Device) : List (Option Nat) := dev.handled.flatMap (·.vectors)

theorem handledVectors_handle (config : DAQConfig) (offset : Nat) (outerCount : BitVec 32)
    (dev : Device) :
    (handle config offset outerCount dev).handledVectors = dev.handledVectors ++
      (List.range outerCount.toNat).map
        fun i => dev.buffer (offset / config.numChannels.toNat + i) := by
  simp only [handledVectors, handle, List.flatMap_append, List.flatMap_singleton]

theorem transfer_handled (dev : Device) : dev.transfer.handled = dev.handled := by
  simp only [transfer, interrupt]
  split_ifs <;> rfl

theorem transfer_overflow {dev : Device} (hover : dev.overflowData = true) :
    dev.transfer.overflowData = true := by
  simp only [transfer, interrupt]
  split_ifs <;> simp [hover]

section Branches

variable {config : DAQConfig} {dev : Device} (hactive : config.isActive = true)

include hactive

theorem stream_overflow (hover : dev.overflowData = true) (atEnd : Bool) :
    dev.stream config atEnd = (false, dev) := by
  simp [stream, hactive, hover]

variable (hover : dev.overflowData = false)

include hover

theorem stream_first (hfirst : dev.firstData = true) (atEnd : Bool) :
    dev.stream config atEnd = (true, handle config 0 (BitVec.ofNat 32 (halfLength config))
      { dev with partialBufferPart := bufferSize / 2, firstData := false }) := by
  simp [stream, hactive, hover, hfirst]

theorem stream_last (hfirst : dev.firstData = false) (hlast : dev.lastData = true)
    (atEnd : Bool) :
    dev.stream config atEnd =
      (true, handle config (bufferSize / 2) (BitVec.ofNat 32 (halfLength config))
        { dev with partialBufferPart := 0, lastData := false }) := by
  simp [stream, hactive, hover, hfirst, hlast]

theorem stream_idle (hfirst : dev.firstData = false) (hlast : dev.lastData = false) :
    dev.stream config false = (true, dev) := by
  simp [stream, hactive, hover, hfirst, hlast]

end Branches

/-- The count of the last call when no half is pending. -/
def restCount (config : DAQConfig) (dev : Device) : BitVec 32 :=
  if dev.partialBufferPart = 0 then dev.getNumberOfDataVectorsInBuffer
  else dev.getNumberOfDataVectorsInBuffer - BitVec.ofNat 32 (halfLength config)

theorem stream_rest {config : DAQConfig} {dev : Device} (hactive : config.isActive = true)
    (hover : dev.overflowData = false) (hfirst : dev.firstData = false)
    (hlast : dev.lastData = false) :
    dev.stream config true = if dev.restCount config = 0 then (true, dev)
      else (true, handle config dev.partialBufferPart (dev.restCount config) dev) := by
  simp only [stream, hactive, hover, hfirst, hlast, Bool.not_true, Bool.false_eq_true, if_false,
    if_true]
  rfl

theorem stream_rest_vectors {config : DAQConfig} {dev : Device} (hactive : config.isActive = true)
    (hover : dev.overflowData = false) (hfirst : dev.firstData = false)
    (hlast : dev.lastData = false) :
    (dev.stream config true).2.handledVectors = dev.handledVectors ++
      (List.range (dev.restCount config).toNat).map
        fun i => dev.buffer (dev.partialBufferPart / config.numChannels.toNat + i) := by
  rw [stream_rest hactive hover hfirst hlast]
  split_ifs with hzero
  · simp [hzero]
  · exact handledVectors_handle ..

theorem stream_produced (config : DAQConfig) (atEnd : Bool) (dev : Device) :
    (dev.stream config atEnd).2.produced = dev.produced := by
  simp only [stream]
  split_ifs <;> rfl

theorem stream_prefix (config : DAQConfig) (atEnd : Bool) (dev : Device) :
    dev.handledVectors <+: (dev.stream config atEnd).2.handledVectors := by
  simp only [stream]
  split_ifs <;>
    first
    | exact List.prefix_refl _
    | (rw [handledVectors_handle]; exact List.prefix_append _ _)

end Device

section Counts

variable {config : DAQConfig} (hvalid : config.isValid = true) (hactive : config.isActive = true)
  {c r : Nat} {dev : Device}

include hvalid hactive

private theorem At.getNumber_toNat (hat : At (halfLength config) c r dev) :
    dev.getNumberOfDataVectorsInBuffer.toNat = c % 2 * halfLength config + r := by
  have hle := DAQConfig.halfLength_le hvalid hactive
  have hpos := hat.position
  have hbiter := hat.biter
  have hcount := hat.citer_le
  rw [← hpos, Device.getNumberOfDataVectorsInBuffer, BitVec.toNat_sub, BitVec.toNat_ofNat,
    BitVec.toNat_ofNat]
  omega

/-- When the remembered part is the one the DMA is in, the rest is counted right; otherwise the
count is not the number of vectors in any half. -/
theorem At.restCount_toNat (hat : At (halfLength config) c r dev) :
    (dev.restCount config).toNat =
      if dev.partialBufferPart = 0 then c % 2 * halfLength config + r
      else if c % 2 = 0 then 2 ^ 32 - halfLength config + r else r := by
  have hle := DAQConfig.halfLength_le hvalid hactive
  have hnumber := hat.getNumber_toNat hvalid hactive
  have hinside := hat.inside
  rw [Device.restCount]
  split_ifs with hpart hparity
  · exact hnumber
  · rw [BitVec.toNat_sub, DAQConfig.halfLength_toNat hvalid hactive, hnumber, hparity]
    omega
  · rw [BitVec.toNat_sub, DAQConfig.halfLength_toNat hvalid hactive, hnumber,
      (by omega : c % 2 = 1)]
    omega

end Counts

namespace Acquisition

/-- What every step keeps holds when the run loop ends. -/
theorem steps_keep {config : DAQConfig} {P : Acquisition → Prop}
    (hstep : ∀ s event, P s → P (s.step config event)) (events : List Event) {s : Acquisition}
    (hs : P s) : P (s.steps config events) := by
  induction events generalizing s with
  | nil => exact hs
  | cons event events ih => exact ih (hstep s event hs)

theorem step_transfer {config : DAQConfig} (hactive : config.isActive = true) (s : Acquisition) :
    s.step config .transfer = { s with dev := s.dev.transfer } := by
  simp only [step, hactive, if_true]

theorem steps_inactive {config : DAQConfig} (hactive : config.isActive = false)
    (events : List Event) (dev : Device) :
    steps config ⟨dev, true⟩ events = ⟨dev, true⟩ := by
  apply steps_keep (P := fun s => s = ⟨dev, true⟩) _ events rfl
  intro s event hs
  rw [hs]
  cases event with
  | transfer => simp [step, hactive]
  | stream => simp [step, Device.stream, hactive]

end Acquisition

end Lucidac.Daq
