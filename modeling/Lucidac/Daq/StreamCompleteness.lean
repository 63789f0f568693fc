import Lucidac.Daq.StreamOrder

/-!
# What a run hands over

A run without overflow hands over every vector once and in order exactly when all its calls of
`stream` find the buffer in a state they can handle.
-/

namespace Lucidac.Daq

namespace Acquisition

/-- Every call of the run loop is in order. -/
def inOrder (config : DAQConfig) : Acquisition → List Event → Prop
  | _, [] => True
  | s, .transfer :: events => inOrder config (s.step config .transfer) events
  | s, .stream :: events => s.dev.inOrder config ∧ inOrder config (s.step config .stream) events

instance decidableInOrder (config : DAQConfig) :
    ∀ s events, Decidable (inOrder config s events)
  | _, [] => .isTrue trivial
  | s, .transfer :: events => decidableInOrder config (s.step config .transfer) events
  | s, .stream :: events =>
    haveI := decidableInOrder config (s.step config .stream) events
    inferInstanceAs (Decidable (_ ∧ _))

section Active

variable {config : DAQConfig} (hactive : config.isActive = true)

include hactive

theorem steps_overflow (events : List Event) {s : Acquisition}
    (hover : s.dev.overflowData = true) : (s.steps config events).dev.overflowData = true := by
  apply steps_keep (P := fun s => s.dev.overflowData = true) _ events hover
  intro s event hover
  cases event with
  | transfer =>
    rw [step_transfer hactive]
    exact Device.transfer_overflow hover
  | stream =>
    simp only [step]
    split_ifs
    · rw [Device.stream_overflow hactive hover]
      exact hover
    · exact hover

theorem steps_misplaced (events : List Event) {s : Acquisition} (hwrong : Misplaced s.dev) :
    Misplaced (s.steps config events).dev := by
  apply steps_keep (P := fun s => Misplaced s.dev) _ events hwrong
  intro s event hwrong
  cases event with
  | transfer =>
    rw [step_transfer hactive]
    apply hwrong.mono
    simp only [Device.handledVectors, Device.transfer_handled]
    exact List.prefix_refl _
  | stream =>
    simp only [step]
    split_ifs
    · exact hwrong.mono (Device.stream_prefix ..)
    · exact hwrong

/-- The run loop goes on and has handed over the complete halves in order. -/
def Aligned (config : DAQConfig) (start : Nat) (s : Acquisition) : Prop :=
  s.looping = true ∧ ∃ k c r, Synced (halfLength config) start k c r s.dev

variable (hvalid : config.isValid = true)

include hvalid

theorem Aligned.step_stream {start : Nat} {s : Acquisition} (hs : Aligned config start s)
    (horder : s.dev.inOrder config) : Aligned config start (s.step config .stream) := by
  obtain ⟨hlooping, k, c, r, hsynced⟩ := hs
  simp only [step, hlooping, if_true]
  rcases Nat.lt_or_ge k c with hk | hk
  · obtain ⟨hok, hnext⟩ := hsynced.serve hvalid hactive hk horder false
    exact ⟨hok, k + 1, c, r, hnext⟩
  · have hkc : k = c := Nat.le_antisymm hsynced.served hk
    subst hkc
    obtain ⟨hfirst, hlast⟩ := hsynced.idle
    rw [Device.stream_idle hactive hsynced.intact hfirst hlast]
    exact ⟨rfl, k, k, r, hsynced⟩

/-- Until the DMA overruns a pending half, the run is in order or has already misplaced a
vector. -/
theorem Aligned.steps_outcome {start : Nat} (events : List Event) {s : Acquisition}
    (hs : Aligned config start s) :
    (s.steps config events).dev.overflowData = true ∨
      s.inOrder config events ∧ Aligned config start (s.steps config events) ∨
      ¬s.inOrder config events ∧ Misplaced (s.steps config events).dev := by
  induction events generalizing s with
  | nil => exact Or.inr (Or.inl ⟨trivial, hs⟩)
  | cons event events ih =>
    cases event with
    | transfer =>
      obtain ⟨hlooping, k, c, r, hsynced⟩ := hs
      rcases hsynced.transfer with ⟨c', r', hnext⟩ | hover
      · apply ih
        rw [step_transfer hactive]
        exact ⟨hlooping, k, c', r', hnext⟩
      · left
        apply steps_overflow hactive events
        rw [step_transfer hactive]
        exact hover
    | stream =>
      by_cases horder : s.dev.inOrder config
      · rcases ih (hs.step_stream hactive hvalid horder) with hover | ⟨hnext, hend⟩ | ⟨hnext, hend⟩
        · exact Or.inl hover
        · exact Or.inr (Or.inl ⟨⟨horder, hnext⟩, hend⟩)
        · exact Or.inr (Or.inr ⟨fun h => hnext h.2, hend⟩)
      · obtain ⟨hlooping, k, c, r, hsynced⟩ := hs
        refine Or.inr (Or.inr ⟨fun h => horder h.1, ?_⟩)
        apply steps_misplaced hactive events
        simp only [step, hlooping, if_true]
        exact hsynced.misorder hvalid hactive horder

end Active

end Acquisition

namespace Run

/-- Every call of the run loop is in order and the last call finds one block at most. -/
def inOrder (run : Run) (dev : Device) : Prop :=
  Acquisition.inOrder run.config ⟨dev.reset.init run.config, true⟩ run.events ∧
    (run.acquire dev).dev.complete run.config

instance (run : Run) (dev : Device) : Decidable (run.inOrder dev) :=
  inferInstanceAs (Decidable (_ ∧ _))

theorem aligned_start {config : DAQConfig} (hvalid : config.isValid = true)
    (hactive : config.isActive = true) (dev : Device) :
    Acquisition.Aligned config dev.partialBufferPart ⟨dev.reset.init config, true⟩ := by
  refine ⟨rfl, 0, 0, 0, at_init hvalid hactive dev, rfl, Nat.le_refl 0, by omega, ?_, ?_, rfl, ?_⟩
  · simp [Device.init, Device.reset]
  · simp [Device.init, Device.reset]
  · simp [Device.init, Device.reset, Device.handledVectors]

private theorem inactive_iff (run : Run) (dev : Device) (hactive : run.config.isActive = false) :
    (((run.acquire dev).dev.stream run.config true).2.handledVectors =
      (List.range (run.acquire dev).dev.produced).map some) ↔ run.inOrder dev := by
  have hacquire : run.acquire dev = ⟨dev.reset.init run.config, true⟩ :=
    Acquisition.steps_inactive hactive ..
  have hnever : ∀ (events : List Event) (s : Acquisition), s.inOrder run.config events := by
    intro events
    induction events with
    | nil => exact fun _ => trivial
    | cons event events ih =>
      intro s
      cases event with
      | transfer => exact ih _
      | stream => exact ⟨fun h => by simp [hactive] at h, ih _⟩
  apply iff_of_true
  · rw [hacquire]
    simp [Device.stream, hactive, Device.handledVectors, Device.init, Device.reset]
  · exact ⟨hnever _ _, fun h => by simp [hactive] at h⟩

private theorem active_iff (run : Run) (dev : Device) (hvalid : run.config.isValid = true)
    (hactive : run.config.isActive = true)
    (hok : ((run.acquire dev).dev.stream run.config true).1 = true) :
    (((run.acquire dev).dev.stream run.config true).2.handledVectors =
      (List.range (run.acquire dev).dev.produced).map some) ↔ run.inOrder dev := by
  have hstart := aligned_start hvalid hactive dev
  rcases hstart.steps_outcome hactive hvalid run.events with hover | ⟨horder, hend⟩ | ⟨horder, hend⟩
  · have hend : (run.acquire dev).dev.overflowData = true := hover
    rw [Device.stream_overflow hactive hend] at hok
    exact absurd hok Bool.false_ne_true
  · obtain ⟨-, k, c, r, hsynced⟩ := hend
    apply (hsynced.finish hvalid hactive).trans
    exact ⟨fun hcomplete => ⟨horder, hcomplete⟩, fun h => h.2⟩
  · apply iff_of_false
    · exact (hend.mono (Device.stream_prefix ..)).not_range _
    · exact fun h => horder h.1

/-- A run without overflow, from any state of the device, hands over exactly the vectors the DMA
produced, in order and each once, if and only if its calls of `stream` are in order and the last
one finds one block at most. -/
theorem handsOver_produced_iff (run : Run) (dev : Device) (hvalid : run.config.isValid = true)
    (hno : run.noOverflow dev = true) :
    (run.execute dev).handledVectors = (List.range (run.execute dev).produced).map some ↔
      run.inOrder dev := by
  simp only [noOverflow, Bool.and_eq_true] at hno
  simp only [execute, hvalid, if_true, Device.stream_produced]
  cases hactive : run.config.isActive with
  | false => exact inactive_iff run dev hactive
  | true => exact active_iff run dev hvalid hactive hno.1.2

def eightChannels : DAQConfig := ⟨8, 1000, true, false⟩

/-- Sixteen vectors fill the first half; it is handed over before one more vector follows. -/
def halfHandedOver : Run := ⟨eightChannels, List.replicate 16 .transfer ++ [.stream, .transfer]⟩

theorem handsOver_produced_halfHandedOver :
    (halfHandedOver.execute .boot).handledVectors =
      (List.range (halfHandedOver.execute .boot).produced).map some :=
  (handsOver_produced_iff halfHandedOver .boot (by decide) (by decide +kernel)).mpr
    (by decide +kernel)

/-- The same vectors with the first half still pending at the last call. -/
def halfPending : Run := ⟨eightChannels, List.replicate 17 .transfer⟩

/-- The last call hands over the pending half only: the seventeenth vector is lost. -/
theorem halfPending_loses_vector :
    halfPending.config.isValid = true ∧ halfPending.noOverflow .boot = true ∧
      (halfPending.execute .boot).handledVectors = (List.range 16).map some ∧
      (halfPending.execute .boot).handledVectors ≠
        (List.range (halfPending.execute .boot).produced).map some := by
  decide +kernel

end Run

end Lucidac.Daq
