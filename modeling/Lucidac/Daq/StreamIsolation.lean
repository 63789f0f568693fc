import Lucidac.Daq.StreamCalls

/-!
# Runs after runs

The part of the buffer that `stream` remembers is the only thing a run takes over from the runs
before it.  It is read by the last call alone, when no half is pending.
-/

namespace Lucidac.Daq

open Framework

/-- The block has at most half of the buffer's vectors, all written in this run. -/
def HandledBlock.within (config : DAQConfig) (block : HandledBlock) : Prop :=
  block.outerCount.toNat ≤ halfLength config ∧ ∀ vector ∈ block.vectors, vector.isSome = true

namespace Device

def calls (dev : Device) : List (Nat × BitVec 32) :=
  dev.handled.map fun block => (block.offset, block.outerCount)

def handledWithin (config : DAQConfig) (dev : Device) : Prop :=
  ∀ block ∈ dev.handled, block.within config

/-- When the last call finds no pending half, the remembered part of the buffer is the one the
DMA is in or has just filled or entered. -/
def restInside (config : DAQConfig) (dev : Device) : Prop :=
  config.isActive = true → dev.overflowData = false → dev.firstData = false →
    dev.lastData = false →
      if dev.partialBufferPart = 0 then dev.biter - dev.citer ≤ halfLength config
      else halfLength config ≤ dev.biter - dev.citer

instance (config : DAQConfig) (dev : Device) : Decidable (dev.restInside config) :=
  inferInstanceAs (Decidable (_ → _))

def remembersHalf (dev : Device) : Prop :=
  dev.partialBufferPart = 0 ∨ dev.partialBufferPart = bufferSize / 2

theorem transfer_partialBufferPart (dev : Device) :
    dev.transfer.partialBufferPart = dev.partialBufferPart := by
  simp only [transfer, interrupt]
  split_ifs <;> rfl

theorem stream_remembersHalf (config : DAQConfig) (atEnd : Bool) {dev : Device}
    (hpart : dev.remembersHalf) : (dev.stream config atEnd).2.remembersHalf := by
  simp only [stream]
  split_ifs <;>
    first
    | exact hpart
    | exact Or.inr rfl
    | exact Or.inl rfl

end Device

theorem Run.acquire_remembersHalf (run : Run) {dev : Device} (hpart : dev.remembersHalf) :
    (run.acquire dev).dev.remembersHalf := by
  apply Acquisition.steps_keep (P := fun s => s.dev.remembersHalf) _ run.events
  · exact hpart
  · intro s event hs
    cases event with
    | transfer =>
      simp only [Acquisition.step]
      split_ifs
      · simpa only [Device.remembersHalf, Device.transfer_partialBufferPart] using hs
      · exact hs
    | stream =>
      simp only [Acquisition.step]
      split_ifs
      · exact Device.stream_remembersHalf run.config false hs
      · exact hs

theorem afterRuns_remembersHalf (history : List Run) : (afterRuns history).remembersHalf := by
  have hkeep : ∀ (runs : List Run) (dev : Device), dev.remembersHalf →
      (runs.foldl (fun dev run => run.execute dev) dev).remembersHalf := by
    intro runs
    induction runs with
    | nil => exact fun _ hpart => hpart
    | cons run runs ih =>
      intro dev hpart
      apply ih
      simp only [Run.execute]
      split_ifs
      · exact Device.stream_remembersHalf _ _ (run.acquire_remembersHalf hpart)
      · exact hpart
  exact hkeep history .boot (Or.inl rfl)

/-- The DMA position with what the flags and the blocks handed over say about it. -/
structure Written (config : DAQConfig) (c r : Nat) (dev : Device) : Prop where
  position : At (halfLength config) c r dev
  first : dev.firstData = true → 1 ≤ c
  last : dev.lastData = true → 2 ≤ c
  untouched : dev.handled = [] → dev.overflowData = false → dev.firstData = false →
    dev.lastData = false → c = 0
  blocks : dev.handledWithin config

namespace Written

variable {config : DAQConfig} {c r : Nat} {dev : Device}

theorem transfer (hs : Written config c r dev) : ∃ c r, Written config c r dev.transfer := by
  have hblocks : dev.transfer.handledWithin config := by
    simpa only [Device.handledWithin, Device.transfer_handled] using hs.blocks
  rcases Nat.lt_or_ge (r + 1) (halfLength config) with hr | hr
  · obtain ⟨hat, hfirst, hlast, hover, -, hhandled⟩ := hs.position.transfer_inside hr
    refine ⟨c, r + 1, hat, ?_, ?_, ?_, hblocks⟩
    · exact fun h => hs.first (hfirst ▸ h)
    · exact fun h => hs.last (hlast ▸ h)
    · rw [hhandled, hover, hfirst, hlast]
      exact hs.untouched
  · have hinside := hs.position.inside
    obtain ⟨hat, hfirst, hlast, -, -, -⟩ := hs.position.transfer_boundary (by omega)
    refine ⟨c + 1, 0, hat, fun _ => by omega, ?_, ?_, hblocks⟩
    · intro h
      rw [hlast, Bool.or_eq_true, beq_iff_eq] at h
      rcases h with h | h
      · have := hs.last h
        omega
      · omega
    · intro _ _ hnotFirst hnotLast
      rw [hfirst, Bool.or_eq_false_iff, beq_eq_false_iff_ne] at hnotFirst
      rw [hlast, Bool.or_eq_false_iff, beq_eq_false_iff_ne] at hnotLast
      omega

private theorem handle_within (hs : Written config c r dev) {dev' : Device}
    (hbuffer : dev'.buffer = dev.buffer) (hhandled : dev'.handled = dev.handled) {offset start : Nat}
    {outerCount : BitVec 32} (hstart : offset / config.numChannels.toNat = start)
    (hhalf : outerCount.toNat ≤ halfLength config)
    (hring : start + outerCount.toNat ≤ 2 * halfLength config)
    (hpassed : start + outerCount.toNat ≤ c * halfLength config + r) :
    (Device.handle config offset outerCount dev').handledWithin config := by
  intro block hblock
  simp only [Device.handle, List.mem_append, List.mem_singleton, hhandled, hbuffer, hstart] at hblock
  rcases hblock with hblock | hblock
  · exact hs.blocks block hblock
  · rw [hblock]
    refine ⟨hhalf, fun vector hvector => ?_⟩
    obtain ⟨i, hi, hslot⟩ := List.mem_map.mp hvector
    have hlt := List.mem_range.mp hi
    rw [← hslot, hs.position.buffer, hs.position.produced]
    exact ringSlots_isSome id (by omega) (by omega)

section Stream

variable (hvalid : config.isValid = true) (hactive : config.isActive = true)

include hvalid hactive

/-- A pending half is complete, so a call hands over vectors of this run only. -/
theorem serve (hs : Written config c r dev) (hover : dev.overflowData = false)
    (hpending : dev.firstData = true ∨ dev.lastData = true) (atEnd : Bool) :
    Written config c r (dev.stream config atEnd).2 := by
  have htoNat := DAQConfig.halfLength_toNat hvalid hactive
  cases hfirst : dev.firstData with
  | true =>
    have hhalf : 1 * halfLength config ≤ c * halfLength config :=
      Nat.mul_le_mul_right _ (hs.first hfirst)
    rw [Device.stream_first hactive hover hfirst]
    refine ⟨hs.position.frame rfl rfl rfl rfl, ?_, hs.last, ?_, ?_⟩
    · intro h
      exact absurd h Bool.false_ne_true
    · intro hempty
      exact absurd hempty (List.append_ne_nil_of_right_ne_nil _ (List.cons_ne_nil _ _))
    · exact hs.handle_within rfl rfl (Nat.zero_div _) (by omega) (by omega) (by omega)
  | false =>
    have hlast : dev.lastData = true := by
      rcases hpending with h | h
      · rw [hfirst] at h
        exact absurd h Bool.false_ne_true
      · exact h
    have hboth : 2 * halfLength config ≤ c * halfLength config :=
      Nat.mul_le_mul_right _ (hs.last hlast)
    have hoffset := DAQConfig.half_offset hvalid hactive Nat.one_lt_two
    rw [Nat.one_mul, Nat.one_mul] at hoffset
    rw [Device.stream_last hactive hover hfirst hlast]
    refine ⟨hs.position.frame rfl rfl rfl rfl, hs.first, ?_, ?_, ?_⟩
    · intro h
      exact absurd h Bool.false_ne_true
    · intro hempty
      exact absurd hempty (List.append_ne_nil_of_right_ne_nil _ (List.cons_ne_nil _ _))
    · exact hs.handle_within rfl rfl hoffset (by omega) (by omega) (by omega)

private theorem rest_bounded (hs : Written config c r dev) (hover : dev.overflowData = false)
    (hfirst : dev.firstData = false) (hlast : dev.lastData = false)
    (hwithin : (dev.stream config true).2.handledWithin config) : dev.restInside config := by
  intro _ _ _ _
  have hle := DAQConfig.halfLength_le hvalid hactive
  have hinside := hs.position.inside
  have hbound : (dev.restCount config).toNat ≤ halfLength config := by
    rw [Device.stream_rest hactive hover hfirst hlast] at hwithin
    split_ifs at hwithin with hzero
    · rw [hzero]
      exact Nat.zero_le _
    · exact (hwithin _ (List.mem_append_right _ (List.mem_singleton.mpr rfl))).1
  rw [hs.position.restCount_toNat hvalid hactive] at hbound
  rw [hs.position.position]
  split_ifs at hbound ⊢ with hzero hparity
  · exact hbound
  · omega
  · rw [(by omega : c % 2 = 1)]
    omega

private theorem rest_within (hs : Written config c r dev) (hpart : dev.remembersHalf)
    (hover : dev.overflowData = false) (hfirst : dev.firstData = false)
    (hlast : dev.lastData = false) (hfits : dev.restInside config) :
    (dev.stream config true).2.handledWithin config := by
  have hinside := hs.position.inside
  have hcount := hs.position.restCount_toNat hvalid hactive
  have hrest := hfits hactive hover hfirst hlast
  have hmod : c % 2 * halfLength config ≤ c * halfLength config :=
    Nat.mul_le_mul_right _ (Nat.mod_le c 2)
  rw [hs.position.position] at hrest
  rw [Device.stream_rest hactive hover hfirst hlast]
  split_ifs with hempty
  · exact hs.blocks
  · rcases hpart with hzero | hsecond
    · rw [if_pos hzero] at hrest hcount
      exact hs.handle_within rfl rfl (by rw [hzero, Nat.zero_div]) (by omega) (by omega) (by omega)
    · have hne : dev.partialBufferPart ≠ 0 := by
        rw [hsecond]
        decide
      rw [if_neg hne] at hrest hcount
      have hparity : c % 2 = 1 := by
        rcases Nat.mod_two_eq_zero_or_one c with h | h
        · rw [h] at hrest
          omega
        · exact h
      have hoffset := DAQConfig.half_offset hvalid hactive Nat.one_lt_two
      rw [Nat.one_mul, Nat.one_mul, ← hsecond] at hoffset
      rw [if_neg (by omega)] at hcount
      rw [hparity] at hmod
      exact hs.handle_within rfl rfl hoffset (by omega) (by omega) (by omega)

/-- The last call stays inside what this run wrote exactly when the remembered part fits. -/
theorem finish_iff (hs : Written config c r dev) (hpart : dev.remembersHalf) :
    (dev.stream config true).2.handledWithin config ↔ dev.restInside config := by
  cases hover : dev.overflowData with
  | true =>
    rw [Device.stream_overflow hactive hover]
    apply iff_of_true hs.blocks
    intro _ h
    rw [hover] at h
    exact absurd h.symm Bool.false_ne_true
  | false =>
    by_cases hpending : dev.firstData = true ∨ dev.lastData = true
    · apply iff_of_true (hs.serve hvalid hactive hover hpending true).blocks
      intro _ _ hfirst hlast
      rw [hfirst, hlast] at hpending
      simp at hpending
    · simp only [not_or, Bool.not_eq_true] at hpending
      obtain ⟨hfirst, hlast⟩ := hpending
      constructor
      · exact hs.rest_bounded hvalid hactive hover hfirst hlast
      · exact hs.rest_within hvalid hactive hpart hover hfirst hlast

end Stream

end Written

/-- Two devices in the same run: they differ in the remembered part only, and no longer once
something was handed over. -/
structure Lockstep (dev dev' : Device) : Prop where
  same : dev' = { dev with partialBufferPart := dev'.partialBufferPart }
  remembered : dev.handled ≠ [] → dev' = dev

namespace Lockstep

variable {dev dev' : Device}

theorem transfer (h : Lockstep dev dev') : Lockstep dev.transfer dev'.transfer := by
  have hframe : ∀ part, Device.transfer { dev with partialBufferPart := part } =
      { dev.transfer with partialBufferPart := part } := by
    intro part
    simp only [Device.transfer, Device.interrupt]
    split_ifs <;> rfl
  constructor
  · rw [Device.transfer_partialBufferPart, ← hframe, ← h.same]
  · intro hhandled
    rw [Device.transfer_handled] at hhandled
    rw [h.remembered hhandled]

/-- A call for a pending half, or after an overflow, does not read the remembered part. -/
theorem stream_busy {config : DAQConfig} (hactive : config.isActive = true) (h : Lockstep dev dev')
    (hbusy : dev.overflowData = true ∨ dev.firstData = true ∨ dev.lastData = true) (atEnd : Bool) :
    (dev'.stream config atEnd).1 = (dev.stream config atEnd).1 ∧
      Lockstep (dev.stream config atEnd).2 (dev'.stream config atEnd).2 := by
  have hsame := h.same
  have hover' : dev'.overflowData = dev.overflowData := by rw [hsame]
  have hfirst' : dev'.firstData = dev.firstData := by rw [hsame]
  have hlast' : dev'.lastData = dev.lastData := by rw [hsame]
  cases hover : dev.overflowData with
  | true =>
    rw [Device.stream_overflow hactive hover, Device.stream_overflow hactive (hover'.trans hover)]
    exact ⟨rfl, h⟩
  | false =>
    cases hfirst : dev.firstData with
    | true =>
      have hstream : dev'.stream config atEnd = dev.stream config atEnd := by
        rw [Device.stream_first hactive hover hfirst,
          Device.stream_first hactive (hover'.trans hover) (hfirst'.trans hfirst), hsame]
      rw [hstream]
      exact ⟨rfl, rfl, fun _ => rfl⟩
    | false =>
      have hlast : dev.lastData = true := by simpa [hover, hfirst] using hbusy
      have hstream : dev'.stream config atEnd = dev.stream config atEnd := by
        rw [Device.stream_last hactive hover hfirst hlast,
          Device.stream_last hactive (hover'.trans hover) (hfirst'.trans hfirst)
            (hlast'.trans hlast), hsame]
      rw [hstream]
      exact ⟨rfl, rfl, fun _ => rfl⟩

theorem stream {config : DAQConfig} (hactive : config.isActive = true) (h : Lockstep dev dev') :
    (dev'.stream config false).1 = (dev.stream config false).1 ∧
      Lockstep (dev.stream config false).2 (dev'.stream config false).2 := by
  by_cases hbusy : dev.overflowData = true ∨ dev.firstData = true ∨ dev.lastData = true
  · exact h.stream_busy hactive hbusy false
  · simp only [not_or, Bool.not_eq_true] at hbusy
    obtain ⟨hover, hfirst, hlast⟩ := hbusy
    have hsame := h.same
    rw [Device.stream_idle hactive hover hfirst hlast, Device.stream_idle hactive
      (by rw [hsame]; exact hover) (by rw [hsame]; exact hfirst) (by rw [hsame]; exact hlast)]
    exact ⟨rfl, h⟩

end Lockstep

namespace Acquisition

section Active

variable {config : DAQConfig} (hactive : config.isActive = true)

include hactive

theorem steps_lockstep (events : List Event) {s s' : Acquisition} (hloop : s'.looping = s.looping)
    (hdev : Lockstep s.dev s'.dev) :
    Lockstep (s.steps config events).dev (s'.steps config events).dev := by
  induction events generalizing s s' with
  | nil => exact hdev
  | cons event events ih =>
    cases event with
    | transfer =>
      apply ih
      · rw [step_transfer hactive, step_transfer hactive]
        exact hloop
      · rw [step_transfer hactive, step_transfer hactive]
        exact hdev.transfer
    | stream =>
      obtain ⟨hok, hnext⟩ := hdev.stream hactive
      apply ih
      · simp only [step, hloop]
        split_ifs
        · exact hok
        · exact hloop
      · simp only [step, hloop]
        split_ifs
        · exact hnext
        · exact hdev

theorem steps_written (hvalid : config.isValid = true) (events : List Event) {s : Acquisition}
    (hs : ∃ c r, Written config c r s.dev) :
    ∃ c r, Written config c r (s.steps config events).dev := by
  apply steps_keep (P := fun s => ∃ c r, Written config c r s.dev) _ events hs
  intro s event hs
  obtain ⟨c, r, hwritten⟩ := hs
  cases event with
  | transfer =>
    rw [step_transfer hactive]
    exact hwritten.transfer
  | stream =>
    simp only [step]
    split_ifs
    · refine ⟨c, r, ?_⟩
      cases hover : s.dev.overflowData with
      | true =>
        rw [Device.stream_overflow hactive hover]
        exact hwritten
      | false =>
        by_cases hpending : s.dev.firstData = true ∨ s.dev.lastData = true
        · exact hwritten.serve hvalid hactive hover hpending false
        · simp only [not_or, Bool.not_eq_true] at hpending
          rw [Device.stream_idle hactive hover hpending.1 hpending.2]
          exact hwritten
    · exact ⟨c, r, hwritten⟩

end Active

end Acquisition

/-- Devices in lockstep hand over the same blocks when the remembered part fits both. -/
theorem Lockstep.finish {config : DAQConfig} {c r : Nat} {dev dev' : Device}
    (hactive : config.isActive = true) (h : Lockstep dev dev') (hs : Written config c r dev)
    (hrest : dev.restInside config) (hrest' : dev'.restInside config) :
    (dev'.stream config true).2.handled = (dev.stream config true).2.handled := by
  by_cases hbusy : dev.overflowData = true ∨ dev.firstData = true ∨ dev.lastData = true
  · rw [(h.stream_busy hactive hbusy true).2.same]
  · simp only [not_or, Bool.not_eq_true] at hbusy
    obtain ⟨hover, hfirst, hlast⟩ := hbusy
    have hequal : dev' = dev := by
      by_cases hempty : dev.handled = []
      · have hsame := h.same
        have hpos : dev.biter - dev.citer < halfLength config := by
          rw [hs.position.position, hs.untouched hempty hover hfirst hlast]
          have := hs.position.inside
          omega
        have hzero : dev.partialBufferPart = 0 := by
          by_contra hne
          have := hrest hactive hover hfirst hlast
          rw [if_neg hne] at this
          omega
        have hzero' : dev'.partialBufferPart = 0 := by
          by_contra hne
          have := hrest' hactive (by rw [hsame]; exact hover) (by rw [hsame]; exact hfirst)
            (by rw [hsame]; exact hlast)
          rw [if_neg hne, hsame] at this
          exact absurd this (Nat.not_le.mpr hpos)
        rw [hsame, hzero', ← hzero]
      · exact h.remembered hempty
    rw [hequal]

namespace Run

def restInside (run : Run) (dev : Device) : Prop :=
  run.config.isValid = true → (run.acquire dev).dev.restInside run.config

instance (run : Run) (dev : Device) : Decidable (run.restInside dev) :=
  inferInstanceAs (Decidable (_ → _))

private theorem execute_handled_nil (run : Run) (dev : Device)
    (h : ¬(run.config.isValid = true ∧ run.config.isActive = true)) :
    (run.execute dev).handled = [] := by
  simp only [execute]
  split_ifs with hvalid
  · have hactive : run.config.isActive = false := by simpa [hvalid] using h
    have hacquire : run.acquire dev = ⟨dev.reset.init run.config, true⟩ :=
      Acquisition.steps_inactive hactive ..
    rw [hacquire]
    simp [Device.stream, hactive, Device.init, Device.reset]
  · rfl

private theorem acquire_written (run : Run) (dev : Device) (hvalid : run.config.isValid = true)
    (hactive : run.config.isActive = true) :
    ∃ c r, Written run.config c r (run.acquire dev).dev := by
  apply Acquisition.steps_written hactive hvalid run.events
  refine ⟨0, 0, at_init hvalid hactive dev, ?_, ?_, fun _ _ _ _ => rfl, ?_⟩
  · exact fun h => absurd h Bool.false_ne_true
  · exact fun h => absurd h Bool.false_ne_true
  · exact fun block hblock => absurd hblock List.not_mem_nil

theorem execute_handledWithin_iff (run : Run) {dev : Device} (hpart : dev.remembersHalf) :
    (run.execute dev).handledWithin run.config ↔ run.restInside dev := by
  by_cases h : run.config.isValid = true ∧ run.config.isActive = true
  · obtain ⟨c, r, hs⟩ := run.acquire_written dev h.1 h.2
    simp only [execute, h.1, if_true, restInside, forall_const]
    exact hs.finish_iff h.1 h.2 (run.acquire_remembersHalf hpart)
  · apply iff_of_true
    · intro block hblock
      rw [run.execute_handled_nil dev h] at hblock
      exact absurd hblock List.not_mem_nil
    · exact fun hvalid hactive => absurd ⟨hvalid, hactive⟩ h

theorem execute_handled_eq (run : Run) {dev dev' : Device} (hrest : run.restInside dev)
    (hrest' : run.restInside dev') : (run.execute dev').handled = (run.execute dev).handled := by
  by_cases h : run.config.isValid = true ∧ run.config.isActive = true
  · obtain ⟨c, r, hs⟩ := run.acquire_written dev h.1 h.2
    have hlockstep : Lockstep (run.acquire dev).dev (run.acquire dev').dev := by
      refine Acquisition.steps_lockstep h.2 run.events ?_ ?_
      · rfl
      · exact ⟨rfl, fun hhandled => absurd rfl hhandled⟩
    simp only [execute, h.1, if_true]
    exact hlockstep.finish h.2 hs (hrest h.1) (hrest' h.1)
  · rw [run.execute_handled_nil dev h, run.execute_handled_nil dev' h]

section SameChannels

variable {run run' : Run} (hchannels : run'.config.numChannels = run.config.numChannels)
  (hevents : run'.events = run.events) (hvalid : run'.config.isValid = run.config.isValid)
  (hactive : run'.config.isActive = run.config.isActive)

include hchannels hactive

private theorem stream_congr (atEnd : Bool) (dev : Device) :
    dev.stream run'.config atEnd = dev.stream run.config atEnd := by
  have hhalf : halfLength run'.config = halfLength run.config := by
    simp only [halfLength, hchannels]
  have hhandle : Device.handle run'.config = Device.handle run.config := by
    funext offset outerCount dev
    simp only [Device.handle, hchannels]
  rw [Device.stream, Device.stream, hactive, hhalf, hhandle]

include hevents

private theorem acquire_congr (dev : Device) : run'.acquire dev = run.acquire dev := by
  have hstep : Acquisition.step run'.config = Acquisition.step run.config := by
    funext s event
    cases event with
    | transfer => simp only [Acquisition.step, hactive]
    | stream => simp only [Acquisition.step, stream_congr hchannels hactive]
  simp only [acquire, Acquisition.steps, hstep, hevents, Device.init, ringLength, hchannels]

include hvalid

/-- Beside the interleaving only the channel count matters, and whether the configuration is
accepted and active. -/
theorem execute_congr (dev : Device) : run'.execute dev = run.execute dev := by
  simp only [execute, acquire_congr hchannels hevents hactive, stream_congr hchannels hactive,
    hvalid]

end SameChannels

/-- After any two sequences of earlier runs, two runs with the same channel count and the same
interleaving make the same calls, each of at most half of the buffer's vectors and all of them
written in that run, if and only if the remembered part fits the position of the DMA at their last
calls. -/
theorem execute_isolated_iff (history history' : List Run) (run run' : Run)
    (hchannels : run'.config.numChannels = run.config.numChannels)
    (hevents : run'.events = run.events) (hvalid : run'.config.isValid = run.config.isValid)
    (hactive : run'.config.isActive = run.config.isActive) :
    ((run.execute (afterRuns history)).calls = (run'.execute (afterRuns history')).calls ∧
      (run.execute (afterRuns history)).handledWithin run.config ∧
      (run'.execute (afterRuns history')).handledWithin run'.config) ↔
    run.restInside (afterRuns history) ∧ run'.restInside (afterRuns history') := by
  have hsame := execute_congr hchannels hevents hvalid hactive (afterRuns history')
  rw [run.execute_handledWithin_iff (afterRuns_remembersHalf history),
    run'.execute_handledWithin_iff (afterRuns_remembersHalf history')]
  constructor
  · exact fun h => h.2
  · intro h
    have hrest' : run.restInside (afterRuns history') := by
      rw [← run'.execute_handledWithin_iff (afterRuns_remembersHalf history'), hsame] at h
      rw [← run.execute_handledWithin_iff (afterRuns_remembersHalf history')]
      simpa only [Device.handledWithin, HandledBlock.within, halfLength, hchannels] using h.2
    refine ⟨?_, h⟩
    rw [hsame]
    simp only [Device.calls, run.execute_handled_eq h.1 hrest']

def oneVector : Run := ⟨⟨8, 1000, true, false⟩, [.transfer]⟩

/-- The first half is filled and handed over. -/
def oneHalf : Run := ⟨⟨8, 1000, true, false⟩, List.replicate 16 .transfer ++ [.stream]⟩

/-- The first half and one vector of the second. -/
def oneHalfAndMore : Run :=
  ⟨⟨8, 1000, true, false⟩, List.replicate 16 .transfer ++ [.stream, .transfer]⟩

/-- The same run, sampled faster, makes the same calls on a fresh device and on one that remembers
the second half. -/
theorem execute_isolated_afterHalf :
    (oneHalfAndMore.execute (afterRuns [])).calls =
        (execute ⟨⟨8, 2000, true, false⟩, oneHalfAndMore.events⟩ (afterRuns [oneHalf])).calls ∧
      (oneHalfAndMore.execute (afterRuns [])).calls = [(0, 16), (128, 1)] :=
  ⟨((execute_isolated_iff [] [oneHalf] oneHalfAndMore
      ⟨⟨8, 2000, true, false⟩, oneHalfAndMore.events⟩ rfl rfl (by decide) rfl).mpr
        (by decide +kernel)).1,
    by decide +kernel⟩

/-- One vector after a run of one half is looked for in the second half, with a count that wraps
around. -/
theorem oneVector_depends_on_history :
    (oneVector.execute (afterRuns [oneHalf])).calls = [(128, 4294967281)] ∧
      (oneVector.execute (afterRuns [])).calls = [(0, 1)] ∧
      ¬(oneVector.execute (afterRuns [oneHalf])).handledWithin oneVector.config := by
  refine ⟨by decide +kernel, by decide +kernel, fun hwithin => ?_⟩
  have hcall : ((oneVector.execute (afterRuns [oneHalf])).handled.map (·.outerCount.toNat)) =
      [4294967281] := by decide +kernel
  obtain ⟨block, hblock, hcount⟩ := List.mem_map.mp (hcall ▸ List.mem_singleton.mpr rfl)
  have hle := (hwithin block hblock).1
  rw [hcount] at hle
  revert hle
  decide

end Run

end Lucidac.Daq
