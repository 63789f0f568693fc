import Lucidac.Daq.RingPosition
import Lucidac.Mode.FlexIOTimers
import Lucidac.Mode.OpTime
import Lucidac.Run.TraditionalRun

/-!
# Streaming runs

`run_next_flexio` leaves the timing to the state machine and the acquisition to the DMA.  Counts,
compare values and masks are computed from the configuration of the acquisition, some of them before
it was validated.
-/

namespace Lucidac.RunQueue

open Framework (divide divide_of_ne_zero shiftLeft shiftLeft_of_lt)
open Daq (DAQConfig Device Acquisition)

/-- What a run depends on beside its request: the pins, the address of the ring buffer and the error
flags of the hardware, what happened while it was in OP, and the counters at its end. -/
structure FlexioSurroundings where
  modeFlexio : FlexIOHandler
  daqFlexio : FlexIOHandler
  bufferAddress : BitVec 32
  dmaErrorAtInit : Bool
  events : List Daq.Event
  cntr1 : BitVec 16
  cntr2 : BitVec 16
  dmaErrorAtEnd : Bool
  shifterr : BitVec 32

/-- The run has got as far as OP when there is a time it spent there. -/
structure FlexioOutcome where
  dev : Device
  control : FlexIOControl
  actualOpTime : Option (BitVec 64)
  stateChange : RunStateChange

section Steps

def numChannels32 (config : DAQConfig) : BitVec 32 := config.numChannels.setWidth 32

/-- `BUFFER_SIZE / num_channels / 2`, in `prepare` and in `stream`. -/
def outerCount (config : DAQConfig) : Option (BitVec 32) := do
  let rows ← divide 256 (numChannels32 config)
  divide rows 2

/-- `(1'000'000 / get_sample_rate()) * 2 - 1` -/
def sampleCompare (config : DAQConfig) : Option (BitVec 32) := do
  let period ← divide 1000000 config.sampleRate
  return period * 2 - 1

/-- `__builtin_ctz` -/
def countTrailingZeros (x : BitVec 32) : Option (BitVec 32) := if x = 0 then none else some x.ctz

def daqPins : List (BitVec 8) := [7, 6, 32, 34, 35, 36, 37, 11, 10, 9, 8]

/-- What `FlexIODAQ::init` writes to the sample timer and to the descriptor of the DMA. -/
structure DaqRegisters where
  sampleTimcmp : BitVec 32
  biter : BitVec 32
  nbytes : BitVec 32
  attrSrc : BitVec 32
  attrDst : BitVec 32

def daqRegisters (config : DAQConfig) : Option DaqRegisters := do
  let sampleTimcmp ← sampleCompare config
  let biter ← divide 256 (numChannels32 config)
  let modSrc ← countTrailingZeros (numChannels32 config * 4)
  let mod ← countTrailingZeros (256 * 4)
  return { sampleTimcmp, biter, nbytes := 4 * numChannels32 config
           attrSrc := (modSrc &&& 0b11111) <<< 3 ||| 0b010
           attrDst := (mod &&& 0b11111) <<< 3 ||| 0b010 }

/-- The address bits that are not covered by the ring buffer. -/
def alignmentMask : Option (BitVec 32) := do
  let mod ← countTrailingZeros (256 * 4)
  shiftLeft (BitVec.allOnes 32) mod.toNat

def FlexIODAQ.init (surroundings : FlexioSurroundings) (config : DAQConfig) (dev : Device) :
    Option (Bool × Device) := do
  if !config.isValid then return (false, dev)
  if daqPins.any fun pin => surroundings.daqFlexio.mapIOPinToFlexPin pin = 0xff then
    return (false, dev)
  let _ ← daqRegisters config
  let mask ← alignmentMask
  if surroundings.bufferAddress &&& ~~~ mask ≠ 0 then return (false, dev.init config)
  return (!surroundings.dmaErrorAtInit, dev.init config)

/-- `stream`, with its division. -/
def checkedStream (config : DAQConfig) (atEnd : Bool) (dev : Device) : Option (Bool × Device) := do
  if config.isActive && !dev.overflowData then
    let _ ← outerCount config
  return dev.stream config atEnd

def checkedStep (config : DAQConfig) (s : Acquisition) : Daq.Event → Option Acquisition
  | .transfer => some (s.step config .transfer)
  | .stream =>
    if s.looping then do
      let (ok, dev) ← checkedStream config false s.dev
      return ⟨dev, ok⟩
    else some s

def shifterrMask (config : DAQConfig) : Option (BitVec 32) :=
  if 1 < config.numChannels.toNat then (shiftLeft 1 config.numChannels.toNat).map (· - 1)
  else some 1

def FlexIODAQ.finalize (surroundings : FlexioSurroundings) (config : DAQConfig) (dev : Device) :
    Option Bool := do
  if !config.isActive then return true
  if surroundings.dmaErrorAtEnd then return false
  let mask ← shifterrMask config
  if surroundings.shifterr &&& mask ≠ 0 then return false
  return !dev.overflowData

end Steps

/-- More passes than the search for factors makes for any time that is admitted. -/
def passes : Nat := 4320000001

/-- `run_next_flexio` from the start of the state machine on. -/
def executeFlexio (run : Run) (surroundings : FlexioSurroundings) (control : FlexIOControl)
    (dev : Device) : Option FlexioOutcome := do
  let config := run.daqConfig
  let acquired ← surroundings.events.foldlM (checkedStep config) ⟨dev, true⟩
  let (streamed, dev) ← checkedStream config true acquired.dev
  let actualOpTime := FlexIOControl.getActualOpTime surroundings.cntr1 surroundings.cntr2
  let finalized ← FlexIODAQ.finalize surroundings config dev
  let state := if acquired.looping && streamed && finalized then RunState.done else .error
  return { dev, control, actualOpTime := some actualOpTime
           stateChange := Run.toState state (actualOpTime.setWidth 32) }

/-- `FlexIOControl::reset`, which comes before `init`, is left out: `init` writes the registers of
the run anew, and no outcome reads another one. -/
def runNextFlexio (run : Run) (surroundings : FlexioSurroundings) (control : FlexIOControl)
    (dev : Device) : Option FlexioOutcome := do
  let _ ← outerCount run.daqConfig
  let dev := dev.reset
  let (initialized, control) ← control.init surroundings.modeFlexio passes run.config.icTime
    run.config.opTime (if run.config.haltOnOverload then .halt else .ignore) .ignore .none
  if !initialized then
    return { dev, control, actualOpTime := none, stateChange := Run.toState .error 0 }
  let (initialized, dev) ← FlexIODAQ.init surroundings run.daqConfig dev
  if !initialized then
    return { dev, control, actualOpTime := none, stateChange := Run.toState .error 0 }
  executeFlexio run surroundings control dev

section Defined

variable {config : DAQConfig} {dev : Device} {surroundings : FlexioSurroundings}

theorem toNat_numChannels32 (config : DAQConfig) :
    (numChannels32 config).toNat = config.numChannels.toNat :=
  BitVec.toNat_setWidth_of_le (by decide)

theorem numChannels32_ne_zero (hchannels : config.numChannels ≠ 0) : numChannels32 config ≠ 0 := by
  intro hzero
  apply hchannels
  rw [← BitVec.toNat_inj, ← toNat_numChannels32, hzero]
  rfl

theorem outerCount_of_ne_zero (hchannels : config.numChannels ≠ 0) :
    outerCount config = some (256 / numChannels32 config / 2) := by
  rw [outerCount, divide_of_ne_zero _ (numChannels32_ne_zero hchannels)]
  rfl

/-- Where the channels can be divided by, `stream` is the total one. -/
theorem checkedStream_of_ne_zero (hchannels : config.numChannels ≠ 0) (atEnd : Bool) :
    checkedStream config atEnd dev = some (dev.stream config atEnd) := by
  rw [checkedStream]
  split
  · rw [outerCount_of_ne_zero hchannels]
    rfl
  · rfl

theorem checkedStep_of_ne_zero (hchannels : config.numChannels ≠ 0) (s : Acquisition)
    (event : Daq.Event) : checkedStep config s event = some (s.step config event) := by
  cases event with
  | transfer => rfl
  | stream =>
    rw [checkedStep, Acquisition.step]
    split
    · rw [checkedStream_of_ne_zero hchannels]
      rfl
    · rfl

theorem foldlM_checkedStep (hchannels : config.numChannels ≠ 0) (events : List Daq.Event)
    (s : Acquisition) :
    events.foldlM (checkedStep config) s = some (s.steps config events) := by
  induction events generalizing s with
  | nil => rfl
  | cons event events ih =>
    rw [List.foldlM_cons, checkedStep_of_ne_zero hchannels, Option.bind_eq_bind, Option.bind_some,
      ih]
    rfl

theorem sampleRate_le_of_isValid (hvalid : config.isValid = true) : 32 ≤ config.sampleRate.toNat := by
  by_contra hlt
  rw [DAQConfig.isValid, if_pos (.inr (Nat.not_le.mp hlt))] at hvalid
  exact Bool.false_ne_true hvalid

theorem sampleCompare_of_isValid (hvalid : config.isValid = true) :
    sampleCompare config = some (1000000 / config.sampleRate * 2 - 1) := by
  have hne : config.sampleRate ≠ 0 := by
    intro hzero
    have hle := sampleRate_le_of_isValid hvalid
    rw [hzero] at hle
    exact absurd hle (by decide)
  rw [sampleCompare, divide_of_ne_zero _ hne]
  rfl

theorem isSome_daqRegisters (hvalid : config.isValid = true) (hchannels : config.numChannels ≠ 0) :
    (daqRegisters config).isSome = true := by
  have hbytes : numChannels32 config * 4 ≠ 0 := by
    intro hzero
    have hmul := congrArg BitVec.toNat hzero
    have hlt := config.numChannels.isLt
    apply hchannels
    rw [BitVec.toNat_mul, toNat_numChannels32] at hmul
    apply BitVec.eq_of_toNat_eq
    simp at hmul ⊢
    omega
  rw [daqRegisters, sampleCompare_of_isValid hvalid, Option.bind_eq_bind, Option.bind_some,
    divide_of_ne_zero _ (numChannels32_ne_zero hchannels), Option.bind_some, countTrailingZeros,
    if_neg hbytes]
  rfl

theorem alignmentMask_eq : alignmentMask = some (BitVec.allOnes 32 <<< 10) := by decide +kernel

/-- The acquisition is initialised for a valid configuration on mapped pins. -/
theorem init_of_ne_zero (hchannels : config.numChannels ≠ 0) :
    FlexIODAQ.init surroundings config dev = some
      (if config.isValid = false then (false, dev)
      else if daqPins.any fun pin => surroundings.daqFlexio.mapIOPinToFlexPin pin = 0xff then
        (false, dev)
      else if surroundings.bufferAddress &&& ~~~ (BitVec.allOnes 32 <<< 10) ≠ 0 then
        (false, dev.init config)
      else (!surroundings.dmaErrorAtInit, dev.init config)) := by
  rw [FlexIODAQ.init]
  cases hvalid : config.isValid with
  | false => rfl
  | true =>
    obtain ⟨registers, hregisters⟩ :=
      Option.isSome_iff_exists.mp (isSome_daqRegisters hvalid hchannels)
    rw [if_neg (show ¬ (!true) = true by decide), if_neg (show true ≠ false by decide)]
    split
    · rfl
    · rw [hregisters, alignmentMask_eq, Option.bind_eq_bind, Option.bind_some,
        Option.bind_eq_bind, Option.bind_some]
      split
      · rfl
      · rfl

theorem init_ready (hchannels : config.numChannels ≠ 0) (hvalid : config.isValid = true)
    (hpins : ∀ pin ∈ daqPins, surroundings.daqFlexio.mapIOPinToFlexPin pin ≠ 0xff)
    (haligned : surroundings.bufferAddress &&& ~~~ (BitVec.allOnes 32 <<< 10) = 0)
    (herror : surroundings.dmaErrorAtInit = false) :
    FlexIODAQ.init surroundings config dev = some (true, dev.init config) := by
  have hmapped : ¬ (daqPins.any fun pin =>
      surroundings.daqFlexio.mapIOPinToFlexPin pin = 0xff) = true := by
    rw [List.any_eq_true]
    rintro ⟨pin, hpin, hnone⟩
    exact hpins pin hpin (of_decide_eq_true hnone)
  rw [init_of_ne_zero hchannels, hvalid, if_neg (show true ≠ false by decide), if_neg hmapped,
    if_neg (not_not.mpr haligned), herror]
  rfl

theorem isValid_of_init {dev' : Device} (hchannels : config.numChannels ≠ 0)
    (h : FlexIODAQ.init surroundings config dev = some (true, dev')) : config.isValid = true := by
  by_contra hvalid
  rw [init_of_ne_zero hchannels, if_pos (Bool.not_eq_true _ ▸ hvalid)] at h
  exact Bool.false_ne_true (congrArg Prod.fst (Option.some.inj h))

theorem isSome_finalize (hchannels : config.numChannels.toNat < 32) :
    (FlexIODAQ.finalize surroundings config dev).isSome = true := by
  have hmask : ∃ mask, shifterrMask config = some mask := by
    rw [shifterrMask, shiftLeft_of_lt _ hchannels]
    split
    · exact ⟨_, rfl⟩
    · exact ⟨_, rfl⟩
  obtain ⟨mask, hmask⟩ := hmask
  rw [FlexIODAQ.finalize]
  split
  · rfl
  · split
    · rfl
    · rw [hmask, Option.bind_eq_bind, Option.bind_some]
      split
      · rfl
      · rfl

end Defined

section Run

variable {run : Run} {surroundings : FlexioSurroundings} {control : FlexIOControl} {dev : Device}

theorem runNextFlexio_none (hchannels : run.daqConfig.numChannels = 0) :
    runNextFlexio run surroundings control dev = none := by
  have hcount : outerCount run.daqConfig = none := by
    rw [outerCount, numChannels32, hchannels]
    rfl
  rw [runNextFlexio, hcount]
  rfl

theorem isSome_executeFlexio (hchannels : run.daqConfig.numChannels ≠ 0)
    (hmax : run.daqConfig.numChannels.toNat < 32) :
    (executeFlexio run surroundings control dev).isSome = true := by
  simp only [executeFlexio]
  rw [foldlM_checkedStep hchannels, Option.bind_eq_bind, Option.bind_some,
    checkedStream_of_ne_zero hchannels, Option.bind_eq_bind, Option.bind_some]
  obtain ⟨finalized, heq⟩ := Option.isSome_iff_exists.mp (isSome_finalize hmax)
  rw [heq]
  rfl

/-- The run that gets as far as OP. -/
theorem runNextFlexio_of_init {control' : FlexIOControl} {dev' : Device}
    (hchannels : run.daqConfig.numChannels ≠ 0)
    (hmode : control.init surroundings.modeFlexio passes run.config.icTime run.config.opTime
      (if run.config.haltOnOverload then .halt else .ignore) .ignore .none = some (true, control'))
    (hdaq : FlexIODAQ.init surroundings run.daqConfig dev.reset = some (true, dev')) :
    runNextFlexio run surroundings control dev = executeFlexio run surroundings control' dev' := by
  simp only [runNextFlexio]
  rw [outerCount_of_ne_zero hchannels, Option.bind_eq_bind, Option.bind_some, hmode,
    Option.bind_eq_bind, Option.bind_some, if_neg (show ¬ (!true) = true by decide), hdaq,
    Option.bind_eq_bind, Option.bind_some]
  rfl

theorem isSome_runNextFlexio (hchannels : run.daqConfig.numChannels ≠ 0)
    (hvalid : run.daqConfig.isValid = true → run.daqConfig.numChannels.toNat < 32)
    (hclock : surroundings.modeFlexio.computeClockRate = 480000000) :
    (runNextFlexio run surroundings control dev).isSome = true := by
  have hmode : (control.init surroundings.modeFlexio passes run.config.icTime run.config.opTime
      (if run.config.haltOnOverload then .halt else .ignore) .ignore .none).isSome = true :=
    FlexIOControl.isSome_init (by decide) hclock _ _ _
  obtain ⟨⟨ready, control'⟩, hmode⟩ := Option.isSome_iff_exists.mp hmode
  have hdaq : ∃ result, FlexIODAQ.init surroundings run.daqConfig dev.reset = some result :=
    ⟨_, init_of_ne_zero hchannels⟩
  obtain ⟨⟨initialized, dev'⟩, hdaq⟩ := hdaq
  cases ready with
  | false =>
    simp only [runNextFlexio]
    rw [outerCount_of_ne_zero hchannels, Option.bind_eq_bind, Option.bind_some, hmode]
    rfl
  | true =>
    cases initialized with
    | false =>
      simp only [runNextFlexio]
      rw [outerCount_of_ne_zero hchannels, Option.bind_eq_bind, Option.bind_some, hmode,
        Option.bind_eq_bind, Option.bind_some, if_neg (show ¬ (!true) = true by decide), hdaq]
      rfl
    | true =>
      rw [runNextFlexio_of_init hchannels hmode hdaq]
      exact isSome_executeFlexio hchannels (hvalid (isValid_of_init hchannels hdaq))

/-- The reported duration of a run that has been in OP is cut twice. -/
theorem executeFlexio_time {outcome : FlexioOutcome}
    (h : executeFlexio run surroundings control dev = some outcome) :
    outcome.actualOpTime =
        some (FlexIOControl.getActualOpTime surroundings.cntr1 surroundings.cntr2) ∧
      outcome.stateChange.t = ((FlexIOControl.getActualOpTime surroundings.cntr1
        surroundings.cntr2).setWidth 32).setWidth 64 := by
  simp only [executeFlexio, Option.bind_eq_bind, Option.bind_eq_some_iff] at h
  obtain ⟨acquired, -, streamed, -, finalized, -, h⟩ := h
  rw [← Option.some.inj h]
  exact ⟨rfl, rfl⟩

theorem runNextFlexio_time {outcome : FlexioOutcome}
    (h : runNextFlexio run surroundings control dev = some outcome)
    (hop : outcome.actualOpTime.isSome = true) :
    outcome.stateChange.t = ((FlexIOControl.getActualOpTime surroundings.cntr1
      surroundings.cntr2).setWidth 32).setWidth 64 := by
  simp only [runNextFlexio, Option.bind_eq_bind, Option.bind_eq_some_iff] at h
  obtain ⟨_, -, mode, -, h⟩ := h
  split at h
  · rw [← Option.some.inj h] at hop
    exact absurd hop Bool.false_ne_true
  · rw [Option.bind_eq_some_iff] at h
    obtain ⟨daq, -, h⟩ := h
    split at h
    · rw [← Option.some.inj h] at hop
      exact absurd hop Bool.false_ne_true
    · exact (executeFlexio_time h).2

end Run

section Configurations

variable {config : DAQConfig}

/-- What the validation is there for: the number of channels, the rate and the compare value are
those the hardware can do, and no run with this configuration meets an undefined operation. -/
structure DaqSound (config : DAQConfig) : Prop where
  channels : config.isValid = true → config.numChannels.toNat ∈ [1, 2, 4, 8]
  rate : config.isValid = true → config.sampleRate.toNat * config.numChannels.toNat ≤ 1000000
  compare : config.isValid = true → ∃ x, sampleCompare config = some x ∧ x.toNat ≤ 65535
  defined : ∀ run surroundings control dev, run.daqConfig = config →
    surroundings.modeFlexio.computeClockRate = 480000000 →
      (runNextFlexio run surroundings control dev).isSome = true

theorem isValid_iff : config.isValid = true ↔
    config.sampleRate.toNat * config.numChannels.toNat % 2 ^ 32 ≤ 1000000 ∧
      32 ≤ config.sampleRate.toNat ∧
      (config.numChannels = 0 ∨ config.numChannels &&& (config.numChannels - 1) = 0) := by
  have hproduct : (config.sampleRate * config.numChannels.setWidth 32).toNat =
      config.sampleRate.toNat * config.numChannels.toNat % 2 ^ 32 := by
    rw [BitVec.toNat_mul]
    exact congrArg (fun n => config.sampleRate.toNat * n % 2 ^ 32) (toNat_numChannels32 config)
  have hzero : config.numChannels = 0 ↔ config.numChannels.toNat = 0 := BitVec.toNat_inj.symm
  rw [DAQConfig.isValid, hproduct, hzero]
  split
  · simp only [Bool.false_eq_true, false_iff]
    omega
  · next hproduct =>
    split
    · next hmany =>
      refine iff_of_false Bool.false_ne_true ?_
      rintro ⟨-, -, hnone | hpow⟩
      · omega
      · exact hmany.2 hpow
    · next hmany =>
      refine iff_of_true rfl ⟨by omega, by omega, ?_⟩
      by_contra hnot
      exact hmany ⟨by omega, fun hpow => hnot (.inr hpow)⟩

theorem powerOfTwo_le_eight {channels : BitVec 8} (hne : channels ≠ 0)
    (hpow : channels &&& (channels - 1) = 0) (hle : channels.toNat ≤ 8) :
    channels.toNat ∈ [1, 2, 4, 8] := by
  revert channels
  decide +kernel

theorem toNat_sampleCompare (hmin : 32 ≤ config.sampleRate.toNat)
    (hmax : config.sampleRate.toNat ≤ 1000000) :
    (1000000 / config.sampleRate * 2 - 1).toNat ≤ 65535 := by
  have hdiv : (1000000 / config.sampleRate).toNat = 1000000 / config.sampleRate.toNat :=
    BitVec.toNat_udiv
  have hle : 1000000 / config.sampleRate.toNat ≤ 1000000 / 32 :=
    Nat.div_le_div_left hmin (by decide)
  have hpos : 0 < 1000000 / config.sampleRate.toNat := Nat.div_pos hmax (by omega)
  have hmul : (1000000 / config.sampleRate * 2).toNat = 1000000 / config.sampleRate.toNat * 2 := by
    rw [BitVec.toNat_mul, hdiv]
    exact Nat.mod_eq_of_lt (by simp; omega)
  have hone : (1 : BitVec 32) ≤ 1000000 / config.sampleRate * 2 := by
    rw [BitVec.le_def, hmul]
    simp
    omega
  rw [BitVec.toNat_sub_of_le hone, hmul]
  omega

/-- A run that never leaves OP by itself, on the pins of the board. -/
def idleSurroundings : FlexioSurroundings where
  modeFlexio := FlexIOControl.board
  daqFlexio := { computeClockRate := 480000000, mapIOPinToFlexPin := id }
  bufferAddress := 0
  dmaErrorAtInit := false
  events := []
  cntr1 := 0
  cntr2 := 0
  dmaErrorAtEnd := false
  shifterr := 0

def sampleRun (config : DAQConfig) : Run :=
  { id := "xxxxxxxx-xxxx-xxxx-xxxx-xxxxxxxxxxxx"
    config := { streaming := true }
    daqConfig := config }

/-- The product wraps, no channel is a valid number of channels, and so are sixteen and more. -/
theorem daqSound_iff (config : DAQConfig) :
    DaqSound config ↔ config.numChannels ≠ 0 ∧ (config.isValid = true →
      config.numChannels.toNat ≤ 8 ∧
        config.sampleRate.toNat * config.numChannels.toNat < 2 ^ 32) := by
  constructor
  · intro h
    have hchannels : config.numChannels ≠ 0 := by
      intro hzero
      have hdefined := h.defined (sampleRun config) idleSurroundings .afterReset .boot rfl rfl
      rw [runNextFlexio_none hzero] at hdefined
      exact Bool.false_ne_true hdefined
    refine ⟨hchannels, ?_⟩
    intro hvalid
    have hmem := h.channels hvalid
    have hrate := h.rate hvalid
    simp only [List.mem_cons, List.not_mem_nil, or_false] at hmem
    omega
  · rintro ⟨hchannels, hbound⟩
    have hfacts : config.isValid = true → config.numChannels.toNat ∈ [1, 2, 4, 8] ∧
        config.sampleRate.toNat * config.numChannels.toNat ≤ 1000000 ∧
        32 ≤ config.sampleRate.toNat := by
      intro hvalid
      obtain ⟨hle, hlt⟩ := hbound hvalid
      obtain ⟨hproduct, hrate, hpow⟩ := isValid_iff.mp hvalid
      rw [Nat.mod_eq_of_lt hlt] at hproduct
      exact ⟨powerOfTwo_le_eight hchannels (hpow.resolve_left hchannels) hle, hproduct, hrate⟩
    have hmax : config.isValid = true → config.numChannels.toNat < 32 :=
      fun hvalid => Nat.lt_of_le_of_lt (hbound hvalid).1 (by decide)
    constructor
    · exact fun hvalid => (hfacts hvalid).1
    · exact fun hvalid => (hfacts hvalid).2.1
    · intro hvalid
      obtain ⟨-, hproduct, hrate⟩ := hfacts hvalid
      have hpos : 0 < config.numChannels.toNat := by
        rw [Nat.pos_iff_ne_zero]
        exact fun hzero => hchannels (BitVec.eq_of_toNat_eq hzero)
      have hle : config.sampleRate.toNat ≤ 1000000 :=
        Nat.le_trans (Nat.le_mul_of_pos_right _ hpos) hproduct
      exact ⟨_, sampleCompare_of_isValid hvalid, toNat_sampleCompare hrate hle⟩
    · rintro run surroundings control dev rfl hclock
      exact isSome_runNextFlexio hchannels hmax hclock

/-- Options of a message are taken over as they are. -/
theorem daqConfigFromJson_sound_iff (json : Json) :
    DaqSound (daqConfigFromJson json) ↔ (daqConfigFromJson json).numChannels ≠ 0 ∧
      ((daqConfigFromJson json).isValid = true →
        (daqConfigFromJson json).numChannels.toNat ≤ 8 ∧
          (daqConfigFromJson json).sampleRate.toNat *
            (daqConfigFromJson json).numChannels.toNat < 2 ^ 32) :=
  daqSound_iff _

/-- No channel, sixteen channels, and two channels at a rate whose double is 64 in 32 bits. -/
theorem not_daqSound_of_messages :
    ¬ DaqSound (daqConfigFromJson (.object [("num_channels", .integer 0)])) ∧
    ¬ DaqSound (daqConfigFromJson
      (.object [("num_channels", .integer 16), ("sample_rate", .integer 1000)])) ∧
    ¬ DaqSound (daqConfigFromJson
      (.object [("num_channels", .integer 2), ("sample_rate", .integer 2147483680)])) := by
  rw [daqSound_iff, daqSound_iff, daqSound_iff]
  decide +kernel

end Configurations

end Lucidac.RunQueue
