import Lucidac.Daq.OneshotDAQ
import Lucidac.Run.TimingPlan

/-!
# Runs without streaming

`run_next_traditional` samples into one buffer, whose rows overlap while they are filled, and hands
the rows to the client when the run has ended.
-/

namespace Lucidac.RunQueue

open Framework (Block divide remainder divide_of_ne_zero remainder_of_ne_zero)

/-- What a run depends on beside its request: the conversions and the two durations it measures,
in microseconds, and whether there is memory for its buffer. -/
structure Surroundings where
  trial : Daq.Conversion
  samplingTimeUs : BitVec 32
  allocates : Bool
  acquisition : Nat → Daq.Conversion
  actualOpTimeUs : BitVec 32

/-- What is sent to the client: the rows of the buffer, with what each cell holds, and the change
of state. -/
structure TraditionalOutcome where
  data : Option (List (List (Option (BitVec 16))))
  stateChange : Option RunStateChange

/-- The plan, with its two divisions by the sampling period. -/
def checkedTimingPlan (run : Run) (measured : BitVec 32) : Option TimingPlan := do
  let plan := timingPlan run measured
  let optimeUs := (run.config.opTime / 1000).setWidth 32
  let _ ← divide optimeUs (plan.samplingSleepUs + plan.samplingTimeUs)
  let _ ← remainder optimeUs (plan.samplingSleepUs + plan.samplingTimeUs)
  return plan

def samplingLoop (acquisition : Nat → Daq.Conversion) (numChannels numSamples : Nat)
    (buffer : Block (BitVec 16)) : Option (Block (BitVec 16)) :=
  (List.range numSamples).foldlM (fun buffer sample =>
    Daq.sampleRaw (acquisition sample) (sample * numChannels) buffer) buffer

/-- The numbers that the handler of the data reads, row by row. -/
def readRows (outerCount innerCount : Nat) (data : Block (BitVec 16)) :
    Option (List (List (Option (BitVec 16)))) :=
  (List.range outerCount).mapM fun outer =>
    (List.range innerCount).mapM fun inner => data.load (outer * innerCount + inner)

/-- The sampling of a run that has got its buffer. -/
def sampledRows (plan : TimingPlan) (numChannels : Nat) (acquisition : Nat → Daq.Conversion) :
    Option (List (List (Option (BitVec 16)))) := do
  let buffer ← samplingLoop acquisition numChannels plan.numSamples.toNat
    (Block.allocate (plan.numBufferEntries.toNat + 8))
  readRows plan.numSamples.toNat numChannels buffer

/-- What the client is sent with these rows, if any.  A run that asks for data and has none is an
error. -/
def sent (run : Run) (surroundings : Surroundings)
    (data : Option (List (List (Option (BitVec 16))))) : TraditionalOutcome :=
  let state := if run.daqConfig.numChannels ≠ 0 ∧ data.isNone then RunState.error else RunState.done
  let result := Run.toState state (surroundings.actualOpTimeUs * 1000)
  { data, stateChange := if run.config.writeRunStateChanges then some result else none }

def runNextTraditional (run : Run) (surroundings : Surroundings) : Option TraditionalOutcome := do
  let numChannels := run.daqConfig.numChannels
  if numChannels ≠ 0 then
    let _ ← Daq.sampleRaw surroundings.trial 0 (Block.allocate 8)
  let plan ← checkedTimingPlan run surroundings.samplingTimeUs
  let data ← if numChannels ≠ 0 ∧ surroundings.allocates then
      (sampledRows plan numChannels.toNat surroundings.acquisition).map some
    else some none
  return sent run surroundings data

section Sampling

variable {acquisition : Nat → Daq.Conversion} {numChannels : Nat} {start buffer : Block (BitVec 16)}

/-- The buffer after some acquisitions.  An acquisition writes eight cells; what lies behind its row
is written again by the next ones, and what a longer row has more is never written. -/
structure Sampled (acquisition : Nat → Daq.Conversion) (numChannels numSamples : Nat)
    (start buffer : Block (BitVec 16)) : Prop where
  size : buffer.size = start.size
  written : ∀ sample channel, sample < numSamples → channel < numChannels → channel < 8 →
    buffer.cell (sample * numChannels + channel) = some ((acquisition sample channel).setWidth 16)
  untouched : ∀ sample channel, 8 ≤ channel → channel < numChannels →
    buffer.cell (sample * numChannels + channel) = start.cell (sample * numChannels + channel)

/-- Of the cells that an acquisition writes, its row has those of its own channels, and earlier rows
have none. -/
theorem row_lt {sample other channel : Nat} (hsample : sample < other)
    (hchannel : channel < numChannels) :
    sample * numChannels + channel < other * numChannels := by
  calc sample * numChannels + channel < (sample + 1) * numChannels := by
        rw [Nat.succ_mul]
        omega
    _ ≤ other * numChannels := Nat.mul_le_mul_right _ hsample

theorem Sampled.overwrite {sample : Nat} (h : Sampled acquisition numChannels sample start buffer) :
    Sampled acquisition numChannels (sample + 1) start (buffer.overwrite (sample * numChannels) 8
      fun pin => (acquisition sample pin).setWidth 16) where
  size := h.size
  written := by
    intro other channel hother hchannel height
    obtain hlt | heq : other < sample ∨ other = sample := by omega
    · have hrow := row_lt hlt hchannel
      rw [Block.cell_overwrite_of_not (by omega)]
      exact h.written other channel hlt hchannel height
    · rw [heq, Block.cell_overwrite_of_lt height]
  untouched := by
    intro other channel height hchannel
    rw [← h.untouched other channel height hchannel]
    apply Block.cell_overwrite_of_not
    obtain hlt | heq | hgt := Nat.lt_trichotomy other sample
    · have hrow := row_lt hlt hchannel
      omega
    · rw [heq]
      omega
    · have hnext : sample * numChannels + numChannels ≤ other * numChannels := by
        rw [← Nat.succ_mul]
        exact Nat.mul_le_mul_right _ hgt
      omega

theorem samplingLoop_sampled {numSamples : Nat}
    (hsize : numSamples * numChannels + 8 ≤ start.size) :
    ∃ buffer, samplingLoop acquisition numChannels numSamples start = some buffer ∧
      Sampled acquisition numChannels numSamples start buffer := by
  unfold samplingLoop
  induction numSamples with
  | zero =>
    exact ⟨start, rfl, rfl, fun _ _ h => absurd h (Nat.not_lt_zero _), fun _ _ _ _ => rfl⟩
  | succ sample ih =>
    rw [Nat.succ_mul] at hsize
    obtain ⟨buffer, heq, hsampled⟩ := ih (by omega)
    have hrow : sample * numChannels + 8 ≤ buffer.size := by
      rw [hsampled.size]
      omega
    refine ⟨_, ?_, hsampled.overwrite⟩
    rw [List.range_succ, List.foldlM_append, heq, Option.bind_eq_bind, Option.bind_some,
      List.foldlM_cons, Daq.sampleRaw_eq _ hrow]
    rfl

theorem readRows_eq {outerCount innerCount : Nat}
    (hsize : outerCount * innerCount ≤ buffer.size) :
    readRows outerCount innerCount buffer =
      some ((List.range outerCount).map fun outer => (List.range innerCount).map fun inner =>
        buffer.cell (outer * innerCount + inner)) := by
  apply Framework.mapM_of_forall_eq_some
  intro outer houter
  apply Framework.mapM_of_forall_eq_some
  intro inner hinner
  have hrow := row_lt (List.mem_range.mp houter) (List.mem_range.mp hinner)
  exact Block.load_of_lt (Nat.lt_of_lt_of_le hrow hsize)

/-- Every number is the one that its channel had in its acquisition. -/
def Faithful (acquisition : Nat → Daq.Conversion)
    (rows : List (List (Option (BitVec 16)))) : Prop :=
  ∀ sample row channel number, rows[sample]? = some row → row[channel]? = some number →
    number = some ((acquisition sample channel).setWidth 16)

theorem faithful_rows_iff {outerCount innerCount : Nat} {cell : Nat → Option (BitVec 16)} :
    Faithful acquisition ((List.range outerCount).map fun outer =>
        (List.range innerCount).map fun inner => cell (outer * innerCount + inner)) ↔
      ∀ sample < outerCount, ∀ channel < innerCount,
        cell (sample * innerCount + channel) =
          some ((acquisition sample channel).setWidth 16) := by
  constructor
  · intro h sample hsample channel hchannel
    apply h sample _ channel
    · rw [List.getElem?_map, List.getElem?_range hsample, Option.map_some]
    · rw [List.getElem?_map, List.getElem?_range hchannel, Option.map_some]
  · intro h sample row channel number hrow hnumber
    rw [List.getElem?_map, Option.map_eq_some_iff] at hrow
    obtain ⟨outer, houter, rfl⟩ := hrow
    rw [List.getElem?_map, Option.map_eq_some_iff] at hnumber
    obtain ⟨inner, hinner, rfl⟩ := hnumber
    obtain ⟨hsample, rfl⟩ := List.getElem?_eq_some_iff.mp houter
    obtain ⟨hchannel, rfl⟩ := List.getElem?_eq_some_iff.mp hinner
    rw [List.length_range] at hsample hchannel
    rw [List.getElem_range, List.getElem_range]
    exact h sample hsample channel hchannel

/-- A row of more than eight numbers ends with memory that was never written. -/
theorem Sampled.faithful_iff {numSamples size : Nat}
    (h : Sampled acquisition numChannels numSamples (Block.allocate size) buffer) :
    Faithful acquisition ((List.range numSamples).map fun outer =>
        (List.range numChannels).map fun inner => buffer.cell (outer * numChannels + inner)) ↔
      numChannels ≤ 8 ∨ numSamples = 0 := by
  rw [faithful_rows_iff]
  constructor
  · intro hall
    by_contra hnot
    have hnumber := hall 0 (by omega) 8 (by omega)
    rw [h.untouched 0 8 (Nat.le_refl 8) (by omega)] at hnumber
    exact absurd hnumber (by simp [Block.allocate])
  · rintro (hle | hzero) sample hsample channel hchannel
    · exact h.written sample channel hsample hchannel (by omega)
    · omega

end Sampling

section Period

variable {run : Run} {measured : BitVec 32}

theorem period_eq_zero_iff :
    (timingPlan run measured).samplingSleepUs + (timingPlan run measured).samplingTimeUs = 0 ↔
      ¬ (16384 ≤ optimeUs run ∨ run.daqConfig.numChannels ≠ 0 ∧ measured ≠ 0) := by
  have hmeasured : measured = 0 ↔ measured.toNat = 0 := BitVec.toNat_inj.symm
  have hzero : (0 : BitVec 32).toNat = 0 := rfl
  rw [← BitVec.toNat_inj, timingPlan_period_toNat, hzero]
  by_cases hchannels : run.daqConfig.numChannels = 0
  · have htime : (timingPlan run measured).samplingTimeUs = 0 := by
      simp [timingPlan, hchannels]
    rw [htime]
    simp [hchannels]
  · rw [timingPlan_samplingTime hchannels, Ne, Ne, hmeasured, and_iff_right hchannels]
    omega

theorem checkedTimingPlan_eq :
    checkedTimingPlan run measured =
      if (timingPlan run measured).samplingSleepUs + (timingPlan run measured).samplingTimeUs = 0
      then none else some (timingPlan run measured) := by
  simp only [checkedTimingPlan]
  split
  · next h =>
    rw [h, Framework.divide_zero]
    rfl
  · next h =>
    rw [divide_of_ne_zero _ h, remainder_of_ne_zero _ h]
    rfl

theorem toNat_numBufferEntries :
    (timingPlan run measured).numBufferEntries.toNat =
      (timingPlan run measured).numSamples.toNat * run.daqConfig.numChannels.toNat := by
  have hsamples : (timingPlan run measured).numSamples.toNat ≤ 16384 := by
    rw [timingPlan_numSamples]
    exact Nat.min_le_right _ _
  have hchannels := run.daqConfig.numChannels.isLt
  have hbound := Nat.mul_le_mul hsamples (Nat.le_of_lt_succ hchannels)
  have hwidth : (run.daqConfig.numChannels.setWidth 32).toNat = run.daqConfig.numChannels.toNat :=
    BitVec.toNat_setWidth_of_le (by decide)
  change ((timingPlan run measured).numSamples * run.daqConfig.numChannels.setWidth 32).toNat = _
  rw [BitVec.toNat_mul, hwidth]
  exact Nat.mod_eq_of_lt (by omega)

theorem numSamples_eq_zero_iff (hchannels : run.daqConfig.numChannels ≠ 0)
    (hperiod : (timingPlan run measured).samplingSleepUs +
      (timingPlan run measured).samplingTimeUs ≠ 0) :
    (timingPlan run measured).numSamples.toNat = 0 ↔ optimeUs run < measured.toNat := by
  have hpos : 0 < max (optimeUs run / 16384) measured.toNat := by
    rw [Ne, ← BitVec.toNat_inj, timingPlan_period_toNat, timingPlan_samplingTime hchannels] at hperiod
    exact Nat.pos_of_ne_zero hperiod
  have hdiv : optimeUs run / max (optimeUs run / 16384) measured.toNat = 0 ↔
      optimeUs run < max (optimeUs run / 16384) measured.toNat :=
    Nat.div_eq_zero_iff_lt hpos
  rw [timingPlan_numSamples, timingPlan_samplingTime hchannels]
  omega

end Period

section Run

variable {run : Run} {surroundings : Surroundings}

theorem sampledRows_eq (run : Run) (acquisition : Nat → Daq.Conversion) (measured : BitVec 32) :
    ∃ rows, sampledRows (timingPlan run measured) run.daqConfig.numChannels.toNat acquisition =
        some rows ∧
      (Faithful acquisition rows ↔ run.daqConfig.numChannels.toNat ≤ 8 ∨
        (timingPlan run measured).numSamples.toNat = 0) := by
  have hsize : (timingPlan run measured).numSamples.toNat * run.daqConfig.numChannels.toNat + 8 ≤
      (Block.allocate ((timingPlan run measured).numBufferEntries.toNat + 8) : Block (BitVec 16)).size := by
    rw [← toNat_numBufferEntries]
    exact Nat.le_refl _
  obtain ⟨buffer, heq, hsampled⟩ := samplingLoop_sampled hsize
  refine ⟨_, ?_, hsampled.faithful_iff⟩
  rw [sampledRows, heq, Option.bind_eq_bind, Option.bind_some, readRows_eq]
  rw [hsampled.size]
  omega

theorem runNextTraditional_eq :
    runNextTraditional run surroundings =
      (checkedTimingPlan run surroundings.samplingTimeUs).bind fun plan =>
        if run.daqConfig.numChannels ≠ 0 ∧ surroundings.allocates then
          (sampledRows plan run.daqConfig.numChannels.toNat surroundings.acquisition).map
            fun rows => sent run surroundings (some rows)
        else some (sent run surroundings none) := by
  have htrial : Daq.sampleRaw surroundings.trial 0 (Block.allocate 8) = some _ :=
    Daq.sampleRaw_eq surroundings.trial (Nat.le_refl 8)
  simp only [runNextTraditional, htrial, Option.bind_eq_bind, Option.bind_some, ite_self]
  congr 1
  funext plan
  split
  · rw [Option.map_eq_bind, Option.map_eq_bind, Option.bind_assoc]
    rfl
  · rfl

/-- The reported duration is the one that was measured, in an `unsigned int` of nanoseconds. -/
theorem stateChange_time {outcome : TraditionalOutcome} {change : RunStateChange}
    (h : runNextTraditional run surroundings = some outcome)
    (hchange : outcome.stateChange = some change) :
    change.t = (surroundings.actualOpTimeUs * 1000).setWidth 64 := by
  have hsent : ∃ data, sent run surroundings data = outcome := by
    rw [runNextTraditional_eq, Option.bind_eq_some_iff] at h
    obtain ⟨plan, -, h⟩ := h
    split at h
    · obtain ⟨rows, -, hrows⟩ := Option.map_eq_some_iff.mp h
      exact ⟨some rows, hrows⟩
    · exact ⟨none, Option.some.inj h⟩
  obtain ⟨data, rfl⟩ := hsent
  simp only [sent] at hchange
  split at hchange
  · rw [← Option.some.inj hchange]
    rfl
  · exact nomatch hchange

/-- With a sampling period the run ends, and its data are those of the converters or have rows that
are too long. -/
theorem runNextTraditional_some (hperiod : 16384 ≤ optimeUs run ∨
    run.daqConfig.numChannels ≠ 0 ∧ surroundings.samplingTimeUs ≠ 0) :
    ∃ data, runNextTraditional run surroundings = some (sent run surroundings data) ∧
      ((∀ rows, data = some rows → Faithful surroundings.acquisition rows) ↔
        run.daqConfig.numChannels.toNat ≤ 8 ∨ surroundings.allocates = false ∨
          optimeUs run < surroundings.samplingTimeUs.toNat) := by
  have hne := mt period_eq_zero_iff.mp (not_not.mpr hperiod)
  obtain ⟨rows, hrows, hfaithful⟩ :=
    sampledRows_eq run surroundings.acquisition surroundings.samplingTimeUs
  rw [runNextTraditional_eq, checkedTimingPlan_eq, if_neg hne, Option.bind_some]
  by_cases hbuffer : run.daqConfig.numChannels ≠ 0 ∧ surroundings.allocates
  · have hall : (∀ rows', some rows = some rows' → Faithful surroundings.acquisition rows') ↔
        Faithful surroundings.acquisition rows := by
      constructor
      · exact fun h => h rows rfl
      · rintro h _ ⟨⟩
        exact h
    rw [if_pos hbuffer, hrows]
    refine ⟨some rows, rfl, ?_⟩
    rw [hall, hfaithful, numSamples_eq_zero_iff hbuffer.1 hne, hbuffer.2]
    simp
  · have hright : run.daqConfig.numChannels.toNat ≤ 8 ∨ surroundings.allocates = false ∨
        optimeUs run < surroundings.samplingTimeUs.toNat := by
      by_cases hchannels : run.daqConfig.numChannels = 0
      · rw [hchannels]
        exact .inl (Nat.zero_le 8)
      · exact .inr (.inl (Bool.not_eq_true _ ▸ fun h => hbuffer ⟨hchannels, h⟩))
    rw [if_neg hbuffer]
    exact ⟨none, rfl, iff_of_true (fun _ h => nomatch h) hright⟩

theorem runNextTraditional_none (hperiod : ¬ (16384 ≤ optimeUs run ∨
    run.daqConfig.numChannels ≠ 0 ∧ surroundings.samplingTimeUs ≠ 0)) :
    runNextTraditional run surroundings = none := by
  rw [runNextTraditional_eq, checkedTimingPlan_eq, if_pos (period_eq_zero_iff.mpr hperiod)]
  rfl

/-- The run ends, without a division by zero or an access outside of the buffer, and what it
reports are conversions. -/
def ReportsConversions (run : Run) (surroundings : Surroundings) : Prop :=
  ∃ outcome, runNextTraditional run surroundings = some outcome ∧
    ∀ rows, outcome.data = some rows → Faithful surroundings.acquisition rows

theorem reportsConversions_iff_of_period (hperiod : 16384 ≤ optimeUs run ∨
    run.daqConfig.numChannels ≠ 0 ∧ surroundings.samplingTimeUs ≠ 0) :
    ReportsConversions run surroundings ↔
      run.daqConfig.numChannels.toNat ≤ 8 ∨ surroundings.allocates = false ∨
        optimeUs run < surroundings.samplingTimeUs.toNat := by
  obtain ⟨data, heq, hfaithful⟩ := runNextTraditional_some hperiod
  rw [← hfaithful]
  constructor
  · rintro ⟨outcome, houtcome, h⟩
    rw [heq] at houtcome
    obtain rfl := Option.some.inj houtcome
    exact h
  · exact fun h => ⟨_, heq, h⟩

theorem not_reportsConversions_of_short (hshort : ¬ (16384 ≤ optimeUs run ∨
    run.daqConfig.numChannels ≠ 0 ∧ surroundings.samplingTimeUs ≠ 0)) :
    ¬ ReportsConversions run surroundings := by
  rintro ⟨outcome, heq, -⟩
  rw [runNextTraditional_none hshort] at heq
  exact nomatch heq

/-- A run without data may be too short to be divided, and a run with more channels than there are
converters reports memory that was never written. -/
theorem reportsConversions_iff (run : Run) (surroundings : Surroundings) :
    ReportsConversions run surroundings ↔
    (16384 ≤ optimeUs run ∨
        run.daqConfig.numChannels ≠ 0 ∧ surroundings.samplingTimeUs ≠ 0) ∧
      (run.daqConfig.numChannels.toNat ≤ 8 ∨ surroundings.allocates = false ∨
        optimeUs run < surroundings.samplingTimeUs.toNat) := by
  by_cases hperiod : 16384 ≤ optimeUs run ∨
      run.daqConfig.numChannels ≠ 0 ∧ surroundings.samplingTimeUs ≠ 0
  · rw [reportsConversions_iff_of_period hperiod, and_iff_right hperiod]
  · exact iff_of_false (not_reportsConversions_of_short hperiod) fun h => hperiod h.1

private def millisecondOf (numChannels : Int) : Json :=
  .object [("id", .string "00000000-0000-0000-0000-000000000000"),
    ("config", .object [("op_time_ms", .integer 1)]),
    ("daq_config", .object [("num_channels", .integer numChannels)])]

private def quiet : Surroundings where
  trial := fun _ => 0
  samplingTimeUs := 15
  allocates := true
  acquisition := fun _ _ => 0
  actualOpTimeUs := 1000

private theorem optimeUs_millisecondOf (numChannels : Int) :
    optimeUs (Run.fromJson (fun _ => 0) (millisecondOf numChannels)) = 1000 := by
  have htime : (RunConfig.fromJson (fun _ => 0) (.object [("op_time_ms", .integer 1)])).opTime =
      1000000 := by
    decide +kernel
  exact congrArg (fun time : BitVec 64 => time.toNat / 1000 % 2 ^ 32) htime

/-- Requests for one millisecond: without data the period is zero, with nine channels the ninth
number is not one of a converter. -/
theorem not_reportsConversions_of_requests :
    (accepts (millisecondOf 0) = true ∧
      (Run.fromJson (fun _ => 0) (millisecondOf 0)).config.streaming = false ∧
      ¬ ReportsConversions (Run.fromJson (fun _ => 0) (millisecondOf 0)) quiet) ∧
    (accepts (millisecondOf 9) = true ∧
      (Run.fromJson (fun _ => 0) (millisecondOf 9)).config.streaming = false ∧
      ¬ ReportsConversions (Run.fromJson (fun _ => 0) (millisecondOf 9)) quiet) := by
  refine ⟨⟨rfl, rfl, ?_⟩, ⟨rfl, rfl, ?_⟩⟩
  · apply not_reportsConversions_of_short
    rw [optimeUs_millisecondOf]
    decide
  · rw [reportsConversions_iff_of_period (.inr ⟨by decide, by decide⟩), optimeUs_millisecondOf]
    decide

end Run

end Lucidac.RunQueue
