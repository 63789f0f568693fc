import Lucidac.Run.FlexioRun

/-!
# The times that clients are told

The change of state at the end of a run carries the time it spent in OP.  On its way there it passes
through words of 32 bits.
-/

namespace Lucidac.RunQueue

open FlexIOControl (getActualOpTime opTimeHundredths getActualOpTime_exact_iff truncated_exact_iff)

/-- The measured time is reported exactly up to 21 milliseconds with streaming and up to four seconds
without. -/
theorem reported_times_exact_iff (cntr1 cntr2 : BitVec 16) (run : Run)
    (flexio : FlexioSurroundings) (control : FlexIOControl) (dev : Daq.Device)
    (surroundings : Surroundings) :
    ((getActualOpTime cntr1 cntr2).toNat = opTimeHundredths cntr1 cntr2 / 100 ↔
      opTimeHundredths cntr1 cntr2 < 2 ^ 31) ∧
    (∀ outcome, runNextFlexio run flexio control dev = some outcome →
      outcome.actualOpTime.isSome = true →
        (outcome.stateChange.t.toNat = opTimeHundredths flexio.cntr1 flexio.cntr2 / 100 ↔
          opTimeHundredths flexio.cntr1 flexio.cntr2 < 2 ^ 31 ∨
            100 ∣ opTimeHundredths flexio.cntr1 flexio.cntr2 ∧
              100 * 2 ^ 32 ≤ opTimeHundredths flexio.cntr1 flexio.cntr2 + 2 ^ 31 ∧
              opTimeHundredths flexio.cntr1 flexio.cntr2 + 100 ≤ 100 * 2 ^ 32)) ∧
    (∀ outcome change, runNextTraditional run surroundings = some outcome →
      outcome.stateChange = some change →
        (change.t.toNat = surroundings.actualOpTimeUs.toNat * 1000 ↔
          surroundings.actualOpTimeUs.toNat * 1000 < 2 ^ 32)) := by
  refine ⟨getActualOpTime_exact_iff, ?_, ?_⟩
  · intro outcome h hop
    rw [runNextFlexio_time h hop, BitVec.toNat_setWidth_of_le (by decide)]
    exact truncated_exact_iff
  · intro outcome change h hchange
    have hproduct : (surroundings.actualOpTimeUs * 1000).toNat =
        surroundings.actualOpTimeUs.toNat * 1000 % 2 ^ 32 := BitVec.toNat_mul _ _
    rw [stateChange_time h hchange, BitVec.toNat_setWidth_of_le (by decide), hproduct]
    omega

section Runs

def eightChannels (opTime : BitVec 64) (streaming : Bool) : Run :=
  { id := "xxxxxxxx-xxxx-xxxx-xxxx-xxxxxxxxxxxx"
    config := { opTime, streaming }
    daqConfig := { numChannels := 8, sampleRate := 1000, sampleOp := true, sampleOpEnd := true } }

def countersAt (cntr1 cntr2 : BitVec 16) : FlexioSurroundings :=
  { idleSurroundings with cntr1, cntr2 }

/-- Half a second in OP, whatever the counters say about it. -/
theorem exists_streaming_outcome (cntr1 cntr2 : BitVec 16) :
    ∃ outcome, runNextFlexio (eightChannels 500000000 true) (countersAt cntr1 cntr2) .afterReset
        .boot = some outcome ∧ outcome.actualOpTime.isSome = true := by
  have hchannels : (eightChannels 500000000 true).daqConfig.numChannels ≠ 0 := by decide
  obtain ⟨control, hmode⟩ := FlexIOControl.exists_init_of_fits (c := .afterReset)
    (show 100 ≤ (500000000 : BitVec 64).toNat ∧ (500000000 : BitVec 64).toNat ≤ 9000000000 by decide)
    (show 4320000000 < passes by decide) FlexIOControl.mapped_board rfl
    (show 100 ≤ (100000 : BitVec 64).toNat ∧ (100000 : BitVec 64).toNat < 9000000000 by decide)
    ⟨48000, 1, by decide, by decide, by decide, by decide⟩
    ⟨16000, 15000, by decide, by decide, by decide, by decide⟩ .ignore .ignore .none
  have hdaq : FlexIODAQ.init (countersAt cntr1 cntr2) (eightChannels 500000000 true).daqConfig
      Daq.Device.boot.reset =
        some (true, Daq.Device.boot.reset.init (eightChannels 500000000 true).daqConfig) :=
    init_ready hchannels (by decide)
      (show ∀ pin ∈ daqPins, idleSurroundings.daqFlexio.mapIOPinToFlexPin pin ≠ 0xff by decide)
      (show idleSurroundings.bufferAddress &&& ~~~ (BitVec.allOnes 32 <<< 10) = 0 by decide) rfl
  have hexecute : (executeFlexio (eightChannels 500000000 true) (countersAt cntr1 cntr2) control
      (Daq.Device.boot.reset.init (eightChannels 500000000 true).daqConfig)).isSome = true :=
    isSome_executeFlexio hchannels (by decide)
  obtain ⟨outcome, houtcome⟩ := Option.isSome_iff_exists.mp hexecute
  refine ⟨outcome, ?_, ?_⟩
  · rw [← houtcome]
    exact runNextFlexio_of_init hchannels hmode hdaq
  · rw [(executeFlexio_time houtcome).1]
    rfl

/-- A run without streaming, with the duration that was measured. -/
def lasting (actualOpTimeUs : BitVec 32) : Surroundings where
  trial := fun _ => 0
  samplingTimeUs := 15
  allocates := true
  acquisition := fun _ _ => 0
  actualOpTimeUs := actualOpTimeUs

theorem exists_traditional_outcome (actualOpTimeUs : BitVec 32) :
    ∃ outcome change, runNextTraditional (eightChannels 5000000000 false) (lasting actualOpTimeUs) =
      some outcome ∧ outcome.stateChange = some change := by
  have hperiod : 16384 ≤ optimeUs (eightChannels 5000000000 false) ∨
      (eightChannels 5000000000 false).daqConfig.numChannels ≠ 0 ∧
        (lasting actualOpTimeUs).samplingTimeUs ≠ 0 :=
    .inl (by decide)
  obtain ⟨data, heq, -⟩ := runNextTraditional_some hperiod
  exact ⟨_, _, heq, rfl⟩

theorem reported_times_exact_of_short_runs :
    (getActualOpTime 100 0).toNat = 671 ∧
    (∃ outcome, runNextFlexio (eightChannels 500000000 true) (countersAt 100 0) .afterReset .boot =
      some outcome ∧ outcome.stateChange.t.toNat = 671) ∧
    ∃ outcome change, runNextTraditional (eightChannels 5000000000 false) (lasting 1000) =
      some outcome ∧ outcome.stateChange = some change ∧ change.t.toNat = 1000000 := by
  obtain ⟨outcome, hrun, hop⟩ := exists_streaming_outcome 100 0
  obtain ⟨outcome', change, hrun', hchange⟩ := exists_traditional_outcome 1000
  obtain ⟨hcounters, hstreaming, -⟩ := reported_times_exact_iff 100 0
    (eightChannels 500000000 true) (countersAt 100 0) .afterReset .boot (lasting 1000)
  obtain ⟨-, -, htraditional⟩ := reported_times_exact_iff 100 0
    (eightChannels 5000000000 false) (countersAt 100 0) .afterReset .boot (lasting 1000)
  exact ⟨hcounters.mpr (by decide),
    ⟨outcome, hrun, (hstreaming outcome hrun hop).mpr (.inl (by decide))⟩,
    outcome', change, hrun', hchange, (htraditional outcome' change hrun' hchange).mpr (by decide)⟩

/-- Twenty-two milliseconds in the counters, and five seconds without streaming. -/
theorem reported_times_wrong_of_long_runs :
    (getActualOpTime 0 50).toNat ≠ opTimeHundredths 0 50 / 100 ∧
    (∃ outcome, runNextFlexio (eightChannels 500000000 true) (countersAt 0 50) .afterReset .boot =
      some outcome ∧ outcome.stateChange.t.toNat ≠ opTimeHundredths 0 50 / 100) ∧
    ∃ outcome change, runNextTraditional (eightChannels 5000000000 false) (lasting 5000000) =
      some outcome ∧ outcome.stateChange = some change ∧ change.t.toNat ≠ 5000000 * 1000 := by
  obtain ⟨outcome, hrun, hop⟩ := exists_streaming_outcome 0 50
  obtain ⟨outcome', change, hrun', hchange⟩ := exists_traditional_outcome 5000000
  refine ⟨mt getActualOpTime_exact_iff.mp (by decide), ⟨outcome, hrun, ?_⟩,
    outcome', change, hrun', hchange, ?_⟩
  · rw [runNextFlexio_time hrun hop, BitVec.toNat_setWidth_of_le (by decide)]
    exact mt truncated_exact_iff.mp (by decide)
  · rw [stateChange_time hrun' hchange]
    decide

end Runs

end Lucidac.RunQueue
