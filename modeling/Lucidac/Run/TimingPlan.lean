import Lucidac.Run.RunManager

/-!
# The timing plan of a run without streaming

`run_next_traditional` fills one buffer in a busy loop.  Before it starts it divides the time in OP
into equal sampling periods, from the measured duration of one acquisition.
-/

namespace Lucidac.RunQueue

def maxNumSamples : BitVec 32 := 16384

structure TimingPlan where
  samplingTimeUs : BitVec 32
  samplingSleepUs : BitVec 32
  numSamples : BitVec 32
  optimeLeftUs : BitVec 32
  numBufferEntries : BitVec 32
deriving DecidableEq

/-- The plan for a run; `measured` is the duration of the trial acquisition in microseconds, which
is made only when data are asked for. -/
def timingPlan (run : Run) (measured : BitVec 32) : TimingPlan :=
  let numChannels := run.daqConfig.numChannels.setWidth 32
  let optimeUs := (run.config.opTime / 1000).setWidth 32
  let samplingTimeUs := if numChannels ≠ 0 then measured else 0
  let samplingTotalUs := optimeUs / maxNumSamples
  let samplingSleepUs := if samplingTotalUs < samplingTimeUs then 0
    else samplingTotalUs - samplingTimeUs
  let numSamples := optimeUs / (samplingSleepUs + samplingTimeUs)
  let optimeLeftUs := optimeUs % (samplingSleepUs + samplingTimeUs)
  -- "This situation actually should not happen at all."
  let numSamples := if maxNumSamples < numSamples then maxNumSamples else numSamples
  { samplingTimeUs, samplingSleepUs, numSamples, optimeLeftUs
    numBufferEntries := numSamples * numChannels }

namespace TimingPlan

/-- Microseconds in OP after a number of passes of the sampling loop, with the assumption of the
source that one acquisition takes the time that was measured. -/
def samplingLoop (plan : TimingPlan) : Nat → Nat
  | 0 => 0
  | sample + 1 => plan.samplingLoop sample + plan.samplingTimeUs.toNat +
      if plan.samplingSleepUs ≠ 0 then plan.samplingSleepUs.toNat else 0

def timeInOp (plan : TimingPlan) : Nat :=
  plan.samplingLoop plan.numSamples.toNat +
    if plan.optimeLeftUs ≠ 0 then plan.optimeLeftUs.toNat else 0

theorem ite_ne_zero_toNat {w : Nat} (x : BitVec w) :
    (if x ≠ 0 then x.toNat else 0) = x.toNat := by
  by_cases hx : x = 0
  · simp [hx]
  · exact if_pos hx

theorem samplingLoop_eq (plan : TimingPlan) (samples : Nat) :
    plan.samplingLoop samples =
      samples * (plan.samplingSleepUs.toNat + plan.samplingTimeUs.toNat) := by
  induction samples with
  | zero => simp [samplingLoop]
  | succ samples ih =>
    rw [samplingLoop, ih, ite_ne_zero_toNat, Nat.succ_mul]
    omega

theorem timeInOp_eq (plan : TimingPlan) :
    plan.timeInOp = plan.numSamples.toNat *
      (plan.samplingSleepUs.toNat + plan.samplingTimeUs.toNat) + plan.optimeLeftUs.toNat := by
  rw [timeInOp, samplingLoop_eq, ite_ne_zero_toNat]

end TimingPlan

section Arithmetic

variable {optime time : Nat}

/-- Either the acquisition dominates, and the samples fit, or the period is the truncated quotient,
and they fit exactly when the truncation loses less than one period. -/
theorem div_period_le_iff (ht : 1 ≤ time) :
    optime / max (optime / 16384) time ≤ 16384 ↔
      optime / 16384 < time ∨ optime % 16384 < optime / 16384 := by
  by_cases hlt : optime / 16384 < time
  · have hperiod : max (optime / 16384) time = time := by omega
    have hle : optime / time ≤ 16384 := by
      apply Nat.div_le_of_le_mul
      have hsucc : optime / 16384 + 1 ≤ time := hlt
      have := Nat.mul_le_mul_right 16384 hsucc
      omega
    simp [hperiod, hle, hlt]
  · have hperiod : max (optime / 16384) time = optime / 16384 := by omega
    have hpos : 0 < optime / 16384 := by omega
    rw [hperiod, ← Nat.lt_succ_iff, Nat.div_lt_iff_lt_mul hpos]
    have hsplit := Nat.div_add_mod optime 16384
    simp only [hlt, false_or]
    rw [Nat.succ_mul]
    omega

/-- Samples that are cut off are not made up for by the remaining time. -/
theorem min_div_mul_add_mod_eq_iff {period : Nat} (hp : 0 < period) :
    min (optime / period) 16384 * period + optime % period = optime ↔
      optime / period ≤ 16384 := by
  have hsplit := Nat.div_add_mod optime period
  constructor
  · intro h
    by_contra hlt
    have hmin : min (optime / period) 16384 = 16384 := by omega
    rw [hmin] at h
    have hmul := Nat.mul_lt_mul_of_pos_right (Nat.lt_of_not_le hlt) hp
    rw [Nat.mul_comm period] at hsplit
    omega
  · intro h
    rw [Nat.min_eq_left h, Nat.mul_comm]
    exact hsplit

end Arithmetic

section Plan

variable {run : Run} {measured : BitVec 32}

/-- The requested time in OP in whole microseconds. -/
def requestedUs (run : Run) : Nat := run.config.opTime.toNat / 1000

/-- What `optime_us` holds. -/
def optimeUs (run : Run) : Nat := requestedUs run % 2 ^ 32

theorem optimeUs_toNat :
    ((run.config.opTime / 1000).setWidth 32).toNat = optimeUs run := by
  simp [optimeUs, requestedUs]

theorem setWidth_numChannels_ne (hchannels : run.daqConfig.numChannels ≠ 0) :
    run.daqConfig.numChannels.setWidth 32 ≠ 0 := by
  intro h
  apply hchannels
  apply BitVec.eq_of_toNat_eq
  have heq := congrArg BitVec.toNat h
  have hlt := run.daqConfig.numChannels.isLt
  rw [BitVec.toNat_setWidth, Nat.mod_eq_of_lt (by omega)] at heq
  exact heq

theorem timingPlan_samplingTime (hchannels : run.daqConfig.numChannels ≠ 0) :
    (timingPlan run measured).samplingTimeUs = measured :=
  if_pos (setWidth_numChannels_ne hchannels)

/-- The sampling period, which is never too long for 32 bits. -/
theorem timingPlan_period :
    (timingPlan run measured).samplingSleepUs.toNat +
        (timingPlan run measured).samplingTimeUs.toNat =
      max (optimeUs run / 16384) (timingPlan run measured).samplingTimeUs.toNat := by
  generalize hplan : timingPlan run measured = plan
  have hsleep : plan.samplingSleepUs =
      if (run.config.opTime / 1000).setWidth 32 / maxNumSamples < plan.samplingTimeUs then 0
      else (run.config.opTime / 1000).setWidth 32 / maxNumSamples - plan.samplingTimeUs := by
    rw [← hplan]
    rfl
  have htotal : ((run.config.opTime / 1000).setWidth 32 / maxNumSamples).toNat =
      optimeUs run / 16384 := by
    rw [BitVec.toNat_udiv, optimeUs_toNat]
    rfl
  rw [hsleep]
  split
  · next hlt =>
    rw [BitVec.lt_def, htotal] at hlt
    simp only [BitVec.ofNat_eq_ofNat, BitVec.toNat_ofNat, Nat.zero_mod]
    omega
  · next hge =>
    have hle := BitVec.not_lt.mp hge
    rw [BitVec.toNat_sub_of_le hle, htotal]
    rw [BitVec.le_def, htotal] at hle
    omega

theorem timingPlan_period_toNat :
    ((timingPlan run measured).samplingSleepUs + (timingPlan run measured).samplingTimeUs).toNat =
      max (optimeUs run / 16384) (timingPlan run measured).samplingTimeUs.toNat := by
  rw [BitVec.toNat_add, timingPlan_period]
  apply Nat.mod_eq_of_lt
  have htime := (timingPlan run measured).samplingTimeUs.isLt
  have hoptime : optimeUs run < 2 ^ 32 := Nat.mod_lt _ (by decide)
  omega

theorem clamp_toNat (numSamples : BitVec 32) :
    (if maxNumSamples < numSamples then maxNumSamples else numSamples).toNat =
      min numSamples.toNat 16384 := by
  have hmax : maxNumSamples.toNat = 16384 := rfl
  split
  · next hlt =>
    rw [BitVec.lt_def] at hlt
    omega
  · next hge =>
    rw [BitVec.lt_def] at hge
    omega

theorem timingPlan_numSamples :
    (timingPlan run measured).numSamples.toNat =
      min (optimeUs run / max (optimeUs run / 16384)
        (timingPlan run measured).samplingTimeUs.toNat) 16384 := by
  rw [← timingPlan_period_toNat, ← optimeUs_toNat, ← BitVec.toNat_udiv]
  exact clamp_toNat _

theorem timingPlan_optimeLeft :
    (timingPlan run measured).optimeLeftUs.toNat =
      optimeUs run % max (optimeUs run / 16384)
        (timingPlan run measured).samplingTimeUs.toNat := by
  rw [← timingPlan_period_toNat, ← optimeUs_toNat, ← BitVec.toNat_umod]
  rfl

/-- The plan is exact for a time that fits into 32 bits of microseconds and that the clamp does not
cut. -/
theorem timingPlan_exact_iff (run : Run) (measured : BitVec 32)
    (hchannels : run.daqConfig.numChannels ≠ 0) (hmeasured : 1 ≤ measured.toNat) :
    ((timingPlan run measured).numSamples.toNat *
          ((timingPlan run measured).samplingSleepUs.toNat +
            (timingPlan run measured).samplingTimeUs.toNat) +
        (timingPlan run measured).optimeLeftUs.toNat = run.config.opTime.toNat / 1000 ∧
      (timingPlan run measured).numSamples.toNat ≤ 16384) ↔
    run.config.opTime.toNat / 1000 < 2 ^ 32 ∧
      (run.config.opTime.toNat / 1000 / 16384 < measured.toNat ∨
        run.config.opTime.toNat / 1000 % 16384 < run.config.opTime.toNat / 1000 / 16384) := by
  rw [timingPlan_period, timingPlan_numSamples, timingPlan_optimeLeft,
    timingPlan_samplingTime hchannels]
  have hpos : 0 < max (optimeUs run / 16384) measured.toNat := by omega
  change _ = requestedUs run ∧ _ ↔ requestedUs run < 2 ^ 32 ∧ (requestedUs run / 16384 < _ ∨
    requestedUs run % 16384 < requestedUs run / 16384)
  generalize hperiod : max (optimeUs run / 16384) measured.toNat = period at hpos ⊢
  constructor
  · rintro ⟨heq, -⟩
    -- What is planned is at most what `optime_us` holds.
    have hle : min (optimeUs run / period) 16384 * period + optimeUs run % period ≤
        optimeUs run := by
      calc min (optimeUs run / period) 16384 * period + optimeUs run % period
          ≤ optimeUs run / period * period + optimeUs run % period :=
            Nat.add_le_add_right (Nat.mul_le_mul_right _ (Nat.min_le_left _ _)) _
        _ = optimeUs run := by rw [Nat.mul_comm, Nat.div_add_mod]
    have hlt : optimeUs run < 2 ^ 32 := Nat.mod_lt _ (by decide)
    have hfits : requestedUs run < 2 ^ 32 := by omega
    have hsame : optimeUs run = requestedUs run := Nat.mod_eq_of_lt hfits
    rw [hsame] at heq hperiod
    rw [min_div_mul_add_mod_eq_iff hpos, ← hperiod, div_period_le_iff hmeasured] at heq
    exact ⟨hfits, heq⟩
  · rintro ⟨hfits, hcut⟩
    have hsame : optimeUs run = requestedUs run := Nat.mod_eq_of_lt hfits
    rw [hsame] at hperiod ⊢
    rw [← div_period_le_iff hmeasured, hperiod] at hcut
    exact ⟨(min_div_mul_add_mod_eq_iff hpos).mpr hcut, Nat.min_le_right _ _⟩

private def twoChannels (opTime : BitVec 64) : Run :=
  { id := "xxxxxxxx-xxxx-xxxx-xxxx-xxxxxxxxxxxx"
    config := { opTime }
    daqConfig := { numChannels := 2, sampleRate := 400000, sampleOp := true, sampleOpEnd := true } }

theorem timingPlan_exact_of_short_run :
    (timingPlan (twoChannels 100000000) 15).timeInOp = 100000 := by
  rw [TimingPlan.timeInOp_eq]
  exact ((timingPlan_exact_iff (twoChannels 100000000) 15 (by decide) (by decide)).mpr
    (by decide)).1

/-- The default time in OP with the acquisition time the source expects: 16666 periods of 30
microseconds would fit, and 282 of them are cut off. -/
theorem timingPlan_short_of_default :
    ¬ ((timingPlan (twoChannels 500000000) 15).numSamples.toNat *
            ((timingPlan (twoChannels 500000000) 15).samplingSleepUs.toNat +
              (timingPlan (twoChannels 500000000) 15).samplingTimeUs.toNat) +
          (timingPlan (twoChannels 500000000) 15).optimeLeftUs.toNat =
        (twoChannels 500000000).config.opTime.toNat / 1000 ∧
      (timingPlan (twoChannels 500000000) 15).numSamples.toNat ≤ 16384) ∧
    (timingPlan (twoChannels 500000000) 15).timeInOp = 491540 := by
  rw [TimingPlan.timeInOp_eq]
  decide

end Plan

end Lucidac.RunQueue
