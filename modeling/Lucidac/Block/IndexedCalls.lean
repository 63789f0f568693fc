import Lucidac.Block.CBlock
import Lucidac.Block.IBlock
import Lucidac.Framework.Checked
import Lucidac.Utils.FloatValue

/-!
# Calls with an index

The setters and getters of the C block and of the I block check the index they are given before
they use it.  Here every access to an array is checked as well, so that an index which passes a
wrong comparison leaves the call without a result.  Values are floating point values, because a
comparison with what is not a number does not refuse it.
-/

namespace Lucidac

open Framework

/-! ### The C block -/

/-- `factors_` and `gain_corrections_`. -/
structure CoefficientArrays where
  factors : Fin 32 → FloatValue
  gainCorrections : Fin 32 → FloatValue

namespace CoefficientArrays

open CBlock

def initial : CoefficientArrays := ⟨fun _ => .number 1, fun _ => .number 1⟩

def getFactor (s : CoefficientArrays) (idx : Nat) : Option FloatValue :=
  if numCoeff ≤ idx then some (.number 0) else readCell s.factors idx

def setFactor (s : CoefficientArrays) (idx : Nat) (factor : FloatValue) :
    Option (Bool × CoefficientArrays) :=
  if numCoeff ≤ idx then some (false, s)
  else if FloatValue.less (.number maxFactor) factor || factor.less (.number minFactor) then
    some (false, s)
  else do
    let factors ← writeCell s.factors idx factor
    some (true, { s with factors := factors })

/-- Unlike `get_factor`, `get_gain_correction` compares with `>`. -/
def getGainCorrection (s : CoefficientArrays) (idx : Nat) : Option FloatValue :=
  if numCoeff < idx then some (.number (-2)) else readCell s.gainCorrections idx

/-- Unlike `set_factor`, `set_gain_correction` compares with `>`. -/
def setGainCorrection (s : CoefficientArrays) (coeffIdx : Nat) (correction : FloatValue) :
    Option (Bool × CoefficientArrays) :=
  if numCoeff < coeffIdx then some (false, s)
  else if FloatValue.less (.number maxGainCorrectionAbs)
      (FloatValue.abs (FloatValue.sub (.number 1) correction)) then some (false, s)
  else do
    let gainCorrections ← writeCell s.gainCorrections coeffIdx correction
    some (true, { s with gainCorrections := gainCorrections })

def withFactor (s : CoefficientArrays) (lane : Fin 32) (factor : FloatValue) : CoefficientArrays :=
  { s with factors := Function.update s.factors lane factor }

def withGainCorrection (s : CoefficientArrays) (lane : Fin 32) (correction : FloatValue) :
    CoefficientArrays :=
  { s with gainCorrections := Function.update s.gainCorrections lane correction }

/-- Every stored value is a number that the setters mean to allow. -/
structure InRange (s : CoefficientArrays) : Prop where
  factor : ∀ lane, (s.factors lane).Within minFactor maxFactor
  correction : ∀ lane, (s.gainCorrections lane).Within (9 / 10) (11 / 10)

theorem initial_inRange : initial.InRange := by
  refine ⟨fun lane => ?_, fun lane => ?_⟩
  · simp only [initial, FloatValue.within_number, minFactor, maxFactor]
    norm_num
  · simp only [initial, FloatValue.within_number]
    norm_num

/-- The values that pass the comparisons of `set_factor`. -/
def FactorPasses (factor : FloatValue) : Prop := factor.Within minFactor maxFactor ∨ factor = .nan

/-- The values that pass the comparison of `set_gain_correction`. -/
def CorrectionPasses (correction : FloatValue) : Prop :=
  correction.Within (9 / 10) (11 / 10) ∨ correction = .nan

theorem correctionPasses_iff (correction : FloatValue) :
    FloatValue.less (.number maxGainCorrectionAbs)
      (FloatValue.abs (FloatValue.sub (.number 1) correction)) = false ↔
        CorrectionPasses correction := by
  have hlow : (1 : ℚ) - maxGainCorrectionAbs = 9 / 10 := by norm_num [maxGainCorrectionAbs]
  have hhigh : (1 : ℚ) + maxGainCorrectionAbs = 11 / 10 := by norm_num [maxGainCorrectionAbs]
  rw [FloatValue.passes_distance_iff, hlow, hhigh]
  rfl

theorem setFactor_passed (s : CoefficientArrays) {idx : Nat} (h : idx < 32) {factor : FloatValue}
    (hpasses : FactorPasses factor) :
    s.setFactor idx factor = some (true, s.withFactor ⟨idx, h⟩ factor) := by
  have hidx : ¬ numCoeff ≤ idx := Nat.not_le.mpr h
  rw [setFactor, if_neg hidx, (FloatValue.passes_range_iff _ _ _).mpr hpasses,
    writeCell_of_lt _ _ h]
  rfl

theorem setFactor_refused (s : CoefficientArrays) {idx : Nat} {factor : FloatValue}
    (h : ¬ (idx < 32 ∧ FactorPasses factor)) : s.setFactor idx factor = some (false, s) := by
  rw [setFactor]
  split
  · rfl
  · rename_i hidx
    split
    · rfl
    · rename_i hrange
      rw [Bool.not_eq_true] at hrange
      exact absurd ⟨Nat.not_le.mp hidx, (FloatValue.passes_range_iff _ _ _).mp hrange⟩ h

theorem setGainCorrection_passed (s : CoefficientArrays) {coeffIdx : Nat} (h : coeffIdx < 32)
    {correction : FloatValue} (hpasses : CorrectionPasses correction) :
    s.setGainCorrection coeffIdx correction =
      some (true, s.withGainCorrection ⟨coeffIdx, h⟩ correction) := by
  have hidx : ¬ numCoeff < coeffIdx := Nat.not_lt.mpr (Nat.le_of_lt h)
  rw [setGainCorrection, if_neg hidx, (correctionPasses_iff correction).mpr hpasses,
    writeCell_of_lt _ _ h]
  rfl

/-- The word behind the last gain correction. -/
theorem setGainCorrection_outside (s : CoefficientArrays) {correction : FloatValue}
    (hpasses : CorrectionPasses correction) : s.setGainCorrection 32 correction = none := by
  have hidx : ¬ numCoeff < 32 := Nat.lt_irrefl 32
  rw [setGainCorrection, if_neg hidx, (correctionPasses_iff correction).mpr hpasses,
    writeCell_outside _ _ (Nat.le_refl 32)]
  rfl

theorem setGainCorrection_refused (s : CoefficientArrays) {coeffIdx : Nat} {correction : FloatValue}
    (h : ¬ (coeffIdx ≤ 32 ∧ CorrectionPasses correction)) :
    s.setGainCorrection coeffIdx correction = some (false, s) := by
  rw [setGainCorrection]
  split
  · rfl
  · rename_i hidx
    split
    · rfl
    · rename_i hfar
      rw [Bool.not_eq_true, correctionPasses_iff] at hfar
      exact absurd ⟨Nat.not_lt.mp hidx, hfar⟩ h

/-- The arrays of a C block that holds numbers. -/
def ofNumbers (s : CBlock) : CoefficientArrays :=
  ⟨fun lane => .number (s.factors lane), fun lane => .number (s.gainCorrections lane)⟩

theorem ofNumbers_withFactor (s : CBlock) (lane : Fin 32) (factor : ℚ) :
    (ofNumbers s).withFactor lane (.number factor) =
      ofNumbers { s with factors := Function.update s.factors lane factor } := by
  simp only [withFactor, ofNumbers, mk.injEq, and_true]
  funext other
  by_cases h : other = lane
  · simp [h]
  · simp [h]

theorem ofNumbers_withGainCorrection (s : CBlock) (lane : Fin 32) (correction : ℚ) :
    (ofNumbers s).withGainCorrection lane (.number correction) =
      ofNumbers { s with gainCorrections := Function.update s.gainCorrections lane correction } := by
  simp only [withGainCorrection, ofNumbers, mk.injEq, true_and]
  funext other
  by_cases h : other = lane
  · simp [h]
  · simp [h]

/-- On numbers the setter is that of the C block. -/
theorem setFactor_ofNumbers (s : CBlock) (idx : Nat) (factor : ℚ) :
    (ofNumbers s).setFactor idx (.number factor) =
      some ((s.setFactor idx factor).1, ofNumbers (s.setFactor idx factor).2) := by
  rw [CBlock.setFactor]
  by_cases hidx : idx < 32
  · rw [dif_pos hidx]
    by_cases hrange : maxFactor < factor ∨ factor < minFactor
    · rw [if_pos hrange, setFactor_refused]
      rintro ⟨-, hpasses | hnan⟩
      · rw [FloatValue.within_number, ← not_lt, ← not_lt] at hpasses
        exact hrange.elim hpasses.2 hpasses.1
      · cases hnan
    · rw [if_neg hrange]
      rw [not_or, not_lt, not_lt] at hrange
      rw [setFactor_passed _ hidx (Or.inl ⟨factor, rfl, hrange.2, hrange.1⟩), ofNumbers_withFactor]
  · rw [dif_neg hidx, setFactor_refused _ fun h => hidx h.1]

/-- So is the setter of the gain corrections, but for the index it should refuse. -/
theorem setGainCorrection_ofNumbers (s : CBlock) {coeffIdx : Nat} (hidx : coeffIdx ≠ 32)
    (correction : ℚ) :
    (ofNumbers s).setGainCorrection coeffIdx (.number correction) =
      some ((s.setGainCorrection coeffIdx correction).1,
        ofNumbers (s.setGainCorrection coeffIdx correction).2) := by
  have hpasses : CorrectionPasses (.number correction) ↔ CBlock.Acceptable correction := by
    simp [CorrectionPasses, CBlock.Acceptable]
  rcases Nat.lt_or_gt_of_ne hidx with hlt | hgt
  · have heq := s.setGainCorrection_eq ⟨coeffIdx, hlt⟩ correction
    dsimp only at heq
    rw [heq]
    by_cases h : CBlock.Acceptable correction
    · rw [if_pos h, setGainCorrection_passed _ hlt (hpasses.mpr h), ofNumbers_withGainCorrection]
    · rw [if_neg h, setGainCorrection_refused _ fun hn => h (hpasses.mp hn.2)]
  · have hstopped : numCoeff < coeffIdx := hgt
    rw [CBlock.setGainCorrection, if_pos hstopped,
      setGainCorrection_refused _ fun hn => absurd hgt (Nat.not_lt.mpr hn.1)]

end CoefficientArrays

/-! ### The I block -/

namespace IBlock

def isConnectedChecked (s : IBlock) (input output : Nat) : Option Bool :=
  if numOutputs ≤ output ∨ numInputs ≤ input then some false
  else do
    let word ← readCell s.outputs output
    some ((word &&& inputBitmask input) != 0)

/-- The loop of `connect` over the other outputs. -/
def feedsElsewhere (s : IBlock) (input output : Nat) : Option Bool :=
  (List.range numOutputs).anyM fun other =>
    if output = other then some false else s.isConnectedChecked input other

def connectedWord (s : IBlock) (input output : Nat) (exclusive : Bool) : Option (BitVec 32) :=
  if exclusive then some (inputBitmask input)
  else (readCell s.outputs output).map (· ||| inputBitmask input)

def storeConnection (s : IBlock) (input output : Nat) (exclusive : Bool) :
    Option (Bool × IBlock) := do
  let word ← s.connectedWord input output exclusive
  let outputs ← writeCell s.outputs output word
  some (true, { s with outputs := outputs })

def connectChecked (s : IBlock) (input output : Nat) (exclusive allowInputSplitting : Bool) :
    Option (Bool × IBlock) :=
  if numOutputs ≤ output ∨ numInputs ≤ input then some (false, s)
  else if allowInputSplitting then s.storeConnection input output exclusive
  else do
    let elsewhere ← s.feedsElsewhere input output
    if elsewhere then some (false, s) else s.storeConnection input output exclusive

def disconnectInputChecked (s : IBlock) (input output : Nat) : Option (Bool × IBlock) := do
  let connected ← s.isConnectedChecked input output
  if connected then do
    let word ← readCell s.outputs output
    let outputs ← writeCell s.outputs output (word &&& ~~~ inputBitmask input)
    some (true, { s with outputs := outputs })
  else some (false, s)

def disconnectChecked (s : IBlock) (output : Nat) : Option (Bool × IBlock) :=
  if numOutputs ≤ output then some (false, s)
  else do
    let outputs ← writeCell s.outputs output 0
    some (true, { s with outputs := outputs })

def setUpscalingChecked (s : IBlock) (input : Nat) (upscale : Bool) : Option (Bool × IBlock) :=
  if numInputs ≤ input then some (false, s)
  else do
    let scalingFactors ← writeCell s.scalingFactors input upscale
    some (true, { s with scalingFactors := scalingFactors })

/-- `get_upscaling` compares with `>`. -/
def getUpscaling (s : IBlock) (output : Nat) : Option Bool :=
  if numInputs < output then some false else readCell s.scalingFactors output

theorem outside_iff (input output : Nat) :
    numOutputs ≤ output ∨ numInputs ≤ input ↔ ¬ (output < 16 ∧ input < 32) := by
  rw [not_and_or, Nat.not_lt, Nat.not_lt]
  rfl

theorem isConnectedChecked_eq (s : IBlock) (input output : Nat) :
    s.isConnectedChecked input output = some (s.isConnected input output) := by
  rw [isConnectedChecked, isConnected]
  split
  · rename_i hout
    rw [dif_neg ((outside_iff input output).mp hout)]
  · rename_i hin
    have hrange : output < 16 ∧ input < 32 := by
      rwa [outside_iff, not_not] at hin
    rw [dif_pos hrange, readCell_of_lt _ hrange.1]
    rfl

theorem feedsElsewhere_eq (s : IBlock) (input output : Nat) :
    s.feedsElsewhere input output =
      some (decide (∃ other : Fin 16, output ≠ other.val ∧ s.isConnected input other = true)) := by
  rw [feedsElsewhere, anyM_of_forall_eq_some
    (q := fun other => !decide (output = other) && s.isConnected input other)]
  · congr 1
    rw [Bool.eq_iff_iff, List.any_eq_true, decide_eq_true_eq]
    constructor
    · rintro ⟨other, hmem, h⟩
      rw [Bool.and_eq_true, Bool.not_eq_true', decide_eq_false_iff_not] at h
      exact ⟨⟨other, List.mem_range.mp hmem⟩, h⟩
    · rintro ⟨other, hne, h⟩
      refine ⟨other, List.mem_range.mpr other.isLt, ?_⟩
      rw [Bool.and_eq_true, Bool.not_eq_true', decide_eq_false_iff_not]
      exact ⟨hne, h⟩
  · intro other _
    by_cases h : output = other
    · simp [h]
    · simp [h, isConnectedChecked_eq]

theorem storeConnection_eq (s : IBlock) (input : Nat) {output : Nat} (h : output < 16)
    (exclusive : Bool) :
    s.storeConnection input output exclusive = some (true, s.setOutput ⟨output, h⟩
      (if exclusive then inputBitmask input else s.outputs ⟨output, h⟩ ||| inputBitmask input)) := by
  have hword : s.connectedWord input output exclusive =
      some (if exclusive then inputBitmask input
        else s.outputs ⟨output, h⟩ ||| inputBitmask input) := by
    rw [connectedWord, readCell_of_lt _ h]
    cases exclusive <;> rfl
  rw [storeConnection, hword]
  simp only [Option.bind_eq_bind, Option.bind_some]
  rw [writeCell_of_lt _ _ h]
  rfl

theorem connectChecked_eq (s : IBlock) (input output : Nat) (exclusive allowInputSplitting : Bool) :
    s.connectChecked input output exclusive allowInputSplitting =
      some (s.connect input output exclusive allowInputSplitting) := by
  rw [connectChecked, connect]
  split
  · rename_i hout
    rw [dif_neg ((outside_iff input output).mp hout)]
  · rename_i hin
    have hrange : output < 16 ∧ input < 32 := by
      rwa [outside_iff, not_not] at hin
    rw [dif_pos hrange, storeConnection_eq _ _ hrange.1]
    cases allowInputSplitting with
    | true => rfl
    | false =>
      simp only [Bool.false_eq_true, if_false, feedsElsewhere_eq, Option.bind_eq_bind,
        Option.bind_some, Bool.not_false, Bool.true_and]
      split <;> rfl

theorem disconnectInputChecked_eq (s : IBlock) (input output : Nat) :
    s.disconnectInputChecked input output = some (s.disconnectInput input output) := by
  rw [disconnectInputChecked, isConnectedChecked_eq, disconnectInput]
  by_cases h : s.isConnected input output = true
  · have hout : output < 16 := by
      rw [isConnected] at h
      split at h
      · rename_i hrange
        exact hrange.1
      · cases h
    rw [dif_pos ⟨h, hout⟩]
    simp only [Option.bind_eq_bind, Option.bind_some, if_pos h]
    rw [readCell_of_lt _ hout, Option.bind_some, writeCell_of_lt _ _ hout]
    rfl
  · rw [dif_neg fun hn => h hn.1]
    simp only [Option.bind_eq_bind, Option.bind_some, if_neg h]

theorem disconnectChecked_eq (s : IBlock) (output : Nat) :
    s.disconnectChecked output = some (s.disconnect output) := by
  rw [disconnectChecked, disconnect]
  split
  · rename_i hout
    have hge : ¬ output < 16 := Nat.not_lt.mpr hout
    rw [dif_neg hge]
  · rename_i hout
    have hlt : output < 16 := Nat.not_le.mp hout
    rw [dif_pos hlt, writeCell_of_lt _ _ hlt]
    rfl

theorem setUpscalingChecked_eq (s : IBlock) (input : Nat) (upscale : Bool) :
    s.setUpscalingChecked input upscale = some (s.setUpscaling input upscale) := by
  rw [setUpscalingChecked, setUpscaling]
  split
  · rename_i hin
    have hge : ¬ input < 32 := Nat.not_lt.mpr hin
    rw [dif_neg hge]
  · rename_i hin
    have hlt : input < 32 := Nat.not_le.mp hin
    rw [dif_pos hlt, writeCell_of_lt _ _ hlt]
    rfl

end IBlock

/-! ### Sequences of calls -/

structure IndexedBlocks where
  cblock : CoefficientArrays
  iblock : IBlock

inductive Reply where
  | flag (ok : Bool)
  | value (v : FloatValue)

/-- The calls with their arguments; an index is any value of type `uint8_t`. -/
inductive IndexedCall where
  | setFactor (idx : Fin 256) (factor : FloatValue)
  | getFactor (idx : Fin 256)
  | setGainCorrection (coeffIdx : Fin 256) (correction : FloatValue)
  | getGainCorrection (idx : Fin 256)
  | connect (input output : Fin 256) (exclusive allowInputSplitting : Bool)
  | disconnectInput (input output : Fin 256)
  | disconnect (output : Fin 256)
  | setUpscaling (input : Fin 256) (upscale : Bool)
  | getUpscaling (output : Fin 256)

namespace IndexedBlocks

def initial : IndexedBlocks := ⟨.initial, .initial⟩

def withCBlock (s : IndexedBlocks) (result : Bool × CoefficientArrays) : Reply × IndexedBlocks :=
  (.flag result.1, { s with cblock := result.2 })

def withIBlock (s : IndexedBlocks) (result : Bool × IBlock) : Reply × IndexedBlocks :=
  (.flag result.1, { s with iblock := result.2 })

/-- One call; no result where it leaves an array. -/
def call (s : IndexedBlocks) : IndexedCall → Option (Reply × IndexedBlocks)
  | .setFactor idx factor => (s.cblock.setFactor idx factor).map s.withCBlock
  | .getFactor idx => (s.cblock.getFactor idx).map fun v => (.value v, s)
  | .setGainCorrection coeffIdx correction =>
    (s.cblock.setGainCorrection coeffIdx correction).map s.withCBlock
  | .getGainCorrection idx => (s.cblock.getGainCorrection idx).map fun v => (.value v, s)
  | .connect input output exclusive allowInputSplitting =>
    (s.iblock.connectChecked input output exclusive allowInputSplitting).map s.withIBlock
  | .disconnectInput input output => (s.iblock.disconnectInputChecked input output).map s.withIBlock
  | .disconnect output => (s.iblock.disconnectChecked output).map s.withIBlock
  | .setUpscaling input upscale => (s.iblock.setUpscalingChecked input upscale).map s.withIBlock
  | .getUpscaling output => (s.iblock.getUpscaling output).map fun ok => (.flag ok, s)

end IndexedBlocks

namespace IndexedCall

/-- An index is at or beyond the number of elements. -/
def Outside : IndexedCall → Prop
  | .setFactor idx _ => 32 ≤ idx.val
  | .getFactor idx => 32 ≤ idx.val
  | .setGainCorrection coeffIdx _ => 32 ≤ coeffIdx.val
  | .getGainCorrection idx => 32 ≤ idx.val
  | .connect input output _ _ => 32 ≤ input.val ∨ 16 ≤ output.val
  | .disconnectInput input output => 32 ≤ input.val ∨ 16 ≤ output.val
  | .disconnect output => 16 ≤ output.val
  | .setUpscaling input _ => 32 ≤ input.val
  | .getUpscaling output => 32 ≤ output.val

/-- Failure, or the value that the getters have for an index that does not exist. -/
def neutral : IndexedCall → Reply
  | .getFactor _ => .value (.number 0)
  | .getGainCorrection _ => .value (.number (-2))
  | _ => .flag false

/-- The call neither has the first index behind the array where the comparison lets it pass, nor
stores what is not a number. -/
def Harmless : IndexedCall → Prop
  | .setFactor idx factor => ¬ (idx.val < 32 ∧ factor = .nan)
  | .setGainCorrection coeffIdx correction =>
    ¬ (coeffIdx.val < 32 ∧ correction = .nan) ∧
      ¬ (coeffIdx.val = 32 ∧ CoefficientArrays.CorrectionPasses correction)
  | .getGainCorrection idx => idx.val ≠ 32
  | .getUpscaling output => output.val ≠ 32
  | _ => True

end IndexedCall

namespace IndexedBlocks

/-- One call keeps to the arrays and to the ranges, and outside of the arrays it does nothing. -/
def CallSafe (s : IndexedBlocks) (c : IndexedCall) : Prop :=
  ∃ reply t, s.call c = some (reply, t) ∧ (c.Outside → reply = c.neutral ∧ t = s) ∧
    t.cblock.InRange

def RunSafe (s : IndexedBlocks) : List IndexedCall → Prop
  | [] => True
  | c :: rest => s.CallSafe c ∧ ∀ reply t, s.call c = some (reply, t) → t.RunSafe rest

end IndexedBlocks

namespace CoefficientArrays

theorem InRange.withFactor_iff {s : CoefficientArrays} (hs : s.InRange) {lane : Fin 32}
    {factor : FloatValue} :
    (s.withFactor lane factor).InRange ↔ factor.Within CBlock.minFactor CBlock.maxFactor := by
  constructor
  · intro h
    simpa only [withFactor, Function.update_self] using h.factor lane
  · intro h
    refine ⟨fun other => ?_, hs.correction⟩
    by_cases hlane : other = lane
    · subst hlane
      simpa only [withFactor, Function.update_self] using h
    · simpa only [withFactor, Function.update_of_ne hlane] using hs.factor other

theorem InRange.withGainCorrection_iff {s : CoefficientArrays} (hs : s.InRange) {lane : Fin 32}
    {correction : FloatValue} :
    (s.withGainCorrection lane correction).InRange ↔ correction.Within (9 / 10) (11 / 10) := by
  constructor
  · intro h
    simpa only [withGainCorrection, Function.update_self] using h.correction lane
  · intro h
    refine ⟨hs.factor, fun other => ?_⟩
    by_cases hlane : other = lane
    · subst hlane
      simpa only [withGainCorrection, Function.update_self] using h
    · simpa only [withGainCorrection, Function.update_of_ne hlane] using hs.correction other

end CoefficientArrays

namespace IndexedBlocks

theorem callSafe_unchanged {s : IndexedBlocks} (hs : s.cblock.InRange) {c : IndexedCall}
    (reply : Reply) (h : s.call c = some (reply, s)) (hreply : c.Outside → reply = c.neutral) :
    s.CallSafe c :=
  ⟨reply, s, h, fun hout => ⟨hreply hout, rfl⟩, hs⟩

theorem not_callSafe_of_none {s : IndexedBlocks} {c : IndexedCall} (h : s.call c = none) :
    ¬ s.CallSafe c := by
  rintro ⟨reply, t, hcall, -⟩
  rw [h] at hcall
  cases hcall

/-- The I block is not part of the ranges. -/
theorem callSafe_iblock {s : IndexedBlocks} (hs : s.cblock.InRange) {c : IndexedCall}
    (result : Bool × IBlock) (h : s.call c = some (s.withIBlock result))
    (hout : c.Outside → result = (false, s.iblock) ∧ c.neutral = .flag false) : s.CallSafe c := by
  refine ⟨_, _, h, fun houtside => ?_, hs⟩
  obtain ⟨hresult, hneutral⟩ := hout houtside
  rw [hresult, hneutral]
  exact ⟨rfl, rfl⟩

theorem callSafe_setFactor {s : IndexedBlocks} (hs : s.cblock.InRange) (idx : Fin 256)
    (factor : FloatValue) :
    s.CallSafe (.setFactor idx factor) ↔ (IndexedCall.setFactor idx factor).Harmless := by
  by_cases hpasses : idx.val < 32 ∧ CoefficientArrays.FactorPasses factor
  · have hcall : s.call (.setFactor idx factor) =
        some (s.withCBlock (true, s.cblock.withFactor ⟨idx, hpasses.1⟩ factor)) := by
      rw [call, s.cblock.setFactor_passed hpasses.1 hpasses.2]
      rfl
    constructor
    · rintro ⟨reply, t, h, -, hrange⟩ ⟨-, rfl⟩
      rw [hcall] at h
      cases h
      obtain ⟨x, hx, -⟩ := hs.withFactor_iff.mp hrange
      cases hx
    · intro hharmless
      refine ⟨_, _, hcall, fun hout => absurd hpasses.1 (Nat.not_lt.mpr hout), ?_⟩
      refine hs.withFactor_iff.mpr (hpasses.2.resolve_right fun hnan => ?_)
      exact hharmless ⟨hpasses.1, hnan⟩
  · refine iff_of_true (callSafe_unchanged hs (.flag false) ?_ fun _ => rfl) ?_
    · rw [call, s.cblock.setFactor_refused hpasses]
      rfl
    · rintro ⟨hidx, hnan⟩
      exact hpasses ⟨hidx, Or.inr hnan⟩

theorem callSafe_setGainCorrection {s : IndexedBlocks} (hs : s.cblock.InRange) (coeffIdx : Fin 256)
    (correction : FloatValue) : s.CallSafe (.setGainCorrection coeffIdx correction) ↔
      (IndexedCall.setGainCorrection coeffIdx correction).Harmless := by
  by_cases hpasses : coeffIdx.val ≤ 32 ∧ CoefficientArrays.CorrectionPasses correction
  · rcases Nat.lt_or_eq_of_le hpasses.1 with hidx | hidx
    · have hcall : s.call (.setGainCorrection coeffIdx correction) =
          some (s.withCBlock (true, s.cblock.withGainCorrection ⟨coeffIdx, hidx⟩ correction)) := by
        rw [call, s.cblock.setGainCorrection_passed hidx hpasses.2]
        rfl
      constructor
      · rintro ⟨reply, t, h, -, hrange⟩
        rw [hcall] at h
        cases h
        obtain ⟨x, hx, -⟩ := hs.withGainCorrection_iff.mp hrange
        refine ⟨fun hnan => ?_, fun houtside => absurd houtside.1 (Nat.ne_of_lt hidx)⟩
        rw [hx] at hnan
        cases hnan.2
      · intro hharmless
        refine ⟨_, _, hcall, fun hout => absurd hidx (Nat.not_lt.mpr hout), ?_⟩
        refine hs.withGainCorrection_iff.mpr (hpasses.2.resolve_right fun hnan => ?_)
        exact hharmless.1 ⟨hidx, hnan⟩
    · refine iff_of_false (not_callSafe_of_none ?_) fun h => h.2 ⟨hidx, hpasses.2⟩
      rw [call, hidx, s.cblock.setGainCorrection_outside hpasses.2]
      rfl
  · refine iff_of_true (callSafe_unchanged hs (.flag false) ?_ fun _ => rfl) ⟨?_, ?_⟩
    · rw [call, s.cblock.setGainCorrection_refused hpasses]
      rfl
    · rintro ⟨hidx, hnan⟩
      exact hpasses ⟨Nat.le_of_lt hidx, Or.inr hnan⟩
    · rintro ⟨hidx, hcorrection⟩
      exact hpasses ⟨Nat.le_of_eq hidx, hcorrection⟩

theorem callSafe_getFactor {s : IndexedBlocks} (hs : s.cblock.InRange) (idx : Fin 256) :
    s.CallSafe (.getFactor idx) := by
  by_cases hidx : CBlock.numCoeff ≤ idx.val
  · refine callSafe_unchanged hs (.value (.number 0)) ?_ fun _ => rfl
    rw [call, CoefficientArrays.getFactor, if_pos hidx]
    rfl
  · have hlt : idx.val < 32 := Nat.not_le.mp hidx
    refine callSafe_unchanged hs (.value (s.cblock.factors ⟨idx, hlt⟩)) ?_
      fun hout => absurd hout hidx
    rw [call, CoefficientArrays.getFactor, if_neg hidx, readCell_of_lt _ hlt]
    rfl

theorem callSafe_getGainCorrection {s : IndexedBlocks} (hs : s.cblock.InRange) (idx : Fin 256) :
    s.CallSafe (.getGainCorrection idx) ↔ idx.val ≠ 32 := by
  rcases lt_trichotomy idx.val 32 with hidx | hidx | hidx
  · refine iff_of_true (callSafe_unchanged hs (.value (s.cblock.gainCorrections ⟨idx, hidx⟩)) ?_
      fun hout => absurd hidx (Nat.not_lt.mpr hout)) (Nat.ne_of_lt hidx)
    have hpasses : ¬ CBlock.numCoeff < idx.val := Nat.lt_asymm hidx
    rw [call, CoefficientArrays.getGainCorrection, if_neg hpasses, readCell_of_lt _ hidx]
    rfl
  · refine iff_of_false (not_callSafe_of_none ?_) fun h => h hidx
    have hpasses : ¬ CBlock.numCoeff < 32 := Nat.lt_irrefl 32
    rw [call, CoefficientArrays.getGainCorrection, hidx, if_neg hpasses,
      readCell_outside _ (Nat.le_refl 32)]
    rfl
  · refine iff_of_true (callSafe_unchanged hs (.value (.number (-2))) ?_ fun _ => rfl)
      (Nat.ne_of_gt hidx)
    have hstopped : CBlock.numCoeff < idx.val := hidx
    rw [call, CoefficientArrays.getGainCorrection, if_pos hstopped]
    rfl

theorem callSafe_getUpscaling {s : IndexedBlocks} (hs : s.cblock.InRange) (output : Fin 256) :
    s.CallSafe (.getUpscaling output) ↔ output.val ≠ 32 := by
  rcases lt_trichotomy output.val 32 with hout | hout | hout
  · refine iff_of_true (callSafe_unchanged hs (.flag (s.iblock.scalingFactors ⟨output, hout⟩)) ?_
      fun h => absurd hout (Nat.not_lt.mpr h)) (Nat.ne_of_lt hout)
    have hpasses : ¬ IBlock.numInputs < output.val := Nat.lt_asymm hout
    rw [call, IBlock.getUpscaling, if_neg hpasses, readCell_of_lt _ hout]
    rfl
  · refine iff_of_false (not_callSafe_of_none ?_) fun h => h hout
    have hpasses : ¬ IBlock.numInputs < 32 := Nat.lt_irrefl 32
    rw [call, IBlock.getUpscaling, hout, if_neg hpasses, readCell_outside _ (Nat.le_refl 32)]
    rfl
  · refine iff_of_true (callSafe_unchanged hs (.flag false) ?_ fun _ => rfl) (Nat.ne_of_gt hout)
    have hstopped : IBlock.numInputs < output.val := hout
    rw [call, IBlock.getUpscaling, if_pos hstopped]
    rfl

theorem callSafe_iff {s : IndexedBlocks} (hs : s.cblock.InRange) (c : IndexedCall) :
    s.CallSafe c ↔ c.Harmless := by
  cases c with
  | setFactor idx factor => exact callSafe_setFactor hs idx factor
  | getFactor idx => exact iff_of_true (callSafe_getFactor hs idx) trivial
  | setGainCorrection coeffIdx correction => exact callSafe_setGainCorrection hs coeffIdx correction
  | getGainCorrection idx => exact callSafe_getGainCorrection hs idx
  | connect input output exclusive allowInputSplitting =>
    refine iff_of_true (callSafe_iblock hs (s.iblock.connect input output exclusive allowInputSplitting) ?_
      fun hout => ⟨?_, rfl⟩) trivial
    · rw [call, IBlock.connectChecked_eq]
      rfl
    · rw [IBlock.connect, dif_neg (by change 32 ≤ _ ∨ 16 ≤ _ at hout; omega)]
  | disconnectInput input output =>
    refine iff_of_true (callSafe_iblock hs (s.iblock.disconnectInput input output) ?_
      fun hout => ⟨?_, rfl⟩) trivial
    · rw [call, IBlock.disconnectInputChecked_eq]
      rfl
    · have hconnected : s.iblock.isConnected input output = false := by
        rw [IBlock.isConnected, dif_neg (by change 32 ≤ _ ∨ 16 ≤ _ at hout; omega)]
      rw [IBlock.disconnectInput, dif_neg (by rw [hconnected]; simp)]
  | disconnect output =>
    refine iff_of_true (callSafe_iblock hs (s.iblock.disconnect output) ?_
      fun hout => ⟨?_, rfl⟩) trivial
    · rw [call, IBlock.disconnectChecked_eq]
      rfl
    · rw [IBlock.disconnect, dif_neg (Nat.not_lt.mpr hout)]
  | setUpscaling input upscale =>
    refine iff_of_true (callSafe_iblock hs (s.iblock.setUpscaling input upscale) ?_
      fun hout => ⟨?_, rfl⟩) trivial
    · rw [call, IBlock.setUpscalingChecked_eq]
      rfl
    · rw [IBlock.setUpscaling, dif_neg (Nat.not_lt.mpr hout)]
  | getUpscaling output => exact callSafe_getUpscaling hs output

theorem runSafe_iff_of_inRange (calls : List IndexedCall) {s : IndexedBlocks}
    (hs : s.cblock.InRange) : s.RunSafe calls ↔ ∀ c ∈ calls, c.Harmless := by
  induction calls generalizing s with
  | nil => simp [RunSafe]
  | cons c rest ih =>
    rw [RunSafe, callSafe_iff hs, List.forall_mem_cons]
    refine and_congr_right fun hharmless => ?_
    obtain ⟨reply, t, hcall, -, hrange⟩ := (callSafe_iff hs c).mpr hharmless
    rw [← ih hrange]
    constructor
    · intro h
      exact h reply t hcall
    · intro h reply' t' hcall'
      rw [hcall] at hcall'
      cases hcall'
      exact h

/-- A run of calls from the initial blocks stays in the arrays and the ranges exactly if every
call is harmless. -/
theorem runSafe_initial_iff (calls : List IndexedCall) :
    initial.RunSafe calls ↔ ∀ c ∈ calls, c.Harmless :=
  runSafe_iff_of_inRange calls CoefficientArrays.initial_inRange

/-- The three comparisons that let index 32 pass. -/
theorem call_behind_the_arrays :
    initial.call (.setGainCorrection 32 (.number 1)) = none ∧
      initial.call (.getGainCorrection 32) = none ∧ initial.call (.getUpscaling 32) = none := by
  decide +kernel

end IndexedBlocks

end Lucidac
