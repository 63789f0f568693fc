import Lucidac.Block.CBlock
import Lucidac.Chips.AD5452
import Lucidac.Framework.Program
import Lucidac.Utils.Json

/-!
# Configuring and writing the C block

The reader stores the coefficients one by one, so a rejected element keeps the earlier ones.
Only the product of coefficient and gain correction reaches the DAC of a lane.
-/

namespace Lucidac.CBlock

open Framework

/-- Array form of `_config_elements_form_json`: every coefficient is given. -/
def configElementArray (factors : List Json) : EStateM ConfigError CBlock PUnit := do
  require (factors.length == numCoeff) (.status (.ofString
    s!"Expecting {numCoeff} elements in CBlock"))
  forM factors.zipIdx fun (factor, idx) => do
    require factor.isFloat (.status (.ofString
      s!"CBlock: Cannot convert '{factor.asCString}' to float"))
    attempt (fun s => s.setFactor idx (factor.asFloat fun _ => 0)) (.status (.ofString
      ("CBlock factor " ++ formatFloat (factor.asFloat fun _ => 0) ++ " is out of valid bounds")))

/-- Object form of `_config_elements_form_json`: the keys name the lanes. -/
def configElementObject (parseNumber : String → ℚ) (elements : List (String × Json)) :
    EStateM ConfigError CBlock PUnit :=
  forM elements fun (key, value) => do
    let idx ← readIndex key
    if value.containsKey "factor" then
      attempt (fun s => s.setFactor (idx % 256) ((value.member "factor").asFloat parseNumber))
        (.status (.ofCString "CBlock factor value is not a float or not within range"))
    else if value.isFloat then
      attempt (fun s => s.setFactor (idx % 256) (value.asFloat parseNumber))
        (.status (.ofCString "CBlock factor value is not within range"))
    else throw (.status (.ofCString "CBlock factor value is not a float"))

def configElementsFromJson (parseNumber : String → ℚ) : Json → EStateM ConfigError CBlock PUnit
  | .array factors => configElementArray factors
  | .object elements => configElementObject parseNumber elements
  | _ => throw (.status (.ofCString "CBlock configuration must be an object or array."))

def configSelfFromJson (parseNumber : String → ℚ) (cfg : List (String × Json)) :
    EStateM ConfigError CBlock PUnit :=
  forM cfg fun (key, value) =>
    if key = "elements" then configElementsFromJson parseNumber value
    else throw (.status (.ofCString "CBlock: Unknown configuration key"))

def configSelfToJson (s : CBlock) : List (String × Json) :=
  [("elements", .array (List.ofFn fun lane => .float (s.factors lane)))]

/-- `write_factor`: the word for the DAC of the lane, nothing for a lane that does not exist. -/
def writeFactor (idx : Nat) (value : ℚ) : Option (BitVec 16) :=
  if 32 ≤ idx then none else some (AD5452.floatToRaw value)

/-- `write_factors_to_hardware` for the given lanes: the words sent, and whether all were. -/
def writeFactors (s : CBlock) : List (Fin 32) → Bool × List (BitVec 16)
  | [] => (true, [])
  | lane :: rest =>
    match writeFactor lane (s.factors lane * s.gainCorrections lane) with
    | none => (false, [])
    | some word => ((s.writeFactors rest).1, word :: (s.writeFactors rest).2)

def writeToHardware (s : CBlock) : Status × List (BitVec 16) :=
  let sent := s.writeFactors (List.finRange 32)
  (if sent.1 then .success else .failure, sent.2)

/-! ### Reachable coefficients -/

inductive Command where
  | setFactor (idx : Nat) (factor : ℚ)
  | setGainCorrection (coeffIdx : Nat) (correction : ℚ)
  | reset (action : ResetAction)
  | configSelfFromJson (parseNumber : String → ℚ) (cfg : List (String × Json))

def apply (s : CBlock) : Command → CBlock
  | .setFactor idx factor => (s.setFactor idx factor).2
  | .setGainCorrection coeffIdx correction => (s.setGainCorrection coeffIdx correction).2
  | .reset action => s.reset action
  | .configSelfFromJson parseNumber cfg => finalState (configSelfFromJson parseNumber cfg) s

def runCommands (commands : List Command) : CBlock := commands.foldl apply initial

/-- Every factor and every gain correction is one the setters accept. -/
structure InRange (s : CBlock) : Prop where
  factor : ∀ lane, minFactor ≤ s.factors lane ∧ s.factors lane ≤ maxFactor
  correction : ∀ lane, Acceptable (s.gainCorrections lane)

theorem minFactor_le_one : minFactor ≤ 1 ∧ 1 ≤ maxFactor := by
  rw [minFactor, maxFactor]
  constructor <;> norm_num

theorem acceptable_one : Acceptable 1 := by
  rw [Acceptable]
  constructor <;> norm_num

theorem InRange.setFactor {s : CBlock} (hs : s.InRange) (idx : Nat) (factor : ℚ) :
    (s.setFactor idx factor).2.InRange := by
  cases hset : (s.setFactor idx factor).1 with
  | false =>
    rw [setFactor_failure hset]
    exact hs
  | true =>
    obtain ⟨hidx, hmin, hmax, heq⟩ := setFactor_success hset
    rw [heq]
    refine ⟨fun lane => ?_, hs.correction⟩
    by_cases hlane : lane = ⟨idx, hidx⟩
    · rw [hlane]
      simp only [Function.update_self]
      exact ⟨hmin, hmax⟩
    · simp only [Function.update_of_ne hlane]
      exact hs.factor lane

theorem InRange.setGainCorrection {s : CBlock} (hs : s.InRange) (coeffIdx : Nat)
    (correction : ℚ) : (s.setGainCorrection coeffIdx correction).2.InRange := by
  by_cases hidx : coeffIdx < 32
  · have heq := setGainCorrection_eq s ⟨coeffIdx, hidx⟩ correction
    dsimp only at heq
    rw [heq]
    split
    · rename_i hacceptable
      refine ⟨hs.factor, fun lane => ?_⟩
      by_cases hlane : lane = ⟨coeffIdx, hidx⟩
      · rw [hlane]
        simp only [Function.update_self]
        exact hacceptable
      · simp only [Function.update_of_ne hlane]
        exact hs.correction lane
    · exact hs
  · simp only [CBlock.setGainCorrection]
    rw [dif_neg hidx]
    repeat' split
    all_goals exact hs

theorem InRange.reset {s : CBlock} (hs : s.InRange) (action : ResetAction) :
    (s.reset action).InRange := by
  have hcircuit : (if action.has ResetAction.circuitReset then s.setFactors fun _ => 1
      else s).InRange := by
    split
    · exact ⟨fun _ => minFactor_le_one, hs.correction⟩
    · exact hs
  simp only [CBlock.reset]
  split
  · exact ⟨hcircuit.factor, fun _ => acceptable_one⟩
  · exact hcircuit

theorem keeps_inRange_config (parseNumber : String → ℚ) (cfg : List (String × Json)) :
    Keeps InRange (configSelfFromJson parseNumber cfg) := by
  refine Keeps.forM ?_ _
  intro entry
  obtain ⟨key, value⟩ := entry
  dsimp only
  split
  · cases value with
    | array factors =>
      refine (Keeps.require _ _).bind fun _ => Keeps.forM ?_ _
      intro element
      exact (Keeps.require _ _).bind fun _ => Keeps.attempt (fun s hs => hs.setFactor _ _) _
    | object elements =>
      refine Keeps.forM ?_ _
      intro element
      refine (keeps_readIndex _).bind fun _ => ?_
      split
      · exact Keeps.attempt (fun s hs => hs.setFactor _ _) _
      · split
        · exact Keeps.attempt (fun s hs => hs.setFactor _ _) _
        · exact Keeps.throw _
    | _ => exact Keeps.throw _
  · exact Keeps.throw _

theorem InRange.apply {s : CBlock} (hs : s.InRange) (command : Command) :
    (s.apply command).InRange := by
  cases command with
  | setFactor idx factor => exact hs.setFactor idx factor
  | setGainCorrection coeffIdx correction => exact hs.setGainCorrection coeffIdx correction
  | reset action => exact hs.reset action
  | configSelfFromJson parseNumber cfg => exact keeps_inRange_config parseNumber cfg s hs

theorem runCommands_inRange (commands : List Command) : (runCommands commands).InRange :=
  List.foldlRecOn commands CBlock.apply ⟨fun _ => minFactor_le_one, fun _ => acceptable_one⟩
    fun _ hs command _ => hs.apply command

/-! ### The words on the bus -/

theorem writeFactors_eq (s : CBlock) (lanes : List (Fin 32)) :
    s.writeFactors lanes =
      (true, lanes.map fun lane => AD5452.floatToRaw (s.factors lane * s.gainCorrections lane)) := by
  induction lanes with
  | nil => rfl
  | cons lane rest ih =>
    simp only [writeFactors, writeFactor]
    rw [if_neg (Nat.not_le.mpr lane.isLt), ih]
    rfl

theorem writeToHardware_eq (s : CBlock) :
    s.writeToHardware = (.success, List.ofFn fun lane =>
      AD5452.floatToRaw (s.factors lane * s.gainCorrections lane)) := by
  simp only [writeToHardware]
  rw [writeFactors_eq, List.ofFn_eq_map]
  rfl

/-- The clamp of the DAC cuts at most 0.011 from what the setters allow. -/
theorem InRange.clamp_near {s : CBlock} (hs : s.InRange) (lane : Fin 32) :
    |AD5452.clamp (s.factors lane * s.gainCorrections lane) -
      s.factors lane * s.gainCorrections lane| ≤ 11 / 1000 := by
  obtain ⟨hmin, hmax⟩ := hs.factor lane
  obtain ⟨hlow, hhigh⟩ := hs.correction lane
  rw [minFactor] at hmin
  rw [maxFactor] at hmax
  have habs : |s.factors lane * s.gainCorrections lane| ≤ 1111 / 1000 := by
    rw [abs_mul, abs_of_nonneg (by linarith : 0 ≤ s.gainCorrections lane)]
    have hfactor : |s.factors lane| ≤ 101 / 100 := abs_le.mpr ⟨by linarith, hmax⟩
    calc |s.factors lane| * s.gainCorrections lane
        ≤ 101 / 100 * (11 / 10) := mul_le_mul hfactor hhigh (by linarith) (by norm_num)
      _ = 1111 / 1000 := by norm_num
  obtain ⟨hbelow, habove⟩ := abs_le.mp habs
  rw [AD5452.clamp, AD5452.minFactor, AD5452.maxFactor, abs_le]
  rcases le_total (s.factors lane * s.gainCorrections lane) (11 / 10) with h | h
  · rw [min_eq_left h]
    rcases le_total (-11 / 10) (s.factors lane * s.gainCorrections lane) with h' | h'
    · rw [max_eq_right h']
      constructor <;> linarith
    · rw [max_eq_left h']
      constructor <;> linarith
  · rw [min_eq_right h, max_eq_right (by norm_num)]
    constructor <;> linarith

/-- What the chip of a lane is asked to represent. -/
def output (s : CBlock) (lane : Fin 32) : ℚ := s.factors lane * s.gainCorrections lane

/-- In every reachable state all 32 words are sent, with clear control bits.  Each decodes to
within one step of the product of factor and gain correction, clamped to the range of the DAC;
within ±1.1 that is the product itself, and beyond it the clamp cuts at most 0.011.  The
conversion is monotone. -/
theorem runCommands_written_words (commands : List Command) :
    (runCommands commands).writeToHardware.1.isOk = true ∧
    (runCommands commands).writeToHardware.2.length = 32 ∧
    (∀ lane : Fin 32, ∃ word, (runCommands commands).writeToHardware.2[lane.val]? = some word ∧
      word.getLsbD 14 = false ∧ word.getLsbD 15 = false ∧
      |AD5452.rawToFloat word - AD5452.clamp ((runCommands commands).output lane)| <
        AD5452.codeStep ∧
      (|(runCommands commands).output lane| ≤ AD5452.maxFactor →
        |AD5452.rawToFloat word - (runCommands commands).output lane| < AD5452.codeStep) ∧
      |AD5452.rawToFloat word - (runCommands commands).output lane| <
        AD5452.codeStep + 11 / 1000) ∧
    (∀ x y : ℚ, x ≤ y → (AD5452.floatToRaw x).toNat ≤ (AD5452.floatToRaw y).toNat) := by
  rw [writeToHardware_eq]
  refine ⟨rfl, List.length_ofFn, fun lane => ?_, fun _ _ => AD5452.floatToRaw_mono⟩
  have hnear := AD5452.rawToFloat_floatToRaw ((runCommands commands).output lane)
  have hcut := (runCommands_inRange commands).clamp_near lane
  refine ⟨AD5452.floatToRaw ((runCommands commands).output lane), ?_,
    AD5452.floatToRaw_controlBits _ 14 (by decide), AD5452.floatToRaw_controlBits _ 15 (by decide),
    hnear, ?_, ?_⟩
  · rw [List.getElem?_ofFn, dif_pos lane.isLt]
    rfl
  · intro hrange
    obtain ⟨hmin, hmax⟩ := abs_le.mp hrange
    have hid : AD5452.clamp ((runCommands commands).output lane) =
        (runCommands commands).output lane := by
      refine AD5452.clamp_of_range ?_ hmax
      rw [AD5452.maxFactor] at hmin
      rw [AD5452.minFactor]
      linarith
    rw [hid] at hnear
    exact hnear
  · exact (abs_sub_le _ _ _).trans_lt (add_lt_add_of_lt_of_le hnear hcut)

/-- A lane whose product is in the range of the DAC, one whose product is beyond it, and one that
is configured through JSON after a refused factor. -/
theorem runCommands_written_words_three_lanes :
    (∃ word, (runCommands [.setFactor 3 (-1 / 2), .setGainCorrection 3 (33 / 32),
          .reset ⟨ResetAction.overloadReset⟩, .setFactor 3 2]).writeToHardware.2[3]? = some word ∧
        word.getLsbD 14 = false ∧ word.getLsbD 15 = false ∧
        |AD5452.rawToFloat word - -33 / 64| < AD5452.codeStep) ∧
      (∃ word, (runCommands [.setFactor 5 (-129 / 128),
          .setGainCorrection 5 (35 / 32)]).writeToHardware.2[5]? = some word ∧
        |AD5452.rawToFloat word - -11 / 10| < AD5452.codeStep) ∧
      (∃ word, (runCommands [.setFactor 31 (3 / 2), .configSelfFromJson (fun _ => 0)
          [("elements", .object [("31", .float (3 / 4))])]]).writeToHardware.2[31]? = some word ∧
        |AD5452.rawToFloat word - 3 / 4| < AD5452.codeStep) := by
  obtain ⟨-, -, hkept, -⟩ := runCommands_written_words [.setFactor 3 (-1 / 2),
    .setGainCorrection 3 (33 / 32), .reset ⟨ResetAction.overloadReset⟩, .setFactor 3 2]
  obtain ⟨word, hword, hlow, hhigh, -, hnear, -⟩ := hkept 3
  obtain ⟨-, -, hbeyond, -⟩ := runCommands_written_words [.setFactor 5 (-129 / 128),
    .setGainCorrection 5 (35 / 32)]
  obtain ⟨word', hword', -, -, hclamped, -⟩ := hbeyond 5
  obtain ⟨-, -, hconfig, -⟩ := runCommands_written_words [.setFactor 31 (3 / 2),
    .configSelfFromJson (fun _ => 0) [("elements", .object [("31", .float (3 / 4))])]]
  obtain ⟨word'', hword'', -, -, -, hconfigured, -⟩ := hconfig 31
  refine ⟨⟨word, hword, hlow, hhigh, ?_⟩, ⟨word', hword', ?_⟩, ⟨word'', hword'', ?_⟩⟩
  · have houtput : (runCommands [.setFactor 3 (-1 / 2), .setGainCorrection 3 (33 / 32),
        .reset ⟨ResetAction.overloadReset⟩, .setFactor 3 2]).output 3 = -33 / 64 := by decide +kernel
    rw [houtput] at hnear
    exact hnear (by decide +kernel)
  · have houtput : AD5452.clamp ((runCommands [.setFactor 5 (-129 / 128),
        .setGainCorrection 5 (35 / 32)]).output 5) = -11 / 10 := by decide +kernel
    rw [houtput] at hclamped
    exact hclamped
  · have houtput : (runCommands [.setFactor 31 (3 / 2), .configSelfFromJson (fun _ => 0)
        [("elements", .object [("31", .float (3 / 4))])]]).output 31 = 3 / 4 := by decide +kernel
    rw [houtput] at hconfigured
    exact hconfigured (by decide +kernel)

/-- A factor of 129/128 with a gain correction of 35/32 saturates: the word decodes to 8191/7447,
more than one step below the product 4515/4096. -/
theorem saturated_word_misses_product :
    (runCommands [.setFactor 0 (129 / 128), .setGainCorrection 0 (35 / 32)]).writeToHardware.2[0]? =
        some 16383 ∧
      AD5452.codeStep < |AD5452.rawToFloat 16383 -
        (runCommands [.setFactor 0 (129 / 128), .setGainCorrection 0 (35 / 32)]).factors 0 *
        (runCommands [.setFactor 0 (129 / 128), .setGainCorrection 0 (35 / 32)]).gainCorrections 0| := by
  decide +kernel

end Lucidac.CBlock
