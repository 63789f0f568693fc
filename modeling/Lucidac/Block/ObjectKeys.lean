import Lucidac.Block.CBlockConfig
import Lucidac.Block.IBlock
import Lucidac.Block.MBlock
import Lucidac.Block.UBlockConnect
import Lucidac.Framework.Script

/-!
# Keys that name elements

Five readers take objects whose keys are the numbers of elements.  They convert a key to 32 bits
and hand it on as eight bits, and each of them has its own comparison, before or after the
conversion or not at all.
-/

namespace Lucidac

open Framework

/-- A reader of objects.  Each of its passes goes over all members, and a pass only comes to a
member that the pass before it accepted. -/
structure ObjectReader where
  State : Type
  Element : Type
  count : Nat
  element : State → Fin count → Element
  passes : List (String × Json → EStateM ConfigError State PUnit)
  read : List (String × Json) → EStateM ConfigError State PUnit

namespace ObjectReader

variable (reader : ObjectReader)

/-- What the passes do with the member changes none but the allowed elements. -/
def ChangesOnly (allowed : Fin reader.count → Prop) (member : String × Json) :
    List (String × Json → EStateM ConfigError reader.State PUnit) → Prop
  | [] => True
  | pass :: rest =>
    (∀ s i, ¬ allowed i → reader.element (finalState (pass member) s) i = reader.element s i) ∧
      ((∃ s, (outcome (pass member) s).1 = true) → ChangesOnly allowed member rest)

/-- The other keys are numerals that can be read. -/
def Readable (members : List (String × Json)) : Prop :=
  ∀ member ∈ members, ∃ key : Numeral, key.text = member.1 ∧ key.value < 2^32

/-- Every object with the member ends in an error status. -/
def Rejects (member : String × Json) : Prop :=
  ∀ before after s, Readable before → Readable after →
    ∃ status t, reader.read (before ++ member :: after) s = .error (.status status) t

/-- A key beyond the elements is refused and changes nothing, and any other key changes nothing
but its own element. -/
structure KeyRespected (key : Numeral) (value : Json) : Prop where
  beyond : reader.count ≤ key.value → reader.Rejects (key.text, value) ∧
    reader.ChangesOnly (fun _ => False) (key.text, value) reader.passes
  within : key.value < reader.count →
    reader.ChangesOnly (fun i => i.val = key.value) (key.text, value) reader.passes

end ObjectReader

/-! ### The readers -/

/-- First pass of the U block: the output is cleared. -/
def UBlock.clearNamed (member : String × Json) : EStateM ConfigError UBlock PUnit := do
  require (member.2.isUInt8 || member.2.isNull) (.status (.ofString
    s!"UBlock: Given input is not a number '{member.2.asCString}'"))
  let output ← readIndex member.1
  modify fun s => (s.disconnect (output % 256)).2

/-- Second pass of the U block: the output is connected. -/
def UBlock.connectNamed (member : String × Json) : EStateM ConfigError UBlock PUnit := do
  let output ← readIndex member.1
  if member.2.isNull then pure ⟨⟩
  else attempt (fun s => s.connect member.2.asUInt8 (output % 256) false) (.status (.ofString
    s!"UBlock: Could not connect {member.2.asUInt8} -> {output}"))

theorem UBlock.configOutputObject_eq (members : List (String × Json)) :
    configOutputObject members =
      forM members clearNamed >>= fun _ => forM members connectNamed := rfl

def IBlock.configNamed (member : String × Json) : EStateM ConfigError IBlock PUnit := do
  require (isNumber member.1) (.status (.ofString
    s!"IBlock: Expected number but key is '{member.1}'"))
  let output ← readIndex member.1
  attempt (fun s => s.disconnect (output % 256)) (.status (.ofString
    s!"IBlock: Could not disconnect output '{output}', probably out of range"))
  connectFromJson member.2 (output % 256)

theorem IBlock.configOutputObject_eq (members : List (String × Json)) :
    configOutputObject members = forM members configNamed := rfl

def CBlock.configNamed (parseNumber : String → ℚ) (member : String × Json) :
    EStateM ConfigError CBlock PUnit := do
  let idx ← readIndex member.1
  if member.2.containsKey "factor" then
    attempt (fun s => s.setFactor (idx % 256) ((member.2.member "factor").asFloat parseNumber))
      (.status (.ofCString "CBlock factor value is not a float or not within range"))
  else if member.2.isFloat then
    attempt (fun s => s.setFactor (idx % 256) (member.2.asFloat parseNumber))
      (.status (.ofCString "CBlock factor value is not within range"))
  else throw (.status (.ofCString "CBlock factor value is not a float"))

theorem CBlock.configElementObject_eq (parseNumber : String → ℚ) (members : List (String × Json)) :
    configElementObject parseNumber members = forM members (configNamed parseNumber) := rfl

def MIntBlock.configIc (intIdx : Nat) (value : Json) : EStateM ConfigError MIntBlock PUnit :=
  if value.containsKey "ic" then do
    require (value.member "ic").isFloat (.status (.ofString
      s!"MIntBlock: Integrator {intIdx} IC must be float"))
    attempt (fun s => s.setIcValue intIdx ((value.member "ic").asFloat fun _ => 0)) (.status
      (.ofString (s!"MIntBlock: Integrator {intIdx} IC is illegal: " ++ "%f")))
  else pure ⟨⟩

def MIntBlock.configTimeFactor (intIdx : Nat) (value : Json) :
    EStateM ConfigError MIntBlock PUnit :=
  if value.containsKey "k" then do
    require (value.member "k").isUInt32 (.status (.ofString
      s!"MIntBlock: Integrator {intIdx} k must be integer"))
    attempt (fun s => s.setTimeFactor intIdx (value.member "k").asUInt32) (.status
      (.ofString (s!"MIntBlock: Integrator {intIdx} time factor k illegal: " ++ "%d")))
  else pure ⟨⟩

def MIntBlock.configNamed (member : String × Json) : EStateM ConfigError MIntBlock PUnit := do
  require member.2.isObject (.status (.ofCString
    "MIntBlock configuration value needs to be an object"))
  let intIdx ← readIndex member.1
  require (decide (intIdx < numIntegrators)) (.status (.ofString
    s!"MIntBlock: Integrator index {intIdx} >= NUM_INTEGRATORS = {numIntegrators}"))
  configIc intIdx member.2
  configTimeFactor intIdx member.2

theorem MIntBlock.configElementObject_eq (members : List (String × Json)) :
    configElementObject members = forM members configNamed := by
  rw [configElementObject]
  congr 1
  funext member
  obtain ⟨key, value⟩ := member
  simp only [configNamed, configIc]
  by_cases h : value.containsKey "ic" = true
  · simp only [h, if_true, bind_assoc]
    rfl
  · simp only [h, Bool.false_eq_true, if_false, pure_bind]
    rfl

/-- What the configuration says about one integrator. -/
def MIntBlock.configured (s : MIntBlock) (i : Fin 8) : ℚ × Nat := (s.icValues i, s.timeFactors i)

inductive ElementForm where
  | ublockOutputs
  | iblockOutputs
  | iblockUpscaling
  | cblockElements
  | mintElements

def ElementForm.reader (parseNumber : String → ℚ) : ElementForm → ObjectReader
  | .ublockOutputs =>
    { State := UBlock
      Element := Int
      count := 32
      element := UBlock.outputInputMap
      passes := [UBlock.clearNamed, UBlock.connectNamed]
      read := fun members => UBlock.configOutputsFromJson (.object members) }
  | .iblockOutputs =>
    { State := IBlock
      Element := BitVec 32
      count := 16
      element := IBlock.outputs
      passes := [IBlock.configNamed]
      read := fun members => IBlock.configOutputsFromJson (.object members) }
  | .iblockUpscaling =>
    { State := IBlock
      Element := Bool
      count := 32
      element := IBlock.scalingFactors
      passes := [fun member => IBlock.configUpscalingFromJson (.object [member])]
      read := fun members => IBlock.configUpscalingFromJson (.object members) }
  | .cblockElements =>
    { State := CBlock
      Element := ℚ
      count := 32
      element := CBlock.factors
      passes := [CBlock.configNamed parseNumber]
      read := fun members => CBlock.configElementsFromJson parseNumber (.object members) }
  | .mintElements =>
    { State := MIntBlock
      Element := ℚ × Nat
      count := 8
      element := MIntBlock.configured
      passes := [MIntBlock.configNamed]
      read := fun members => MIntBlock.configElementsFromJson (.object members) }

/-- The factor that a member of the C block's elements gives, if the block takes it. -/
def GivesFactor (parseNumber : String → ℚ) (value : Json) : Prop :=
  ∃ factor, CBlock.minFactor ≤ factor ∧ factor ≤ CBlock.maxFactor ∧
    (value.containsKey "factor" = true ∧ factor = (value.member "factor").asFloat parseNumber ∨
      value.containsKey "factor" = false ∧ value.isFloat = true ∧
        factor = value.asFloat parseNumber)

/-- The key names an element, or its value is refused on sight, or its low eight bits are refused
where they are compared. -/
def ElementForm.KeySafe (parseNumber : String → ℚ) : ElementForm → Nat → Json → Prop
  | .ublockOutputs, k, value => k < 32 ∨ value.isUInt8 = false ∧ value.isNull = false ∨
      value.isUInt8 = true ∧ 32 ≤ k % 256 ∧ k < 2^32
  | .iblockOutputs, k, _ => k < 16 ∨ 16 ≤ k % 256 ∧ k < 2^32
  | .iblockUpscaling, k, _ => k < 32
  | .cblockElements, k, value => k < 32 ∨
      k < 2^32 ∧ (32 ≤ k % 256 ∨ ¬ GivesFactor parseNumber value)
  | .mintElements, k, value => k < 2^32 ∨ value.isObject = false

/-! ### Reading a key -/

def IsStatus (e : ConfigError) : Prop := ∃ status, e = .status status

theorem isStatus_status (status : Status) : IsStatus (.status status) := ⟨status, rfl⟩

theorem guarded_readIndex {σ : Type} {key : Numeral} (h : key.value < 2^32) :
    Guarded (fun _ => True) IsStatus (readIndex key.text : EStateM ConfigError σ Nat) := by
  rw [key.readIndex_of_lt h]
  exact .pure _

/-- Whatever a program does with the index, it does with the value of the key. -/
theorem keeps_readIndex_bind {σ β : Type} {P : σ → Prop} (key : Numeral)
    {f : Nat → EStateM ConfigError σ β} (hf : Keeps P (f key.value)) :
    Keeps P (readIndex key.text >>= f) := by
  rw [key.readIndex_text]
  split
  · exact Keeps.throw _
  · exact hf

namespace ObjectReader

variable {reader : ObjectReader} {member : String × Json}

theorem rejects_of_exits (h : ∀ before after, Readable before → Readable after →
    Exits (fun _ => True) IsStatus (reader.read (before ++ member :: after))) :
    reader.Rejects member := by
  intro before after s hbefore hafter
  have hexit := h before after hbefore hafter s trivial
  simp only [wp] at hexit
  cases hr : reader.read (before ++ member :: after) s with
  | ok a t =>
    rw [hr] at hexit
    exact hexit.elim
  | error e t =>
    rw [hr] at hexit
    obtain ⟨status, rfl⟩ := hexit
    exact ⟨status, t, rfl⟩

/-- An object that is accepted, or that ends in an exception, is not rejected. -/
theorem not_rejects_of_wp {before : List (String × Json)} (hbefore : Readable before)
    {s : reader.State} (h : wp (reader.read (before ++ [member])) (fun _ _ => True)
      (fun e _ => e = .exception) s) : ¬ reader.Rejects member := by
  intro hrejects
  obtain ⟨status, t, hr⟩ := hrejects before [] s hbefore (by simp [Readable])
  simp only [wp, hr] at h
  cases h

end ObjectReader

end Lucidac
