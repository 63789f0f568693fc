import Lucidac.Block.UBlockConnect
import Lucidac.Framework.Script

/-!
# The outputs of a U block configuration as a script

An "outputs" entry is a script of steps on the block: outputs are cleared, then connected one by
one.  Two blocks that differ in their B side and their magnitude only run a script alike until a
lane of the B side is connected.
-/

namespace Lucidac.UBlock

open Framework

inductive OutputStep where
  | clear
  | disconnect (output : Nat)
  | connect (input output : Nat)

namespace OutputStep

def run : OutputStep → UBlock → Bool × UBlock
  | .clear, s => (true, s.resetConnections)
  | .disconnect output, s => (true, (s.disconnect output).2)
  | .connect input output, s => s.connect input output false

def onBSide : OutputStep → Bool
  | .connect input output => bSideLane input output
  | _ => false

def isConnect : OutputStep → Bool
  | .connect _ _ => true
  | _ => false

theorem run_refused (a : OutputStep) (s : UBlock) (h : (a.run s).1 = false) : (a.run s).2 = s := by
  cases a with
  | clear => cases h
  | disconnect output => cases h
  | connect input output => exact connect_failure h

end OutputStep

/-! ### The script of an entry -/

def elementScript (element : Json × Nat) : Script OutputStep :=
  if element.1.isNull then .done
  else if element.1.isUInt8 then .single (.connect element.1.asUInt8 element.2)
  else .refused

def arrayScript (outputs : List Json) : Script OutputStep :=
  if outputs.length == numOfOutputs then
    (Script.single .clear).append (.ofList elementScript outputs.zipIdx)
  else .refused

/-- A member in the first pass over an object. -/
def openingScript (keyval : String × Json) : Script OutputStep :=
  if keyval.2.isUInt8 || keyval.2.isNull then
    match stoul keyval.1 with
    | some output => .single (.disconnect (output % 256))
    | none => .refused
  else .refused

/-- A member in the second pass over an object. -/
def connectionScript (keyval : String × Json) : Script OutputStep :=
  match stoul keyval.1 with
  | some output =>
    if keyval.2.isNull then .done
    else .single (.connect keyval.2.asUInt8 (output % 256))
  | none => .refused

def objectScript (outputs : List (String × Json)) : Script OutputStep :=
  (Script.ofList openingScript outputs).append (.ofList connectionScript outputs)

/-- What an "outputs" entry asks for, read off the entry alone. -/
def outputScript : Json → Script OutputStep
  | .array outputs => arrayScript outputs
  | .object outputs => objectScript outputs
  | _ => .refused

section Performs

private theorem performs_step {x : EStateM ConfigError UBlock PUnit} {a : OutputStep}
    (h : ∀ s, outcome x s = a.run s) : Script.Performs OutputStep.run x (.single a) :=
  .single h a.run_refused

private theorem performs_connect (input output : Nat) (e : ConfigError) :
    Script.Performs OutputStep.run (attempt (fun s : UBlock => s.connect input output false) e)
      (.single (.connect input output)) :=
  performs_step fun s => outcome_attempt _ e s

private theorem performs_readIndex {f : Nat → EStateM ConfigError UBlock PUnit}
    {g : Nat → Script OutputStep} (key : String)
    (h : ∀ output, Script.Performs OutputStep.run (f output) (g output)) :
    Script.Performs OutputStep.run (readIndex key >>= f)
      (match stoul key with | some output => g output | none => .refused) := by
  simp only [readIndex]
  cases stoul key with
  | none => exact .throw _
  | some output => exact h output

private theorem performs_array (outputs : List Json) :
    Script.Performs OutputStep.run (configOutputArray outputs) (arrayScript outputs) := by
  apply Script.Performs.require_seq
  apply Script.Performs.seq
  · exact performs_step fun s => outcome_modify _ s
  · apply Script.Performs.forM
    intro element
    exact .ite .pure (.require_seq _ _ (performs_connect _ _ _))

private theorem performs_object (outputs : List (String × Json)) :
    Script.Performs OutputStep.run (configOutputObject outputs) (objectScript outputs) := by
  apply Script.Performs.seq
  · apply Script.Performs.forM
    intro keyval
    apply Script.Performs.require_seq
    apply performs_readIndex
    intro output
    exact performs_step fun s => outcome_modify _ s
  · apply Script.Performs.forM
    intro keyval
    apply performs_readIndex
    intro output
    exact .ite .pure (performs_connect _ _ _)

theorem performs_outputScript (value : Json) :
    Script.Performs OutputStep.run (configOutputsFromJson value) (outputScript value) := by
  cases value with
  | array outputs => exact performs_array outputs
  | object outputs => exact performs_object outputs
  | _ => exact .throw _

end Performs

/-! ### Runs on blocks that differ in the B side -/

/-- Both blocks agree in everything but the B side and the magnitude. -/
structure Matches (u v : UBlock) : Prop where
  outputInputMap : u.outputInputMap = v.outputInputMap
  aSideMode : u.aSideMode = v.aSideMode

namespace OutputStep

theorem run_connect_passes {s : UBlock} {input output : Nat}
    (h : ((connect input output).run s).1 = true) :
    ∃ ho : output < 32, s.ConnectAllowed input ⟨output, ho⟩ false ∧
      ((connect input output).run s).2 =
        s.withLane input ⟨output, ho⟩ (bSideLane input output) .analogInput :=
  connect_success h

theorem run_refMagnitude (a : OutputStep) (s : UBlock) : (a.run s).2.refMagnitude = s.refMagnitude := by
  cases a with
  | clear => rfl
  | disconnect output =>
    simp only [run, UBlock.disconnect]
    split <;> rfl
  | connect input output =>
    cases h : ((connect input output).run s).1 with
    | false => rw [run_refused _ _ h]
    | true =>
      obtain ⟨ho, -, heq⟩ := run_connect_passes h
      rw [heq]
      rfl

theorem run_bSideMode (a : OutputStep) (s : UBlock) (h : (a.run s).1 = true) :
    (a.run s).2.bSideMode = if a.onBSide then .analogInput else s.bSideMode := by
  cases a with
  | clear => rfl
  | disconnect output =>
    simp only [run, UBlock.disconnect, onBSide]
    split <;> rfl
  | connect input output =>
    obtain ⟨ho, -, heq⟩ := run_connect_passes h
    rw [heq]
    rfl

theorem run_matches {u v : UBlock} (a : OutputStep) (h : u.Matches v)
    (hu : (a.run u).1 = true) (hv : (a.run v).1 = true) : (a.run u).2.Matches (a.run v).2 := by
  cases a with
  | clear => exact ⟨rfl, h.aSideMode⟩
  | disconnect output =>
    simp only [run, UBlock.disconnect]
    split
    · exact ⟨congrArg (Function.update · _ _) h.outputInputMap, h.aSideMode⟩
    · exact h
  | connect input output =>
    obtain ⟨ho, -, heq⟩ := run_connect_passes hu
    obtain ⟨_, -, heq'⟩ := run_connect_passes hv
    rw [heq, heq']
    constructor
    · exact congrArg (Function.update · _ _) h.outputInputMap
    · simp only [withLane]
      rw [h.aSideMode]

theorem run_passes {u v : UBlock} (a : OutputStep) (h : u.Matches v)
    (hopen : a.onBSide = true → u.bSideMode ≠ .analogInput → v.bSideMode ≠ .analogInput)
    (hv : (a.run v).1 = true) : (a.run u).1 = true := by
  cases a with
  | clear => rfl
  | disconnect output => rfl
  | connect input output =>
    obtain ⟨ho, ⟨hi, hguards⟩, -⟩ := run_connect_passes hv
    have hallowed : u.ConnectAllowed input ⟨output, ho⟩ false := by
      refine ⟨hi, fun _ => ⟨?_, fun hmode huses => (hguards rfl).2 ?_ ?_⟩⟩
      · rw [h.outputInputMap]
        exact (hguards rfl).1
      · simp only [laneMode] at hmode ⊢
        cases hside : bSideLane input output with
        | true =>
          rw [if_pos hside] at hmode
          exact hopen hside hmode
        | false =>
          rw [hside, h.aSideMode] at hmode
          exact hmode
      · simpa only [UsesInput, h.outputInputMap] using huses
    have heq := connect_eq u input ⟨output, ho⟩ false
    rw [if_pos hallowed] at heq
    exact congrArg Prod.fst heq

end OutputStep

theorem Matches.symm {u v : UBlock} (h : u.Matches v) : v.Matches u :=
  ⟨h.outputInputMap.symm, h.aSideMode.symm⟩

/-- The block after the steps that pass. -/
def finish (steps : List OutputStep) (s : UBlock) : UBlock :=
  Script.after OutputStep.run (Script.passed OutputStep.run steps s) s

/-- A lane of the B side is among the steps that pass. -/
def meetsBSide (steps : List OutputStep) (s : UBlock) : Bool :=
  (Script.passed OutputStep.run steps s).any OutputStep.onBSide

theorem finish_pass {a : OutputStep} {rest : List OutputStep} {s : UBlock}
    (h : (a.run s).1 = true) : finish (a :: rest) s = finish rest (a.run s).2 := by
  simp only [finish, Script.passed]
  rw [if_pos h]
  rfl

theorem finish_refused {a : OutputStep} {rest : List OutputStep} {s : UBlock}
    (h : (a.run s).1 = false) : finish (a :: rest) s = s := by
  simp only [finish, Script.passed]
  rw [if_neg (by rw [h]; decide)]
  rfl

theorem meetsBSide_pass {a : OutputStep} {rest : List OutputStep} {s : UBlock}
    (h : (a.run s).1 = true) :
    meetsBSide (a :: rest) s = (a.onBSide || meetsBSide rest (a.run s).2) := by
  simp only [meetsBSide, Script.passed]
  rw [if_pos h, List.any_cons]

theorem meetsBSide_refused {a : OutputStep} {rest : List OutputStep} {s : UBlock}
    (h : (a.run s).1 = false) : meetsBSide (a :: rest) s = false := by
  simp only [meetsBSide, Script.passed]
  rw [if_neg (by rw [h]; decide)]
  rfl

theorem finish_refMagnitude (steps : List OutputStep) (s : UBlock) :
    (finish steps s).refMagnitude = s.refMagnitude := by
  induction steps generalizing s with
  | nil => rfl
  | cons a rest ih =>
    cases h : (a.run s).1 with
    | false => rw [finish_refused h]
    | true => rw [finish_pass h, ih, a.run_refMagnitude]

theorem finish_bSideMode (steps : List OutputStep) (s : UBlock) :
    (finish steps s).bSideMode = if meetsBSide steps s then .analogInput else s.bSideMode := by
  induction steps generalizing s with
  | nil => rfl
  | cons a rest ih =>
    cases h : (a.run s).1 with
    | false =>
      rw [finish_refused h, meetsBSide_refused h]
      rfl
    | true =>
      rw [finish_pass h, meetsBSide_pass h, ih, a.run_bSideMode s h]
      cases a.onBSide <;> cases meetsBSide rest (a.run s).2 <;> rfl

theorem finish_matches_of_mode_eq (steps : List OutputStep) {u v : UBlock} (h : u.Matches v)
    (hmode : u.bSideMode = v.bSideMode) :
    Script.allPass OutputStep.run steps u = Script.allPass OutputStep.run steps v ∧
      (finish steps u).Matches (finish steps v) := by
  induction steps generalizing u v with
  | nil => exact ⟨rfl, h⟩
  | cons a rest ih =>
    have hsame : (a.run u).1 = (a.run v).1 := by
      rw [Bool.eq_iff_iff]
      constructor
      · exact a.run_passes h.symm fun _ => by rw [hmode]; exact id
      · exact a.run_passes h fun _ => by rw [hmode]; exact id
    simp only [Script.allPass]
    cases hv : (a.run v).1 with
    | false =>
      rw [hsame.trans hv, finish_refused hv, finish_refused (hsame.trans hv)]
      exact ⟨rfl, h⟩
    | true =>
      have hu := hsame.trans hv
      have hnext := ih (a.run_matches h hu hv)
        (by rw [a.run_bSideMode u hu, a.run_bSideMode v hv, hmode])
      rw [hu, finish_pass hu, finish_pass hv, hnext.1]
      exact ⟨rfl, hnext.2⟩

theorem finish_entry_of_connected {steps : List OutputStep} {s : UBlock} {output : Fin 32}
    (hsteps : ∀ a ∈ steps, a.isConnect = true) (hconn : 0 ≤ s.outputInputMap output) :
    (finish steps s).outputInputMap output = s.outputInputMap output := by
  induction steps generalizing s with
  | nil => rfl
  | cons a rest ih =>
    cases h : (a.run s).1 with
    | false => rw [finish_refused h]
    | true =>
      have hkeep : (a.run s).2.outputInputMap output = s.outputInputMap output := by
        cases a with
        | clear => exact absurd (hsteps _ List.mem_cons_self) Bool.false_ne_true
        | disconnect other => exact absurd (hsteps _ List.mem_cons_self) Bool.false_ne_true
        | connect input other =>
          obtain ⟨ho, hallowed, heq⟩ := OutputStep.run_connect_passes h
          have hopen := (hallowed.2 rfl).1
          rw [heq, withLane_other]
          intro he
          rw [he] at hconn
          omega
      rw [finish_pass h, ih (fun a ha => hsteps a (List.mem_cons_of_mem _ ha)) (hkeep ▸ hconn)]
      exact hkeep

/-- Openings come before connections. -/
def Sorted (steps : List OutputStep) : Prop :=
  steps.Pairwise fun a b => a.isConnect = true → b.isConnect = true

/-- Against a block whose B side transmits a reference: both runs pass the same steps, or the
other block passes one more lane of the B side. -/
theorem finish_against_reference (steps : List OutputStep) {u v : UBlock} (h : u.Matches v)
    (hv : v.bSideMode ≠ .analogInput) :
    (Script.allPass OutputStep.run steps u = Script.allPass OutputStep.run steps v ∧
      meetsBSide steps u = meetsBSide steps v ∧ (finish steps u).Matches (finish steps v)) ∨
    (u.bSideMode = .analogInput ∧ Script.allPass OutputStep.run steps v = false ∧
      meetsBSide steps v = false ∧
      (Sorted steps → (finish steps u).outputInputMap ≠ (finish steps v).outputInputMap)) := by
  induction steps generalizing u v with
  | nil => exact Or.inl ⟨rfl, rfl, h⟩
  | cons a rest ih =>
    simp only [Script.allPass]
    cases hpv : (a.run v).1 with
    | true =>
      have hpu : (a.run u).1 = true := a.run_passes h (fun _ _ => hv) hpv
      have hnext := a.run_matches h hpu hpv
      rw [hpu, meetsBSide_pass hpu, meetsBSide_pass hpv, finish_pass hpu, finish_pass hpv]
      simp only [Bool.true_and]
      cases hside : a.onBSide with
      | true =>
        obtain ⟨hpass, hmatches⟩ := finish_matches_of_mode_eq rest hnext
          (by rw [a.run_bSideMode u hpu, a.run_bSideMode v hpv, hside]; rfl)
        exact Or.inl ⟨hpass, rfl, hmatches⟩
      | false =>
        have hmode (s : UBlock) (hp : (a.run s).1 = true) : (a.run s).2.bSideMode = s.bSideMode := by
          rw [a.run_bSideMode s hp, hside]
          rfl
        rcases ih hnext (by rwa [hmode v hpv]) with ⟨hpass, hmeets, hmatches⟩ |
          ⟨hanalog, hpass, hmeets, hmap⟩
        · exact Or.inl ⟨hpass, by rw [hmeets], hmatches⟩
        · refine Or.inr ⟨hmode u hpu ▸ hanalog, hpass, hmeets, fun hsorted => ?_⟩
          exact hmap hsorted.of_cons
    | false =>
      rw [meetsBSide_refused hpv, finish_refused hpv]
      cases hpu : (a.run u).1 with
      | false =>
        rw [meetsBSide_refused hpu, finish_refused hpu]
        exact Or.inl ⟨rfl, rfl, h⟩
      | true =>
        -- `a` passes on `u` only, so it is a lane of the B side, which is open on `u`
        have hanalog : u.bSideMode = .analogInput := by
          by_contra hne
          have := a.run_passes h.symm (fun _ _ => hne) hpu
          rw [hpv] at this
          cases this
        refine Or.inr ⟨hanalog, rfl, rfl, fun hsorted heq => ?_⟩
        cases a with
        | clear => cases hpv
        | disconnect output => cases hpv
        | connect input output =>
          obtain ⟨ho, hallowed, hstep⟩ := OutputStep.run_connect_passes hpu
          have hentry := withLane_entry u input ⟨output, ho⟩ (bSideLane input output) .analogInput
          have hlanes : ∀ b ∈ rest, b.isConnect = true := fun b hb =>
            (List.pairwise_cons.mp hsorted).1 b hb rfl
          have hkept := congrFun heq ⟨output, ho⟩
          have hopen := (hallowed.2 rfl).1
          rw [finish_pass hpu, hstep, finish_entry_of_connected hlanes (by rw [hentry]; omega),
            hentry, ← h.outputInputMap] at hkept
          omega

private theorem sorted_append {openings lanes : List OutputStep}
    (hopenings : ∀ a ∈ openings, a.isConnect = false) (hlanes : ∀ a ∈ lanes, a.isConnect = true) :
    Sorted (openings ++ lanes) := by
  simp only [Sorted]
  rw [List.pairwise_append]
  refine ⟨?_, ?_, fun _ _ b hb _ => hlanes b hb⟩
  · apply List.pairwise_of_forall_mem_list
    intro a ha b _ hconnect
    exact absurd ((hopenings a ha).symm.trans hconnect) Bool.false_ne_true
  · exact List.pairwise_of_forall_mem_list fun _ _ b hb _ => hlanes b hb

private theorem elementScript_isConnect (element : Json × Nat) :
    ∀ a ∈ (elementScript element).steps, a.isConnect = true := by
  intro a ha
  simp only [elementScript] at ha
  split_ifs at ha
  · cases ha
  · rw [List.mem_singleton.mp ha]
    rfl
  · cases ha

private theorem openingScript_isConnect (keyval : String × Json) :
    ∀ a ∈ (openingScript keyval).steps, a.isConnect = false := by
  intro a ha
  simp only [openingScript] at ha
  split_ifs at ha
  · cases hkey : stoul keyval.1 with
    | none =>
      rw [hkey] at ha
      cases ha
    | some output =>
      rw [hkey] at ha
      rw [List.mem_singleton.mp ha]
      rfl
  · cases ha

private theorem connectionScript_isConnect (keyval : String × Json) :
    ∀ a ∈ (connectionScript keyval).steps, a.isConnect = true := by
  intro a ha
  simp only [connectionScript] at ha
  cases hkey : stoul keyval.1 with
  | none =>
    rw [hkey] at ha
    cases ha
  | some output =>
    rw [hkey] at ha
    simp only at ha
    split_ifs at ha
    · cases ha
    · rw [List.mem_singleton.mp ha]
      rfl

private theorem sorted_scripts {first second : Script OutputStep}
    (hfirst : ∀ a ∈ first.steps, a.isConnect = false)
    (hsecond : ∀ a ∈ second.steps, a.isConnect = true) : Sorted (first.append second).steps := by
  simp only [Script.append]
  split
  · exact sorted_append hfirst hsecond
  · have hlone : Sorted (first.steps ++ []) := sorted_append hfirst (by simp)
    rwa [List.append_nil] at hlone

theorem sorted_outputScript (value : Json) : Sorted (outputScript value).steps := by
  cases value with
  | array outputs =>
    simp only [outputScript, arrayScript]
    split
    · apply sorted_scripts
      · intro a ha
        rw [List.mem_singleton.mp ha]
        rfl
      · intro a ha
        obtain ⟨element, -, ha⟩ := Script.exists_of_mem_ofList ha
        exact elementScript_isConnect element a ha
    · exact List.Pairwise.nil
  | object outputs =>
    apply sorted_scripts
    · intro a ha
      obtain ⟨keyval, -, ha⟩ := Script.exists_of_mem_ofList ha
      exact openingScript_isConnect keyval a ha
    · intro a ha
      obtain ⟨keyval, -, ha⟩ := Script.exists_of_mem_ofList ha
      exact connectionScript_isConnect keyval a ha
  | _ => exact List.Pairwise.nil

end Lucidac.UBlock
