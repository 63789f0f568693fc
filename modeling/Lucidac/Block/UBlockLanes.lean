import Lucidac.Block.UBlockScript

/-!
# The connections that an outputs entry of a U block can make

An "outputs" entry opens some outputs and then asks for connections.  Which of these are made can
be told from the entry and from the map and the modes of the block before it, without running it.
-/

namespace Lucidac.UBlock

open Framework

/-- A connection that an entry asks for. -/
structure Connection where
  input : Nat
  output : Nat
deriving DecidableEq

namespace Connection

def onBSide (lane : Connection) : Bool := bSideLane lane.input lane.output

def toStep (lane : Connection) : OutputStep := .connect lane.input lane.output

end Connection

namespace OutputStep

def lane? : OutputStep → Option Connection
  | .connect input output => some ⟨input, output⟩
  | _ => none

def opens (output : Fin 32) : OutputStep → Bool
  | .clear => true
  | .disconnect other => other == output.val
  | .connect _ _ => false

end OutputStep

/-! ### What an entry asks for -/

/-- The connections, in their order and up to an illegal element. -/
def lanesOf (value : Json) : List Connection :=
  (outputScript value).steps.filterMap OutputStep.lane?

/-- The map that the connections start from. -/
def openedMap (value : Json) (s : UBlock) (output : Fin 32) : Int :=
  if (outputScript value).steps.any (OutputStep.opens output) then -1 else s.outputInputMap output

/-- The guards of a connection behind earlier ones.  Its output is open.  And if its side has a mode
other than that of the block inputs, which an earlier connection would have changed, then nothing
uses its input. -/
structure Fits (map : Fin 32 → Int) (aSide bSide : TransmissionMode) (earlier : List Connection)
    (lane : Connection) : Prop where
  input_lt : lane.input < 16
  output_lt : lane.output < 32
  isOpen : ∀ output : Fin 32, output.val = lane.output → map output < 0
  fresh : ∀ e ∈ earlier, e.output ≠ lane.output
  unused : (∀ e ∈ earlier, e.onBSide ≠ lane.onBSide) →
    (if lane.onBSide then bSide else aSide) ≠ .analogInput →
      (∀ output, map output ≠ lane.input) ∧ ∀ e ∈ earlier, e.input ≠ lane.input

instance (map : Fin 32 → Int) (aSide bSide : TransmissionMode) (earlier : List Connection)
    (lane : Connection) : Decidable (Fits map aSide bSide earlier lane) :=
  decidable_of_iff
    (lane.input < 16 ∧ lane.output < 32 ∧
      (∀ output : Fin 32, output.val = lane.output → map output < 0) ∧
      (∀ e ∈ earlier, e.output ≠ lane.output) ∧
      ((∀ e ∈ earlier, e.onBSide ≠ lane.onBSide) →
        (if lane.onBSide then bSide else aSide) ≠ .analogInput →
          (∀ output, map output ≠ lane.input) ∧ ∀ e ∈ earlier, e.input ≠ lane.input))
    ⟨fun h => ⟨h.1, h.2.1, h.2.2.1, h.2.2.2.1, h.2.2.2.2⟩,
      fun h => ⟨h.input_lt, h.output_lt, h.isOpen, h.fresh, h.unused⟩⟩

/-- The connections before the first one that does not fit. -/
def fittingFrom (map : Fin 32 → Int) (aSide bSide : TransmissionMode) :
    List Connection → List Connection → List Connection
  | _, [] => []
  | earlier, lane :: rest =>
    if Fits map aSide bSide earlier lane then
      lane :: fittingFrom map aSide bSide (earlier ++ [lane]) rest
    else []

def fitting (value : Json) (s : UBlock) : List Connection :=
  fittingFrom (openedMap value s) s.aSideMode s.bSideMode [] (lanesOf value)

/-! ### The block with connections made -/

section Joined

def joinedMap (map : Fin 32 → Int) (lanes : List Connection) : Fin 32 → Int :=
  lanes.foldl
    (fun map lane output => if output.val = lane.output then lane.input else map output) map

/-- The block with its outputs opened and these connections made. -/
def joined (u : UBlock) (lanes : List Connection) : UBlock where
  outputInputMap := joinedMap u.outputInputMap lanes
  refMagnitude := u.refMagnitude
  aSideMode := if lanes.any fun lane => !lane.onBSide then .analogInput else u.aSideMode
  bSideMode := if lanes.any Connection.onBSide then .analogInput else u.bSideMode

/-- Connections to open outputs, no two to the same. -/
structure Made (map : Fin 32 → Int) (lanes : List Connection) : Prop where
  nodup : (lanes.map Connection.output).Nodup
  isOpen : ∀ lane ∈ lanes, ∃ output : Fin 32, output.val = lane.output ∧ map output < 0

variable {map : Fin 32 → Int} {lanes : List Connection} {lane : Connection}
variable {output : Fin 32}

theorem joinedMap_concat (map : Fin 32 → Int) (lanes : List Connection) (lane : Connection) :
    joinedMap map (lanes ++ [lane]) =
      fun output => if output.val = lane.output then (lane.input : Int)
        else joinedMap map lanes output := by
  rw [joinedMap, List.foldl_append]
  rfl

theorem joinedMap_of_absent (h : ∀ lane ∈ lanes, lane.output ≠ output.val) :
    joinedMap map lanes output = map output := by
  induction lanes using List.reverseRecOn with
  | nil => rfl
  | append_singleton lanes lane ih =>
    rw [List.forall_mem_append, List.forall_mem_singleton] at h
    rw [joinedMap_concat]
    simp only
    rw [if_neg (Ne.symm h.2), ih h.1]

theorem joinedMap_of_mem (hnodup : (lanes.map Connection.output).Nodup) (hmem : lane ∈ lanes)
    (houtput : output.val = lane.output) : joinedMap map lanes output = lane.input := by
  induction lanes using List.reverseRecOn with
  | nil => cases hmem
  | append_singleton lanes last ih =>
    rw [List.map_append, List.nodup_append] at hnodup
    rw [joinedMap_concat]
    simp only
    rcases List.mem_append.mp hmem with hmem | hlast
    · have hne : lane.output ≠ last.output :=
        hnodup.2.2 lane.output (List.mem_map_of_mem hmem) last.output (by simp)
      rw [if_neg (by rw [houtput]; exact hne), ih hnodup.1 hmem]
    · rw [List.mem_singleton.mp hlast] at houtput ⊢
      rw [if_pos houtput]

theorem joinedMap_cases (lanes : List Connection) (output : Fin 32) :
    (∀ lane ∈ lanes, lane.output ≠ output.val) ∨ ∃ lane ∈ lanes, output.val = lane.output := by
  by_cases h : ∃ lane ∈ lanes, output.val = lane.output
  · exact Or.inr h
  · left
    intro lane hmem heq
    exact h ⟨lane, hmem, heq.symm⟩

theorem joinedMap_neg_iff (h : Made map lanes) :
    joinedMap map lanes output < 0 ↔
      map output < 0 ∧ ∀ lane ∈ lanes, lane.output ≠ output.val := by
  rcases joinedMap_cases lanes output with habsent | ⟨lane, hmem, houtput⟩
  · rw [joinedMap_of_absent habsent]
    exact ⟨fun hneg => ⟨hneg, habsent⟩, And.left⟩
  · rw [joinedMap_of_mem h.nodup hmem houtput]
    constructor
    · intro hneg
      omega
    · intro hno
      exact absurd houtput.symm (hno.2 lane hmem)

/-- The inputs in use are those of the block and those of the connections. -/
theorem usesInput_joined_iff {u : UBlock} (h : Made u.outputInputMap lanes) (input : Nat) :
    (u.joined lanes).UsesInput input ↔
      (∃ output, u.outputInputMap output = input) ∨ ∃ lane ∈ lanes, lane.input = input := by
  simp only [UsesInput, joined]
  constructor
  · rintro ⟨output, huses⟩
    rcases joinedMap_cases lanes output with habsent | ⟨lane, hmem, houtput⟩
    · rw [joinedMap_of_absent habsent] at huses
      exact Or.inl ⟨output, huses⟩
    · rw [joinedMap_of_mem h.nodup hmem houtput] at huses
      exact Or.inr ⟨lane, hmem, by exact_mod_cast huses⟩
  · rintro (⟨output, huses⟩ | ⟨lane, hmem, rfl⟩)
    · refine ⟨output, (joinedMap_of_absent fun lane hmem heq => ?_).trans huses⟩
      obtain ⟨other, hother, hneg⟩ := h.isOpen lane hmem
      rw [Fin.ext (hother.trans heq), huses] at hneg
      omega
    · obtain ⟨output, houtput, -⟩ := h.isOpen lane hmem
      exact ⟨output, joinedMap_of_mem h.nodup hmem houtput⟩

theorem laneMode_joined (u : UBlock) (lanes : List Connection) (lane : Connection) :
    (u.joined lanes).laneMode lane.input lane.output =
      if ∀ e ∈ lanes, e.onBSide ≠ lane.onBSide then
        if lane.onBSide then u.bSideMode else u.aSideMode
      else .analogInput := by
  have hany (b : Bool) : (lanes.any fun e => e.onBSide == b) =
      !decide (∀ e ∈ lanes, e.onBSide ≠ b) := by
    rw [Bool.eq_iff_iff]
    simp
  have ha : (lanes.any fun e => !e.onBSide) = lanes.any fun e => e.onBSide == false := by
    congr 1
    funext e
    cases e.onBSide <;> rfl
  have hb : lanes.any Connection.onBSide = lanes.any fun e => e.onBSide == true := by
    congr 1
    funext e
    cases e.onBSide <;> rfl
  change (if lane.onBSide then (u.joined lanes).bSideMode else (u.joined lanes).aSideMode) = _
  simp only [joined, ha, hb]
  cases hside : lane.onBSide with
  | true =>
    rw [if_pos rfl, hany true]
    by_cases h : ∀ e ∈ lanes, e.onBSide ≠ true
    · rw [if_pos h, decide_eq_true h]
      rfl
    · rw [if_neg h, decide_eq_false h]
      rfl
  | false =>
    rw [if_neg Bool.false_ne_true, hany false]
    by_cases h : ∀ e ∈ lanes, e.onBSide ≠ false
    · rw [if_pos h, decide_eq_true h]
      rfl
    · rw [if_neg h, decide_eq_false h]
      rfl

/-- The guards of `connect` say that the connection fits behind those that are made. -/
theorem connectAllowed_joined_iff {u : UBlock} (h : Made u.outputInputMap lanes)
    (houtput : lane.output < 32) :
    (u.joined lanes).ConnectAllowed lane.input ⟨lane.output, houtput⟩ false ↔
      Fits u.outputInputMap u.aSideMode u.bSideMode lanes lane := by
  have hopen : (u.joined lanes).outputInputMap ⟨lane.output, houtput⟩ < 0 ↔
      u.outputInputMap ⟨lane.output, houtput⟩ < 0 ∧ ∀ e ∈ lanes, e.output ≠ lane.output :=
    joinedMap_neg_iff h
  simp only [ConnectAllowed, forall_const]
  rw [hopen, laneMode_joined, usesInput_joined_iff h]
  constructor
  · rintro ⟨hinput, ⟨hneg, hfresh⟩, hunused⟩
    refine ⟨hinput, houtput, fun output heq => ?_, hfresh, fun hside hmode => ?_⟩
    · rw [show output = ⟨lane.output, houtput⟩ from Fin.ext heq]
      exact hneg
    · rw [if_pos hside] at hunused
      have hfree := hunused hmode
      exact ⟨fun output heq => hfree (Or.inl ⟨output, heq⟩),
        fun e he heq => hfree (Or.inr ⟨e, he, heq⟩)⟩
  · intro hfits
    refine ⟨hfits.input_lt, ⟨hfits.isOpen _ rfl, hfits.fresh⟩, fun hmode => ?_⟩
    by_cases hside : ∀ e ∈ lanes, e.onBSide ≠ lane.onBSide
    · rw [if_pos hside] at hmode
      obtain ⟨hmap, hlanes⟩ := hfits.unused hside hmode
      rintro (⟨output, heq⟩ | ⟨e, he, heq⟩)
      · exact hmap output heq
      · exact hlanes e he heq
    · rw [if_neg hside] at hmode
      exact absurd rfl hmode

theorem withLane_joined (u : UBlock) (lanes : List Connection) (lane : Connection)
    (houtput : lane.output < 32) :
    (u.joined lanes).withLane lane.input ⟨lane.output, houtput⟩ lane.onBSide .analogInput =
      u.joined (lanes ++ [lane]) := by
  have hmap : Function.update (joinedMap u.outputInputMap lanes) ⟨lane.output, houtput⟩
      (lane.input : Int) = joinedMap u.outputInputMap (lanes ++ [lane]) := by
    rw [joinedMap_concat]
    funext output
    by_cases heq : output.val = lane.output
    · rw [show output = ⟨lane.output, houtput⟩ from Fin.ext heq, Function.update_self, if_pos rfl]
    · rw [Function.update_of_ne (fun h => heq (congrArg Fin.val h)), if_neg heq]
  simp only [withLane, joined, hmap, List.any_append, List.any_cons, List.any_nil, Bool.or_false]
  cases lane.onBSide <;> simp

theorem Made.concat (h : Made map lanes) {aSide bSide : TransmissionMode}
    (hfits : Fits map aSide bSide lanes lane) : Made map (lanes ++ [lane]) := by
  constructor
  · rw [List.map_append, List.nodup_append]
    refine ⟨h.nodup, List.nodup_singleton _, ?_⟩
    intro a ha b hb
    obtain ⟨e, he, rfl⟩ := List.mem_map.mp ha
    rw [List.map_singleton, List.mem_singleton] at hb
    rw [hb]
    exact hfits.fresh e he
  · rw [List.forall_mem_append, List.forall_mem_singleton]
    exact ⟨h.isOpen, ⟨lane.output, hfits.output_lt⟩, rfl, hfits.isOpen _ rfl⟩

end Joined

/-! ### The steps of an entry -/

section Steps

variable {u : UBlock} {earlier lanes : List Connection}

theorem run_toStep (h : Made u.outputInputMap earlier) (lane : Connection) :
    (lane.toStep.run (u.joined earlier)) =
      if Fits u.outputInputMap u.aSideMode u.bSideMode earlier lane then
        (true, u.joined (earlier ++ [lane]))
      else (false, u.joined earlier) := by
  change (u.joined earlier).connect lane.input lane.output false = _
  by_cases houtput : lane.output < 32
  · have heq := connect_eq (u.joined earlier) lane.input ⟨lane.output, houtput⟩ false
    simp only [connectAllowed_joined_iff h houtput] at heq
    rw [heq]
    split
    · exact congrArg (Prod.mk true) (withLane_joined u earlier lane houtput)
    · rfl
  · rw [connect_of_range _ _ _ _ (Nat.not_lt.mp houtput),
      if_neg fun hfits => houtput hfits.output_lt]

theorem passed_lanes (h : Made u.outputInputMap earlier) (lanes : List Connection) :
    Script.passed OutputStep.run (lanes.map Connection.toStep) (u.joined earlier) =
        (fittingFrom u.outputInputMap u.aSideMode u.bSideMode earlier lanes).map Connection.toStep ∧
      finish (lanes.map Connection.toStep) (u.joined earlier) =
        u.joined (earlier ++
          fittingFrom u.outputInputMap u.aSideMode u.bSideMode earlier lanes) ∧
      Made u.outputInputMap (earlier ++
        fittingFrom u.outputInputMap u.aSideMode u.bSideMode earlier lanes) := by
  induction lanes generalizing earlier with
  | nil =>
    simp only [fittingFrom, List.append_nil]
    exact ⟨rfl, rfl, h⟩
  | cons lane rest ih =>
    have hrun := run_toStep h lane
    by_cases hfits : Fits u.outputInputMap u.aSideMode u.bSideMode earlier lane
    · rw [if_pos hfits] at hrun
      obtain ⟨hpassed, hfinish, hmade⟩ := ih (h.concat hfits)
      have hpass : (lane.toStep.run (u.joined earlier)).1 = true := by rw [hrun]
      simp only [fittingFrom]
      rw [if_pos hfits, List.map_cons, List.map_cons]
      refine ⟨?_, ?_, ?_⟩
      · simp only [Script.passed]
        rw [if_pos hpass, hrun, hpassed]
      · rw [finish_pass hpass, hrun, hfinish, List.append_assoc, List.singleton_append]
      · rw [List.append_assoc, List.singleton_append] at hmade
        exact hmade
    · rw [if_neg hfits] at hrun
      have hrefused : (lane.toStep.run (u.joined earlier)).1 = false := by rw [hrun]
      simp only [fittingFrom]
      rw [if_neg hfits, List.append_nil, List.map_cons]
      refine ⟨?_, finish_refused hrefused, h⟩
      simp only [Script.passed]
      rw [if_neg (by rw [hrefused]; decide)]
      rfl

theorem allPass_iff_passed {steps : List OutputStep} {s : UBlock} :
    Script.allPass OutputStep.run steps s = true ↔ Script.passed OutputStep.run steps s = steps := by
  refine ⟨Script.passed_of_allPass _, fun h => ?_⟩
  induction steps generalizing s with
  | nil => rfl
  | cons a rest ih =>
    simp only [Script.passed] at h
    split at h
    · next hpass =>
      simp only [Script.allPass]
      rw [hpass, ih (List.cons.inj h).2, Bool.and_self]
    · cases h

/-- Openings always pass. -/
theorem openings_run {openings : List OutputStep} (h : ∀ a ∈ openings, a.isConnect = false)
    (s : UBlock) :
    Script.allPass OutputStep.run openings s = true ∧
      Script.after OutputStep.run openings s =
        { s with outputInputMap := fun output =>
            if openings.any (OutputStep.opens output) then -1 else s.outputInputMap output } := by
  induction openings generalizing s with
  | nil => exact ⟨rfl, rfl⟩
  | cons a rest ih =>
    rw [List.forall_mem_cons] at h
    obtain ⟨hpass, hafter⟩ := ih h.2 (a.run s).2
    have hstep : (a.run s).1 = true ∧ (a.run s).2 =
        { s with outputInputMap := fun output =>
            if OutputStep.opens output a then -1 else s.outputInputMap output } := by
      cases a with
      | clear => exact ⟨rfl, rfl⟩
      | connect input output => cases h.1
      | disconnect other =>
        refine ⟨rfl, ?_⟩
        simp only [OutputStep.run, UBlock.disconnect, OutputStep.opens, beq_iff_eq]
        by_cases hother : other < 32
        · rw [dif_pos hother]
          simp only [disconnectUnchecked]
          congr 1
          funext output
          by_cases heq : other = output.val
          · rw [if_pos heq, show output = ⟨other, hother⟩ from Fin.ext heq.symm,
              Function.update_self]
          · rw [if_neg heq, Function.update_of_ne fun h => heq (congrArg Fin.val h).symm]
        · rw [dif_neg hother]
          have hnone (output : Fin 32) : ¬ other = output.val := fun h => hother (h ▸ output.isLt)
          simp only [hnone, if_false]
    refine ⟨by simp only [Script.allPass, hstep.1, hpass, Bool.and_self], ?_⟩
    change Script.after OutputStep.run rest (a.run s).2 = _
    rw [hafter, hstep.2]
    congr 1
    funext output
    simp only [List.any_cons, Bool.or_eq_true]
    by_cases hrest : (rest.any (OutputStep.opens output)) = true
    · rw [if_pos hrest, if_pos (Or.inr hrest)]
    · by_cases ha : OutputStep.opens output a = true
      · rw [if_neg hrest, if_pos ha, if_pos (Or.inl ha)]
      · rw [if_neg hrest, if_neg ha, if_neg (not_or.mpr ⟨ha, hrest⟩)]

theorem sorted_eq_append {steps : List OutputStep} (h : Sorted steps) :
    steps = steps.filter (!·.isConnect) ++ (steps.filterMap OutputStep.lane?).map Connection.toStep := by
  induction steps with
  | nil => rfl
  | cons a rest ih =>
    obtain ⟨hfirst, hrest⟩ := List.pairwise_cons.mp h
    have hih := ih hrest
    cases a with
    | clear => exact congrArg (OutputStep.clear :: ·) hih
    | disconnect output => exact congrArg (OutputStep.disconnect output :: ·) hih
    | connect input output =>
      have hnone : rest.filter (!·.isConnect) = [] := by
        rw [List.filter_eq_nil_iff]
        intro b hb
        simp [hfirst b hb rfl]
      rw [hnone, List.nil_append] at hih
      have hopen : (OutputStep.connect input output :: rest).filter (!·.isConnect) = [] := hnone
      rw [hopen, List.nil_append]
      exact congrArg (OutputStep.connect input output :: ·) hih

end Steps

section Entry

variable (value : Json) (s : UBlock)

/-- The steps of an entry that pass, and the block that they leave. -/
theorem passed_outputScript :
    Script.passed OutputStep.run (outputScript value).steps s =
        (outputScript value).steps.filter (!·.isConnect) ++
          (fitting value s).map Connection.toStep ∧
      finish (outputScript value).steps s =
        ({ s with outputInputMap := openedMap value s } : UBlock).joined (fitting value s) ∧
      Made (openedMap value s) (fitting value s) := by
  let openings := (outputScript value).steps.filter (!·.isConnect)
  have hsplit : (outputScript value).steps = openings ++ (lanesOf value).map Connection.toStep :=
    sorted_eq_append (sorted_outputScript value)
  have hopenings : ∀ a ∈ openings, a.isConnect = false := by
    intro a ha
    simpa using (List.mem_filter.mp ha).2
  obtain ⟨hpass, hafter⟩ := openings_run hopenings s
  have hopened : (fun output => if openings.any (OutputStep.opens output) then -1
      else s.outputInputMap output) = openedMap value s := by
    funext output
    have hlanes : ((lanesOf value).map Connection.toStep).any (OutputStep.opens output) = false := by
      rw [List.any_eq_false]
      intro a ha
      obtain ⟨lane, -, rfl⟩ := List.mem_map.mp ha
      exact Bool.false_ne_true
    rw [openedMap, hsplit, List.any_append, hlanes, Bool.or_false]
  rw [hopened] at hafter
  have hmade : Made ({ s with outputInputMap := openedMap value s } : UBlock).outputInputMap [] :=
    ⟨List.nodup_nil, by simp⟩
  obtain ⟨hpassed, hfinish, hlast⟩ := passed_lanes hmade (lanesOf value)
  refine ⟨?_, ?_, hlast⟩
  · conv_lhs => rw [hsplit]
    rw [Script.passed_append, if_pos hpass, hafter]
    exact congrArg (openings ++ ·) hpassed
  · have hcontinue : finish (outputScript value).steps s =
        finish ((lanesOf value).map Connection.toStep) (Script.after OutputStep.run openings s) := by
      simp only [finish]
      conv_lhs => rw [hsplit]
      rw [Script.passed_append, if_pos hpass, Script.after_append]
    rw [hcontinue, hafter]
    exact hfinish

theorem allPass_outputScript_iff :
    Script.allPass OutputStep.run (outputScript value).steps s = true ↔
      fitting value s = lanesOf value := by
  rw [allPass_iff_passed, (passed_outputScript value s).1]
  have hsplit := sorted_eq_append (sorted_outputScript value)
  have hinjective : Function.Injective Connection.toStep := by
    intro a b h
    cases a
    cases b
    cases h
    rfl
  constructor
  · intro h
    rw [hsplit] at h
    have hlanes := List.append_cancel_left (h.trans (by rw [← hsplit]; exact hsplit))
    exact List.map_injective_iff.mpr hinjective hlanes
  · intro h
    rw [h]
    exact hsplit.symm

theorem meetsBSide_outputScript :
    meetsBSide (outputScript value).steps s = (fitting value s).any Connection.onBSide := by
  have hopenings : ((outputScript value).steps.filter (!·.isConnect)).any OutputStep.onBSide =
      false := by
    rw [List.any_eq_false]
    intro a ha hside
    have hopening := (List.mem_filter.mp ha).2
    cases a with
    | clear => cases hside
    | disconnect output => cases hside
    | connect input output => cases hopening
  rw [meetsBSide, (passed_outputScript value s).1, List.any_append, hopenings, Bool.false_or,
    List.any_map]
  rfl

/-- The entry leaves the map and the A side as they were: what it connects was connected so
before, what it opens was open before or is connected again, and no lane of the A side changes the
mode. -/
structure Restores : Prop where
  connected : ∀ lane ∈ fitting value s, ∀ output : Fin 32, output.val = lane.output →
    s.outputInputMap output = lane.input
  opened : ∀ output : Fin 32, (outputScript value).steps.any (OutputStep.opens output) = true →
    s.outputInputMap output = -1 ∨ ∃ lane ∈ fitting value s, lane.output = output.val
  aSide : ∀ lane ∈ fitting value s, lane.onBSide = false → s.aSideMode = .analogInput

theorem matches_iff_restores :
    (finish (outputScript value).steps s).Matches s ↔ Restores value s := by
  obtain ⟨-, hfinish, hmade⟩ := passed_outputScript value s
  rw [hfinish]
  constructor
  · rintro ⟨hmap, hside⟩
    refine ⟨fun lane hmem output heq => ?_, fun output hopens => ?_, fun lane hmem hlane => ?_⟩
    · rw [← hmap]
      exact joinedMap_of_mem hmade.nodup hmem heq
    · rcases joinedMap_cases (fitting value s) output with
        habsent | ⟨lane, hmem, heq⟩
      · left
        rw [← congrFun hmap output]
        exact (joinedMap_of_absent habsent).trans (if_pos hopens)
      · exact Or.inr ⟨lane, hmem, heq.symm⟩
    · rw [← hside]
      exact if_pos (List.any_eq_true.mpr ⟨lane, hmem, by rw [hlane]; rfl⟩)
  · intro h
    constructor
    · funext output
      change joinedMap (openedMap value s) (fitting value s) output = _
      rcases joinedMap_cases (fitting value s) output with
        habsent | ⟨lane, hmem, heq⟩
      · rw [joinedMap_of_absent habsent, openedMap]
        split
        · next hopens =>
          rcases h.opened output hopens with hopen | ⟨lane, hmem, heq⟩
          · exact hopen.symm
          · exact absurd heq (habsent lane hmem)
        · rfl
      · rw [joinedMap_of_mem hmade.nodup hmem heq, h.connected lane hmem output heq]
    · change (if (fitting value s).any fun lane => !lane.onBSide then TransmissionMode.analogInput
        else s.aSideMode) = s.aSideMode
      split
      · next hany =>
        obtain ⟨lane, hmem, hlane⟩ := List.any_eq_true.mp hany
        exact (h.aSide lane hmem (by simpa using hlane)).symm
      · rfl

end Entry

end Lucidac.UBlock
