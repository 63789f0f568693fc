import Lucidac.Block.UBlockLanes

/-!
# The order of the entries of a U block configuration

The "constant" entry overwrites the B side mode and the magnitude.  These are the two fields in
which runs of an "outputs" entry may differ, so the order of both entries matters where its
script meets the B side.
-/

namespace Lucidac.UBlock

open Framework

/-- The constants that are accepted. -/
def IsReference (constant : ℚ) : Prop := |constant| = tenth ∨ |constant| = 1

instance (constant : ℚ) : Decidable (IsReference constant) :=
  inferInstanceAs (Decidable (_ ∨ _))

/-- The block with the mode of the B side that the sign of the constant stands for, and with the
magnitude, if it is one. -/
def withConstant (s : UBlock) (constant : ℚ) : UBlock :=
  { s with
    bSideMode := if constant = 0 then .analogInput else if 0 < constant then .posRef else .negRef
    refMagnitude :=
      if |constant| = tenth then .oneTenth
      else if |constant| = 1 ∨ constant = 0 then .one
      else s.refMagnitude }

private theorem outcome_magnitude (constant : ℚ) (e : ConfigError) (s : UBlock) :
    outcome (if |constant| = tenth then modify fun s => s.changeReferenceMagnitude .oneTenth
      else if |constant| = 1 then modify fun s => s.changeReferenceMagnitude .one
      else throw e : EStateM ConfigError UBlock PUnit) s =
      (decide (IsReference constant),
        { s with refMagnitude :=
            if |constant| = tenth then .oneTenth else if |constant| = 1 then .one
            else s.refMagnitude }) := by
  by_cases htenth : |constant| = tenth
  · have hreference : IsReference constant := Or.inl htenth
    rw [if_pos htenth, if_pos htenth, decide_eq_true hreference]
    rfl
  · rw [if_neg htenth, if_neg htenth]
    by_cases hone : |constant| = 1
    · have hreference : IsReference constant := Or.inr hone
      rw [if_pos hone, if_pos hone, decide_eq_true hreference]
      rfl
    · have hreference : ¬ IsReference constant := not_or.mpr ⟨htenth, hone⟩
      rw [if_neg hone, if_neg hone, decide_eq_false hreference]
      rfl

theorem outcome_constants (parseNumber : String → ℚ) (cfg : Json) (s : UBlock) :
    outcome (configConstantsFromJson parseNumber cfg) s =
      (decide (IsReference (constantValue parseNumber cfg)),
        s.withConstant (constantValue parseNumber cfg)) := by
  simp only [configConstantsFromJson]
  rw [outcome_seq, andThen, outcome_modify, if_pos rfl, outcome_seq, andThen, outcome_modify,
    if_pos rfl, outcome_seq, andThen, outcome_modify, if_pos rfl, outcome_magnitude]
  generalize constantValue parseNumber cfg = constant
  simp only [withConstant]
  rcases lt_trichotomy constant 0 with hneg | rfl | hpos
  · rw [if_neg hneg.ne, if_neg (not_lt_of_gt hneg), if_pos hneg]
    simp [changeBSideTransmissionMode, hneg.ne, not_lt_of_gt hneg]
  · simp [changeBSideTransmissionMode, resetReferenceMagnitude, changeReferenceMagnitude]
  · rw [if_neg hpos.ne', if_pos hpos, if_neg (not_lt_of_gt hpos)]
    simp [changeBSideTransmissionMode, hpos.ne', hpos]

/-- A configuration with both entries, and members of other names around them. -/
structure TwoEntries where
  outputs : Json
  constant : Json
  before : List (String × Json)
  between : List (String × Json)
  behind : List (String × Json)
  unknown : ∀ keyval ∈ before ++ between ++ behind, keyval.1 ≠ "outputs" ∧ keyval.1 ≠ "constant"

namespace TwoEntries

def outputsFirst (cfg : TwoEntries) : List (String × Json) :=
  cfg.before ++ ("outputs", cfg.outputs) :: (cfg.between ++ ("constant", cfg.constant) :: cfg.behind)

def constantFirst (cfg : TwoEntries) : List (String × Json) :=
  cfg.before ++ ("constant", cfg.constant) :: (cfg.between ++ ("outputs", cfg.outputs) :: cfg.behind)

end TwoEntries

/-- Members of other names are refused. -/
private theorem outcome_unknown (parseNumber : String → ℚ) {members : List (String × Json)}
    (h : ∀ keyval ∈ members, keyval.1 ≠ "outputs" ∧ keyval.1 ≠ "constant") (s : UBlock) :
    outcome (configSelfFromJson parseNumber members) s = (decide (members = []), s) := by
  cases members with
  | nil => rfl
  | cons keyval rest =>
    obtain ⟨houtputs, hconstant⟩ := h keyval List.mem_cons_self
    simp only [configSelfFromJson, List.forM_cons]
    rw [if_neg houtputs, if_neg hconstant]
    rfl

private theorem outcome_append (parseNumber : String → ℚ) (xs ys : List (String × Json))
    (s : UBlock) :
    outcome (configSelfFromJson parseNumber (xs ++ ys)) s =
      andThen (outcome (configSelfFromJson parseNumber xs))
        (outcome (configSelfFromJson parseNumber ys)) s := by
  simp only [configSelfFromJson]
  rw [List.forM_append, outcome_seq]

private theorem outcome_outputsEntry (parseNumber : String → ℚ) (value : Json) (s : UBlock) :
    outcome (configSelfFromJson parseNumber [("outputs", value)]) s =
      (outputScript value).perform OutputStep.run s := by
  simp only [configSelfFromJson]
  rw [forM_singleton, if_pos rfl, performs_outputScript]

private theorem outcome_constantEntry (parseNumber : String → ℚ) (value : Json) (s : UBlock) :
    outcome (configSelfFromJson parseNumber [("constant", value)]) s =
      (decide (IsReference (constantValue parseNumber value)),
        s.withConstant (constantValue parseNumber value)) := by
  simp only [configSelfFromJson]
  rw [forM_singleton, if_neg (by simp), if_pos rfl, outcome_constants]

/-- Two members with others of unknown names between and behind them. -/
private theorem outcome_two (parseNumber : String → ℚ) (cfg : TwoEntries)
    (first second : String × Json) (s : UBlock) :
    outcome (configSelfFromJson parseNumber (first :: (cfg.between ++ second :: cfg.behind))) s =
      andThen (outcome (configSelfFromJson parseNumber [first]))
        (fun t => if cfg.between = [] then
            andThen (outcome (configSelfFromJson parseNumber [second]))
              (fun u => (decide (cfg.behind = []), u)) t
          else (false, t)) s := by
  have hbetween (keyval) (hm : keyval ∈ cfg.between) := cfg.unknown keyval (by simp [hm])
  have hbehind (keyval) (hm : keyval ∈ cfg.behind) := cfg.unknown keyval (by simp [hm])
  have hlast : outcome (configSelfFromJson parseNumber cfg.behind) =
      fun u => (decide (cfg.behind = []), u) := funext (outcome_unknown parseNumber hbehind)
  have hrest : outcome (configSelfFromJson parseNumber (cfg.between ++ second :: cfg.behind)) =
      fun t => if cfg.between = [] then
          andThen (outcome (configSelfFromJson parseNumber [second]))
            (fun u => (decide (cfg.behind = []), u)) t
        else (false, t) := by
    funext t
    rw [outcome_append, andThen, outcome_unknown parseNumber hbetween]
    by_cases hnone : cfg.between = []
    · rw [if_pos (decide_eq_true hnone), if_pos hnone, ← List.singleton_append, outcome_append,
        hlast]
    · rw [if_neg (by simp [hnone]), if_neg hnone, decide_eq_false hnone]
  rw [← List.singleton_append, outcome_append, hrest]

section Order

variable (parseNumber : String → ℚ) (s : UBlock) (cfg : TwoEntries)

/-- Both orders of the two entries give the same success and leave the same block behind. -/
def OrderFree : Prop :=
  outcome (configSelfFromJson parseNumber cfg.outputsFirst) s =
    outcome (configSelfFromJson parseNumber cfg.constantFirst) s

/-- Nothing in the "outputs" entry is illegal, and all of its connections fit. -/
def EntryFits (value : Json) (s : UBlock) : Prop :=
  (outputScript value).complete = true ∧ fitting value s = lanesOf value

instance (value : Json) (s : UBlock) : Decidable (EntryFits value s) :=
  inferInstanceAs (Decidable (_ ∧ _))

/-- With an accepted constant: to the modes of the constant the entry fits and has no lane of the B
side, or it does not fit, and the block has the magnitude of the constant and also its B side,
unless a lane of the B side is connected before the first one that does not fit. -/
def SparesConstant (constant : ℚ) (value : Json) (s : UBlock) : Prop :=
  let t := s.withConstant constant
  (EntryFits value t ∧ (fitting value t).any Connection.onBSide = false) ∨
    (¬ EntryFits value t ∧ s.refMagnitude = t.refMagnitude ∧
      (s.bSideMode = t.bSideMode ∨ (fitting value t).any Connection.onBSide = true))

/-- With a configuration refused in both orders: the connections that fit were there before, and
the B side and the magnitude are overwritten or those of the constant. -/
def RestoresLanes (constant : ℚ) (overwritten : Prop) (value : Json) (s : UBlock) : Prop :=
  let t := s.withConstant constant
  Restores value s ∧
    (overwritten ∧ EntryFits value s ∨
      (if (fitting value s).any Connection.onBSide then .analogInput else s.bSideMode) = t.bSideMode ∧
        s.refMagnitude = t.refMagnitude)

/-- An unknown member comes first, or the two entries do not interfere. -/
def EntriesIndependent : Prop :=
  let constant := constantValue parseNumber cfg.constant
  cfg.before ≠ [] ∨
    (cfg.between = [] ∧ IsReference constant ∧ SparesConstant constant cfg.outputs s) ∨
    (¬ (cfg.between = [] ∧ IsReference constant) ∧
      RestoresLanes constant (cfg.between = []) cfg.outputs s)

variable {parseNumber s cfg}

private theorem eq_iff (u v : UBlock) :
    u = v ↔ u.Matches v ∧ u.bSideMode = v.bSideMode ∧ u.refMagnitude = v.refMagnitude := by
  constructor
  · rintro rfl
    exact ⟨⟨rfl, rfl⟩, rfl, rfl⟩
  · intro h
    obtain ⟨⟨hmap, ha⟩, hb, href⟩ := h
    cases u
    cases v
    simp_all

theorem withConstant_matches (s : UBlock) (constant : ℚ) : s.Matches (s.withConstant constant) :=
  ⟨rfl, rfl⟩

theorem matches_withConstant_iff (u s : UBlock) (constant : ℚ) :
    u.Matches (s.withConstant constant) ↔ u.Matches s := by
  constructor <;> exact fun h => ⟨h.outputInputMap, h.aSideMode⟩

theorem withConstant_bSideMode_ne {constant : ℚ} (h : IsReference constant) (s : UBlock) :
    (s.withConstant constant).bSideMode ≠ .analogInput := by
  have hne : constant ≠ 0 := by
    rintro rfl
    exact absurd h (by decide +kernel)
  simp only [withConstant]
  rw [if_neg hne]
  split <;> decide

/-- Writing the constant after the steps restores the magnitude it has before them. -/
theorem finish_withConstant_refMagnitude (steps : List OutputStep) (s : UBlock) (constant : ℚ) :
    ((finish steps s).withConstant constant).refMagnitude =
      (s.withConstant constant).refMagnitude := by
  simp only [withConstant]
  rw [finish_refMagnitude]

theorem entryFits_iff (value : Json) (s : UBlock) :
    EntryFits value s ↔ (outputScript value).complete = true ∧
      Script.allPass OutputStep.run (outputScript value).steps s = true := by
  rw [allPass_outputScript_iff]
  exact Iff.rfl

theorem perform_outputScript (value : Json) (s : UBlock) :
    (outputScript value).perform OutputStep.run s =
      (decide (EntryFits value s), finish (outputScript value).steps s) := by
  simp only [Script.perform, finish, Prod.mk.injEq, and_true]
  rw [Bool.eq_iff_iff, Bool.and_eq_true, decide_eq_true_eq, entryFits_iff]

theorem outcome_outputsFirst (h : cfg.before = []) :
    outcome (configSelfFromJson parseNumber cfg.outputsFirst) s =
      if ¬ EntryFits cfg.outputs s then (false, finish (outputScript cfg.outputs).steps s)
      else if cfg.between ≠ [] then (false, finish (outputScript cfg.outputs).steps s)
      else (decide (IsReference (constantValue parseNumber cfg.constant)) && decide (cfg.behind = []),
        (finish (outputScript cfg.outputs).steps s).withConstant
          (constantValue parseNumber cfg.constant)) := by
  rw [TwoEntries.outputsFirst, h, List.nil_append, outcome_two]
  simp only [andThen, outcome_outputsEntry, perform_outputScript, outcome_constantEntry]
  by_cases haccepts : EntryFits cfg.outputs s
  · by_cases hbetween : cfg.between = []
    · by_cases hreference : IsReference (constantValue parseNumber cfg.constant)
      · simp [haccepts, hbetween, hreference]
      · simp [haccepts, hbetween, hreference]
    · simp [haccepts, hbetween]
  · simp [haccepts]

theorem outcome_constantFirst (h : cfg.before = []) :
    outcome (configSelfFromJson parseNumber cfg.constantFirst) s =
      if ¬ IsReference (constantValue parseNumber cfg.constant) then
        (false, s.withConstant (constantValue parseNumber cfg.constant))
      else if cfg.between ≠ [] then
        (false, s.withConstant (constantValue parseNumber cfg.constant))
      else (decide (EntryFits cfg.outputs
            (s.withConstant (constantValue parseNumber cfg.constant))) && decide (cfg.behind = []),
        finish (outputScript cfg.outputs).steps
          (s.withConstant (constantValue parseNumber cfg.constant))) := by
  rw [TwoEntries.constantFirst, h, List.nil_append, outcome_two]
  simp only [andThen, outcome_constantEntry, outcome_outputsEntry, perform_outputScript]
  by_cases hreference : IsReference (constantValue parseNumber cfg.constant)
  · by_cases hbetween : cfg.between = []
    · by_cases haccepts : EntryFits cfg.outputs
          (s.withConstant (constantValue parseNumber cfg.constant))
      · simp [haccepts, hbetween, hreference]
      · simp [haccepts, hbetween, hreference]
    · simp [hreference, hbetween]
  · simp [hreference]

private theorem orderFree_of_before (h : cfg.before ≠ []) : OrderFree parseNumber s cfg := by
  have hbefore (keyval) (hm : keyval ∈ cfg.before) := cfg.unknown keyval (by simp [hm])
  simp only [OrderFree, TwoEntries.outputsFirst, TwoEntries.constantFirst]
  rw [outcome_append, outcome_append]
  simp only [andThen]
  rw [outcome_unknown parseNumber hbefore, decide_eq_false h]
  rfl

private theorem orderFree_iff_sparesConstant (hbefore : cfg.before = []) (hbetween : cfg.between = [])
    (hreference : IsReference (constantValue parseNumber cfg.constant)) :
    OrderFree parseNumber s cfg ↔
      SparesConstant (constantValue parseNumber cfg.constant) cfg.outputs s := by
  simp only [OrderFree]
  rw [outcome_outputsFirst hbefore, outcome_constantFirst hbefore]
  simp only [SparesConstant, ← meetsBSide_outputScript]
  generalize constantValue parseNumber cfg.constant = constant at hreference ⊢
  generalize ht : s.withConstant constant = t
  have hanalog : t.bSideMode ≠ .analogInput := ht ▸ withConstant_bSideMode_ne hreference s
  have hmatches : s.Matches t := ht ▸ withConstant_matches s constant
  have hfinishS := finish_bSideMode (outputScript cfg.outputs).steps s
  have hfinishT := finish_bSideMode (outputScript cfg.outputs).steps t
  have hrefS := finish_refMagnitude (outputScript cfg.outputs).steps s
  have hrefT := finish_refMagnitude (outputScript cfg.outputs).steps t
  have hrefC := finish_withConstant_refMagnitude (outputScript cfg.outputs).steps s constant
  have hmodeC : ((finish (outputScript cfg.outputs).steps s).withConstant constant).bSideMode =
      t.bSideMode := ht ▸ rfl
  have hmapC := withConstant_matches (finish (outputScript cfg.outputs).steps s) constant
  rw [ht] at hrefC
  rcases finish_against_reference (outputScript cfg.outputs).steps hmatches hanalog with
    ⟨hpass, hmeets, hfinish⟩ | ⟨hopen, hpass, hmeets, hmap⟩
  · have haccepts : EntryFits cfg.outputs s ↔ EntryFits cfg.outputs t := by
      rw [entryFits_iff, entryFits_iff, hpass]
    rw [hmeets] at hfinishS
    by_cases ha : EntryFits cfg.outputs t
    · have hmap := hmapC.symm.outputInputMap.trans hfinish.outputInputMap
      have hside := hmapC.symm.aSideMode.trans hfinish.aSideMode
      simp only [haccepts, ha, not_true_eq_false, if_false, hbetween, ne_eq, hreference,
        decide_true, Bool.true_and, Prod.mk.injEq, true_and, false_and, or_false]
      rw [eq_iff, hmodeC, hfinishT, hrefC, hrefT]
      cases hm : meetsBSide (outputScript cfg.outputs).steps t with
      | true => simp [hanalog]
      | false => simp [Matches.mk hmap hside]
    · simp only [haccepts, ha, not_false_eq_true, if_true, hbetween, ne_eq, not_true_eq_false,
        if_false, hreference, decide_false, Bool.false_and, Prod.mk.injEq, true_and, false_and,
        false_or]
      rw [eq_iff, hfinishS, hfinishT, hrefS, hrefT]
      cases hm : meetsBSide (outputScript cfg.outputs).steps t with
      | true => simp [hfinish]
      | false => simp [hfinish, and_comm]
  · -- the run on `t` stops at a lane of the B side that the run on `s` connects
    have hne := hmap (sorted_outputScript cfg.outputs)
    have hrefused : ¬ EntryFits cfg.outputs t := by
      intro h
      rw [entryFits_iff, hpass] at h
      exact Bool.false_ne_true h.2
    have hmode : s.bSideMode ≠ t.bSideMode := hopen ▸ hanalog.symm
    have hdiffer : ¬ (finish (outputScript cfg.outputs).steps s).Matches
        (finish (outputScript cfg.outputs).steps t) := fun h => hne h.outputInputMap
    simp only [hrefused, not_true_eq_false, hbetween, ne_eq, if_false, hreference, decide_false,
      Bool.false_and, decide_true, Bool.true_and, hmode, hmeets, Bool.false_eq_true, or_self, and_false,
      false_and]
    rw [iff_false]
    intro heq
    split at heq
    · exact hdiffer ((eq_iff _ _).mp (Prod.mk.inj heq).2).1
    · have hcopy := ((eq_iff _ _).mp (Prod.mk.inj heq).2).1
      exact hdiffer ⟨hcopy.outputInputMap, hcopy.aSideMode⟩

private theorem orderFree_iff_restoresLanes (hbefore : cfg.before = [])
    (hrefused : ¬ (cfg.between = [] ∧ IsReference (constantValue parseNumber cfg.constant))) :
    OrderFree parseNumber s cfg ↔
      RestoresLanes (constantValue parseNumber cfg.constant) (cfg.between = []) cfg.outputs s := by
  simp only [OrderFree]
  rw [outcome_outputsFirst hbefore, outcome_constantFirst hbefore]
  simp only [RestoresLanes, ← meetsBSide_outputScript, ← matches_iff_restores]
  generalize constantValue parseNumber cfg.constant = constant at hrefused ⊢
  have hfinish := finish_bSideMode (outputScript cfg.outputs).steps s
  have href := finish_refMagnitude (outputScript cfg.outputs).steps s
  have hrefC := finish_withConstant_refMagnitude (outputScript cfg.outputs).steps s constant
  have hlast : (if ¬ IsReference constant then (false, s.withConstant constant)
      else if cfg.between ≠ [] then (false, s.withConstant constant)
      else (decide (EntryFits cfg.outputs (s.withConstant constant)) && decide (cfg.behind = []),
        finish (outputScript cfg.outputs).steps (s.withConstant constant))) =
      (false, s.withConstant constant) := by
    by_cases hreference : IsReference constant
    · rw [if_neg (not_not.mpr hreference), if_pos fun h => hrefused ⟨h, hreference⟩]
    · rw [if_pos hreference]
  rw [hlast]
  have hkept : finish (outputScript cfg.outputs).steps s = s.withConstant constant ↔
      (finish (outputScript cfg.outputs).steps s).Matches s ∧
        (if meetsBSide (outputScript cfg.outputs).steps s then .analogInput else s.bSideMode) =
          (s.withConstant constant).bSideMode ∧
        s.refMagnitude = (s.withConstant constant).refMagnitude := by
    rw [eq_iff, hfinish, href, matches_withConstant_iff]
  by_cases haccepts : EntryFits cfg.outputs s
  · rw [if_neg (not_not.mpr haccepts)]
    by_cases hbetween : cfg.between = []
    · have hreference : ¬ IsReference constant := fun h => hrefused ⟨hbetween, h⟩
      rw [if_neg (not_not.mpr hbetween), decide_eq_false hreference, Bool.false_and, Prod.mk.injEq,
        eq_iff, hrefC]
      have hcopy : ((finish (outputScript cfg.outputs).steps s).withConstant constant).Matches s ↔
          (finish (outputScript cfg.outputs).steps s).Matches s := by
        constructor <;> exact fun h => ⟨h.outputInputMap, h.aSideMode⟩
      rw [matches_withConstant_iff, hcopy]
      constructor
      · intro h
        exact ⟨h.2.1, Or.inl ⟨hbetween, haccepts⟩⟩
      · intro h
        exact ⟨rfl, h.1, rfl, rfl⟩
    · rw [if_pos hbetween, Prod.mk.injEq, hkept]
      simp only [true_and, hbetween, false_and, false_or]
  · rw [if_pos haccepts, Prod.mk.injEq, hkept]
    simp only [true_and, haccepts, and_false, false_or]

end Order

end Lucidac.UBlock
