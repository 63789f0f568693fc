import Mathlib.Tactic.NormNum
import Lucidac.Block.UBlockOutputs

/-!
# Reading back the configuration of the U block

The reader clears the map and reconnects output by output.  The state after `k` outputs is known
in closed form, and a lane fails exactly when it lies on a B side that still transmits a
reference while its input is already taken.  After the map, the constant restores the B side
and the magnitude.
-/

namespace Lucidac.UBlock

open Framework

/-- Some output below `k` lies on the B side of the map. -/
def SwitchesBSide (s : UBlock) (k : Nat) : Prop :=
  ∃ output : Fin 32, output.val < k ∧ s.fedFromBSide output = true

instance (s : UBlock) (k : Nat) : Decidable (s.SwitchesBSide k) :=
  inferInstanceAs (Decidable (∃ output : Fin 32, output.val < k ∧ s.fedFromBSide output = true))

/-- The receiving block `t` after the first `k` outputs of `s` are connected. -/
def partialCopy (s t : UBlock) (k : Nat) : UBlock :=
  { outputInputMap := fun output => if output.val < k then s.outputInputMap output else -1
    refMagnitude := t.refMagnitude
    aSideMode := .analogInput
    bSideMode := if s.SwitchesBSide k then .analogInput else t.bSideMode }

/-- The guard of `connect` lets the lane at `output` pass. -/
def LanePasses (s t : UBlock) (output : Fin 32) : Prop :=
  s.fedFromBSide output = true → s.SwitchesBSide output ∨ t.bSideMode = .analogInput ∨
    ∀ earlier : Fin 32, earlier.val < output.val →
      s.outputInputMap earlier ≠ s.outputInputMap output

private theorem entryToJson_entry (lane : Lane) : entryToJson lane.entry = lane.toJson := by
  cases lane with
  | none => rfl
  | some input => exact if_pos (Int.natCast_nonneg input.val)

private theorem ValidMap.exists_request {s : UBlock} (hs : s.ValidMap) :
    ∃ request : Fin 32 → Lane, ∀ output, s.outputInputMap output = (request output).entry := by
  have hlane (output : Fin 32) : ∃ lane : Lane, s.outputInputMap output = lane.entry := by
    rcases hs output with hopen | ⟨hnonneg, hlt⟩
    · exact ⟨none, hopen⟩
    · obtain ⟨input, hinput⟩ := Int.eq_ofNat_of_zero_le hnonneg
      exact ⟨some ⟨input, by omega⟩, hinput⟩
  choose request hrequest using hlane
  exact ⟨request, hrequest⟩

section Request

variable {s t : UBlock} {request : Fin 32 → Lane}
  (hrequest : ∀ output, s.outputInputMap output = (request output).entry)
include hrequest

private theorem fedFromBSide_iff (output : Fin 32) :
    s.fedFromBSide output = true ↔ FedFrom request true output := by
  cases hlane : request output with
  | none =>
    have hopen : s.outputInputMap output = -1 := by rw [hrequest, hlane, Lane.entry]
    simp [fedFromBSide, hopen, FedFrom, hlane]
  | some input =>
    have hentry : s.outputInputMap output = input.val := by rw [hrequest, hlane, Lane.entry]
    rw [fedFromBSide_of_entry hentry]
    simp [FedFrom, hlane]

private theorem switchesBSide_iff (k : Nat) :
    s.SwitchesBSide k ↔ ∃ output : Fin 32, output.val < k ∧ FedFrom request true output := by
  simp only [SwitchesBSide, fedFromBSide_iff hrequest]

private theorem entry_eq_iff {output : Fin 32} {input : Fin 16} (hlane : request output = some input)
    (earlier : Fin 32) :
    s.outputInputMap earlier = s.outputInputMap output ↔ request earlier = some input := by
  have hentry : s.outputInputMap output = input.val := by rw [hrequest, hlane, Lane.entry]
  rw [hentry, hrequest, Lane.entry_eq_input]

private theorem lanePasses_iff_not_blockedAt (ht : t.aSideMode = .analogInput) (output : Fin 32) :
    s.LanePasses t output ↔ ¬ BlockedAt t request output := by
  simp only [LanePasses]
  rw [fedFromBSide_iff hrequest, switchesBSide_iff hrequest]
  constructor
  · intro hpass hblocked
    obtain ⟨input, hlane, hmode, ⟨earlier, hlt, hused⟩, hfirst⟩ := hblocked
    cases hside : bSideLane input output with
    | false =>
      rw [hside] at hmode
      exact hmode ht
    | true =>
      rw [hside] at hmode hfirst
      rcases hpass ⟨input, hlane, hside⟩ with ⟨other, hother, hfed⟩ | hanalog | hfree
      · exact hfirst other hother hfed
      · exact hmode hanalog
      · exact hfree earlier hlt ((entry_eq_iff hrequest hlane earlier).mpr hused)
  · intro hpass hfed
    obtain ⟨input, hlane, hside⟩ := hfed
    by_contra hno
    simp only [not_or, not_forall, ne_eq, not_not] at hno
    obtain ⟨hnoswitch, hmode, earlier, hlt, hsame⟩ := hno
    refine hpass ⟨input, hlane, ?_, ⟨earlier, hlt, ?_⟩, ?_⟩
    · rw [hside]
      exact hmode
    · exact (entry_eq_iff hrequest hlane earlier).mp hsame
    · rw [hside]
      exact fun other hother hfed => hnoswitch ⟨other, hother, hfed⟩

private theorem partialCopy_of_applied (ht : t.aSideMode = .analogInput) {u : UBlock}
    (h : Applied t request 32 u) : u = s.partialCopy t 32 := by
  have hmap : u.outputInputMap = (s.partialCopy t 32).outputInputMap := by
    funext output
    rw [h.entries, ← hrequest]
    rfl
  have ha : u.aSideMode = .analogInput := by
    have hmode : u.aSideMode = if _ then .analogInput else t.aSideMode := h.modes false
    rw [hmode, ht, ite_self]
  have hb : u.bSideMode = (s.partialCopy t 32).bSideMode := by
    have hmode : u.bSideMode = if _ then .analogInput else t.bSideMode := h.modes true
    rw [hmode]
    exact if_congr (switchesBSide_iff hrequest 32).symm rfl rfl
  have href := h.refMagnitude
  cases u
  simp_all [partialCopy]

end Request

/-- Reading the written map either ends in the complete copy with every lane passed, or fails at
a lane that does not pass. -/
private theorem configOutputArray_written (s t : UBlock) (hs : s.ValidMap)
    (ht : t.aSideMode = .analogInput) :
    wp (configOutputArray (List.ofFn fun output => entryToJson (s.outputInputMap output)))
      (fun _ u => u = s.partialCopy t 32 ∧ ∀ output, s.LanePasses t output)
      (fun _ _ => ¬ ∀ output, s.LanePasses t output) t := by
  obtain ⟨request, hrequest⟩ := hs.exists_request
  have hjson : (fun output => entryToJson (s.outputInputMap output)) =
      fun output => (request output).toJson := by
    funext output
    rw [hrequest, entryToJson_entry]
  rw [hjson]
  refine wp_mono (configOutputArray_request t request) ?_ ?_
  · intro _ u hu
    refine ⟨partialCopy_of_applied hrequest ht hu, fun output => ?_⟩
    exact (lanePasses_iff_not_blockedAt hrequest ht output).mpr (hu.passed output output.isLt)
  · intro _ u hblocked hpass
    obtain ⟨output, hblocked⟩ := hblocked
    exact (lanePasses_iff_not_blockedAt hrequest ht output).mp (hpass output) hblocked

private theorem constantValue_written (parseNumber : String → ℚ) (s : UBlock)
    (hb : s.bSideMode = .posRef ∨ s.bSideMode = .negRef) :
    constantValue parseNumber (constantToJson s) =
      (if s.bSideMode = .posRef then 1 else -1) *
        (if s.refMagnitude = .oneTenth then tenth else 1) := by
  have hone : Json.toFloat 1 = 1 ∧ Json.toFloat (-1) = -1 := by decide +kernel
  have htenth : Json.toFloat tenth = tenth ∧ Json.toFloat (-tenth) = -tenth := by decide +kernel
  rcases hb with hb | hb <;> cases hr : s.refMagnitude <;>
    simp [constantToJson, hb, hr, constantValue, Json.isNull, Json.isBool, Json.asFloat, hone,
      htenth]

private theorem configConstants_reference (parseNumber : String → ℚ) (s u : UBlock)
    (hb : s.bSideMode = .posRef ∨ s.bSideMode = .negRef) :
    wp (configConstantsFromJson parseNumber (constantToJson s))
      (fun _ v => v = { u with bSideMode := s.bSideMode, refMagnitude := s.refMagnitude })
      (fun _ _ => False) u := by
  have hval := constantValue_written parseNumber s hb
  simp only [configConstantsFromJson, wp_bind, wp_modify, wp_ite, wp_throw]
  rcases hb with hb | hb <;> cases hr : s.refMagnitude <;>
    simp only [hb, hr, reduceCtorEq, if_true, if_false] at hval <;> rw [hval] <;>
    norm_num [hb, changeBSideTransmissionMode, changeReferenceMagnitude, tenth]

/-- Switching the constant off reaches the magnitude checks, and these refuse zero. -/
private theorem configConstants_off (parseNumber : String → ℚ) (s u : UBlock)
    (hb : s.bSideMode = .analogInput) :
    wp (configConstantsFromJson parseNumber (constantToJson s)) (fun _ _ => False)
      (fun _ _ => True) u := by
  have hval : constantValue parseNumber (constantToJson s) = 0 := by
    simp [constantToJson, hb, constantValue, Json.isNull, Json.isBool, Json.asBool]
  simp only [configConstantsFromJson, wp_bind, wp_modify, wp_ite, wp_throw, hval]
  norm_num [tenth]

/-- Feeding what `s` writes into `t` succeeds and copies map, B side mode and magnitude. -/
def RoundTrips (parseNumber : String → ℚ) (s t : UBlock) : Prop :=
  ∃ u, configSelfFromJson parseNumber s.configSelfToJson t = .ok ⟨⟩ u ∧
    u.outputInputMap = s.outputInputMap ∧ u.bSideMode = s.bSideMode ∧
    u.refMagnitude = s.refMagnitude

/-- Input 14 is wanted by a lane of each half, no lane below 16 switches the B side first, and
the receiving block still transmits a reference there. -/
def Obstructed (s t : UBlock) : Prop :=
  t.bSideMode ≠ .analogInput ∧
    (∀ output : Fin 32, output.val < 16 → s.outputInputMap output ≠ 15) ∧
    (∃ output : Fin 32, output.val < 16 ∧ s.outputInputMap output = 14) ∧
    (∃ output : Fin 32, 16 ≤ output.val ∧ s.outputInputMap output = 14)

private theorem lanePasses_iff (s t : UBlock) :
    (∀ output, s.LanePasses t output) ↔ ¬ s.Obstructed t := by
  constructor
  · intro hpass h
    obtain ⟨ht, hno15, ⟨low, hlow, hlow14⟩, hhigh⟩ := h
    obtain ⟨high, hmin⟩ : ∃ high : Fin 32, (16 ≤ high.val ∧ s.outputInputMap high = 14) ∧
        ∀ other : Fin 32, other.val < high.val →
          ¬ (16 ≤ other.val ∧ s.outputInputMap other = 14) := by
      obtain ⟨k, ⟨hk, hprop⟩, hleast⟩ :
          ∃ k, (∃ hk : k < 32, 16 ≤ k ∧ s.outputInputMap ⟨k, hk⟩ = 14) ∧
            ∀ j < k, ¬ ∃ hj : j < 32, 16 ≤ j ∧ s.outputInputMap ⟨j, hj⟩ = 14 := by
        have hex : ∃ k, ∃ hk : k < 32, 16 ≤ k ∧ s.outputInputMap ⟨k, hk⟩ = 14 :=
          hhigh.elim fun o ho => ⟨o.val, o.isLt, ho⟩
        exact ⟨Nat.find hex, Nat.find_spec hex, fun j hj => Nat.find_min hex hj⟩
      exact ⟨⟨k, hk⟩, hprop, fun other hlt h => hleast other.val hlt ⟨other.isLt, h⟩⟩
    obtain ⟨⟨hge, h14⟩, hleast⟩ := hmin
    have hfed : s.fedFromBSide high = true := by
      simp [fedFromBSide, Nat.not_lt.mpr hge, h14]
    rcases hpass high hfed with ⟨other, hlt, hother⟩ | h | h
    · by_cases hlow : other.val < 16
      · exact hno15 other hlow (by simpa [fedFromBSide, hlow] using hother)
      · exact hleast other hlt ⟨by omega, by simpa [fedFromBSide, hlow] using hother⟩
    · exact ht h
    · exact h low (by omega) (by rw [hlow14, h14])
  · intro hclear output hfed
    by_contra hno
    simp only [not_or, not_forall, ne_eq, not_not] at hno
    obtain ⟨hnoswitch, ht, earlier, hlt, hsame⟩ := hno
    have hswitch (other : Fin 32) (h : other.val < output.val) : s.fedFromBSide other = false := by
      by_contra hside
      exact hnoswitch ⟨other, h, by simpa using hside⟩
    by_cases hlow : output.val < 16
    · have h15 : s.outputInputMap output = 15 := by simpa [fedFromBSide, hlow] using hfed
      have := hswitch earlier hlt
      simp [fedFromBSide, hlt.trans hlow, hsame, h15] at this
    · have h14 : s.outputInputMap output = 14 := by simpa [fedFromBSide, hlow] using hfed
      have hearly : earlier.val < 16 := by
        by_contra hge
        have := hswitch earlier hlt
        simp [fedFromBSide, hge, hsame, h14] at this
      refine hclear ⟨ht, ?_, ⟨earlier, hearly, hsame.trans h14⟩, ⟨output, by omega, h14⟩⟩
      intro other hother h15
      have := hswitch other (by omega)
      simp [fedFromBSide, hother, h15] at this

private theorem configSelf_written (parseNumber : String → ℚ) (s t : UBlock)
    (Q : PUnit → UBlock → Prop) (E : ConfigError → UBlock → Prop) :
    wp (configSelfFromJson parseNumber s.configSelfToJson) Q E t =
      wp (configOutputArray (List.ofFn fun output => entryToJson (s.outputInputMap output)))
        (fun _ => wp (configConstantsFromJson parseNumber (constantToJson s)) Q E) E t := by
  simp only [configSelfFromJson, configSelfToJson, List.forM_cons, List.forM_nil, wp_bind,
    if_true, configOutputsFromJson, String.reduceEq, if_false]
  congr 1
  funext _ u
  rw [wp_bind]
  rfl

private theorem partialCopy_complete (s t : UBlock) :
    (s.partialCopy t 32).outputInputMap = s.outputInputMap := by
  funext output
  simp [partialCopy]

private theorem roundTrips_of_reference (parseNumber : String → ℚ) {s t : UBlock}
    (hs : s.ValidMap) (ht : t.aSideMode = .analogInput)
    (hb : s.bSideMode = .posRef ∨ s.bSideMode = .negRef) :
    s.RoundTrips parseNumber t ↔ ¬ s.Obstructed t := by
  have hrun : wp (configSelfFromJson parseNumber s.configSelfToJson)
      (fun _ u => u = { s.partialCopy t 32 with
        bSideMode := s.bSideMode, refMagnitude := s.refMagnitude } ∧ ¬ s.Obstructed t)
      (fun _ _ => s.Obstructed t) t := by
    rw [configSelf_written]
    refine wp_mono (configOutputArray_written s t hs ht) ?_ ?_
    · intro _ u h
      obtain ⟨rfl, hpass⟩ := h
      refine wp_mono (configConstants_reference parseNumber s _ hb) ?_ (fun _ _ h => h.elim)
      intro _ v heq
      subst heq
      exact ⟨rfl, (lanePasses_iff s t).mp hpass⟩
    · intro _ _ hfail
      exact not_not.mp fun hclear => hfail ((lanePasses_iff s t).mpr hclear)
  simp only [wp] at hrun
  constructor
  · intro h
    obtain ⟨u, hok, -⟩ := h
    rw [hok] at hrun
    exact hrun.2
  · intro hclear
    cases hres : configSelfFromJson parseNumber s.configSelfToJson t with
    | ok a u =>
      rw [hres] at hrun
      exact ⟨u, hres, by rw [hrun.1]; exact partialCopy_complete s t, by rw [hrun.1],
        by rw [hrun.1]⟩
    | error e u =>
      rw [hres] at hrun
      exact absurd hrun hclear

private theorem not_roundTrips_of_analog (parseNumber : String → ℚ) {s t : UBlock}
    (hs : s.ValidMap) (ht : t.aSideMode = .analogInput) (hb : s.bSideMode = .analogInput) :
    ¬ s.RoundTrips parseNumber t := by
  have hrun : wp (configSelfFromJson parseNumber s.configSelfToJson) (fun _ _ => False)
      (fun _ _ => True) t := by
    rw [configSelf_written]
    exact wp_mono (configOutputArray_written s t hs ht)
      (fun _ u _ => configConstants_off parseNumber s u hb) (fun _ _ _ => trivial)
  intro h
  obtain ⟨u, hok, -⟩ := h
  simp only [wp] at hrun
  rw [hok] at hrun
  exact hrun

/-- Reading back a written configuration succeeds and restores it exactly when the written B
side transmits a reference and the receiving block does not obstruct input 14. -/
theorem roundTrips_iff (parseNumber : String → ℚ) (s t : UBlock) (hs : s.ValidMap)
    (hb : (s.bSideMode = .analogInput ∧ s.refMagnitude = .one) ∨ s.bSideMode = .posRef ∨
      s.bSideMode = .negRef)
    (ht : t.aSideMode = .analogInput) :
    s.RoundTrips parseNumber t ↔ s.bSideMode ≠ .analogInput ∧ ¬ s.Obstructed t := by
  rcases hb with ⟨hanalog, -⟩ | href
  · constructor
    · intro h
      exact absurd h (not_roundTrips_of_analog parseNumber hs ht hanalog)
    · intro h
      obtain ⟨hne, -⟩ := h
      exact absurd hanalog hne
  · have hne : s.bSideMode ≠ .analogInput := by
      rcases href with h | h <;> rw [h] <;> decide
    rw [roundTrips_of_reference parseNumber hs ht href]
    exact ⟨fun h => ⟨hne, h⟩, fun h => h.2⟩

/-- A block that transmits a reference, with lanes of both halves at input 14 and one at input 15. -/
def referenceLanes : UBlock where
  outputInputMap output :=
    if output.val = 3 ∨ output.val = 20 then 14
    else if output.val = 5 then 15
    else if output.val = 31 then 2
    else -1
  refMagnitude := .oneTenth
  aSideMode := .analogInput
  bSideMode := .posRef

/-- The lane at input 15 makes room for the others in a block that still transmits a reference. -/
theorem roundTrips_iff_posRef :
    referenceLanes.RoundTrips (fun _ => 0) { initial with bSideMode := .negRef } :=
  (roundTrips_iff (fun _ => 0) referenceLanes { initial with bSideMode := .negRef }
    (by unfold ValidMap; decide) (Or.inr (Or.inl rfl)) rfl).mpr
    ⟨by decide, fun hobstructed => hobstructed.2.1 5 (by decide) (by decide)⟩

/-- A fresh block writes a configuration that a fresh block refuses. -/
theorem initial_not_roundTrips :
    initial.ValidMap ∧ initial.aSideMode = .analogInput ∧ initial.bSideMode = .analogInput ∧
      initial.refMagnitude = .one ∧ ¬ initial.RoundTrips (fun _ => 0) initial :=
  ⟨validMap_open fun _ => rfl, rfl, rfl, rfl,
    not_roundTrips_of_analog (fun _ => 0) (validMap_open fun _ => rfl) rfl rfl⟩

end Lucidac.UBlock
