import Lucidac.Block.UBlockConnect

/-!
# Requested outputs of the U block

A configuration names the input of every output, or of some outputs only.  The array form is
refused exactly when the first lane of a side that does not transmit the block inputs takes an
input of an earlier output.  The object form clears the named outputs first, so on a block whose
sides transmit the block inputs it reaches every request, in whatever order the outputs stand.
-/

namespace Lucidac.UBlock

open Framework

/-- What a configuration asks of one output: an input, or nothing. -/
abbrev Lane : Type := Option (Fin 16)

namespace Lane

def toJson : Lane → Json
  | none => .null
  | some input => .integer input.val

def entry : Lane → Int
  | none => -1
  | some input => input.val

theorem isNull_toJson (lane : Lane) : lane.toJson.isNull = lane.isNone := by
  cases lane <;> rfl

theorem isUInt8_toJson (input : Fin 16) : (toJson (some input)).isUInt8 = true :=
  Json.isUInt8_natCast (by omega)

theorem asUInt8_toJson (input : Fin 16) : (toJson (some input)).asUInt8 = input.val :=
  Json.asUInt8_natCast (by omega)

theorem entry_eq_input (lane : Lane) (input : Fin 16) :
    lane.entry = input.val ↔ lane = some input := by
  cases lane with
  | none =>
    simp only [entry, reduceCtorEq]
  | some other =>
    simp only [entry, Option.some.injEq, Fin.ext_iff]
    omega

end Lane

def sideMode (s : UBlock) (bSide : Bool) : TransmissionMode :=
  if bSide then s.bSideMode else s.aSideMode

theorem laneMode_eq_sideMode (s : UBlock) (input output : Nat) :
    s.laneMode input output = s.sideMode (bSideLane input output) := rfl

theorem sideMode_withLane (s : UBlock) (input : Nat) (output : Fin 32) (bSide other : Bool)
    (mode : TransmissionMode) :
    (s.withLane input output bSide mode).sideMode other =
      if bSide = other then mode else s.sideMode other := by
  cases bSide <;> cases other <;> simp [sideMode, withLane]

/-- A lane that carries its block input: the side that feeds it transmits the block inputs. -/
theorem signal_of_sideMode {s : UBlock} {output : Fin 32} {input : Nat}
    (hentry : s.outputInputMap output = input)
    (hmode : s.sideMode (bSideLane input output) = .analogInput) :
    s.signal output = .blockInput input := by
  have hfeeding : s.feedingMode output = .analogInput := by
    rw [← hmode, feedingMode, fedFromBSide_of_entry hentry]
    rfl
  simp only [signal]
  rw [hfeeding, hentry]

section ArrayForm

variable (t : UBlock) (request : Fin 32 → Lane)

def requestToJson : Json := .array (List.ofFn fun output => (request output).toJson)

/-- Configuring the outputs with the array succeeds, copies it into the map and lets every
connected lane carry its block input. -/
def AppliesArray : Prop :=
  ∃ u, configOutputsFromJson (requestToJson request) t = .ok ⟨⟩ u ∧
    (∀ output, u.outputInputMap output = (request output).entry) ∧
    ∀ output input, request output = some input → u.signal output = .blockInput input.val

def FedFrom (bSide : Bool) (output : Fin 32) : Prop :=
  ∃ input, request output = some input ∧ bSideLane input output = bSide

instance (bSide : Bool) (output : Fin 32) : Decidable (FedFrom request bSide output) :=
  inferInstanceAs (Decidable (∃ input, request output = some input ∧ bSideLane input output = bSide))

/-- The lane is the first of a side that does not transmit the block inputs, and its input is
taken by an earlier output. -/
def BlockedAt (output : Fin 32) : Prop :=
  ∃ input, request output = some input ∧ t.sideMode (bSideLane input output) ≠ .analogInput ∧
    (∃ earlier < output, request earlier = some input) ∧
    ∀ earlier < output, ¬ FedFrom request (bSideLane input output) earlier

def Blocked : Prop := ∃ output, BlockedAt t request output

structure Applied (k : Nat) (u : UBlock) : Prop where
  entries : ∀ output : Fin 32,
    u.outputInputMap output = if output.val < k then (request output).entry else -1
  modes : ∀ bSide, u.sideMode bSide =
    if ∃ output : Fin 32, output.val < k ∧ FedFrom request bSide output then .analogInput
    else t.sideMode bSide
  refMagnitude : u.refMagnitude = t.refMagnitude
  passed : ∀ output : Fin 32, output.val < k → ¬ BlockedAt t request output

variable {t request}

theorem Applied.usesInput_iff {k : Nat} {u : UBlock} (h : Applied t request k u) (input : Fin 16) :
    u.UsesInput input ↔ ∃ earlier : Fin 32, earlier.val < k ∧ request earlier = some input := by
  constructor
  · intro huses
    obtain ⟨output, hentry⟩ := huses
    rw [h.entries] at hentry
    split at hentry
    · exact ⟨output, ‹_›, (Lane.entry_eq_input _ _).mp hentry⟩
    · omega
  · intro hearlier
    obtain ⟨earlier, hlt, hrequest⟩ := hearlier
    refine ⟨earlier, ?_⟩
    rw [h.entries, if_pos hlt]
    exact (Lane.entry_eq_input _ _).mpr hrequest

/-- In the block reached so far `connect` refuses exactly a blocked lane. -/
theorem Applied.connectAllowed_iff {k : Nat} {u : UBlock} (hk : k < 32)
    (h : Applied t request k u) {input : Fin 16} (hrequest : request ⟨k, hk⟩ = some input) :
    u.ConnectAllowed input ⟨k, hk⟩ false ↔ ¬ BlockedAt t request ⟨k, hk⟩ := by
  have hopen : u.outputInputMap ⟨k, hk⟩ < 0 := by
    rw [h.entries, if_neg (Nat.lt_irrefl k)]
    decide
  have hblocked : BlockedAt t request ⟨k, hk⟩ ↔
      u.laneMode input k ≠ .analogInput ∧ u.UsesInput input := by
    rw [h.usesInput_iff, laneMode_eq_sideMode, h.modes]
    constructor
    · intro hblocked
      obtain ⟨other, hother, hmode, ⟨earlier, hlt, hused⟩, hfirst⟩ := hblocked
      obtain rfl : other = input := Option.some.inj (hother.symm.trans hrequest)
      refine ⟨?_, earlier, hlt, hused⟩
      rw [if_neg fun ⟨output, hlt, hfed⟩ => hfirst output hlt hfed]
      exact hmode
    · intro hrefused
      obtain ⟨hmode, earlier, hlt, hused⟩ := hrefused
      have hnone : ¬ ∃ output : Fin 32, output.val < k ∧
          FedFrom request (bSideLane input k) output := by
        intro hfed
        rw [if_pos hfed] at hmode
        exact hmode rfl
      rw [if_neg hnone] at hmode
      exact ⟨input, hrequest, hmode, ⟨earlier, hlt, hused⟩,
        fun output hlt hfed => hnone ⟨output, hlt, hfed⟩⟩
  rw [hblocked]
  simp only [ConnectAllowed, input.isLt, hopen, true_and, forall_const]
  tauto

private theorem lt_succ_iff_fin {k : Nat} (hk : k < 32) (output : Fin 32) :
    output.val < k + 1 ↔ output.val < k ∨ output = ⟨k, hk⟩ := by
  rw [Fin.ext_iff]
  exact Nat.lt_succ_iff_lt_or_eq

private theorem passed_succ {k : Nat} {u : UBlock} (hk : k < 32) (h : Applied t request k u)
    (hpass : ¬ BlockedAt t request ⟨k, hk⟩) (output : Fin 32) (hlt : output.val < k + 1) :
    ¬ BlockedAt t request output := by
  rcases (lt_succ_iff_fin hk output).mp hlt with h' | rfl
  · exact h.passed output h'
  · exact hpass

theorem Applied.skip {k : Nat} {u : UBlock} (hk : k < 32) (h : Applied t request k u)
    (hrequest : request ⟨k, hk⟩ = none) : Applied t request (k + 1) u where
  entries output := by
    rw [h.entries]
    by_cases hout : output = ⟨k, hk⟩
    · subst hout
      simp [hrequest, Lane.entry]
    · exact if_congr (by rw [lt_succ_iff_fin hk]; simp [hout]) rfl rfl
  modes bSide := by
    have hfed : ¬ FedFrom request bSide ⟨k, hk⟩ := by
      intro hfed
      obtain ⟨input, hsome, -⟩ := hfed
      rw [hrequest] at hsome
      cases hsome
    rw [h.modes]
    refine if_congr ⟨?_, ?_⟩ rfl rfl
    · intro ⟨output, hlt, hside⟩
      exact ⟨output, by omega, hside⟩
    · intro ⟨output, hlt, hside⟩
      rcases (lt_succ_iff_fin hk output).mp hlt with hlt | rfl
      · exact ⟨output, hlt, hside⟩
      · exact absurd hside hfed
  refMagnitude := h.refMagnitude
  passed := by
    apply passed_succ hk h
    intro hblocked
    obtain ⟨input, hsome, -⟩ := hblocked
    rw [hrequest] at hsome
    cases hsome

theorem Applied.lane {k : Nat} {u : UBlock} (hk : k < 32) (h : Applied t request k u)
    {input : Fin 16} (hrequest : request ⟨k, hk⟩ = some input)
    (hpass : ¬ BlockedAt t request ⟨k, hk⟩) :
    Applied t request (k + 1) (u.withLane input ⟨k, hk⟩ (bSideLane input k) .analogInput) where
  entries output := by
    by_cases hout : output = ⟨k, hk⟩
    · subst hout
      rw [withLane_entry, if_pos (Nat.lt_succ_self k), hrequest]
      rfl
    · rw [withLane_other _ _ _ _ hout, h.entries]
      exact if_congr (by rw [lt_succ_iff_fin hk]; simp [hout]) rfl rfl
  modes bSide := by
    rw [sideMode_withLane, h.modes]
    have hfed : FedFrom request bSide ⟨k, hk⟩ ↔ bSideLane input k = bSide := by
      constructor
      · intro ⟨other, hother, hside⟩
        obtain rfl : other = input := Option.some.inj (hother.symm.trans hrequest)
        exact hside
      · intro hside
        exact ⟨input, hrequest, hside⟩
    have hmore : (∃ output : Fin 32, output.val < k + 1 ∧ FedFrom request bSide output) ↔
        bSideLane input k = bSide ∨
          ∃ output : Fin 32, output.val < k ∧ FedFrom request bSide output := by
      constructor
      · intro ⟨output, hlt, hside⟩
        rcases (lt_succ_iff_fin hk output).mp hlt with hlt | rfl
        · exact Or.inr ⟨output, hlt, hside⟩
        · exact Or.inl (hfed.mp hside)
      · intro hcases
        rcases hcases with hside | ⟨output, hlt, hside⟩
        · exact ⟨⟨k, hk⟩, Nat.lt_succ_self k, hfed.mpr hside⟩
        · exact ⟨output, by omega, hside⟩
    by_cases hside : bSideLane input k = bSide
    · rw [if_pos hside, if_pos (hmore.mpr (Or.inl hside))]
    · rw [if_neg hside]
      exact if_congr (by rw [hmore]; simp [hside]) rfl rfl
  refMagnitude := h.refMagnitude
  passed := passed_succ hk h hpass

/-- Reading the array either applies it completely, with no lane blocked, or ends at a blocked
lane. -/
theorem configOutputArray_request (t : UBlock) (request : Fin 32 → Lane) :
    wp (configOutputArray (List.ofFn fun output => (request output).toJson))
      (fun _ u => Applied t request 32 u) (fun _ _ => Blocked t request) t := by
  have hstart : Applied t request 0 t.resetConnections :=
    ⟨fun _ => rfl, fun bSide => by simp [sideMode, resetConnections], rfl, by simp⟩
  simp only [configOutputArray, wp_bind, wp_require, List.length_ofFn, numOfOutputs,
    beq_self_eq_true, if_true, wp_modify]
  apply wp_forM_zipIdx (fun k u => Applied t request k u) hstart
  intro k hk u hu
  cases hrequest : request ⟨k, hk⟩ with
  | none =>
    simp only [Lane.isNull_toJson, Option.isNone_none, if_true, wp_pure]
    exact hu.skip hk hrequest
  | some input =>
    simp only [Lane.isNull_toJson, Option.isNone_some, Bool.false_eq_true, if_false, wp_bind,
      wp_require, Lane.isUInt8_toJson, if_true, wp_attempt, Lane.asUInt8_toJson]
    have heq := connect_eq u input ⟨k, hk⟩ false
    have hallowed := hu.connectAllowed_iff hk hrequest
    simp only at heq
    rw [heq]
    by_cases hblocked : BlockedAt t request ⟨k, hk⟩
    · rw [if_neg fun h => hallowed.mp h hblocked]
      exact ⟨_, hblocked⟩
    · rw [if_pos (hallowed.mpr hblocked)]
      exact hu.lane hk hrequest hblocked

theorem Applied.signal_of_request {u : UBlock} (h : Applied t request 32 u) {output : Fin 32}
    {input : Fin 16} (hrequest : request output = some input) :
    u.signal output = .blockInput input.val := by
  apply signal_of_sideMode
  · rw [h.entries, if_pos output.isLt, hrequest]
    rfl
  · rw [h.modes, if_pos ⟨output, output.isLt, input, hrequest, rfl⟩]

theorem not_appliesArray_of_blocked (h : Blocked t request) : ¬ AppliesArray t request := by
  obtain ⟨output, hblocked⟩ := h
  intro happlies
  obtain ⟨u, hok, -⟩ := happlies
  have hrun := configOutputArray_request t request
  simp only [wp] at hrun
  rw [requestToJson, configOutputsFromJson] at hok
  rw [hok] at hrun
  exact hrun.passed output output.isLt hblocked

theorem appliesArray_of_not_blocked (h : ¬ Blocked t request) : AppliesArray t request := by
  have hrun := configOutputArray_request t request
  simp only [wp] at hrun
  simp only [AppliesArray, requestToJson, configOutputsFromJson]
  cases hres : configOutputArray (List.ofFn fun output => (request output).toJson) t with
  | ok a u =>
    rw [hres] at hrun
    refine ⟨u, rfl, fun output => ?_, fun output input hrequest => hrun.signal_of_request hrequest⟩
    rw [hrun.entries, if_pos output.isLt]
  | error e u =>
    rw [hres] at hrun
    exact absurd hrun h

/-- Configuring all outputs works exactly when no side that does not transmit the block inputs
starts with a lane whose input an earlier output takes. -/
theorem appliesArray_iff (t : UBlock) (request : Fin 32 → Lane) :
    AppliesArray t request ↔ ¬ Blocked t request :=
  ⟨fun happlies hblocked => not_appliesArray_of_blocked hblocked happlies,
    appliesArray_of_not_blocked⟩

/-- Input 14 on one output of each half, while the B side transmits a reference. -/
theorem not_appliesArray_of_shared_input :
    ¬ AppliesArray { initial with bSideMode := .posRef }
      (fun output => if output.val % 16 = 0 then some 14 else none) := by
  apply not_appliesArray_of_blocked
  refine ⟨16, 14, rfl, by decide, ⟨0, by decide, rfl⟩, ?_⟩
  decide

/-- A blocked lane shares input 14 of the B side, or input 15 of the A side, with an output of
the lower half. -/
theorem BlockedAt.shared_input {output : Fin 32} (h : BlockedAt t request output) :
    16 ≤ output.val ∧ (∃ earlier : Fin 32, earlier.val < 16 ∧ request earlier = request output) ∧
      (request output = some 14 ∨ request output = some 15) := by
  obtain ⟨input, hrequest, -, ⟨earlier, hlt, hused⟩, hfirst⟩ := h
  have hside : bSideLane input earlier ≠ bSideLane input output := by
    intro heq
    exact hfirst earlier hlt ⟨input, hused, heq⟩
  have hval : earlier.val < output.val := hlt
  have hhalves : earlier.val < 16 ∧ 16 ≤ output.val ∧ (input.val = 14 ∨ input.val = 15) := by
    by_contra hno
    apply hside
    simp only [bSideLane]
    rw [Bool.eq_iff_iff]
    simp only [Bool.or_eq_true, Bool.and_eq_true, decide_eq_true_eq, beq_iff_eq]
    omega
  obtain ⟨hlow, hhigh, hinput⟩ := hhalves
  refine ⟨hhigh, ⟨earlier, hlow, hused.trans hrequest.symm⟩, ?_⟩
  rw [hrequest, Option.some.injEq, Option.some.injEq, Fin.ext_iff, Fin.ext_iff]
  exact hinput

end ArrayForm

section ObjectForm

/-- One member of the object form: a numeral of an output, and its lane. -/
structure OutputRequest where
  key : IndexKey 32
  lane : Lane

namespace OutputRequest

def output (r : OutputRequest) : Fin 32 := r.key.index

theorem output_mod (r : OutputRequest) : r.key.index.val % 256 = r.output.val :=
  r.key.index_mod (by decide)

def toMember (r : OutputRequest) : String × Json := (r.key.text, r.lane.toJson)

end OutputRequest

variable (s : UBlock) (requests : List OutputRequest)

/-- Configuring the named outputs succeeds, and changes these and nothing else. -/
def AppliesObject : Prop :=
  ∃ u, configOutputsFromJson (.object (requests.map OutputRequest.toMember)) s = .ok ⟨⟩ u ∧
    (∀ r ∈ requests, u.outputInputMap r.output = r.lane.entry) ∧
    (∀ output, (∀ r ∈ requests, r.output ≠ output) →
      u.outputInputMap output = s.outputInputMap output) ∧
    u.aSideMode = s.aSideMode ∧ u.bSideMode = s.bSideMode ∧ u.refMagnitude = s.refMagnitude

/-- The block after the outputs in `cleared` are open and those in `done` are connected. -/
structure PartlyApplied (cleared done : List OutputRequest) (u : UBlock) : Prop where
  connected : ∀ r ∈ done, u.outputInputMap r.output = r.lane.entry
  opened : ∀ r ∈ cleared, (∀ d ∈ done, d.output ≠ r.output) → u.outputInputMap r.output = -1
  others : ∀ output, (∀ r ∈ requests, r.output ≠ output) →
    u.outputInputMap output = s.outputInputMap output
  aSideMode : u.aSideMode = s.aSideMode
  bSideMode : u.bSideMode = s.bSideMode
  refMagnitude : u.refMagnitude = s.refMagnitude

variable {s requests}

theorem PartlyApplied.disconnect {cleared : List OutputRequest} {u : UBlock}
    (h : PartlyApplied s requests cleared [] u) {r : OutputRequest} (hr : r ∈ requests) :
    PartlyApplied s requests (cleared ++ [r]) [] (u.disconnect r.output).2 := by
  rw [UBlock.disconnect, dif_pos r.output.isLt]
  refine ⟨by simp, ?_, ?_, h.aSideMode, h.bSideMode, h.refMagnitude⟩
  · intro d hd _
    by_cases heq : d.output = r.output
    · simp [disconnectUnchecked, heq]
    · rw [List.mem_append, List.mem_singleton] at hd
      rcases hd with hd | rfl
      · simpa [disconnectUnchecked, heq] using h.opened d hd (by simp)
      · exact absurd rfl heq
  · intro output hother
    have hne : output ≠ r.output := fun he => hother r hr he.symm
    simpa [disconnectUnchecked, hne] using h.others output hother

theorem PartlyApplied.connect {done : List OutputRequest} {u : UBlock} (ha : s.aSideMode = .analogInput)
    (hb : s.bSideMode = .analogInput) (h : PartlyApplied s requests requests done u)
    {r : OutputRequest} (hr : r ∈ requests) (hnew : ∀ d ∈ done, d.output ≠ r.output)
    {input : Fin 16} (hlane : r.lane = some input) :
    ∃ v, u.connect input r.output false = (true, v) ∧
      PartlyApplied s requests requests (done ++ [r]) v := by
  have hopen : u.outputInputMap r.output = -1 := h.opened r hr hnew
  have hmode : u.laneMode input r.output = .analogInput := by
    rw [laneMode, h.aSideMode, h.bSideMode, ha, hb, ite_self]
  have hallowed : u.ConnectAllowed input r.output false :=
    ⟨input.isLt, fun _ => ⟨by rw [hopen]; decide, fun hne => absurd hmode hne⟩⟩
  have hconnect := connect_eq u input r.output false
  rw [if_pos hallowed] at hconnect
  refine ⟨_, hconnect, ?_, ?_, ?_, ?_, ?_, h.refMagnitude⟩
  · intro d hd
    rw [List.mem_append, List.mem_singleton] at hd
    rcases hd with hd | rfl
    · rw [withLane_other _ _ _ _ (hnew d hd)]
      exact h.connected d hd
    · rw [withLane_entry, hlane]
      rfl
  · intro d hd hother
    rw [withLane_other _ _ _ _ fun he => hother r (by simp) he.symm]
    exact h.opened d hd fun c hc => hother c (List.mem_append_left _ hc)
  · intro output hother
    rw [withLane_other _ _ _ _ fun he => hother r hr he.symm]
    exact h.others output hother
  · simp only [withLane]
    rw [h.aSideMode, ha, ite_self]
  · simp only [withLane]
    rw [h.bSideMode, hb, ite_self]

theorem PartlyApplied.skip {done : List OutputRequest} {u : UBlock}
    (h : PartlyApplied s requests requests done u) {r : OutputRequest} (hr : r ∈ requests)
    (hnew : ∀ d ∈ done, d.output ≠ r.output) (hlane : r.lane = none) :
    PartlyApplied s requests requests (done ++ [r]) u where
  connected d hd := by
    rw [List.mem_append, List.mem_singleton] at hd
    rcases hd with hd | rfl
    · exact h.connected d hd
    · rw [hlane]
      exact h.opened d hr hnew
  opened d hd hother := h.opened d hd fun c hc => hother c (List.mem_append_left _ hc)
  others := h.others
  aSideMode := h.aSideMode
  bSideMode := h.bSideMode
  refMagnitude := h.refMagnitude

theorem partlyApplied_nil : PartlyApplied s requests [] [] s :=
  ⟨by simp, by simp, fun _ _ => rfl, rfl, rfl, rfl⟩

/-- Each of the two passes over the members keeps its part of the block. -/
theorem configOutputObject_request (ha : s.aSideMode = .analogInput)
    (hb : s.bSideMode = .analogInput) (hdistinct : (requests.map OutputRequest.output).Nodup) :
    wp (configOutputObject (requests.map OutputRequest.toMember))
      (fun _ u => PartlyApplied s requests requests requests u) (fun _ _ => False) s := by
  simp only [configOutputObject, List.forM_map, wp_bind]
  refine wp_mono (wp_forM (fun cleared u => PartlyApplied s requests cleared [] u) requests
    partlyApplied_nil ?_) ?_ (fun _ _ h => h)
  · intro cleared r rest u hlist hu
    have hr : r ∈ requests := by simp [hlist]
    have hnumber : (r.lane.toJson.isUInt8 || r.lane.toJson.isNull) = true := by
      cases r.lane with
      | none => rfl
      | some input => rw [Lane.isUInt8_toJson, Bool.true_or]
    simp only [OutputRequest.toMember, wp_bind, wp_require, hnumber, if_true,
      r.key.readIndex_text (by decide), wp_pure, wp_modify, r.output_mod]
    exact hu.disconnect hr
  · intro _ u hu
    apply wp_forM (fun done v => PartlyApplied s requests requests done v) requests hu
    intro done r rest v hlist hv
    have hr : r ∈ requests := by simp [hlist]
    have hnew (d : OutputRequest) (hd : d ∈ done) : d.output ≠ r.output :=
      ne_of_nodup_map (hlist ▸ hdistinct) hd
    simp only [OutputRequest.toMember, wp_bind, r.key.readIndex_text (by decide), wp_pure,
      Lane.isNull_toJson, wp_ite]
    cases hlane : r.lane with
    | none => exact hv.skip hr hnew hlane
    | some input =>
      obtain ⟨w, hconnect, hw⟩ := hv.connect ha hb hr hnew hlane
      simp only [Option.isNone_some, Bool.false_eq_true, if_false, wp_attempt, r.output_mod,
        Lane.asUInt8_toJson]
      rw [hconnect]
      exact hw

/-- On a block whose sides transmit the block inputs, the named outputs take their lanes, in
whatever order they stand and whatever they exchange. -/
theorem appliesObject_of_analog (s : UBlock) (requests : List OutputRequest)
    (ha : s.aSideMode = .analogInput) (hb : s.bSideMode = .analogInput)
    (hdistinct : (requests.map OutputRequest.output).Nodup) : AppliesObject s requests := by
  have hrun := configOutputObject_request ha hb hdistinct
  simp only [wp] at hrun
  simp only [AppliesObject, configOutputsFromJson]
  cases hres : configOutputObject (requests.map OutputRequest.toMember) s with
  | ok a u =>
    rw [hres] at hrun
    exact ⟨u, rfl, hrun.connected, hrun.others, hrun.aSideMode, hrun.bSideMode, hrun.refMagnitude⟩
  | error e u =>
    rw [hres] at hrun
    exact hrun.elim

theorem appliesObject_of_exchange :
    AppliesObject { initial with outputInputMap := fun output =>
        if output = 3 then 1 else if output = 5 then 2 else -1 }
      [⟨⟨"5", 5, by decide +kernel, by decide +kernel, by decide +kernel⟩, some 1⟩,
        ⟨⟨"3", 3, by decide +kernel, by decide +kernel, by decide +kernel⟩, some 2⟩] := by
  apply appliesObject_of_analog
  · rfl
  · rfl
  · simp [OutputRequest.output]

end ObjectForm

end Lucidac.UBlock
