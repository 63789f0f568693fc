import Lucidac.Block.IBlockConnect
import Lucidac.Block.UBlockReachable
import Lucidac.Carrier.Cluster

/-!
# Routes through a cluster

A route takes one lane through the U, C and I block.  A coefficient of magnitude above one is
stored as its tenth and the lane is scaled up by ten.  The steps run one after the other, and a
step that fails ends the call where it is: nothing that was stored before is taken back.
-/

namespace Lucidac

namespace Cluster

def reset (s : Cluster) (action : ResetAction) : Cluster :=
  { s with
    ublock := s.ublock.reset action
    cblock := s.cblock.reset action
    iblock := s.iblock.reset action
    shblock := s.shblock.reset action }

/-- The coefficient that reaches the C block. -/
def laneFactor (cFactor : ℚ) : ℚ := if 1 < |cFactor| then cFactor * (1 / 10) else cFactor

/-- The common body of `route` and `add_constant`; `feed` is the step in the U block. -/
def routeLane (s : Cluster) (feed : UBlock → Bool × UBlock) (uOut : Nat) (cFactor : ℚ)
    (iOut : Nat) : Bool × Cluster :=
  let s₁ := { s with iblock := (s.iblock.setUpscaling uOut (decide (1 < |cFactor|))).2 }
  let s₂ := { s₁ with ublock := (feed s₁.ublock).2 }
  if (feed s₁.ublock).1 then
    let s₃ := { s₂ with cblock := (s₂.cblock.setFactor uOut (laneFactor cFactor)).2 }
    if (s₂.cblock.setFactor uOut (laneFactor cFactor)).1 then
      let s₄ := { s₃ with iblock := (s₃.iblock.connect uOut iOut false false).2 }
      if (s₃.iblock.connect uOut iOut false false).1 then (true, s₄) else (false, s₄)
    else (false, s₃)
  else (false, s₂)

def route (s : Cluster) (uIn uOut : Nat) (cFactor : ℚ) (iOut : Nat) : Bool × Cluster :=
  s.routeLane (fun u => u.connect uIn uOut false) uOut cFactor iOut

def addConstant (s : Cluster) (signalType : TransmissionMode) (uOut : Nat) (cFactor : ℚ)
    (iOut : Nat) : Bool × Cluster :=
  s.routeLane (fun u => u.connectAlternative signalType uOut false false) uOut cFactor iOut

/-- `route_out_external` neither scales nor reaches the I block. -/
def routeOutExternal (s : Cluster) (uIn out : Nat) (cFactor : ℚ) : Bool × Cluster :=
  if 7 < out then (false, s)
  else
    let s₁ := { s with ublock := (s.ublock.connect uIn (out + 24) false).2 }
    if (s.ublock.connect uIn (out + 24) false).1 then
      ((s₁.cblock.setFactor (out + 24) cFactor).1,
        { s₁ with cblock := (s₁.cblock.setFactor (out + 24) cFactor).2 })
    else (false, s₁)

end Cluster

/-- What a lane is asked to carry. -/
inductive LaneSource where
  | input (uIn : Nat)
  | constant (signalType : TransmissionMode)

structure RouteCall where
  source : LaneSource
  uOut : Nat
  cFactor : ℚ
  iOut : Nat

namespace RouteCall

def feed (call : RouteCall) (u : UBlock) : Bool × UBlock :=
  match call.source with
  | .input uIn => u.connect uIn call.uOut false
  | .constant signalType => u.connectAlternative signalType call.uOut false false

def apply (s : Cluster) (call : RouteCall) : Bool × Cluster :=
  match call.source with
  | .input uIn => s.route uIn call.uOut call.cFactor call.iOut
  | .constant signalType => s.addConstant signalType call.uOut call.cFactor call.iOut

def run (s : Cluster) (calls : List RouteCall) : Cluster :=
  calls.foldl (fun s call => (apply s call).2) s

/-- The U block feeds the lane as the call asked. -/
def FedBy (call : RouteCall) (u : UBlock) (lane : Fin 32) : Prop :=
  match call.source with
  | .input uIn => u.outputInputMap lane = uIn ∧ u.feedingMode lane = .analogInput
  | .constant signalType => 0 ≤ u.outputInputMap lane ∧ u.feedingMode lane = signalType

theorem apply_eq (s : Cluster) (call : RouteCall) :
    apply s call = s.routeLane call.feed call.uOut call.cFactor call.iOut := by
  obtain ⟨source, uOut, cFactor, iOut⟩ := call
  cases source <;> rfl

theorem feed_success {call : RouteCall} {u : UBlock} (h : (call.feed u).1 = true) :
    ∃ ho : call.uOut < 32, u.outputInputMap ⟨call.uOut, ho⟩ < 0 ∧
      call.FedBy (call.feed u).2 ⟨call.uOut, ho⟩ := by
  obtain ⟨source, uOut, cFactor, iOut⟩ := call
  cases source with
  | input uIn =>
    obtain ⟨ho, hallowed, -⟩ := UBlock.connect_success h
    obtain ⟨_, hentry, hmode, -⟩ := (u.connect_outcome uIn uOut false).1 h
    exact ⟨ho, (hallowed.2 rfl).1, hentry, hmode⟩
  | constant signalType =>
    obtain ⟨ho, hallowed, -⟩ := UBlock.connectAlternative_success h
    obtain ⟨_, hentry, -, hmode, -⟩ := (u.connectAlternative_outcome signalType uOut false false).1 h
    exact ⟨ho, (hallowed.2 rfl).2.1, hentry, hmode⟩

theorem feed_failure {call : RouteCall} {u : UBlock} (h : (call.feed u).1 = false) :
    (call.feed u).2 = u := by
  obtain ⟨source, uOut, cFactor, iOut⟩ := call
  cases source with
  | input uIn => exact UBlock.connect_failure h
  | constant signalType => exact UBlock.connectAlternative_failure h

theorem FedBy.entry_nonneg {call : RouteCall} {u : UBlock} {lane : Fin 32}
    (h : call.FedBy u lane) : 0 ≤ u.outputInputMap lane := by
  obtain ⟨source, uOut, cFactor, iOut⟩ := call
  cases source with
  | input uIn => exact h.1 ▸ Int.natCast_nonneg uIn
  | constant signalType => exact h.1

/-- The I block after the first step of a call. -/
def scaled (call : RouteCall) (s : Cluster) : IBlock :=
  (s.iblock.setUpscaling call.uOut (decide (1 < |call.cFactor|))).2

/-- The C block after the third step of a call. -/
def weighted (call : RouteCall) (s : Cluster) : CBlock :=
  (s.cblock.setFactor call.uOut (Cluster.laneFactor call.cFactor)).2

/-- Every way a call can end: refused by the U, the C or the I block, or completed. -/
theorem apply_cases (s : Cluster) (call : RouteCall) :
    ((call.feed s.ublock).1 = false ∧
      apply s call = (false, { s with iblock := call.scaled s })) ∨
    ((call.feed s.ublock).1 = true ∧ call.weighted s = s.cblock ∧
      apply s call = (false,
        { s with iblock := call.scaled s, ublock := (call.feed s.ublock).2 })) ∨
    ((call.feed s.ublock).1 = true ∧
      (s.cblock.setFactor call.uOut (Cluster.laneFactor call.cFactor)).1 = true ∧
      apply s call = (false,
        { s with
          iblock := call.scaled s
          ublock := (call.feed s.ublock).2
          cblock := call.weighted s })) ∨
    ((call.feed s.ublock).1 = true ∧
      (s.cblock.setFactor call.uOut (Cluster.laneFactor call.cFactor)).1 = true ∧
      ((call.scaled s).connect call.uOut call.iOut false false).1 = true ∧
      apply s call = (true,
        { s with
          iblock := ((call.scaled s).connect call.uOut call.iOut false false).2
          ublock := (call.feed s.ublock).2
          cblock := call.weighted s })) := by
  rw [apply_eq]
  simp only [Cluster.routeLane]
  cases hfeed : (call.feed s.ublock).1 with
  | false =>
    rw [feed_failure hfeed]
    exact Or.inl ⟨rfl, rfl⟩
  | true =>
    apply Or.inr
    rw [if_pos rfl]
    cases hfactor : (s.cblock.setFactor call.uOut (Cluster.laneFactor call.cFactor)).1 with
    | false =>
      have hkept := CBlock.setFactor_failure hfactor
      rw [if_neg Bool.false_ne_true, hkept]
      exact Or.inl ⟨rfl, hkept, rfl⟩
    | true =>
      apply Or.inr
      rw [if_pos rfl]
      cases hconnect : ((call.scaled s).connect call.uOut call.iOut false false).1 with
      | false =>
        have hkept := IBlock.connect_failure hconnect
        simp only [scaled] at hconnect hkept
        rw [hconnect, if_neg Bool.false_ne_true, hkept]
        exact Or.inl ⟨rfl, rfl, rfl⟩
      | true =>
        simp only [scaled] at hconnect
        rw [hconnect, if_pos rfl]
        exact Or.inr ⟨rfl, rfl, rfl, rfl⟩

/-! ### One call -/

theorem scaled_outputs (call : RouteCall) (s : Cluster) :
    (call.scaled s).outputs = s.iblock.outputs := by
  simp only [scaled, IBlock.setUpscaling]
  split <;> rfl

theorem scaled_other (call : RouteCall) (s : Cluster) {other : Fin 32}
    (h : other.val ≠ call.uOut) :
    (call.scaled s).scalingFactors other = s.iblock.scalingFactors other := by
  simp only [scaled, IBlock.setUpscaling]
  split
  · exact Function.update_of_ne (fun he => h (congrArg Fin.val he)) _ _
  · rfl

theorem scaled_self (call : RouteCall) (s : Cluster) (h : call.uOut < 32) :
    (call.scaled s).scalingFactors ⟨call.uOut, h⟩ = decide (1 < |call.cFactor|) := by
  simp only [scaled, IBlock.setUpscaling]
  rw [dif_pos h]
  exact Function.update_self _ _ _

theorem weighted_other (call : RouteCall) (s : Cluster) {other : Fin 32}
    (h : other.val ≠ call.uOut) : (call.weighted s).factors other = s.cblock.factors other := by
  simp only [weighted]
  cases hset : (s.cblock.setFactor call.uOut (Cluster.laneFactor call.cFactor)).1 with
  | true =>
    obtain ⟨_, -, -, heq⟩ := CBlock.setFactor_success hset
    rw [heq]
    exact Function.update_of_ne (fun he => h (congrArg Fin.val he)) _ _
  | false => rw [CBlock.setFactor_failure hset]

/-- Factor and upscaling together give the coefficient that was asked for. -/
theorem laneFactor_mul (c : ℚ) :
    Cluster.laneFactor c * (if decide (1 < |c|) = true then 10 else 1) = c := by
  simp only [Cluster.laneFactor, decide_eq_true_eq]
  split
  · rw [mul_assoc, one_div, inv_mul_cancel₀ (by decide), mul_one]
  · exact mul_one c

/-- The lane of a call carries its coefficient, from its source to its output. -/
def Established (call : RouteCall) (t : Cluster) : Prop :=
  ∃ (hu : call.uOut < 32) (hi : call.iOut < 16),
    t.cblock.factors ⟨call.uOut, hu⟩ *
      (if t.iblock.scalingFactors ⟨call.uOut, hu⟩ then 10 else 1) = call.cFactor ∧
    t.iblock.Feeds ⟨call.uOut, hu⟩ ⟨call.iOut, hi⟩ ∧
    call.FedBy t.ublock ⟨call.uOut, hu⟩

/-- Every lane other than `uOut` has the same factor, upscaling and I block outputs. -/
def OthersKept (s t : Cluster) (uOut : Nat) : Prop :=
  ∀ other : Fin 32, other.val ≠ uOut →
    t.cblock.factors other = s.cblock.factors other ∧
    t.iblock.scalingFactors other = s.iblock.scalingFactors other ∧
    ∀ output, t.iblock.Feeds other output ↔ s.iblock.Feeds other output

def FactorsBounded (s : Cluster) : Prop :=
  ∀ lane, CBlock.minFactor ≤ s.cblock.factors lane ∧ s.cblock.factors lane ≤ CBlock.maxFactor

theorem established_of_success {s : Cluster} {call : RouteCall} (h : (apply s call).1 = true) :
    call.Established (apply s call).2 := by
  rcases apply_cases s call with ⟨-, heq⟩ | ⟨-, -, heq⟩ | ⟨-, -, heq⟩ | ⟨hfeed, hfactor, hconnect, heq⟩
  · rw [heq] at h
    exact absurd h Bool.false_ne_true
  · rw [heq] at h
    exact absurd h Bool.false_ne_true
  · rw [heq] at h
    exact absurd h Bool.false_ne_true
  · obtain ⟨hu, -, hfed⟩ := feed_success hfeed
    obtain ⟨_, -, -, hstored⟩ := CBlock.setFactor_success hfactor
    obtain ⟨_, hi, hswitch⟩ := IBlock.connect_success hconnect
    rw [heq]
    refine ⟨hu, hi, ?_, ?_, hfed⟩
    · simp only [weighted]
      rw [hswitch, IBlock.withSwitch_scalingFactors, scaled_self call s hu, hstored]
      simp only [Function.update_self]
      exact laneFactor_mul call.cFactor
    · rw [hswitch, IBlock.feeds_withSwitch]
      exact Or.inr ⟨rfl, rfl⟩

theorem feeds_scaled (call : RouteCall) (s : Cluster) (input : Fin 32) (output : Fin 16) :
    (call.scaled s).Feeds input output ↔ s.iblock.Feeds input output := by
  simp only [IBlock.Feeds]
  rw [scaled_outputs]

theorem othersKept_apply (s : Cluster) (call : RouteCall) :
    OthersKept s (apply s call).2 call.uOut := by
  intro other hother
  rcases apply_cases s call with ⟨-, heq⟩ | ⟨-, -, heq⟩ | ⟨-, -, heq⟩ | ⟨-, -, hconnect, heq⟩
  · rw [heq]
    exact ⟨rfl, scaled_other call s hother, feeds_scaled call s other⟩
  · rw [heq]
    exact ⟨rfl, scaled_other call s hother, feeds_scaled call s other⟩
  · rw [heq]
    exact ⟨weighted_other call s hother, scaled_other call s hother, feeds_scaled call s other⟩
  · obtain ⟨_, _, hswitch⟩ := IBlock.connect_success hconnect
    rw [heq, hswitch]
    refine ⟨weighted_other call s hother, scaled_other call s hother, fun output => ?_⟩
    rw [IBlock.feeds_withSwitch, feeds_scaled]
    constructor
    · intro hfeeds
      rcases hfeeds with hfeeds | ⟨he, -⟩
      · exact hfeeds
      · exact absurd (congrArg Fin.val he) hother
    · exact Or.inl

theorem FactorsBounded.weighted {s : Cluster} (hs : FactorsBounded s) (call : RouteCall)
    (lane : Fin 32) : CBlock.minFactor ≤ (call.weighted s).factors lane ∧
      (call.weighted s).factors lane ≤ CBlock.maxFactor := by
  by_cases hlane : lane.val = call.uOut
  · simp only [RouteCall.weighted]
    cases hset : (s.cblock.setFactor call.uOut (Cluster.laneFactor call.cFactor)).1 with
    | true =>
      obtain ⟨hu, hmin, hmax, heq⟩ := CBlock.setFactor_success hset
      have hself : lane = ⟨call.uOut, hu⟩ := Fin.ext hlane
      rw [heq, hself]
      simp only [Function.update_self]
      exact ⟨hmin, hmax⟩
    | false =>
      rw [CBlock.setFactor_failure hset]
      exact hs lane
  · rw [weighted_other call s hlane]
    exact hs lane

theorem FactorsBounded.apply {s : Cluster} (hs : FactorsBounded s) (call : RouteCall) :
    FactorsBounded (RouteCall.apply s call).2 := by
  intro lane
  rcases apply_cases s call with ⟨-, heq⟩ | ⟨-, -, heq⟩ | ⟨-, -, heq⟩ | ⟨-, -, -, heq⟩
  · rw [heq]
    exact hs lane
  · rw [heq]
    exact hs lane
  · rw [heq]
    exact hs.weighted call lane
  · rw [heq]
    exact hs.weighted call lane

/-! ### Runs of calls on a reset cluster -/

theorem factorsBounded_reset (s : Cluster) {action : ResetAction}
    (h : action.has ResetAction.circuitReset = true) : FactorsBounded (s.reset action) := by
  intro lane
  have hfactor : (s.reset action).cblock.factors lane = 1 := by
    simp only [Cluster.reset, CBlock.reset]
    rw [if_pos h]
    split <;> rfl
  rw [hfactor, CBlock.minFactor, CBlock.maxFactor]
  constructor <;> norm_num

theorem factorsBounded_run {s : Cluster} (hs : FactorsBounded s) (calls : List RouteCall) :
    FactorsBounded (run s calls) :=
  List.foldlRecOn calls _ hs fun _ ht call _ => ht.apply call

/-- On a reset cluster, after any calls, the next call establishes its lane when it succeeds,
keeps all other lanes in any case, and no factor ever leaves the bounds of the C block. -/
theorem run_route_correct (s : Cluster) (action : ResetAction)
    (h : action.has ResetAction.circuitReset = true) (calls : List RouteCall) (call : RouteCall) :
    ((apply (run (s.reset action) calls) call).1 = true →
      call.Established (apply (run (s.reset action) calls) call).2) ∧
    OthersKept (run (s.reset action) calls) (apply (run (s.reset action) calls) call).2 call.uOut ∧
    FactorsBounded (run (s.reset action) calls) ∧
    FactorsBounded (apply (run (s.reset action) calls) call).2 := by
  have hbounded := factorsBounded_run (factorsBounded_reset s h) calls
  exact ⟨established_of_success, othersKept_apply _ call, hbounded, hbounded.apply call⟩

def powerOn : Cluster := ⟨0, .initial, .initial, .initial, ⟨.inject⟩⟩

/-- Output 5 takes block input 3 with the coefficient four after output 6 took a constant. -/
theorem run_route_correct_two_calls :
    Established ⟨.input 3, 5, 4, 2⟩
      (apply (run (powerOn.reset ⟨ResetAction.everything⟩) [⟨.constant .posRef, 6, -1, 2⟩])
        ⟨.input 3, 5, 4, 2⟩).2 :=
  (run_route_correct powerOn ⟨ResetAction.everything⟩ (by decide) [⟨.constant .posRef, 6, -1, 2⟩]
    ⟨.input 3, 5, 4, 2⟩).1 (by decide +kernel)

/-! ### Calls that fail -/

theorem feed_changes {call : RouteCall} {u : UBlock} (h : (call.feed u).1 = true) :
    (call.feed u).2 ≠ u := by
  obtain ⟨ho, hopen, hfed⟩ := feed_success h
  intro heq
  have hentry := hfed.entry_nonneg
  rw [heq] at hentry
  omega

theorem scaled_eq_iff (call : RouteCall) (s : Cluster) :
    call.scaled s = s.iblock ↔
      ∀ hu : call.uOut < 32,
        s.iblock.scalingFactors ⟨call.uOut, hu⟩ = decide (1 < |call.cFactor|) := by
  constructor
  · intro heq hu
    rw [← heq]
    exact scaled_self call s hu
  · intro hbit
    simp only [scaled, IBlock.setUpscaling]
    split
    · rename_i hu
      rw [← hbit hu, Function.update_eq_self]
    · rfl

/-- What a failed `route` or `add_constant` leaves behind: the upscaling bit of its lane is
stored, the U block is connected unless it refused, and the factor is stored if both allowed it.
Everything is as before exactly when the U block refused and the bit was already right. -/
def LeavesSteps (call : RouteCall) (s t : Cluster) : Prop :=
  t.clusterIdx = s.clusterIdx ∧ t.shblock = s.shblock ∧
  t.cblock.gainCorrections = s.cblock.gainCorrections ∧
  t.iblock = call.scaled s ∧ t.iblock.outputs = s.iblock.outputs ∧
  ((call.feed s.ublock).1 = false → t.ublock = s.ublock ∧ t.cblock = s.cblock) ∧
  ((call.feed s.ublock).1 = true →
    t.ublock = (call.feed s.ublock).2 ∧ t.cblock = call.weighted s) ∧
  OthersKept s t call.uOut ∧
  (t = s ↔ (call.feed s.ublock).1 = false ∧ ∀ hu : call.uOut < 32,
    s.iblock.scalingFactors ⟨call.uOut, hu⟩ = decide (1 < |call.cFactor|))

theorem weighted_gainCorrections (call : RouteCall) (s : Cluster) :
    (call.weighted s).gainCorrections = s.cblock.gainCorrections := by
  simp only [weighted, CBlock.setFactor]
  split
  · split <;> rfl
  · rfl

theorem eq_iff_of_fed {s t : Cluster} {call : RouteCall} {P : Prop}
    (hfeed : (call.feed s.ublock).1 = true) (ht : t.ublock = (call.feed s.ublock).2) :
    t = s ↔ (call.feed s.ublock).1 = false ∧ P := by
  constructor
  · intro hs
    exact absurd (ht.symm.trans (congrArg Cluster.ublock hs)) (feed_changes hfeed)
  · intro hs
    rw [hfeed] at hs
    exact absurd hs.1.symm Bool.false_ne_true

theorem leavesSteps_of_failure {s : Cluster} {call : RouteCall} (h : (apply s call).1 = false) :
    call.LeavesSteps s (apply s call).2 := by
  have hothers := othersKept_apply s call
  have hrefused {P : Prop} (hfed : (call.feed s.ublock).1 = true)
      (hnot : (call.feed s.ublock).1 = false) : P := by
    rw [hfed] at hnot
    exact absurd hnot.symm Bool.false_ne_true
  rcases apply_cases s call with ⟨hfeed, heq⟩ | ⟨hfeed, hkept, heq⟩ | ⟨hfeed, -, heq⟩ |
    ⟨-, -, -, heq⟩
  · rw [heq] at hothers ⊢
    refine ⟨rfl, rfl, rfl, rfl, scaled_outputs call s, fun _ => ⟨rfl, rfl⟩,
      fun hfed => hrefused hfed hfeed, hothers, ?_⟩
    rw [← scaled_eq_iff]
    constructor
    · intro hs
      exact ⟨hfeed, congrArg Cluster.iblock hs⟩
    · intro hs
      rw [hs.2]
  · rw [heq] at hothers ⊢
    exact ⟨rfl, rfl, rfl, rfl, scaled_outputs call s, hrefused hfeed,
      fun _ => ⟨rfl, hkept.symm⟩, hothers, eq_iff_of_fed hfeed rfl⟩
  · rw [heq] at hothers ⊢
    exact ⟨rfl, rfl, weighted_gainCorrections call s, rfl, scaled_outputs call s,
      hrefused hfeed, fun _ => ⟨rfl, rfl⟩, hothers, eq_iff_of_fed hfeed rfl⟩
  · rw [heq] at h
    exact absurd h.symm Bool.false_ne_true

theorem routeOutExternal_failure {s : Cluster} {uIn out : Nat} {cFactor : ℚ}
    (h : (s.routeOutExternal uIn out cFactor).1 = false) :
    (7 < out ∨ (s.ublock.connect uIn (out + 24) false).1 = false →
      (s.routeOutExternal uIn out cFactor).2 = s) ∧
    (out ≤ 7 → (s.ublock.connect uIn (out + 24) false).1 = true →
      (s.routeOutExternal uIn out cFactor).2 =
        { s with ublock := (s.ublock.connect uIn (out + 24) false).2 }) := by
  by_cases hout : 7 < out
  · have heq : s.routeOutExternal uIn out cFactor = (false, s) := by
      simp only [Cluster.routeOutExternal]
      rw [if_pos hout]
    rw [heq]
    exact ⟨fun _ => rfl, fun hle => absurd hout (Nat.not_lt.mpr hle)⟩
  · simp only [Cluster.routeOutExternal] at h ⊢
    rw [if_neg hout] at h ⊢
    cases hconnect : (s.ublock.connect uIn (out + 24) false).1 with
    | false =>
      rw [UBlock.connect_failure hconnect]
      exact ⟨fun _ => rfl, fun _ hc => absurd hc Bool.false_ne_true⟩
    | true =>
      rw [hconnect, if_pos rfl] at h
      refine ⟨fun hc => hc.elim (fun hlt => absurd hlt hout) (fun he => absurd he.symm Bool.false_ne_true),
        fun _ _ => ?_⟩
      rw [if_pos rfl, CBlock.setFactor_failure h]

/-- A failed call keeps the steps it completed and nothing else: `route` and `add_constant`
have stored the upscaling bit of their lane, and each of the three calls has stored what the
blocks accepted before the refusal. -/
theorem failed_calls_leave_completed_steps :
    (∀ (s : Cluster) (call : RouteCall), (apply s call).1 = false →
      call.LeavesSteps s (apply s call).2) ∧
    (∀ (s : Cluster) (uIn out : Nat) (cFactor : ℚ),
      (s.routeOutExternal uIn out cFactor).1 = false →
      (7 < out ∨ (s.ublock.connect uIn (out + 24) false).1 = false →
        (s.routeOutExternal uIn out cFactor).2 = s) ∧
      (out ≤ 7 → (s.ublock.connect uIn (out + 24) false).1 = true →
        (s.routeOutExternal uIn out cFactor).2 =
          { s with ublock := (s.ublock.connect uIn (out + 24) false).2 })) :=
  ⟨fun _ _ => leavesSteps_of_failure, fun _ _ _ _ => routeOutExternal_failure⟩

theorem failed_calls_leave_completed_steps_bad_input :
    LeavesSteps ⟨.input 16, 5, 4, 2⟩ powerOn (apply powerOn ⟨.input 16, 5, 4, 2⟩).2 :=
  failed_calls_leave_completed_steps.1 powerOn ⟨.input 16, 5, 4, 2⟩ (by decide +kernel)

/-- The coefficient 20 is refused after the upscaling bit and the U connection of lane 5 are
stored. -/
theorem route_twenty_not_atomic :
    (powerOn.route 3 5 20 2).1 = false ∧
      (powerOn.route 3 5 20 2).2.iblock.scalingFactors 5 ≠ powerOn.iblock.scalingFactors 5 ∧
      (powerOn.route 3 5 20 2).2.ublock ≠ powerOn.ublock := by
  decide +kernel

end RouteCall

end Lucidac
