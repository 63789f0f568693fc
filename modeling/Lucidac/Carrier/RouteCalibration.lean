import Lucidac.Carrier.ClusterCalibration

/-!
# Calibrating all routes of a LUCIDAC

The LUCIDAC routes its ACL inputs internally and the carrier puts the gain of one cluster after
the other on the ADC bus.  Both selections are written back only when every correction was
accepted, so a single correction out of range leaves them changed.
-/

namespace Lucidac

open Framework

inductive ACL where
  | internal
  | external
deriving DecidableEq

/-- The state of a LUCIDAC with its CTRL block and its clusters installed. -/
structure LUCIDAC where
  clusters : List MountedCluster
  ctrlBlock : CTRLBlock
  aclSelect : Fin 8 → ACL

/-- The carrier's own share while its clusters are calibrated. -/
structure Station where
  ctrlBlock : CTRLBlock
  writeCount : Nat
  sampleCount : Nat

namespace Carrier

def calibrateRoutesInCluster (env : Environment) (mounted : MountedCluster) (st : Station) :
    Bool × MountedCluster × Station :=
  let oldAdcBus := st.ctrlBlock.adcBus
  let ctrlBlock := (st.ctrlBlock.setAdcBusToClusterGain mounted.cluster.clusterIdx).2
  if !env.writeOk st.writeCount then
    (false, mounted, ⟨ctrlBlock, st.writeCount + 1, st.sampleCount⟩)
  else
    match Cluster.calibrateRoutes env ⟨mounted, st.writeCount + 1, st.sampleCount, []⟩ with
    | .ok true b => (env.writeOk b.writeCount, b.toMountedCluster,
      ⟨ctrlBlock.setAdcBus oldAdcBus, b.writeCount + 1, b.sampleCount⟩)
    | .ok false b => (false, b.toMountedCluster, ⟨ctrlBlock, b.writeCount, b.sampleCount⟩)
    | .error _ b => (false, b.toMountedCluster, ⟨ctrlBlock, b.writeCount, b.sampleCount⟩)

def calibrateRoutes (env : Environment) :
    List MountedCluster → Station → Bool × List MountedCluster × Station
  | [], st => (true, [], st)
  | mounted :: rest, st =>
    match calibrateRoutesInCluster env mounted st with
    | (true, mounted', st') =>
      let (success, rest', st'') := calibrateRoutes env rest st'
      (success, mounted' :: rest', st'')
    | (false, mounted', st') => (false, mounted' :: rest, st')

end Carrier

namespace LUCIDAC

def resetAclSelect (s : LUCIDAC) : LUCIDAC := { s with aclSelect := fun _ => .internal }

/-- `LUCIDAC::calibrate_routes`, with the positions in the answers of the hardware. -/
def calibrateRoutes (env : Environment) (writeCount sampleCount : Nat) (s : LUCIDAC) :
    Bool × LUCIDAC :=
  let s₁ := s.resetAclSelect
  if !env.writeOk writeCount then (false, s₁)
  else
    match Carrier.calibrateRoutes env s₁.clusters ⟨s₁.ctrlBlock, writeCount + 1, sampleCount⟩ with
    | (true, clusters, st) =>
      (env.writeOk st.writeCount, ⟨clusters, st.ctrlBlock, s.aclSelect⟩)
    | (false, clusters, st) => (false, ⟨clusters, st.ctrlBlock, s₁.aclSelect⟩)

end LUCIDAC

/-! ### What is kept -/

namespace Carrier

/-- The first cluster with a correction out of range, when the readings start at `n`. -/
def firstOutOfRange (env : Environment) (n : Nat) : List Cluster → Option Cluster
  | [] => none
  | c :: cs =>
    if Cluster.gainsInRange env n c.routes then
      firstOutOfRange env (n + 4 * c.routes.length) cs
    else some c

/-- How many clusters are calibrated: all up to the first one with a correction out of range. -/
def calibratedCount (env : Environment) (n : Nat) : List Cluster → Nat
  | [] => 0
  | c :: cs =>
    if Cluster.gainsInRange env n c.routes then
      calibratedCount env (n + 4 * c.routes.length) cs + 1
    else 1

private theorem calibrateRoutesInCluster_spec {env : Environment}
    (hok : ∀ n, env.writeOk n = true) (mounted : MountedCluster) (st : Station) :
    ∃ mounted' writeCount, mounted.cluster.Restored mounted'.cluster ∧
      calibrateRoutesInCluster env mounted st =
        if Cluster.gainsInRange env st.sampleCount mounted.cluster.routes then
          (true, mounted', ⟨st.ctrlBlock, writeCount,
            st.sampleCount + 4 * mounted.cluster.routes.length⟩)
        else (false, mounted',
          ⟨(st.ctrlBlock.setAdcBusToClusterGain mounted.cluster.clusterIdx).2, writeCount,
            st.sampleCount + 4 * mounted.cluster.routes.length⟩) := by
  have hspec := Cluster.calibrateRoutes_spec env
    ⟨mounted, st.writeCount + 1, st.sampleCount, []⟩ rfl
  simp only [wp] at hspec
  simp only [calibrateRoutesInCluster, hok, Bool.not_true, Bool.false_eq_true, if_false]
  cases hrun : Cluster.calibrateRoutes env ⟨mounted, st.writeCount + 1, st.sampleCount, []⟩ with
  | error e b =>
    simp only [hrun] at hspec
    obtain ⟨⟨n, hn⟩, -⟩ := hspec
    rw [hok n] at hn
    exact absurd hn (by decide)
  | ok success b =>
    simp only [hrun] at hspec
    have hsuccess := hspec.success_eq
    have hcount := hspec.count
    cases success with
    | true =>
      refine ⟨b.toMountedCluster, b.writeCount + 1, hspec.restored, ?_⟩
      rw [← hsuccess, if_pos rfl, ← hcount]
      rfl
    | false =>
      refine ⟨b.toMountedCluster, b.writeCount, hspec.restored, ?_⟩
      rw [← hsuccess, if_neg Bool.false_ne_true, ← hcount]

/-- Two clusters differ at most in gain corrections and SH state. -/
def SameConfiguration (c c' : Cluster) : Prop :=
  c'.clusterIdx = c.clusterIdx ∧ c'.ublock = c.ublock ∧ c'.cblock.factors = c.cblock.factors ∧
    c'.iblock = c.iblock

def KeepsClusters (env : Environment) (n : Nat) (cs cs' : List Cluster) : Prop :=
  List.Forall₂ SameConfiguration cs cs' ∧
    ∀ c ∈ cs'.take (calibratedCount env n cs), c.shblock.state = .inject

private theorem calibrateRoutes_spec {env : Environment} (hok : ∀ n, env.writeOk n = true)
    (clusters : List MountedCluster) (st : Station) :
    KeepsClusters env st.sampleCount (clusters.map (·.cluster))
        ((calibrateRoutes env clusters st).2.1.map (·.cluster)) ∧
      (calibrateRoutes env clusters st).1 =
        (firstOutOfRange env st.sampleCount (clusters.map (·.cluster))).isNone ∧
      (calibrateRoutes env clusters st).2.2.ctrlBlock =
        (firstOutOfRange env st.sampleCount (clusters.map (·.cluster))).elim st.ctrlBlock
          fun c => (st.ctrlBlock.setAdcBusToClusterGain c.clusterIdx).2 := by
  induction clusters generalizing st with
  | nil => exact ⟨⟨List.Forall₂.nil, by simp [calibrateRoutes]⟩, rfl, rfl⟩
  | cons mounted rest ih =>
    obtain ⟨mounted', writeCount, ⟨corrections, hrestored⟩, heq⟩ :=
      calibrateRoutesInCluster_spec hok mounted st
    have hsame : SameConfiguration mounted.cluster mounted'.cluster := by
      rw [hrestored]
      exact ⟨rfl, rfl, rfl, rfl⟩
    have hinject : mounted'.cluster.shblock.state = .inject := by rw [hrestored]
    simp only [calibrateRoutes, heq, List.map_cons, firstOutOfRange]
    cases hrange : Cluster.gainsInRange env st.sampleCount mounted.cluster.routes with
    | true =>
      obtain ⟨⟨hrest, htake⟩, hflag, hctrl⟩ := ih ⟨st.ctrlBlock, writeCount,
        st.sampleCount + 4 * mounted.cluster.routes.length⟩
      simp only [if_true]
      refine ⟨⟨List.Forall₂.cons hsame hrest, ?_⟩, hflag, hctrl⟩
      simp only [calibratedCount, hrange, if_true, List.map_cons, List.take_succ_cons,
        List.forall_mem_cons]
      exact ⟨hinject, htake⟩
    | false =>
      simp only [Bool.false_eq_true, if_false]
      refine ⟨⟨List.Forall₂.cons hsame ?_, ?_⟩, rfl, rfl⟩
      · exact List.forall₂_same.mpr fun c _ => ⟨rfl, rfl, rfl, rfl⟩
      · simp only [calibratedCount, hrange, Bool.false_eq_true, if_false, List.map_cons,
          List.take_succ_cons, List.take_zero, List.forall_mem_singleton]
        exact hinject

end Carrier

namespace LUCIDAC

/-- Everything but gain corrections is as before, and the calibrated clusters inject. -/
def KeepsConfiguration (env : Environment) (n : Nat) (s s' : LUCIDAC) : Prop :=
  s'.aclSelect = s.aclSelect ∧ s'.ctrlBlock.adcBus = s.ctrlBlock.adcBus ∧
    Carrier.KeepsClusters env n (s.clusters.map (·.cluster)) (s'.clusters.map (·.cluster))

private theorem calibrateRoutes_selections (env : Environment)
    (hok : ∀ n, env.writeOk n = true) (writeCount sampleCount : Nat) (s : LUCIDAC) :
    Carrier.KeepsClusters env sampleCount (s.clusters.map (·.cluster))
        ((s.calibrateRoutes env writeCount sampleCount).2.clusters.map (·.cluster)) ∧
      (s.calibrateRoutes env writeCount sampleCount).2.aclSelect =
        (Carrier.firstOutOfRange env sampleCount (s.clusters.map (·.cluster))).elim s.aclSelect
          (fun _ _ => .internal) ∧
      (s.calibrateRoutes env writeCount sampleCount).2.ctrlBlock =
        (Carrier.firstOutOfRange env sampleCount (s.clusters.map (·.cluster))).elim s.ctrlBlock
          fun c => (s.ctrlBlock.setAdcBusToClusterGain c.clusterIdx).2 := by
  obtain ⟨hclusters, hflag, hctrl⟩ := Carrier.calibrateRoutes_spec hok s.clusters
    ⟨s.ctrlBlock, writeCount + 1, sampleCount⟩
  simp only [calibrateRoutes, resetAclSelect, hok, Bool.not_true, Bool.false_eq_true, if_false]
  generalize Carrier.calibrateRoutes env s.clusters
    ⟨s.ctrlBlock, writeCount + 1, sampleCount⟩ = result at *
  obtain ⟨success, clusters, st⟩ := result
  simp only at hclusters hflag hctrl
  subst hflag
  cases hfirst : Carrier.firstOutOfRange env sampleCount (s.clusters.map (·.cluster)) with
  | none =>
    rw [hfirst] at hctrl
    exact ⟨hclusters, rfl, hctrl⟩
  | some c =>
    rw [hfirst] at hctrl
    exact ⟨hclusters, rfl, hctrl⟩

/-- With all writes successful the configuration is kept exactly when no correction is out of
range, or the ACL inputs are internal already and the ADC bus already carries the gain of the
first cluster with a correction out of range. -/
theorem calibrateRoutes_keepsConfiguration_iff (env : Environment)
    (hok : ∀ n, env.writeOk n = true) (writeCount sampleCount : Nat) (s : LUCIDAC) :
    s.KeepsConfiguration env sampleCount (s.calibrateRoutes env writeCount sampleCount).2 ↔
      ∀ c ∈ Carrier.firstOutOfRange env sampleCount (s.clusters.map (·.cluster)),
        (∀ i, s.aclSelect i = .internal) ∧
          (s.ctrlBlock.setAdcBusToClusterGain c.clusterIdx).2.adcBus = s.ctrlBlock.adcBus := by
  obtain ⟨hclusters, hacl, hctrl⟩ := calibrateRoutes_selections env hok writeCount sampleCount s
  simp only [KeepsConfiguration, hclusters, hacl, hctrl, and_true]
  cases Carrier.firstOutOfRange env sampleCount (s.clusters.map (·.cluster)) with
  | none => simp
  | some c =>
    simp only [Option.elim_some, Option.mem_def, Option.some.injEq, forall_eq']
    rw [eq_comm, funext_iff]

/-- A LUCIDAC with lane 3 of its cluster routed to output 5 and the ADC bus on the ADC. -/
def singleRoute : LUCIDAC :=
  ⟨[⟨⟨0, (UBlock.initial.connect 0 3 false).2, .initial, (IBlock.initial.connect 3 5 false false).2,
      ⟨.inject⟩⟩, ⟨0, .initial, .initial, .initial, ⟨.inject⟩⟩⟩], ⟨.adc⟩, fun _ => .internal⟩

private theorem firstOutOfRange_singleRoute (env : Environment) :
    Carrier.firstOutOfRange env 0 (singleRoute.clusters.map (·.cluster)) =
      if Cluster.gainInRange env 0 5 then none
      else (singleRoute.clusters.map (·.cluster)).head? := by
  have hroutes : Cluster.routes ⟨0, (UBlock.initial.connect 0 3 false).2, .initial,
      (IBlock.initial.connect 3 5 false false).2, ⟨.inject⟩⟩ = [(3, 5)] := by decide
  simp only [singleRoute, List.map_cons, List.map_nil, Carrier.firstOutOfRange, hroutes,
    Cluster.gainsInRange, Bool.and_true, List.head?_cons]

theorem calibrateRoutes_keepsConfiguration_unit :
    singleRoute.KeepsConfiguration ⟨fun _ => true, fun _ _ => 1⟩ 0
      (singleRoute.calibrateRoutes ⟨fun _ => true, fun _ _ => 1⟩ 0 0).2 := by
  apply (calibrateRoutes_keepsConfiguration_iff _ (fun _ => rfl) 0 0 singleRoute).mpr
  have hrange : Cluster.gainInRange ⟨fun _ => true, fun _ _ => 1⟩ 0 5 = true := by
    norm_num [Cluster.gainInRange, Cluster.sampleAvg, CBlock.Acceptable]
  rw [firstOutOfRange_singleRoute, if_pos hrange]
  intro c hc
  exact absurd hc (by simp)

/-- A reading of zero leaves the ADC bus on the gain of cluster 0. -/
theorem calibrateRoutes_changes_adcBus :
    ¬ singleRoute.KeepsConfiguration ⟨fun _ => true, fun _ _ => 0⟩ 0
      (singleRoute.calibrateRoutes ⟨fun _ => true, fun _ _ => 0⟩ 0 0).2 := by
  intro hkeeps
  obtain ⟨-, -, hctrl⟩ := calibrateRoutes_selections ⟨fun _ => true, fun _ _ => 0⟩
    (fun _ => rfl) 0 0 singleRoute
  have hrange : Cluster.gainInRange ⟨fun _ => true, fun _ _ => 0⟩ 0 5 ≠ true := by
    norm_num [Cluster.gainInRange, Cluster.sampleAvg, CBlock.Acceptable]
  rw [firstOutOfRange_singleRoute, if_neg hrange] at hctrl
  have hbus := hkeeps.2.1
  rw [hctrl] at hbus
  exact absurd hbus (by decide)

end LUCIDAC

end Lucidac
