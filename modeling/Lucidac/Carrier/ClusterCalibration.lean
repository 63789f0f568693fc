import Mathlib.Tactic.NormNum
import Lucidac.Carrier.Cluster

/-!
# What the calibration of a cluster measures and restores

Between two lanes all coefficients are zero, the upscaling is off and the connections are those
of the start.  One lane is activated, measured and deactivated at a time, so every measurement
sees a single lane.  Every exit comes from a failed write.
-/

namespace Lucidac.Cluster

open Framework

/-- The blocks as they have to be when the gain of `lane` towards `output` is measured. -/
def Measures (c : Cluster) (lane : Fin 32) (output : Fin 16) : Prop :=
  (∀ i, c.cblock.factors i = if i = lane then 1 else 0) ∧
    c.ublock.isOutputConnected lane = true ∧ c.iblock.isConnected lane output = true ∧
    c.ublock.aSideMode = .posRef ∧ c.ublock.bSideMode = .posRef ∧
    ∀ i, c.iblock.scalingFactors i = false

def Sound (s : GainSample) : Prop :=
  s.cluster.Measures s.lane s.output ∧ s.written.Measures s.lane s.output

/-- Every measurement so far is sound, every correction is old or acceptable. -/
structure Safe (c₀ : Cluster) (b : Bench) : Prop where
  samples : ∀ s ∈ b.samples, Sound s
  corrections : ∀ i, b.cluster.cblock.gainCorrections i = c₀.cblock.gainCorrections i ∨
    CBlock.Acceptable (b.cluster.cblock.gainCorrections i)

private theorem Safe.of_eq {c₀ : Cluster} {b b' : Bench} (h : Safe c₀ b)
    (hsamples : b'.samples = b.samples)
    (hcorrections : b'.cluster.cblock.gainCorrections = b.cluster.cblock.gainCorrections) :
    Safe c₀ b' := by
  constructor
  · rw [hsamples]
    exact h.samples
  · rw [hcorrections]
    exact h.corrections

def Aborted (env : Environment) (c₀ : Cluster) (_ : Unit) (b : Bench) : Prop :=
  (∃ n, env.writeOk n = false) ∧ Safe c₀ b

/-- The state inside the loops, after the given routes were measured from reading `n` on. -/
structure Calibrating (c₀ : Cluster) (n : Nat) (routes : List (Fin 32 × Fin 16))
    (factors : Fin 32 → ℚ) (b : Bench) : Prop where
  safe : Safe c₀ b
  clusterIdx : b.cluster.clusterIdx = c₀.clusterIdx
  map : b.cluster.ublock.outputInputMap = c₀.ublock.outputInputMap
  outputs : b.cluster.iblock.outputs = c₀.iblock.outputs
  upscaling : b.cluster.iblock.scalingFactors = fun _ => false
  factors : b.cluster.cblock.factors = factors
  writtenI : b.written.iblock = b.cluster.iblock
  keys : b.samples.map (fun s => (s.lane, s.output)) = routes
  count : b.sampleCount = n + 4 * routes.length

/-- The state while one lane carries the reference. -/
structure Activated (c₀ : Cluster) (n : Nat) (routes : List (Fin 32 × Fin 16)) (lane : Fin 32)
    (b : Bench) : Prop extends
    Calibrating c₀ n routes (Function.update (fun _ => 0) lane 1) b where
  aSideMode : b.cluster.ublock.aSideMode = .posRef
  bSideMode : b.cluster.ublock.bSideMode = .posRef
  writtenU : b.written.ublock = b.cluster.ublock
  writtenC : b.written.cblock = b.cluster.cblock

private theorem wp_writeBlock {env : Environment} {store : Cluster → Cluster → Cluster}
    {Q : PUnit → Bench → Prop} {E : Unit → Bench → Prop} {b : Bench}
    (hok : Q ⟨⟩ { b with writeCount := b.writeCount + 1, written := store b.cluster b.written })
    (hfail : (∃ n, env.writeOk n = false) → E () { b with writeCount := b.writeCount + 1 }) :
    wp (writeBlock env store) Q E b := by
  simp only [writeBlock, wp_attempt]
  by_cases h : env.writeOk b.writeCount = true
  · simpa [h] using hok
  · simp only [h, Bool.false_eq_true, if_false]
    exact hfail ⟨b.writeCount, by simpa using h⟩

/-- The offsets are compensated without a lasting change in memory, the SH block apart. -/
private theorem calibrateOffsets_spec (env : Environment) (b : Bench) :
    wp (calibrateOffsets env)
      (fun _ b' => b' = { b with
        cluster := { b.cluster with shblock := ⟨.inject⟩ }
        written := { b.written with ublock := b.cluster.ublock, shblock := ⟨.inject⟩ }
        writeCount := b.writeCount + 2 })
      (fun _ b' => (∃ n, env.writeOk n = false) ∧ b'.samples = b.samples ∧
        b'.cluster.cblock.gainCorrections = b.cluster.cblock.gainCorrections) b := by
  simp only [calibrateOffsets, wp_bind, wp_get, wp_modify]
  refine wp_writeBlock ?_ fun hfail => ⟨hfail, rfl, rfl⟩
  simp only [wp_bind, wp_modify]
  refine wp_writeBlock ?_ fun hfail => ⟨hfail, rfl, rfl⟩
  rfl

private theorem acceptable_one : CBlock.Acceptable 1 := by
  norm_num [CBlock.Acceptable]

private theorem setFactor_one (c : CBlock) (lane : Fin 32) :
    (c.setFactor lane 1).2 = { c with factors := Function.update c.factors lane 1 } := by
  rw [CBlock.setFactor_of_range c lane (by norm_num [CBlock.minFactor])
    (by norm_num [CBlock.maxFactor])]

private theorem setFactor_zero (c : CBlock) (lane : Fin 32) :
    (c.setFactor lane 0).2 = { c with factors := Function.update c.factors lane 0 } := by
  rw [CBlock.setFactor_of_range c lane (by norm_num [CBlock.minFactor])
    (by norm_num [CBlock.maxFactor])]

private theorem setGainCorrection_one (c : CBlock) (lane : Fin 32) :
    (c.setGainCorrection lane 1).2 =
      { c with gainCorrections := Function.update c.gainCorrections lane 1 } := by
  rw [CBlock.setGainCorrection_eq, if_pos acceptable_one]

private theorem corrections_update {old corrections : Fin 32 → ℚ} (lane : Fin 32)
    {correction : ℚ} (hnew : CBlock.Acceptable correction)
    (h : ∀ i, corrections i = old i ∨ CBlock.Acceptable (corrections i)) (i : Fin 32) :
    Function.update corrections lane correction i = old i ∨
      CBlock.Acceptable (Function.update corrections lane correction i) := by
  by_cases hi : i = lane
  · subst hi
    rw [Function.update_self]
    exact Or.inr hnew
  · rw [Function.update_of_ne hi]
    exact h i

private theorem activateLane_spec {env : Environment} {c₀ : Cluster} {n : Nat}
    {routes : List (Fin 32 × Fin 16)} {b : Bench} (lane : Fin 32)
    (h : Calibrating c₀ n routes (fun _ => 0) b) :
    wp (activateLane env lane) (fun _ => Activated c₀ n routes lane) (Aborted env c₀) b := by
  simp only [activateLane, wp_bind, wp_get, wp_modify]
  refine wp_writeBlock ?_ fun hfail => ⟨hfail, h.safe.samples, h.safe.corrections⟩
  simp only [wp_bind, wp_modify, Bench.mapCBlock, setFactor_one, setGainCorrection_one]
  have hcorrections := corrections_update lane acceptable_one h.safe.corrections
  refine wp_writeBlock ?_ fun hfail => ⟨hfail, h.safe.samples, hcorrections⟩
  refine ⟨⟨⟨h.safe.samples, hcorrections⟩, h.clusterIdx, h.map, h.outputs, h.upscaling, ?_,
    h.writtenI, h.keys, h.count⟩, rfl, rfl, rfl, rfl⟩
  change Function.update b.cluster.cblock.factors lane 1 = _
  rw [h.factors]

private theorem activated_offsets {env : Environment} {c₀ : Cluster} {n : Nat}
    {routes : List (Fin 32 × Fin 16)} {lane : Fin 32} {b : Bench}
    (h : Activated c₀ n routes lane b) :
    wp (calibrateOffsets env) (fun _ => Activated c₀ n routes lane) (Aborted env c₀) b := by
  refine wp_mono (calibrateOffsets_spec env b) ?_ ?_
  · intro _ b' hb'
    subst hb'
    exact ⟨⟨⟨h.safe.samples, h.safe.corrections⟩, h.clusterIdx, h.map, h.outputs, h.upscaling,
      h.factors, h.writtenI, h.keys, h.count⟩, h.aSideMode, h.bSideMode, rfl, h.writtenC⟩
  · intro _ b' hb'
    exact ⟨hb'.1, h.safe.of_eq hb'.2.1 hb'.2.2⟩

def isRoute (c : Cluster) (lane : Fin 32) (output : Fin 16) : Bool :=
  c.iblock.isConnected lane output && c.ublock.isOutputConnected lane

private theorem measures_of_activated {c₀ c : Cluster} {lane : Fin 32} {output : Fin 16}
    (hroute : c₀.isRoute lane output = true)
    (hmap : c.ublock.outputInputMap = c₀.ublock.outputInputMap)
    (houtputs : c.iblock.outputs = c₀.iblock.outputs)
    (hupscaling : c.iblock.scalingFactors = fun _ => false)
    (hfactors : c.cblock.factors = Function.update (fun _ => 0) lane 1)
    (ha : c.ublock.aSideMode = .posRef) (hb : c.ublock.bSideMode = .posRef) :
    c.Measures lane output := by
  simp only [isRoute, Bool.and_eq_true] at hroute
  refine ⟨fun i => ?_, ?_, ?_, ha, hb, fun i => by rw [hupscaling]⟩
  · rw [hfactors, Function.update_apply]
  · rw [← hroute.2]
    simp only [UBlock.isOutputConnected, UBlock.isOutputConnectedUnchecked, hmap]
  · rw [← hroute.1]
    simp only [IBlock.isConnected, IBlock.isConnectedUnchecked, houtputs]

/-- The averaged reading from `n` on gives an acceptable correction for this output. -/
def gainInRange (env : Environment) (n : Nat) (output : Fin 16) : Bool :=
  decide (CBlock.Acceptable (1 / sampleAvg env n (gainChannel output)))

/-- All routes, measured one after the other from reading `n` on, give acceptable corrections. -/
def gainsInRange (env : Environment) (n : Nat) : List (Fin 32 × Fin 16) → Bool
  | [] => true
  | route :: routes => gainInRange env n route.2 && gainsInRange env (n + 4) routes

private theorem gainsInRange_append (env : Environment) (n : Nat)
    (routes : List (Fin 32 × Fin 16)) (route : Fin 32 × Fin 16) :
    gainsInRange env n (routes ++ [route]) =
      (gainsInRange env n routes && gainInRange env (n + 4 * routes.length) route.2) := by
  induction routes generalizing n with
  | nil => simp [gainsInRange]
  | cons first routes ih =>
    simp only [List.cons_append, gainsInRange, ih, List.length_cons, Bool.and_assoc]
    rw [show n + 4 + 4 * routes.length = n + 4 * (routes.length + 1) by omega]

private theorem stored_correction (c : CBlock) (lane : Fin 32) (correction : ℚ) :
    ∃ stored, CBlock.Acceptable stored ∧
      (if (c.setGainCorrection lane correction).1 then (c.setGainCorrection lane correction).2
        else ((c.setGainCorrection lane correction).2.setGainCorrection lane 1).2) =
      { c with gainCorrections := Function.update c.gainCorrections lane stored } := by
  rw [CBlock.setGainCorrection_eq]
  by_cases h : CBlock.Acceptable correction
  · exact ⟨correction, h, by simp [h]⟩
  · exact ⟨1, acceptable_one, by simp [h, setGainCorrection_one]⟩

private theorem measureGain_spec {env : Environment} {c₀ : Cluster} {n : Nat}
    {routes : List (Fin 32 × Fin 16)} {lane : Fin 32} {output : Fin 16} {b : Bench}
    (hroute : c₀.isRoute lane output = true) (h : Activated c₀ n routes lane b) :
    wp (measureGain env output lane)
      (fun accepted b' => accepted = gainInRange env (n + 4 * routes.length) output ∧
        Calibrating c₀ n (routes ++ [(lane, output)]) (Function.update (fun _ => 0) lane 1) b')
      (Aborted env c₀) b := by
  obtain ⟨stored, hacceptable, hstored⟩ := stored_correction b.cluster.cblock lane
    (1 / sampleAvg env b.sampleCount (gainChannel output))
  have haccepted : (b.cluster.cblock.setGainCorrection lane
      (1 / sampleAvg env b.sampleCount (gainChannel output))).1 =
      gainInRange env (n + 4 * routes.length) output := by
    rw [CBlock.setGainCorrection_eq, ← h.count, gainInRange]
    split <;> simp_all
  have hsound : Sound ⟨lane, output,
      { b.cluster with shblock := ⟨if output.val < 8 then .gainZeroToSeven else .gainEightToFifteen⟩ },
      { b.written with
        shblock := ⟨if output.val < 8 then .gainZeroToSeven else .gainEightToFifteen⟩ }⟩ :=
    ⟨measures_of_activated hroute h.map h.outputs h.upscaling h.factors h.aSideMode h.bSideMode,
      measures_of_activated hroute (h.writtenU ▸ h.map) (h.writtenI ▸ h.outputs)
        (h.writtenI ▸ h.upscaling) (h.writtenC ▸ h.factors) (h.writtenU ▸ h.aSideMode)
        (h.writtenU ▸ h.bSideMode)⟩
  simp only [measureGain, wp_bind, wp_modify, wp_get, wp_pure, Bench.mapCBlock, Bench.mapSHBlock,
    SHBlock.setState, hstored]
  refine ⟨haccepted, ⟨?_, corrections_update lane hacceptable h.safe.corrections⟩, h.clusterIdx,
    h.map, h.outputs, h.upscaling, h.factors, h.writtenI, ?_, ?_⟩
  · intro s hs
    rcases List.mem_append.mp hs with hs | hs
    · exact h.safe.samples s hs
    · rw [List.mem_singleton.mp hs]
      exact hsound
  · simp [h.keys]
  · simp only [h.count, List.length_append, List.length_singleton]
    omega

private theorem deactivateLane_spec {env : Environment} {c₀ : Cluster} {n : Nat}
    {routes : List (Fin 32 × Fin 16)} {lane : Fin 32} {b : Bench}
    (h : Calibrating c₀ n routes (Function.update (fun _ => 0) lane 1) b) :
    wp (deactivateLane env lane) (fun _ => Calibrating c₀ n routes (fun _ => 0))
      (Aborted env c₀) b := by
  simp only [deactivateLane, wp_bind, wp_modify, Bench.mapCBlock, setFactor_zero]
  refine wp_writeBlock ?_ fun hfail => ⟨hfail, h.safe.samples, h.safe.corrections⟩
  refine ⟨⟨h.safe.samples, h.safe.corrections⟩, h.clusterIdx, h.map, h.outputs, h.upscaling, ?_,
    h.writtenI, h.keys, h.count⟩
  change Function.update b.cluster.cblock.factors lane 0 = _
  rw [h.factors, Function.update_idem]
  exact Function.update_eq_self lane (fun _ => (0 : ℚ))

def laneRoutes (c : Cluster) (output : Fin 16) (lanes : List (Fin 32)) : List (Fin 32 × Fin 16) :=
  (lanes.filter fun lane => c.isRoute lane output).map fun lane => (lane, output)

/-- All routes of a cluster in the order of the two loops. -/
def routes (c : Cluster) : List (Fin 32 × Fin 16) :=
  (List.finRange 16).flatMap fun output => c.laneRoutes output (List.finRange 32)

/-- The loop invariant: the flag tells whether all corrections so far were acceptable. -/
def LoopState (env : Environment) (c₀ : Cluster) (n : Nat) (routes : List (Fin 32 × Fin 16))
    (success : Bool) (b : Bench) : Prop :=
  success = gainsInRange env n routes ∧ Calibrating c₀ n routes (fun _ => 0) b

private theorem calibrateLane_spec {env : Environment} {c₀ : Cluster} {n : Nat}
    {routes : List (Fin 32 × Fin 16)} {success : Bool} {b : Bench} (output : Fin 16)
    (lane : Fin 32) (h : LoopState env c₀ n routes success b) :
    wp (calibrateLane env output success lane)
      (LoopState env c₀ n (routes ++ c₀.laneRoutes output [lane])) (Aborted env c₀) b := by
  obtain ⟨hsuccess, hb⟩ := h
  have hroute : (b.cluster.iblock.isConnected lane output &&
      b.cluster.ublock.isOutputConnected lane) = c₀.isRoute lane output := by
    simp only [isRoute, IBlock.isConnected, IBlock.isConnectedUnchecked, hb.outputs,
      UBlock.isOutputConnected, UBlock.isOutputConnectedUnchecked, hb.map]
  simp only [calibrateLane, wp_bind, wp_get]
  by_cases hr : c₀.isRoute lane output = true
  · have hlane : c₀.laneRoutes output [lane] = [(lane, output)] := by simp [laneRoutes, hr]
    rw [hr, Bool.and_eq_true] at hroute
    simp only [hroute.1, hroute.2, Bool.not_true, Bool.false_eq_true, if_false, wp_bind, hlane]
    refine wp_mono (activateLane_spec lane hb) ?_ (fun _ _ he => he)
    intro _ b₁ h₁
    rw [wp_bind]
    refine wp_mono (activated_offsets h₁) ?_ (fun _ _ he => he)
    intro _ b₂ h₂
    rw [wp_bind]
    refine wp_mono (measureGain_spec hr h₂) ?_ (fun _ _ he => he)
    intro accepted b₃ h₃
    rw [wp_bind]
    refine wp_mono (deactivateLane_spec h₃.2) ?_ (fun _ _ he => he)
    intro _ b₄ h₄
    refine ⟨?_, h₄⟩
    rw [gainsInRange_append, hsuccess, h₃.1]
  · have hlane : c₀.laneRoutes output [lane] = [] := by simp [laneRoutes, hr]
    have hskip : (b.cluster.iblock.isConnected lane output &&
        b.cluster.ublock.isOutputConnected lane) = false := by
      rw [hroute]
      simpa using hr
    rw [hlane, List.append_nil]
    by_cases hconn : b.cluster.iblock.isConnected lane output = true
    · rw [hconn, Bool.true_and] at hskip
      simp only [hconn, hskip, Bool.not_true, Bool.not_false, Bool.false_eq_true, if_false, if_true,
        wp_pure]
      exact ⟨hsuccess, hb⟩
    · simp only [hconn, Bool.not_false, if_true, wp_pure]
      exact ⟨hsuccess, hb⟩

private theorem calibrateOutput_spec {env : Environment} {c₀ : Cluster} {n : Nat}
    {routes : List (Fin 32 × Fin 16)} {success : Bool} {b : Bench} (output : Fin 16)
    (h : LoopState env c₀ n routes success b) :
    wp ((List.finRange 32).foldlM (calibrateLane env output) success)
      (LoopState env c₀ n (routes ++ c₀.laneRoutes output (List.finRange 32)))
      (Aborted env c₀) b := by
  refine wp_foldlM (fun done => LoopState env c₀ n (routes ++ c₀.laneRoutes output done)) _ _ ?_ ?_
  · rw [show c₀.laneRoutes output [] = [] from rfl, List.append_nil]
    exact h
  · intro done lane rest success' b' _ h'
    have hnext : routes ++ c₀.laneRoutes output (done ++ [lane]) =
        routes ++ c₀.laneRoutes output done ++ c₀.laneRoutes output [lane] := by
      simp only [laneRoutes, List.filter_append, List.map_append, List.append_assoc]
    rw [hnext]
    exact calibrateLane_spec output lane h'

private theorem calibrateLoops_spec {env : Environment} {c₀ : Cluster} {b : Bench} {n : Nat}
    (h : Calibrating c₀ n [] (fun _ => 0) b) :
    wp ((List.finRange 16).foldlM (fun success output =>
        (List.finRange 32).foldlM (calibrateLane env output) success) true)
      (LoopState env c₀ n c₀.routes) (Aborted env c₀) b := by
  refine wp_foldlM (fun done => LoopState env c₀ n
    (done.flatMap fun output => c₀.laneRoutes output (List.finRange 32))) _ _ ⟨rfl, h⟩ ?_
  intro done output rest success b' _ h'
  rw [List.flatMap_append, List.flatMap_singleton]
  exact calibrateOutput_spec output h'

/-- The cluster after a calibration whose writes all succeeded: only corrections may differ, and
the SH block injects. -/
def Restored (c₀ c : Cluster) : Prop :=
  ∃ corrections, c = { c₀ with
    cblock := { c₀.cblock with gainCorrections := corrections }
    shblock := ⟨.inject⟩ }

private theorem restoreBlocks_spec {env : Environment} {c₀ : Cluster} {n : Nat}
    {routes : List (Fin 32 × Fin 16)} {b : Bench} (h : Calibrating c₀ n routes (fun _ => 0) b) :
    wp (restoreBlocks env c₀)
      (fun _ b' => Safe c₀ b' ∧ Restored c₀ b'.cluster ∧ b'.samples = b.samples ∧
        b'.sampleCount = b.sampleCount) (Aborted env c₀) b := by
  simp only [restoreBlocks, wp_bind, wp_modify]
  refine wp_writeBlock ?_ fun hfail => ⟨hfail, h.safe.samples, h.safe.corrections⟩
  rw [wp_bind]
  refine wp_mono (calibrateOffsets_spec env _) ?_ ?_
  · intro _ b₁ hb₁
    subst hb₁
    simp only [wp_bind, wp_modify]
    refine wp_writeBlock ?_ fun hfail => ⟨hfail, h.safe.samples, h.safe.corrections⟩
    simp only [wp_bind, wp_modify]
    refine wp_writeBlock ?_ fun hfail => ⟨hfail, h.safe.samples, h.safe.corrections⟩
    refine ⟨⟨h.safe.samples, h.safe.corrections⟩, ⟨b.cluster.cblock.gainCorrections, ?_⟩, rfl, rfl⟩
    have hidx := h.clusterIdx
    have hmap := h.map
    have houtputs := h.outputs
    simp only [Bench.mapSHBlock, Bench.mapIBlock, Bench.mapUBlock, Bench.mapCBlock,
      SHBlock.setState, IBlock.setUpscales, UBlock.changeReferenceMagnitude,
      UBlock.changeAllTransmissionModes, UBlock.changeASideTransmissionMode,
      UBlock.changeBSideTransmissionMode, UBlock.getAllTransmissionModes, CBlock.setFactors,
      hidx, hmap, houtputs]
  · intro _ b₁ hb₁
    exact ⟨hb₁.1, h.safe.of_eq hb₁.2.1 hb₁.2.2⟩

/-- What a calibration that returns has done. -/
structure Calibrated (env : Environment) (b : Bench) (success : Bool) (b' : Bench) : Prop where
  safe : Safe b.cluster b'
  success_eq : success = gainsInRange env b.sampleCount b.cluster.routes
  restored : Restored b.cluster b'.cluster
  keys : b'.samples.map (fun s => (s.lane, s.output)) = b.cluster.routes
  count : b'.sampleCount = b.sampleCount + 4 * b.cluster.routes.length

/-- The calibration measures all routes and restores the blocks, or a write failed. -/
theorem calibrateRoutes_spec (env : Environment) (b : Bench) (hb : b.samples = []) :
    wp (calibrateRoutes env) (Calibrated env b) (Aborted env b.cluster) b := by
  have hold (i : Fin 32) : b.cluster.cblock.gainCorrections i = b.cluster.cblock.gainCorrections i ∨
      CBlock.Acceptable (b.cluster.cblock.gainCorrections i) := Or.inl rfl
  have hnone : ∀ s ∈ b.samples, Sound s := by
    rw [hb]
    intro s hs
    exact absurd hs List.not_mem_nil
  have hkeys : b.samples.map (fun s => (s.lane, s.output)) = [] := by
    rw [hb]
    rfl
  simp only [calibrateRoutes, wp_bind, wp_get, wp_modify]
  refine wp_writeBlock ?_ fun hfail => ⟨hfail, hnone, hold⟩
  simp only [wp_bind, wp_modify]
  refine wp_writeBlock ?_ fun hfail => ⟨hfail, hnone, hold⟩
  rw [wp_bind]
  refine wp_mono (calibrateLoops_spec
    ⟨⟨hnone, hold⟩, rfl, rfl, rfl, rfl, rfl, rfl, hkeys, rfl⟩) ?_ (fun _ _ he => he)
  intro success b₁ h₁
  obtain ⟨hsuccess, h₁⟩ := h₁
  rw [wp_bind]
  refine wp_mono (restoreBlocks_spec h₁) ?_ (fun _ _ he => he)
  intro _ b₂ h₂
  obtain ⟨hsafe, hrestored, hsamples, hcount⟩ := h₂
  exact ⟨hsafe, hsuccess, hrestored, hsamples ▸ h₁.keys, hcount ▸ h₁.count⟩

private theorem mem_routes (c : Cluster) (lane : Fin 32) (output : Fin 16) :
    (lane, output) ∈ c.routes ↔ c.isRoute lane output = true := by
  simp only [routes, laneRoutes, List.mem_flatMap, List.mem_finRange, true_and, List.mem_map,
    List.mem_filter, Prod.mk.injEq]
  constructor
  · intro h
    obtain ⟨_, _, hroute, rfl, rfl⟩ := h
    exact hroute
  · intro h
    exact ⟨output, lane, h, rfl, rfl⟩

private theorem nodup_routes (c : Cluster) : c.routes.Nodup := by
  refine List.nodup_flatMap.mpr ⟨fun output _ => ?_, ?_⟩
  · exact ((List.nodup_finRange 32).filter _).map fun a b h => (Prod.mk.inj h).1
  · refine (List.nodup_finRange 16).imp fun hne => ?_
    intro route h h'
    simp only [laneRoutes, List.mem_map] at h h'
    obtain ⟨_, _, rfl⟩ := h
    obtain ⟨_, _, heq⟩ := h'
    exact hne (Prod.mk.inj heq).2.symm

private theorem count_routes (c : Cluster) (lane : Fin 32) (output : Fin 16) :
    c.routes.count (lane, output) = if c.isRoute lane output then 1 else 0 := by
  rw [c.nodup_routes.count]
  simp only [mem_routes]

/-- However the writes and readings turn out, every measurement is taken on one active lane with
the positive reference and without upscaling, every route is measured once when no write fails,
and a correction is kept or replaced by an acceptable one. -/
theorem calibrateRoutes_measures (env : Environment) (cluster written : Cluster)
    (writeCount sampleCount : Nat) :
    (∀ s ∈ (finalState (calibrateRoutes env) ⟨⟨cluster, written⟩, writeCount, sampleCount, []⟩).samples,
      s.cluster.Measures s.lane s.output ∧ s.written.Measures s.lane s.output) ∧
    ((∀ n, env.writeOk n = true) → ∀ lane output,
      ((finalState (calibrateRoutes env) ⟨⟨cluster, written⟩, writeCount, sampleCount, []⟩).samples.map
        fun s => (s.lane, s.output)).count (lane, output) =
          if cluster.iblock.isConnected lane output && cluster.ublock.isOutputConnected lane
          then 1 else 0) ∧
    (∀ i, (finalState (calibrateRoutes env)
        ⟨⟨cluster, written⟩, writeCount, sampleCount, []⟩).cluster.cblock.gainCorrections i =
          cluster.cblock.gainCorrections i ∨
      9 / 10 ≤ (finalState (calibrateRoutes env)
        ⟨⟨cluster, written⟩, writeCount, sampleCount, []⟩).cluster.cblock.gainCorrections i ∧
      (finalState (calibrateRoutes env)
        ⟨⟨cluster, written⟩, writeCount, sampleCount, []⟩).cluster.cblock.gainCorrections i ≤ 11 / 10) := by
  have hspec := calibrateRoutes_spec env ⟨⟨cluster, written⟩, writeCount, sampleCount, []⟩ rfl
  simp only [wp] at hspec
  simp only [finalState]
  cases hrun : calibrateRoutes env ⟨⟨cluster, written⟩, writeCount, sampleCount, []⟩ with
  | ok success b =>
    simp only [hrun] at hspec
    refine ⟨hspec.safe.samples, fun _ lane output => ?_, hspec.safe.corrections⟩
    rw [hspec.keys]
    exact count_routes cluster lane output
  | error e b =>
    simp only [hrun] at hspec
    obtain ⟨⟨n, hn⟩, hsafe⟩ := hspec
    refine ⟨hsafe.samples, fun hok => ?_, hsafe.corrections⟩
    rw [hok n] at hn
    exact absurd hn (by decide)

theorem calibrateRoutes_measures_single :
    ((finalState (calibrateRoutes ⟨fun _ => true, fun _ _ => 1⟩)
      ⟨⟨⟨0, (UBlock.initial.connect 0 3 false).2, .initial,
          (IBlock.initial.connect 3 5 false false).2, ⟨.inject⟩⟩,
        ⟨0, .initial, .initial, .initial, ⟨.inject⟩⟩⟩, 0, 0, []⟩).samples.map
        fun s => (s.lane, s.output)).count (3, 5) = 1 :=
  (calibrateRoutes_measures ⟨fun _ => true, fun _ _ => 1⟩ _ _ 0 0).2.1 (fun _ => rfl) 3 5

end Lucidac.Cluster
