import Mathlib.Data.Nat.Bitwise
import Lucidac.Utils.Status

/-!
# The status of a hardware write

Writing a configuration to the hardware is a tree of individual writes.  Carrier, front panel and
LUCIDAC condense their outcomes into one status code: clusters add their index, the CTRL block and
the ADC bus set a bit each, and the other parts are attached with a factor of 128.  Different
failures can therefore cancel.
-/

namespace Lucidac

/-- Outcomes of the six DAC channels of the signal generator, in the order they are written. -/
abbrev DacWrites := Fin 6 → Bool

/-- Outcomes on the front panel; the generator is `none` when it is not installed. -/
structure FrontPanelWrites where
  leds : Bool
  signalGenerator : Option DacWrites

/-- Statuses of the installed blocks of one cluster; `none` is an empty slot. -/
abbrev ClusterWrites := List (Option Status)

/-- Outcomes of everything that `LUCIDAC::write_to_hardware` writes. -/
structure HardwareWrites where
  clusters : List ClusterWrites
  ctrlBlock : Option Bool
  adcBusMux : Bool
  frontPanel : Option FrontPanelWrites
  acl : Bool

namespace DacWrites

def writeToHardware (setChannel : DacWrites) : Status :=
  if !setChannel 0 then ⟨-1, "FP DAC"⟩
  else if !setChannel 1 then ⟨-2, "FP DSLC"⟩
  else if !setChannel 2 then ⟨-3, "FP DSHC"⟩
  else if !setChannel 3 then ⟨-4, "FP DOC"⟩
  else if !setChannel 4 then ⟨-5, "FP DO0C"⟩
  else if !setChannel 5 then ⟨-6, "FP DO1C"⟩
  else .success

/-- One more than the first channel that fails, zero when none does. -/
def fault (setChannel : DacWrites) : Nat :=
  if !setChannel 0 then 1
  else if !setChannel 1 then 2
  else if !setChannel 2 then 3
  else if !setChannel 3 then 4
  else if !setChannel 4 then 5
  else if !setChannel 5 then 6
  else 0

theorem writeToHardware_code (setChannel : DacWrites) :
    setChannel.writeToHardware.code = -BitVec.ofNat 32 setChannel.fault := by
  simp only [writeToHardware, fault]
  repeat' split
  all_goals rfl

theorem fault_eq_zero_iff (setChannel : DacWrites) :
    setChannel.fault = 0 ↔ ∀ channel, setChannel channel = true := by
  constructor
  · intro h
    simp only [fault] at h
    split_ifs at h
    intro channel
    obtain rfl | rfl | rfl | rfl | rfl | rfl : channel = 0 ∨ channel = 1 ∨ channel = 2 ∨
      channel = 3 ∨ channel = 4 ∨ channel = 5 := by omega
    all_goals simp_all
  · intro h
    simp [fault, h]

end DacWrites

namespace FrontPanelWrites

def writeToHardware (w : FrontPanelWrites) : Status :=
  let ret := Status.empty.attach (.ofBool w.leds) "FP LED failure"
  match w.signalGenerator with
  | some setChannel => ret.attach setChannel.writeToHardware "Signal generator failure"
  | none => ret

def ledFault (w : FrontPanelWrites) : Nat := if w.leds then 0 else 1

def generatorFault (w : FrontPanelWrites) : Nat := w.signalGenerator.elim 0 DacWrites.fault

theorem writeToHardware_code (w : FrontPanelWrites) :
    w.writeToHardware.code =
      BitVec.ofNat 32 w.ledFault * 128 + -BitVec.ofNat 32 w.generatorFault * 128 := by
  have hled : (Status.ofBool w.leds).code = BitVec.ofNat 32 w.ledFault := by
    simp only [Status.ofBool, Status.ofCode, ledFault]
    cases w.leds <;> rfl
  simp only [writeToHardware, generatorFault]
  cases w.signalGenerator with
  | none => simp [Status.attach_code, hled, Status.empty]
  | some setChannel =>
    simp [Status.attach_code, hled, Status.empty, DacWrites.writeToHardware_code]

end FrontPanelWrites

namespace ClusterWrites

/-- `Cluster::write_to_hardware`: the first block that fails ends it. -/
def writeToHardware : ClusterWrites → Status
  | [] => .success
  | none :: blocks => writeToHardware blocks
  | some block :: blocks => if block.isOk then writeToHardware blocks else .failure

def AllOk (blocks : ClusterWrites) : Prop := ∀ block, some block ∈ blocks → block.isOk = true

theorem writeToHardware_isOk_iff (blocks : ClusterWrites) :
    blocks.writeToHardware.isOk = true ↔ blocks.AllOk := by
  induction blocks with
  | nil => simp [writeToHardware, AllOk]
  | cons block blocks ih =>
    cases block with
    | none => simpa [writeToHardware, AllOk] using ih
    | some block =>
      cases hb : block.isOk with
      | true => simpa [writeToHardware, AllOk, hb] using ih
      | false => simp [writeToHardware, AllOk, hb]

end ClusterWrites

namespace HardwareWrites

/-- The cluster loop of `Carrier::write_to_hardware`. -/
def writeClusters (clusterIndex : Nat) (error : Status) : List ClusterWrites → Status
  | [] => error
  | cluster :: clusters =>
    if cluster.writeToHardware.isOk then writeClusters (clusterIndex + 1) error clusters
    else writeClusters (clusterIndex + 1)
      ⟨error.code + BitVec.ofNat 32 clusterIndex, error.msg ++ "Cluster write failed."⟩ clusters

def carrierWriteToHardware (w : HardwareWrites) : Status :=
  let error := writeClusters 0 .empty w.clusters
  let error : Status := if w.ctrlBlock = some false then
    ⟨error.code ||| 0x4, error.msg ++ "CTRL Block write failed."⟩ else error
  if !w.adcBusMux then ⟨error.code ||| 0x8, error.msg ++ "ADC Bus write failed."⟩ else error

def writeToHardware (w : HardwareWrites) : Status :=
  let error := w.carrierWriteToHardware
  let error := match w.frontPanel with
    | some panel => error.attach panel.writeToHardware "Front Panel write failed."
    | none => error
  if !w.acl then error.attachRaw (1 <<< 5) "Write ACL failed" else error

def AllOk (w : HardwareWrites) : Prop :=
  (∀ cluster ∈ w.clusters, cluster.AllOk) ∧ w.ctrlBlock ≠ some false ∧ w.adcBusMux = true ∧
    (∀ panel ∈ w.frontPanel, panel.leds = true ∧
      ∀ setChannel ∈ panel.signalGenerator, ∀ channel, setChannel channel = true) ∧
    w.acl = true

/-- The sum of the indices of the failing clusters, counted from `clusterIndex`. -/
def failedIndexSum (clusterIndex : Nat) : List ClusterWrites → Nat
  | [] => 0
  | cluster :: clusters =>
    (if cluster.writeToHardware.isOk then 0 else clusterIndex) +
      failedIndexSum (clusterIndex + 1) clusters

def ledFault (w : HardwareWrites) : Nat := w.frontPanel.elim 0 FrontPanelWrites.ledFault

def generatorFault (w : HardwareWrites) : Nat := w.frontPanel.elim 0 FrontPanelWrites.generatorFault

def aclFault (w : HardwareWrites) : Nat := if w.acl then 0 else 1

/-- The contributions of clusters, LEDs, ACL register and signal generator cancel in 32 bits. -/
def Cancels (w : HardwareWrites) : Prop :=
  (failedIndexSum 0 w.clusters + 16384 * w.ledFault + 4096 * w.aclFault) % 2^32 =
    16384 * w.generatorFault % 2^32

instance (w : HardwareWrites) : Decidable w.Cancels := inferInstanceAs (Decidable (_ = _))

private theorem writeClusters_code (clusterIndex : Nat) (error : Status)
    (clusters : List ClusterWrites) :
    (writeClusters clusterIndex error clusters).code =
      error.code + BitVec.ofNat 32 (failedIndexSum clusterIndex clusters) := by
  induction clusters generalizing clusterIndex error with
  | nil => simp [writeClusters, failedIndexSum]
  | cons cluster clusters ih =>
    simp only [writeClusters, failedIndexSum]
    split
    · rw [ih, Nat.zero_add]
    · rw [ih, BitVec.ofNat_add, BitVec.add_assoc]

private theorem carrier_code (w : HardwareWrites) :
    w.carrierWriteToHardware.code =
      BitVec.ofNat 32 (failedIndexSum 0 w.clusters) |||
        (if w.ctrlBlock = some false then 0x4 else 0) ||| (if w.adcBusMux then 0 else 0x8) := by
  have hclusters := writeClusters_code 0 .empty w.clusters
  rw [show Status.empty.code = 0#32 from rfl, BitVec.zero_add] at hclusters
  simp only [carrierWriteToHardware]
  split_ifs <;> simp_all

private theorem writeToHardware_code (w : HardwareWrites) :
    w.writeToHardware.code + BitVec.ofNat 32 (16384 * w.generatorFault) =
      w.carrierWriteToHardware.code + BitVec.ofNat 32 (16384 * w.ledFault + 4096 * w.aclFault) := by
  have hscale (a b : BitVec 32) : (a * 128 + -b * 128) * 128 + 16384 * b = 16384 * a := by
    grind
  have hpanel : (match w.frontPanel with
      | some panel => w.carrierWriteToHardware.attach panel.writeToHardware "Front Panel write failed."
      | none => w.carrierWriteToHardware).code + BitVec.ofNat 32 (16384 * w.generatorFault) =
      w.carrierWriteToHardware.code + BitVec.ofNat 32 (16384 * w.ledFault) := by
    simp only [ledFault, generatorFault, BitVec.ofNat_mul]
    cases w.frontPanel with
    | none => rfl
    | some panel =>
      simp only [Status.attach_code, FrontPanelWrites.writeToHardware_code, Option.elim_some,
        BitVec.add_assoc]
      congr 1
      exact hscale _ _
  simp only [writeToHardware, aclFault]
  cases w.acl with
  | true => simpa using hpanel
  | false =>
    simp only [Bool.not_false, if_true, Status.attachRaw_code, Bool.false_eq_true, if_false]
    rw [BitVec.add_assoc, BitVec.add_comm (1 <<< 5 * 128), ← BitVec.add_assoc, hpanel,
      BitVec.ofNat_add, BitVec.add_assoc]
    rfl

private theorem low_bit_survives {a : BitVec 32} {m n : Nat} {i : Nat} (hi : i < 12)
    (hbit : a.getLsbD i = true) :
    a + BitVec.ofNat 32 (4096 * m) ≠ BitVec.ofNat 32 (4096 * n) := by
  intro h
  have hnat := congrArg BitVec.toNat h
  rw [BitVec.toNat_add, BitVec.toNat_ofNat, BitVec.toNat_ofNat] at hnat
  have hlow : a.toNat % 2^12 = 0 := by omega
  have htest : a.toNat.testBit i = false := by
    have := Nat.testBit_mod_two_pow a.toNat 12 i
    rw [hlow, Nat.zero_testBit] at this
    simpa [hi] using this.symm
  rw [← BitVec.testBit_toNat, htest] at hbit
  exact Bool.false_ne_true hbit

private theorem isOk_iff_codes (w : HardwareWrites) :
    w.writeToHardware.isOk = true ↔
      w.carrierWriteToHardware.code + BitVec.ofNat 32 (4096 * (4 * w.ledFault + w.aclFault)) =
        BitVec.ofNat 32 (4096 * (4 * w.generatorFault)) := by
  have hcode := writeToHardware_code w
  rw [show 16384 * w.ledFault + 4096 * w.aclFault = 4096 * (4 * w.ledFault + w.aclFault) by omega,
    show 16384 * w.generatorFault = 4096 * (4 * w.generatorFault) by omega] at hcode
  rw [← hcode, BitVec.add_left_eq_self, Status.isOk, beq_iff_eq]
  rfl

private theorem isOk_iff_cancels (w : HardwareWrites) :
    w.writeToHardware.isOk = true ↔
      w.ctrlBlock ≠ some false ∧ w.adcBusMux = true ∧ w.Cancels := by
  rw [isOk_iff_codes]
  by_cases hctrl : w.ctrlBlock = some false
  · have hbit : w.carrierWriteToHardware.code.getLsbD 2 = true := by
      simp [carrier_code, hctrl]
    exact iff_of_false (low_bit_survives (by decide) hbit) fun h => h.1 hctrl
  · by_cases hmux : w.adcBusMux = true
    · have hcarrier : w.carrierWriteToHardware.code =
          BitVec.ofNat 32 (failedIndexSum 0 w.clusters) := by
        simp [carrier_code, hctrl, hmux]
      rw [hcarrier, ← BitVec.ofNat_add, ← BitVec.toNat_inj, BitVec.toNat_ofNat, BitVec.toNat_ofNat]
      simp only [ne_eq, hctrl, not_false_eq_true, hmux, true_and, Cancels]
      rw [show failedIndexSum 0 w.clusters + 4096 * (4 * w.ledFault + w.aclFault) =
        failedIndexSum 0 w.clusters + 16384 * w.ledFault + 4096 * w.aclFault by omega,
        show 4096 * (4 * w.generatorFault) = 16384 * w.generatorFault by omega]
    · have hbit : w.carrierWriteToHardware.code.getLsbD 3 = true := by
        simp [carrier_code, hmux]
      exact iff_of_false (low_bit_survives (by decide) hbit) fun h => hmux h.2.1

private theorem failedIndexSum_of_allOk {clusters : List ClusterWrites} (clusterIndex : Nat)
    (h : ∀ cluster ∈ clusters, cluster.AllOk) : failedIndexSum clusterIndex clusters = 0 := by
  induction clusters generalizing clusterIndex with
  | nil => rfl
  | cons cluster clusters ih =>
    have hok : cluster.writeToHardware.isOk = true :=
      cluster.writeToHardware_isOk_iff.mpr (h cluster List.mem_cons_self)
    simp only [failedIndexSum, hok, if_true, Nat.zero_add]
    exact ih _ fun other hmem => h other (List.mem_cons_of_mem _ hmem)

private theorem cancels_of_allOk {w : HardwareWrites} (h : w.AllOk) : w.Cancels := by
  obtain ⟨hclusters, -, -, hpanel, hacl⟩ := h
  have hfaults : w.ledFault = 0 ∧ w.generatorFault = 0 := by
    simp only [ledFault, generatorFault]
    cases hfp : w.frontPanel with
    | none => exact ⟨rfl, rfl⟩
    | some panel =>
      obtain ⟨hleds, hgenerator⟩ := hpanel panel hfp
      refine ⟨by simp [FrontPanelWrites.ledFault, hleds], ?_⟩
      simp only [Option.elim_some, FrontPanelWrites.generatorFault]
      cases hsg : panel.signalGenerator with
      | none => rfl
      | some setChannel => exact setChannel.fault_eq_zero_iff.mpr (hgenerator setChannel hsg)
  simp [Cancels, failedIndexSum_of_allOk 0 hclusters, hfaults.1, hfaults.2, aclFault, hacl]

theorem isOk_of_allOk {w : HardwareWrites} (h : w.AllOk) : w.writeToHardware.isOk = true :=
  (isOk_iff_cancels w).mpr ⟨h.2.1, h.2.2.1, cancels_of_allOk h⟩

/-- With few clusters the contributions cancel in two ways only: at most cluster 0 fails, and the
front panel is intact or fails with its LEDs and the first DAC channel. -/
theorem cancels_iff_of_small (w : HardwareWrites) (h : failedIndexSum 0 w.clusters < 4096) :
    w.Cancels ↔ failedIndexSum 0 w.clusters = 0 ∧ w.ledFault = w.generatorFault ∧ w.acl = true := by
  have hled : w.ledFault ≤ 1 := by
    simp only [ledFault]
    cases w.frontPanel with
    | none => exact Nat.zero_le _
    | some panel =>
      simp only [Option.elim_some, FrontPanelWrites.ledFault]
      split <;> decide
  have hgenerator : w.generatorFault ≤ 6 := by
    simp only [generatorFault]
    cases w.frontPanel with
    | none => exact Nat.zero_le _
    | some panel =>
      simp only [Option.elim_some, FrontPanelWrites.generatorFault]
      cases panel.signalGenerator with
      | none => exact Nat.zero_le _
      | some setChannel =>
        simp only [Option.elim_some, DacWrites.fault]
        split_ifs <;> decide
  simp only [Cancels, aclFault]
  rw [Nat.mod_eq_of_lt (by split <;> omega), Nat.mod_eq_of_lt (by omega)]
  cases w.acl
  · simp only [Bool.false_eq_true, if_false, and_false, iff_false]
    omega
  · simp only [if_true, and_true]
    omega

/-- The returned status tells success from failure exactly when every write succeeded, or the
CTRL block or the ADC bus failed, or the other contributions do not cancel. -/
theorem writeToHardware_isOk_iff_allOk_iff (w : HardwareWrites) :
    (w.writeToHardware.isOk = true ↔ w.AllOk) ↔
      w.AllOk ∨ w.ctrlBlock = some false ∨ w.adcBusMux = false ∨ ¬ w.Cancels := by
  rw [isOk_iff_cancels]
  by_cases hall : w.AllOk
  · simp [hall, cancels_of_allOk hall, hall.2.1, hall.2.2.1]
  · simp only [hall, iff_false, false_or, not_and, ne_eq]
    by_cases hctrl : w.ctrlBlock = some false <;> cases hmux : w.adcBusMux <;> simp [hctrl]

/-- A failing block in cluster 0 alone is reported as success. -/
theorem cluster_zero_failure_is_ok :
    ¬ ((⟨[[some .failure]], some true, true, none, true⟩ : HardwareWrites).writeToHardware.isOk = true ↔
      (⟨[[some .failure]], some true, true, none, true⟩ : HardwareWrites).AllOk) := by
  have hok : (⟨[[some .failure]], some true, true, none, true⟩ :
      HardwareWrites).writeToHardware.isOk = true := by decide
  intro h
  have hcluster := (h.mp hok).1 [some .failure] List.mem_cons_self .failure List.mem_cons_self
  exact absurd hcluster (by decide)

end HardwareWrites

end Lucidac
