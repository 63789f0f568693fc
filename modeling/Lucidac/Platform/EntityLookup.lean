import Lucidac.Platform.Entities

/-!
# Finding a child by its identifier

A cluster finds exactly the children it lists.  The carrier reads a text of digits as a position
among its clusters.  It finds the right child unless the text is empty, too large for 32 bits,
written differently from the identifier of the cluster at that position, or equal to the number of
clusters; in the last case the lookup leaves the vector.
-/

namespace Lucidac.Platform

/-- The lookup delivers a listed child with this identifier, or null when there is none. -/
def FindsListed (listed : List Ref) (idOf : Ref → String) (childId : String) :
    Except Fault (Option Ref) → Prop
  | .ok (some ref) => ref ∈ listed ∧ idOf ref = childId
  | .ok none => ∀ ref ∈ listed, idOf ref ≠ childId
  | .error _ => False

theorem Slot.entityId_injective : Function.Injective Slot.entityId := by
  intro a b
  cases a <;> cases b <;> decide

namespace Cluster

def FindsListed (s : Cluster) (childId : String) : Prop :=
  match s.getChildEntity childId with
  | some slot => some slot ∈ s.getChildEntities ∧ slot.entityId = childId
  | none => ∀ slot, some slot ∈ s.getChildEntities → slot.entityId ≠ childId

theorem mem_getChildEntities (s : Cluster) (slot : Slot) :
    some slot ∈ s.getChildEntities ↔ (s.blocks slot).isSome = true := by
  simp only [getChildEntities, List.mem_map]
  constructor
  · intro h
    obtain ⟨other, -, hother⟩ := h
    cases hblock : s.blocks other with
    | none => rw [hblock] at hother; cases hother
    | some block =>
      rw [hblock] at hother
      cases hother
      rw [hblock]
      rfl
  · intro h
    refine ⟨slot, ?_, ?_⟩
    · cases slot <;> decide
    · rw [Option.map_eq_some_iff]
      obtain ⟨block, hblock⟩ := Option.isSome_iff_exists.mp h
      exact ⟨block, hblock, rfl⟩

theorem getChildEntity_entityId (s : Cluster) (slot : Slot) :
    s.getChildEntity slot.entityId = (s.blocks slot).map fun _ => slot := by
  cases slot <;> rfl

theorem getChildEntity_of_unknown (s : Cluster) {childId : String}
    (h : ∀ slot : Slot, slot.entityId ≠ childId) : s.getChildEntity childId = none := by
  have hm0 : childId ≠ "M0" := (h .m0).symm
  have hm1 : childId ≠ "M1" := (h .m1).symm
  have hu : childId ≠ "U" := (h .u).symm
  have hc : childId ≠ "C" := (h .c).symm
  have hi : childId ≠ "I" := (h .i).symm
  have hsh : childId ≠ "SH" := (h .sh).symm
  simp only [getChildEntity]
  rw [if_neg hm0, if_neg hm1, if_neg hu, if_neg hc, if_neg hi, if_neg hsh]

theorem findsListed (s : Cluster) (childId : String) : s.FindsListed childId := by
  by_cases hknown : ∃ slot : Slot, slot.entityId = childId
  · obtain ⟨slot, rfl⟩ := hknown
    simp only [FindsListed]
    rw [getChildEntity_entityId]
    cases hblock : s.blocks slot with
    | some block =>
      refine ⟨?_, rfl⟩
      rw [mem_getChildEntities, hblock]
      rfl
    | none =>
      intro other hother he
      rw [mem_getChildEntities, Slot.entityId_injective he, hblock] at hother
      cases hother
  · have hunknown (slot : Slot) : slot.entityId ≠ childId := fun he => hknown ⟨slot, he⟩
    simp only [FindsListed]
    rw [getChildEntity_of_unknown s hunknown]
    exact fun slot _ => hunknown slot

end Cluster

namespace LUCIDAC

/-- The digits of the identifier lead to a cluster that has it, or past all clusters. -/
structure LeadsToCluster (s : LUCIDAC) (childId : String) : Prop where
  nonempty : childId.toList ≠ []
  fits : digitsValue childId.toList < 2^32
  not_count : digitsValue childId.toList ≠ s.clusters.length
  found : ∀ cluster, s.clusters[digitsValue childId.toList]? = some cluster →
    cluster.entityId = childId
  missing : s.clusters.length < digitsValue childId.toList →
    ∀ cluster ∈ s.clusters, cluster.entityId ≠ childId

theorem mem_carrierGetChildEntities (s : LUCIDAC) (ref : Ref) :
    ref ∈ s.carrierGetChildEntities ↔
      (∃ idx, idx < s.clusters.length ∧ ref = .cluster idx) ∨
        ref = .ctrlBlock ∧ s.ctrlBlock.isSome = true := by
  simp only [carrierGetChildEntities, List.mem_append, List.mem_map, List.mem_range,
    Option.mem_toList, Option.map_eq_some_iff, Option.isSome_iff_exists]
  constructor
  · intro h
    rcases h with ⟨idx, hidx, rfl⟩ | ⟨block, hblock, rfl⟩
    · exact Or.inl ⟨idx, hidx, rfl⟩
    · exact Or.inr ⟨rfl, block, hblock⟩
  · intro h
    rcases h with ⟨idx, hidx, rfl⟩ | ⟨rfl, block, hblock⟩
    · exact Or.inl ⟨idx, hidx, rfl⟩
    · exact Or.inr ⟨block, hblock, rfl⟩

theorem mem_lucidacGetChildEntities (s : LUCIDAC) (ref : Ref) :
    ref ∈ s.lucidacGetChildEntities ↔
      ref ∈ s.carrierGetChildEntities ∨ ref = .frontPanel ∧ s.frontPanel.isSome = true := by
  simp only [lucidacGetChildEntities, List.mem_append, Option.mem_toList, Option.map_eq_some_iff,
    Option.isSome_iff_exists]
  constructor
  · intro h
    rcases h with h | ⟨panel, hpanel, rfl⟩
    · exact Or.inl h
    · exact Or.inr ⟨rfl, panel, hpanel⟩
  · intro h
    rcases h with h | ⟨rfl, panel, hpanel⟩
    · exact Or.inl h
    · exact Or.inr ⟨panel, hpanel, rfl⟩

theorem entityIdOf_cluster (s : LUCIDAC) {idx : Nat} {cluster : Cluster}
    (h : s.clusters[idx]? = some cluster) : s.entityIdOf (.cluster idx) = cluster.entityId := by
  simp only [entityIdOf]
  rw [h]
  rfl

/-- No child with a numeric identifier is anything but a cluster. -/
theorem entityIdOf_ne_of_not_isNumber (s : LUCIDAC) {childId : String}
    (h : isNumber childId = false) {idx : Nat} (hidx : idx < s.clusters.length) :
    s.entityIdOf (.cluster idx) ≠ childId := by
  rw [s.entityIdOf_cluster (List.getElem?_eq_getElem hidx)]
  intro he
  rw [← he, Cluster.entityId, isNumber_toString] at h
  exact absurd h.symm Bool.false_ne_true

theorem isNumber_ctrl : isNumber "CTRL" = false := by decide

theorem isNumber_fp : isNumber "FP" = false := by decide

theorem leadsToCluster_iff_of_lt (s : LUCIDAC) {childId : String} (hne : childId.toList ≠ [])
    (hfits : digitsValue childId.toList < 2^32)
    (hlt : digitsValue childId.toList < s.clusters.length) :
    s.LeadsToCluster childId ↔ s.entityIdOf (.cluster (digitsValue childId.toList)) = childId := by
  have hget := List.getElem?_eq_getElem hlt
  constructor
  · intro hleads
    rw [s.entityIdOf_cluster hget]
    exact hleads.found _ hget
  · intro hid
    refine ⟨hne, hfits, Nat.ne_of_lt hlt, ?_, fun hgt => absurd hgt (Nat.lt_asymm hlt)⟩
    intro cluster hcluster
    rw [← s.entityIdOf_cluster hcluster]
    exact hid

theorem leadsToCluster_iff_of_gt (s : LUCIDAC) {childId : String} (hne : childId.toList ≠ [])
    (hfits : digitsValue childId.toList < 2^32)
    (hgt : s.clusters.length < digitsValue childId.toList) :
    s.LeadsToCluster childId ↔
      ∀ idx, idx < s.clusters.length → s.entityIdOf (.cluster idx) ≠ childId := by
  constructor
  · intro hleads idx hidx
    rw [s.entityIdOf_cluster (List.getElem?_eq_getElem hidx)]
    exact hleads.missing hgt _ (List.getElem_mem hidx)
  · intro hmissing
    refine ⟨hne, hfits, Nat.ne_of_gt hgt, ?_, ?_⟩
    · intro cluster hcluster
      rw [List.getElem?_eq_none (Nat.le_of_lt hgt)] at hcluster
      cases hcluster
    · intro _ cluster hcluster
      obtain ⟨idx, hidx⟩ := List.getElem?_of_mem hcluster
      rw [← s.entityIdOf_cluster hidx]
      exact hmissing idx (List.getElem?_eq_some_iff.mp hidx).1

/-- `FindsListed` for a text of digits, whatever non-numeric children are listed beside the
clusters. -/
theorem findsListed_isNumber (s : LUCIDAC) {listed : List Ref} {childId : String}
    (h : isNumber childId = true)
    (hclusters : ∀ idx, idx < s.clusters.length → .cluster idx ∈ listed)
    (hothers : ∀ ref ∈ listed, (∃ idx, idx < s.clusters.length ∧ ref = .cluster idx) ∨
      isNumber (s.entityIdOf ref) = false) :
    FindsListed listed s.entityIdOf childId (s.carrierGetChildEntity childId) ↔
      s.LeadsToCluster childId := by
  simp only [carrierGetChildEntity]
  rw [if_pos h, stoul_of_isNumber h]
  by_cases hbad : childId.toList = [] ∨ 2^32 ≤ digitsValue childId.toList
  · rw [if_pos hbad]
    constructor
    · exact False.elim
    · intro hleads
      exact hbad.elim hleads.nonempty (Nat.not_le.mpr hleads.fits)
  · rw [if_neg hbad]
    rw [not_or, Nat.not_le] at hbad
    dsimp only
    rcases Nat.lt_trichotomy (digitsValue childId.toList) s.clusters.length with hlt | heq | hgt
    · rw [if_neg (Nat.not_lt.mpr (Nat.le_of_lt hlt)), if_pos hlt,
        s.leadsToCluster_iff_of_lt hbad.1 hbad.2 hlt]
      exact and_iff_right (hclusters _ hlt)
    · rw [if_neg (by omega), if_neg (by omega)]
      constructor
      · exact False.elim
      · intro hleads
        exact hleads.not_count heq
    · rw [if_pos hgt, s.leadsToCluster_iff_of_gt hbad.1 hbad.2 hgt]
      constructor
      · intro hmissing idx hidx
        exact hmissing _ (hclusters idx hidx)
      · intro hmissing ref href
        rcases hothers ref href with ⟨idx, hidx, rfl⟩ | hname
        · exact hmissing idx hidx
        · intro he
          rw [he, h] at hname
          exact absurd hname.symm Bool.false_ne_true

theorem carrier_findsListed_iff (s : LUCIDAC) (childId : String) :
    FindsListed s.carrierGetChildEntities s.entityIdOf childId (s.carrierGetChildEntity childId) ↔
      (isNumber childId = true → s.LeadsToCluster childId) := by
  by_cases h : isNumber childId = true
  · rw [findsListed_isNumber s h]
    · exact ⟨fun hleads _ => hleads, fun hleads => hleads h⟩
    · intro idx hidx
      exact (s.mem_carrierGetChildEntities _).mpr (Or.inl ⟨idx, hidx, rfl⟩)
    · intro ref href
      rcases (s.mem_carrierGetChildEntities ref).mp href with hcluster | ⟨rfl, -⟩
      · exact Or.inl hcluster
      · exact Or.inr isNumber_ctrl
  · refine ⟨fun _ hn => absurd hn h, fun _ => ?_⟩
    rw [Bool.not_eq_true] at h
    simp only [carrierGetChildEntity]
    rw [if_neg (by rw [h]; exact Bool.false_ne_true)]
    split
    · rename_i hctrl
      subst hctrl
      cases hblock : s.ctrlBlock with
      | some block =>
        refine ⟨(s.mem_carrierGetChildEntities _).mpr (Or.inr ⟨rfl, ?_⟩), rfl⟩
        rw [hblock]
        rfl
      | none =>
        intro ref href
        rcases (s.mem_carrierGetChildEntities ref).mp href with ⟨idx, hidx, rfl⟩ | ⟨-, hsome⟩
        · exact s.entityIdOf_ne_of_not_isNumber isNumber_ctrl hidx
        · rw [hblock] at hsome
          cases hsome
    · rename_i hctrl
      intro ref href
      rcases (s.mem_carrierGetChildEntities ref).mp href with ⟨idx, hidx, rfl⟩ | ⟨rfl, -⟩
      · exact s.entityIdOf_ne_of_not_isNumber h hidx
      · exact Ne.symm hctrl

theorem lucidac_findsListed_iff (s : LUCIDAC) (childId : String) :
    FindsListed s.lucidacGetChildEntities s.entityIdOf childId (s.lucidacGetChildEntity childId) ↔
      (isNumber childId = true → s.LeadsToCluster childId) := by
  by_cases hfp : childId = "FP"
  · subst hfp
    refine ⟨fun _ hn => absurd (isNumber_fp.symm.trans hn) Bool.false_ne_true, fun _ => ?_⟩
    rw [lucidacGetChildEntity, if_pos rfl]
    cases hpanel : s.frontPanel with
    | some panel =>
      refine ⟨(s.mem_lucidacGetChildEntities _).mpr (Or.inr ⟨rfl, ?_⟩), rfl⟩
      rw [hpanel]
      rfl
    | none =>
      intro ref href
      rcases (s.mem_lucidacGetChildEntities ref).mp href with hcarrier | ⟨-, hsome⟩
      · rcases (s.mem_carrierGetChildEntities ref).mp hcarrier with ⟨idx, hidx, rfl⟩ | ⟨rfl, -⟩
        · exact s.entityIdOf_ne_of_not_isNumber isNumber_fp hidx
        · exact (by decide : "CTRL" ≠ "FP")
      · rw [hpanel] at hsome
        cases hsome
  · have hlookup : s.lucidacGetChildEntity childId = s.carrierGetChildEntity childId := by
      simp only [lucidacGetChildEntity]
      rw [if_neg hfp]
    rw [hlookup, ← carrier_findsListed_iff]
    cases hresult : s.carrierGetChildEntity childId with
    | error fault => exact Iff.rfl
    | ok found =>
      cases found with
      | some ref =>
        constructor
        · intro hfound
          refine ⟨?_, hfound.2⟩
          rcases (s.mem_lucidacGetChildEntities ref).mp hfound.1 with hcarrier | ⟨rfl, -⟩
          · exact hcarrier
          · exact absurd hfound.2.symm hfp
        · intro hfound
          exact ⟨(s.mem_lucidacGetChildEntities ref).mpr (Or.inl hfound.1), hfound.2⟩
      | none =>
        constructor
        · intro hmissing ref href
          exact hmissing ref ((s.mem_lucidacGetChildEntities ref).mpr (Or.inl href))
        · intro hmissing ref href
          rcases (s.mem_lucidacGetChildEntities ref).mp href with hcarrier | ⟨rfl, -⟩
          · exact hmissing ref hcarrier
          · exact Ne.symm hfp

/-- A cluster finds exactly its listed children; carrier and LUCIDAC do so for every identifier
that is not a text of digits, and for a text of digits exactly when it leads to its cluster. -/
theorem getChildEntity_findsListed_iff (s : LUCIDAC) (cluster : Cluster) (childId : String) :
    cluster.FindsListed childId ∧
    (FindsListed s.carrierGetChildEntities s.entityIdOf childId (s.carrierGetChildEntity childId) ↔
      (isNumber childId = true → s.LeadsToCluster childId)) ∧
    (FindsListed s.lucidacGetChildEntities s.entityIdOf childId (s.lucidacGetChildEntity childId) ↔
      (isNumber childId = true → s.LeadsToCluster childId)) :=
  ⟨cluster.findsListed childId, s.carrier_findsListed_iff childId,
    s.lucidac_findsListed_iff childId⟩

theorem getChildEntity_findsListed_zero :
    FindsListed bare.lucidacGetChildEntities bare.entityIdOf "0"
      (bare.lucidacGetChildEntity "0") :=
  (getChildEntity_findsListed_iff bare ⟨0, fun _ => none⟩ "0").2.2.mpr fun _ => by
    refine ⟨by decide, by decide, by decide, fun cluster h => ?_, fun h => absurd h (by decide)⟩
    cases h
    decide

/-- With one cluster, the identifier "1" leads out of the vector of clusters. -/
theorem getChildEntity_one_outOfRange :
    bare.lucidacGetChildEntity "1" = .error .outOfRange ∧
      ¬ FindsListed bare.lucidacGetChildEntities bare.entityIdOf "1"
        (bare.lucidacGetChildEntity "1") := by
  have hresult : bare.lucidacGetChildEntity "1" = .error .outOfRange := by rfl
  rw [hresult]
  exact ⟨rfl, id⟩

end LUCIDAC

end Lucidac.Platform
