import Lucidac.Platform.Config
import Lucidac.Platform.EntityLookup

/-!
# Paths to entities

Reading and writing walk the same tree, but with different conversions of the path.  They agree as
long as every element they reach is a text and every lookup on the way is defined.  Configuring
the entity at the end of a path is the same as configuring the entity at its beginning with the
remaining identifiers as nested keys.
-/

namespace Lucidac.Platform

open Framework

namespace LUCIDAC

/-! ### Walking a path -/

/-- The lookup neither throws nor leaves the vector of clusters. -/
def LookupDefined (s : LUCIDAC) (ref : Ref) (childId : String) : Prop :=
  ref = .carrier → isNumber childId = true →
    childId.toList ≠ [] ∧ digitsValue childId.toList < 2^32 ∧
      digitsValue childId.toList ≠ s.clusters.length

theorem carrierGetChildEntity_defined_iff (s : LUCIDAC) {childId : String}
    (h : isNumber childId = true) :
    (∃ found, s.carrierGetChildEntity childId = .ok found) ↔
      childId.toList ≠ [] ∧ digitsValue childId.toList < 2^32 ∧
        digitsValue childId.toList ≠ s.clusters.length := by
  simp only [carrierGetChildEntity]
  rw [if_pos h, stoul_of_isNumber h]
  by_cases hbad : childId.toList = [] ∨ 2^32 ≤ digitsValue childId.toList
  · rw [if_pos hbad]
    constructor
    · intro hfound
      obtain ⟨found, hfound⟩ := hfound
      cases hfound
    · intro hgood
      exact absurd hbad (not_or.mpr ⟨hgood.1, Nat.not_le.mpr hgood.2.1⟩)
  · rw [if_neg hbad]
    rw [not_or, Nat.not_le] at hbad
    dsimp only
    constructor
    · intro hfound
      refine ⟨hbad.1, hbad.2, fun heq => ?_⟩
      obtain ⟨found, hfound⟩ := hfound
      rw [if_neg (by omega), if_neg (by omega)] at hfound
      cases hfound
    · intro hgood
      by_cases hgt : s.clusters.length < digitsValue childId.toList
      · exact ⟨none, if_pos hgt⟩
      · exact ⟨some (.cluster (digitsValue childId.toList)),
          (if_neg hgt).trans (if_pos (by omega))⟩

theorem getChildEntity_defined_iff (s : LUCIDAC) (ref : Ref) (childId : String) :
    (∃ found, s.getChildEntity ref childId = .ok found) ↔ s.LookupDefined ref childId := by
  cases ref with
  | carrier =>
    simp only [getChildEntity, LookupDefined, lucidacGetChildEntity, forall_const]
    by_cases hfp : childId = "FP"
    · rw [if_pos hfp]
      refine ⟨fun _ hn => ?_, fun _ => ⟨_, rfl⟩⟩
      rw [hfp] at hn
      exact absurd hn (by decide)
    · rw [if_neg hfp]
      by_cases hn : isNumber childId = true
      · rw [carrierGetChildEntity_defined_iff s hn]
        exact ⟨fun h _ => h, fun h => h hn⟩
      · refine ⟨fun _ h => absurd h hn, fun _ => ?_⟩
        simp only [carrierGetChildEntity]
        rw [if_neg hn]
        split
        · exact ⟨_, rfl⟩
        · exact ⟨_, rfl⟩
  | cluster idx => exact ⟨fun _ h => absurd h (by simp), fun _ => ⟨_, rfl⟩⟩
  | ctrlBlock => exact ⟨fun _ h => absurd h (by simp), fun _ => ⟨_, rfl⟩⟩
  | frontPanel => exact ⟨fun _ h => absurd h (by simp), fun _ => ⟨_, rfl⟩⟩
  | block idx slot => exact ⟨fun _ h => absurd h (by simp), fun _ => ⟨_, rfl⟩⟩

/-- Every element the walk reaches is a text with a defined lookup. -/
def PathDefined (s : LUCIDAC) : Ref → List Json → Prop
  | _, [] => True
  | ref, element :: rest => ∃ childId, element = .string childId ∧ s.LookupDefined ref childId ∧
      ∀ child, s.getChildEntity ref childId = .ok (some child) → s.PathDefined child rest

theorem resolve_of_pathDefined (lib : JsonLibrary) (s : LUCIDAC) (path : List Json) (ref : Ref)
    (h : s.PathDefined ref path) :
    ∃ found, s.resolveChildEntityJson ref path = .ok found ∧
      s.resolveChildEntity ref (path.map lib.asStdString) = .ok found := by
  induction path generalizing ref with
  | nil => exact ⟨some ref, rfl, rfl⟩
  | cons element rest ih =>
    obtain ⟨childId, rfl, hdefined, hrest⟩ := h
    obtain ⟨found, hfound⟩ := (s.getChildEntity_defined_iff ref childId).mpr hdefined
    simp only [List.map_cons, resolveChildEntityJson, resolveChildEntity, JsonLibrary.asStdString]
    rw [hfound]
    cases found with
    | none => exact ⟨none, rfl, rfl⟩
    | some child => exact ih child (hrest child hfound)

theorem pathDefined_of_resolve (s : LUCIDAC) (path : List Json) (ref : Ref) {found : Option Ref}
    (h : s.resolveChildEntityJson ref path = .ok found) : s.PathDefined ref path := by
  induction path generalizing ref with
  | nil => trivial
  | cons element rest ih =>
    cases element with
    | string childId =>
      simp only [resolveChildEntityJson] at h
      refine ⟨childId, rfl, ?_, ?_⟩
      · rw [← getChildEntity_defined_iff]
        cases hlookup : s.getChildEntity ref childId with
        | error fault =>
          rw [hlookup] at h
          cases h
        | ok result => exact ⟨result, rfl⟩
      · intro child hchild
        rw [hchild] at h
        exact ih child h
    | _ => cases h

/-! ### Reading and writing the same entity -/

/-- Both requests reach the same entity, or both are answered with an error. -/
def SameTarget : Except Stop Ref → Except Stop Ref → Prop
  | .ok written, .ok read => written = read
  | .error (.status _), .error (.status _) => True
  | _, _ => False

/-- The two requests agree on a path exactly when it is meant for another carrier, or every
element the walk reaches is a text with a defined lookup. -/
theorem setTarget_getTarget_agree_iff (lib : JsonLibrary) (s : LUCIDAC) (first : Json)
    (rest : List Json) :
    SameTarget (s.setTarget lib (first :: rest)) (s.getTarget lib (.array (first :: rest))) ↔
      (lib.asStdString first = s.entityId → s.PathDefined .carrier rest) := by
  simp only [setTarget, getTarget, List.map_cons]
  by_cases hfirst : lib.asStdString first = s.entityId
  · rw [if_neg (not_not.mpr hfirst), if_neg (not_not.mpr hfirst)]
    constructor
    · intro hsame _
      cases hread : s.resolveChildEntityJson .carrier rest with
      | ok found => exact s.pathDefined_of_resolve rest .carrier hread
      | error fault =>
        rw [hread] at hsame
        cases hwrite : s.resolveChildEntity .carrier (rest.map lib.asStdString) with
        | error _ =>
          rw [hwrite] at hsame
          exact hsame.elim
        | ok found =>
          rw [hwrite] at hsame
          cases found <;> exact hsame.elim
    · intro hdefined
      obtain ⟨found, hread, hwrite⟩ := s.resolve_of_pathDefined lib rest .carrier (hdefined hfirst)
      rw [hread, hwrite]
      cases found with
      | some ref => rfl
      | none => trivial
  · rw [if_pos hfirst, if_pos hfirst]
    exact ⟨fun _ h => absurd h hfirst, fun _ => trivial⟩

/-- A library that serialises scalars as JSON does. -/
def scalarJson : JsonLibrary where
  parseNumber _ := 0
  serialize
    | .null => "null"
    | .bool b => toString b
    | .integer n => toString n
    | _ => ""

theorem setTarget_getTarget_agree_cluster :
    SameTarget (bare.setTarget scalarJson [.string bare.entityId, .string "0"])
      (bare.getTarget scalarJson (.array [.string bare.entityId, .string "0"])) :=
  (setTarget_getTarget_agree_iff scalarJson bare (.string bare.entityId) [.string "0"]).mpr
    fun _ => ⟨"0", rfl, fun _ _ => by decide, fun _ _ => trivial⟩

/-- The number 0 after the identifier of the carrier: `set_circuit` configures the first cluster,
`get_circuit` makes a string from a null pointer. -/
theorem setTarget_getTarget_number_element :
    bare.setTarget scalarJson [.string bare.entityId, .integer 0] = .ok (.cluster 0) ∧
      bare.getTarget scalarJson (.array [.string bare.entityId, .integer 0]) =
        .error (.fault .exception) ∧
      ¬ SameTarget (bare.setTarget scalarJson [.string bare.entityId, .integer 0])
        (bare.getTarget scalarJson (.array [.string bare.entityId, .integer 0])) := by
  have hwritten : bare.setTarget scalarJson [.string bare.entityId, .integer 0] =
      .ok (.cluster 0) := by rfl
  have hread : bare.getTarget scalarJson (.array [.string bare.entityId, .integer 0]) =
      .error (.fault .exception) := by rfl
  rw [hwritten, hread]
  exact ⟨rfl, rfl, id⟩

/-! ### Installed entities -/

/-- What the carrier finds: one of its clusters, or an installed CTRL block or front panel. -/
theorem getChildEntity_carrier_cases (s : LUCIDAC) {child : Ref} {childId : String}
    (h : s.getChildEntity .carrier childId = .ok (some child)) :
    (∃ idx, idx < s.clusters.length ∧ child = .cluster idx) ∨
      (s.ctrlBlock.isSome = true ∧ child = .ctrlBlock) ∨
      (s.frontPanel.isSome = true ∧ child = .frontPanel) := by
  simp only [getChildEntity, lucidacGetChildEntity, carrierGetChildEntity] at h
  split at h
  · simp only [Except.ok.injEq, Option.map_eq_some_iff] at h
    obtain ⟨panel, hpanel, rfl⟩ := h
    exact Or.inr (Or.inr ⟨Option.isSome_of_mem hpanel, rfl⟩)
  · split at h
    · split at h
      · cases h
      · split at h
        · cases h
        · split at h
          · rename_i hlt
            cases h
            exact Or.inl ⟨_, hlt, rfl⟩
          · cases h
    · split at h
      · simp only [Except.ok.injEq, Option.map_eq_some_iff] at h
        obtain ⟨block, hblock, rfl⟩ := h
        exact Or.inr (Or.inl ⟨Option.isSome_of_mem hblock, rfl⟩)
      · cases h

/-- What a cluster finds: the block in an occupied slot of its own. -/
theorem getChildEntity_cluster_cases (s : LUCIDAC) {idx : Nat} {child : Ref} {childId : String}
    (h : s.getChildEntity (.cluster idx) childId = .ok (some child)) :
    ∃ slot, (s.block idx slot).isSome = true ∧ child = .block idx slot := by
  simp only [getChildEntity, Except.ok.injEq, Option.map_eq_some_iff, Option.bind_eq_some_iff] at h
  obtain ⟨slot, ⟨cluster, hcluster, hslot⟩, rfl⟩ := h
  have hlisted := cluster.findsListed childId
  simp only [Cluster.FindsListed] at hlisted
  rw [hslot] at hlisted
  refine ⟨slot, ?_, rfl⟩
  simp only [block]
  rw [hcluster]
  exact (cluster.mem_getChildEntities slot).mp hlisted.1

theorem getChildEntity_installed (s : LUCIDAC) {ref child : Ref} {childId : String}
    (h : s.getChildEntity ref childId = .ok (some child)) : s.Installed child := by
  cases ref with
  | carrier =>
    rcases s.getChildEntity_carrier_cases h with ⟨idx, hidx, rfl⟩ | ⟨hctrl, rfl⟩ | ⟨hpanel, rfl⟩
    · exact hidx
    · exact hctrl
    · exact hpanel
  | cluster idx =>
    obtain ⟨slot, hslot, rfl⟩ := s.getChildEntity_cluster_cases h
    exact hslot
  | ctrlBlock => cases h
  | frontPanel => cases h
  | block idx slot => cases h

theorem resolveChildEntity_installed (s : LUCIDAC) (path : List String) {ref target : Ref}
    (href : s.Installed ref) (h : s.resolveChildEntity ref path = .ok (some target)) :
    s.Installed target := by
  induction path generalizing ref with
  | nil =>
    cases h
    exact href
  | cons childId rest ih =>
    simp only [resolveChildEntity] at h
    split at h
    · rename_i child hchild
      exact ih (s.getChildEntity_installed hchild) h
    · cases h
    · cases h

theorem resolveChildEntity_append (s : LUCIDAC) (path more : List String) (ref : Ref) :
    s.resolveChildEntity ref (path ++ more) =
      match s.resolveChildEntity ref path with
      | .ok (some target) => s.resolveChildEntity target more
      | .ok none => .ok none
      | .error fault => .error fault := by
  induction path generalizing ref with
  | nil => rfl
  | cons childId rest ih =>
    simp only [List.cons_append, resolveChildEntity]
    split
    · exact ih _
    · rfl
    · rfl

end LUCIDAC

end Lucidac.Platform
