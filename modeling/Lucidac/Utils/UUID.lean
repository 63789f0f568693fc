import Mathlib.Data.Fintype.Basic
import Mathlib.Data.List.FinRange
import Mathlib.Data.List.TakeWhile
import Mathlib.Tactic.FinCases
import Mathlib.Tactic.IntervalCases
import Lucidac.Framework.Checked
import Lucidac.Framework.Program

/-!
# UUIDs as text

A UUID is written as 32 hexadecimal digits with four hyphens.  The writer puts the low half of a
byte first, and the reader takes the first digit for the high half.  The reader skips hyphens
wherever they are and counts the other characters to find its byte.
-/

namespace Lucidac.UUID

open Framework

/-- The bytes `ar` of a UUID. -/
abbrev Bytes := Fin 16 → BitVec 8

/-- A character of a C string. -/
abbrev CChar := BitVec 8

def hyphen : CChar := 0x2D

def hexDigit (ch : BitVec 8) : CChar := if ch < 10 then 0x30 + ch else 0x61 - 10 + ch

/-- The hyphens of `toCharArray`: multiples of two between 4 and 10. -/
def hyphenBefore (i : Fin 16) : List CChar :=
  if i.val % 2 = 0 ∧ 4 ≤ i.val ∧ i.val ≤ 10 then [hyphen] else []

/-- The loop of `toCharArray` with the two characters of every byte. -/
def layout (digits : Fin 16 → CChar × CChar) : List CChar :=
  (List.finRange 16).flatMap fun i => hyphenBefore i ++ [(digits i).1, (digits i).2]

/-- `toCharArray`, without the terminating zero. -/
def toString (u : Bytes) : List CChar :=
  layout fun i => (hexDigit (u i &&& 0x0F), hexDigit (u i >>> 4 &&& 0x0F))

def chartoi (x : CChar) : BitVec 8 :=
  if 0x30 ≤ x ∧ x ≤ 0x39 then x - 0x30
  else if 0x61 ≤ x ∧ x ≤ 0x66 then x - 0x61 + 10
  else if 0x41 ≤ x ∧ x ≤ 0x46 then x - 0x41 + 10
  else 0

/-- The variables of the loop in `fromString`. -/
structure Reader where
  ar : Bytes
  index : Nat
  firstDigit : Bool

/-- One character; no result if it is written behind the bytes. -/
def Reader.step (r : Reader) (c : CChar) : Option Reader :=
  if c = hyphen then some r
  else if r.firstDigit then do
    let ar ← writeCell r.ar r.index (chartoi c <<< 4)
    some ⟨ar, r.index, false⟩
  else do
    let high ← readCell r.ar r.index
    let ar ← writeCell r.ar r.index (high ||| chartoi c)
    some ⟨ar, r.index + 1, true⟩

/-- The characters before the terminating zero. -/
def text (str : List CChar) : List CChar := str.takeWhile (· ≠ 0)

def fromString (str : List CChar) : Option Bytes :=
  if (text str).length ≠ 36 then some fun _ => 0
  else do
    let r ← (text str).foldlM Reader.step ⟨fun _ => 0, 0, true⟩
    some r.ar

/-! ### Writing -/

/-- Where the first digit of a byte stands. -/
def digitPosition (i : Fin 16) : Nat :=
  2 * i + (if 4 ≤ i.val then 1 else 0) + (if 6 ≤ i.val then 1 else 0) +
    (if 8 ≤ i.val then 1 else 0) + (if 10 ≤ i.val then 1 else 0)

theorem layout_getElem (digits : Fin 16 → CChar × CChar) (i : Fin 16) :
    (layout digits)[digitPosition i]? = some (digits i).1 ∧
      (layout digits)[digitPosition i + 1]? = some (digits i).2 := by
  fin_cases i <;> exact ⟨rfl, rfl⟩

theorem length_layout (digits : Fin 16 → CChar × CChar) : (layout digits).length = 36 := rfl

theorem layout_injective {digits digits' : Fin 16 → CChar × CChar}
    (h : layout digits = layout digits') : digits = digits' := by
  funext i
  obtain ⟨hfirst, hsecond⟩ := layout_getElem digits i
  rw [h] at hfirst hsecond
  obtain ⟨hfirst', hsecond'⟩ := layout_getElem digits' i
  rw [hfirst', Option.some.injEq] at hfirst
  rw [hsecond', Option.some.injEq] at hsecond
  exact (Prod.ext hfirst hsecond).symm

theorem chartoi_hexDigit : ∀ x : BitVec 8, chartoi (hexDigit (x &&& 0x0F)) = x &&& 0x0F := by
  decide

/-! ### Reading -/

theorem foldlM_step_filter (cs : List CChar) (r : Reader) :
    cs.foldlM Reader.step r = (cs.filter (· ≠ hyphen)).foldlM Reader.step r := by
  induction cs generalizing r with
  | nil => rfl
  | cons c cs ih =>
    by_cases hc : c = hyphen
    · rw [List.filter_cons_of_neg (by simpa using hc), ← ih, List.foldlM_cons, Reader.step,
        if_pos hc]
      rfl
    · rw [List.filter_cons_of_pos (by simpa using hc), List.foldlM_cons, List.foldlM_cons]
      cases Reader.step r c with
      | none => rfl
      | some next => exact ih next

section Digit

variable {c : CChar} (hc : c ≠ hyphen) (ar : Bytes) {index : Nat}
include hc

theorem step_first (h : index < 16) : Reader.step ⟨ar, index, true⟩ c =
    some ⟨Function.update ar ⟨index, h⟩ (chartoi c <<< 4), index, false⟩ := by
  rw [Reader.step, if_neg hc, if_pos rfl, writeCell_of_lt _ _ h]
  rfl

theorem step_second (h : index < 16) : Reader.step ⟨ar, index, false⟩ c =
    some ⟨Function.update ar ⟨index, h⟩ (ar ⟨index, h⟩ ||| chartoi c), index + 1, true⟩ := by
  rw [Reader.step, if_neg hc, if_neg Bool.false_ne_true, readCell_of_lt _ h, Option.bind_eq_bind,
    Option.bind_some, writeCell_of_lt _ _ h]
  rfl

theorem step_outside (h : 16 ≤ index) (firstDigit : Bool) :
    Reader.step ⟨ar, index, firstDigit⟩ c = none := by
  rw [Reader.step, if_neg hc]
  cases firstDigit with
  | true =>
    rw [if_pos rfl, writeCell_outside _ _ h]
    rfl
  | false =>
    rw [if_neg Bool.false_ne_true, readCell_outside _ h]
    rfl

end Digit

/-- The number of digits that were read. -/
def Reader.position (r : Reader) : Nat := 2 * r.index + if r.firstDigit then 0 else 1

theorem Reader.step_digit (r : Reader) {c : CChar} (hc : c ≠ hyphen) :
    (r.position < 32 ∧ ∃ next, r.step c = some next ∧ next.position = r.position + 1) ∨
      (32 ≤ r.position ∧ r.step c = none) := by
  obtain ⟨ar, index, firstDigit⟩ := r
  by_cases hindex : index < 16
  · left
    cases firstDigit with
    | true => exact ⟨by simp only [position, if_true]; omega, _, step_first hc ar hindex, rfl⟩
    | false =>
      refine ⟨by simp only [position, Bool.false_eq_true, if_false]; omega, _,
        step_second hc ar hindex, ?_⟩
      simp only [position, Bool.false_eq_true, if_false, if_true]
      omega
  · rw [Nat.not_lt] at hindex
    refine Or.inr ⟨?_, step_outside hc ar hindex firstDigit⟩
    simp only [position]
    omega

theorem foldlM_step_isSome_iff (ds : List CChar) (hds : ∀ c ∈ ds, c ≠ hyphen) (r : Reader)
    (hr : r.position ≤ 32) :
    (ds.foldlM Reader.step r).isSome = true ↔ r.position + ds.length ≤ 32 := by
  induction ds generalizing r with
  | nil => simpa using hr
  | cons c ds ih =>
    rw [List.forall_mem_cons] at hds
    rw [List.foldlM_cons, List.length_cons]
    rcases r.step_digit hds.1 with ⟨hlt, next, hnext, hposition⟩ | ⟨hge, hnone⟩
    · rw [hnext]
      change (ds.foldlM Reader.step next).isSome = true ↔ _
      rw [ih hds.2 next (by omega)]
      omega
    · rw [hnone]
      refine iff_of_false (by simp) (by omega)

theorem length_filter_add_count (cs : List CChar) :
    (cs.filter (· ≠ hyphen)).length + cs.count hyphen = cs.length := by
  induction cs with
  | nil => rfl
  | cons c cs ih =>
    rw [List.count_cons, List.length_cons]
    by_cases hc : c = hyphen
    · rw [List.filter_cons_of_neg (by simpa using hc), if_pos (by simpa using hc)]
      omega
    · rw [List.filter_cons_of_pos (by simpa using hc), if_neg (by simpa using hc), List.length_cons]
      omega

/-- A text of 36 characters is read inside of the bytes exactly if it has four hyphens or more. -/
theorem fromString_isSome_iff (str : List CChar) :
    (fromString str).isSome = true ↔ (text str).length ≠ 36 ∨ 4 ≤ (text str).count hyphen := by
  rw [fromString]
  split
  · rename_i hlength
    exact iff_of_true rfl (Or.inl hlength)
  · rename_i hlength
    rw [ne_eq, not_not] at hlength
    have hcount := length_filter_add_count (text str)
    have hsome := foldlM_step_isSome_iff ((text str).filter (· ≠ hyphen)) (by simp)
      ⟨fun _ => 0, 0, true⟩ (by decide)
    simp only [Reader.position, if_true] at hsome
    rw [foldlM_step_filter]
    cases hread : ((text str).filter (· ≠ hyphen)).foldlM Reader.step ⟨fun _ => 0, 0, true⟩ with
    | none =>
      rw [hread] at hsome
      refine iff_of_false (by simp) ?_
      have := mt hsome.mpr (by simp)
      omega
    | some r =>
      rw [hread] at hsome
      refine iff_of_true rfl (Or.inr ?_)
      have := hsome.mp rfl
      omega

def byteOf (digits : CChar × CChar) : BitVec 8 := (chartoi digits.1 <<< 4) ||| chartoi digits.2

theorem foldlM_step_pair {digits : CChar × CChar} (hfirst : digits.1 ≠ hyphen)
    (hsecond : digits.2 ≠ hyphen) (ar : Bytes) {index : Nat} (h : index < 16) :
    [digits.1, digits.2].foldlM Reader.step ⟨ar, index, true⟩ =
      some ⟨Function.update ar ⟨index, h⟩ (byteOf digits), index + 1, true⟩ := by
  rw [List.foldlM_cons, step_first hfirst ar h, Option.bind_eq_bind, Option.bind_some,
    List.foldlM_cons, step_second hsecond _ h, Function.update_idem, Function.update_self]
  rfl

def IsHexDigit (c : CChar) : Prop :=
  0x30 ≤ c ∧ c ≤ 0x39 ∨ 0x61 ≤ c ∧ c ≤ 0x66 ∨ 0x41 ≤ c ∧ c ≤ 0x46

instance (c : CChar) : Decidable (IsHexDigit c) := inferInstanceAs (Decidable (_ ∨ _))

theorem IsHexDigit.ne {c : CChar} (h : IsHexDigit c) : c ≠ hyphen ∧ c ≠ 0 := by
  constructor
  · rintro rfl
    exact absurd h (by decide)
  · rintro rfl
    exact absurd h (by decide)

section Layout

variable {digits : Fin 16 → CChar × CChar}
  (hdigits : ∀ i, IsHexDigit (digits i).1 ∧ IsHexDigit (digits i).2)
include hdigits

theorem foldlM_step_digits (old : Bytes) {k : Nat} (hk : k ≤ 16) :
    (((List.finRange 16).take k).flatMap fun i => [(digits i).1, (digits i).2]).foldlM
      Reader.step ⟨old, 0, true⟩ = some ⟨copied (fun i => byteOf (digits i)) old k, k, true⟩ := by
  induction k with
  | zero =>
    rw [copied_zero]
    rfl
  | succ k ih =>
    have hlt : k < (List.finRange 16).length := by
      rw [List.length_finRange]
      exact hk
    rw [← List.take_append_getElem hlt, List.getElem_finRange, List.flatMap_append,
      List.foldlM_append, ih (Nat.le_of_succ_le hk), Option.bind_eq_bind, Option.bind_some]
    have hpair := foldlM_step_pair (hdigits ⟨k, hk⟩).1.ne.1 (hdigits ⟨k, hk⟩).2.ne.1
      (copied (fun i => byteOf (digits i)) old k) hk
    rw [copied_succ] at hpair
    exact hpair

theorem filter_layout : (layout digits).filter (· ≠ hyphen) =
    (List.finRange 16).flatMap fun i => [(digits i).1, (digits i).2] := by
  rw [layout, List.filter_flatMap]
  congr 1
  funext i
  have hhyphens : (hyphenBefore i).filter (· ≠ hyphen) = [] := by
    rw [hyphenBefore]
    split <;> rfl
  rw [List.filter_append, hhyphens]
  simp [(hdigits i).1.ne.1, (hdigits i).2.ne.1]

theorem text_layout : text (layout digits) = layout digits := by
  rw [text, List.takeWhile_eq_self_iff]
  intro c hc
  obtain ⟨i, -, hc⟩ := List.mem_flatMap.mp hc
  rw [decide_eq_true_eq]
  rcases List.mem_append.mp hc with hc | hc
  · rw [hyphenBefore] at hc
    split at hc
    · rw [List.mem_singleton.mp hc]
      decide
    · cases hc
  · rcases List.mem_pair.mp hc with rfl | rfl
    · exact (hdigits i).1.ne.2
    · exact (hdigits i).2.ne.2

theorem fromString_layout : fromString (layout digits) = some fun i => byteOf (digits i) := by
  rw [fromString, text_layout hdigits, if_neg (not_not.mpr (length_layout digits)),
    foldlM_step_filter, filter_layout hdigits]
  have hall := foldlM_step_digits hdigits (fun _ => 0) (Nat.le_refl 16)
  rw [List.take_of_length_le (by rw [List.length_finRange]), copied_all] at hall
  rw [hall]
  rfl

end Layout

/-! ### Both directions -/

theorem isHexDigit_hexDigit : ∀ x : BitVec 8, IsHexDigit (hexDigit (x &&& 0x0F)) := by
  decide

theorem swapped_eq_iff : ∀ x : BitVec 8,
    ((x &&& 0x0F) <<< 4) ||| (x >>> 4 &&& 0x0F) = x ↔ x &&& 0x0F = x >>> 4 := by
  decide

/-- Reading what was written exchanges the halves of every byte. -/
theorem fromString_toString (u : Bytes) :
    fromString (toString u) = some fun i => ((u i &&& 0x0F) <<< 4) ||| (u i >>> 4 &&& 0x0F) := by
  rw [toString, fromString_layout fun i => ⟨isHexDigit_hexDigit (u i), isHexDigit_hexDigit _⟩]
  simp only [byteOf, chartoi_hexDigit]

theorem fromString_toString_iff (u : Bytes) :
    fromString (toString u) = some u ↔ ∀ i, u i &&& 0x0F = u i >>> 4 := by
  rw [fromString_toString, Option.some.injEq, funext_iff]
  exact forall_congr' fun i => swapped_eq_iff (u i)

def toLower (c : CChar) : CChar := if 0x41 ≤ c ∧ c ≤ 0x5A then c + 0x20 else c

theorem chartoi_and : ∀ c : CChar, chartoi c &&& 0x0F = chartoi c := by
  decide

theorem hexDigit_chartoi : ∀ c : CChar, IsHexDigit c → hexDigit (chartoi c) = toLower c := by
  decide

theorem byteOf_low (digits : CChar × CChar) : byteOf digits &&& 0x0F = chartoi digits.2 := by
  have hshift : ∀ x : BitVec 8, x <<< 4 &&& 0x0F = 0#8 := by decide
  rw [byteOf, BitVec.and_comm, BitVec.and_or_distrib_left, BitVec.and_comm 0x0F, hshift,
    BitVec.zero_or, BitVec.and_comm, chartoi_and]

theorem byteOf_high (digits : CChar × CChar) :
    byteOf digits >>> 4 &&& 0x0F = chartoi digits.1 := by
  have hshift : ∀ x : BitVec 8, x <<< 4 >>> 4 &&& 0x0F = x &&& 0x0F := by decide
  have hgone : ∀ x : BitVec 8, (x &&& 0x0F) >>> 4 = 0#8 := by decide
  have hlow : chartoi digits.2 >>> 4 = 0#8 := by
    rw [← chartoi_and]
    exact hgone _
  rw [byteOf, BitVec.ushiftRight_or_distrib, hlow, BitVec.or_zero, hshift, chartoi_and]

/-- A canonical text: hyphens at four positions and hexadecimal digits elsewhere. -/
structure CanonicalText where
  char : Fin 36 → CChar
  char_hyphen : ∀ k, k = 8 ∨ k = 13 ∨ k = 18 ∨ k = 23 → char k = hyphen
  char_digit : ∀ k, ¬(k = 8 ∨ k = 13 ∨ k = 18 ∨ k = 23) → IsHexDigit (char k)

namespace CanonicalText

variable (s : CanonicalText)

def str : List CChar := List.ofFn s.char

def firstPosition (i : Fin 16) : Fin 36 := ⟨digitPosition i, by revert i; decide⟩

def secondPosition (i : Fin 16) : Fin 36 := ⟨digitPosition i + 1, by revert i; decide⟩

def digits (i : Fin 16) : CChar × CChar := (s.char (firstPosition i), s.char (secondPosition i))

theorem isHexDigit_digits (i : Fin 16) : IsHexDigit (s.digits i).1 ∧ IsHexDigit (s.digits i).2 :=
  ⟨s.char_digit _ (by revert i; decide), s.char_digit _ (by revert i; decide)⟩

theorem str_eq_layout : s.str = layout s.digits := by
  refine List.ext_get rfl fun k hk _ => ?_
  rw [str, List.length_ofFn] at hk
  interval_cases k <;> first | rfl | exact s.char_hyphen _ (by decide)

end CanonicalText

theorem map_layout (f : CChar → CChar) (hf : f hyphen = hyphen) (digits : Fin 16 → CChar × CChar) :
    (layout digits).map f = layout fun i => (f (digits i).1, f (digits i).2) := by
  rw [layout, List.map_flatMap]
  congr 1
  funext i
  have hhyphens : (hyphenBefore i).map f = hyphenBefore i := by
    rw [hyphenBefore]
    split
    · rw [List.map_singleton, hf]
    · rfl
  rw [List.map_append, hhyphens]
  rfl

theorem toString_fromString_iff (s : CanonicalText) :
    (∃ u, fromString s.str = some u ∧ toString u = s.str.map toLower) ↔
      ∀ i, toLower (s.digits i).1 = toLower (s.digits i).2 := by
  have hdigits := s.isHexDigit_digits
  have hwritten : toString (fun i => byteOf (s.digits i)) =
      layout fun i => (toLower (s.digits i).2, toLower (s.digits i).1) := by
    simp only [toString, byteOf_low, byteOf_high, hexDigit_chartoi _ (hdigits _).1,
      hexDigit_chartoi _ (hdigits _).2]
  have hlower : s.str.map toLower =
      layout fun i => (toLower (s.digits i).1, toLower (s.digits i).2) := by
    rw [s.str_eq_layout, map_layout toLower (by decide)]
  rw [hlower, s.str_eq_layout, fromString_layout hdigits]
  constructor
  · rintro ⟨u, hu, htext⟩ i
    rw [← Option.some.inj hu, hwritten] at htext
    exact (congrArg Prod.snd (congrFun (layout_injective htext) i))
  · intro hsame
    refine ⟨_, rfl, ?_⟩
    rw [hwritten]
    simp only [hsame]

/-- The conversions are faithful exactly for bytes with equal halves and for pairs of equal digits;
the reader stays inside of the bytes exactly if a text of 36 characters has four hyphens. -/
theorem conversion_faithful_iff (u : Bytes) (s : CanonicalText) (str : List CChar) :
    (fromString (toString u) = some u ↔ ∀ i, u i &&& 0x0F = u i >>> 4) ∧
      ((∃ v, fromString s.str = some v ∧ toString v = s.str.map toLower) ↔
        ∀ i, toLower (s.digits i).1 = toLower (s.digits i).2) ∧
      ((fromString str).isSome = true ↔
        (text str).length ≠ 36 ∨ 4 ≤ (text str).count hyphen) :=
  ⟨fromString_toString_iff u, toString_fromString_iff s, fromString_isSome_iff str⟩

/-- The byte 0x26 comes back as 0x62, and 36 digits without a hyphen are written behind the
bytes. -/
theorem conversion_swaps_halves :
    fromString (toString fun _ => 0x26) = some (fun _ => 0x62) ∧
      fromString (List.replicate 36 0x30) = none := by
  constructor
  · rw [fromString_toString]
    rfl
  · rw [← Option.not_isSome_iff_eq_none, fromString_isSome_iff]
    decide

end Lucidac.UUID
