import Mathlib.Data.List.Basic

/-!
# Lines

A sequence is cut into lines behind the elements that end a line.  What follows the last of these
elements is not a line yet.
-/

namespace Framework.Lines

variable {α : Type} (ends : α → Bool)

def completeLines (xs : List α) : List (List α) := (xs.splitOnP ends).dropLast

variable {ends}

theorem completeLines_cons {line rest : List α} {sep : α} (hline : ∀ x ∈ line, ends x = false)
    (hsep : ends sep = true) :
    completeLines ends (line ++ sep :: rest) = line :: completeLines ends rest := by
  unfold completeLines
  rw [List.splitOnP_append_cons_of_forall_mem hline sep hsep,
    List.dropLast_cons_of_ne_nil (List.splitOnP_ne_nil ends rest)]

theorem completeLines_of_none {xs : List α} (h : ∀ x ∈ xs, ends x = false) :
    completeLines ends xs = [] := by
  unfold completeLines
  rw [List.splitOnP_eq_singleton h, List.dropLast_singleton]

theorem mem_splitOnP_of_mem_completeLines {xs line : List α} (h : line ∈ completeLines ends xs) :
    line ∈ xs.splitOnP ends := (List.dropLast_sublist _).mem h

theorem exists_prefix_mem_splitOnP {xs : List α} (h : ∀ x ∈ xs, ends x = false) (rest : List α) :
    ∃ part ∈ (xs ++ rest).splitOnP ends, xs <+: part := by
  induction rest generalizing xs with
  | nil =>
    refine ⟨xs, ?_, List.prefix_rfl⟩
    rw [List.append_nil, List.splitOnP_eq_singleton h]
    exact List.mem_singleton_self xs
  | cons x rest ih =>
    cases hx : ends x with
    | true =>
      refine ⟨xs, ?_, List.prefix_rfl⟩
      rw [List.splitOnP_append_cons_of_forall_mem h x hx]
      exact List.mem_cons_self
    | false =>
      have hlonger : ∀ y ∈ xs ++ [x], ends y = false := by
        rw [List.forall_mem_append, List.forall_mem_singleton]
        exact ⟨h, hx⟩
      obtain ⟨part, hpart, hprefix⟩ := ih hlonger
      rw [List.append_cons]
      exact ⟨part, hpart, (List.prefix_append xs [x]).trans hprefix⟩

/-- A line that was finished, with the element that ends it. -/
structure Line (ends : α → Bool) where
  content : List α
  sep : α
  content_not_ends : ∀ x ∈ content, ends x = false
  sep_ends : ends sep = true

def Line.all (line : Line ends) : List α := line.content ++ [line.sep]

theorem completeLines_flatMap (lines : List (Line ends)) {unfinished : List α}
    (h : ∀ x ∈ unfinished, ends x = false) :
    completeLines ends (lines.flatMap Line.all ++ unfinished) = lines.map Line.content := by
  induction lines with
  | nil => exact completeLines_of_none h
  | cons line lines ih =>
    have hall : (line :: lines).flatMap Line.all ++ unfinished =
        line.content ++ line.sep :: (lines.flatMap Line.all ++ unfinished) := by
      simp [Line.all]
    rw [hall, completeLines_cons line.content_not_ends line.sep_ends, ih, List.map_cons]

/-- Every sequence consists of finished lines and a rest. -/
theorem exists_lines (xs : List α) :
    ∃ (lines : List (Line ends)) (unfinished : List α),
      xs = lines.flatMap Line.all ++ unfinished ∧ ∀ x ∈ unfinished, ends x = false := by
  induction xs with
  | nil => exact ⟨[], [], rfl, by simp⟩
  | cons x xs ih =>
    obtain ⟨lines, unfinished, rfl, hrest⟩ := ih
    cases hx : ends x with
    | true => exact ⟨⟨[], x, by simp, hx⟩ :: lines, unfinished, by simp [Line.all], hrest⟩
    | false =>
      cases lines with
      | nil =>
        refine ⟨[], x :: unfinished, rfl, ?_⟩
        rw [List.forall_mem_cons]
        exact ⟨hx, hrest⟩
      | cons line lines =>
        refine ⟨⟨x :: line.content, line.sep, ?_, line.sep_ends⟩ :: lines, unfinished, ?_, hrest⟩
        · rw [List.forall_mem_cons]
          exact ⟨hx, line.content_not_ends⟩
        · simp [Line.all]

end Framework.Lines
