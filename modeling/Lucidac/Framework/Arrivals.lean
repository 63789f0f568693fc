import Mathlib.Data.List.Basic

/-!
# Streams that arrive in pieces

A reader asks for a number of elements and gets those that have arrived, up to this number; it may
get none, and the read may fail.  What a reader sees is determined by the pieces in which the
stream arrives.
-/

namespace Framework

/-- What a read finds. -/
inductive Arrival (α : Type) where
  | failed
  | data (elements : List α)

namespace Arrival

variable {α : Type}

/-- The elements in front of the next arrivals; without elements there is no piece. -/
def prepend (elements : List α) (s : List (Arrival α)) : List (Arrival α) :=
  if elements = [] then s else data elements :: s

/-- A read of at most `len` elements that is repeated as long as it fails.  When nothing more
arrives there are no elements to be had. -/
def read (len : Nat) : List (Arrival α) → List α × List (Arrival α)
  | [] => ([], [])
  | failed :: s => read len s
  | data elements :: s => (elements.take len, prepend (elements.drop len) s)

/-- Reads of at most `block` elements until there are `len` of them.  None when the reads do not
end. -/
def readAll (block : Nat) : Nat → Nat → List (Arrival α) → Option (List α × List (Arrival α))
  | _, 0, s => some ([], s)
  | 0, _ + 1, _ => none
  | fuel + 1, len + 1, s =>
    let (elements, s) := read (min block (len + 1)) s
    (readAll block fuel (len + 1 - elements.length) s).map fun r => (elements ++ r.1, r.2)

/-- As many reads can differ from a read that finds nothing. -/
def weight : List (Arrival α) → Nat
  | [] => 0
  | failed :: s => weight s + 1
  | data elements :: s => elements.length + 1 + weight s

/-- A stream of atoms arrives in pieces that cut no atom. -/
inductive Carries : List (List α) → List (Arrival α) → Prop
  | done : Carries [] []
  | failed {atoms s} : Carries atoms s → Carries atoms (failed :: s)
  | piece {atoms s} (piece : List (List α)) : (∀ atom ∈ piece, atom ≠ []) → Carries atoms s →
      Carries (piece ++ atoms) (data piece.flatten :: s)

theorem weight_prepend_le (elements : List α) (s : List (Arrival α)) :
    weight (prepend elements s) ≤ elements.length + 1 + weight s := by
  rw [prepend]
  split
  · exact Nat.le_add_left _ _
  · exact Nat.le_refl _

theorem read_prepend {elements rest : List α} {len : Nat} (hlen : elements.length = len)
    (hpos : 0 < len) (s : List (Arrival α)) :
    read len (prepend (elements ++ rest) s) = (elements, prepend rest s) := by
  subst hlen
  have hne : elements ++ rest ≠ [] := fun h =>
    List.ne_nil_of_length_pos hpos (List.append_eq_nil_iff.mp h).1
  rw [prepend, if_neg hne, read, List.take_left, List.drop_left]

theorem weight_prepend_append_lt {elements : List α} (hne : elements ≠ []) (rest : List α)
    (s : List (Arrival α)) :
    weight (prepend rest s) < weight (prepend (elements ++ rest) s) := by
  have hpos := List.length_pos_iff.mpr hne
  have hle := weight_prepend_le rest s
  have hwhole : prepend (elements ++ rest) s = data (elements ++ rest) :: s :=
    if_neg fun h => hne (List.append_eq_nil_iff.mp h).1
  rw [hwhole, weight, List.length_append]
  omega

theorem weight_read_le (len : Nat) (s : List (Arrival α)) : weight (read len s).2 ≤ weight s := by
  induction s with
  | nil => exact Nat.le_refl _
  | cons arrival s ih =>
    cases arrival with
    | failed => exact Nat.le_succ_of_le ih
    | data elements =>
      have hle := weight_prepend_le (elements.drop len) s
      rw [List.length_drop] at hle
      have hread : (read len (data elements :: s)).2 = prepend (elements.drop len) s := rfl
      rw [hread, weight]
      omega

theorem weight_readAll_le {block fuel len : Nat} {s s' : List (Arrival α)} {xs : List α}
    (h : readAll block fuel len s = some (xs, s')) : weight s' ≤ weight s := by
  induction fuel generalizing len s xs with
  | zero =>
    cases len with
    | zero => cases h; exact Nat.le_refl _
    | succ len => cases h
  | succ fuel ih =>
    cases len with
    | zero => cases h; exact Nat.le_refl _
    | succ len =>
      obtain ⟨r, hr, hxs⟩ := Option.map_eq_some_iff.mp h
      cases hxs
      exact Nat.le_trans (ih hr) (weight_read_le _ s)

theorem length_read_le (len : Nat) (s : List (Arrival α)) : (read len s).1.length ≤ len := by
  induction s with
  | nil => exact Nat.zero_le _
  | cons arrival s ih =>
    cases arrival with
    | failed => exact ih
    | data elements => exact List.length_take_le len elements

/-- Reads that end have got what was asked for. -/
theorem length_readAll {block fuel len : Nat} {s s' : List (Arrival α)} {xs : List α}
    (h : readAll block fuel len s = some (xs, s')) : xs.length = len := by
  induction fuel generalizing len s xs with
  | zero =>
    cases len with
    | zero => cases h; rfl
    | succ len => cases h
  | succ fuel ih =>
    cases len with
    | zero => cases h; rfl
    | succ len =>
      obtain ⟨⟨ys, t⟩, hr, hxs⟩ := Option.map_eq_some_iff.mp h
      cases hxs
      have hle := length_read_le (min block (len + 1)) s
      have hrest := ih hr
      rw [List.length_append, hrest]
      omega

theorem Carries.of_failed {atoms : List (List α)} {s : List (Arrival α)}
    (h : Carries atoms (Arrival.failed :: s)) : Carries atoms s := by
  cases h with
  | failed h => exact h

theorem Carries.of_data_nil {atoms : List (List α)} {s : List (Arrival α)}
    (h : Carries atoms (data [] :: s)) : Carries atoms s := by
  generalize hs : data [] :: s = arrivals at h
  cases h with
  | done => cases hs
  | failed _ => cases hs
  | piece piece hpiece h =>
    cases piece with
    | nil => cases hs; exact h
    | cons atom piece =>
      have hflat : [] = atom ++ piece.flatten := Arrival.data.inj (List.cons.inj hs).1
      exact absurd (List.append_eq_nil_iff.mp hflat.symm).1 (hpiece atom List.mem_cons_self)

/-- Without atoms nothing arrives. -/
theorem Carries.not_data_cons {a : α} {elements : List α} {s : List (Arrival α)} :
    ¬ Carries [] (data (a :: elements) :: s) := by
  intro h
  generalize hatoms : ([] : List (List α)) = atoms at h
  generalize hs : data (a :: elements) :: s = arrivals at h
  cases h with
  | done => cases hs
  | failed _ => cases hs
  | piece piece _ _ =>
    obtain ⟨rfl, -⟩ := List.append_eq_nil_iff.mp hatoms.symm
    cases hs

theorem Carries.atoms_of_nil {atoms : List (List α)} (h : Carries atoms []) : atoms = [] := by
  cases h with
  | done => rfl

theorem Carries.prepend {atoms piece : List (List α)} {s : List (Arrival α)}
    (hpiece : ∀ atom ∈ piece, atom ≠ []) (h : Carries atoms s) :
    Carries (piece ++ atoms) (prepend piece.flatten s) := by
  rw [Arrival.prepend]
  split
  · rename_i hempty
    have hnil : piece = [] := by
      apply List.eq_nil_iff_forall_not_mem.mpr
      intro atom hmem
      exact hpiece atom hmem (List.flatten_eq_nil_iff.mp hempty atom hmem)
    rwa [hnil, List.nil_append]
  · exact .piece piece hpiece h

/-- The whole stream may arrive at once. -/
theorem Carries.whole {atoms : List (List α)} (h : ∀ atom ∈ atoms, atom ≠ []) :
    Carries atoms [data atoms.flatten] := by
  have hpiece := Carries.piece atoms h .done
  rwa [List.append_nil] at hpiece

theorem Carries.of_data_cons {atom : List α} {atoms : List (List α)} {a : α} {elements : List α}
    {s : List (Arrival α)} (h : Carries (atom :: atoms) (data (a :: elements) :: s)) :
    ∃ rest, data (a :: elements) :: s = Arrival.prepend (atom ++ rest) s ∧
      Carries atoms (Arrival.prepend rest s) := by
  generalize hall : atom :: atoms = all at h
  generalize hs : data (a :: elements) :: s = arrivals at h
  cases h with
  | done => cases hs
  | failed _ => cases hs
  | @piece atoms' s' piece hpiece h =>
    cases piece with
    | nil => cases hs
    | cons first piece =>
      obtain ⟨rfl, rfl⟩ := List.cons.inj hall
      obtain ⟨helements, rfl⟩ := List.cons.inj hs
      have hne : atom ++ piece.flatten ≠ [] := fun hnil =>
        hpiece atom List.mem_cons_self (List.append_eq_nil_iff.mp hnil).1
      refine ⟨piece.flatten, ?_, ?_⟩
      · rw [Arrival.prepend, if_neg hne]
        rfl
      · exact h.prepend fun g hg => hpiece g (List.mem_cons_of_mem _ hg)

/-- Elements taken from a piece of single elements are the next ones of the stream. -/
private theorem take_piece {piece atoms rest : List (List α)} {xs : List α} {n : Nat}
    (h : piece ++ atoms = xs.map (fun x => [x]) ++ rest) (hpiece : n ≤ piece.flatten.length)
    (hxs : n ≤ xs.length) :
    piece.flatten.take n = xs.take n ∧ ∃ piece', piece'.flatten = piece.flatten.drop n ∧
      piece' <:+ piece ∧ piece' ++ atoms = (xs.drop n).map (fun x => [x]) ++ rest := by
  induction n generalizing piece xs with
  | zero => exact ⟨rfl, piece, rfl, List.suffix_rfl, h⟩
  | succ n ih =>
    cases xs with
    | nil => cases hxs
    | cons x xs =>
      cases piece with
      | nil => cases hpiece
      | cons first piece =>
        obtain ⟨rfl, htail⟩ := List.cons.inj h
        rw [List.flatten_cons, List.length_append, List.length_singleton] at hpiece
        obtain ⟨htake, piece', hflat, hsuffix, hrest⟩ :=
          ih htail (by omega) (Nat.le_of_succ_le_succ hxs)
        refine ⟨?_, piece', hflat, hsuffix.trans (List.suffix_cons _ _), hrest⟩
        rw [List.flatten_cons, List.singleton_append, List.take_succ_cons, List.take_succ_cons,
          htake]

theorem readAll_failed (block fuel len : Nat) (s : List (Arrival α)) :
    readAll block fuel len (failed :: s) = if len = 0 then some ([], failed :: s)
      else readAll block fuel len s := by
  cases len with
  | zero => rw [readAll, if_pos rfl]
  | succ len =>
    rw [if_neg (Nat.succ_ne_zero len)]
    cases fuel with
    | zero => rfl
    | succ fuel => rfl

private theorem weight_prepend_drop_lt {elements : List α} {n : Nat} (hn : n = 0 → elements = [])
    (s : List (Arrival α)) :
    weight (prepend (elements.drop n) s) < weight (data elements :: s) := by
  rw [weight]
  by_cases hzero : n = 0
  · rw [hn hzero, List.drop_nil, prepend, if_pos rfl]
    omega
  · have hle := weight_prepend_le (elements.drop n) s
    rw [List.length_drop] at hle
    by_cases hempty : elements.length = 0
    · rw [List.length_eq_zero_iff.mp hempty, List.drop_nil, prepend, if_pos rfl]
      omega
    · omega

/-- Single elements are read completely, in whatever pieces they arrive. -/
theorem readAll_of_carries {block : Nat} (hblock : 0 < block) {rest : List (List α)}
    {s : List (Arrival α)} {xs : List α} {fuel : Nat} (hfuel : weight s ≤ fuel)
    (h : Carries (xs.map (fun x => [x]) ++ rest) s) :
    ∃ s', readAll block fuel xs.length s = some (xs, s') ∧ Carries rest s' := by
  -- by induction on what the reads still find
  induction hweight : weight s using Nat.strongRecOn generalizing s xs fuel with
  | ind n ih =>
    subst hweight
    cases xs with
    | nil => exact ⟨s, by cases fuel <;> rfl, h⟩
    | cons x xs =>
      generalize hatoms : (x :: xs).map (fun x => [x]) ++ rest = atoms at h
      cases h with
      | done => cases hatoms
      | @failed atoms s h =>
        subst hatoms
        rw [readAll_failed, List.length_cons, if_neg (Nat.succ_ne_zero xs.length)]
        exact ih (weight s) (Nat.lt_succ_self _) (Nat.le_of_succ_le hfuel) h rfl
      | @piece atoms s piece hpiece h =>
        cases fuel with
        | zero => rw [weight] at hfuel; omega
        | succ fuel =>
          let wanted := min block (xs.length + 1)
          let n := min wanted piece.flatten.length
          have hn : n ≤ xs.length + 1 := by omega
          obtain ⟨htake, piece', hflat, hsuffix, hrest⟩ :=
            take_piece hatoms.symm (by omega : n ≤ piece.flatten.length) hn
          have hread : read wanted (data piece.flatten :: s) =
              ((x :: xs).take n, prepend piece'.flatten s) := by
            rw [read, List.take_eq_take_min, List.drop_eq_drop_min]
            exact Prod.ext htake (by rw [hflat])
          have hless : weight (prepend piece'.flatten s) < weight (data piece.flatten :: s) := by
            rw [hflat]
            apply weight_prepend_drop_lt
            intro hzero
            exact List.length_eq_zero_iff.mp (by omega)
          have hcarries : Carries (((x :: xs).drop n).map (fun x => [x]) ++ rest)
              (prepend piece'.flatten s) := by
            rw [← hrest]
            exact h.prepend fun atom hmem => hpiece atom (hsuffix.mem hmem)
          have hleft : weight (prepend piece'.flatten s) ≤ fuel := by omega
          obtain ⟨s', hall, hdone⟩ := ih _ hless hleft hcarries rfl
          refine ⟨s', ?_, hdone⟩
          have hlength : xs.length + 1 - ((x :: xs).take n).length = ((x :: xs).drop n).length := by
            rw [List.length_take, List.length_drop, List.length_cons]
            omega
          rw [List.length_cons, readAll, hread]
          simp only [hlength, hall, Option.map_some, List.take_append_drop]

end Arrival

end Framework
