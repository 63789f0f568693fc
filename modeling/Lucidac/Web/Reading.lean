import Lucidac.Web.Request

/-!
# What the reader does with a text

As long as no more bytes are pushed back than were just read, the reader is a list of bytes.
-/

namespace Lucidac.Web

variable {r : Reader} {text : List (BitVec 8)} {cs : List (Option (BitVec 8))} {ch : BitVec 8}

/-- What is left of a text, and the bytes and pauses behind it.  None of these was read ahead, and
there is room for what may be pushed back. -/
structure Reads (r : Reader) (text : List (BitVec 8)) (cs : List (Option (BitVec 8))) : Prop where
  chars : r.pushback.map some ++ r.input = text.map some ++ cs
  within : r.pushback.length ≤ text.length
  depth : r.pushback.length ≤ 127
  timely : r.readTimedout = false

theorem Reads.size_eq (h : Reads r text cs) : r.size = text.length + cs.length := by
  have hlength := congrArg List.length h.chars
  simp only [List.length_append, List.length_map] at hlength
  exact hlength

theorem Reads.timedRead (h : Reads r (ch :: text) cs) :
    ∃ r', r.timedRead = (some ch, r') ∧ Reads r' text cs ∧
      r'.pushback.length = r.pushback.length - 1 := by
  obtain ⟨hchars, hwithin, hdepth, htimely⟩ := h
  obtain ⟨pushback, input, readTimedout⟩ := r
  cases pushback with
  | nil =>
    cases hchars
    exact ⟨⟨[], text.map some ++ cs, readTimedout⟩, rfl,
      ⟨rfl, Nat.zero_le _, hdepth, htimely⟩, rfl⟩
  | cons first pushback =>
    rw [List.map_cons, List.map_cons, List.cons_append, List.cons_append, List.cons.injEq,
      Option.some.injEq] at hchars
    obtain ⟨rfl, hchars⟩ := hchars
    exact ⟨⟨pushback, input, readTimedout⟩, rfl,
      ⟨hchars, Nat.le_of_succ_le_succ hwithin, Nat.le_of_succ_le hdepth, htimely⟩, rfl⟩

theorem Reads.push (h : Reads r text cs) (hroom : r.pushback.length < 127) (ch : BitVec 8) :
    Reads (r.push ch) (ch :: text) cs ∧
      (r.push ch).pushback.length = r.pushback.length + 1 := by
  have hfits : ¬ r.pushback.length + 1 = 128 := by omega
  rw [Reader.push, if_neg hfits]
  exact ⟨⟨congrArg (some ch :: ·) h.chars, Nat.succ_le_succ h.within, hroom, h.timely⟩, rfl⟩

theorem Reads.foldl_push (matched : List (BitVec 8)) (h : Reads r text cs)
    (hroom : r.pushback.length + matched.length ≤ 127) :
    Reads (matched.foldl Reader.push r) (matched.reverse ++ text) cs := by
  induction matched generalizing r text with
  | nil => exact h
  | cons c matched ih =>
    rw [List.length_cons] at hroom
    obtain ⟨hpush, hlength⟩ := h.push (by omega) c
    rw [List.foldl_cons, List.reverse_cons, List.append_assoc]
    exact ih hpush (by omega)

/-- A text that was read to its end: what is behind it is untouched. -/
theorem Reads.eq_of_nil (h : Reads r [] cs) : r = ⟨[], cs, false⟩ := by
  obtain ⟨hchars, hwithin, -, htimely⟩ := h
  obtain ⟨pushback, input, readTimedout⟩ := r
  obtain rfl : pushback = [] := List.eq_nil_of_length_eq_zero (Nat.le_zero.mp hwithin)
  cases hchars
  cases htimely
  rfl

section Expecting

/-- Equal but for the case of letters. -/
def Similar (p q : List (BitVec 8)) : Prop := p.map tolower = q.map tolower

instance (p q : List (BitVec 8)) : Decidable (Similar p q) :=
  inferInstanceAs (Decidable (p.map tolower = q.map tolower))

theorem Similar.refl (p : List (BitVec 8)) : Similar p p := rfl

theorem Similar.symm {p q : List (BitVec 8)} (h : Similar p q) : Similar q p := Eq.symm h

theorem Similar.trans {p q s : List (BitVec 8)} (h : Similar p q) (h' : Similar q s) :
    Similar p s := Eq.trans h h'

theorem Similar.length_eq {p q : List (BitVec 8)} (h : Similar p q) : p.length = q.length := by
  simpa only [List.length_map] using congrArg List.length h

theorem similar_nil {p : List (BitVec 8)} : Similar p [] ↔ p = [] := List.map_eq_nil_iff

theorem similar_cons {a b : BitVec 8} {p q : List (BitVec 8)} :
    Similar (a :: p) (b :: q) ↔ tolower a = tolower b ∧ Similar p q := by
  rw [Similar, List.map_cons, List.map_cons, List.cons_eq_cons]
  rfl

theorem expectFrom_similar {matched expected p : List (BitVec 8)} (hp : Similar p expected)
    (h : Reads r (p ++ text) cs) :
    ∃ r', expectFrom matched expected r = (true, r') ∧ Reads r' text cs := by
  induction expected generalizing matched p r with
  | nil =>
    rw [similar_nil.mp hp] at h
    exact ⟨r, rfl, h⟩
  | cons candidate expected ih =>
    cases p with
    | nil => cases hp
    | cons c p =>
      obtain ⟨hc, hp⟩ := similar_cons.mp hp
      obtain ⟨r', hread, hreads, -⟩ := h.timedRead
      rw [expectFrom, hread]
      simp only [ne_eq, hc, not_true_eq_false, if_false]
      exact ih hp hreads

/-- A text that goes on differently is left as it was, but spelled as expected so far. -/
theorem expectFrom_differs {matched expected p rest : List (BitVec 8)} {candidate : BitVec 8}
    (hp : Similar p expected) (hch : tolower ch ≠ tolower candidate)
    (hroom : matched.length + expected.length + 1 ≤ 127)
    (hdepth : r.pushback.length + matched.length ≤ 127)
    (h : Reads r (p ++ ch :: text) cs) :
    ∃ r', expectFrom matched (expected ++ candidate :: rest) r = (false, r') ∧
      Reads r' (matched.reverse ++ expected ++ ch :: text) cs := by
  induction expected generalizing matched p r with
  | nil =>
    rw [similar_nil.mp hp] at h
    obtain ⟨r', hread, hreads, hlength⟩ := h.timedRead
    rw [List.length_nil] at hroom
    obtain ⟨hpush, hlength'⟩ := hreads.push (by omega) ch
    rw [List.nil_append, expectFrom, hread]
    simp only [ne_eq, hch, not_false_eq_true, if_true, List.append_nil]
    exact ⟨_, rfl, hpush.foldl_push matched (by omega)⟩
  | cons e expected ih =>
    cases p with
    | nil => cases hp
    | cons c p =>
      obtain ⟨hc, hp⟩ := similar_cons.mp hp
      obtain ⟨r', hread, hreads, hlength⟩ := h.timedRead
      rw [List.length_cons] at hroom
      obtain ⟨r'', heq, hreads'⟩ := @ih r' (e :: matched) p hp
        (by rw [List.length_cons]; omega) (by rw [List.length_cons]; omega) hreads
      rw [List.cons_append, expectFrom, hread]
      simp only [ne_eq, hc, not_true_eq_false, if_false]
      refine ⟨r'', heq, ?_⟩
      rwa [List.reverse_cons, List.append_assoc matched.reverse, List.singleton_append] at hreads'

theorem expect_similar {expected p : List (BitVec 8)} (hp : Similar p expected)
    (h : Reads r (p ++ text) cs) :
    ∃ r', expect expected r = (true, r') ∧ Reads r' text cs :=
  expectFrom_similar hp h

theorem expect_differs {expected p rest : List (BitVec 8)} {candidate : BitVec 8}
    (hp : Similar p expected) (hch : tolower ch ≠ tolower candidate)
    (hroom : expected.length + 1 ≤ 127) (h : Reads r (p ++ ch :: text) cs) :
    ∃ r', expect (expected ++ candidate :: rest) r = (false, r') ∧
      Reads r' (expected ++ ch :: text) cs :=
  @expectFrom_differs r text cs ch [] _ _ _ _ hp hch (by rw [List.length_nil]; omega) h.depth h

theorem expect_first_differs {candidate : BitVec 8} {rest : List (BitVec 8)}
    (hch : tolower ch ≠ tolower candidate) (h : Reads r (ch :: text) cs) :
    ∃ r', expect (candidate :: rest) r = (false, r') ∧ Reads r' (ch :: text) cs :=
  @expect_differs r text cs ch [] [] _ _ rfl hch (by decide) h

/-- The texts differ before one of them ends. -/
def diverges : List (BitVec 8) → List (BitVec 8) → Bool
  | a :: p, b :: q => if tolower a = tolower b then diverges p q else true
  | [], _ => false
  | _ :: _, [] => false

theorem exists_of_diverges {p q : List (BitVec 8)} (h : diverges p q = true) :
    ∃ s a p' t b q', p = s ++ a :: p' ∧ q = t ++ b :: q' ∧ Similar s t ∧ tolower a ≠ tolower b := by
  induction p generalizing q with
  | nil => cases h
  | cons a p ih =>
    cases q with
    | nil => cases h
    | cons b q =>
      by_cases hab : tolower a = tolower b
      · rw [diverges, if_pos hab] at h
        obtain ⟨s, a', p', t, b', q', rfl, rfl, hst, hne⟩ := ih h
        exact ⟨a :: s, a', p', b :: t, b', q', rfl, rfl, similar_cons.mpr ⟨hab, hst⟩, hne⟩
      · exact ⟨[], a, p, [], b, q, rfl, rfl, .refl [], hab⟩

theorem Similar.exists_append {p q q' : List (BitVec 8)} (h : Similar p (q ++ q')) :
    ∃ s s', p = s ++ s' ∧ Similar s q ∧ Similar s' q' := by
  rw [Similar, List.map_append] at h
  obtain ⟨s, s', rfl, hs, hs'⟩ := List.map_eq_append_iff.mp h
  exact ⟨s, s', rfl, hs, hs'⟩

theorem Similar.append {p p' q q' : List (BitVec 8)} (h : Similar p q) (h' : Similar p' q') :
    Similar (p ++ p') (q ++ q') := by
  rw [Similar, List.map_append, List.map_append, h, h']

/-- Another text is expected: what was read stays, but for the case of letters. -/
theorem expect_diverges {expected line p : List (BitVec 8)} (hp : Similar p line)
    (hdiverges : diverges expected line = true) (hlength : expected.length ≤ 127)
    (h : Reads r (p ++ text) cs) :
    ∃ r' p', expect expected r = (false, r') ∧ Similar p' line ∧ Reads r' (p' ++ text) cs := by
  obtain ⟨s, a, e, t, b, q, rfl, rfl, hst, hne⟩ := exists_of_diverges hdiverges
  obtain ⟨u, u', rfl, hu, hu'⟩ := hp.exists_append
  cases u' with
  | nil => cases hu'
  | cons c u' =>
    obtain ⟨hc, hu'⟩ := similar_cons.mp hu'
    rw [List.length_append, List.length_cons] at hlength
    rw [List.append_assoc, List.cons_append] at h
    obtain ⟨r', heq, hreads⟩ := @expect_differs _ _ _ _ _ _ e _ (hu.trans hst.symm)
      (fun hca => hne (hca.symm.trans hc)) (by omega) h
    refine ⟨r', s ++ c :: u', heq, hst.append (similar_cons.mpr ⟨hc, hu'⟩), ?_⟩
    rwa [List.append_assoc, List.cons_append]

end Expecting

section Loops

theorem skipSpaceLoop_reads {blanks : List (BitVec 8)} (hblanks : blanks.all isBlank = true)
    (hch : isBlank ch = false) {fuel : Nat} (hfuel : blanks.length < fuel)
    (h : Reads r (blanks ++ ch :: text) cs) :
    ∃ r', skipSpaceLoop fuel r = (true, r') ∧ Reads r' (ch :: text) cs := by
  induction fuel generalizing blanks r with
  | zero => exact absurd hfuel (Nat.not_lt_zero _)
  | succ fuel ih =>
    cases blanks with
    | nil =>
      obtain ⟨r', hread, hreads, hlength⟩ := h.timedRead
      have hdepth := h.depth
      rw [skipSpaceLoop, hread]
      simp only [hch, Bool.false_eq_true, if_false]
      exact ⟨_, rfl, (hreads.push (by omega) ch).1⟩
    | cons blank blanks =>
      rw [List.all_cons, Bool.and_eq_true] at hblanks
      obtain ⟨r', hread, hreads, -⟩ := h.timedRead
      rw [skipSpaceLoop, hread]
      simp only [hblanks.1, if_true]
      exact ih hblanks.2 (Nat.lt_of_succ_lt_succ hfuel) hreads

theorem skipSpace_reads {blanks : List (BitVec 8)} (hblanks : blanks.all isBlank = true)
    (hch : isBlank ch = false) (h : Reads r (blanks ++ ch :: text) cs) :
    ∃ r', skipSpace r = (true, r') ∧ Reads r' (ch :: text) cs := by
  refine skipSpaceLoop_reads hblanks hch ?_ h
  rw [h.size_eq, List.length_append]
  omega

theorem tolower_ne_cr : ∀ ch : BitVec 8, ch ≠ 13 → tolower ch ≠ tolower 13 := by decide +kernel

theorem expect_crlf_of_ne (hch : ch ≠ 13) (h : Reads r (ch :: text) cs) :
    ∃ r', expect crlf r = (false, r') ∧ Reads r' (ch :: text) cs :=
  expect_first_differs (tolower_ne_cr ch hch) h

theorem expect_crlf (h : Reads r (13 :: 10 :: text) cs) :
    ∃ r', expect crlf r = (true, r') ∧ Reads r' text cs :=
  expect_similar (p := crlf) (.refl crlf) h

theorem skipLineLoop_reads {line : List (BitVec 8)} (hline : 13 ∉ line) {fuel : Nat}
    (hfuel : line.length < fuel) (h : Reads r (line ++ 13 :: 10 :: text) cs) :
    ∃ r', skipLineLoop fuel r = (true, r') ∧ Reads r' text cs := by
  induction fuel generalizing line r with
  | zero => exact absurd hfuel (Nat.not_lt_zero _)
  | succ fuel ih =>
    cases line with
    | nil =>
      obtain ⟨r', heq, hreads⟩ := expect_crlf h
      rw [skipLineLoop, heq]
      exact ⟨r', rfl, hreads⟩
    | cons c line =>
      rw [List.mem_cons, not_or] at hline
      obtain ⟨r', heq, hreads⟩ := expect_crlf_of_ne (Ne.symm hline.1) h
      obtain ⟨r'', hread, hreads, -⟩ := hreads.timedRead
      rw [skipLineLoop, heq]
      simp only [hread]
      exact ih hline.2 (Nat.lt_of_succ_lt_succ hfuel) hreads

theorem skipLine_reads {line : List (BitVec 8)} (hline : 13 ∉ line)
    (h : Reads r (line ++ 13 :: 10 :: text) cs) :
    ∃ r', skipLine r = (true, r') ∧ Reads r' text cs := by
  refine skipLineLoop_reads hline ?_ h
  rw [h.size_eq, List.length_append]
  omega

end Loops

end Lucidac.Web
