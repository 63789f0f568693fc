import Lucidac.Web.Reading
import Mathlib.Data.List.TakeWhile

/-!
# The headers of a request

What the parser makes of one line depends on the line alone, and so the headers amount to a fold over
the lines.  A line counts for a registered header also when registered names, in the order of their
registration, stand before the name.
-/

namespace Lucidac.Web

open Base64 (bytesOf)

section Lines

/-- A name, a colon and the rest of the line. -/
structure HeaderLine where
  name : List (BitVec 8)
  field : List (BitVec 8)
  name_colon : 58 ∉ name
  name_cr : 13 ∉ name
  field_cr : 13 ∉ field

namespace HeaderLine

def text (line : HeaderLine) : List (BitVec 8) := line.name ++ 58 :: line.field ++ crlf

/-- The field without the blanks before it. -/
def value (line : HeaderLine) : List (BitVec 8) := line.field.dropWhile isBlank

end HeaderLine

/-- What is behind a prefix, whatever the case of the letters. -/
def stripPrefix : List (BitVec 8) → List (BitVec 8) → Option (List (BitVec 8))
  | [], text => some text
  | _ :: _, [] => none
  | a :: expected, b :: text =>
    if tolower a = tolower b then stripPrefix expected text else none

/-- The registered header for a name. -/
def findName (seen : List HeaderNode) :
    List HeaderNode → List (BitVec 8) → Option (List HeaderNode × HeaderNode × List HeaderNode)
  | [], _ => none
  | node :: nodes, name =>
    match stripPrefix node.name name with
    | none => findName (seen ++ [node]) nodes name
    | some [] => some (seen, node, nodes)
    | some (c :: rest) => findName (seen ++ [node]) nodes (c :: rest)

/-- The new text in the buffer; a further value is appended behind a comma. -/
def HeaderNode.store (node : HeaderNode) (value : List (BitVec 8)) : Option (List (BitVec 8)) :=
  let start := if node.value ≠ [] then node.value ++ [44] else []
  if start.length + value.length < node.bufferLength then
    some ((start ++ value).takeWhile (· ≠ 0))
  else none

/-- The number that digits make behind others, as far as an `int` can hold it. -/
def decimal (n : Int32) (digits : List (BitVec 8)) : Int32 :=
  digits.foldl (fun n digit => n * 10 + .ofNat digit.toNat - 48) n

/-- Digits with nothing behind them. -/
def numeral (sign : Int32 → Int32) (digits : List (BitVec 8)) : Option Int32 :=
  if digits ≠ [] ∧ digits.all isDigit then some (sign (decimal 0 digits)) else none

def contentLength (line : HeaderLine) : Option Int32 :=
  if line.value.head? = some 45 then numeral (fun n => -n) line.value.tail
  else numeral (fun n => n) line.value

/-- What a line does to the headers; nothing is left when the request is refused. -/
def Headers.apply (h : Headers) (line : HeaderLine) : Option Headers :=
  if Similar line.name (bytesOf "Content-Length") then
    (contentLength line).map fun left => { h with left }
  else
    match findName [] h.nodes line.name with
    | none => some h
    | some (seen, node, nodes) =>
      (node.store line.value).map fun value =>
        { h with nodes := seen ++ { node with value } :: nodes }

end Lines

variable {r : Reader} {text : List (BitVec 8)} {cs : List (Option (BitVec 8))}

section Names

theorem eq_of_tolower_eq : ∀ c : BitVec 8, (tolower c = tolower 58 → c = 58) ∧
    (tolower c = tolower 13 → c = 13) := by
  decide +kernel

theorem Similar.not_mem {p q : List (BitVec 8)} (h : Similar p q) {c : BitVec 8}
    (hc : ∀ b, tolower b = tolower c → b = c) (hq : c ∉ q) : c ∉ p := by
  intro hp
  have hmem : tolower c ∈ q.map tolower := h ▸ List.mem_map_of_mem hp
  obtain ⟨b, hb, heq⟩ := List.mem_map.mp hmem
  exact hq (hc b heq ▸ hb)

theorem exists_of_stripPrefix {expected name rest : List (BitVec 8)}
    (h : stripPrefix expected name = some rest) :
    ∃ p, name = p ++ rest ∧ Similar p expected := by
  induction expected generalizing name with
  | nil =>
    cases h
    exact ⟨[], rfl, rfl⟩
  | cons a expected ih =>
    cases name with
    | nil => cases h
    | cons b name =>
      rw [stripPrefix] at h
      by_cases hab : tolower a = tolower b
      · rw [if_pos hab] at h
        obtain ⟨p, rfl, hp⟩ := ih h
        exact ⟨b :: p, rfl, similar_cons.mpr ⟨hab.symm, hp⟩⟩
      · rw [if_neg hab] at h
        cases h

theorem diverges_of_stripPrefix {expected name : List (BitVec 8)} (hcolon : 58 ∉ expected)
    (h : stripPrefix expected name = none) : diverges expected (name ++ [58]) = true := by
  induction expected generalizing name with
  | nil => cases h
  | cons a expected ih =>
    rw [List.mem_cons, not_or] at hcolon
    cases name with
    | nil =>
      rw [List.nil_append, diverges, if_neg fun heq => hcolon.1 ((eq_of_tolower_eq a).1 heq).symm]
    | cons b name =>
      rw [stripPrefix] at h
      rw [List.cons_append, diverges]
      split
      · next hab =>
        rw [if_pos hab] at h
        exact ih hcolon.2 h
      · rfl

/-- The names that can be registered. -/
def HeaderNode.Named (node : HeaderNode) : Prop := 58 ∉ node.name ∧ node.name.length ≤ 127

instance (node : HeaderNode) : Decidable node.Named :=
  inferInstanceAs (Decidable (58 ∉ node.name ∧ node.name.length ≤ 127))

/-- What `findHeader` leaves to be read behind a name, for each answer. -/
def LeftBehind (r : Reader) (text : List (BitVec 8)) (cs : List (Option (BitVec 8))) :
    Option (List HeaderNode × HeaderNode × List HeaderNode) → Prop
  | some _ => Reads r text cs
  | none => ∃ p : List (BitVec 8), 13 ∉ p ∧ Reads r (p ++ 58 :: text) cs

theorem expect_name_diverges {expected name p : List (BitVec 8)} (hp : Similar p name)
    (hdiverges : diverges expected (name ++ [58]) = true) (hlength : expected.length ≤ 127)
    (h : Reads r (p ++ 58 :: text) cs) :
    ∃ r' p', expect expected r = (false, r') ∧ Similar p' name ∧
      Reads r' (p' ++ 58 :: text) cs := by
  have hline : Reads r (p ++ [58] ++ text) cs := by
    rw [List.append_assoc]
    exact h
  obtain ⟨r', p', heq, hp', hreads⟩ := expect_diverges (hp.append (.refl [58])) hdiverges hlength
    hline
  obtain ⟨s, s', rfl, hs, hs'⟩ := hp'.exists_append
  cases s' with
  | nil => cases hs'
  | cons c s' =>
    obtain ⟨hc, hs'⟩ := similar_cons.mp hs'
    rw [similar_nil.mp hs', (eq_of_tolower_eq c).1 hc, List.append_assoc] at hreads
    exact ⟨r', s, heq, hs, hreads⟩

theorem findHeader_reads {seen nodes : List HeaderNode} (hnodes : ∀ node ∈ nodes, node.Named)
    {name p : List (BitVec 8)} (hp : Similar p name) (hcolon : 58 ∉ name) (hcr : 13 ∉ name)
    (h : Reads r (p ++ 58 :: text) cs) :
    ∃ r', findHeader seen nodes r = (findName seen nodes name, r') ∧
      LeftBehind r' text cs (findName seen nodes name) := by
  induction nodes generalizing seen name p r with
  | nil => exact ⟨r, rfl, p, hp.not_mem (fun b => (eq_of_tolower_eq b).2) hcr, h⟩
  | cons node nodes ih =>
    have hnamed := hnodes node List.mem_cons_self
    have hrest : ∀ n ∈ nodes, n.Named := fun n hn => hnodes n (List.mem_cons_of_mem _ hn)
    cases hstrip : stripPrefix node.name name with
    | none =>
      obtain ⟨r', s, heq, hs, hreads⟩ := expect_name_diverges hp
        (diverges_of_stripPrefix hnamed.1 hstrip) hnamed.2 h
      rw [findHeader, heq, findName, hstrip]
      exact ih hrest hs hcolon hcr hreads
    | some rest =>
      obtain ⟨q, rfl, hq⟩ := exists_of_stripPrefix hstrip
      obtain ⟨s, s', rfl, hs, hs'⟩ := hp.exists_append
      rw [List.append_assoc] at h
      obtain ⟨r₁, heq₁, hreads₁⟩ := expect_similar (hs.trans hq) h
      rw [List.mem_append, not_or] at hcolon hcr
      rw [findHeader, heq₁, findName, hstrip]
      cases rest with
      | nil =>
        rw [similar_nil.mp hs'] at hreads₁
        obtain ⟨r₂, heq₂, hreads₂⟩ := expect_similar (p := [58]) (.refl [58]) hreads₁
        simp only [heq₂]
        exact ⟨r₂, rfl, hreads₂⟩
      | cons c rest =>
        cases s' with
        | nil => cases hs'
        | cons c' s' =>
          obtain ⟨hc, -⟩ := similar_cons.mp hs'
          have hne : tolower c' ≠ tolower 58 := by
            intro heq
            exact hcolon.2 ((eq_of_tolower_eq c).1 (hc.symm.trans heq) ▸ List.mem_cons_self)
          obtain ⟨r₂, heq₂, hreads₂⟩ := @expect_first_differs _ _ _ _ 58 [] hne hreads₁
          simp only [heq₂]
          exact ih hrest hs' hcolon.2 hcr.2 hreads₂

end Names

section Values

theorem headerValueLoop_reads {value : List (BitVec 8)} (hvalue : value ≠ []) (hcr : 13 ∉ value)
    {fuel : Nat} (hfuel : value.length < fuel) (n : Int) (written : List (BitVec 8))
    (h : Reads r (value ++ 13 :: 10 :: text) cs) :
    ∃ r', headerValueLoop fuel n written r =
        (if (value.length : Int) < n then some (written ++ value) else none, r') ∧
      Reads r' text cs := by
  induction fuel generalizing value n written r with
  | zero => exact absurd hfuel (Nat.not_lt_zero _)
  | succ fuel ih =>
    cases value with
    | nil => exact absurd rfl hvalue
    | cons c value =>
      rw [List.mem_cons, not_or] at hcr
      obtain ⟨r₁, hread, hreads, -⟩ := h.timedRead
      rw [headerValueLoop, hread]
      cases value with
      | nil =>
        obtain ⟨r₂, heq, hreads₂⟩ := expect_crlf hreads
        simp only [heq]
        refine ⟨r₂, ?_, hreads₂⟩
        by_cases hroom : 0 < n - 1
        · rw [if_pos hroom, if_pos hroom, if_pos (by simp only [List.length_singleton]; omega)]
        · rw [if_neg hroom, if_neg (by simp only [List.length_singleton]; omega)]
      | cons d value =>
        have hd : d ≠ 13 := fun hd => hcr.2 (hd ▸ List.mem_cons_self)
        obtain ⟨r₂, heq, hreads₂⟩ := expect_crlf_of_ne hd hreads
        simp only [heq]
        obtain ⟨r₃, heq₃, hreads₃⟩ := ih (List.cons_ne_nil d value) hcr.2
          (Nat.lt_of_succ_lt_succ hfuel) (n - 1)
          (if 0 < n - 1 then written ++ [c] else written) hreads₂
        refine ⟨r₃, ?_, hreads₃⟩
        rw [heq₃]
        simp only [List.length_cons]
        by_cases hroom : ((value.length + 1 : Nat) : Int) < n - 1
        · rw [if_pos hroom, if_pos (by omega), if_pos (by omega), List.append_assoc]
          rfl
        · rw [if_neg hroom, if_neg (by omega)]

theorem HeaderLine.value_cr (line : HeaderLine) : 13 ∉ line.value := fun hmem =>
  line.field_cr ((List.dropWhile_sublist _).subset hmem)

theorem skipSpace_field (line : HeaderLine)
    (h : Reads r (line.field ++ 13 :: 10 :: text) cs) :
    ∃ r', skipSpace r = (true, r') ∧ Reads r' (line.value ++ 13 :: 10 :: text) cs := by
  have hfield : line.field = line.field.takeWhile isBlank ++ line.value :=
    (List.takeWhile_append_dropWhile).symm
  rw [hfield, List.append_assoc] at h
  cases hvalue : line.value with
  | nil =>
    rw [hvalue] at h
    exact skipSpace_reads List.all_takeWhile (by decide) h
  | cons c rest =>
    have hc : isBlank c = false := by
      have hhead := List.head_dropWhile_not isBlank (l := line.field)
        (show line.field.dropWhile isBlank ≠ [] from fun heq =>
          List.cons_ne_nil c rest (hvalue.symm.trans heq))
      simpa only [show line.field.dropWhile isBlank = c :: rest from hvalue, List.head_cons]
        using hhead
    rw [hvalue] at h
    exact skipSpace_reads List.all_takeWhile hc h

theorem headerValue_reads {node : HeaderNode} {line : HeaderLine} (hvalue : line.value ≠ [])
    (h : Reads r (line.field ++ 13 :: 10 :: text) cs) :
    ∃ r', headerValue node r = (node.store line.value, r') ∧ Reads r' text cs := by
  obtain ⟨r₁, heq, hreads⟩ := skipSpace_field line h
  have hfuel : line.value.length < r₁.size + 1 := by
    rw [hreads.size_eq, List.length_append]
    omega
  obtain ⟨r₂, heq₂, hreads₂⟩ := headerValueLoop_reads hvalue line.value_cr hfuel
    (node.bufferLength - (if node.value ≠ [] then node.value ++ [44] else []).length : Int)
    (if node.value ≠ [] then node.value ++ [44] else []) hreads
  refine ⟨r₂, ?_, hreads₂⟩
  simp only [headerValue, heq, heq₂, HeaderNode.store]
  generalize (if node.value ≠ [] then node.value ++ [44] else []) = start
  by_cases hroom : start.length + line.value.length < node.bufferLength
  · rw [if_pos hroom, if_pos (by omega)]
    rfl
  · rw [if_neg hroom, if_neg (by omega)]
    rfl

end Values

section Numbers

theorem readDigits_reads {digits tail : List (BitVec 8)} (hdigits : digits.all isDigit = true)
    {stop ch : BitVec 8} (hstop : isDigit stop = false) (htext : digits ++ [stop] = ch :: tail)
    {fuel : Nat} (hfuel : digits.length < fuel) (got : Bool) (n : Int32)
    (hroom : r.pushback.length < 127) (h : Reads r (tail ++ text) cs) :
    ∃ r', readDigits fuel got n ch r =
        (some (got || !digits.isEmpty, decimal n digits), r') ∧
      Reads r' (stop :: text) cs := by
  induction fuel generalizing digits tail ch got n r with
  | zero => exact absurd hfuel (Nat.not_lt_zero _)
  | succ fuel ih =>
    cases digits with
    | nil =>
      cases htext
      rw [readDigits, if_neg (Bool.not_eq_true _ ▸ hstop), List.isEmpty_nil, Bool.not_true,
        Bool.or_false]
      exact ⟨_, rfl, (h.push hroom stop).1⟩
    | cons d digits =>
      rw [List.all_cons, Bool.and_eq_true] at hdigits
      obtain ⟨rfl, rfl⟩ := List.cons.inj htext
      obtain ⟨next, rest, hnext⟩ := List.exists_cons_of_ne_nil
        (List.append_ne_nil_of_right_ne_nil digits (List.cons_ne_nil stop []))
      have hline : Reads r (next :: (rest ++ text)) cs := by
        rwa [← List.cons_append, ← hnext]
      obtain ⟨r₁, hread, hreads, hlength⟩ := hline.timedRead
      obtain ⟨r₂, heq, hreads₂⟩ := ih hdigits.2 hnext (Nat.lt_of_succ_lt_succ hfuel) true
        (n * 10 + .ofNat d.toNat - 48) (by omega) hreads
      refine ⟨r₂, ?_, hreads₂⟩
      rw [readDigits, if_pos hdigits.1, hread]
      simp only [heq, decimal, List.foldl_cons, Bool.true_or, List.isEmpty_cons, Bool.not_false,
        Bool.or_true]

/-- The digits in front of a text, with the character that ends them. -/
theorem exists_digits (value : List (BitVec 8)) : ∃ digits stop rest,
    value ++ [13] = digits ++ stop :: rest ∧ digits = value.takeWhile isDigit ∧
      digits.all isDigit = true ∧ isDigit stop = false ∧
      (stop = 13 ∧ rest = [] ∧ digits = value ∨ stop ∈ value ∧ ¬ value.all isDigit = true) := by
  induction value with
  | nil => exact ⟨[], 13, [], rfl, rfl, rfl, rfl, .inl ⟨rfl, rfl, rfl⟩⟩
  | cons c value ih =>
    by_cases hc : isDigit c = true
    · obtain ⟨digits, stop, rest, htext, hdigits, hall, hstop, hend⟩ := ih
      refine ⟨c :: digits, stop, rest, congrArg (c :: ·) htext, ?_, ?_, hstop, ?_⟩
      · rw [List.takeWhile_cons_of_pos hc, hdigits]
      · rw [List.all_cons, hc, hall, Bool.and_self]
      · obtain ⟨hstop, hrest, heq⟩ | ⟨hmem, hnot⟩ := hend
        · exact .inl ⟨hstop, hrest, congrArg (c :: ·) heq⟩
        · refine .inr ⟨List.mem_cons_of_mem c hmem, ?_⟩
          rwa [List.all_cons, hc, Bool.true_and]
    · refine ⟨[], c, value ++ [13], rfl, ?_, rfl, Bool.not_eq_true _ ▸ hc, .inr ⟨List.mem_cons_self, ?_⟩⟩
      · rw [List.takeWhile_cons_of_neg hc]
      · rw [List.all_cons, Bool.and_eq_true]
        exact fun h => hc h.1

theorem readDigits_line {value : List (BitVec 8)} (hcr : 13 ∉ value)
    (h : Reads r (value ++ 13 :: 10 :: text) cs) :
    ∃ ch tail r₁ got r₂, value ++ [13] = ch :: tail ∧ r.timedRead = (some ch, r₁) ∧
      readDigits (r₁.size + 1) false 0 ch r₁ =
        (some (got, decimal 0 (value.takeWhile isDigit)), r₂) ∧
      r₂.readTimedout = false ∧
      (if value ≠ [] ∧ value.all isDigit = true then
        got = true ∧ Reads r₂ (13 :: 10 :: text) cs
      else got = true → ∃ r₃, expect crlf r₂ = (false, r₃) ∧ r₃.readTimedout = false) := by
  obtain ⟨digits, stop, rest, htext, hdigits, hall, hstop, hend⟩ := exists_digits value
  obtain ⟨ch, tail, hcons⟩ := List.exists_cons_of_ne_nil
    (List.append_ne_nil_of_right_ne_nil digits (List.cons_ne_nil stop []))
  have hwhole : value ++ [13] = ch :: (tail ++ rest) := by
    rw [htext, ← List.singleton_append, ← List.append_assoc, hcons, List.cons_append]
  have hline : Reads r (ch :: (tail ++ (rest ++ 10 :: text))) cs := by
    rw [← List.append_assoc, ← List.cons_append, ← hwhole, List.append_assoc]
    exact h
  obtain ⟨r₁, hread, hreads, hlength⟩ := hline.timedRead
  have hdepth := h.depth
  have hsize : digits.length < r₁.size + 1 := by
    have hlen := congrArg List.length hcons
    rw [List.length_append, List.length_singleton, List.length_cons] at hlen
    rw [hreads.size_eq, List.length_append]
    omega
  obtain ⟨r₂, heq, hreads₂⟩ := readDigits_reads hall hstop hcons hsize false 0 (by omega) hreads
  rw [hdigits, Bool.false_or] at heq
  refine ⟨ch, tail ++ rest, r₁, _, r₂, hwhole, hread, heq, hreads₂.timely, ?_⟩
  obtain ⟨rfl, rfl, rfl⟩ | ⟨hmem, hnot⟩ := hend
  · by_cases hempty : digits = []
    · rw [if_neg fun hboth => hboth.1 hempty, hempty]
      exact fun hgot => absurd hgot (by decide)
    · rw [if_pos ⟨hempty, hall⟩, ← hdigits]
      refine ⟨?_, hreads₂⟩
      cases digits with
      | nil => exact absurd rfl hempty
      | cons d digits => rfl
  · rw [if_neg fun hboth => hnot hboth.2]
    intro _
    have hne : stop ≠ 13 := fun heq => hcr (heq ▸ hmem)
    obtain ⟨r₃, heq₃, hreads₃⟩ := expect_crlf_of_ne hne hreads₂
    exact ⟨r₃, heq₃, hreads₃.timely⟩

/-- The rest of a line that tells the length of the content. -/
def contentLine (h : Headers) (r : Reader) : Option Headers × Reader :=
  match readInt r with
  | (none, r) => (none, r)
  | (some left, r) =>
    match expect crlf r with
    | (false, r) => (none, r)
    | (true, r) => (some { h with left }, r)

theorem takeWhile_of_all {value : List (BitVec 8)} (h : value.all isDigit = true) :
    value.takeWhile isDigit = value := by
  rw [List.takeWhile_eq_self_iff]
  exact List.all_eq_true.mp h

/-- What is made of digits, when there are some. -/
def signed (sign : Int32 → Int32) (digits : Option (Bool × Int32) × Reader) :
    Option Int32 × Reader :=
  match digits with
  | (some (true, number), r) => (some (sign number), r)
  | (_, r) => (none, r)

/-- The end of a line behind its digits, with what is made of their number. -/
theorem contentLine_digits (headers : Headers) {value : List (BitVec 8)} {r₀ : Reader}
    (sign : Int32 → Int32) (hcr : 13 ∉ value)
    (hread : ∀ ch r₁, r.timedRead = (some ch, r₁) →
      readInt r₀ = signed sign (readDigits (r₁.size + 1) false 0 ch r₁))
    (h : Reads r (value ++ 13 :: 10 :: text) cs) :
    ∃ r', contentLine headers r₀ =
        ((numeral sign value).map fun left => { headers with left }, r') ∧
      r'.readTimedout = false ∧ ((numeral sign value).isSome → Reads r' text cs) := by
  obtain ⟨ch, tail, r₁, got, r₂, -, hfirst, hdigits, htimely, hend⟩ := readDigits_line hcr h
  have hint := hread ch r₁ hfirst
  rw [hdigits] at hint
  rw [numeral]
  by_cases hnumeral : value ≠ [] ∧ value.all isDigit = true
  · rw [if_pos hnumeral] at hend
    obtain ⟨rfl, hreads⟩ := hend
    rw [takeWhile_of_all hnumeral.2] at hint
    obtain ⟨r₃, heq, hreads₃⟩ := expect_crlf hreads
    rw [if_pos hnumeral]
    refine ⟨r₃, ?_, hreads₃.timely, fun _ => hreads₃⟩
    simp [contentLine, hint, signed, heq]
  · rw [if_neg hnumeral] at hend
    rw [if_neg hnumeral]
    cases got with
    | false =>
      refine ⟨r₂, ?_, htimely, fun hsome => absurd hsome Bool.false_ne_true⟩
      simp [contentLine, hint, signed]
    | true =>
      obtain ⟨r₃, heq, htimely₃⟩ := hend rfl
      refine ⟨r₃, ?_, htimely₃, fun hsome => absurd hsome Bool.false_ne_true⟩
      simp [contentLine, hint, signed, heq]

theorem contentLine_reads (headers : Headers) (line : HeaderLine)
    (h : Reads r (line.field ++ 13 :: 10 :: text) cs) :
    ∃ r', contentLine headers r =
        ((contentLength line).map fun left => { headers with left }, r') ∧
      r'.readTimedout = false ∧ ((contentLength line).isSome → Reads r' text cs) := by
  obtain ⟨r₁, hskip, hreads⟩ := skipSpace_field line h
  have hcr := line.value_cr
  rw [contentLength]
  by_cases hminus : line.value.head? = some 45
  · rw [if_pos hminus]
    obtain ⟨digits, hvalue⟩ := List.head?_eq_some_iff.mp hminus
    rw [hvalue] at hreads hcr
    obtain ⟨r₂, hread₂, hreads₂, -⟩ := hreads.timedRead
    rw [hvalue, List.tail_cons]
    refine contentLine_digits headers _ (fun hmem => hcr (List.mem_cons_of_mem _ hmem)) ?_ hreads₂
    intro ch r₃ hread₃
    rw [readInt, hskip]
    simp only [hread₂, hread₃, if_true]
    rfl
  · rw [if_neg hminus]
    refine contentLine_digits headers _ hcr ?_ hreads
    intro ch r₂ hread₂
    have hch : ch ≠ 45 := by
      cases hvalue : line.value with
      | nil =>
        rw [hvalue] at hreads
        obtain ⟨r', hread', -⟩ := hreads.timedRead
        rw [hread'] at hread₂
        cases hread₂
        decide
      | cons c rest =>
        rw [hvalue] at hreads hminus
        obtain ⟨r', hread', -⟩ := hreads.timedRead
        rw [hread'] at hread₂
        cases hread₂
        exact fun heq => hminus (congrArg some heq)
    rw [readInt, hskip]
    simp only [hread₂, hch, if_false]
    rfl

end Numbers

section Header

/-- A registered header is found for the name. -/
def findable : List (List (BitVec 8)) → List (BitVec 8) → Bool
  | [], _ => false
  | registered :: names, name =>
    match stripPrefix registered name with
    | none => findable names name
    | some [] => true
    | some (c :: rest) => findable names (c :: rest)

theorem isSome_findName (seen nodes : List HeaderNode) (name : List (BitVec 8)) :
    (findName seen nodes name).isSome = findable (nodes.map (·.name)) name := by
  induction nodes generalizing seen name with
  | nil => rfl
  | cons node nodes ih =>
    rw [findName, List.map_cons, findable]
    split
    · exact ih _ _
    · rfl
    · exact ih _ _

theorem append_of_findName {seen nodes seen' rest : List HeaderNode} {node : HeaderNode}
    {name : List (BitVec 8)} (h : findName seen nodes name = some (seen', node, rest)) :
    seen' ++ node :: rest = seen ++ nodes := by
  induction nodes generalizing seen name with
  | nil => cases h
  | cons first nodes ih =>
    rw [findName] at h
    split at h
    · rw [ih h, List.append_assoc, List.singleton_append]
    · cases h
      rfl
    · rw [ih h, List.append_assoc, List.singleton_append]

/-- Values change, names do not. -/
theorem Headers.names_apply {headers headers' : Headers} {line : HeaderLine}
    (h : headers.apply line = some headers') :
    headers'.nodes.map (·.name) = headers.nodes.map (·.name) := by
  rw [Headers.apply] at h
  split at h
  · obtain ⟨left, -, rfl⟩ := Option.map_eq_some_iff.mp h
    rfl
  · split at h
    · cases h
      rfl
    · next seen node nodes hfind =>
      obtain ⟨value, -, rfl⟩ := Option.map_eq_some_iff.mp h
      have hnodes := append_of_findName hfind
      rw [List.nil_append] at hnodes
      rw [← hnodes, List.map_append, List.map_append, List.map_cons, List.map_cons]

/-- The line is one the parser reads alone: an empty value would take the next line as well. -/
def HeaderLine.Alone (names : List (List (BitVec 8))) (line : HeaderLine) : Prop :=
  findable names line.name = true → line.value ≠ []

instance (names : List (List (BitVec 8))) (line : HeaderLine) : Decidable (line.Alone names) :=
  inferInstanceAs (Decidable (findable names line.name = true → line.value ≠ []))

theorem diverges_colon {expected name : List (BitVec 8)} (hexpected : 58 ∉ expected)
    (hname : 58 ∉ name) (h : ¬ Similar name expected) :
    diverges (expected ++ [58]) (name ++ [58]) = true := by
  induction expected generalizing name with
  | nil =>
    cases name with
    | nil => exact absurd rfl h
    | cons c name =>
      rw [List.mem_cons, not_or] at hname
      rw [List.nil_append, List.cons_append, diverges,
        if_neg fun heq => hname.1 ((eq_of_tolower_eq c).1 heq.symm).symm]
  | cons a expected ih =>
    rw [List.mem_cons, not_or] at hexpected
    cases name with
    | nil =>
      rw [List.nil_append, List.cons_append, diverges,
        if_neg fun heq => hexpected.1 ((eq_of_tolower_eq a).1 heq).symm]
    | cons c name =>
      rw [List.mem_cons, not_or] at hname
      rw [List.cons_append, List.cons_append, diverges]
      split
      · next heq => exact ih hexpected.2 hname.2 fun hs => h (similar_cons.mpr ⟨heq.symm, hs⟩)
      · rfl

theorem processHeader_eq (headers : Headers) (r : Reader) : processHeader headers r =
    match expect (bytesOf "Content-Length" ++ [58]) r with
    | (true, r) => contentLine headers r
    | (false, r) =>
      match findHeader [] headers.nodes r with
      | (some (seen, node, nodes), r) =>
        let (value, r) := headerValue node r
        (value.map fun value => { headers with nodes := seen ++ { node with value } :: nodes }, r)
      | (none, r) =>
        match skipLine r with
        | (false, r) => (none, r)
        | (true, r) => (some headers, r) := rfl

theorem processHeader_reads {headers : Headers} (hnodes : ∀ node ∈ headers.nodes, node.Named)
    {line : HeaderLine} (halone : line.Alone (headers.nodes.map (·.name)))
    (h : Reads r (line.text ++ text) cs) :
    ∃ r', processHeader headers r = (headers.apply line, r') ∧ r'.readTimedout = false ∧
      ((headers.apply line).isSome → Reads r' text cs) := by
  have hline : Reads r (line.name ++ [58] ++ (line.field ++ 13 :: 10 :: text)) cs := by
    have htext : line.text ++ text = line.name ++ [58] ++ (line.field ++ 13 :: 10 :: text) := by
      simp [HeaderLine.text, crlf]
    rwa [htext] at h
  rw [processHeader_eq, Headers.apply]
  by_cases hlength : Similar line.name (bytesOf "Content-Length")
  · obtain ⟨r₁, heq, hreads⟩ := expect_similar (hlength.append (.refl [58])) hline
    rw [if_pos hlength, heq, Option.isSome_map]
    exact contentLine_reads headers line hreads
  · have hdiverges := diverges_colon (by decide) line.name_colon hlength
    rw [List.append_assoc] at hline
    obtain ⟨r₁, s, heq, hs, hreads⟩ := expect_name_diverges (.refl _) hdiverges (by decide) hline
    obtain ⟨r₂, hfind, hleft⟩ := @findHeader_reads _ _ _ [] _ hnodes _ _ hs line.name_colon
      line.name_cr hreads
    rw [if_neg hlength, heq]
    simp only [hfind]
    cases hname : findName [] headers.nodes line.name with
    | none =>
      rw [hname] at hleft
      obtain ⟨p, hp, hreads₂⟩ := hleft
      have hskip : Reads r₂ (p ++ 58 :: line.field ++ 13 :: 10 :: text) cs := by
        simpa using hreads₂
      have hcr : 13 ∉ p ++ 58 :: line.field := by
        rw [List.mem_append, List.mem_cons, not_or, not_or]
        exact ⟨hp, by decide, line.field_cr⟩
      obtain ⟨r₃, heq₃, hreads₃⟩ := skipLine_reads hcr hskip
      refine ⟨r₃, ?_, hreads₃.timely, fun _ => hreads₃⟩
      simp only [heq₃]
    | some found =>
      obtain ⟨seen, node, nodes⟩ := found
      rw [hname] at hleft
      have hfindable : findable (headers.nodes.map (·.name)) line.name = true := by
        rw [← isSome_findName [], hname]
        rfl
      obtain ⟨r₃, heq₃, hreads₃⟩ := @headerValue_reads _ _ _ node _ (halone hfindable) hleft
      refine ⟨r₃, ?_, hreads₃.timely, fun _ => hreads₃⟩
      simp only [heq₃]

end Header

section Headers

theorem HeaderLine.exists_text_eq (line : HeaderLine) : ∃ c rest, line.text = c :: rest ∧ c ≠ 13 := by
  cases hname : line.name with
  | nil => exact ⟨58, line.field ++ crlf, by rw [HeaderLine.text, hname]; rfl, by decide⟩
  | cons c name =>
    refine ⟨c, name ++ 58 :: line.field ++ crlf, by rw [HeaderLine.text, hname]; rfl, ?_⟩
    rintro rfl
    exact line.name_cr (hname ▸ List.mem_cons_self)

theorem Headers.named_apply {headers headers' : Headers} {line : HeaderLine}
    (h : headers.apply line = some headers') (hnodes : ∀ node ∈ headers.nodes, node.Named) :
    ∀ node ∈ headers'.nodes, node.Named := by
  intro node hnode
  have hname : node.name ∈ headers.nodes.map (·.name) :=
    names_apply h ▸ List.mem_map_of_mem hnode
  obtain ⟨node', hnode', heq⟩ := List.mem_map.mp hname
  have hnamed := hnodes node' hnode'
  rw [HeaderNode.Named, heq] at hnamed
  exact hnamed

theorem processHeadersLoop_reads {lines : List HeaderLine} {headers : Headers}
    (hnodes : ∀ node ∈ headers.nodes, node.Named)
    (halone : ∀ line ∈ lines, line.Alone (headers.nodes.map (·.name))) {fuel : Nat}
    (hfuel : lines.length < fuel)
    (h : Reads r (lines.flatMap HeaderLine.text ++ 13 :: 10 :: text) cs) :
    ∃ r', processHeadersLoop fuel headers r = (lines.foldlM Headers.apply headers, r') ∧
      r'.readTimedout = false ∧ ((lines.foldlM Headers.apply headers).isSome → Reads r' text cs) := by
  induction fuel generalizing lines headers r with
  | zero => exact absurd hfuel (Nat.not_lt_zero _)
  | succ fuel ih =>
    cases lines with
    | nil =>
      obtain ⟨r₁, heq, hreads⟩ := expect_crlf h
      rw [processHeadersLoop, heq]
      exact ⟨r₁, rfl, hreads.timely, fun _ => hreads⟩
    | cons line lines =>
      obtain ⟨c, rest, htext, hc⟩ := line.exists_text_eq
      rw [List.flatMap_cons, List.append_assoc, htext] at h
      obtain ⟨r₁, heq₁, hreads₁⟩ := expect_crlf_of_ne hc h
      have hline : Reads r₁ (line.text ++
          (lines.flatMap HeaderLine.text ++ 13 :: 10 :: text)) cs := by
        rw [htext]
        exact hreads₁
      obtain ⟨r₂, heq₂, htimely₂, hreads₂⟩ :=
        processHeader_reads hnodes (halone line List.mem_cons_self) hline
      rw [processHeadersLoop, heq₁]
      simp only [heq₂, List.foldlM_cons]
      cases happly : headers.apply line with
      | none => exact ⟨r₂, rfl, htimely₂, fun hsome => absurd hsome Bool.false_ne_true⟩
      | some headers' =>
        rw [happly] at hreads₂
        have halone' : ∀ l ∈ lines, l.Alone (headers'.nodes.map (·.name)) := by
          rw [Headers.names_apply happly]
          exact fun l hl => halone l (List.mem_cons_of_mem _ hl)
        exact ih (Headers.named_apply happly hnodes) halone' (Nat.lt_of_succ_lt_succ hfuel)
          (hreads₂ rfl)

theorem length_le_flatMap_text (lines : List HeaderLine) :
    lines.length ≤ (lines.flatMap HeaderLine.text).length := by
  induction lines with
  | nil => exact Nat.le_refl _
  | cons line lines ih =>
    rw [List.flatMap_cons, List.length_append, List.length_cons, HeaderLine.text,
      List.length_append]
    simp only [crlf, List.length_cons]
    omega

theorem processHeaders_reads {lines : List HeaderLine} {headers : Headers}
    (hnodes : ∀ node ∈ headers.nodes, node.Named)
    (halone : ∀ line ∈ lines, line.Alone (headers.nodes.map (·.name)))
    (h : Reads r (lines.flatMap HeaderLine.text ++ 13 :: 10 :: text) cs) :
    ∃ r', processHeaders headers r = (lines.foldlM Headers.apply headers, r') ∧
      r'.readTimedout = false ∧ ((lines.foldlM Headers.apply headers).isSome → Reads r' text cs) := by
  refine processHeadersLoop_reads hnodes halone ?_ h
  have hlines := length_le_flatMap_text lines
  rw [h.size_eq, List.length_append]
  omega

end Headers

end Lucidac.Web
