import Mathlib.Data.List.TakeWhile
import Mathlib.Data.Char

/-!
# JSON texts

What a text says as a JSON document.  A text is a list of characters; the reader is a recursive
descent over the grammar with an explicit fuel, and a text denotes a value when some fuel suffices.
Numbers are kept as they are written.
-/

namespace Framework.JsonText

inductive JsonTree where
  | null
  | bool (value : Bool)
  | number (literal : List Char)
  | string (content : List Char)
  | array (elements : List JsonTree)
  | object (members : List (List Char × JsonTree))

/-- Induction over the values inside a value. -/
@[elab_as_elim]
theorem JsonTree.induction {motive : JsonTree → Prop} (null : motive .null)
    (bool : ∀ value, motive (.bool value)) (number : ∀ literal, motive (.number literal))
    (string : ∀ content, motive (.string content))
    (array : ∀ elements, (∀ e ∈ elements, motive e) → motive (.array elements))
    (object : ∀ members, (∀ m ∈ members, motive m.2) → motive (.object members)) (t : JsonTree) :
    motive t := by
  induction hn : sizeOf t using Nat.strong_induction_on generalizing t with
  | _ n ih =>
    subst hn
    cases t with
    | null => exact null
    | bool value => exact bool value
    | number literal => exact number literal
    | string content => exact string content
    | array elements =>
      apply array
      intro e he
      have hlt := List.sizeOf_lt_of_mem he
      exact ih (sizeOf e) (by simp; omega) e rfl
    | object members =>
      apply object
      rintro ⟨key, value⟩ hm
      have hlt := List.sizeOf_lt_of_mem hm
      simp only [Prod.mk.sizeOf_spec] at hlt
      exact ih (sizeOf value) (by simp; omega) value rfl

def isBlank (c : Char) : Bool := c == ' ' || c == '\t' || c == '\n' || c == '\r'

def skipSpace (text : List Char) : List Char := text.dropWhile isBlank

/-! ## Strings -/

/-- The characters that cannot stand for themselves in a string. -/
def isSpecial (c : Char) : Bool := c == '"' || c == '\\' || c.toNat < 0x20

def Plain (content : List Char) : Prop := ∀ c ∈ content, isSpecial c = false

-- Named, as `Char` is finite and the search may decide over all characters.
instance (content : List Char) : Decidable (Plain content) :=
  List.decidableBAll (fun c => isSpecial c = false) content

/-- Where the reader is within a string.  The first half of a surrogate pair is kept until the
second is complete. -/
inductive LexState where
  | text
  | escape
  | hex (digits value : Nat) (high : Option Nat)
  | lowSlash (high : Nat)
  | lowU (high : Nat)
deriving DecidableEq

def hexValue (c : Char) : Option Nat :=
  if '0' ≤ c ∧ c ≤ '9' then some (c.toNat - '0'.toNat)
  else if 'a' ≤ c ∧ c ≤ 'f' then some (c.toNat - 'a'.toNat + 10)
  else if 'A' ≤ c ∧ c ≤ 'F' then some (c.toNat - 'A'.toNat + 10)
  else none

def escapeValue (c : Char) : Option Char :=
  if c = '"' ∨ c = '\\' ∨ c = '/' then some c
  else if c = 'b' then some '\x08'
  else if c = 'f' then some '\x0c'
  else if c = 'n' then some '\n'
  else if c = 'r' then some '\r'
  else if c = 't' then some '\t'
  else none

/-- A complete code unit, after the first half of a pair or not. -/
def codeUnit : Option Nat → Nat → Option (List Char × LexState)
  | none, unit =>
    if 0xD800 ≤ unit ∧ unit < 0xDC00 then some ([], .lowSlash unit)
    else if 0xDC00 ≤ unit ∧ unit < 0xE000 then none
    else some ([Char.ofNat unit], .text)
  | some high, unit =>
    if 0xDC00 ≤ unit ∧ unit < 0xE000 then
      some ([Char.ofNat (0x10000 + (high - 0xD800) * 0x400 + (unit - 0xDC00))], .text)
    else none

/-- One character within an escape sequence. -/
def escapeStep : LexState → Char → Option (List Char × LexState)
  | .text, _ => none
  | .escape, c =>
    if c = 'u' then some ([], .hex 3 0 none) else (escapeValue c).map fun d => ([d], .text)
  | .hex digits value high, c =>
    (hexValue c).bind fun d =>
      match digits with
      | 0 => codeUnit high (16 * value + d)
      | digits + 1 => some ([], .hex digits (16 * value + d) high)
  | .lowSlash high, c => if c = '\\' then some ([], .lowU high) else none
  | .lowU high, c => if c = 'u' then some ([], .hex 3 0 (some high)) else none

/-- The content of a string up to its closing quote, and what follows. -/
def lexString : LexState → List Char → Option (List Char × List Char)
  | _, [] => none
  | .text, c :: rest =>
    if c = '"' then some ([], rest)
    else if c = '\\' then lexString .escape rest
    else if c.toNat < 0x20 then none
    else (lexString .text rest).map fun x => (c :: x.1, x.2)
  | state, c :: rest =>
    (escapeStep state c).bind fun y => (lexString y.2 rest).map fun x => (y.1 ++ x.1, x.2)

section Strings

variable {state next : LexState} {c : Char} {out raw rest more : List Char}

theorem lexString_cons_escape (h : state ≠ .text) :
    lexString state (c :: rest) =
      (escapeStep state c).bind fun y => (lexString y.2 rest).map fun x => (y.1 ++ x.1, x.2) := by
  cases state with
  | text => exact absurd rfl h
  | escape => rfl
  | hex digits value high => rfl
  | lowSlash high => rfl
  | lowU high => rfl

theorem lexString_cons_plain (h : isSpecial c = false) :
    lexString .text (c :: rest) = (lexString .text rest).map fun x => (c :: x.1, x.2) := by
  simp only [isSpecial, Bool.or_eq_false_iff, beq_eq_false_iff_ne, decide_eq_false_iff_not] at h
  rw [lexString, if_neg h.1.1, if_neg h.1.2, if_neg h.2]

theorem lexString_plain (h : Plain raw) :
    lexString .text (raw ++ '"' :: rest) = some (raw, rest) := by
  induction raw with
  | nil => rfl
  | cons c raw ih =>
    have hc : isSpecial c = false := h c (by simp)
    have hraw : Plain raw := fun d hd => h d (by simp [hd])
    rw [List.cons_append, lexString_cons_plain hc, ih hraw]
    rfl

theorem codeUnit_out {high : Option Nat} {unit : Nat} (h : codeUnit high unit = some (out, next)) :
    (next = .text ∧ out.length = 1) ∨ (next ≠ .text ∧ out = []) := by
  cases high with
  | none =>
    simp only [codeUnit] at h
    split at h
    · cases h
      exact .inr ⟨by simp, rfl⟩
    · split at h
      · cases h
      · cases h
        exact .inl ⟨rfl, rfl⟩
  | some high =>
    simp only [codeUnit] at h
    split at h
    · cases h
      exact .inl ⟨rfl, rfl⟩
    · cases h

/-- An escape sequence gives one character, with its last one. -/
theorem escapeStep_out (h : escapeStep state c = some (out, next)) :
    (next = .text ∧ out.length = 1) ∨ (next ≠ .text ∧ out = []) := by
  cases state with
  | text => cases h
  | escape =>
    simp only [escapeStep] at h
    split at h
    · cases h
      exact .inr ⟨by simp, rfl⟩
    · obtain ⟨d, -, hd⟩ := Option.map_eq_some_iff.mp h
      cases hd
      exact .inl ⟨rfl, rfl⟩
  | hex digits value high =>
    obtain ⟨d, -, hd⟩ := Option.bind_eq_some_iff.mp h
    cases digits with
    | zero => exact codeUnit_out hd
    | succ digits =>
      cases hd
      exact .inr ⟨by simp, rfl⟩
  | lowSlash high =>
    simp only [escapeStep] at h
    split at h
    · cases h
      exact .inr ⟨by simp, rfl⟩
    · cases h
  | lowU high =>
    simp only [escapeStep] at h
    split at h
    · cases h
      exact .inr ⟨by simp, rfl⟩
    · cases h

/-- Only a backslash right before it takes a quote into the string. -/
theorem escapeStep_quote (h : state ≠ .text) :
    escapeStep state '"' = none ∨ escapeStep state '"' = some (['"'], .text) := by
  cases state with
  | text => exact absurd rfl h
  | escape => exact .inr rfl
  | hex digits value high => exact .inl rfl
  | lowSlash high => exact .inl rfl
  | lowU high => exact .inl rfl

/-- What can become of characters that are put between quotes as they are.  Either the string ends
at the first quote that counts, with fewer characters, or the quote at the end is taken into it. -/
inductive Misread (rest : List Char) (length : Nat) : Option (List Char × List Char) → Prop where
  | refused : Misread rest length none
  | short (content left : List Char) (h : content.length < length) :
      Misread rest length (some (content, left))
  | extended (content : List Char) :
      Misread rest length ((lexString .text rest).map fun x => (content ++ x.1, x.2))

theorem Misread.map_append {length length' : Nat} {result : Option (List Char × List Char)}
    (out : List Char) (h : Misread rest length result) (hout : out.length + length ≤ length') :
    Misread rest length' (result.map fun x => (out ++ x.1, x.2)) := by
  cases h with
  | refused => exact .refused
  | short content left h =>
    apply Misread.short
    rw [List.length_append]
    simp only
    omega
  | extended content =>
    have heq : ((lexString .text rest).map fun x => (content ++ x.1, x.2)).map
          (fun x => (out ++ x.1, x.2)) =
        (lexString .text rest).map fun x => ((out ++ content) ++ x.1, x.2) := by
      simp [Option.map_map, Function.comp_def]
    rw [heq]
    exact .extended _

/-- Characters of the escape sequence that have not given out anything yet. -/
def LexState.pending : LexState → Nat
  | .text => 0
  | _ => 1

theorem LexState.pending_of_ne (h : state ≠ .text) : state.pending = 1 := by
  cases state with
  | text => exact absurd rfl h
  | _ => rfl

theorem misread_of_not_plain (h : state ≠ .text ∨ ¬ Plain raw) :
    Misread rest (raw.length + state.pending) (lexString state (raw ++ '"' :: rest)) := by
  induction raw generalizing state with
  | nil =>
    have hstate : state ≠ .text := by
      rcases h with h | h
      · exact h
      · exact absurd (fun c hc => absurd hc (by simp)) h
    rw [List.nil_append, lexString_cons_escape hstate]
    rcases escapeStep_quote hstate with hnone | hsome
    · rw [hnone]
      exact .refused
    · rw [hsome]
      exact .extended ['"']
  | cons c raw ih =>
    rw [List.cons_append, List.length_cons]
    by_cases hstate : state = .text
    · subst hstate
      by_cases hc : isSpecial c = false
      · have hraw : ¬ Plain raw := by
          intro hplain
          rcases h with h | h
          · exact h rfl
          · exact h (fun d hd => (List.mem_cons.mp hd).elim (fun he => he ▸ hc) (hplain d))
        have htext : Misread rest (raw.length + LexState.text.pending)
            (lexString .text (raw ++ '"' :: rest)) := ih (.inr hraw)
        rw [lexString_cons_plain hc]
        apply htext.map_append [c]
        rw [LexState.pending, List.length_singleton]
        omega
      · rw [lexString]
        split_ifs with hq hb hctl
        · exact .short _ _ (Nat.succ_pos _)
        · have hescape : LexState.escape ≠ .text := by simp
          exact ih (.inl hescape)
        · exact .refused
        · simp [isSpecial, hq, hb, hctl] at hc
    · rw [lexString_cons_escape hstate, LexState.pending_of_ne hstate]
      cases hstep : escapeStep state c with
      | none => exact .refused
      | some y =>
        obtain ⟨out, next⟩ := y
        rcases escapeStep_out hstep with ⟨rfl, hout⟩ | ⟨hnext, rfl⟩
        · by_cases hraw : Plain raw
          · simp only [Option.bind_some, lexString_plain hraw, Option.map_some]
            apply Misread.short
            rw [List.length_append, hout]
            omega
          · apply (ih (.inr hraw)).map_append out
            rw [hout, LexState.pending]
            omega
        · apply (ih (.inl hnext)).map_append []
          rw [LexState.pending_of_ne hnext, List.length_nil]
          omega

theorem lexString_append {content : List Char} {text : List Char}
    (h : lexString state text = some (content, rest)) :
    lexString state (text ++ more) = some (content, rest ++ more) := by
  induction text generalizing state content with
  | nil => cases state <;> cases h
  | cons c text ih =>
    rw [List.cons_append]
    by_cases hstate : state = .text
    · subst hstate
      simp only [lexString] at h ⊢
      split
      · next hq =>
        rw [if_pos hq] at h
        cases h
        rfl
      · next hq =>
        rw [if_neg hq] at h
        split
        · next hb =>
          rw [if_pos hb] at h
          exact ih h
        · next hb =>
          rw [if_neg hb] at h
          split
          · next hctl =>
            rw [if_pos hctl] at h
            cases h
          · next hctl =>
            rw [if_neg hctl] at h
            obtain ⟨x, hx, heq⟩ := Option.map_eq_some_iff.mp h
            cases heq
            rw [ih hx]
            rfl
    · rw [lexString_cons_escape hstate] at h ⊢
      obtain ⟨y, hy, h⟩ := Option.bind_eq_some_iff.mp h
      obtain ⟨x, hx, heq⟩ := Option.map_eq_some_iff.mp h
      cases heq
      rw [hy, Option.bind_some, ih hx]
      rfl

end Strings

/-! ## Numbers -/

inductive NumberState where
  | start | minus | zero | whole | dot | fraction | exponent | sign | power
deriving DecidableEq

namespace NumberState

def step (state : NumberState) (c : Char) : Option NumberState :=
  match state with
  | start =>
    if c = '-' then some minus else if c = '0' then some zero
    else if c.isDigit then some whole else none
  | minus => if c = '0' then some zero else if c.isDigit then some whole else none
  | zero => if c = '.' then some dot else if c = 'e' ∨ c = 'E' then some exponent else none
  | whole =>
    if c.isDigit then some whole else if c = '.' then some dot
    else if c = 'e' ∨ c = 'E' then some exponent else none
  | dot => if c.isDigit then some fraction else none
  | fraction =>
    if c.isDigit then some fraction else if c = 'e' ∨ c = 'E' then some exponent else none
  | exponent => if c = '+' ∨ c = '-' then some sign else if c.isDigit then some power else none
  | sign => if c.isDigit then some power else none
  | power => if c.isDigit then some power else none

def accepts : NumberState → Bool
  | zero | whole | fraction | power => true
  | start | minus | dot | exponent | sign => false

def runs : NumberState → List Char → Bool
  | state, [] => state.accepts
  | state, c :: rest => match state.step c with
    | some next => next.runs rest
    | none => false

end NumberState

/-- A number as the grammar has it. -/
def isNumeral (literal : List Char) : Bool := NumberState.start.runs literal

def isNumberChar (c : Char) : Bool :=
  c.isDigit || c == '-' || c == '+' || c == '.' || c == 'e' || c == 'E'

def parseNumber (text : List Char) : Option (JsonTree × List Char) :=
  if isNumeral (text.takeWhile isNumberChar) then
    some (.number (text.takeWhile isNumberChar), text.dropWhile isNumberChar)
  else none

/-! ## Values -/

def parseScalar : List Char → Option (JsonTree × List Char)
  | '"' :: rest => (lexString .text rest).map fun x => (.string x.1, x.2)
  | 'n' :: 'u' :: 'l' :: 'l' :: rest => some (.null, rest)
  | 't' :: 'r' :: 'u' :: 'e' :: rest => some (.bool true, rest)
  | 'f' :: 'a' :: 'l' :: 's' :: 'e' :: rest => some (.bool false, rest)
  | text => parseNumber text

section Containers

variable {α : Type} (item : List Char → Option (α × List Char)) (close : Char)

/-- Items separated by commas, up to the closing bracket. -/
def parseItems : Nat → List Char → Option (List α × List Char)
  | 0, _ => none
  | fuel + 1, text => (item text).bind fun x =>
    match skipSpace x.2 with
    | [] => none
    | c :: rest =>
      if c = ',' then (parseItems fuel rest).map fun y => (x.1 :: y.1, y.2)
      else if c = close then some ([x.1], rest)
      else none

def parseList (fuel : Nat) (text : List Char) : Option (List α × List Char) :=
  match skipSpace text with
  | [] => none
  | c :: rest => if c = close then some ([], rest) else parseItems item close fuel text

end Containers

def parseMember (value : List Char → Option (JsonTree × List Char)) (text : List Char) :
    Option ((List Char × JsonTree) × List Char) :=
  match skipSpace text with
  | '"' :: rest => (lexString .text rest).bind fun key =>
    match skipSpace key.2 with
    | ':' :: rest => (value rest).map fun x => ((key.1, x.1), x.2)
    | _ => none
  | _ => none

def parseValue : Nat → List Char → Option (JsonTree × List Char)
  | 0, _ => none
  | fuel + 1, text =>
    match skipSpace text with
    | '[' :: rest =>
      (parseList (parseValue fuel) ']' fuel rest).map fun x => (.array x.1, x.2)
    | '{' :: rest =>
      (parseList (parseMember (parseValue fuel)) '}' fuel rest).map fun x => (.object x.1, x.2)
    | text => parseScalar text

/-- The text is this value, with nothing but white space around it. -/
def Denotes (text : List Char) (value : JsonTree) : Prop :=
  ∃ fuel rest, parseValue fuel text = some (value, rest) ∧ skipSpace rest = []

section Space

variable {text rest more : List Char} {c : Char}

theorem skipSpace_cons (h : isBlank c = false) : skipSpace (c :: rest) = c :: rest := by
  simp [skipSpace, h]

theorem skipSpace_append_of_cons (h : skipSpace text = c :: rest) :
    skipSpace (text ++ more) = c :: (rest ++ more) := by
  rw [skipSpace] at h ⊢
  rw [List.dropWhile_append, h]
  simp

theorem skipSpace_append_of_nil (h : skipSpace text = []) :
    skipSpace (text ++ more) = skipSpace more := by
  rw [skipSpace] at h ⊢
  rw [List.dropWhile_append, h]
  rfl

end Space

section Numbers

variable {text rest more literal : List Char} {c : Char} {value : JsonTree}

/-- Nothing that would prolong a number. -/
def Delimited (more : List Char) : Prop := ∀ c ∈ more.head?, isNumberChar c = false

theorem delimited_nil : Delimited [] := by simp [Delimited]

theorem delimited_cons (h : isNumberChar c = false) : Delimited (c :: rest) := by
  intro d hd
  cases Option.mem_some.mp hd
  exact h

theorem NumberState.isNumberChar_of_step {state next : NumberState} (h : state.step c = some next) :
    isNumberChar c = true := by
  simp only [isNumberChar, Bool.or_eq_true, beq_iff_eq]
  have hzero : c = '0' → c.isDigit = true := fun h => h ▸ rfl
  cases state <;> simp only [step] at h <;> grind

theorem NumberState.isNumberChar_of_runs {state : NumberState} (h : state.runs literal = true) :
    ∀ c ∈ literal, isNumberChar c = true := by
  induction literal generalizing state with
  | nil => simp
  | cons c literal ih =>
    rw [runs] at h
    split at h
    · next next hstep =>
      rw [List.forall_mem_cons]
      exact ⟨isNumberChar_of_step hstep, ih h⟩
    · cases h

theorem isNumberChar_of_isNumeral (h : isNumeral literal = true) :
    ∀ c ∈ literal, isNumberChar c = true :=
  NumberState.isNumberChar_of_runs h

/-- A number starts with a digit or a minus sign. -/
theorem isNumeral_cons (h : isNumeral literal = true) :
    ∃ c rest, literal = c :: rest ∧ (c = '-' ∨ c.isDigit = true) := by
  cases literal with
  | nil => cases h
  | cons c rest =>
    refine ⟨c, rest, rfl, ?_⟩
    rw [isNumeral, NumberState.runs] at h
    split at h
    · next next hstep =>
      simp only [NumberState.step] at hstep
      split_ifs at hstep with h1 h2 h3
      · exact .inl h1
      · exact .inr (h2 ▸ rfl)
      · exact .inr h3
    · cases h

theorem NumberState.runs_fraction (hdigits : ∀ c ∈ literal, c.isDigit = true) :
    fraction.runs literal = true := by
  induction literal with
  | nil => rfl
  | cons c literal ih =>
    rw [List.forall_mem_cons] at hdigits
    simp only [runs, step, hdigits.1, if_true]
    exact ih hdigits.2

theorem isDigit_ne {d : Char} (hc : c.isDigit = true) (hd : d.isDigit = false) : c ≠ d := by
  rintro rfl
  rw [hc] at hd
  cases hd

theorem isNumeral_fixed {d : Char} (hc : c.isDigit = true) (hd : d.isDigit = true)
    (hdigits : ∀ x ∈ literal, x.isDigit = true) : isNumeral (c :: '.' :: d :: literal) = true := by
  have hminus : c ≠ '-' := isDigit_ne hc rfl
  have hpoint : ('.' : Char).isDigit = false := rfl
  by_cases hzero : c = '0'
  · simp [isNumeral, NumberState.runs, NumberState.step, hzero, hd,
      NumberState.runs_fraction hdigits]
  · simp [isNumeral, NumberState.runs, NumberState.step, hminus, hzero, hc, hd, hpoint,
      NumberState.runs_fraction hdigits]

theorem isNumeral_minus_fixed {d : Char} (hc : c.isDigit = true) (hd : d.isDigit = true)
    (hdigits : ∀ x ∈ literal, x.isDigit = true) :
    isNumeral ('-' :: c :: '.' :: d :: literal) = true := by
  have hpoint : ('.' : Char).isDigit = false := rfl
  by_cases hzero : c = '0'
  · simp [isNumeral, NumberState.runs, NumberState.step, hzero, hd,
      NumberState.runs_fraction hdigits]
  · simp [isNumeral, NumberState.runs, NumberState.step, hzero, hc, hd, hpoint,
      NumberState.runs_fraction hdigits]

theorem parseNumber_append (h : parseNumber text = some (value, rest)) (hmore : Delimited more) :
    parseNumber (text ++ more) = some (value, rest ++ more) := by
  have htake : more.takeWhile isNumberChar = [] := by
    cases more with
    | nil => rfl
    | cons c more => simp [hmore c rfl]
  have hdrop : more.dropWhile isNumberChar = more := by
    cases more with
    | nil => rfl
    | cons c more => simp [hmore c rfl]
  have htakes : (text ++ more).takeWhile isNumberChar = text.takeWhile isNumberChar := by
    rw [List.takeWhile_append, htake]
    split
    · next hall => rw [List.append_nil, (List.takeWhile_prefix _).eq_of_length hall]
    · rfl
  have hdrops : (text ++ more).dropWhile isNumberChar = text.dropWhile isNumberChar ++ more := by
    rw [List.dropWhile_append, hdrop]
    split
    · next hnil => rw [List.isEmpty_iff.mp hnil, List.nil_append]
    · rfl
  rw [parseNumber] at h ⊢
  rw [htakes, hdrops]
  split at h
  · next hnumber =>
    cases h
    rw [if_pos hnumber]
  · cases h

theorem parseNumber_isNumeral (h : isNumeral literal = true) (hmore : Delimited more) :
    parseNumber (literal ++ more) = some (.number literal, more) := by
  have hall := isNumberChar_of_isNumeral h
  have htake : literal.takeWhile isNumberChar = literal := List.takeWhile_eq_self_iff.mpr hall
  have hdrop : literal.dropWhile isNumberChar = [] := List.dropWhile_eq_nil_iff.mpr hall
  have halone : parseNumber literal = some (.number literal, []) := by
    rw [parseNumber, htake, hdrop, if_pos h]
  simpa using parseNumber_append halone hmore

theorem parseNumber_cons (h : parseNumber text = some (value, rest)) :
    ∃ c tail, text = c :: tail ∧ (c = '-' ∨ c.isDigit = true) := by
  rw [parseNumber] at h
  split at h
  · next hnumber =>
    obtain ⟨c, tail, htake, hc⟩ := isNumeral_cons hnumber
    cases text with
    | nil => cases htake
    | cons d text =>
      rw [List.takeWhile_cons] at htake
      split at htake
      · cases htake
        exact ⟨c, text, rfl, hc⟩
      · cases htake
  · cases h

theorem parseScalar_number (h : c = '-' ∨ c.isDigit = true) :
    parseScalar (c :: rest) = parseNumber (c :: rest) := by
  have hne : c ≠ '"' ∧ c ≠ 'n' ∧ c ≠ 't' ∧ c ≠ 'f' := by
    refine ⟨?_, ?_, ?_, ?_⟩ <;> rintro rfl <;> revert h <;> decide
  rw [parseScalar]
  · rintro _ ⟨rfl, -⟩
    exact hne.1 rfl
  · rintro _ ⟨rfl, -⟩
    exact hne.2.1 rfl
  · rintro _ ⟨rfl, -⟩
    exact hne.2.2.1 rfl
  · rintro _ ⟨rfl, -⟩
    exact hne.2.2.2 rfl

theorem parseScalar_append (h : parseScalar text = some (value, rest)) (hmore : Delimited more) :
    parseScalar (text ++ more) = some (value, rest ++ more) := by
  unfold parseScalar at h
  split at h
  · obtain ⟨x, hx, heq⟩ := Option.map_eq_some_iff.mp h
    cases heq
    simp only [List.cons_append, parseScalar, lexString_append hx, Option.map_some]
  · cases h
    rfl
  · cases h
    rfl
  · cases h
    rfl
  · obtain ⟨c, tail, rfl, hc⟩ := parseNumber_cons h
    rw [List.cons_append, parseScalar_number hc]
    exact parseNumber_append h hmore

end Numbers

end Framework.JsonText
