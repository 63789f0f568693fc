import Lucidac.Framework.JsonRules

/-!
# Writing JSON texts

A serialiser that escapes what cannot stand for itself in a string, and integers in decimal
notation.
-/

namespace Framework.JsonText

/-! ## Strings with escape sequences -/

def escapeChar (c : Char) : List Char :=
  if c = '"' ∨ c = '\\' then ['\\', c]
  else if c.toNat < 0x20 then
    ['\\', 'u', '0', '0', Nat.digitChar (c.toNat / 16), Nat.digitChar (c.toNat % 16)]
  else [c]

def escapeText (content : List Char) : List Char := content.flatMap escapeChar

def quoted (content : List Char) : List Char := '"' :: (escapeText content ++ ['"'])

theorem hexValue_digitChar {d : Nat} (h : d < 16) : hexValue (Nat.digitChar d) = some d := by
  revert h
  revert d
  decide

theorem lexString_escapeChar (c : Char) (rest : List Char) :
    lexString .text (escapeChar c ++ rest) =
      (lexString .text rest).map fun x => (c :: x.1, x.2) := by
  unfold escapeChar
  split
  · next h =>
    rcases h with rfl | rfl <;> rfl
  · next h =>
    split
    · next hctl =>
      have hhigh := hexValue_digitChar (show c.toNat / 16 < 16 by omega)
      have hlow := hexValue_digitChar (show c.toNat % 16 < 16 by omega)
      have hzero : hexValue '0' = some 0 := rfl
      have hunit : 16 * (c.toNat / 16) + c.toNat % 16 = c.toNat := by omega
      have hrange : ¬ (55296 ≤ c.toNat ∧ c.toNat < 56320) ∧
          ¬ (56320 ≤ c.toNat ∧ c.toNat < 57344) := by omega
      simp [lexString, escapeStep, hhigh, hlow, hzero, hunit, codeUnit, hrange.1, hrange.2,
        Function.comp_def]
    · next hctl =>
      have hplain : isSpecial c = false := by
        rw [not_or] at h
        simp [isSpecial, h, hctl]
      rw [List.singleton_append, lexString_cons_plain hplain]

/-- Whatever the content is, it is read back. -/
theorem lexString_escapeText (content rest : List Char) :
    lexString .text (escapeText content ++ '"' :: rest) = some (content, rest) := by
  induction content with
  | nil => rfl
  | cons c content ih =>
    rw [escapeText, List.flatMap_cons, List.append_assoc, lexString_escapeChar, ← escapeText, ih]
    rfl

theorem denotes_quoted (content : List Char) : Denotes (quoted content) (.string content) := by
  refine ⟨1, [], ?_, rfl⟩
  rw [quoted, parseValue_scalar (skipSpace_cons rfl) (by decide)]
  simp only [parseScalar, lexString_escapeText, Option.map_some]

/-! ## Integers -/

theorem isDigit_digitChar {d : Nat} (h : d < 10) : (Nat.digitChar d).isDigit = true := by
  revert h
  revert d
  decide

theorem digitChar_ne {d : Nat} (h : d < 10) (hd : 0 < d) : Nat.digitChar d ≠ '0' := by
  have hall : ∀ d < 10, 0 < d → Nat.digitChar d ≠ '0' := by decide
  exact hall d h hd

theorem NumberState.runs_append_digit {state : NumberState} {literal : List Char} {c : Char}
    (hc : c.isDigit = true) (hwhole : ∀ rest, state.runs (literal ++ rest) = whole.runs rest) :
    ∀ rest, state.runs (literal ++ [c] ++ rest) = whole.runs rest := by
  intro rest
  rw [List.append_assoc, hwhole]
  simp [runs, step, hc]

/-- The digits of a positive number lead into the whole part. -/
theorem NumberState.runs_toDigits {n : Nat} (hn : 0 < n) {state : NumberState}
    (hstate : state = start ∨ state = minus) (rest : List Char) :
    state.runs (Nat.toDigits 10 n ++ rest) = whole.runs rest := by
  induction n using Nat.strong_induction_on generalizing rest with
  | _ n ih =>
    by_cases hlt : n < 10
    · rw [Nat.toDigits_of_lt_base hlt]
      have hdigit := isDigit_digitChar hlt
      have hminus : Nat.digitChar n ≠ '-' := isDigit_ne hdigit rfl
      rcases hstate with rfl | rfl <;> simp [runs, step, hdigit, digitChar_ne hlt hn, hminus]
    · have hdigit := isDigit_digitChar (Nat.mod_lt n (show 0 < 10 by decide))
      rw [Nat.toDigits_of_base_le (by decide) (by omega)]
      exact NumberState.runs_append_digit hdigit (ih (n / 10) (by omega) (by omega)) rest

theorem isNumeral_toDigits (n : Nat) : isNumeral (Nat.toDigits 10 n) = true := by
  rcases Nat.eq_zero_or_pos n with rfl | hn
  · rfl
  · have h := NumberState.runs_toDigits hn (.inl rfl) []
    rw [List.append_nil] at h
    exact h

/-- An integer in decimal notation. -/
def intText : Int → List Char
  | .ofNat n => Nat.toDigits 10 n
  | .negSucc n => '-' :: Nat.toDigits 10 (n + 1)

theorem isNumeral_intText (z : Int) : isNumeral (intText z) = true := by
  cases z with
  | ofNat n => exact isNumeral_toDigits n
  | negSucc n =>
    have h := NumberState.runs_toDigits (Nat.succ_pos n) (.inr rfl) []
    rw [List.append_nil] at h
    exact h

/-! ## Values -/

/- The numbers of a value are numbers of the grammar. -/
mutual

def Proper : JsonTree → Prop
  | .null | .bool _ | .string _ => True
  | .number literal => isNumeral literal = true
  | .array elements => properElements elements
  | .object members => properMembers members

def properElements : List JsonTree → Prop
  | [] => True
  | element :: rest => Proper element ∧ properElements rest

def properMembers : List (List Char × JsonTree) → Prop
  | [] => True
  | (_, value) :: rest => Proper value ∧ properMembers rest

end

mutual

def serialize : JsonTree → List Char
  | .null => ['n', 'u', 'l', 'l']
  | .bool true => ['t', 'r', 'u', 'e']
  | .bool false => ['f', 'a', 'l', 's', 'e']
  | .number literal => literal
  | .string content => quoted content
  | .array elements => '[' :: (List.intercalate [','] (serializeElements elements) ++ [']'])
  | .object members => '{' :: (List.intercalate [','] (serializeMembers members) ++ ['}'])

def serializeElements : List JsonTree → List (List Char)
  | [] => []
  | element :: rest => serialize element :: serializeElements rest

def serializeMembers : List (List Char × JsonTree) → List (List Char)
  | [] => []
  | (key, value) :: rest => (quoted key ++ ':' :: serialize value) :: serializeMembers rest

end

theorem properElements_iff {elements : List JsonTree} :
    properElements elements ↔ ∀ e ∈ elements, Proper e := by
  induction elements with
  | nil => simp [properElements]
  | cons e rest ih => simp [properElements, ih]

theorem properMembers_iff {members : List (List Char × JsonTree)} :
    properMembers members ↔ ∀ m ∈ members, Proper m.2 := by
  induction members with
  | nil => simp [properMembers]
  | cons m rest ih => simp [properMembers, ih]

theorem serializeElements_eq (elements : List JsonTree) :
    serializeElements elements = elements.map serialize := by
  induction elements with
  | nil => rfl
  | cons e rest ih => rw [serializeElements, ih, List.map_cons]

theorem serializeMembers_eq (members : List (List Char × JsonTree)) :
    serializeMembers members = members.map fun m => quoted m.1 ++ ':' :: serialize m.2 := by
  induction members with
  | nil => rfl
  | cons m rest ih => rw [serializeMembers, ih, List.map_cons]

theorem Denotes.reads_quoted {text : List Char} {value : JsonTree} (h : Denotes text value)
    (key : List Char) :
    Reads (fun fuel => parseMember (parseValue fuel)) (quoted key ++ ':' :: text) (key, value) := by
  obtain ⟨fuel, hreads⟩ := h.reads
  refine ⟨fuel, fun fuel' hle more hmore => ?_⟩
  obtain ⟨rest, hparse, hrest⟩ := hreads fuel' hle more hmore
  refine ⟨rest, ?_, hrest⟩
  rw [parseMember_eq_some_iff]
  have htext : quoted key ++ ':' :: text ++ more =
      '"' :: (escapeText key ++ '"' :: (':' :: (text ++ more))) := by
    simp [quoted]
  rw [htext]
  exact ⟨_, _, _, skipSpace_cons rfl, lexString_escapeText key _, skipSpace_cons rfl, hparse⟩

/-- What is serialised is read back. -/
theorem denotes_serialize {t : JsonTree} (hproper : Proper t) : Denotes (serialize t) t := by
  induction t using JsonTree.induction with
  | null => exact denotes_null
  | bool b =>
    cases b with
    | false => exact denotes_false
    | true => exact denotes_true
  | number literal => exact denotes_number hproper
  | string content => exact denotes_quoted content
  | array elements ih =>
    rw [Proper, properElements_iff] at hproper
    have harray := denotes_array (elements.map fun e => (serialize e, e))
    simp only [List.forall_mem_map, List.map_map, Function.comp_def, List.map_id'] at harray
    rw [serialize, serializeElements_eq]
    exact harray fun e he => ih e he (hproper e he)
  | object members ih =>
    rw [Proper, properMembers_iff] at hproper
    have hobject := denotes_object_of_reads
      (members.map fun m => (quoted m.1 ++ ':' :: serialize m.2, m))
    simp only [List.forall_mem_map, List.map_map, Function.comp_def, List.map_id'] at hobject
    rw [serialize, serializeMembers_eq]
    exact hobject fun m hm => (ih m hm (hproper m hm)).reads_quoted m.1

end Framework.JsonText
