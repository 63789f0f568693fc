import Lucidac.Framework.JsonText

/-!
# Rules for JSON texts

How the texts of values are put together to the text of an array or an object, and what the members
of an object are when the beginning of its text is known.
-/

namespace Framework.JsonText

theorem intercalate_concat {α : Type} (sep : List α) (texts : List (List α)) (text : List α) :
    List.intercalate sep (texts ++ [text]) =
      List.intercalate sep texts ++ (if texts = [] then [] else sep) ++ text := by
  induction texts with
  | nil => simp
  | cons first texts ih =>
    cases texts with
    | nil => simp [List.intercalate_cons_cons]
    | cons second texts =>
      rw [List.cons_append, List.cons_append, List.intercalate_cons_cons, ← List.cons_append, ih,
        List.intercalate_cons_cons]
      simp

theorem intercalate_append {α : Type} (sep : List α) {texts texts' : List (List α)}
    (hne : texts ≠ []) (hne' : texts' ≠ []) :
    List.intercalate sep (texts ++ texts') =
      List.intercalate sep texts ++ sep ++ List.intercalate sep texts' := by
  induction texts with
  | nil => exact absurd rfl hne
  | cons first texts ih =>
    cases texts with
    | nil =>
      rw [List.singleton_append, List.intercalate_cons_of_ne_nil hne', List.intercalate_singleton]
    | cons second texts =>
      rw [List.cons_append, List.intercalate_cons_of_ne_nil (by simp), ih (by simp),
        List.intercalate_cons_cons]
      simp

theorem flatMap_append_sep {α : Type} (sep : List α) {texts : List (List α)} (hne : texts ≠ []) :
    texts.flatMap (· ++ sep) = List.intercalate sep texts ++ sep := by
  induction texts with
  | nil => exact absurd rfl hne
  | cons first texts ih =>
    cases texts with
    | nil => simp
    | cons second texts =>
      rw [List.flatMap_cons, ih (by simp), List.intercalate_cons_cons]
      simp

section Values

variable {fuel fuel' : Nat} {text rest more : List Char} {c : Char} {value : JsonTree}

theorem parseValue_nil (h : skipSpace text = []) : parseValue fuel text = none := by
  cases fuel with
  | zero => rfl
  | succ fuel =>
    rw [parseValue, h]
    rfl

theorem parseValue_array (h : skipSpace text = '[' :: rest) :
    parseValue (fuel + 1) text =
      (parseList (parseValue fuel) ']' fuel rest).map fun x => (.array x.1, x.2) := by
  simp only [parseValue, h]

theorem parseValue_object (h : skipSpace text = '{' :: rest) :
    parseValue (fuel + 1) text =
      (parseList (parseMember (parseValue fuel)) '}' fuel rest).map
        fun x => (.object x.1, x.2) := by
  simp only [parseValue, h]

theorem parseValue_scalar (h : skipSpace text = c :: rest) (hc : c ≠ '[' ∧ c ≠ '{') :
    parseValue (fuel + 1) text = parseScalar (c :: rest) := by
  rw [parseValue, h]
  split
  · next heq => exact absurd (List.cons.inj heq).1 hc.1
  · next heq => exact absurd (List.cons.inj heq).1 hc.2
  · rfl

end Values

section Reading

variable {α : Type} {p q : List Char → Option (α × List Char)} {close : Char}

/-- Whatever the one reads, the other reads. -/
def Extends (p q : List Char → Option (α × List Char)) : Prop :=
  ∀ text x, p text = some x → q text = some x

/-- What follows a delimiter does not change what is read before it. -/
def Local (p : List Char → Option (α × List Char)) : Prop :=
  ∀ text a rest more, Delimited more → p text = some (a, rest) →
    p (text ++ more) = some (a, rest ++ more)

theorem extends_parseItems (h : Extends p q) {fuel fuel' : Nat} (hle : fuel ≤ fuel') :
    Extends (parseItems p close fuel) (parseItems q close fuel') := by
  induction fuel generalizing fuel' with
  | zero =>
    intro text x hx
    cases hx
  | succ fuel ih =>
    intro text x hx
    obtain ⟨fuel', rfl⟩ : ∃ k, fuel' = k + 1 := ⟨fuel' - 1, by omega⟩
    rw [parseItems] at hx ⊢
    obtain ⟨y, hy, hx⟩ := Option.bind_eq_some_iff.mp hx
    rw [h text y hy, Option.bind_some]
    cases hskip : skipSpace y.2 with
    | nil =>
      rw [hskip] at hx
      cases hx
    | cons c rest =>
      simp only [hskip] at hx ⊢
      split_ifs at hx ⊢
      · obtain ⟨z, hz, rfl⟩ := Option.map_eq_some_iff.mp hx
        rw [ih (by omega) rest z hz]
        rfl
      · exact hx

theorem extends_parseList (h : Extends p q) {fuel fuel' : Nat} (hle : fuel ≤ fuel') :
    Extends (parseList p close fuel) (parseList q close fuel') := by
  intro text x hx
  rw [parseList] at hx ⊢
  split at hx
  · cases hx
  · split_ifs at hx ⊢
    · exact hx
    · exact extends_parseItems h hle text x hx

theorem local_parseItems (h : Local p) (fuel : Nat) : Local (parseItems p close fuel) := by
  induction fuel with
  | zero =>
    intro text as rest more hmore hx
    cases hx
  | succ fuel ih =>
    intro text as rest more hmore hx
    rw [parseItems] at hx ⊢
    obtain ⟨y, hy, hx⟩ := Option.bind_eq_some_iff.mp hx
    rw [h text y.1 y.2 more hmore hy, Option.bind_some]
    cases hskip : skipSpace y.2 with
    | nil =>
      rw [hskip] at hx
      cases hx
    | cons c tail =>
      rw [skipSpace_append_of_cons hskip]
      simp only [hskip] at hx ⊢
      split_ifs at hx ⊢
      · obtain ⟨z, hz, heq⟩ := Option.map_eq_some_iff.mp hx
        cases heq
        rw [ih tail z.1 z.2 more hmore hz]
        rfl
      · cases hx
        rfl

theorem local_parseList (h : Local p) (fuel : Nat) : Local (parseList p close fuel) := by
  intro text as rest more hmore hx
  rw [parseList] at hx ⊢
  cases hskip : skipSpace text with
  | nil =>
    rw [hskip] at hx
    cases hx
  | cons c tail =>
    rw [skipSpace_append_of_cons hskip]
    simp only [hskip] at hx ⊢
    split_ifs at hx ⊢
    · cases hx
      rfl
    · exact local_parseItems h fuel text as rest more hmore hx

end Reading

section Members

variable {value value' : List Char → Option (JsonTree × List Char)} {text rest key left : List Char}

/-- What reading one member takes: a quoted key, a colon and a value. -/
theorem parseMember_eq_some_iff {member : List Char × JsonTree} :
    parseMember value text = some (member, rest) ↔
      ∃ quoted left tail, skipSpace text = '"' :: quoted ∧
        lexString .text quoted = some (member.1, left) ∧ skipSpace left = ':' :: tail ∧
        value tail = some (member.2, rest) := by
  constructor
  · intro h
    unfold parseMember at h
    split at h
    · next quoted hquote =>
      obtain ⟨k, hk, h⟩ := Option.bind_eq_some_iff.mp h
      split at h
      · next tail hcolon =>
        obtain ⟨x, hx, heq⟩ := Option.map_eq_some_iff.mp h
        cases heq
        exact ⟨quoted, k.2, tail, hquote, hk, hcolon, hx⟩
      · cases h
    · cases h
  · rintro ⟨quoted, left, tail, hquote, hkey, hcolon, hvalue⟩
    simp [parseMember, hquote, hkey, hcolon, hvalue]

theorem extends_parseMember (h : Extends value value') :
    Extends (parseMember value) (parseMember value') := by
  rintro text ⟨member, rest⟩ hx
  rw [parseMember_eq_some_iff] at hx ⊢
  obtain ⟨quoted, left, tail, hquote, hkey, hcolon, hvalue⟩ := hx
  exact ⟨quoted, left, tail, hquote, hkey, hcolon, h _ _ hvalue⟩

theorem local_parseMember (h : Local value) : Local (parseMember value) := by
  intro text member rest more hmore hx
  rw [parseMember_eq_some_iff] at hx ⊢
  obtain ⟨quoted, left, tail, hquote, hkey, hcolon, hvalue⟩ := hx
  exact ⟨_, _, _, skipSpace_append_of_cons hquote, lexString_append hkey,
    skipSpace_append_of_cons hcolon, h _ _ _ more hmore hvalue⟩

end Members

theorem extends_parseValue {fuel fuel' : Nat} (hle : fuel ≤ fuel') :
    Extends (parseValue fuel) (parseValue fuel') := by
  induction fuel generalizing fuel' with
  | zero =>
    intro text x hx
    cases hx
  | succ fuel ih =>
    intro text x hx
    obtain ⟨fuel', rfl⟩ : ∃ k, fuel' = k + 1 := ⟨fuel' - 1, by omega⟩
    have hle' : fuel ≤ fuel' := by omega
    cases hskip : skipSpace text with
    | nil =>
      rw [parseValue_nil hskip] at hx
      cases hx
    | cons c rest =>
      by_cases harray : c = '['
      · subst harray
        rw [parseValue_array hskip] at hx ⊢
        obtain ⟨y, hy, rfl⟩ := Option.map_eq_some_iff.mp hx
        rw [extends_parseList (ih hle') hle' rest y hy]
        rfl
      · by_cases hobject : c = '{'
        · subst hobject
          rw [parseValue_object hskip] at hx ⊢
          obtain ⟨y, hy, rfl⟩ := Option.map_eq_some_iff.mp hx
          rw [extends_parseList (extends_parseMember (ih hle')) hle' rest y hy]
          rfl
        · rw [parseValue_scalar hskip ⟨harray, hobject⟩] at hx ⊢
          exact hx

theorem local_parseValue (fuel : Nat) : Local (parseValue fuel) := by
  induction fuel with
  | zero =>
    intro text value rest more hmore hx
    cases hx
  | succ fuel ih =>
    intro text value rest more hmore hx
    cases hskip : skipSpace text with
    | nil =>
      rw [parseValue_nil hskip] at hx
      cases hx
    | cons c tail =>
      have hskip' : skipSpace (text ++ more) = c :: (tail ++ more) :=
        skipSpace_append_of_cons hskip
      by_cases harray : c = '['
      · subst harray
        rw [parseValue_array hskip] at hx
        obtain ⟨y, hy, heq⟩ := Option.map_eq_some_iff.mp hx
        cases heq
        rw [parseValue_array hskip', local_parseList ih fuel tail y.1 y.2 more hmore hy]
        rfl
      · by_cases hobject : c = '{'
        · subst hobject
          rw [parseValue_object hskip] at hx
          obtain ⟨y, hy, heq⟩ := Option.map_eq_some_iff.mp hx
          cases heq
          rw [parseValue_object hskip',
            local_parseList (local_parseMember ih) fuel tail y.1 y.2 more hmore hy]
          rfl
        · rw [parseValue_scalar hskip ⟨harray, hobject⟩] at hx
          rw [parseValue_scalar hskip' ⟨harray, hobject⟩]
          exact parseScalar_append hx hmore

section Composition

variable {α : Type} {text rest more : List Char} {a : α} {value : JsonTree} {close c : Char}

/-- With enough fuel the reader takes this text for the item, whatever follows the delimiter. -/
def Reads (p : Nat → List Char → Option (α × List Char)) (text : List Char) (a : α) : Prop :=
  ∃ fuel, ∀ fuel' ≥ fuel, ∀ more, Delimited more →
    ∃ rest, p fuel' (text ++ more) = some (a, rest) ∧ skipSpace rest = skipSpace more

theorem Denotes.reads (h : Denotes text value) : Reads parseValue text value := by
  obtain ⟨fuel, rest, hparse, hrest⟩ := h
  refine ⟨fuel, fun fuel' hle more hmore => ⟨rest ++ more, ?_, skipSpace_append_of_nil hrest⟩⟩
  exact local_parseValue fuel' text value rest more hmore
    (extends_parseValue hle text (value, rest) hparse)

theorem Reads.eq_of_some {p : Nat → List Char → Option (α × List Char)} (h : Reads p text a)
    (hmono : ∀ fuel fuel', fuel ≤ fuel' → Extends (p fuel) (p fuel')) (hmore : Delimited more)
    {fuel : Nat} {x : α × List Char} (hx : p fuel (text ++ more) = some x) :
    x.1 = a ∧ skipSpace x.2 = skipSpace more := by
  obtain ⟨enough, hreads⟩ := h
  obtain ⟨rest, hparse, hrest⟩ := hreads (max fuel enough) (by omega) more hmore
  rw [hmono fuel (max fuel enough) (by omega) _ x hx] at hparse
  cases hparse
  exact ⟨rfl, hrest⟩

theorem Denotes.eq_of_some (h : Denotes text value) (hmore : Delimited more) {fuel : Nat}
    {x : JsonTree × List Char} (hx : parseValue fuel (text ++ more) = some x) :
    x.1 = value ∧ skipSpace x.2 = skipSpace more :=
  h.reads.eq_of_some (fun _ _ hle => extends_parseValue hle) hmore hx

theorem parseValue_string {fuel : Nat} {content : List Char} (h : Plain content) :
    parseValue (fuel + 1) ('"' :: (content ++ '"' :: more)) = some (.string content, more) := by
  rw [parseValue_scalar (skipSpace_cons rfl) (by decide)]
  simp only [parseScalar, lexString_plain h, Option.map_some]

theorem isBlank_of_number (hc : c = '-' ∨ c.isDigit = true) : isBlank c = false := by
  by_contra hspace
  simp only [isBlank, Bool.not_eq_false, Bool.or_eq_true, beq_iff_eq] at hspace
  rcases hspace with ((rfl | rfl) | rfl) | rfl <;> revert hc <;> decide

theorem parseValue_number {fuel : Nat} {literal : List Char} (h : isNumeral literal = true)
    (hmore : Delimited more) :
    parseValue (fuel + 1) (literal ++ more) = some (.number literal, more) := by
  have hparse := parseNumber_isNumeral h hmore
  obtain ⟨c, rest, rfl, hc⟩ := isNumeral_cons h
  have hne : c ≠ '[' ∧ c ≠ '{' := by
    constructor <;> rintro rfl <;> revert hc <;> decide
  rw [List.cons_append] at hparse ⊢
  rw [parseValue_scalar (skipSpace_cons (isBlank_of_number hc)) hne, parseScalar_number hc]
  exact hparse

theorem denotes_string {content : List Char} (h : Plain content) :
    Denotes ('"' :: (content ++ ['"'])) (.string content) :=
  ⟨1, [], parseValue_string h, rfl⟩

theorem denotes_number {literal : List Char} (h : isNumeral literal = true) :
    Denotes literal (.number literal) := by
  refine ⟨1, [], ?_, rfl⟩
  have hparse : parseValue 1 (literal ++ []) = _ := parseValue_number h delimited_nil
  rwa [List.append_nil] at hparse

theorem denotes_null : Denotes ['n', 'u', 'l', 'l'] .null := ⟨1, [], rfl, rfl⟩

theorem denotes_true : Denotes ['t', 'r', 'u', 'e'] (.bool true) := ⟨1, [], rfl, rfl⟩

theorem denotes_false : Denotes ['f', 'a', 'l', 's', 'e'] (.bool false) := ⟨1, [], rfl, rfl⟩

theorem Denotes.space_cons (hc : isBlank c = true) (h : Denotes text value) :
    Denotes (c :: text) value := by
  obtain ⟨fuel, rest, hparse, hrest⟩ := h
  refine ⟨fuel, rest, ?_, hrest⟩
  cases fuel with
  | zero => cases hparse
  | succ fuel =>
    have hskip : skipSpace (c :: text) = skipSpace text := by
      simp [skipSpace, hc]
    rw [parseValue, hskip]
    exact hparse

theorem Denotes.append_space (hmore : skipSpace more = []) (hdelim : Delimited more)
    (h : Denotes text value) : Denotes (text ++ more) value := by
  obtain ⟨fuel, hreads⟩ := h.reads
  obtain ⟨rest, hparse, hrest⟩ := hreads fuel (Nat.le_refl fuel) more hdelim
  exact ⟨fuel, rest, hparse, hrest.trans hmore⟩

/-- Items that are read one by one are read in a row. -/
theorem parseItems_intercalate {p : Nat → List Char → Option (α × List Char)}
    (hclose : isNumberChar close = false ∧ isBlank close = false ∧ close ≠ ',')
    (items : List (List Char × α)) (hne : items ≠ []) (h : ∀ i ∈ items, Reads p i.1 i.2) :
    ∃ fuel, ∀ fuel' ≥ fuel, ∀ count ≥ items.length, ∀ more,
      parseItems (p fuel') close count
          (List.intercalate [','] (items.map Prod.fst) ++ close :: more) =
        some (items.map Prod.snd, more) := by
  induction items with
  | nil => exact absurd rfl hne
  | cons i items ih =>
    rw [List.forall_mem_cons] at h
    obtain ⟨fuel, hreads⟩ := h.1
    cases items with
    | nil =>
      refine ⟨fuel, fun fuel' hle count hcount more => ?_⟩
      obtain ⟨count, rfl⟩ : ∃ k, count = k + 1 := ⟨count - 1, by simp at hcount; omega⟩
      obtain ⟨rest, hparse, hrest⟩ := hreads fuel' hle (close :: more) (delimited_cons hclose.1)
      rw [skipSpace_cons hclose.2.1] at hrest
      simp [parseItems, hparse, hrest, hclose.2.2]
    | cons j items =>
      obtain ⟨fuel₁, hitems⟩ := ih (by simp) h.2
      refine ⟨max fuel fuel₁, fun fuel' hle count hcount more => ?_⟩
      obtain ⟨count, rfl⟩ : ∃ k, count = k + 1 := ⟨count - 1, by simp at hcount; omega⟩
      have hcomma : Delimited (',' :: (List.intercalate [','] ((j :: items).map Prod.fst) ++
          close :: more)) := delimited_cons rfl
      obtain ⟨rest, hparse, hrest⟩ := hreads fuel' (by omega) _ hcomma
      rw [skipSpace_cons rfl] at hrest
      have htail := hitems fuel' (by omega) count (by simp at hcount ⊢; omega) more
      have htext : List.intercalate [','] ((i :: j :: items).map Prod.fst) ++ close :: more =
          i.1 ++ ',' :: (List.intercalate [','] ((j :: items).map Prod.fst) ++ close :: more) := by
        simp [List.intercalate_cons_cons]
      rw [htext, parseItems, hparse, Option.bind_some]
      simp only [hrest, if_true, htail, Option.map_some]
      rfl

section Refusal

variable {p : Nat → List Char → Option (α × List Char)}

theorem parseItems_none_of_item (h : ∀ fuel, p fuel text = none) (fuel count : Nat) :
    parseItems (p fuel) close count text = none := by
  cases count with
  | zero => rfl
  | succ count => rw [parseItems, h, Option.bind_none]

/-- After an item there must be a comma or the closing bracket. -/
theorem Reads.parseItems_none (h : Reads p text a)
    (hmono : ∀ fuel fuel', fuel ≤ fuel' → Extends (p fuel) (p fuel')) (hmore : Delimited more)
    (hnext : skipSpace more = c :: rest) (hc : c ≠ ',' ∧ c ≠ close) (fuel count : Nat) :
    parseItems (p fuel) close count (text ++ more) = none := by
  cases count with
  | zero => rfl
  | succ count =>
    rw [parseItems]
    cases hx : p fuel (text ++ more) with
    | none => rfl
    | some x =>
      have hskip := (h.eq_of_some hmono hmore hx).2
      rw [hnext] at hskip
      simp [hskip, hc]

/-- The items after a comma must be readable too. -/
theorem Reads.parseItems_none_of_rest (h : Reads p text a)
    (hmono : ∀ fuel fuel', fuel ≤ fuel' → Extends (p fuel) (p fuel'))
    (hrest : ∀ fuel count, parseItems (p fuel) close count rest = none) (fuel count : Nat) :
    parseItems (p fuel) close count (text ++ ',' :: rest) = none := by
  cases count with
  | zero => rfl
  | succ count =>
    rw [parseItems]
    cases hx : p fuel (text ++ ',' :: rest) with
    | none => rfl
    | some x =>
      have hskip := (h.eq_of_some hmono (delimited_cons rfl) hx).2
      rw [skipSpace_cons rfl] at hskip
      simp [hskip, hrest]

end Refusal

/-- An item that is read does not begin with the closing bracket. -/
def NotClosed (p : Nat → List Char → Option (α × List Char)) (close : Char) : Prop :=
  ∀ fuel text x, p fuel text = some x → ∃ c rest, skipSpace text = c :: rest ∧ c ≠ close

theorem parseList_eq_parseItems {p : List Char → Option (α × List Char)} {fuel : Nat}
    (h : skipSpace text = c :: rest) (hc : c ≠ close) :
    parseList p close fuel text = parseItems p close fuel text := by
  rw [parseList, h]
  exact if_neg hc

theorem parseList_intercalate {p : Nat → List Char → Option (α × List Char)}
    (hclose : isNumberChar close = false ∧ isBlank close = false ∧ close ≠ ',')
    (hstart : NotClosed p close)
    (items : List (List Char × α)) (h : ∀ i ∈ items, Reads p i.1 i.2) :
    ∃ fuel, ∀ more,
      parseList (p fuel) close fuel
          (List.intercalate [','] (items.map Prod.fst) ++ close :: more) =
        some (items.map Prod.snd, more) := by
  by_cases hne : items = []
  · subst hne
    refine ⟨0, fun more => ?_⟩
    simp [parseList, List.intercalate_nil, skipSpace_cons hclose.2.1]
  · obtain ⟨fuel, hitems⟩ := parseItems_intercalate hclose items hne h
    refine ⟨max fuel items.length, fun more => ?_⟩
    have hparse := hitems (max fuel items.length) (by omega) (max fuel items.length) (by omega) more
    generalize List.intercalate [','] (items.map Prod.fst) ++ close :: more = text at hparse ⊢
    generalize max fuel items.length = n at hparse ⊢
    have hfirst : ∃ x, p n text = some x := by
      cases n with
      | zero => cases hparse
      | succ n =>
        rw [parseItems] at hparse
        obtain ⟨x, hx, -⟩ := Option.bind_eq_some_iff.mp hparse
        exact ⟨x, hx⟩
    obtain ⟨x, hx⟩ := hfirst
    obtain ⟨c, rest, hskip, hc⟩ := hstart n text x hx
    rw [parseList_eq_parseItems hskip hc]
    exact hparse

theorem notClosed_parseValue : NotClosed parseValue ']' := by
  intro fuel text x h
  cases hskip : skipSpace text with
  | nil =>
    rw [parseValue_nil hskip] at h
    cases h
  | cons c rest =>
    refine ⟨c, rest, rfl, ?_⟩
    rintro rfl
    cases fuel with
    | zero => cases h
    | succ fuel =>
      rw [parseValue_scalar hskip (by decide)] at h
      simp [parseScalar, parseNumber, isNumberChar, isNumeral, NumberState.runs,
        NumberState.accepts] at h

theorem notClosed_parseMember : NotClosed (fun fuel => parseMember (parseValue fuel)) '}' := by
  rintro fuel text ⟨member, rest⟩ h
  obtain ⟨quoted, left, tail, hquote, -⟩ := parseMember_eq_some_iff.mp h
  exact ⟨_, quoted, hquote, by decide⟩

/-- The text of an array from the texts of its elements. -/
theorem denotes_array (items : List (List Char × JsonTree)) (h : ∀ i ∈ items, Denotes i.1 i.2) :
    Denotes ('[' :: (List.intercalate [','] (items.map Prod.fst) ++ [']']))
      (.array (items.map Prod.snd)) := by
  obtain ⟨fuel, hlist⟩ := parseList_intercalate (by decide) notClosed_parseValue items
    (fun i hi => (h i hi).reads)
  refine ⟨fuel + 1, [], ?_, rfl⟩
  rw [parseValue_array (skipSpace_cons rfl), hlist []]
  rfl

/-- A member as it is written: the quoted key, a colon and the value. -/
def memberText (key text : List Char) : List Char := '"' :: (key ++ '"' :: ':' :: text)

theorem memberText_append (key text more : List Char) :
    memberText key text ++ more = memberText key (text ++ more) := by
  simp [memberText]

theorem parseMember_memberText {key : List Char} (hkey : Plain key)
    (p : List Char → Option (JsonTree × List Char)) :
    parseMember p (memberText key text) = (p text).map fun x => ((key, x.1), x.2) := by
  simp only [parseMember, memberText, skipSpace_cons (show isBlank '"' = false from rfl),
    lexString_plain hkey, Option.bind_some, skipSpace_cons (show isBlank ':' = false from rfl)]

theorem Denotes.reads_member {key : List Char} (hkey : Plain key) (h : Denotes text value) :
    Reads (fun fuel => parseMember (parseValue fuel)) (memberText key text) (key, value) := by
  obtain ⟨fuel, hreads⟩ := h.reads
  refine ⟨fuel, fun fuel' hle more hmore => ?_⟩
  obtain ⟨rest, hparse, hrest⟩ := hreads fuel' hle more hmore
  refine ⟨rest, ?_, hrest⟩
  simp only [memberText_append, parseMember_memberText hkey, hparse, Option.map_some]

/-- A member of an object with the text of its value. -/
structure Member where
  key : List Char
  text : List Char
  value : JsonTree

structure Member.IsWritten (m : Member) : Prop where
  plain : Plain m.key
  denotes : Denotes m.text m.value

theorem Denotes.member {key : List Char} (h : Denotes text value) (hkey : Plain key) :
    (Member.mk key text value).IsWritten :=
  ⟨hkey, h⟩

theorem Reads.space_cons {member : List Char × JsonTree} (hc : isBlank c = true)
    (h : Reads (fun fuel => parseMember (parseValue fuel)) text member) :
    Reads (fun fuel => parseMember (parseValue fuel)) (c :: text) member := by
  obtain ⟨fuel, hreads⟩ := h
  refine ⟨fuel, fun fuel' hle more hmore => ?_⟩
  have hskip : skipSpace (c :: text ++ more) = skipSpace (text ++ more) := by
    simp [skipSpace, hc]
  simp only [parseMember, hskip]
  exact hreads fuel' hle more hmore

theorem denotes_object_of_reads (items : List (List Char × (List Char × JsonTree)))
    (h : ∀ i ∈ items, Reads (fun fuel => parseMember (parseValue fuel)) i.1 i.2) :
    Denotes ('{' :: (List.intercalate [','] (items.map Prod.fst) ++ ['}']))
      (.object (items.map Prod.snd)) := by
  obtain ⟨fuel, hlist⟩ := parseList_intercalate (by decide) notClosed_parseMember items h
  refine ⟨fuel + 1, [], ?_, rfl⟩
  rw [parseValue_object (skipSpace_cons rfl), hlist []]
  rfl

/-- The text of an object from the texts of its members. -/
theorem denotes_object (members : List Member) (h : ∀ m ∈ members, m.IsWritten) :
    Denotes ('{' :: (List.intercalate [','] (members.map fun m => memberText m.key m.text) ++ ['}']))
      (.object (members.map fun m => (m.key, m.value))) := by
  have hobject := denotes_object_of_reads
    (members.map fun m => (memberText m.key m.text, (m.key, m.value)))
  simp only [List.forall_mem_map, List.map_map, Function.comp_def] at hobject
  exact hobject fun m hm => (h m hm).denotes.reads_member (h m hm).plain

end Composition

section Inversion

variable {text rest key : List Char} {members : List (List Char × JsonTree)} {fuel count : Nat}

theorem Denotes.exists_parseItems {value : JsonTree} {tail : List Char}
    (h : Denotes ('{' :: memberText key tail) value) :
    ∃ fuel members rest, value = .object members ∧
      parseItems (parseMember (parseValue fuel)) '}' fuel (memberText key tail) =
        some (members, rest) := by
  obtain ⟨fuel, rest, hparse, -⟩ := h
  cases fuel with
  | zero => cases hparse
  | succ fuel =>
    have hhead : skipSpace (memberText key tail) = _ := skipSpace_cons rfl
    rw [parseValue_object (skipSpace_cons rfl), parseList_eq_parseItems hhead (by decide)] at hparse
    obtain ⟨x, hx, heq⟩ := Option.map_eq_some_iff.mp hparse
    cases heq
    exact ⟨fuel, x.1, x.2, rfl, hx⟩

/-- What follows the value of a member that was read. -/
inductive Continues (fuel : Nat) (left : List Char) (others : List (List Char × JsonTree))
    (rest : List Char) : Prop where
  | last (hclose : skipSpace left = '}' :: rest) (hothers : others = [])
  | next (tail : List Char) (count : Nat) (hcomma : skipSpace left = ',' :: tail)
      (hrest : parseItems (parseMember (parseValue fuel)) '}' count tail = some (others, rest))

/-- Nothing but a comma or a brace follows a value. -/
theorem Continues.ne_cons {left : List Char} {others : List (List Char × JsonTree)}
    (h : Continues fuel left others rest) {c : Char} {tail : List Char} (hcomma : c ≠ ',')
    (hclose : c ≠ '}') : skipSpace left ≠ c :: tail := by
  intro hleft
  cases h with
  | last hbrace =>
    rw [hbrace] at hleft
    exact hclose (List.head_eq_of_cons_eq hleft).symm
  | next tail count hseparator =>
    rw [hseparator] at hleft
    exact hcomma (List.head_eq_of_cons_eq hleft).symm

theorem parseItems_memberText (hkey : Plain key)
    (h : parseItems (parseMember (parseValue fuel)) '}' count (memberText key text) =
      some (members, rest)) :
    ∃ value left others, parseValue fuel text = some (value, left) ∧
      members = (key, value) :: others ∧ Continues fuel left others rest := by
  cases count with
  | zero => cases h
  | succ count =>
    rw [parseItems, parseMember_memberText hkey] at h
    obtain ⟨x, hx, h⟩ := Option.bind_eq_some_iff.mp h
    obtain ⟨y, hy, rfl⟩ := Option.map_eq_some_iff.mp hx
    cases hskip : skipSpace y.2 with
    | nil =>
      simp only [hskip] at h
      cases h
    | cons c tail =>
      simp only [hskip] at h
      split_ifs at h with hcomma hclose
      · obtain ⟨z, hz, heq⟩ := Option.map_eq_some_iff.mp h
        cases heq
        subst hcomma
        exact ⟨y.1, y.2, z.1, hy, rfl, .next tail count hskip hz⟩
      · cases h
        subst hclose
        exact ⟨y.1, y.2, [], hy, rfl, .last hskip rfl⟩

/-- A member that is read, and the ones behind it. -/
theorem parseItems_member_next {next tail : List Char} {value : JsonTree} (hkey : Plain key)
    (htext : Denotes text value)
    (h : parseItems (parseMember (parseValue fuel)) '}' count
      (memberText key (text ++ ',' :: memberText next tail)) = some (members, rest)) :
    ∃ others count', members = (key, value) :: others ∧
      parseItems (parseMember (parseValue fuel)) '}' count' (memberText next tail) =
        some (others, rest) := by
  obtain ⟨value', left, others, hvalue, rfl, hcontinues⟩ := parseItems_memberText hkey h
  obtain ⟨rfl, hleft⟩ := htext.eq_of_some (delimited_cons rfl) hvalue
  rw [skipSpace_cons rfl] at hleft
  cases hcontinues with
  | last hclose =>
    rw [hclose] at hleft
    cases hleft
  | next tail count' hcomma hrest =>
    rw [hcomma] at hleft
    cases hleft
    exact ⟨others, count', rfl, hrest⟩

theorem parseValue_quote {value : JsonTree} {left : List Char}
    (h : parseValue fuel ('"' :: text) = some (value, left)) :
    ∃ content, value = .string content ∧ lexString .text text = some (content, left) := by
  cases fuel with
  | zero => cases h
  | succ fuel =>
    rw [parseValue_scalar (skipSpace_cons rfl) (by decide), parseScalar] at h
    obtain ⟨x, hx, heq⟩ := Option.map_eq_some_iff.mp h
    cases heq
    exact ⟨x.1, rfl, hx⟩

/-- Characters that are put between quotes as they are, and are not plain, do not come back: the
member gets a shorter value, unless the text is refused.  The last hypothesis excludes that a
quote which a backslash takes into the string leaves a readable object. -/
theorem parseItems_misread {raw : List Char} (hkey : Plain key) (hraw : ¬ Plain raw)
    (h : parseItems (parseMember (parseValue fuel)) '}' count
      (memberText key ('"' :: (raw ++ '"' :: text))) = some (members, rest))
    (hstop : ∀ content left, lexString .text text = some (content, left) →
      ∃ c tail, skipSpace left = c :: tail ∧ c ≠ ',' ∧ c ≠ '}') :
    ∃ content others, members = (key, .string content) :: others ∧
      content.length < raw.length := by
  obtain ⟨value, left, others, hvalue, rfl, hnext⟩ := parseItems_memberText hkey h
  obtain ⟨content, rfl, hlex⟩ := parseValue_quote hvalue
  have hmisread : Misread text (raw.length + LexState.text.pending)
      (lexString .text (raw ++ '"' :: text)) := misread_of_not_plain (.inr hraw)
  rw [hlex] at hmisread
  generalize hresult : some (content, left) = result at hmisread
  cases hmisread with
  | refused => cases hresult
  | short content left hlt =>
    cases hresult
    exact ⟨content, others, rfl, hlt⟩
  | extended before =>
    obtain ⟨x, hx, heq⟩ := Option.map_eq_some_iff.mp hresult.symm
    cases heq
    obtain ⟨c, tail, hskip, hc⟩ := hstop x.1 x.2 hx
    cases hnext with
    | last hclose =>
      rw [hskip] at hclose
      exact absurd (List.cons.inj hclose).1 hc.2
    | next tail count hcomma =>
      rw [hskip] at hcomma
      exact absurd (List.cons.inj hcomma).1 hc.1

/-- The only member with this key. -/
def HasMember (members : List (List Char × JsonTree)) (key : String) (value : JsonTree) : Prop :=
  members.filter (fun m => m.1 == key.toList) = [(key.toList, value)]

theorem hasMember_self {members : List (List Char × JsonTree)} {key : String}
    {value value' : JsonTree} (h : HasMember ((key.toList, value) :: members) key value') : value = value' := by
  simp only [HasMember, List.filter_cons, beq_self_eq_true, if_true, List.cons.injEq,
    Prod.mk.injEq] at h
  exact h.1.2

theorem hasMember_of_ne {members : List (List Char × JsonTree)} {key : String}
    {other : List Char} {value value' : JsonTree} (hne : other ≠ key.toList)
    (h : HasMember ((other, value) :: members) key value') : HasMember members key value' := by
  rw [HasMember, List.filter_cons_of_neg (by simpa using hne)] at h
  exact h

end Inversion

end Framework.JsonText
