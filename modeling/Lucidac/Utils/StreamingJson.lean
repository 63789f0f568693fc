import Lucidac.Framework.JsonRules
import Mathlib.Algebra.Order.Field.Rat
import Mathlib.Algebra.Order.Group.Unbundled.Abs

/-!
# Streaming JSON

Messages are written while they are constructed, without a document in memory.  The writer keeps
one flag, which says whether the next value has to be separated from the one before by a comma.
-/

namespace Lucidac

open Framework.JsonText

/-- `str.c_str()`, as far as a reader of C strings gets. -/
def cStr (str : List Char) : List Char := str.takeWhile (· != '\x00')

theorem cStr_eq_self {str : List Char} (h : '\x00' ∉ str) : cStr str = str := by
  apply List.takeWhile_eq_self_iff.mpr
  intro c hc
  rw [bne_iff_ne]
  rintro rfl
  exact h hc

theorem zero_notMem_of_plain {str : List Char} (h : Plain str) : '\x00' ∉ str := by
  intro hzero
  have hspecial := h _ hzero
  revert hspecial
  decide

theorem cStr_of_plain {str : List Char} (h : Plain str) : cStr str = str :=
  cStr_eq_self (zero_notMem_of_plain h)

structure StreamingJson where
  needsComma : Bool
  output : List Char

namespace StreamingJson

def empty : StreamingJson := { needsComma := false, output := [] }

def print (text : List Char) (s : StreamingJson) : StreamingJson :=
  { s with output := s.output ++ text }

def checkComma (s : StreamingJson) : StreamingJson :=
  { needsComma := false, output := if s.needsComma then s.output ++ [','] else s.output }

def requireComma (s : StreamingJson) : StreamingJson := { s with needsComma := true }

def beginDict (s : StreamingJson) : StreamingJson := { s.print ['{'] with needsComma := false }
def endDict (s : StreamingJson) : StreamingJson := (s.print ['}']).requireComma
def beginList (s : StreamingJson) : StreamingJson := { s.print ['['] with needsComma := false }
def endList (s : StreamingJson) : StreamingJson := (s.print [']']).requireComma

def beginStr (s : StreamingJson) : StreamingJson := s.print ['"']
def endStr (s : StreamingJson) : StreamingJson := s.print ['"']

def key (str : List Char) (s : StreamingJson) : StreamingJson :=
  (((s.checkComma.beginStr).print (cStr str)).endStr).print [':']

def val (str : List Char) (s : StreamingJson) : StreamingJson :=
  ((s.checkComma.beginStr.print (cStr str)).endStr).requireComma

def valBool (b : Bool) (s : StreamingJson) : StreamingJson :=
  (s.checkComma.print (if b then ['t', 'r', 'u', 'e'] else ['f', 'a', 'l', 's', 'e'])).requireComma

/-- `val` of a number, which is given by what `Print` writes for it. -/
def valNumber (literal : List Char) (s : StreamingJson) : StreamingJson :=
  (s.checkComma.print literal).requireComma

def null (s : StreamingJson) : StreamingJson :=
  (s.checkComma.print ['n', 'u', 'l', 'l']).requireComma

/-- An embedded raw JSON structure. -/
def json (str : List Char) (s : StreamingJson) : StreamingJson :=
  (s.checkComma.print (cStr str)).requireComma

def kv (key val : List Char) (s : StreamingJson) : StreamingJson := (s.key key).val val

def kvNumber (key literal : List Char) (s : StreamingJson) : StreamingJson :=
  (s.key key).valNumber literal

def kvBool (key : List Char) (b : Bool) (s : StreamingJson) : StreamingJson :=
  (s.key key).valBool b

def endln (s : StreamingJson) : StreamingJson := s.print ['\r', '\n']

end StreamingJson

open StreamingJson

/-- A value that is to be written, with numbers of any type. -/
inductive JsonValue (ν : Type) where
  | null
  | bool (b : Bool)
  | number (x : ν)
  | string (str : List Char)
  | array (elements : List (JsonValue ν))
  | object (members : List (List Char × JsonValue ν))

section Natural

variable {ν : Type}

/- The natural calls for a value: key and value for each member of an object, begin and end around
a container.  `print` is what `Print` writes for a number. -/
mutual

def emit (print : ν → List Char) : JsonValue ν → StreamingJson → StreamingJson
  | .null, s => s.null
  | .bool b, s => s.valBool b
  | .number x, s => s.valNumber (print x)
  | .string str, s => s.val str
  | .array elements, s => (emitElements print elements s.beginList).endList
  | .object members, s => (emitMembers print members s.beginDict).endDict

def emitElements (print : ν → List Char) : List (JsonValue ν) → StreamingJson → StreamingJson
  | [], s => s
  | element :: rest, s => emitElements print rest (emit print element s)

def emitMembers (print : ν → List Char) :
    List (List Char × JsonValue ν) → StreamingJson → StreamingJson
  | [], s => s
  | (key, value) :: rest, s => emitMembers print rest (emit print value (s.key key))

end

namespace JsonValue

def isContainer : JsonValue ν → Bool
  | .array _ | .object _ => true
  | _ => false

/- No array has an array or an object in another than the first place. -/
mutual

def separated : JsonValue ν → Bool
  | .null | .bool _ | .number _ | .string _ => true
  | .array [] => true
  | .array (first :: rest) => separated first && separatedRest rest
  | .object members => separatedMembers members

def separatedRest : List (JsonValue ν) → Bool
  | [] => true
  | element :: rest => !isContainer element && separated element && separatedRest rest

def separatedMembers : List (List Char × JsonValue ν) → Bool
  | [] => true
  | (_, value) :: rest => separated value && separatedMembers rest

end

mutual

def numbers : JsonValue ν → List ν
  | .null | .bool _ | .string _ => []
  | .number x => [x]
  | .array elements => numbersElements elements
  | .object members => numbersMembers members

def numbersElements : List (JsonValue ν) → List ν
  | [] => []
  | element :: rest => numbers element ++ numbersElements rest

def numbersMembers : List (List Char × JsonValue ν) → List ν
  | [] => []
  | (_, value) :: rest => numbers value ++ numbersMembers rest

end

/- Strings and keys without special characters. -/
mutual

def PlainText : JsonValue ν → Prop
  | .null | .bool _ | .number _ => True
  | .string str => Plain str
  | .array elements => plainElements elements
  | .object members => plainMembers members

def plainElements : List (JsonValue ν) → Prop
  | [] => True
  | element :: rest => PlainText element ∧ plainElements rest

def plainMembers : List (List Char × JsonValue ν) → Prop
  | [] => True
  | (key, value) :: rest => Plain key ∧ PlainText value ∧ plainMembers rest

end

/- The document with the texts of the numbers, as they are printed. -/
mutual

def printed (print : ν → List Char) : JsonValue ν → JsonTree
  | .null => .null
  | .bool b => .bool b
  | .number x => .number (print x)
  | .string str => .string str
  | .array elements => .array (printedElements print elements)
  | .object members => .object (printedMembers print members)

def printedElements (print : ν → List Char) : List (JsonValue ν) → List JsonTree
  | [] => []
  | element :: rest => printed print element :: printedElements print rest

def printedMembers (print : ν → List Char) :
    List (List Char × JsonValue ν) → List (List Char × JsonTree)
  | [] => []
  | (key, value) :: rest => (key, printed print value) :: printedMembers print rest

end

/- The value of a document, given the numbers that its literals stand for. -/
mutual

def valued (value : List Char → ν) : JsonTree → JsonValue ν
  | .null => .null
  | .bool b => .bool b
  | .number literal => .number (value literal)
  | .string str => .string str
  | .array elements => .array (valuedElements value elements)
  | .object members => .object (valuedMembers value members)

def valuedElements (value : List Char → ν) : List JsonTree → List (JsonValue ν)
  | [] => []
  | element :: rest => valued value element :: valuedElements value rest

def valuedMembers (value : List Char → ν) :
    List (List Char × JsonTree) → List (List Char × JsonValue ν)
  | [] => []
  | (key, tree) :: rest => (key, valued value tree) :: valuedMembers value rest

end

end JsonValue

def ReadsBack (value : List Char → ν) (text : List Char) (v : JsonValue ν) : Prop :=
  ∃ tree, Denotes text tree ∧ JsonValue.valued value tree = v

/-- What `Print` writes for a number is a numeral that stands for the number. -/
def WrittenExactly (print : ν → List Char) (value : List Char → ν) (x : ν) : Prop :=
  isNumeral (print x) = true ∧ value (print x) = x

/-- `Print` writes these words for a floating point number that has no digits or too many. -/
def isWord (text : List Char) : Bool :=
  text == ['n', 'a', 'n'] || text == ['i', 'n', 'f'] || text == ['o', 'v', 'f']

def isContainer : JsonTree → Bool
  | .array _ | .object _ => true
  | _ => false

/- No array has an array or an object in another than the first place, and every number is a
numeral. -/
mutual

def readable : JsonTree → Bool
  | .null | .bool _ | .string _ => true
  | .number literal => isNumeral literal
  | .array [] => true
  | .array (first :: rest) => readable first && readableRest rest
  | .object members => readableMembers members

def readableRest : List JsonTree → Bool
  | [] => true
  | element :: rest => !isContainer element && readable element && readableRest rest

def readableMembers : List (List Char × JsonTree) → Bool
  | [] => true
  | (_, value) :: rest => readable value && readableMembers rest

end

/- Strings and keys without special characters, and numbers as they are printed. -/
mutual

def Writable : JsonTree → Prop
  | .null | .bool _ => True
  | .number literal => isNumeral literal = true ∨ isWord literal = true
  | .string str => Plain str
  | .array elements => writableElements elements
  | .object members => writableMembers members

def writableElements : List JsonTree → Prop
  | [] => True
  | element :: rest => Writable element ∧ writableElements rest

def writableMembers : List (List Char × JsonTree) → Prop
  | [] => True
  | (key, value) :: rest => Plain key ∧ Writable value ∧ writableMembers rest

end

/- The text of a value without the comma in front of it, which a container does not get. -/
mutual

def written : JsonTree → List Char
  | .null => ['n', 'u', 'l', 'l']
  | .bool b => if b then ['t', 'r', 'u', 'e'] else ['f', 'a', 'l', 's', 'e']
  | .number literal => literal
  | .string str => '"' :: (str ++ ['"'])
  | .array [] => ['[', ']']
  | .array (first :: rest) => '[' :: (written first ++ writtenRest rest ++ [']'])
  | .object [] => ['{', '}']
  | .object ((key, value) :: rest) =>
    '{' :: (memberText key (written value) ++ writtenMembers rest ++ ['}'])

def writtenRest : List JsonTree → List Char
  | [] => []
  | element :: rest =>
    (if isContainer element then [] else [',']) ++ written element ++ writtenRest rest

def writtenMembers : List (List Char × JsonTree) → List Char
  | [] => []
  | (key, value) :: rest => ',' :: (memberText key (written value) ++ writtenMembers rest)

end

def commaText (needed : Bool) : List Char := if needed then [','] else []

@[simp] theorem checkComma_output (s : StreamingJson) :
    s.checkComma.output = s.output ++ commaText s.needsComma := by
  cases hs : s.needsComma <;> simp [checkComma, commaText, hs]

theorem key_eq {str : List Char} (h : Plain str) (s : StreamingJson) :
    s.key str = { needsComma := false
                  output := s.output ++ commaText s.needsComma ++ memberText str [] } := by
  have houtput : (s.key str).output =
      s.output ++ commaText s.needsComma ++ memberText str [] := by
    simp [key, print, beginStr, endStr, cStr_of_plain h, memberText]
  rw [← houtput]
  rfl

theorem val_eq_cStr (str : List Char) (s : StreamingJson) :
    s.val str = { needsComma := true
                  output := s.output ++ commaText s.needsComma ++ '"' :: (cStr str ++ ['"']) } := by
  simp [val, print, beginStr, endStr, requireComma]

theorem val_eq {str : List Char} (h : Plain str) (s : StreamingJson) :
    s.val str = { needsComma := true
                  output := s.output ++ commaText s.needsComma ++ '"' :: (str ++ ['"']) } := by
  rw [val_eq_cStr, cStr_of_plain h]

theorem kvNumber_eq {key : List Char} (hkey : Plain key) (literal : List Char)
    (s : StreamingJson) :
    s.kvNumber key literal =
      { needsComma := true
        output := s.output ++ commaText s.needsComma ++ memberText key literal } := by
  simp [kvNumber, key_eq hkey, valNumber, print, requireComma, commaText, memberText]

section Printed

open JsonValue (printed printedElements printedMembers separated separatedRest separatedMembers
  numbers numbersElements numbersMembers plainElements plainMembers valued valuedElements
  valuedMembers)

variable {print : ν → List Char}

@[simp] theorem isContainer_printed (v : JsonValue ν) :
    Lucidac.isContainer (v.printed print) = v.isContainer := by
  cases v <;> rfl

mutual

theorem emit_eq : ∀ (v : JsonValue ν) (_ : Writable (v.printed print)) (s : StreamingJson),
    emit print v s =
      { needsComma := true
        output := s.output ++ commaText (s.needsComma && !v.isContainer) ++
          written (v.printed print) }
  | .null, _, s => by
    simp [emit, null, StreamingJson.print, requireComma, written, printed, JsonValue.isContainer]
  | .bool b, _, s => by
    simp [emit, valBool, StreamingJson.print, requireComma, written, printed,
      JsonValue.isContainer]
  | .number x, _, s => by
    simp [emit, valNumber, StreamingJson.print, requireComma, written, printed,
      JsonValue.isContainer]
  | .string str, h, s => by
    simp [emit, val_eq (show Plain str from h), written, printed, JsonValue.isContainer]
  | .array [], _, s => by
    simp [emit, emitElements, beginList, endList, StreamingJson.print, requireComma, written,
      printed, printedElements, JsonValue.isContainer, commaText]
  | .array (first :: rest), h, s => by
    rw [emit, emitElements, emit_eq first h.1, emitElements_eq rest h.2]
    simp [beginList, endList, StreamingJson.print, requireComma, written, printed,
      printedElements, JsonValue.isContainer, commaText]
  | .object [], _, s => by
    simp [emit, emitMembers, beginDict, endDict, StreamingJson.print, requireComma, written,
      printed, printedMembers, JsonValue.isContainer, commaText]
  | .object ((key, value) :: rest), h, s => by
    rw [emit, emitMembers, key_eq h.1, emit_eq value h.2.1, emitMembers_eq rest h.2.2]
    simp [beginDict, endDict, StreamingJson.print, requireComma, written, printed,
      printedMembers, JsonValue.isContainer, commaText, memberText]

theorem emitElements_eq : ∀ (rest : List (JsonValue ν))
    (_ : writableElements (printedElements print rest)) (output : List Char),
    emitElements print rest { needsComma := true, output := output } =
      { needsComma := true, output := output ++ writtenRest (printedElements print rest) }
  | [], _, output => by simp [emitElements, printedElements, writtenRest]
  | element :: rest, h, output => by
    rw [emitElements, emit_eq element h.1, emitElements_eq rest h.2]
    cases helement : element.isContainer <;>
      simp [printedElements, writtenRest, commaText, helement]

theorem emitMembers_eq : ∀ (rest : List (List Char × JsonValue ν))
    (_ : writableMembers (printedMembers print rest)) (output : List Char),
    emitMembers print rest { needsComma := true, output := output } =
      { needsComma := true, output := output ++ writtenMembers (printedMembers print rest) }
  | [], _, output => by simp [emitMembers, printedMembers, writtenMembers]
  | (key, value) :: rest, h, output => by
    rw [emitMembers, key_eq h.1, emit_eq value h.2.1, emitMembers_eq rest h.2.2]
    simp [printedMembers, writtenMembers, commaText, memberText]

end

mutual

theorem writable_printed : ∀ (v : JsonValue ν) (_ : v.PlainText)
    (_ : ∀ x ∈ v.numbers, isNumeral (print x) = true ∨ isWord (print x) = true),
    Writable (v.printed print)
  | .null, _, _ | .bool _, _, _ => trivial
  | .number x, _, h => h x (List.mem_singleton_self x)
  | .string _, hplain, _ => hplain
  | .array elements, hplain, h => writable_printedElements elements hplain h
  | .object members, hplain, h => writable_printedMembers members hplain h

theorem writable_printedElements : ∀ (elements : List (JsonValue ν)) (_ : plainElements elements)
    (_ : ∀ x ∈ numbersElements elements, isNumeral (print x) = true ∨ isWord (print x) = true),
    writableElements (printedElements print elements)
  | [], _, _ => trivial
  | element :: rest, hplain, h =>
    ⟨writable_printed element hplain.1 fun x hx => h x (List.mem_append_left _ hx),
      writable_printedElements rest hplain.2 fun x hx => h x (List.mem_append_right _ hx)⟩

theorem writable_printedMembers : ∀ (members : List (List Char × JsonValue ν))
    (_ : plainMembers members)
    (_ : ∀ x ∈ numbersMembers members, isNumeral (print x) = true ∨ isWord (print x) = true),
    writableMembers (printedMembers print members)
  | [], _, _ => trivial
  | (_, value) :: rest, hplain, h =>
    ⟨hplain.1, writable_printed value hplain.2.1 fun x hx => h x (List.mem_append_left _ hx),
      writable_printedMembers rest hplain.2.2 fun x hx => h x (List.mem_append_right _ hx)⟩

end

mutual

theorem readable_printed_iff : ∀ v : JsonValue ν, readable (v.printed print) = true ↔
    v.separated = true ∧ ∀ x ∈ v.numbers, isNumeral (print x) = true
  | .null | .bool _ | .string _ => by simp [readable, printed, separated, numbers]
  | .number x => by simp [readable, printed, separated, numbers]
  | .array [] => by simp [readable, printed, printedElements, separated, numbers, numbersElements]
  | .array (first :: rest) => by
    simp only [printed, printedElements, readable, separated, numbers, numbersElements,
      Bool.and_eq_true, List.forall_mem_append]
    rw [readable_printed_iff first, readableRest_printed_iff rest]
    exact and_and_and_comm
  | .object members => readableMembers_printed_iff members

theorem readableRest_printed_iff : ∀ rest : List (JsonValue ν),
    readableRest (printedElements print rest) = true ↔
      separatedRest rest = true ∧ ∀ x ∈ numbersElements rest, isNumeral (print x) = true
  | [] => by simp [readableRest, printedElements, separatedRest, numbersElements]
  | element :: rest => by
    simp only [printedElements, readableRest, separatedRest, numbersElements, Bool.and_eq_true,
      List.forall_mem_append, isContainer_printed]
    rw [readable_printed_iff element, readableRest_printed_iff rest]
    constructor
    · rintro ⟨⟨hscalar, hseparated, hnumbers⟩, hrest, hothers⟩
      exact ⟨⟨⟨hscalar, hseparated⟩, hrest⟩, hnumbers, hothers⟩
    · rintro ⟨⟨⟨hscalar, hseparated⟩, hrest⟩, hnumbers, hothers⟩
      exact ⟨⟨hscalar, hseparated, hnumbers⟩, hrest, hothers⟩

theorem readableMembers_printed_iff : ∀ members : List (List Char × JsonValue ν),
    readableMembers (printedMembers print members) = true ↔
      separatedMembers members = true ∧ ∀ x ∈ numbersMembers members, isNumeral (print x) = true
  | [] => by simp [readableMembers, printedMembers, separatedMembers, numbersMembers]
  | (_, value) :: rest => by
    simp only [printedMembers, readableMembers, separatedMembers, numbersMembers, Bool.and_eq_true,
      List.forall_mem_append]
    rw [readable_printed_iff value, readableMembers_printed_iff rest]
    exact and_and_and_comm

end

mutual

theorem valued_printed_iff {value : List Char → ν} : ∀ v : JsonValue ν,
    valued value (v.printed print) = v ↔ ∀ x ∈ v.numbers, value (print x) = x
  | .null | .bool _ | .string _ => by simp [valued, printed, numbers]
  | .number x => by simp [valued, printed, numbers]
  | .array elements => by
    simp only [valued, printed, numbers, JsonValue.array.injEq]
    exact valuedElements_printed_iff elements
  | .object members => by
    simp only [valued, printed, numbers, JsonValue.object.injEq]
    exact valuedMembers_printed_iff members

theorem valuedElements_printed_iff {value : List Char → ν} : ∀ elements : List (JsonValue ν),
    valuedElements value (printedElements print elements) = elements ↔
      ∀ x ∈ numbersElements elements, value (print x) = x
  | [] => by simp [valuedElements, printedElements, numbersElements]
  | element :: rest => by
    simp only [valuedElements, printedElements, numbersElements, List.cons.injEq,
      List.forall_mem_append]
    rw [valued_printed_iff element, valuedElements_printed_iff rest]

theorem valuedMembers_printed_iff {value : List Char → ν} :
    ∀ members : List (List Char × JsonValue ν),
    valuedMembers value (printedMembers print members) = members ↔
      ∀ x ∈ numbersMembers members, value (print x) = x
  | [] => by simp [valuedMembers, printedMembers, numbersMembers]
  | (_, v) :: rest => by
    simp only [valuedMembers, printedMembers, numbersMembers, List.cons.injEq, Prod.mk.injEq,
      true_and, List.forall_mem_append]
    rw [valued_printed_iff v, valuedMembers_printed_iff rest]

end

end Printed

theorem writableElements_iff {elements : List JsonTree} :
    writableElements elements ↔ ∀ e ∈ elements, Writable e := by
  induction elements with
  | nil => simp [writableElements]
  | cons e rest ih => simp [writableElements, ih]

theorem writableMembers_iff {members : List (List Char × JsonTree)} :
    writableMembers members ↔ ∀ m ∈ members, Plain m.1 ∧ Writable m.2 := by
  induction members with
  | nil => simp [writableMembers]
  | cons m rest ih => simp [writableMembers, ih, and_assoc]

theorem readableRest_iff {rest : List JsonTree} :
    readableRest rest = true ↔ ∀ e ∈ rest, isContainer e = false ∧ readable e = true := by
  induction rest with
  | nil => simp [readableRest]
  | cons e rest ih => simp [readableRest, ih]

theorem readableMembers_iff {members : List (List Char × JsonTree)} :
    readableMembers members = true ↔ ∀ m ∈ members, readable m.2 = true := by
  induction members with
  | nil => simp [readableMembers]
  | cons m rest ih => simp [readableMembers, ih]

theorem intercalate_written {first : JsonTree} {rest : List JsonTree}
    (h : readableRest rest = true) :
    List.intercalate [','] (written first :: rest.map written) =
      written first ++ writtenRest rest := by
  induction rest generalizing first with
  | nil => simp [writtenRest]
  | cons element rest ih =>
    simp only [readableRest, Bool.and_eq_true, Bool.not_eq_true'] at h
    rw [List.map_cons, List.intercalate_cons_cons, ih h.2, writtenRest, h.1.1]
    simp

theorem intercalate_writtenMembers {key : List Char} {value : JsonTree}
    {rest : List (List Char × JsonTree)} :
    List.intercalate [','] (memberText key (written value) ::
        rest.map fun m => memberText m.1 (written m.2)) =
      memberText key (written value) ++ writtenMembers rest := by
  induction rest generalizing key value with
  | nil => simp [writtenMembers]
  | cons m rest ih =>
    rw [List.map_cons, List.intercalate_cons_cons, ih, writtenMembers]
    simp

/-- Without a container in the wrong place every comma is there, and every number is one. -/
theorem denotes_written {t : JsonTree} (hw : Writable t) (hs : readable t = true) :
    Denotes (written t) t := by
  induction t using JsonTree.induction with
  | null => exact denotes_null
  | bool b =>
    cases b with
    | false => exact denotes_false
    | true => exact denotes_true
  | number literal => exact denotes_number hs
  | string str => exact denotes_string hw
  | array elements ih =>
    rw [Writable, writableElements_iff] at hw
    have hdenotes : ∀ e ∈ elements, readable e = true → Denotes (written e) e :=
      fun e he => ih e he (hw e he)
    have harray := denotes_array (elements.map fun e => (written e, e))
    simp only [List.map_map, Function.comp_def, List.map_id', List.forall_mem_map] at harray
    cases elements with
    | nil => exact harray (fun e he => absurd he (by simp))
    | cons first rest =>
      simp only [readable, Bool.and_eq_true] at hs
      rw [List.map_cons, intercalate_written hs.2] at harray
      apply harray
      rw [readableRest_iff] at hs
      intro e he
      apply hdenotes e he
      rcases List.mem_cons.mp he with rfl | he
      · exact hs.1
      · exact (hs.2 e he).2
  | object members ih =>
    rw [Writable, writableMembers_iff] at hw
    rw [readable, readableMembers_iff] at hs
    have hobject := denotes_object (members.map fun m => ⟨m.1, written m.2, m.2⟩)
    simp only [List.map_map, Function.comp_def, List.map_id', List.forall_mem_map] at hobject
    have hdenotes := hobject
      (fun m hm => ⟨(hw m hm).1, ih m hm (hw m hm).2 (hs m hm)⟩)
    cases members with
    | nil => exact hdenotes
    | cons m rest =>
      rw [List.map_cons, intercalate_writtenMembers] at hdenotes
      exact hdenotes

theorem isWord_cases {text : List Char} (h : isWord text = true) :
    text = ['n', 'a', 'n'] ∨ text = ['i', 'n', 'f'] ∨ text = ['o', 'v', 'f'] := by
  simpa only [isWord, Bool.or_eq_true, beq_iff_eq, or_assoc] using h

theorem parseValue_word {text more : List Char} (h : isWord text = true) (fuel : Nat) :
    parseValue fuel (text ++ more) = none := by
  cases fuel with
  | zero => rfl
  | succ fuel =>
    rcases isWord_cases h with rfl | rfl | rfl <;>
      exact (parseValue_scalar (skipSpace_cons rfl) (by decide)).trans rfl

theorem written_cons {t : JsonTree} (hw : Writable t) :
    ∃ c rest, written t = c :: rest ∧ isBlank c = false ∧ c ≠ ']' := by
  cases t with
  | null => exact ⟨'n', _, rfl, by decide⟩
  | bool b =>
    cases b with
    | false => exact ⟨'f', _, rfl, by decide⟩
    | true => exact ⟨'t', _, rfl, by decide⟩
  | number literal =>
    rcases hw with hnumeral | hword
    · obtain ⟨c, rest, rfl, hc⟩ := isNumeral_cons hnumeral
      refine ⟨c, rest, rfl, isBlank_of_number hc, ?_⟩
      rintro rfl
      revert hc
      decide
    · rcases isWord_cases hword with rfl | rfl | rfl
      · exact ⟨'n', _, rfl, by decide⟩
      · exact ⟨'i', _, rfl, by decide⟩
      · exact ⟨'o', _, rfl, by decide⟩
  | string str => exact ⟨'"', _, rfl, by decide⟩
  | array elements =>
    cases elements with
    | nil => exact ⟨'[', _, rfl, by decide⟩
    | cons first rest => exact ⟨'[', _, rfl, by decide⟩
  | object members =>
    cases members with
    | nil => exact ⟨'{', _, rfl, by decide⟩
    | cons m rest => exact ⟨'{', _, rfl, by decide⟩

theorem written_container {t : JsonTree} (h : isContainer t = true) :
    ∃ c rest, written t = c :: rest ∧ (c = '[' ∨ c = '{') := by
  cases t with
  | array elements => cases elements <;> exact ⟨'[', _, rfl, .inl rfl⟩
  | object members => cases members <;> exact ⟨'{', _, rfl, .inr rfl⟩
  | null | bool b | number literal | string str => cases h

theorem delimited_writtenRest {rest : List JsonTree} {more : List Char} :
    Delimited (writtenRest rest ++ ']' :: more) := by
  cases rest with
  | nil => exact delimited_cons rfl
  | cons element rest =>
    cases hc : isContainer element with
    | false =>
      simp only [writtenRest, hc]
      exact delimited_cons rfl
    | true =>
      obtain ⟨c, tail, hwritten, hbracket⟩ := written_container hc
      simp only [writtenRest, hc, hwritten]
      apply delimited_cons
      rcases hbracket with rfl | rfl <;> rfl

theorem delimited_writtenMembers {rest : List (List Char × JsonTree)} {more : List Char} :
    Delimited (writtenMembers rest ++ '}' :: more) := by
  cases rest with
  | nil => exact delimited_cons rfl
  | cons m rest => exact delimited_cons rfl

/-- The reader stops at the first container that is not readable from what is before it. -/
theorem parseItems_not_readable {first : JsonTree} {rest : List JsonTree}
    (hw : ∀ e ∈ first :: rest, Writable e)
    (hnone : ∀ e ∈ first :: rest, readable e = false → ∀ (fuel : Nat) (more : List Char),
      Delimited more → parseValue fuel (written e ++ more) = none)
    (hs : (readable first && readableRest rest) = false) (fuel count : Nat) (more : List Char) :
    parseItems (parseValue fuel) ']' count (written first ++ writtenRest rest ++ ']' :: more) =
      none := by
  rw [List.append_assoc]
  induction rest generalizing first fuel count with
  | nil =>
    have hfirst : readable first = false := by simpa [readableRest] using hs
    exact parseItems_none_of_item
      (fun fuel => hnone first (by simp) hfirst fuel _ delimited_writtenRest) fuel count
  | cons element rest ih =>
    by_cases hfirst : readable first = false
    · exact parseItems_none_of_item
        (fun fuel => hnone first (by simp) hfirst fuel _ delimited_writtenRest) fuel count
    · have hfirst' : readable first = true := by simpa using hfirst
      have hreads := (denotes_written (hw first (by simp)) hfirst').reads
      cases hc : isContainer element with
      | true =>
        obtain ⟨c, tail, hwritten, hbracket⟩ := written_container hc
        have hnext : writtenRest (element :: rest) ++ ']' :: more =
            c :: (tail ++ (writtenRest rest ++ ']' :: more)) := by
          simp [writtenRest, hc, hwritten]
        apply hreads.parseItems_none (fun _ _ hle => extends_parseValue hle) delimited_writtenRest
          (c := c)
        · rw [hnext]
          apply skipSpace_cons
          rcases hbracket with rfl | rfl <;> rfl
        · rcases hbracket with rfl | rfl <;> decide
      | false =>
        have hnext : writtenRest (element :: rest) ++ ']' :: more =
            ',' :: (written element ++ (writtenRest rest ++ ']' :: more)) := by
          simp [writtenRest, hc]
        rw [hnext]
        apply hreads.parseItems_none_of_rest (fun _ _ hle => extends_parseValue hle)
        have hrest : (readable element && readableRest rest) = false := by
          simpa [readableRest, hc, hfirst'] using hs
        intro fuel count
        exact ih (fun e he => hw e (List.mem_cons_of_mem _ he))
          (fun e he => hnone e (List.mem_cons_of_mem _ he)) hrest fuel count

theorem parseItems_not_readableMembers {first : List Char × JsonTree}
    {rest : List (List Char × JsonTree)}
    (hw : ∀ m ∈ first :: rest, Plain m.1 ∧ Writable m.2)
    (hnone : ∀ m ∈ first :: rest, readable m.2 = false → ∀ (fuel : Nat) (more : List Char),
      Delimited more → parseValue fuel (written m.2 ++ more) = none)
    (hs : readableMembers (first :: rest) = false) (fuel count : Nat) (more : List Char) :
    parseItems (parseMember (parseValue fuel)) '}' count
      (memberText first.1 (written first.2) ++ writtenMembers rest ++ '}' :: more) = none := by
  have hmono : ∀ fuel fuel' : Nat, fuel ≤ fuel' →
      Extends (parseMember (parseValue fuel)) (parseMember (parseValue fuel')) :=
    fun _ _ hle => extends_parseMember (extends_parseValue hle)
  have hitem : ∀ m ∈ first :: rest, readable m.2 = false → ∀ (fuel : Nat) (more : List Char),
      Delimited more →
      parseMember (parseValue fuel) (memberText m.1 (written m.2) ++ more) = none := by
    intro m hm hsep fuel more hmore
    rw [memberText_append, parseMember_memberText (hw m hm).1, hnone m hm hsep fuel more hmore]
    rfl
  rw [List.append_assoc]
  induction rest generalizing first fuel count with
  | nil =>
    have hfirst : readable first.2 = false := by simpa [readableMembers] using hs
    exact parseItems_none_of_item
      (fun fuel => hitem first (by simp) hfirst fuel _ delimited_writtenMembers) fuel count
  | cons m rest ih =>
    by_cases hfirst : readable first.2 = false
    · exact parseItems_none_of_item
        (fun fuel => hitem first (by simp) hfirst fuel _ delimited_writtenMembers) fuel count
    · have hfirst' : readable first.2 = true := by simpa using hfirst
      have hwritable := hw first (by simp)
      have hreads := (denotes_written hwritable.2 hfirst').reads_member hwritable.1
      have hnext : writtenMembers (m :: rest) ++ '}' :: more =
          ',' :: (memberText m.1 (written m.2) ++ (writtenMembers rest ++ '}' :: more)) := by
        simp [writtenMembers]
      rw [hnext]
      apply hreads.parseItems_none_of_rest hmono
      have hrest : readableMembers (m :: rest) = false := by
        simpa [readableMembers, hfirst'] using hs
      intro fuel count
      exact ih (fun e he => hw e (List.mem_cons_of_mem _ he))
        (fun e he => hnone e (List.mem_cons_of_mem _ he)) hrest fuel count
        (fun e he => hitem e (List.mem_cons_of_mem _ he))

/-- Where a comma is missing, or a word stands for a number, the text is no JSON at all. -/
theorem parseValue_not_readable {t : JsonTree} (hw : Writable t) (hs : readable t = false)
    (fuel : Nat) (more : List Char) (hmore : Delimited more) :
    parseValue fuel (written t ++ more) = none := by
  induction t using JsonTree.induction generalizing fuel more with
  | null | bool b | string str => cases hs
  | number literal =>
    have hword : isWord literal = true := hw.resolve_left fun hnumeral => by
      rw [readable, hnumeral] at hs
      cases hs
    exact parseValue_word hword fuel
  | array elements ih =>
    rw [Writable, writableElements_iff] at hw
    cases elements with
    | nil => cases hs
    | cons first rest =>
      cases fuel with
      | zero => rfl
      | succ fuel =>
        obtain ⟨c, tail, hwritten, hspace, hc⟩ := written_cons (hw first (by simp))
        have hnone := parseItems_not_readable hw
          (fun e he hsep fuel more hmore => ih e he (hw e he) hsep fuel more hmore) hs fuel fuel
        have htext : written (.array (first :: rest)) ++ more =
            '[' :: (written first ++ writtenRest rest ++ ']' :: more) := by
          simp [written]
        have hhead : skipSpace (written first ++ writtenRest rest ++ ']' :: more) =
            c :: (tail ++ writtenRest rest ++ ']' :: more) := by
          rw [hwritten]
          exact skipSpace_cons hspace
        rw [htext, parseValue_array (skipSpace_cons rfl), parseList_eq_parseItems hhead hc,
          hnone more]
        rfl
  | object members ih =>
    rw [Writable, writableMembers_iff] at hw
    cases members with
    | nil => cases hs
    | cons first rest =>
      cases fuel with
      | zero => rfl
      | succ fuel =>
        have hnone := parseItems_not_readableMembers hw
          (fun m hm hsep fuel more hmore => ih m hm (hw m hm).2 hsep fuel more hmore) hs fuel fuel
        have htext : written (.object (first :: rest)) ++ more =
            '{' :: (memberText first.1 (written first.2) ++ writtenMembers rest ++
              '}' :: more) := by
          simp [written]
        have hhead : skipSpace (memberText first.1 (written first.2) ++ writtenMembers rest ++
            '}' :: more) = _ := skipSpace_cons rfl
        rw [htext, parseValue_object (skipSpace_cons rfl),
          parseList_eq_parseItems hhead (by decide), hnone more]
        rfl

section Main

variable {print : ν → List Char} {value : List Char → ν}

theorem emit_output {v : JsonValue ν} (hw : Writable (v.printed print)) :
    (emit print v StreamingJson.empty).output = written (v.printed print) := by
  rw [emit_eq v hw]
  rfl

theorem ReadsBack.printed {v : JsonValue ν} (hw : Writable (v.printed print))
    (h : ReadsBack value (emit print v StreamingJson.empty).output v) :
    readable (v.printed print) = true ∧ JsonValue.valued value (v.printed print) = v := by
  rw [emit_output hw] at h
  obtain ⟨tree, ⟨fuel, rest, hparse, hrest⟩, hvalue⟩ := h
  have hreadable : readable (v.printed print) = true := by
    by_contra hs
    have hnone := parseValue_not_readable hw (by simpa using hs) fuel [] delimited_nil
    rw [List.append_nil, hparse] at hnone
    cases hnone
  refine ⟨hreadable, ?_⟩
  rw [← List.append_nil (written _)] at hparse
  have hsame := ((denotes_written hw hreadable).eq_of_some delimited_nil hparse).1
  rw [← hsame]
  exact hvalue

/-- The calls for a value write a text that reads back as the value exactly if no array has an
array or an object in another than the first place, and every number is written exactly. -/
theorem emit_denotes_iff (print : ν → List Char) (value : List Char → ν) (v : JsonValue ν)
    (hplain : v.PlainText)
    (hprint : ∀ x ∈ v.numbers, isNumeral (print x) = true ∨ isWord (print x) = true) :
    ReadsBack value (emit print v StreamingJson.empty).output v ↔
      v.separated = true ∧ ∀ x ∈ v.numbers, WrittenExactly print value x := by
  have hw := writable_printed v hplain hprint
  constructor
  · intro h
    obtain ⟨hreadable, hvalue⟩ := h.printed hw
    obtain ⟨hseparated, hnumerals⟩ := (readable_printed_iff v).mp hreadable
    exact ⟨hseparated, fun x hx => ⟨hnumerals x hx, (valued_printed_iff v).mp hvalue x hx⟩⟩
  · rintro ⟨hseparated, hexact⟩
    have hreadable := (readable_printed_iff v).mpr ⟨hseparated, fun x hx => (hexact x hx).1⟩
    rw [emit_output hw]
    exact ⟨_, denotes_written hw hreadable,
      (valued_printed_iff v).mpr fun x hx => (hexact x hx).2⟩

/-- The numbers that are handed to `val`. -/
private inductive Num where
  | integer (n : Int)
  | double (x : ℚ)
deriving DecidableEq

/-- `Print::print` writes two decimals, and a word for a number that is too large. -/
private def Num.printText : Num → List Char
  | .integer n => (if n < 0 then ['-'] else []) ++ Nat.toDigits 10 n.natAbs
  | .double x =>
    let hundredths := (|x| * 100 + 1 / 2).floor.toNat
    if 4294967040 < |x| then ['o', 'v', 'f']
    else (if x < 0 then ['-'] else []) ++ Nat.toDigits 10 (hundredths / 100) ++
      ['.', Nat.digitChar (hundredths / 10 % 10), Nat.digitChar (hundredths % 10)]

private def digitsNumber (digits : List Char) : Nat :=
  digits.foldl (fun n c => 10 * n + (c.toNat - '0'.toNat)) 0

/-- The number of a numeral without an exponent. -/
private def Num.ofNumeral (literal : List Char) : Num :=
  let digits := literal.filter (· ≠ '-')
  let decimals := (digits.dropWhile (· ≠ '.')).drop 1
  let size := decimals.foldl (fun (x : ℚ) _ => x / 10)
    (digitsNumber (digits.takeWhile (· ≠ '.') ++ decimals) : ℚ)
  let x := if literal.head? = some '-' then -size else size
  if digits.contains '.' then .double x else .integer x.num

/-- `{"foo":"bar","biz":[123,true,3.14,null]}` -/
private def documented : JsonValue Num :=
  .object [(['f', 'o', 'o'], .string ['b', 'a', 'r']),
    (['b', 'i', 'z'], .array [.number (.integer 123), .bool true, .number (.double (314 / 100)),
      .null])]

theorem emit_denotes_documented :
    (emit Num.printText documented StreamingJson.empty).output =
        "\x7b\"foo\":\"bar\",\"biz\":[123,true,3.14,null]\x7d".toList ∧
      ReadsBack Num.ofNumeral (emit Num.printText documented StreamingJson.empty).output
        documented := by
  have hplain : documented.PlainText := by
    simp only [documented, JsonValue.PlainText, JsonValue.plainMembers, JsonValue.plainElements]
    decide
  have hexact : ∀ x ∈ documented.numbers, WrittenExactly Num.printText Num.ofNumeral x := by
    have hnumbers : documented.numbers = [.integer 123, .double (314 / 100)] := rfl
    simp only [hnumbers, List.forall_mem_cons, WrittenExactly]
    exact ⟨by decide +kernel, by decide +kernel, by simp⟩
  exact ⟨by decide +kernel, (emit_denotes_iff Num.printText Num.ofNumeral documented hplain
    fun x hx => Or.inl (hexact x hx).1).mpr ⟨by decide, hexact⟩⟩

/-- A matrix, with no comma between its rows; and numbers that have more than two decimals or are
too large. -/
theorem emit_not_denotes_matrix :
    ((emit Num.printText (.array [.array [.number (.integer 1)], .array [.number (.integer 2)]])
        StreamingJson.empty).output = "[[1][2]]".toList ∧
      ¬ ReadsBack Num.ofNumeral
        (emit Num.printText (.array [.array [.number (.integer 1)], .array [.number (.integer 2)]])
          StreamingJson.empty).output
        (.array [.array [.number (.integer 1)], .array [.number (.integer 2)]])) ∧
    ((emit Num.printText (.number (.double (314159 / 100000))) StreamingJson.empty).output =
        "3.14".toList ∧
      ¬ ReadsBack Num.ofNumeral
        (emit Num.printText (.number (.double (314159 / 100000))) StreamingJson.empty).output
        (.number (.double (314159 / 100000)))) ∧
    (emit Num.printText (.number (.double 5000000000)) StreamingJson.empty).output = "ovf".toList ∧
      ¬ ReadsBack Num.ofNumeral
        (emit Num.printText (.number (.double 5000000000)) StreamingJson.empty).output
        (.number (.double 5000000000)) := by
  refine ⟨⟨by decide +kernel, fun h => ?_⟩, ⟨by decide +kernel, fun h => ?_⟩, by decide +kernel,
    fun h => ?_⟩
  · have hw : Writable (JsonValue.printed Num.printText
        (.array [.array [.number (.integer 1)], .array [.number (.integer 2)]])) :=
      ⟨⟨Or.inl (by decide +kernel), trivial⟩, ⟨Or.inl (by decide +kernel), trivial⟩, trivial⟩
    exact absurd (h.printed hw).1 (by decide +kernel)
  · have hw : Writable (JsonValue.printed Num.printText (.number (.double (314159 / 100000)))) :=
      Or.inl (by decide +kernel)
    have hvalue := (h.printed hw).2
    simp only [JsonValue.printed, JsonValue.valued, JsonValue.number.injEq] at hvalue
    exact absurd hvalue (by decide +kernel)
  · have hw : Writable (JsonValue.printed Num.printText (.number (.double 5000000000))) :=
      Or.inr (by decide +kernel)
    exact absurd (h.printed hw).1 (by decide +kernel)

end Main

end Natural

end Lucidac
