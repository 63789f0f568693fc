import Lucidac.Framework.JsonSerialize
import Lucidac.Utils.StreamingJson

/-!
# Run data, streamed

The samples of a run without streaming are sent in one message, which is written while the matrix
is traversed.
-/

namespace Lucidac.Protocol

open Framework.JsonText

/-- The message with run data: the samples as rows of numbers, in the order they were taken. -/
def runDataMessage (runId entityId : List Char) (rows : List (List (List Char))) : JsonTree :=
  .object
    [("type".toList, .string "run_data".toList),
     ("msg".toList, .object
       [("id".toList, .string runId),
        ("entity".toList, .array [.string entityId, .string "0".toList]),
        ("data".toList, .array (rows.map fun row => .array (row.map .number)))])]

/-- Less than ten with three digits after the point. -/
def thousandths (n : Nat) : List Char :=
  [Nat.digitChar (n / 1000), '.', Nat.digitChar (n / 100 % 10), Nat.digitChar (n / 10 % 10),
    Nat.digitChar (n % 10)]

theorem isNumeral_thousandths {n : Nat} (h : n < 10000) : isNumeral (thousandths n) = true := by
  apply isNumeral_fixed (isDigit_digitChar (by omega)) (isDigit_digitChar (by omega))
  simp [isDigit_digitChar (show n / 10 % 10 < 10 by omega),
    isDigit_digitChar (show n % 10 < 10 by omega)]

theorem isNumeral_minus_thousandths {n : Nat} (h : n < 10000) :
    isNumeral ('-' :: thousandths n) = true := by
  apply isNumeral_minus_fixed (isDigit_digitChar (by omega)) (isDigit_digitChar (by omega))
  simp [isDigit_digitChar (show n / 10 % 10 < 10 by omega),
    isDigit_digitChar (show n % 10 < 10 by omega)]

/-- `printf("% 1.3f", raw_to_float(number))` -/
structure FixedDecimal where
  literal : BitVec 16 → List Char
  isNumeral : ∀ number, Framework.JsonText.isNumeral (literal number) = true

namespace FixedDecimal

/-- The flag asks for a blank in the place of a missing sign. -/
def printf (format : FixedDecimal) (number : BitVec 16) : List Char :=
  if (format.literal number).head? = some '-' then format.literal number
  else ' ' :: format.literal number

theorem denotes_printf (format : FixedDecimal) (number : BitVec 16) :
    Denotes (format.printf number) (.number (format.literal number)) := by
  have hnumber := denotes_number (format.isNumeral number)
  unfold printf
  split
  · exact hnumber
  · exact hnumber.space_cons rfl

end FixedDecimal

section Handler

variable (format : FixedDecimal) (data : Nat → BitVec 16) (outerCount innerCount : Nat)

def streamNumber (outer : Nat) (doc : StreamingJson) (inner : Nat) : StreamingJson :=
  ((doc.checkComma).print (format.printf (data (outer * innerCount + inner)))).requireComma

def streamRow (doc : StreamingJson) (outer : Nat) : StreamingJson :=
  let doc := ((List.range innerCount).foldl (streamNumber format data innerCount outer)
    doc.beginList).endList
  if outer ≠ outerCount - 1 then doc.checkComma else doc

/-- `StreamingRunDataNotificationHandler::handle` -/
def streamingHandle (entityId runId : List Char) : StreamingJson :=
  let doc := StreamingJson.empty.beginDict
  let doc := doc.kv "type".toList "run_data".toList
  let doc := (doc.key "msg".toList).beginDict
  let doc := doc.kv "id".toList runId
  let doc := (((doc.key "entity".toList).beginList.val entityId).val "0".toList).endList
  let doc := (doc.key "data".toList).beginList
  let doc := (List.range outerCount).foldl (streamRow format data outerCount innerCount) doc
  doc.endList.endDict.endDict.endln

/-- The numbers of one row as they are printed. -/
def printedRow (outer : Nat) : List (List Char) :=
  (List.range innerCount).map fun inner => format.printf (data (outer * innerCount + inner))

def rowText (outer : Nat) : List Char :=
  '[' :: (List.intercalate [','] (printedRow format data innerCount outer) ++ [']'])

/-- The numbers of the matrix, row by row. -/
def dataRows : List (List (List Char)) :=
  (List.range outerCount).map fun outer =>
    (List.range innerCount).map fun inner => format.literal (data (outer * innerCount + inner))

variable {format data outerCount innerCount}

/-- The numbers of a row are separated by the comma before each but the first. -/
theorem foldl_streamNumber (outer count : Nat) (output : List Char) :
    (List.range count).foldl (streamNumber format data innerCount outer)
        { needsComma := false, output := output } =
      { needsComma := decide (0 < count)
        output := output ++ List.intercalate [','] ((List.range count).map fun inner =>
          format.printf (data (outer * innerCount + inner))) } := by
  induction count with
  | zero => simp
  | succ count ih =>
    rw [List.range_succ, List.foldl_append, ih, List.map_append, List.map_singleton,
      intercalate_concat]
    cases count with
    | zero => simp [streamNumber, StreamingJson.print, StreamingJson.requireComma, commaText]
    | succ count =>
      simp [streamNumber, StreamingJson.print, StreamingJson.requireComma, commaText]

theorem streamRow_eq (outer : Nat) (doc : StreamingJson) :
    streamRow format data outerCount innerCount doc outer =
      { needsComma := decide (outer = outerCount - 1)
        output := doc.output ++ rowText format data innerCount outer ++
          commaText (decide (outer ≠ outerCount - 1)) } := by
  have hbegin : doc.beginList = { needsComma := false, output := doc.output ++ ['['] } := rfl
  rw [streamRow, hbegin, foldl_streamNumber]
  by_cases hlast : outer = outerCount - 1
  · simp [hlast, StreamingJson.endList, StreamingJson.print, StreamingJson.requireComma, rowText,
      printedRow, commaText]
  · simp [hlast, StreamingJson.endList, StreamingJson.print, StreamingJson.requireComma,
      StreamingJson.checkComma, rowText, printedRow, commaText]

/-- The rows are separated by the comma that is written after each but the last. -/
theorem foldl_streamRow (count : Nat) (hcount : count ≤ outerCount) (output : List Char) :
    (List.range count).foldl (streamRow format data outerCount innerCount)
        { needsComma := false, output := output } =
      { needsComma := decide (0 < count ∧ count = outerCount)
        output := output ++
          List.intercalate [','] ((List.range count).map (rowText format data innerCount)) ++
          commaText (decide (0 < count ∧ count ≠ outerCount)) } := by
  induction count with
  | zero => simp [commaText]
  | succ count ih =>
    rw [List.range_succ, List.foldl_append, ih (by omega), List.map_append, List.map_singleton,
      intercalate_concat, List.foldl_cons, List.foldl_nil, streamRow_eq]
    have hlast : count = outerCount - 1 ↔ count + 1 = outerCount := by omega
    have hne : count ≠ outerCount := by omega
    cases count with
    | zero => simp [hlast, commaText]
    | succ count => simp [hlast, hne, commaText]

theorem denotes_rowText (outer : Nat) :
    Denotes (rowText format data innerCount outer)
      (.array (((List.range innerCount).map fun inner =>
        format.literal (data (outer * innerCount + inner))).map .number)) := by
  have h := denotes_array ((List.range innerCount).map fun inner =>
    (format.printf (data (outer * innerCount + inner)),
      .number (format.literal (data (outer * innerCount + inner)))))
  simp only [List.map_map, Function.comp_def, List.forall_mem_map] at h
  simpa [rowText, printedRow, Function.comp_def] using h fun inner _ => format.denotes_printf _

theorem denotes_dataText :
    Denotes ('[' :: (List.intercalate [',']
        ((List.range outerCount).map (rowText format data innerCount)) ++ [']']))
      (.array ((dataRows format data outerCount innerCount).map
        fun row => .array (row.map .number))) := by
  have h := denotes_array ((List.range outerCount).map fun outer =>
    (rowText format data innerCount outer,
      .array (((List.range innerCount).map fun inner =>
        format.literal (data (outer * innerCount + inner))).map .number)))
  simp only [List.map_map, Function.comp_def, List.forall_mem_map] at h
  simpa [dataRows, Function.comp_def] using h fun outer _ => by
    simpa [Function.comp_def] using denotes_rowText outer

/-- The texts of `msg` and of the whole message. -/
def msgText (runId entityId dataText : List Char) : List Char :=
  '{' :: (List.intercalate [',']
    [memberText "id".toList ('"' :: (runId ++ ['"'])),
     memberText "entity".toList
       ('[' :: (List.intercalate [','] ['"' :: (entityId ++ ['"']), ['"', '0', '"']] ++ [']'])),
     memberText "data".toList dataText] ++ ['}'])

def envelopeText (msg : List Char) : List Char :=
  '{' :: (List.intercalate [',']
    [memberText "type".toList ('"' :: ("run_data".toList ++ ['"'])),
     memberText "msg".toList msg] ++ ['}'])

theorem denotes_envelopeText {runId entityId dataText : List Char} {rows : List (List (List Char))}
    (hrun : Plain runId) (hentity : Plain entityId)
    (hdata : Denotes dataText (.array (rows.map fun row => .array (row.map .number)))) :
    Denotes (envelopeText (msgText runId entityId dataText))
      (runDataMessage runId entityId rows) := by
  have hzero : Denotes ['"', '0', '"'] (.string "0".toList) :=
    denotes_string (show Plain "0".toList by decide)
  have hpath := denotes_array
    [('"' :: (entityId ++ ['"']), .string entityId), (['"', '0', '"'], .string "0".toList)]
    (by
      simp only [List.forall_mem_cons]
      exact ⟨denotes_string hentity, hzero, by simp⟩)
  have hmsg := denotes_object
    [⟨"id".toList, _, _⟩, ⟨"entity".toList, _, _⟩, ⟨"data".toList, _, _⟩]
    (by
      simp only [List.forall_mem_cons]
      exact ⟨(denotes_string hrun).member (by decide), hpath.member (by decide),
        hdata.member (by decide), by simp⟩)
  exact denotes_object [⟨"type".toList, _, _⟩, ⟨"msg".toList, _, _⟩]
    (by
      simp only [List.forall_mem_cons]
      exact ⟨(denotes_string (by decide)).member (by decide), hmsg.member (by decide), by simp⟩)

theorem streamingHandle_output {entityId runId : List Char} (hrun : Plain runId)
    (hentity : Plain entityId) :
    (streamingHandle format data outerCount innerCount entityId runId).output =
      envelopeText (msgText runId entityId
        ('[' :: (List.intercalate [',']
          ((List.range outerCount).map (rowText format data innerCount)) ++ [']']))) ++
        ['\r', '\n'] := by
  have hfixed : Plain "type".toList ∧ Plain "run_data".toList ∧ Plain "msg".toList ∧
      Plain "id".toList ∧ Plain "entity".toList ∧ Plain "0".toList ∧ Plain "data".toList := by
    decide
  obtain ⟨htype, hrunData, hmsg, hid, hentityKey, hzero, hdata⟩ := hfixed
  simp only [streamingHandle, StreamingJson.kv, key_eq htype, val_eq hrunData, key_eq hmsg,
    key_eq hid, val_eq hrun, key_eq hentityKey, val_eq hentity, val_eq hzero, key_eq hdata,
    StreamingJson.empty, StreamingJson.beginDict, StreamingJson.beginList, StreamingJson.endList,
    StreamingJson.endDict, StreamingJson.endln, StreamingJson.print, StreamingJson.requireComma]
  rw [foldl_streamRow outerCount (Nat.le_refl outerCount)]
  simp [envelopeText, msgText, memberText, commaText]

/-- One JSON object with the samples in the order of the input, and a line end. -/
theorem streamingHandle_denotes (format : FixedDecimal) (data : Nat → BitVec 16)
    (outerCount innerCount : Nat) (entityId runId : List Char) (hrun : Plain runId)
    (hentity : Plain entityId) :
    Denotes (streamingHandle format data outerCount innerCount entityId runId).output
      (runDataMessage runId entityId (dataRows format data outerCount innerCount)) := by
  rw [streamingHandle_output hrun hentity]
  apply (denotes_envelopeText hrun hentity denotes_dataText).append_space
  · rfl
  · exact delimited_cons rfl

/-- `raw / 16383 * -2.5 + 1.25`, rounded to thousandths. -/
private def rounded : FixedDecimal where
  literal raw :=
    let below := (2500 * raw.toNat + 8191) / 16383
    if 2 * raw.toNat ≤ 16383 then thousandths (1250 - below) else '-' :: thousandths (below - 1250)
  isNumeral raw := by
    have hraw := raw.isLt
    simp only
    split
    · exact isNumeral_thousandths (by omega)
    · exact isNumeral_minus_thousandths (by omega)

/-- Two rows with the two ends of the range and two values between. -/
theorem streamingHandle_denotes_two_rows :
    let data : Nat → BitVec 16 := fun i => if i = 0 then 0 else if i = 1 then 16383 else 8000
    (streamingHandle rounded data 2 2 "04-E9-E5".toList "run".toList).output =
        ("\x7b\"type\":\"run_data\",\"msg\":\x7b\"id\":\"run\",\"entity\":[\"04-E9-E5\"," ++
          "\"0\"],\"data\":[[ 1.250,-1.250],[ 0.029, 0.029]]\x7d\x7d\r\n").toList ∧
      Denotes (streamingHandle rounded data 2 2 "04-E9-E5".toList "run".toList).output
        (runDataMessage "run".toList "04-E9-E5".toList (dataRows rounded data 2 2)) :=
  ⟨by decide, streamingHandle_denotes rounded _ 2 2 _ _ (by decide) (by decide)⟩

end Handler

end Lucidac.Protocol
