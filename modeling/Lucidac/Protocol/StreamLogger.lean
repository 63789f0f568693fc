import Lucidac.Framework.JsonSerialize
import Lucidac.Framework.Lines
import Lucidac.Utils.StreamingJson
import Mathlib.Algebra.Group.Nat.Defs
import Mathlib.Data.List.Induction

/-!
# The log

Everything that is logged passes through a formatter, which turns each line into one JSON object
while the bytes arrive.  One of the sinks behind it keeps the latest lines, and sends them as they
are inside another document when it is asked for them.
-/

namespace Lucidac.Protocol

open Framework.JsonText Framework.Lines

/-- Bytes are read as characters one by one.  Neither side checks that strings are UTF-8. -/
def byteChar (b : UInt8) : Char := Char.ofNat b.toNat

/-- A byte that is written, and what `millis()` returns then. -/
structure Written where
  byte : UInt8
  millis : BitVec 32

structure StreamLogger where
  lineCount : BitVec 16
  newLine : Bool
  target : StreamingJson

namespace StreamLogger

def initial : StreamLogger := { lineCount := 0, newLine := true, target := .empty }

/-- The part of `write` for the first byte of a line. -/
def openLine (millis : BitVec 32) (l : StreamLogger) : StreamLogger :=
  let target := l.target.beginDict.kv "type".toList "log".toList
  let target := target.kvNumber "count".toList (Nat.toDigits 10 l.lineCount.toNat)
  let target := target.kvNumber "time".toList (Nat.toDigits 10 millis.toNat)
  { lineCount := l.lineCount + 1
    newLine := false
    target := (target.key "msg".toList).beginStr }

def write (l : StreamLogger) (w : Written) : StreamLogger :=
  let l := if l.newLine then l.openLine w.millis else l
  -- CR is ignored, as it belongs to CR NL line endings.
  if w.byte = 13 then l
  else if w.byte = 10 then { l with target := l.target.endStr.endDict.endln, newLine := true }
  else { l with target := l.target.print [byteChar w.byte] }

def writeAll (l : StreamLogger) (ws : List Written) : StreamLogger := ws.foldl write l

/-- `println` of a text in ASCII, at one time. -/
def println (millis : BitVec 32) (text : List Char) (l : StreamLogger) : StreamLogger :=
  l.writeAll ((text ++ ['\r', '\n']).map fun c => { byte := UInt8.ofNat c.toNat, millis })

end StreamLogger

structure RingBuffer (α : Type) where
  data : List α
  maxSize : Nat

def RingBuffer.pushBack {α : Type} (item : α) (b : RingBuffer α) : RingBuffer α :=
  { b with data := (if b.maxSize < b.data.length then b.data.tail else b.data) ++ [item] }

/-- The sink of the log that keeps lines. -/
structure StartupLog where
  maxSize : Nat
  data : List (List Char)
  linebuf : List Char

namespace StartupLog

def initial : StartupLog := { maxSize := 60, data := [], linebuf := [] }

def buf (s : StartupLog) : RingBuffer (List Char) := ⟨s.data, s.maxSize⟩

def pushBack (item : List Char) (s : StartupLog) : StartupLog :=
  { s with data := (s.buf.pushBack item).data }

def write (s : StartupLog) (b : Char) : StartupLog :=
  if b = '\r' then s
  else if b = '\n' then { s.pushBack s.linebuf with linebuf := [] }
  else { s with linebuf := s.linebuf ++ [b] }

def isActive (s : StartupLog) : Bool := s.maxSize ≠ 0

/-- The sink behind a formatter that has sent these characters. -/
def capture (output : List Char) : StartupLog := output.foldl write initial

def streamToJson (log : StartupLog) (s : StreamingJson) : StreamingJson :=
  let s := s.beginDict.kvBool "is_active".toList log.isActive
  let s := s.kvNumber "max_size".toList (Nat.toDigits 10 log.maxSize)
  let s := (s.key "entries".toList).beginList
  let s := log.data.foldl (fun s line => s.json line) s
  s.endList.endDict

end StartupLog

/-! ### What the log has to be -/

def isNewline (w : Written) : Bool := w.byte == 10

/-- A line without its carriage returns. -/
def message (line : List Written) : List UInt8 := (line.map Written.byte).filter (· ≠ 13)

def loggedLines (ws : List Written) : List (List UInt8) :=
  (completeLines isNewline ws).map message

def emittedLines (ws : List Written) : List (List Char) :=
  completeLines (· == '\n') (StreamLogger.initial.writeAll ws).target.output

/-- The object for a line: the number of the line, counted in 16 bits, and its text. -/
def IsLogObject (line : List UInt8 × Nat) (members : List (List Char × JsonTree)) : Prop :=
  HasMember members "count" (.number (Nat.toDigits 10 (line.2 % 2 ^ 16))) ∧
    HasMember members "msg" (.string (line.1.map byteChar))

/-- The 61 latest ones. -/
def kept {α : Type} (items : List α) : List α := items.drop (items.length - 61)

/-- Each line that is sent is one object, with the text of the line that was logged; and the kept
lines are the entries of the document that is sent on demand. -/
def LogsObjects (ws : List Written) : Prop :=
  ∃ objects : List (List (List Char × JsonTree)),
    List.Forall₂ (fun text members => Denotes text (.object members)) (emittedLines ws) objects ∧
    List.Forall₂ IsLogObject (loggedLines ws).zipIdx objects ∧
    Denotes ((StartupLog.capture (StreamLogger.initial.writeAll ws).target.output).streamToJson
        .empty).output
      (.object [("is_active".toList, .bool true), ("max_size".toList, .number "60".toList),
        ("entries".toList, .array ((kept objects).map .object))])

section Writing

variable {l : StreamLogger} {count : BitVec 16} {millis : BitVec 32}

/-- The text of an object up to the characters of the message. -/
def headText (count : BitVec 16) (millis : BitVec 32) : List Char :=
  '{' :: memberText "type".toList ('"' :: ("log".toList ++ ['"']) ++ ',' ::
    memberText "count".toList (Nat.toDigits 10 count.toNat ++ ',' ::
      memberText "time".toList (Nat.toDigits 10 millis.toNat ++ ',' ::
        memberText "msg".toList ['"'])))

def lineText (count : BitVec 16) (millis : BitVec 32) (raw : List Char) : List Char :=
  headText count millis ++ raw ++ ['"', '}']

theorem openLine_eq :
    l.openLine millis =
      { lineCount := l.lineCount + 1
        newLine := false
        target := ⟨false, l.target.output ++ headText l.lineCount millis⟩ } := by
  have htype : Plain "type".toList ∧ Plain "log".toList := by decide
  have hrest : Plain "count".toList ∧ Plain "time".toList ∧ Plain "msg".toList := by decide
  simp only [StreamLogger.openLine, StreamingJson.kv, key_eq htype.1, val_eq htype.2,
    kvNumber_eq hrest.1, kvNumber_eq hrest.2.1, key_eq hrest.2.2]
  simp [StreamingJson.beginDict, StreamingJson.beginStr, StreamingJson.print, commaText, headText,
    memberText]

theorem write_of_newLine {w : Written} (hnew : l.newLine = true) :
    l.write w = (l.openLine w.millis).write w := by
  have hopened : (l.openLine w.millis).newLine = false := rfl
  simp only [StreamLogger.write, hnew, hopened, if_true, Bool.false_eq_true, if_false]

theorem writeAll_cons_of_newLine {w : Written} {ws : List Written} (hnew : l.newLine = true) :
    l.writeAll (w :: ws) = (l.openLine w.millis).writeAll (w :: ws) := by
  simp only [StreamLogger.writeAll, List.foldl_cons]
  rw [write_of_newLine hnew]

theorem writeAll_append {ws ws' : List Written} :
    l.writeAll (ws ++ ws') = (l.writeAll ws).writeAll ws' := List.foldl_append

theorem message_cons (w : Written) (ws : List Written) :
    message (w :: ws) = if w.byte = 13 then message ws else w.byte :: message ws := by
  by_cases hcr : w.byte = 13 <;> simp [message, hcr]

/-- Inside a line the bytes are sent as they are, less the carriage returns. -/
theorem writeAll_content {ws : List Written} (hold : l.newLine = false)
    (hws : ∀ w ∈ ws, isNewline w = false) :
    l.writeAll ws = { l with target := l.target.print ((message ws).map byteChar) } := by
  induction ws generalizing l with
  | nil => simp [StreamLogger.writeAll, message, StreamingJson.print]
  | cons w ws ih =>
    rw [List.forall_mem_cons] at hws
    have hnl : w.byte ≠ 10 := by simpa [isNewline] using hws.1
    rw [StreamLogger.writeAll, List.foldl_cons, message_cons]
    change (l.write w).writeAll ws = _
    by_cases hcr : w.byte = 13
    · have hwrite : l.write w = l := by simp [StreamLogger.write, hold, hcr]
      rw [hwrite, if_pos hcr, ih hold hws.2]
    · have hwrite : l.write w = { l with target := l.target.print [byteChar w.byte] } := by
        simp [StreamLogger.write, hold, hcr, hnl]
      have hopen : (l.write w).newLine = false := by rw [hwrite, hold]
      rw [if_neg hcr, ih hopen hws.2, hwrite]
      simp [StreamingJson.print]

/-- `millis()` at the first byte of a line. -/
def openedAt (line : Line isNewline) : BitVec 32 := (line.content.head?.getD line.sep).millis

def rawText (line : Line isNewline) : List Char := (message line.content).map byteChar

theorem byte_sep (line : Line isNewline) : line.sep.byte = 10 := by
  simpa [isNewline] using line.sep_ends

theorem writeAll_line (hnew : l.newLine = true) (line : Line isNewline) :
    l.writeAll line.all =
      { lineCount := l.lineCount + 1
        newLine := true
        target := ⟨true, l.target.output ++
          (lineText l.lineCount (openedAt line) (rawText line) ++ ['\r', '\n'])⟩ } := by
  have hopened : l.writeAll line.all = (l.openLine (openedAt line)).writeAll line.all := by
    unfold Line.all openedAt
    cases line.content with
    | nil => exact writeAll_cons_of_newLine hnew
    | cons w ws => exact writeAll_cons_of_newLine hnew
  have hcontent := writeAll_content (l := l.openLine (openedAt line)) rfl line.content_not_ends
  rw [hopened, Line.all, writeAll_append, hcontent, openLine_eq]
  simp [StreamLogger.writeAll, StreamLogger.write, byte_sep, StreamingJson.print,
    StreamingJson.endStr, StreamingJson.endDict, StreamingJson.requireComma, StreamingJson.endln,
    lineText, rawText]

def isPrintable (c : Char) : Bool := 0x20 ≤ c.toNat && c.toNat < 0x80

/-- A text without control characters is sent as one line. -/
theorem println_eq (hnew : l.newLine = true) {text : List Char}
    (hprintable : text.all isPrintable = true) :
    (l.println millis text).target.output =
      l.target.output ++ (lineText l.lineCount millis text ++ ['\r', '\n']) := by
  have htext (c : Char) (hc : c ∈ text) : 0x20 ≤ c.toNat ∧ c.toNat < 0x80 := by
    simpa [isPrintable] using List.all_eq_true.mp hprintable c hc
  let bytes : List Written := (text ++ ['\r']).map fun c => ⟨UInt8.ofNat c.toNat, millis⟩
  have hbyte : ∀ c ∈ text, (UInt8.ofNat c.toNat).toNat = c.toNat := by
    intro c hc
    have hlt := (htext c hc).2
    rw [UInt8.toNat_ofNat']
    omega
  have hvisible : ∀ c ∈ text, ∀ b : UInt8, b.toNat < 0x20 → UInt8.ofNat c.toNat ≠ b := by
    rintro c hc b hb rfl
    rw [hbyte c hc] at hb
    exact absurd (htext c hc).1 (Nat.not_le.mpr hb)
  have hcontent : ∀ w ∈ bytes, isNewline w = false := by
    simp only [bytes, List.forall_mem_map, List.forall_mem_append, List.forall_mem_singleton]
    refine ⟨fun c hc => ?_, rfl⟩
    rw [isNewline, beq_eq_false_iff_ne]
    exact hvisible c hc 10 (by decide)
  let line : Line isNewline := ⟨bytes, ⟨10, millis⟩, hcontent, rfl⟩
  have hmillis : openedAt line = millis := by
    cases text <;> rfl
  have hraw : rawText line = text := by
    have hkept : ∀ b ∈ text.map fun c => UInt8.ofNat c.toNat, decide (b ≠ 13) = true := by
      simp only [List.forall_mem_map, decide_eq_true_eq]
      exact fun c hc => hvisible c hc 13 (by decide)
    have hmessage : message bytes = text.map fun c => UInt8.ofNat c.toNat := by
      simp only [message, bytes, List.map_map, List.map_append, List.filter_append]
      change (text.map fun c => UInt8.ofNat c.toNat).filter _ ++ _ = _
      rw [List.filter_eq_self.mpr hkept]
      exact List.append_nil _
    rw [rawText, hmessage, List.map_map]
    refine (List.map_congr_left fun c hc => ?_).trans (List.map_id text)
    simp only [Function.comp_apply, byteChar, id_eq]
    rw [hbyte c hc, Char.ofNat_toNat]
  have hall : (text ++ ['\r', '\n']).map (fun c => (⟨UInt8.ofNat c.toNat, millis⟩ : Written)) =
      line.all := by
    simp only [Line.all, line, bytes, List.map_append, List.append_assoc]
    rfl
  rw [StreamLogger.println, hall, writeAll_line hnew line, hmillis, hraw]

/-- What is sent for a line. -/
structure LogEntry where
  count : BitVec 16
  millis : BitVec 32
  raw : List Char

def LogEntry.text (e : LogEntry) : List Char := lineText e.count e.millis e.raw

def logEntries (count : BitVec 16) : List (Line isNewline) → List LogEntry
  | [] => []
  | line :: lines => ⟨count, openedAt line, rawText line⟩ :: logEntries (count + 1) lines

def lineTexts (count : BitVec 16) (lines : List (Line isNewline)) : List (List Char) :=
  (logEntries count lines).map LogEntry.text

theorem lineTexts_cons (count : BitVec 16) (line : Line isNewline)
    (lines : List (Line isNewline)) :
    lineTexts count (line :: lines) =
      lineText count (openedAt line) (rawText line) :: lineTexts (count + 1) lines := rfl

theorem writeAll_lines (hnew : l.newLine = true) (lines : List (Line isNewline)) :
    (l.writeAll (lines.flatMap Line.all)).newLine = true ∧
      (l.writeAll (lines.flatMap Line.all)).target.output = l.target.output ++
        (lineTexts l.lineCount lines).flatMap (· ++ ['\r', '\n']) := by
  induction lines generalizing l with
  | nil => simp [StreamLogger.writeAll, lineTexts, logEntries, hnew]
  | cons line lines ih =>
    have hline := writeAll_line hnew line
    have hnext : (l.writeAll line.all).newLine = true := by rw [hline]
    obtain ⟨hnewLine, houtput⟩ := ih hnext
    rw [List.flatMap_cons, writeAll_append]
    refine ⟨hnewLine, ?_⟩
    rw [houtput, hline, lineTexts_cons, List.flatMap_cons, List.append_assoc]

end Writing

section Characters

/-- Characters that are no control characters. -/
def isVisible (c : Char) : Bool := 0x20 ≤ c.toNat

theorem isVisible_of_isNumberChar {c : Char} (h : isNumberChar c = true) : isVisible c = true := by
  simp only [isNumberChar, Bool.or_eq_true, beq_iff_eq] at h
  rcases h with ((((h | rfl) | rfl) | rfl) | rfl) | rfl
  · have hdigit : 48 ≤ c.toNat := by
      simp only [Char.isDigit, Bool.and_eq_true, decide_eq_true_eq] at h
      exact h.1
    simp only [isVisible, decide_eq_true_eq]
    omega
  all_goals rfl

theorem isVisible_toDigits (n : Nat) : ∀ c ∈ Nat.toDigits 10 n, isVisible c = true := by
  intro c hc
  exact isVisible_of_isNumberChar (isNumberChar_of_isNumeral (isNumeral_toDigits n) c hc)

theorem isVisible_headText (count : BitVec 16) (millis : BitVec 32) :
    ∀ c ∈ headText count millis, isVisible c = true := by
  simp only [headText, memberText, List.forall_mem_cons, List.forall_mem_append,
    List.cons_append, List.append_assoc, List.nil_append]
  and_intros
  all_goals first | exact isVisible_toDigits _ | exact List.all_eq_true.mp (by decide) | decide

/-- What holds of every visible character and of the message holds of the object. -/
theorem forall_mem_lineText {P : Char → Prop} {count : BitVec 16} {millis : BitVec 32}
    {raw : List Char} (hvisible : ∀ c, isVisible c = true → P c) (hraw : ∀ c ∈ raw, P c) :
    ∀ c ∈ lineText count millis raw, P c := by
  intro c hc
  simp only [lineText, List.mem_append] at hc
  rcases hc with (hhead | hc) | hend
  · exact hvisible c (isVisible_headText count millis c hhead)
  · exact hraw c hc
  · have hclosing : ['"', '}'].all isVisible = true := by decide
    exact hvisible c (List.all_eq_true.mp hclosing c hend)

/-- Neither CR nor NL. -/
def isInline (c : Char) : Bool := c != '\r' && c != '\n'

theorem isInline_of_isVisible {c : Char} (h : isVisible c = true) : isInline c = true := by
  by_contra hbreak
  simp only [isInline, Bool.and_eq_true, bne_iff_ne, not_and_or, not_not] at hbreak
  rcases hbreak with rfl | rfl <;> revert h <;> decide

theorem toNat_byteChar (b : UInt8) : (byteChar b).toNat = b.toNat := by
  have hvalid : b.toNat.isValidChar := by
    left
    have := b.toNat_lt
    omega
  rw [byteChar, Char.ofNat, dif_pos hvalid]
  rfl

theorem isInline_byteChar {b : UInt8} (hcr : b ≠ 13) (hnl : b ≠ 10) :
    isInline (byteChar b) = true := by
  by_contra hbreak
  simp only [isInline, Bool.and_eq_true, bne_iff_ne, not_and_or, not_not] at hbreak
  have hcode := toNat_byteChar b
  rcases hbreak with hb | hb <;> rw [hb] at hcode
  · exact hcr (UInt8.toNat_inj.mp hcode.symm)
  · exact hnl (UInt8.toNat_inj.mp hcode.symm)

theorem isInline_message {ws : List Written} (hws : ∀ w ∈ ws, isNewline w = false) :
    ∀ c ∈ (message ws).map byteChar, isInline c = true := by
  intro c hc
  obtain ⟨b, hb, rfl⟩ := List.mem_map.mp hc
  obtain ⟨hbyte, hcr⟩ := List.mem_filter.mp hb
  obtain ⟨w, hw, rfl⟩ := List.mem_map.mp hbyte
  rw [decide_eq_true_eq] at hcr
  exact isInline_byteChar hcr (by simpa [isNewline] using hws w hw)

theorem isInline_lineTexts (count : BitVec 16) (lines : List (Line isNewline)) :
    ∀ text ∈ lineTexts count lines, ∀ c ∈ text, isInline c = true := by
  induction lines generalizing count with
  | nil => simp [lineTexts, logEntries]
  | cons line lines ih =>
    rw [lineTexts_cons, List.forall_mem_cons]
    exact ⟨forall_mem_lineText (fun _ => isInline_of_isVisible)
      (isInline_message line.content_not_ends), ih (count + 1)⟩

end Characters

section Lines

variable {l : StreamLogger} {unfinished : List Written}

theorem writeAll_unfinished (hnew : l.newLine = true)
    (hrest : ∀ w ∈ unfinished, isNewline w = false) :
    ∃ pending, (l.writeAll unfinished).target.output = l.target.output ++ pending ∧
      ∀ c ∈ pending, isInline c = true := by
  cases unfinished with
  | nil => exact ⟨[], (List.append_nil _).symm, by simp⟩
  | cons w ws =>
    have hcontent := writeAll_content (l := l.openLine w.millis) rfl hrest
    refine ⟨headText l.lineCount w.millis ++ (message (w :: ws)).map byteChar, ?_, ?_⟩
    · rw [writeAll_cons_of_newLine hnew, hcontent, openLine_eq]
      exact List.append_assoc _ _ _
    · rw [List.forall_mem_append]
      exact ⟨fun c hc => isInline_of_isVisible (isVisible_headText _ _ c hc),
        isInline_message hrest⟩

theorem output_eq (lines : List (Line isNewline))
    (hrest : ∀ w ∈ unfinished, isNewline w = false) :
    ∃ pending, (StreamLogger.initial.writeAll (lines.flatMap Line.all ++ unfinished)).target.output =
        (lineTexts 0 lines).flatMap (· ++ ['\r', '\n']) ++ pending ∧
      ∀ c ∈ pending, isInline c = true := by
  obtain ⟨hnew, houtput⟩ := writeAll_lines (l := StreamLogger.initial) rfl lines
  obtain ⟨pending, hpending, hinline⟩ := writeAll_unfinished hnew hrest
  refine ⟨pending, ?_, hinline⟩
  rw [writeAll_append, hpending, houtput]
  rfl

theorem completeLines_texts {texts : List (List Char)} {pending : List Char}
    (htexts : ∀ text ∈ texts, ∀ c ∈ text, isInline c = true)
    (hpending : ∀ c ∈ pending, isInline c = true) :
    completeLines (· == '\n') (texts.flatMap (· ++ ['\r', '\n']) ++ pending) =
      texts.map (· ++ ['\r']) := by
  have hne : ∀ c, isInline c = true → (c == '\n') = false := by
    intro c hc
    simp only [isInline, Bool.and_eq_true, bne_iff_ne] at hc
    simp [hc.2]
  induction texts with
  | nil => exact completeLines_of_none fun c hc => hne c (hpending c hc)
  | cons text texts ih =>
    rw [List.forall_mem_cons] at htexts
    have hline : ∀ c ∈ text ++ ['\r'], (c == '\n') = false := by
      rw [List.forall_mem_append, List.forall_mem_singleton]
      exact ⟨fun c hc => hne c (htexts.1 c hc), rfl⟩
    have hsplit : (text :: texts).flatMap (· ++ ['\r', '\n']) ++ pending =
        (text ++ ['\r']) ++ '\n' :: (texts.flatMap (· ++ ['\r', '\n']) ++ pending) := by simp
    rw [hsplit, completeLines_cons hline rfl, ih htexts.2, List.map_cons]

theorem emittedLines_eq (lines : List (Line isNewline))
    (hrest : ∀ w ∈ unfinished, isNewline w = false) :
    emittedLines (lines.flatMap Line.all ++ unfinished) =
      (lineTexts 0 lines).map (· ++ ['\r']) := by
  obtain ⟨pending, houtput, hinline⟩ := output_eq lines hrest
  rw [emittedLines, houtput, completeLines_texts (isInline_lineTexts 0 lines) hinline]

theorem loggedLines_eq (lines : List (Line isNewline))
    (hrest : ∀ w ∈ unfinished, isNewline w = false) :
    loggedLines (lines.flatMap Line.all ++ unfinished) =
      lines.map fun line => message line.content := by
  rw [loggedLines, completeLines_flatMap lines hrest, List.map_map]
  rfl

end Lines

section Capture

theorem kept_concat {α : Type} (items : List α) (item : α) :
    (if 60 < (kept items).length then (kept items).tail else kept items) ++ [item] =
      kept (items ++ [item]) := by
  unfold kept
  rw [List.length_drop, List.length_append, List.length_singleton]
  by_cases hfull : 61 ≤ items.length
  · rw [if_pos (by omega), List.tail_drop, List.drop_append_of_le_length (by omega)]
    congr 2
    omega
  · rw [if_neg (by omega), Nat.sub_eq_zero_of_le (by omega), Nat.sub_eq_zero_of_le (by omega),
      List.drop_zero, List.drop_zero]

theorem pushBack_kept (before : List (List Char)) (item linebuf : List Char) :
    StartupLog.pushBack item ⟨60, kept before, linebuf⟩ = ⟨60, kept (before ++ [item]), linebuf⟩ :=
  congrArg (fun data => (⟨60, data, linebuf⟩ : StartupLog)) (kept_concat before item)

variable {s : StartupLog}

theorem foldl_write_inline {text : List Char} (h : ∀ c ∈ text, isInline c = true) :
    text.foldl StartupLog.write s = { s with linebuf := s.linebuf ++ text } := by
  induction text generalizing s with
  | nil => simp
  | cons c text ih =>
    rw [List.forall_mem_cons] at h
    have hc : c ≠ '\r' ∧ c ≠ '\n' := by simpa [isInline] using h.1
    have hwrite : s.write c = { s with linebuf := s.linebuf ++ [c] } := by
      simp [StartupLog.write, hc]
    rw [List.foldl_cons, ih h.2, hwrite]
    simp

theorem foldl_write_line {text : List Char} (h : ∀ c ∈ text, isInline c = true) :
    (text ++ ['\r', '\n']).foldl StartupLog.write s =
      { s.pushBack (s.linebuf ++ text) with linebuf := [] } := by
  rw [List.foldl_append, foldl_write_inline h]
  simp [StartupLog.write, StartupLog.pushBack, StartupLog.buf]

theorem foldl_write_lines {texts : List (List Char)} (before : List (List Char))
    (h : ∀ text ∈ texts, ∀ c ∈ text, isInline c = true) :
    (texts.flatMap (· ++ ['\r', '\n'])).foldl StartupLog.write
        { maxSize := 60, data := kept before, linebuf := [] } =
      { maxSize := 60, data := kept (before ++ texts), linebuf := [] } := by
  induction texts generalizing before with
  | nil => simp
  | cons text texts ih =>
    rw [List.forall_mem_cons] at h
    rw [List.flatMap_cons, List.foldl_append, foldl_write_line h.1]
    rw [List.nil_append, pushBack_kept, ih _ h.2, List.append_assoc, List.singleton_append]

theorem capture_eq {texts : List (List Char)} {pending : List Char}
    (htexts : ∀ text ∈ texts, ∀ c ∈ text, isInline c = true)
    (hpending : ∀ c ∈ pending, isInline c = true) :
    StartupLog.capture (texts.flatMap (· ++ ['\r', '\n']) ++ pending) =
      { maxSize := 60, data := kept texts, linebuf := pending } := by
  have hlines : (texts.flatMap (· ++ ['\r', '\n'])).foldl StartupLog.write StartupLog.initial =
      { maxSize := 60, data := kept ([] ++ texts), linebuf := [] } := foldl_write_lines [] htexts
  rw [StartupLog.capture, List.foldl_append, hlines, foldl_write_inline hpending]
  rfl

end Capture

section Objects

variable {count : BitVec 16} {millis : BitVec 32} {raw : List Char}

def LogEntry.members (e : LogEntry) : List Member :=
  [⟨"type".toList, '"' :: ("log".toList ++ ['"']), .string "log".toList⟩,
    ⟨"count".toList, Nat.toDigits 10 e.count.toNat, .number (Nat.toDigits 10 e.count.toNat)⟩,
    ⟨"time".toList, Nat.toDigits 10 e.millis.toNat, .number (Nat.toDigits 10 e.millis.toNat)⟩,
    ⟨"msg".toList, '"' :: (e.raw ++ ['"']), .string e.raw⟩]

def LogEntry.object (e : LogEntry) : List (List Char × JsonTree) :=
  e.members.map fun m => (m.key, m.value)

theorem LogEntry.denotes_text {e : LogEntry} (h : Plain e.raw) :
    Denotes e.text (.object e.object) := by
  have hwritten : ∀ m ∈ e.members, m.IsWritten := by
    simp only [LogEntry.members, List.forall_mem_cons]
    exact ⟨(denotes_string (by decide)).member (by decide),
      (denotes_number (isNumeral_toDigits _)).member (by decide),
      (denotes_number (isNumeral_toDigits _)).member (by decide),
      (denotes_string h).member (by decide), by simp⟩
  have hobject := denotes_object e.members hwritten
  have htext : e.text = '{' :: (List.intercalate [','] (e.members.map fun m =>
      memberText m.key m.text) ++ ['}']) := by
    simp [LogEntry.text, lineText, headText, LogEntry.members, memberText,
      List.intercalate_cons_cons]
  rw [htext]
  exact hobject

/-- A message that is not plain does not come back. -/
theorem plain_of_denotes {members : List (List Char × JsonTree)}
    (hdenotes : Denotes (lineText count millis raw ++ ['\r']) (.object members))
    (hmsg : HasMember members "msg" (.string raw)) : Plain raw := by
  have htext : lineText count millis raw ++ ['\r'] =
      '{' :: memberText "type".toList (('"' :: ("log".toList ++ ['"'])) ++ ',' ::
        memberText "count".toList (Nat.toDigits 10 count.toNat ++ ',' ::
          memberText "time".toList (Nat.toDigits 10 millis.toNat ++ ',' ::
            memberText "msg".toList ('"' :: (raw ++ '"' :: ['}', '\r']))))) := by
    simp [lineText, headText, memberText]
  rw [htext] at hdenotes
  obtain ⟨fuel, members', rest, heq, htype⟩ := hdenotes.exists_parseItems
  cases heq
  have hplain : Plain "log".toList := by decide
  have hnumber : ∀ n : Nat, Denotes (Nat.toDigits 10 n) (.number (Nat.toDigits 10 n)) := fun n =>
    denotes_number (isNumeral_toDigits n)
  have hmsgKey : Plain "msg".toList := by decide
  obtain ⟨others, _, rfl, hcount⟩ := parseItems_member_next (by decide) (denotes_string hplain)
    htype
  obtain ⟨others, _, rfl, htime⟩ := parseItems_member_next (by decide) (hnumber _) hcount
  obtain ⟨others, _, rfl, hparse⟩ := parseItems_member_next (by decide) (hnumber _) htime
  by_contra hraw
  -- No string begins with what follows the closing quote.
  have hstop : ∀ content left, lexString .text ['}', '\r'] = some (content, left) →
      ∃ c tail, skipSpace left = c :: tail ∧ c ≠ ',' ∧ c ≠ '}' := by
    intro content left hlex
    have hnone : lexString .text ['}', '\r'] = none := by decide
    rw [hnone] at hlex
    cases hlex
  obtain ⟨content, others, rfl, hlt⟩ := parseItems_misread hmsgKey hraw hparse hstop
  have hmember := hasMember_self (hasMember_of_ne (by decide) (hasMember_of_ne (by decide)
    (hasMember_of_ne (by decide) hmsg)))
  cases hmember
  omega

end Objects

section Document

theorem foldl_json (lines : List (List Char)) (output : List Char) :
    lines.foldl (fun s line => StreamingJson.json line s)
        { needsComma := false, output := output } =
      { needsComma := decide (lines ≠ [])
        output := output ++ List.intercalate [','] (lines.map cStr) } := by
  induction lines using List.reverseRecOn with
  | nil => simp
  | append_singleton lines line ih =>
    rw [List.foldl_concat, ih, List.map_append, List.map_singleton, intercalate_concat]
    by_cases hlines : lines = []
    · simp [hlines, StreamingJson.json, StreamingJson.print, StreamingJson.requireComma, commaText]
    · simp [hlines, StreamingJson.json, StreamingJson.print, StreamingJson.requireComma, commaText]

/-- The text of the document, with the kept lines as they are. -/
theorem streamToJson_output (data : List (List Char)) (linebuf : List Char) :
    (StartupLog.streamToJson { maxSize := 60, data, linebuf } .empty).output =
      '{' :: (List.intercalate [','] [memberText "is_active".toList ['t', 'r', 'u', 'e'],
        memberText "max_size".toList "60".toList,
        memberText "entries".toList ('[' :: (List.intercalate [','] (data.map cStr) ++ [']']))] ++
          ['}']) := by
  have hplain : Plain "is_active".toList ∧ Plain "max_size".toList ∧ Plain "entries".toList := by
    decide
  have hbegin : ∀ s : StreamingJson, s.beginList = ⟨false, s.output ++ ['[']⟩ := fun _ => rfl
  simp only [StartupLog.streamToJson, StreamingJson.kvBool, key_eq hplain.1, kvNumber_eq hplain.2.1,
    key_eq hplain.2.2, hbegin, foldl_json]
  have hsize : Nat.toDigits 10 60 = "60".toList := by decide
  rw [hsize]
  simp [StreamingJson.empty, StreamingJson.beginDict, StreamingJson.valBool, StreamingJson.print,
    StreamingJson.requireComma, StreamingJson.endList, StreamingJson.endDict, StartupLog.isActive,
    commaText, memberText, List.intercalate_cons_cons]

theorem LogEntry.cStr_text {e : LogEntry} (h : Plain e.raw) : cStr e.text = e.text := by
  have hne : ∀ c ∈ e.text, c ≠ '\x00' := by
    apply forall_mem_lineText
    · rintro c hc rfl
      revert hc
      decide
    · rintro c hc rfl
      exact zero_notMem_of_plain h hc
  exact cStr_eq_self fun hzero => hne _ hzero rfl

theorem denotes_streamToJson {entries : List LogEntry} (h : ∀ e ∈ entries, Plain e.raw)
    (linebuf : List Char) :
    Denotes (StartupLog.streamToJson
        { maxSize := 60, data := entries.map LogEntry.text, linebuf } .empty).output
      (.object [("is_active".toList, .bool true), ("max_size".toList, .number "60".toList),
        ("entries".toList, .array (entries.map fun e => .object e.object))]) := by
  have hdata : (entries.map LogEntry.text).map cStr = entries.map LogEntry.text := by
    rw [List.map_map]
    exact List.map_congr_left fun e he => LogEntry.cStr_text (h e he)
  have harray := denotes_array (entries.map fun e => (e.text, .object e.object))
    (by
      rw [List.forall_mem_map]
      exact fun e he => LogEntry.denotes_text (h e he))
  rw [List.map_map, List.map_map] at harray
  change Denotes ('[' :: (List.intercalate [','] (entries.map LogEntry.text) ++ [']']))
    (.array (entries.map fun e => .object e.object)) at harray
  rw [streamToJson_output, hdata]
  generalize '[' :: (List.intercalate [','] (entries.map LogEntry.text) ++ [']']) = arrayText
    at harray ⊢
  generalize JsonTree.array (entries.map fun e => .object e.object) = array at harray ⊢
  have hwritten : ∀ m ∈ [Member.mk "is_active".toList ['t', 'r', 'u', 'e'] (.bool true),
      ⟨"max_size".toList, "60".toList, .number "60".toList⟩, ⟨"entries".toList, arrayText, array⟩],
      m.IsWritten := by
    simp only [List.forall_mem_cons]
    exact ⟨denotes_true.member (by decide), (denotes_number (by decide)).member (by decide),
      harray.member (by decide), by simp⟩
  exact denotes_object _ hwritten

end Document

section Main

theorem kept_map {α β : Type} (f : α → β) (items : List α) :
    kept (items.map f) = (kept items).map f := by
  rw [kept, kept, List.length_map, List.map_drop]

theorem logEntries_raw (count : BitVec 16) (lines : List (Line isNewline)) :
    (logEntries count lines).map LogEntry.raw = lines.map rawText := by
  induction lines generalizing count with
  | nil => rfl
  | cons line lines ih => simp [logEntries, ih]

theorem plain_of_forall₂ {count : BitVec 16} {index : Nat} {lines : List (Line isNewline)}
    {objects : List (List (List Char × JsonTree))}
    (hemitted : List.Forall₂ (fun text members => Denotes text (.object members))
      ((lineTexts count lines).map (· ++ ['\r'])) objects)
    (hlogged : List.Forall₂ IsLogObject
      ((lines.map fun line => message line.content).zipIdx index) objects) :
    ∀ line ∈ lines, Plain (rawText line) := by
  induction lines generalizing count index objects with
  | nil => simp
  | cons line lines ih =>
    rw [lineTexts_cons, List.map_cons] at hemitted
    rw [List.map_cons, List.zipIdx_cons] at hlogged
    cases hemitted with
    | cons hdenotes hemitted =>
      cases hlogged with
      | cons hobject hlogged =>
        rw [List.forall_mem_cons]
        exact ⟨plain_of_denotes hdenotes hobject.2, ih hemitted hlogged⟩

theorem forall₂_isLogObject (index : Nat) (lines : List (Line isNewline)) :
    List.Forall₂ IsLogObject ((lines.map fun line => message line.content).zipIdx index)
      ((logEntries (BitVec.ofNat 16 index) lines).map LogEntry.object) := by
  induction lines generalizing index with
  | nil => exact .nil
  | cons line lines ih =>
    have hnext : BitVec.ofNat 16 index + 1 = BitVec.ofNat 16 (index + 1) := by
      rw [BitVec.ofNat_add]
      rfl
    rw [List.map_cons, List.zipIdx_cons, logEntries, List.map_cons, hnext]
    refine .cons ⟨?_, ?_⟩ (ih (index + 1))
    · simp [HasMember, LogEntry.object, LogEntry.members, BitVec.toNat_ofNat]
    · simp [HasMember, LogEntry.object, LogEntry.members, rawText]

theorem forall₂_denotes {entries : List LogEntry} (h : ∀ e ∈ entries, Plain e.raw) :
    List.Forall₂ (fun text members => Denotes text (.object members))
      ((entries.map LogEntry.text).map (· ++ ['\r'])) (entries.map LogEntry.object) := by
  induction entries with
  | nil => exact .nil
  | cons e entries ih =>
    rw [List.forall_mem_cons] at h
    exact .cons ((LogEntry.denotes_text h.1).append_space rfl (delimited_cons rfl)) (ih h.2)

theorem plain_of_logsObjects {ws : List Written} (h : LogsObjects ws) :
    ∀ line ∈ loggedLines ws, Plain (line.map byteChar) := by
  obtain ⟨lines, unfinished, rfl, hrest⟩ : ∃ (lines : List (Line isNewline)) (unfinished : _),
    ws = lines.flatMap Line.all ++ unfinished ∧ ∀ w ∈ unfinished, isNewline w = false :=
      exists_lines ws
  obtain ⟨objects, hemitted, hlogged, -⟩ := h
  rw [emittedLines_eq lines hrest] at hemitted
  rw [loggedLines_eq lines hrest] at hlogged ⊢
  rw [List.forall_mem_map]
  exact plain_of_forall₂ hemitted hlogged

/-- The log is a sequence of objects exactly if the lines need no escapes. -/
theorem logsObjects_iff_plain (ws : List Written) :
    LogsObjects ws ↔ ∀ line ∈ loggedLines ws, Plain (line.map byteChar) := by
  refine ⟨plain_of_logsObjects, fun hplain => ?_⟩
  obtain ⟨lines, unfinished, rfl, hrest⟩ : ∃ (lines : List (Line isNewline)) (unfinished : _),
    ws = lines.flatMap Line.all ++ unfinished ∧ ∀ w ∈ unfinished, isNewline w = false :=
      exists_lines ws
  obtain ⟨pending, houtput, hinline⟩ := output_eq lines hrest
  rw [loggedLines_eq lines hrest, List.forall_mem_map] at hplain
  have hraw : ∀ e ∈ logEntries 0 lines, Plain e.raw := by
    intro e he
    have hmem : e.raw ∈ lines.map rawText := by
      rw [← logEntries_raw 0 lines]
      exact List.mem_map_of_mem he
    obtain ⟨line, hline, heq⟩ := List.mem_map.mp hmem
    rw [← heq]
    exact hplain line hline
  refine ⟨(logEntries 0 lines).map LogEntry.object, ?_, ?_, ?_⟩
  · rw [emittedLines_eq lines hrest]
    exact forall₂_denotes hraw
  · rw [loggedLines_eq lines hrest]
    exact forall₂_isLogObject 0 lines
  · rw [houtput, capture_eq (isInline_lineTexts 0 lines) hinline, lineTexts, kept_map, kept_map,
      List.map_map]
    exact denotes_streamToJson (fun e he => hraw e (List.mem_of_mem_drop he)) pending

private def logged (text : List Char) : List Written :=
  text.map fun c => { byte := UInt8.ofNat c.toNat, millis := 1000 }

private def malformed : List Char :=
  "# Malformed serial line input. Expecting JSON-Lines. Error: IncompleteInput.".toList ++
    " Input was: \x7b\"a".toList

/-- What is logged for the serial input `\x7b"a`, which is not complete: the line that is sent has
the quote as it came. -/
theorem not_logsObjects_malformed :
    emittedLines (logged (malformed ++ ['\r', '\n'])) =
      ["\x7b\"type\":\"log\",\"count\":0,\"time\":1000,\"msg\":\"".toList ++
        (malformed ++ ['"', '}', '\r'])] ∧
    ¬ LogsObjects (logged (malformed ++ ['\r', '\n'])) := by
  constructor
  · decide +kernel
  · intro h
    have hplain := plain_of_logsObjects h
    revert hplain
    decide +kernel

end Main

end Lucidac.Protocol
