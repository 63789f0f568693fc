import Lucidac.Protocol.StreamingRunData

/-!
# Run data in a fixed buffer

The samples of a streaming run are sent in equal chunks.  The text of the message is laid out once
for a run in a buffer of fixed size, with slots of six characters for the numbers; each chunk only
fills the slots.  The last chunk may be shorter and moves the end of the message.
-/

namespace Lucidac.Protocol

open Framework.JsonText

def messageStart : List Char :=
  ("\x7b \"type\": \"run_data\", \"msg\": \x7b \"id\": \"xxxxxxxx-xxxx-xxxx-xxxx-xxxxxxxxxxxx\", " ++
    "\"entity\": [\"XX-XX-XX-XX-XX-XX\", \"0\"], \"data\": [").toList

def messageEnd : List Char := "]\x7d\x7d".toList

def bufferLengthStatic : Nat := 124
def bufferIdxRunId : Nat := 38
def bufferLengthRunId : Nat := 32 + 4
def bufferIdxEntityId : Nat := 89
def bufferLengthEntityId : Nat := 12 + 5

/-- `daq::dma::BUFFER_SIZE` -/
def dmaBufferSize : Nat := 32 * 8

def bufferLength : Nat := bufferLengthStatic + dmaBufferSize / 2 * 9 + 4

/-- The character buffer of the handler. -/
structure StrBuffer where
  chars : List Char
  length_eq : chars.length = bufferLength

/-- A copy into the buffer, which has to stay inside. -/
def StrBuffer.write (b : StrBuffer) (pos : Nat) (text : List Char) : Option StrBuffer :=
  if h : pos + text.length ≤ bufferLength then
    some { chars := b.chars.take pos ++ text ++ b.chars.drop (pos + text.length)
           length_eq := by
             have hlength := b.length_eq
             simp only [List.length_append, List.length_take, List.length_drop]
             omega }
  else none

def StrBuffer.memset (b : StrBuffer) (pos : Nat) (c : Char) (count : Nat) : Option StrBuffer :=
  b.write pos (List.replicate count c)

structure RunDataHandler where
  strBuffer : StrBuffer
  actualBufferLength : Nat

def calculateInnerBufferLength (innerCount : Nat) : Nat := 3 + innerCount * 7 - 1

def calculateOuterBufferPosition (outerCount innerCount : Nat) : Nat :=
  bufferLengthStatic + outerCount * calculateInnerBufferLength innerCount

def calculateTotalBufferLength (outerCount innerCount : Nat) : Nat :=
  bufferLengthStatic + outerCount * calculateInnerBufferLength innerCount - 1 + 4 - 1 + 1

def rawToNormalized (raw : BitVec 16) : Nat := min (raw.toNat * 1527 / 10000) 2500

/-- The entries of `normalized_to_float_str_arr`, from `" 1.250"` to `"-1.250"`. -/
def normalizedToFloatStr (normalized : Nat) : List Char :=
  if normalized < 1250 then ' ' :: thousandths (1250 - normalized)
  else '-' :: thousandths (normalized - 1250)

def rawToStr (raw : BitVec 16) : List Char := normalizedToFloatStr (rawToNormalized raw)

/-- Half of the DMA buffer. -/
def fullOuterCount (innerCount : Nat) : Nat := dmaBufferSize / innerCount / 2

section Prepare

/-- One row of the layout; the pointer moves along with the text. -/
def prepareSlot (s : Nat × StrBuffer) : Option (Nat × StrBuffer) := do
  let b ← s.2.write (s.1 + 7) [',']
  return (s.1 + 7, b)

def prepareRow (innerCount : Nat) (s : Nat × StrBuffer) : Option (Nat × StrBuffer) := do
  let b ← s.2.write (s.1 + 1) ['[']
  let (pointer, b) ← (List.range innerCount).foldlM (fun s _ => prepareSlot s) (s.1 + 1, b)
  let b ← b.write pointer [']']
  let b ← b.write (pointer + 1) [',']
  return (pointer + 1, b)

/-- `prepare`, for the identifiers of the carrier and of the run. -/
def RunDataHandler.prepare (entityId runId : List Char) (innerCount : Nat) (h : RunDataHandler) :
    Option RunDataHandler := do
  let b ← h.strBuffer.write 0 messageStart
  let b ← b.write bufferIdxEntityId (entityId.take bufferLengthEntityId)
  let outerCount := fullOuterCount innerCount
  let actual := calculateTotalBufferLength outerCount innerCount
  let b ← b.memset bufferLengthStatic '-' (actual - bufferLengthStatic)
  let b ← b.write bufferIdxRunId (runId.take bufferLengthRunId)
  let (pointer, b) ← (List.range outerCount).foldlM (fun s _ => prepareRow innerCount s)
    (bufferLengthStatic - 1, b)
  let b ← b.write pointer messageEnd
  let b ← b.write (actual - 1) ['\n']
  return { strBuffer := b, actualBufferLength := actual }

end Prepare

section Handle

variable (data : Nat → BitVec 32)

def fillSlot (innerCount outer : Nat) (b : StrBuffer) (inner : Nat) : Option StrBuffer :=
  let number := data (outer * innerCount + inner)
  b.write (bufferLengthStatic + outer * calculateInnerBufferLength innerCount + 1 + inner * 7)
    ((rawToStr (number.setWidth 16)).take 6)

def fillRow (innerCount : Nat) (b : StrBuffer) (outer : Nat) : Option StrBuffer :=
  (List.range innerCount).foldlM (fillSlot data innerCount outer) b

/-- For the last chunk the end of the message is moved. -/
def RunDataHandler.shorten (outerCount innerCount : Nat) (h : RunDataHandler) :
    Option RunDataHandler := do
  let newLength := calculateTotalBufferLength outerCount innerCount
  let newEnd := calculateOuterBufferPosition outerCount innerCount
  let b ← h.strBuffer.memset newEnd '\x00' (h.actualBufferLength - newLength)
  let b ← b.write (newEnd - 1) messageEnd
  let b ← b.write (newEnd + 2) ['\n']
  return { strBuffer := b, actualBufferLength := newLength }

def RunDataHandler.send (outerCount innerCount : Nat) (h : RunDataHandler) :
    Option (RunDataHandler × List Char) := do
  let b ← (List.range outerCount).foldlM (fillRow data innerCount) h.strBuffer
  return ({ h with strBuffer := b }, b.chars.take h.actualBufferLength)

/-- `handle`, with the text it writes to the target.  The buffer never grows. -/
def RunDataHandler.handle (outerCount innerCount : Nat) (h : RunDataHandler) :
    Option (RunDataHandler × Option (List Char)) :=
  let newLength := calculateTotalBufferLength outerCount innerCount
  if newLength < h.actualBufferLength then do
    let h ← h.shorten outerCount innerCount
    let (h, text) ← h.send data outerCount innerCount
    return (h, some text)
  else if newLength > h.actualBufferLength then some (h, none)
  else do
    let (h, text) ← h.send data outerCount innerCount
    return (h, some text)

end Handle

section Layout

theorem StrBuffer.write_split {b : StrBuffer} {before old rest : List Char} (pos : Nat)
    (text : List Char) (h : b.chars = before ++ old ++ rest) (hpos : pos = before.length)
    (hlength : text.length = old.length) :
    ∃ b' : StrBuffer, b.write pos text = some b' ∧ b'.chars = before ++ text ++ rest := by
  have htotal := b.length_eq
  rw [h] at htotal
  simp only [List.length_append] at htotal
  have hinside : pos + text.length ≤ bufferLength := by omega
  refine ⟨_, dif_pos hinside, ?_⟩
  have htake : (before ++ old ++ rest).take pos = before := by
    rw [List.append_assoc, hpos, List.take_left]
  have hdrop : (before ++ old ++ rest).drop (pos + text.length) = rest := by
    rw [hpos, hlength, ← List.length_append, List.drop_left]
  simp only [h, htake, hdrop]

def beforeRunId : List Char := "\x7b \"type\": \"run_data\", \"msg\": \x7b \"id\": \"".toList
def beforeEntityId : List Char := "\", \"entity\": [\"".toList
def beforeData : List Char := "\", \"0\"], \"data\": [".toList

theorem length_beforeRunId : beforeRunId.length = 38 := by decide +kernel
theorem length_beforeEntityId : beforeEntityId.length = 15 := by decide +kernel
theorem length_beforeData : beforeData.length = 18 := by decide +kernel

/-- The fixed beginning, with the identifiers in their places. -/
def header (entityId runId : List Char) : List Char :=
  beforeRunId ++ runId ++ beforeEntityId ++ entityId ++ beforeData

theorem length_header {entityId runId : List Char} (hrun : runId.length = 36)
    (hentity : entityId.length = 17) : (header entityId runId).length = 124 := by
  simp only [header, List.length_append, length_beforeRunId, length_beforeEntityId,
    length_beforeData, hrun, hentity]

theorem messageStart_eq :
    messageStart = header "XX-XX-XX-XX-XX-XX".toList
      "xxxxxxxx-xxxx-xxxx-xxxx-xxxxxxxxxxxx".toList := by
  decide +kernel

def bracketed (texts : List (List Char)) : List Char :=
  '[' :: (List.intercalate [','] texts ++ [']'])

/-- The line for rows of numbers. -/
def referenceLine (entityId runId : List Char) (rows : List (List (List Char))) : List Char :=
  header entityId runId ++ List.intercalate [','] (rows.map bracketed) ++ messageEnd ++ ['\n']

theorem length_intercalate {texts : List (List Char)} {k : Nat} (hne : texts ≠ [])
    (h : ∀ t ∈ texts, t.length = k) :
    (List.intercalate [','] texts).length + 1 = texts.length * (k + 1) := by
  have hflat := congrArg List.length (flatMap_append_sep [','] hne)
  rw [List.length_append, List.length_singleton] at hflat
  rw [← hflat]
  clear hflat hne
  induction texts with
  | nil => simp
  | cons t texts ih =>
    rw [List.forall_mem_cons] at h
    rw [List.flatMap_cons, List.length_append, ih h.2, List.length_append, h.1,
      List.length_singleton, List.length_cons, Nat.succ_mul]
    omega

theorem length_bracketed {slots : List (List Char)} (hne : slots ≠ [])
    (h : ∀ t ∈ slots, t.length = 6) : (bracketed slots).length = slots.length * 7 + 1 := by
  have hlength := length_intercalate hne h
  simp only [bracketed, List.length_cons, List.length_append, List.length_nil]
  omega

theorem length_rows {rows : List (List (List Char))} {innerCount : Nat} (hinner : 1 ≤ innerCount)
    (hne : rows ≠ []) (hrow : ∀ row ∈ rows, row.length = innerCount)
    (hslot : ∀ row ∈ rows, ∀ slot ∈ row, slot.length = 6) :
    (List.intercalate [','] (rows.map bracketed)).length + 1 =
      rows.length * (innerCount * 7 + 2) := by
  have hbracketed : ∀ t ∈ rows.map bracketed, t.length = innerCount * 7 + 1 := by
    intro t ht
    obtain ⟨row, hmem, rfl⟩ := List.mem_map.mp ht
    have hlength := hrow row hmem
    rw [length_bracketed (List.length_pos_iff.mp (by omega)) (hslot row hmem), hlength]
  rw [length_intercalate (by simpa using hne) hbracketed, List.length_map]

def lineBody (entityId runId : List Char) (rows : List (List (List Char))) : List Char :=
  header entityId runId ++ List.intercalate [','] (rows.map bracketed)

theorem referenceLine_eq_lineBody (entityId runId : List Char) (rows : List (List (List Char))) :
    referenceLine entityId runId rows = lineBody entityId runId rows ++ messageEnd ++ ['\n'] := rfl

theorem length_lineBody {entityId runId : List Char} {rows : List (List (List Char))}
    {innerCount : Nat} (hrun : runId.length = 36) (hentity : entityId.length = 17)
    (hinner : 1 ≤ innerCount) (hne : rows ≠ []) (hrow : ∀ row ∈ rows, row.length = innerCount)
    (hslot : ∀ row ∈ rows, ∀ slot ∈ row, slot.length = 6) :
    (lineBody entityId runId rows).length + 1 = 124 + rows.length * (innerCount * 7 + 2) := by
  have hlength := length_rows hinner hne hrow hslot
  rw [lineBody, List.length_append, length_header hrun hentity]
  omega

/-- The slots of a row before the first chunk. -/
def blank : List Char := List.replicate 6 '-'

theorem length_blank : blank.length = 6 := rfl

theorem replicate_split (k m : Nat) (hk : k ≤ m) :
    List.replicate m '-' = List.replicate k '-' ++ List.replicate (m - k) '-' := by
  rw [List.replicate_append_replicate]
  congr 1
  omega

theorem foldlM_prepareSlot {b : StrBuffer} {before rest : List Char} {pointer dashes : Nat}
    (count : Nat) (hb : b.chars = before ++ List.replicate dashes '-' ++ rest)
    (hpointer : before.length = pointer + 1) (hdashes : count * 7 ≤ dashes) :
    ∃ b' : StrBuffer,
      (List.range count).foldlM (fun s _ => prepareSlot s) (pointer, b) =
        some (pointer + count * 7, b') ∧
      b'.chars = before ++ (List.replicate count blank).flatMap (· ++ [',']) ++
        List.replicate (dashes - count * 7) '-' ++ rest := by
  induction count with
  | zero => exact ⟨b, by simp, by simp [hb]⟩
  | succ count ih =>
    obtain ⟨b₁, hfold, hb₁⟩ := ih (by omega)
    have hslots : ((List.replicate count blank).flatMap (· ++ [','])).length = count * 7 := by
      simp [blank]
    have hchars : b₁.chars = (before ++ (List.replicate count blank).flatMap (· ++ [',']) ++
        blank) ++ ['-'] ++ (List.replicate (dashes - (count + 1) * 7) '-' ++ rest) := by
      have hsplit : List.replicate (dashes - count * 7) '-' =
          blank ++ ['-'] ++ List.replicate (dashes - (count + 1) * 7) '-' := by
        have h7 : blank ++ ['-'] = List.replicate 7 '-' := rfl
        rw [h7, replicate_split 7 (dashes - count * 7) (by omega)]
        congr 2
        omega
      rw [hb₁, hsplit]
      simp only [List.append_assoc]
    have hpos : pointer + count * 7 + 7 = (before ++
        (List.replicate count blank).flatMap (· ++ [',']) ++ blank).length := by
      simp only [List.length_append, hslots, hpointer, length_blank]
      omega
    obtain ⟨b₂, hwrite, hb₂⟩ := StrBuffer.write_split _ [','] hchars hpos rfl
    refine ⟨b₂, ?_, ?_⟩
    · rw [List.range_succ, List.foldlM_append, hfold]
      simp [prepareSlot, hwrite]
      omega
    · rw [hb₂]
      simp [List.replicate_succ', List.flatMap_append]

theorem prepareRow_layout {b : StrBuffer} {before rest : List Char} {pointer dashes count : Nat}
    (hb : b.chars = before ++ List.replicate dashes '-' ++ rest)
    (hpointer : before.length = pointer + 1) (hcount : 1 ≤ count)
    (hdashes : count * 7 + 2 ≤ dashes) :
    ∃ b' : StrBuffer,
      prepareRow count (pointer, b) = some (pointer + (count * 7 + 2), b') ∧
      b'.chars = before ++ bracketed (List.replicate count blank) ++ [','] ++
        List.replicate (dashes - (count * 7 + 2)) '-' ++ rest := by
  have hopen : b.chars =
      before ++ ['-'] ++ (List.replicate (dashes - 1) '-' ++ rest) := by
    rw [hb, replicate_split 1 dashes (by omega)]
    simp only [List.append_assoc]
    rfl
  obtain ⟨b₁, hwrite₁, hb₁⟩ := StrBuffer.write_split (pointer + 1) ['['] hopen hpointer.symm rfl
  have hb₁' : b₁.chars = (before ++ ['[']) ++ List.replicate (dashes - 1) '-' ++ rest := by
    rw [hb₁]
    simp only [List.append_assoc]
  obtain ⟨b₂, hfold, hb₂⟩ := foldlM_prepareSlot count hb₁'
    (show (before ++ ['[']).length = (pointer + 1) + 1 by simp [hpointer]) (by omega)
  have hne : List.replicate count blank ≠ [] := by
    simp
    omega
  have hslots := length_intercalate hne (k := 6) (by simp [length_blank])
  rw [List.length_replicate] at hslots
  have hclose : b₂.chars = (before ++ ['['] ++ List.intercalate [','] (List.replicate count blank)) ++
      [','] ++ (List.replicate (dashes - 1 - count * 7) '-' ++ rest) := by
    rw [hb₂, flatMap_append_sep [','] hne]
    simp only [List.append_assoc]
  have hclosePos : pointer + 1 + count * 7 = (before ++ ['['] ++
      List.intercalate [','] (List.replicate count blank)).length := by
    simp only [List.length_append, List.length_singleton]
    omega
  obtain ⟨b₃, hwrite₃, hb₃⟩ := StrBuffer.write_split _ [']'] hclose hclosePos rfl
  have hcomma : b₃.chars = (before ++ bracketed (List.replicate count blank)) ++ ['-'] ++
      (List.replicate (dashes - (count * 7 + 2)) '-' ++ rest) := by
    rw [hb₃, replicate_split 1 (dashes - 1 - count * 7) (by omega)]
    have hrest : dashes - 1 - count * 7 - 1 = dashes - (count * 7 + 2) := by omega
    rw [hrest]
    simp [bracketed]
  have hcommaPos : pointer + 1 + count * 7 + 1 =
      (before ++ bracketed (List.replicate count blank)).length := by
    have hlength := length_bracketed hne (by simp [length_blank])
    rw [List.length_replicate] at hlength
    rw [List.length_append]
    omega
  obtain ⟨b₄, hwrite₄, hb₄⟩ := StrBuffer.write_split _ [','] hcomma hcommaPos rfl
  refine ⟨b₄, ?_, ?_⟩
  · simp only [prepareRow, hwrite₁, hfold, hwrite₃, hwrite₄, Option.bind_eq_bind, Option.bind_some,
      Option.pure_def]
    congr 2
    omega
  · rw [hb₄]
    simp only [List.append_assoc]

theorem foldlM_prepareRow {b : StrBuffer} {before rest : List Char}
    {pointer dashes innerCount : Nat} (count : Nat)
    (hb : b.chars = before ++ List.replicate dashes '-' ++ rest)
    (hpointer : before.length = pointer + 1) (hinner : 1 ≤ innerCount)
    (hdashes : count * (innerCount * 7 + 2) ≤ dashes) :
    ∃ b' : StrBuffer,
      (List.range count).foldlM (fun s _ => prepareRow innerCount s) (pointer, b) =
        some (pointer + count * (innerCount * 7 + 2), b') ∧
      b'.chars = before ++ (List.replicate count
          (bracketed (List.replicate innerCount blank))).flatMap (· ++ [',']) ++
        List.replicate (dashes - count * (innerCount * 7 + 2)) '-' ++ rest := by
  induction count with
  | zero => exact ⟨b, by simp, by simp [hb]⟩
  | succ count ih =>
    rw [Nat.succ_mul] at hdashes
    obtain ⟨b₁, hfold, hb₁⟩ := ih (by omega)
    have hne : List.replicate innerCount blank ≠ [] := by
      simp
      omega
    have hrow := length_bracketed hne (by simp [length_blank])
    rw [List.length_replicate] at hrow
    have hrows : ((List.replicate count
        (bracketed (List.replicate innerCount blank))).flatMap (· ++ [','])).length =
        count * (innerCount * 7 + 2) := by
      simp [hrow]
    have hlength : (before ++ (List.replicate count
        (bracketed (List.replicate innerCount blank))).flatMap (· ++ [','])).length =
        pointer + count * (innerCount * 7 + 2) + 1 := by
      rw [List.length_append, hrows, hpointer]
      omega
    obtain ⟨b₂, hprepare, hb₂⟩ := prepareRow_layout hb₁ hlength hinner (by omega)
    refine ⟨b₂, ?_, ?_⟩
    · rw [List.range_succ, List.foldlM_append, hfold]
      simp [hprepare, Nat.succ_mul]
      omega
    · rw [hb₂, Nat.succ_mul, Nat.sub_sub]
      simp [List.replicate_succ', List.flatMap_append]

/-- The buffer holds a complete line, whatever is behind it. -/
structure Laid (entityId runId : List Char) (innerCount : Nat) (rows : List (List (List Char)))
    (h : RunDataHandler) : Prop where
  layout : ∃ rest, h.strBuffer.chars = referenceLine entityId runId rows ++ rest
  actual : h.actualBufferLength = calculateTotalBufferLength rows.length innerCount
  row : ∀ row ∈ rows, row.length = innerCount
  slot : ∀ row ∈ rows, ∀ slot ∈ row, slot.length = 6

theorem innerBufferLength_eq (innerCount : Nat) :
    calculateInnerBufferLength innerCount = innerCount * 7 + 2 := by
  unfold calculateInnerBufferLength
  omega

theorem totalBufferLength_eq (outerCount innerCount : Nat) :
    calculateTotalBufferLength outerCount innerCount =
      124 + outerCount * (innerCount * 7 + 2) + 3 := by
  unfold calculateTotalBufferLength bufferLengthStatic
  rw [innerBufferLength_eq]
  omega

/-- For each channel count the full chunk fits into the buffer. -/
theorem fullOuterCount_fits {innerCount : Nat}
    (h : innerCount = 1 ∨ innerCount = 2 ∨ innerCount = 4 ∨ innerCount = 8) :
    1 ≤ innerCount ∧ 1 ≤ fullOuterCount innerCount ∧
      124 + (fullOuterCount innerCount * (innerCount * 7 + 2) + 3) ≤ bufferLength := by
  rcases h with rfl | rfl | rfl | rfl <;> decide

/-- A copy over any part of the buffer. -/
theorem StrBuffer.write_append {b : StrBuffer} {before rest : List Char} (pos : Nat)
    (text : List Char) (h : b.chars = before ++ rest) (hpos : pos = before.length)
    (hfits : pos + text.length ≤ bufferLength) :
    ∃ b' : StrBuffer, b.write pos text = some b' ∧
      b'.chars = before ++ text ++ rest.drop text.length := by
  have htotal := b.length_eq
  rw [h, List.length_append] at htotal
  have hsplit : b.chars = before ++ rest.take text.length ++ rest.drop text.length := by
    rw [h, List.append_assoc, List.take_append_drop]
  apply StrBuffer.write_split pos text hsplit hpos
  rw [List.length_take]
  omega

/-- The fixed text with both identifiers, and dashes where the data will be. -/
theorem write_header (b : StrBuffer) {entityId runId : List Char} {dashes : Nat}
    (hrun : runId.length = 36) (hentity : entityId.length = 17)
    (hfits : 124 + dashes ≤ bufferLength) :
    ∃ b₁ b₂ b₃ b₄ : StrBuffer, b.write 0 messageStart = some b₁ ∧
      b₁.write bufferIdxEntityId (entityId.take bufferLengthEntityId) = some b₂ ∧
      b₂.memset bufferLengthStatic '-' dashes = some b₃ ∧
      b₃.write bufferIdxRunId (runId.take bufferLengthRunId) = some b₄ ∧
      ∃ rest, b₄.chars = header entityId runId ++ List.replicate dashes '-' ++ rest := by
  have hstart : messageStart.length = 124 := by
    rw [messageStart_eq]
    exact length_header rfl rfl
  have hentityTake : entityId.take bufferLengthEntityId = entityId :=
    List.take_of_length_le (by rw [hentity]; decide)
  have hrunTake : runId.take bufferLengthRunId = runId :=
    List.take_of_length_le (by rw [hrun]; decide)
  obtain ⟨b₁, hwrite₁, hb₁⟩ := StrBuffer.write_append 0 messageStart
    (show b.chars = [] ++ b.chars from rfl) rfl (by omega)
  generalize b.chars.drop messageStart.length = rest₁ at hb₁
  have hb₁' : b₁.chars = (beforeRunId ++ "xxxxxxxx-xxxx-xxxx-xxxx-xxxxxxxxxxxx".toList ++
      beforeEntityId) ++ "XX-XX-XX-XX-XX-XX".toList ++ (beforeData ++ rest₁) := by
    rw [hb₁, List.nil_append, messageStart_eq]
    simp only [header, List.append_assoc]
  have hpos₂ : bufferIdxEntityId = (beforeRunId ++
      "xxxxxxxx-xxxx-xxxx-xxxx-xxxxxxxxxxxx".toList ++ beforeEntityId).length := by
    rw [List.length_append, List.length_append, length_beforeRunId, length_beforeEntityId]
    rfl
  obtain ⟨b₂, hwrite₂, hb₂⟩ := StrBuffer.write_split _ entityId hb₁' hpos₂ hentity
  have hb₂' : b₂.chars =
      header entityId "xxxxxxxx-xxxx-xxxx-xxxx-xxxxxxxxxxxx".toList ++ rest₁ := by
    rw [hb₂]
    simp only [header, List.append_assoc]
  have hpos₃ : bufferLengthStatic =
      (header entityId "xxxxxxxx-xxxx-xxxx-xxxx-xxxxxxxxxxxx".toList).length :=
    (length_header rfl hentity).symm
  obtain ⟨b₃, hwrite₃, hb₃⟩ := StrBuffer.write_append _ (List.replicate dashes '-') hb₂' hpos₃
    (by rw [List.length_replicate]; exact hfits)
  generalize rest₁.drop (List.replicate dashes '-').length = rest₃ at hb₃
  have hb₃' : b₃.chars = beforeRunId ++ "xxxxxxxx-xxxx-xxxx-xxxx-xxxxxxxxxxxx".toList ++
      (beforeEntityId ++ entityId ++ beforeData ++ List.replicate dashes '-' ++ rest₃) := by
    rw [hb₃]
    simp only [header, List.append_assoc]
  obtain ⟨b₄, hwrite₄, hb₄⟩ := StrBuffer.write_split bufferIdxRunId runId hb₃'
    length_beforeRunId.symm hrun
  rw [hentityTake, hrunTake]
  refine ⟨b₁, b₂, b₃, b₄, hwrite₁, hwrite₂, hwrite₃, hwrite₄, rest₃, ?_⟩
  rw [hb₄]
  simp only [header, List.append_assoc]

/-- The end of the message takes the place of the last comma. -/
theorem write_end {b : StrBuffer} {before rest : List Char} {c₁ c₂ c₃ c₄ : Char} {pos : Nat}
    (hb : b.chars = before ++ [c₁, c₂, c₃, c₄] ++ rest) (hpos : pos = before.length) :
    ∃ b₁ b₂ : StrBuffer, b.write pos messageEnd = some b₁ ∧
      b₁.write (pos + 3) ['\n'] = some b₂ ∧
      b₂.chars = before ++ messageEnd ++ ['\n'] ++ rest := by
  have hb' : b.chars = before ++ [c₁, c₂, c₃] ++ ([c₄] ++ rest) := by
    rw [hb]
    simp
  obtain ⟨b₁, hwrite₁, hb₁⟩ := StrBuffer.write_split pos messageEnd hb' hpos rfl
  have hb₁' : b₁.chars = (before ++ messageEnd) ++ [c₄] ++ rest := by
    rw [hb₁, List.append_assoc (before ++ messageEnd)]
  have hpos₁ : pos + 3 = (before ++ messageEnd).length := by
    rw [List.length_append, hpos]
    rfl
  obtain ⟨b₂, hwrite₂, hb₂⟩ := StrBuffer.write_split _ ['\n'] hb₁' hpos₁ rfl
  exact ⟨b₁, b₂, hwrite₁, hwrite₂, hb₂⟩

theorem prepare_laid (h : RunDataHandler) {entityId runId : List Char} {innerCount : Nat}
    (hrun : runId.length = 36) (hentity : entityId.length = 17)
    (hinner : innerCount = 1 ∨ innerCount = 2 ∨ innerCount = 4 ∨ innerCount = 8) :
    ∃ h' : RunDataHandler, h.prepare entityId runId innerCount = some h' ∧
      Laid entityId runId innerCount
        (List.replicate (fullOuterCount innerCount) (List.replicate innerCount blank)) h' := by
  obtain ⟨hone, hfull, hfits⟩ := fullOuterCount_fits hinner
  generalize houter : fullOuterCount innerCount = outerCount at hfull hfits ⊢
  have htotal := totalBufferLength_eq outerCount innerCount
  have hdashes : calculateTotalBufferLength outerCount innerCount - bufferLengthStatic =
      outerCount * (innerCount * 7 + 2) + 3 := by
    rw [htotal, bufferLengthStatic]
    omega
  obtain ⟨b₁, b₂, b₃, b₄, hwrite₁, hwrite₂, hwrite₃, hwrite₄, rest, hb₄⟩ :=
    write_header h.strBuffer hrun hentity hfits
  have hheader := length_header hrun hentity
  obtain ⟨b₅, hfold, hb₅⟩ := foldlM_prepareRow outerCount hb₄
    (show (header entityId runId).length = (bufferLengthStatic - 1) + 1 from hheader) hone
    (by omega)
  generalize hrows : List.replicate outerCount (List.replicate innerCount blank) = rows
  have hbracketed : List.replicate outerCount (bracketed (List.replicate innerCount blank)) =
      rows.map bracketed := by
    rw [← hrows, List.map_replicate]
  have hne : rows.map bracketed ≠ [] := by
    simp [← hrows]
    omega
  have hlast : b₅.chars = lineBody entityId runId rows ++ [',', '-', '-', '-'] ++ rest := by
    have hthree : outerCount * (innerCount * 7 + 2) + 3 - outerCount * (innerCount * 7 + 2) = 3 := by
      omega
    rw [hb₅, hbracketed, flatMap_append_sep [','] hne, hthree]
    simp [lineBody]
  have hrow : ∀ row ∈ rows, row.length = innerCount := by
    simp [← hrows]
  have hslot : ∀ row ∈ rows, ∀ slot ∈ row, slot.length = 6 := by
    simp [← hrows, length_blank]
  have hcount : rows.length = outerCount := by simp [← hrows]
  have hlength := length_lineBody hrun hentity hone (List.map_eq_nil_iff.not.mp hne) hrow hslot
  have hpos : bufferLengthStatic - 1 + outerCount * (innerCount * 7 + 2) =
      (lineBody entityId runId rows).length := by
    rw [hcount] at hlength
    rw [bufferLengthStatic]
    omega
  obtain ⟨b₆, b₇, hwrite₆, hwrite₇, hb₇⟩ := write_end hlast hpos
  have hnewline : calculateTotalBufferLength outerCount innerCount - 1 =
      bufferLengthStatic - 1 + outerCount * (innerCount * 7 + 2) + 3 := by
    rw [htotal, bufferLengthStatic]
    omega
  refine ⟨⟨b₇, calculateTotalBufferLength outerCount innerCount⟩, ?_, ⟨rest, hb₇⟩, ?_, hrow, hslot⟩
  · simp only [RunDataHandler.prepare, houter, hdashes, hwrite₁, hwrite₂, hwrite₃, hwrite₄, hfold,
      hwrite₆, hnewline, hwrite₇, Option.bind_eq_bind, Option.bind_some, Option.pure_def]
  · rw [hcount]

end Layout

end Lucidac.Protocol
