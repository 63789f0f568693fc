import Lucidac.Protocol.RunData

/-!
# The lines with run data

After the layout is prepared each chunk fills the slots of the rows it has.  Every text that is
written is a complete line, with the numbers of its chunk and no other.
-/

namespace Lucidac.Protocol

open Framework.JsonText

section Fill

variable {data : Nat → BitVec 32} {innerCount : Nat}

/-- The text for one number of a chunk. -/
def slotText (data : Nat → BitVec 32) (innerCount outer inner : Nat) : List Char :=
  rawToStr ((data (outer * innerCount + inner)).setWidth 16)

/-- The matrix of a chunk as text. -/
def chunkRows (data : Nat → BitVec 32) (outerCount innerCount : Nat) : List (List (List Char)) :=
  (List.range outerCount).map fun outer =>
    (List.range innerCount).map (slotText data innerCount outer)

theorem length_rawToStr (raw : BitVec 16) : (rawToStr raw).length = 6 := by
  unfold rawToStr normalizedToFloatStr
  split <;> rfl

theorem fillSlot_eq (outer inner : Nat) (b : StrBuffer) :
    fillSlot data innerCount outer b inner =
      b.write (124 + outer * (innerCount * 7 + 2) + 1 + inner * 7)
        (slotText data innerCount outer inner) := by
  have htake : (slotText data innerCount outer inner).take 6 =
      slotText data innerCount outer inner :=
    List.take_of_length_le (Nat.le_of_eq (length_rawToStr _))
  change b.write (bufferLengthStatic + outer * calculateInnerBufferLength innerCount + 1 +
    inner * 7) ((slotText data innerCount outer inner).take 6) = _
  rw [innerBufferLength_eq, htake]
  rfl

/-- Items separated by commas are replaced one after the other, at equal distances. -/
theorem foldlM_fill (fill : StrBuffer → Nat → Option StrBuffer) (new : Nat → List Char)
    {base stride : Nat} (hnew : ∀ k, (new k).length + 1 = stride) {items : List (List Char)}
    (hfill : ∀ (k : Nat) (b : StrBuffer) (before item rest : List Char), item ∈ items →
      b.chars = before ++ item ++ rest → before.length = base + k * stride →
      ∃ b' : StrBuffer, fill b k = some b' ∧ b'.chars = before ++ new k ++ rest)
    {b : StrBuffer} {before rest : List Char} (start : Nat)
    (hb : b.chars = before ++ List.intercalate [','] items ++ rest)
    (hbefore : before.length = base + start * stride) :
    ∃ b' : StrBuffer, (List.range' start items.length).foldlM fill b = some b' ∧
      b'.chars = before ++ List.intercalate [','] ((List.range' start items.length).map new) ++
        rest := by
  induction items generalizing b before start with
  | nil => exact ⟨b, rfl, hb⟩
  | cons item items ih =>
    cases items with
    | nil =>
      rw [List.intercalate_singleton] at hb
      obtain ⟨b₁, hfill₁, hb₁⟩ := hfill start b before item rest (by simp) hb hbefore
      refine ⟨b₁, ?_, ?_⟩
      · simp [hfill₁]
      · simpa using hb₁
    | cons next items =>
      have hb' : b.chars = before ++ item ++
          (',' :: (List.intercalate [','] (next :: items) ++ rest)) := by
        rw [hb, List.intercalate_cons_cons]
        simp
      obtain ⟨b₁, hfill₁, hb₁⟩ := hfill start b before item _ (by simp) hb' hbefore
      have hb₁' : b₁.chars = (before ++ new start ++ [',']) ++
          List.intercalate [','] (next :: items) ++ rest := by
        rw [hb₁]
        simp
      have hbefore' : (before ++ new start ++ [',']).length = base + (start + 1) * stride := by
        have hlength := hnew start
        rw [List.length_append, List.length_append, List.length_singleton, Nat.succ_mul]
        omega
      obtain ⟨b₂, hfold, hb₂⟩ := ih
        (fun k b before item rest hitem => hfill k b before item rest
          (List.mem_cons_of_mem _ hitem)) (start + 1) hb₁' hbefore'
      refine ⟨b₂, ?_, ?_⟩
      · rw [List.length_cons, List.range'_succ, List.foldlM_cons, hfill₁]
        exact hfold
      · rw [hb₂]
        simp only [List.length_cons, List.range'_succ, List.map_cons, List.intercalate_cons_cons]
        simp

theorem length_slotText (outer inner : Nat) :
    (slotText data innerCount outer inner).length = 6 :=
  length_rawToStr _

theorem fillRow_layout {outer : Nat} {slots : List (List Char)} (hcount : slots.length = innerCount)
    (hslot : ∀ slot ∈ slots, slot.length = 6) {b : StrBuffer} {before rest : List Char}
    (hb : b.chars = before ++ bracketed slots ++ rest)
    (hbefore : before.length = 124 + outer * (innerCount * 7 + 2)) :
    ∃ b' : StrBuffer, fillRow data innerCount b outer = some b' ∧
      b'.chars = before ++
        bracketed ((List.range innerCount).map (slotText data innerCount outer)) ++ rest := by
  have hb' : b.chars = (before ++ ['[']) ++ List.intercalate [','] slots ++ (']' :: rest) := by
    rw [hb]
    simp [bracketed]
  have hbefore' : (before ++ ['[']).length =
      (124 + outer * (innerCount * 7 + 2) + 1) + 0 * 7 := by
    simp [hbefore]
  obtain ⟨b₁, hfold, hb₁⟩ := foldlM_fill (fillSlot data innerCount outer)
    (slotText data innerCount outer) (fun inner => congrArg (· + 1) (length_slotText outer inner))
    (fun inner b before slot rest hmem hb hbefore => by
      rw [fillSlot_eq]
      exact StrBuffer.write_split _ _ hb hbefore.symm
        ((length_slotText outer inner).trans (hslot slot hmem).symm)) 0 hb' hbefore'
  rw [hcount, ← List.range_eq_range'] at hfold hb₁
  refine ⟨b₁, hfold, ?_⟩
  rw [hb₁]
  simp [bracketed]

theorem length_chunkRow (hinner : 1 ≤ innerCount) (outer : Nat) :
    (bracketed ((List.range innerCount).map (slotText data innerCount outer))).length + 1 =
      innerCount * 7 + 2 := by
  have hne : (List.range innerCount).map (slotText data innerCount outer) ≠ [] := by
    simp
    omega
  rw [length_bracketed hne (by simp [length_slotText])]
  simp

/-- Filling every row of a line gives the line of the chunk. -/
theorem foldlM_fillRow {entityId runId : List Char} (hrun : runId.length = 36)
    (hentity : entityId.length = 17) {rows : List (List (List Char))} (hinner : 1 ≤ innerCount)
    (hrow : ∀ row ∈ rows, row.length = innerCount)
    (hslot : ∀ row ∈ rows, ∀ slot ∈ row, slot.length = 6) {b : StrBuffer} {rest : List Char}
    (hb : b.chars = referenceLine entityId runId rows ++ rest) :
    ∃ b' : StrBuffer, (List.range rows.length).foldlM (fillRow data innerCount) b = some b' ∧
      b'.chars = referenceLine entityId runId (chunkRows data rows.length innerCount) ++ rest := by
  have hb' : b.chars = header entityId runId ++ List.intercalate [','] (rows.map bracketed) ++
      (messageEnd ++ ['\n'] ++ rest) := by
    rw [hb]
    simp only [referenceLine, List.append_assoc]
  have hbefore : (header entityId runId).length = 124 + 0 * (innerCount * 7 + 2) := by
    rw [length_header hrun hentity, Nat.zero_mul]
  obtain ⟨b₁, hfold, hb₁⟩ := foldlM_fill (fillRow data innerCount)
    (fun outer => bracketed ((List.range innerCount).map (slotText data innerCount outer)))
    (length_chunkRow hinner)
    (fun outer b before item rest hmem hb hbefore => by
      obtain ⟨row, hrowMem, rfl⟩ := List.mem_map.mp hmem
      exact fillRow_layout (hrow row hrowMem) (hslot row hrowMem) hb hbefore) 0 hb' hbefore
  rw [List.length_map, ← List.range_eq_range'] at hfold hb₁
  refine ⟨b₁, hfold, ?_⟩
  rw [hb₁]
  simp [referenceLine, chunkRows, Function.comp_def]

end Fill

section Run

variable {data : Nat → BitVec 32} {innerCount : Nat} {entityId runId : List Char}
variable {rows : List (List (List Char))} {h : RunDataHandler}

theorem length_referenceLine (hrun : runId.length = 36) (hentity : entityId.length = 17)
    (hinner : 1 ≤ innerCount) (hne : rows ≠ []) (hrow : ∀ row ∈ rows, row.length = innerCount)
    (hslot : ∀ row ∈ rows, ∀ slot ∈ row, slot.length = 6) :
    (referenceLine entityId runId rows).length =
      calculateTotalBufferLength rows.length innerCount := by
  have hlength := length_lineBody hrun hentity hinner hne hrow hslot
  have hend : messageEnd.length = 3 := rfl
  rw [totalBufferLength_eq, referenceLine_eq_lineBody, List.length_append, List.length_append, hend,
    List.length_singleton]
  omega

theorem Laid.length_le (hlaid : Laid entityId runId innerCount rows h) (hrun : runId.length = 36)
    (hentity : entityId.length = 17) (hinner : 1 ≤ innerCount) (hne : rows ≠ []) :
    calculateTotalBufferLength rows.length innerCount ≤ bufferLength := by
  obtain ⟨rest, hb⟩ := hlaid.layout
  have htotal := h.strBuffer.length_eq
  rw [hb, List.length_append, length_referenceLine hrun hentity hinner hne hlaid.row hlaid.slot]
    at htotal
  omega

theorem chunkRows_row (outerCount : Nat) :
    ∀ row ∈ chunkRows data outerCount innerCount, row.length = innerCount := by
  simp [chunkRows]

theorem chunkRows_slot (outerCount : Nat) :
    ∀ row ∈ chunkRows data outerCount innerCount, ∀ slot ∈ row, slot.length = 6 := by
  simp [chunkRows, length_slotText]

/-- A chunk of the size the buffer is laid out for. -/
theorem Laid.send (hlaid : Laid entityId runId innerCount rows h) (hrun : runId.length = 36)
    (hentity : entityId.length = 17) (hinner : 1 ≤ innerCount) (hne : rows ≠ []) :
    ∃ h' : RunDataHandler,
      h.send data rows.length innerCount =
        some (h', referenceLine entityId runId (chunkRows data rows.length innerCount)) ∧
      Laid entityId runId innerCount (chunkRows data rows.length innerCount) h' := by
  obtain ⟨rest, hb⟩ := hlaid.layout
  obtain ⟨b, hfold, hb'⟩ := foldlM_fillRow hrun hentity hinner hlaid.row hlaid.slot hb
  have hcount : (chunkRows data rows.length innerCount).length = rows.length := by
    simp [chunkRows]
  have hchunk : chunkRows data rows.length innerCount ≠ [] := by
    intro hnil
    rw [hnil] at hcount
    exact hne (List.length_eq_zero_iff.mp hcount.symm)
  have hlength := length_referenceLine hrun hentity hinner hchunk (chunkRows_row _)
    (chunkRows_slot _)
  rw [hcount, ← hlaid.actual] at hlength
  refine ⟨{ h with strBuffer := b }, ?_, ⟨rest, hb'⟩, ?_, chunkRows_row _, chunkRows_slot _⟩
  · simp only [RunDataHandler.send, hfold, Option.bind_eq_bind, Option.bind_some, Option.pure_def,
      hb']
    rw [← hlength, List.take_left]
  · rw [hcount]
    exact hlaid.actual

variable (entityId runId) in
/-- A comma follows the first rows. -/
theorem lineBody_take {outerCount : Nat} (hone : 1 ≤ outerCount) (hlt : outerCount < rows.length) :
    ∃ cut, lineBody entityId runId rows =
      lineBody entityId runId (rows.take outerCount) ++ ',' :: cut := by
  have hkept : (rows.take outerCount).map bracketed ≠ [] := by
    rw [Ne, List.map_eq_nil_iff, List.take_eq_nil_iff]
    rintro (hzero | rfl)
    · omega
    · simp at hlt
  have hcut : (rows.drop outerCount).map bracketed ≠ [] := by
    simp
    omega
  refine ⟨List.intercalate [','] ((rows.drop outerCount).map bracketed), ?_⟩
  have hrows := intercalate_append [','] hkept hcut
  rw [← List.map_append, List.take_append_drop] at hrows
  simp only [lineBody, hrows, List.append_assoc, List.cons_append, List.nil_append]

/-- Behind the comma the buffer is cleared, then the end of the message is written over the
comma. -/
theorem clear_end {b : StrBuffer} {kept cut : List Char} {pos zeros : Nat}
    (hb : b.chars = kept ++ ',' :: cut) (hpos : pos = kept.length + 1) (hzeros : 3 ≤ zeros)
    (hfits : pos + zeros ≤ bufferLength) :
    ∃ b₁ b₂ b₃ : StrBuffer, b.memset pos '\x00' zeros = some b₁ ∧
      b₁.write (pos - 1) messageEnd = some b₂ ∧ b₂.write (pos + 2) ['\n'] = some b₃ ∧
      ∃ rest, b₃.chars = kept ++ messageEnd ++ ['\n'] ++ rest := by
  have hb' : b.chars = (kept ++ [',']) ++ cut := by
    rw [hb, List.append_assoc, List.singleton_append]
  obtain ⟨b₁, hmemset, hb₁⟩ := StrBuffer.write_append pos (List.replicate zeros '\x00') hb'
    (by rw [hpos, List.length_append, List.length_singleton])
    (by rw [List.length_replicate]; exact hfits)
  generalize cut.drop (List.replicate zeros '\x00').length = rest at hb₁
  obtain ⟨more, rfl⟩ := Nat.exists_eq_add_of_le' hzeros
  have hb₁' : b₁.chars = kept ++ [',', '\x00', '\x00', '\x00'] ++
      (List.replicate more '\x00' ++ rest) := by
    rw [hb₁]
    simp [List.replicate_succ]
  subst hpos
  obtain ⟨b₂, b₃, hwrite₂, hwrite₃, hb₃⟩ := write_end hb₁' (Nat.add_sub_cancel _ 1)
  exact ⟨b₁, b₂, b₃, hmemset, hwrite₂, hwrite₃, _, hb₃⟩

theorem totalBufferLength_sub (outerCount outerCount' : Nat) :
    calculateTotalBufferLength outerCount innerCount -
        calculateTotalBufferLength outerCount' innerCount =
      (outerCount - outerCount') * (innerCount * 7 + 2) := by
  rw [totalBufferLength_eq, totalBufferLength_eq, Nat.sub_mul]
  omega

/-- The line is cut after the first rows. -/
theorem Laid.shorten (hlaid : Laid entityId runId innerCount rows h) (hrun : runId.length = 36)
    (hentity : entityId.length = 17) (hinner : 1 ≤ innerCount) {outerCount : Nat}
    (hone : 1 ≤ outerCount) (hlt : outerCount < rows.length) :
    ∃ h' : RunDataHandler, h.shorten outerCount innerCount = some h' ∧
      Laid entityId runId innerCount (rows.take outerCount) h' := by
  obtain ⟨rest, hb⟩ := hlaid.layout
  have hkept : (rows.take outerCount).length = outerCount := by
    rw [List.length_take]
    omega
  have hkeptRow : ∀ row ∈ rows.take outerCount, row.length = innerCount :=
    fun row hmem => hlaid.row row (List.mem_of_mem_take hmem)
  have hkeptSlot : ∀ row ∈ rows.take outerCount, ∀ slot ∈ row, slot.length = 6 :=
    fun row hmem => hlaid.slot row (List.mem_of_mem_take hmem)
  have hlength := length_lineBody hrun hentity hinner (List.length_pos_iff.mp (by omega))
    hkeptRow hkeptSlot
  have hpos : calculateOuterBufferPosition outerCount innerCount =
      (lineBody entityId runId (rows.take outerCount)).length + 1 := by
    rw [hlength, hkept, calculateOuterBufferPosition, innerBufferLength_eq]
    rfl
  obtain ⟨cut, hcut⟩ := lineBody_take entityId runId hone hlt
  have hchars : h.strBuffer.chars = lineBody entityId runId (rows.take outerCount) ++
      ',' :: (cut ++ messageEnd ++ ['\n'] ++ rest) := by
    rw [hb, referenceLine_eq_lineBody, hcut]
    simp only [List.append_assoc, List.cons_append]
  -- What is cleared is at least one row and stays inside the line.
  have hzeros : h.actualBufferLength - calculateTotalBufferLength outerCount innerCount =
      (rows.length - outerCount) * (innerCount * 7 + 2) := by
    rw [hlaid.actual, totalBufferLength_sub]
  have hrow : 3 ≤ (rows.length - outerCount) * (innerCount * 7 + 2) := by
    have hle := Nat.le_mul_of_pos_left (innerCount * 7 + 2) (Nat.sub_pos_of_lt hlt)
    omega
  have hfits : calculateOuterBufferPosition outerCount innerCount +
      (rows.length - outerCount) * (innerCount * 7 + 2) ≤ bufferLength := by
    have hinside := hlaid.length_le hrun hentity hinner (List.length_pos_iff.mp (by omega))
    have hrows : outerCount * (innerCount * 7 + 2) +
        (rows.length - outerCount) * (innerCount * 7 + 2) = rows.length * (innerCount * 7 + 2) := by
      rw [← Nat.add_mul, Nat.add_sub_of_le (Nat.le_of_lt hlt)]
    rw [totalBufferLength_eq] at hinside
    rw [hpos, hlength, hkept]
    omega
  obtain ⟨b₁, b₂, b₃, hmemset, hwrite₂, hwrite₃, rest₃, hb₃⟩ := clear_end hchars hpos hrow hfits
  refine ⟨⟨b₃, calculateTotalBufferLength outerCount innerCount⟩, ?_, ⟨rest₃, hb₃⟩, ?_, hkeptRow,
    hkeptSlot⟩
  · simp only [RunDataHandler.shorten, hzeros, hmemset, hwrite₂, hwrite₃, Option.bind_eq_bind,
      Option.bind_some, Option.pure_def]
  · rw [hkept]

theorem totalBufferLength_lt_iff {outerCount outerCount' : Nat} :
    calculateTotalBufferLength outerCount innerCount <
      calculateTotalBufferLength outerCount' innerCount ↔ outerCount < outerCount' := by
  rw [totalBufferLength_eq, totalBufferLength_eq]
  constructor
  · intro hlt
    exact Nat.lt_of_mul_lt_mul_right (a := innerCount * 7 + 2) (by omega)
  · intro hlt
    have hmul := Nat.mul_lt_mul_of_pos_right hlt (show 0 < innerCount * 7 + 2 by omega)
    omega

/-- Every chunk that is no longer than the one before. -/
theorem Laid.handle (hlaid : Laid entityId runId innerCount rows h) (hrun : runId.length = 36)
    (hentity : entityId.length = 17) (hinner : 1 ≤ innerCount) {outerCount : Nat}
    (hone : 1 ≤ outerCount) (hle : outerCount ≤ rows.length) :
    ∃ h' : RunDataHandler,
      h.handle data outerCount innerCount =
        some (h', some (referenceLine entityId runId (chunkRows data outerCount innerCount))) ∧
      Laid entityId runId innerCount (chunkRows data outerCount innerCount) h' := by
  unfold RunDataHandler.handle
  simp only [hlaid.actual]
  by_cases hlt : outerCount < rows.length
  · rw [if_pos (totalBufferLength_lt_iff.mpr hlt)]
    obtain ⟨h₁, hshorten, hlaid₁⟩ := hlaid.shorten hrun hentity hinner hone hlt
    have hcount : (rows.take outerCount).length = outerCount := by
      rw [List.length_take]
      omega
    obtain ⟨h₂, hsend, hlaid₂⟩ := hlaid₁.send hrun hentity hinner
      (List.length_pos_iff.mp (by omega))
    rw [hcount] at hsend hlaid₂
    refine ⟨h₂, ?_, hlaid₂⟩
    rw [hshorten]
    simp only [Option.bind_eq_bind, Option.bind_some, hsend, Option.pure_def]
  · have hsame : rows.length = outerCount := by omega
    obtain ⟨h₂, hsend, hlaid₂⟩ := hlaid.send hrun hentity hinner
      (List.length_pos_iff.mp (by omega))
    rw [hsame] at hsend hlaid₂ ⊢
    refine ⟨h₂, ?_, hlaid₂⟩
    rw [if_neg (Nat.lt_irrefl _), if_neg (Nat.lt_irrefl _), hsend]
    rfl

/-- The calls of `handle` for some chunks, with what each writes. -/
def RunDataHandler.handleAll (innerCount : Nat) :
    List (Nat × (Nat → BitVec 32)) → RunDataHandler →
      Option (RunDataHandler × List (Option (List Char)))
  | [], h => some (h, [])
  | (outerCount, data) :: chunks, h => do
    let (h, text) ← h.handle data outerCount innerCount
    let (h, texts) ← h.handleAll innerCount chunks
    return (h, text :: texts)

theorem Laid.handleAll (hlaid : Laid entityId runId innerCount rows h) (hrun : runId.length = 36)
    (hentity : entityId.length = 17) (hinner : 1 ≤ innerCount)
    {chunks : List (Nat × (Nat → BitVec 32))} (hone : ∀ chunk ∈ chunks, 1 ≤ chunk.1)
    (hsorted : (rows.length :: chunks.map Prod.fst).Pairwise (· ≥ ·)) :
    ∃ h' : RunDataHandler, h.handleAll innerCount chunks =
      some (h', chunks.map fun chunk =>
        some (referenceLine entityId runId (chunkRows chunk.2 chunk.1 innerCount))) := by
  induction chunks generalizing rows h with
  | nil => exact ⟨h, rfl⟩
  | cons chunk chunks ih =>
    obtain ⟨outerCount, data⟩ := chunk
    rw [List.forall_mem_cons] at hone
    rw [List.map_cons, List.pairwise_cons] at hsorted
    obtain ⟨h₁, hhandle, hlaid₁⟩ := hlaid.handle hrun hentity hinner hone.1
      (hsorted.1 outerCount (by simp))
    have hcount : (chunkRows data outerCount innerCount).length = outerCount := by
      simp [chunkRows]
    obtain ⟨h₂, hall⟩ := ih hlaid₁ hone.2 (by rw [hcount]; exact hsorted.2)
    refine ⟨h₂, ?_⟩
    simp only [RunDataHandler.handleAll, hhandle, Option.bind_eq_bind, Option.bind_some, hall,
      Option.pure_def, List.map_cons]

end Run

section Meaning

variable {data : Nat → BitVec 32} {outerCount innerCount : Nat} {entityId runId : List Char}

/-- The number in a slot, without the blank that stands for the sign. -/
def rawLiteral (raw : BitVec 16) : List Char :=
  if rawToNormalized raw < 1250 then thousandths (1250 - rawToNormalized raw)
  else '-' :: thousandths (rawToNormalized raw - 1250)

def chunkNumbers (data : Nat → BitVec 32) (outerCount innerCount : Nat) :
    List (List (List Char)) :=
  (List.range outerCount).map fun outer => (List.range innerCount).map fun inner =>
    rawLiteral ((data (outer * innerCount + inner)).setWidth 16)

theorem denotes_rawToStr (raw : BitVec 16) :
    Denotes (rawToStr raw) (.number (rawLiteral raw)) := by
  have hle : rawToNormalized raw ≤ 2500 := Nat.min_le_right _ _
  unfold rawToStr normalizedToFloatStr rawLiteral
  split
  · exact (denotes_number (isNumeral_thousandths (by omega))).space_cons rfl
  · exact denotes_number (isNumeral_minus_thousandths (by omega))

theorem denotes_chunkRow (outer : Nat) :
    Denotes (bracketed ((List.range innerCount).map (slotText data innerCount outer)))
      (.array ((List.range innerCount).map fun inner =>
        .number (rawLiteral ((data (outer * innerCount + inner)).setWidth 16)))) := by
  have hrow := denotes_array ((List.range innerCount).map fun inner =>
    (slotText data innerCount outer inner,
      .number (rawLiteral ((data (outer * innerCount + inner)).setWidth 16))))
  simp only [List.forall_mem_map, List.map_map, Function.comp_def] at hrow
  exact hrow fun inner _ => denotes_rawToStr _

variable (data outerCount innerCount) in
theorem denotes_chunkData :
    Denotes ('[' :: (List.intercalate [','] ((chunkRows data outerCount innerCount).map bracketed) ++
        [']']))
      (.array ((chunkNumbers data outerCount innerCount).map fun row => .array (row.map .number))) := by
  have hrows := denotes_array ((List.range outerCount).map fun outer =>
    (bracketed ((List.range innerCount).map (slotText data innerCount outer)),
      .array ((List.range innerCount).map fun inner =>
        .number (rawLiteral ((data (outer * innerCount + inner)).setWidth 16)))))
  simp only [List.forall_mem_map, List.map_map, Function.comp_def] at hrows
  simpa only [chunkRows, chunkNumbers, List.map_map, Function.comp_def] using
    hrows fun outer _ => denotes_chunkRow outer

/-- A member with the blanks of the fixed text. -/
theorem Denotes.reads_spaced {key text : List Char} {value : JsonTree}
    (h : Denotes text value) (hkey : Plain key) :
    Reads (fun fuel => parseMember (parseValue fuel)) (' ' :: memberText key (' ' :: text))
      (key, value) :=
  ((h.space_cons rfl).reads_member hkey).space_cons rfl

theorem beforeRunId_eq :
    beforeRunId = '{' :: ' ' :: (memberText "type".toList (' ' :: '"' :: ("run_data".toList ++ ['"'])) ++
      ',' :: ' ' :: memberText "msg".toList (' ' :: '{' :: ' ' :: memberText "id".toList [' ', '"'])) := by
  decide +kernel

theorem beforeEntityId_eq :
    beforeEntityId = '"' :: ',' :: ' ' :: memberText "entity".toList [' ', '[', '"'] := by
  decide +kernel

theorem beforeData_eq :
    beforeData = '"' :: ',' :: ' ' :: '"' :: '0' :: '"' :: ']' :: ',' :: ' ' ::
      memberText "data".toList [' ', '['] := by
  decide +kernel

/-- The texts of the fixed part with its blanks. -/
def pathText (entityId : List Char) : List Char :=
  '[' :: (List.intercalate [','] ['"' :: (entityId ++ ['"']), [' ', '"', '0', '"']] ++ [']'])

def spacedMsgText (entityId runId dataText : List Char) : List Char :=
  '{' :: (List.intercalate [',']
    [' ' :: memberText "id".toList (' ' :: '"' :: (runId ++ ['"'])),
     ' ' :: memberText "entity".toList (' ' :: pathText entityId),
     ' ' :: memberText "data".toList (' ' :: dataText)] ++ ['}'])

def spacedText (msgText : List Char) : List Char :=
  '{' :: (List.intercalate [',']
    [' ' :: memberText "type".toList (' ' :: '"' :: ("run_data".toList ++ ['"'])),
     ' ' :: memberText "msg".toList (' ' :: msgText)] ++ ['}'])

theorem referenceLine_eq (rows : List (List (List Char))) :
    referenceLine entityId runId rows =
      spacedText (spacedMsgText entityId runId
        ('[' :: (List.intercalate [','] (rows.map bracketed) ++ [']']))) ++ ['\n'] := by
  have hend : messageEnd = [']', '}', '}'] := rfl
  simp only [referenceLine, header, beforeRunId_eq, beforeEntityId_eq, beforeData_eq, hend,
    spacedText, spacedMsgText, pathText, memberText, List.intercalate_cons_cons,
    List.intercalate_singleton, List.append_assoc, List.cons_append, List.nil_append]

theorem denotes_pathText (hentity : Plain entityId) :
    Denotes (pathText entityId) (.array [.string entityId, .string "0".toList]) := by
  have hzero : Denotes [' ', '"', '0', '"'] (.string "0".toList) :=
    (denotes_string (show Plain "0".toList by decide)).space_cons rfl
  exact denotes_array
    [('"' :: (entityId ++ ['"']), .string entityId), ([' ', '"', '0', '"'], .string "0".toList)]
    (by
      simp only [List.forall_mem_cons]
      exact ⟨denotes_string hentity, hzero, by simp⟩)

theorem denotes_spacedMsgText {dataText : List Char} {value : JsonTree} (hrun : Plain runId)
    (hentity : Plain entityId) (hdata : Denotes dataText value) :
    Denotes (spacedMsgText entityId runId dataText)
      (.object [("id".toList, .string runId),
        ("entity".toList, .array [.string entityId, .string "0".toList]),
        ("data".toList, value)]) :=
  denotes_object_of_reads
    [(' ' :: memberText "id".toList (' ' :: '"' :: (runId ++ ['"'])), ("id".toList, .string runId)),
     (' ' :: memberText "entity".toList (' ' :: pathText entityId),
        ("entity".toList, .array [.string entityId, .string "0".toList])),
     (' ' :: memberText "data".toList (' ' :: dataText), ("data".toList, value))]
    (by
      simp only [List.forall_mem_cons]
      exact ⟨Denotes.reads_spaced (denotes_string hrun) (by decide),
        Denotes.reads_spaced (denotes_pathText hentity) (by decide),
        Denotes.reads_spaced hdata (by decide), by simp⟩)

theorem denotes_spacedText {msgText : List Char} {value : JsonTree} (hmsg : Denotes msgText value) :
    Denotes (spacedText msgText)
      (.object [("type".toList, .string "run_data".toList), ("msg".toList, value)]) :=
  denotes_object_of_reads
    [(' ' :: memberText "type".toList (' ' :: '"' :: ("run_data".toList ++ ['"'])),
        ("type".toList, .string "run_data".toList)),
     (' ' :: memberText "msg".toList (' ' :: msgText), ("msg".toList, value))]
    (by
      simp only [List.forall_mem_cons]
      exact ⟨Denotes.reads_spaced (denotes_string (by decide)) (by decide),
        Denotes.reads_spaced hmsg (by decide), by simp⟩)

theorem denotes_referenceLine (hrun : Plain runId) (hentity : Plain entityId) :
    Denotes (referenceLine entityId runId (chunkRows data outerCount innerCount))
      (runDataMessage runId entityId (chunkNumbers data outerCount innerCount)) := by
  have hmsg := denotes_spacedMsgText hrun hentity (denotes_chunkData data outerCount innerCount)
  have hline := (denotes_spacedText hmsg).append_space (show skipSpace ['\n'] = [] from rfl)
    (delimited_cons rfl)
  rw [referenceLine_eq]
  exact hline

/-- Full chunks, and at most one shorter chunk at the end. -/
def chunksOf (innerCount : Nat) (fulls : List (Nat → BitVec 32))
    (last : Option (Nat × (Nat → BitVec 32))) : List (Nat × (Nat → BitVec 32)) :=
  fulls.map (fun data => (fullOuterCount innerCount, data)) ++ last.toList

/-- Every chunk of a run is written as its reference line, which is the JSON object with its
matrix; no write leaves the buffer. -/
theorem handleAll_referenceLines (h : RunDataHandler) (innerCount : Nat)
    (hinner : innerCount = 1 ∨ innerCount = 2 ∨ innerCount = 4 ∨ innerCount = 8)
    (runId entityId : List Char) (hrunLength : runId.length = 36) (hrun : Plain runId)
    (hentityLength : entityId.length = 17) (hentity : Plain entityId)
    (fulls : List (Nat → BitVec 32)) (last : Option (Nat × (Nat → BitVec 32)))
    (hlast : ∀ chunk ∈ last, 1 ≤ chunk.1 ∧ chunk.1 < fullOuterCount innerCount) :
    ∃ h₁ h₂ : RunDataHandler, h.prepare entityId runId innerCount = some h₁ ∧
      h₁.handleAll innerCount (chunksOf innerCount fulls last) =
        some (h₂, (chunksOf innerCount fulls last).map fun chunk =>
          some (referenceLine entityId runId (chunkRows chunk.2 chunk.1 innerCount))) ∧
      ∀ chunk ∈ chunksOf innerCount fulls last,
        Denotes (referenceLine entityId runId (chunkRows chunk.2 chunk.1 innerCount))
          (runDataMessage runId entityId (chunkNumbers chunk.2 chunk.1 innerCount)) := by
  obtain ⟨hone, hfull, -⟩ := fullOuterCount_fits hinner
  obtain ⟨h₁, hprepare, hlaid⟩ := prepare_laid h hrunLength hentityLength hinner
  have hpositive : ∀ chunk ∈ chunksOf innerCount fulls last, 1 ≤ chunk.1 := by
    intro chunk hchunk
    rcases List.mem_append.mp hchunk with hmem | hmem
    · obtain ⟨data, -, rfl⟩ := List.mem_map.mp hmem
      exact hfull
    · exact (hlast chunk (Option.mem_toList.mp hmem)).1
  have hsorted : ((List.replicate (fullOuterCount innerCount)
      (List.replicate innerCount blank)).length ::
        (chunksOf innerCount fulls last).map Prod.fst).Pairwise (· ≥ ·) := by
    have hcounts : (chunksOf innerCount fulls last).map Prod.fst =
        List.replicate fulls.length (fullOuterCount innerCount) ++ last.toList.map Prod.fst := by
      simp [chunksOf, Function.comp_def, List.map_const']
    rw [hcounts, List.length_replicate, ← List.cons_append, ← List.replicate_succ,
      List.pairwise_append]
    refine ⟨List.pairwise_replicate.mpr (.inr (Nat.le_refl _)), ?_, ?_⟩
    · cases last <;> simp
    · intro full hmem count hcount
      obtain ⟨chunk, hchunk, rfl⟩ := List.mem_map.mp hcount
      rw [List.eq_of_mem_replicate hmem]
      exact Nat.le_of_lt (hlast chunk (Option.mem_toList.mp hchunk)).2
  obtain ⟨h₂, hall⟩ := hlaid.handleAll hrunLength hentityLength hone hpositive hsorted
  exact ⟨h₁, h₂, hprepare, hall, fun chunk _ => denotes_referenceLine hrun hentity⟩

/-- Eight channels: one full chunk and a last one with a single sample. -/
theorem handleAll_referenceLines_of_two_chunks :
    let h : RunDataHandler :=
      { strBuffer := ⟨List.replicate bufferLength '\x00', List.length_replicate⟩
        actualBufferLength := bufferLength }
    let runId := "01234567-89ab-cdef-0123-456789abcdef".toList
    let entityId := "04-E9-E5-0D-CB-93".toList
    ∃ h₁ h₂ : RunDataHandler, h.prepare entityId runId 8 = some h₁ ∧
      h₁.handleAll 8 [(16, fun i => BitVec.ofNat 32 i), (1, fun _ => 16383)] =
        some (h₂, [some (referenceLine entityId runId (chunkRows (fun i => BitVec.ofNat 32 i) 16 8)),
          some (referenceLine entityId runId (chunkRows (fun _ => 16383) 1 8))]) := by
  obtain ⟨h₁, h₂, hprepare, hall, -⟩ := handleAll_referenceLines _ 8 (by decide)
    "01234567-89ab-cdef-0123-456789abcdef".toList "04-E9-E5-0D-CB-93".toList (by decide)
    (by decide) (by decide) (by decide) [fun i => BitVec.ofNat 32 i] (some (1, fun _ => 16383))
    (by simp; decide)
  exact ⟨h₁, h₂, hprepare, hall⟩

end Meaning

end Lucidac.Protocol
