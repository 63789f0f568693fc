import Lucidac.Framework.Bits
import Lucidac.Block.UBlock
import Mathlib.Tactic.IntervalCases

/-!
# The bit stream of the U block's matrix

`UMatrixFunction::transfer` places five bits for each output at the end of a buffer and shifts the
whole buffer on, from the last output to the first.
-/

namespace Lucidac.UMatrix

open Framework

def shift5Left : List (BitVec 8) → List (BitVec 8)
  | [] => []
  | [byte] => [byte <<< 5]
  | byte :: next :: rest =>
    ((byte <<< 5) ||| ((next >>> 3) &&& 0x1F)) :: shift5Left (next :: rest)

/-- `buffer[sizeof(buffer) - 1] |= value` -/
def orLast (value : BitVec 8) (buffer : List (BitVec 8)) : List (BitVec 8) :=
  buffer.modify (buffer.length - 1) (· ||| value)

/-- The bits for one output, at the end of the buffer. -/
def place (selectedInput : Int) (buffer : List (BitVec 8)) : List (BitVec 8) :=
  if 0 ≤ selectedInput then
    orLast (BitVec.ofInt 8 selectedInput &&& 0x0F) (orLast 0b00010000 buffer)
  else buffer

/-- The loop over the outputs, which come from the back; the last pass does not shift. -/
def fill : List Int → List (BitVec 8) → List (BitVec 8)
  | [], buffer => buffer
  | [selectedInput], buffer => place selectedInput buffer
  | selectedInput :: next :: rest, buffer =>
    fill (next :: rest) (shift5Left (place selectedInput buffer))

/-- The buffer for an array of outputs; its size is a `uint8_t`. -/
def transferBuffer (outputs : List Int) : List (BitVec 8) :=
  fill outputs.reverse (List.replicate (outputs.length * 5 / 8 % 256) 0)

/-- `transfer`, with the buffers that are sent.  The pedantic build sends a second time and compares
what it reads with what it sent. -/
def transfer (pedantic : Bool) (readBack : List (BitVec 8) → List (BitVec 8))
    (outputs : List Int) : Bool × List (List (BitVec 8)) :=
  let buffer := transferBuffer outputs
  if pedantic then (readBack buffer == buffer, [buffer, buffer]) else (true, [buffer])

theorem sent_transfer (pedantic : Bool) (readBack : List (BitVec 8) → List (BitVec 8))
    (outputs : List Int) : (transfer pedantic readBack outputs).2 =
      if pedantic then [transferBuffer outputs, transferBuffer outputs]
      else [transferBuffer outputs] := by
  simp only [transfer]
  split <;> rfl

/-- An open output, or one that is fed by an input. -/
def IsEntry (entry : Int) : Prop := entry = -1 ∨ 0 ≤ entry ∧ entry < 16

/-- The bits of one output: nothing, or the enable bit and the number of the input. -/
def group (entry : Int) : List Bool :=
  if entry = -1 then List.replicate 5 false else true :: bits (BitVec.ofInt 4 entry)

theorem length_group (entry : Int) : (group entry).length = 5 := by
  rw [group]
  split
  · exact List.length_replicate
  · rw [List.length_cons, length_bits]

section Stream

theorem bits_shift (byte next : BitVec 8) :
    bits ((byte <<< 5) ||| ((next >>> 3) &&& 0x1F)) = (bits byte).drop 5 ++ (bits next).take 5 := by
  simp [bits, List.range_succ]

theorem bits_shift_last (byte : BitVec 8) :
    bits (byte <<< 5) = (bits byte).drop 5 ++ List.replicate 5 false := by
  simp [bits, List.range_succ]

theorem bitStream_shift5Left {buffer : List (BitVec 8)} (hne : buffer ≠ []) :
    bitStream (shift5Left buffer) = (bitStream buffer).drop 5 ++ List.replicate 5 false := by
  induction buffer with
  | nil => exact absurd rfl hne
  | cons byte rest ih =>
    cases rest with
    | nil =>
      rw [shift5Left, bitStream_cons, bitStream_cons, bits_shift_last, bitStream_nil,
        List.append_nil, List.append_nil]
    | cons next rest =>
      have hbyte : 5 ≤ (bits byte).length := by simp
      have hnext : 5 ≤ (bits next).length := by simp
      rw [shift5Left, bitStream_cons, bits_shift, ih (List.cons_ne_nil next rest),
        bitStream_cons byte, List.drop_append_of_le_length hbyte, bitStream_cons next,
        List.drop_append_of_le_length hnext]
      simp only [List.append_assoc]
      rw [← List.append_assoc (List.take 5 (bits next)), List.take_append_drop]

@[simp] theorem length_orLast (value : BitVec 8) (buffer : List (BitVec 8)) :
    (orLast value buffer).length = buffer.length :=
  List.length_modify _ _ _

theorem orLast_orLast (v w : BitVec 8) (buffer : List (BitVec 8)) :
    orLast v (orLast w buffer) = orLast (w ||| v) buffer := by
  rw [orLast, length_orLast, orLast, List.modify_modify_eq]
  congr 1
  funext byte
  exact BitVec.or_assoc byte w v

theorem orLast_concat (value : BitVec 8) (init : List (BitVec 8)) (last : BitVec 8) :
    orLast value (init ++ [last]) = init ++ [last ||| value] := by
  have hlast : init.length < (init ++ [last]).length := by simp
  rw [orLast, List.length_append, List.length_singleton, Nat.add_sub_cancel,
    List.modify_eq_take_cons_drop hlast]
  simp

/-- Five bits that are not set yet are placed behind the others. -/
theorem bitStream_orLast {value : BitVec 8} {group before : List Bool}
    (hvalue : bits value = List.replicate 3 false ++ group) {init : List (BitVec 8)}
    {last : BitVec 8} (h : bits last = before ++ List.replicate 5 false) :
    bitStream (orLast value (init ++ [last])) = bitStream init ++ (before ++ group) := by
  have hbefore : before.length = 3 := by
    have hlength := congrArg List.length h
    simp at hlength
    omega
  have hgroup : group.length = 5 := by
    have hlength := congrArg List.length hvalue
    simp at hlength
    omega
  rw [orLast_concat, bitStream_append, bitStream_cons, bitStream_nil, List.append_nil, bits_or, h,
    hvalue, List.zipWith_append (by simpa using hbefore), ← hbefore, zipWith_or_replicate_false,
    ← hgroup, zipWith_replicate_false_or]

theorem bits_enabled {entry : Int} (hmin : 0 ≤ entry) (hmax : entry < 16) :
    bits (0b00010000 ||| (BitVec.ofInt 8 entry &&& 0x0F)) =
      List.replicate 3 false ++ group entry := by
  lift entry to Nat using hmin
  have hlt : entry < 16 := by exact_mod_cast hmax
  interval_cases entry <;> decide

theorem bitStream_place {entry : Int} (hentry : IsEntry entry) {buffer : List (BitVec 8)}
    (hne : buffer ≠ []) {before : List Bool}
    (h : bitStream buffer = before ++ List.replicate 5 false) :
    bitStream (place entry buffer) = before ++ group entry := by
  obtain rfl | ⟨hmin, hmax⟩ := hentry
  · exact h
  · obtain ⟨init, last, rfl⟩ : ∃ init last, buffer = init ++ [last] :=
      ⟨_, _, (List.dropLast_append_getLast hne).symm⟩
    rw [bitStream_append, bitStream_cons, bitStream_nil, List.append_nil,
      ← List.take_append_drop 3 (bits last), ← List.append_assoc] at h
    obtain ⟨hbefore, hlast⟩ := List.append_inj' h (by simp)
    have hbits : bits last = (bits last).take 3 ++ List.replicate 5 false := by
      rw [← hlast, List.take_append_drop]
    rw [place, if_pos hmin, orLast_orLast, bitStream_orLast (bits_enabled hmin hmax) hbits,
      ← List.append_assoc, hbefore]

@[simp] theorem length_shift5Left (buffer : List (BitVec 8)) :
    (shift5Left buffer).length = buffer.length := by
  induction buffer with
  | nil => rfl
  | cons byte rest ih =>
    cases rest with
    | nil => rfl
    | cons next rest =>
      rw [shift5Left, List.length_cons, ih]
      rfl

@[simp] theorem length_place (entry : Int) (buffer : List (BitVec 8)) :
    (place entry buffer).length = buffer.length := by
  rw [place]
  split
  · rw [length_orLast, length_orLast]
  · rfl

/-- Before each pass the stream holds, behind zeros, the groups of the outputs that were placed and
five bits for the next one. -/
theorem bitStream_fill {entries : List Int} (hentries : ∀ entry ∈ entries, IsEntry entry)
    (hne : entries ≠ []) {buffer : List (BitVec 8)} (hbuffer : buffer ≠ []) {placed : List Bool}
    (h : bitStream buffer = List.replicate (5 * (entries.length - 1)) false ++
      (placed ++ List.replicate 5 false)) :
    bitStream (fill entries buffer) = placed ++ entries.flatMap group := by
  induction entries generalizing buffer placed with
  | nil => exact absurd rfl hne
  | cons entry rest ih =>
    have hentry := hentries entry List.mem_cons_self
    rw [← List.append_assoc] at h
    have hplaced := bitStream_place hentry hbuffer h
    cases rest with
    | nil =>
      rw [fill, hplaced]
      simp
    | cons next rest =>
      have hnonempty : place entry buffer ≠ [] := by
        rw [Ne, ← List.length_eq_zero_iff, length_place, List.length_eq_zero_iff]
        exact hbuffer
      have hshifted : shift5Left (place entry buffer) ≠ [] := by
        rw [Ne, ← List.length_eq_zero_iff, length_shift5Left, List.length_eq_zero_iff]
        exact hnonempty
      have hstream : bitStream (shift5Left (place entry buffer)) =
          List.replicate (5 * ((next :: rest).length - 1)) false ++
            ((placed ++ group entry) ++ List.replicate 5 false) := by
        have hcount : 5 ≤ 5 * ((entry :: next :: rest).length - 1) := by simp
        rw [bitStream_shift5Left hnonempty, hplaced, List.append_assoc,
          List.drop_append_of_le_length (by rwa [List.length_replicate]), List.drop_replicate,
          List.append_assoc]
        congr 2
      rw [fill, ih (fun e he => hentries e (List.mem_cons_of_mem entry he))
        (List.cons_ne_nil next rest) hshifted hstream, List.flatMap_cons (x := entry),
        List.append_assoc]

/-- The groups come in the reverse order of the outputs. -/
theorem bitStream_transferBuffer {outputs : List Int} (hdvd : 8 ∣ outputs.length)
    (hpos : 0 < outputs.length) (hbytes : outputs.length * 5 / 8 ≤ 255)
    (hentries : ∀ entry ∈ outputs, IsEntry entry) :
    bitStream (transferBuffer outputs) = outputs.reverse.flatMap group := by
  obtain ⟨k, hk⟩ := hdvd
  have hcount : outputs.length * 5 / 8 % 256 = 5 * k := by omega
  rw [transferBuffer, hcount]
  have hzeros : bitStream (List.replicate (5 * k) 0) =
      List.replicate (5 * (outputs.reverse.length - 1)) false ++
        ([] ++ List.replicate 5 false) := by
    rw [bitStream_replicate_zero, List.nil_append, List.replicate_append_replicate,
      List.length_reverse]
    congr 1
    omega
  have hne : outputs.reverse ≠ [] := by
    rw [Ne, List.reverse_eq_nil_iff, ← List.length_eq_zero_iff]
    omega
  have hbuffer : List.replicate (5 * k) (0 : BitVec 8) ≠ [] := by
    rw [Ne, List.replicate_eq_nil_iff]
    omega
  exact bitStream_fill (fun entry h => hentries entry (List.mem_reverse.mp h)) hne hbuffer hzeros

end Stream

/-- What is sent to the chips, bit by bit: one buffer, and in the pedantic build the same one a
second time. -/
theorem transfer_groups (pedantic : Bool) (readBack : List (BitVec 8) → List (BitVec 8))
    (outputs : List Int) (hdvd : 8 ∣ outputs.length) (hpos : 0 < outputs.length)
    (hbytes : outputs.length * 5 / 8 ≤ 255)
    (hentries : ∀ entry ∈ outputs, entry = -1 ∨ 0 ≤ entry ∧ entry < 16) :
    ∃ buffer, (transfer pedantic readBack outputs).2 =
        (if pedantic then [buffer, buffer] else [buffer]) ∧
      (bitStream buffer).length = 5 * outputs.length ∧
      ∀ k (hk : k < outputs.length), ((bitStream buffer).drop (5 * k)).take 5 =
        if outputs[outputs.length - 1 - k] = -1 then List.replicate 5 false
        else true :: bits (BitVec.ofInt 4 outputs[outputs.length - 1 - k]) := by
  refine ⟨transferBuffer outputs, sent_transfer pedantic readBack outputs, ?_⟩
  rw [bitStream_transferBuffer hdvd hpos hbytes hentries]
  constructor
  · rw [length_flatMap_groups length_group, List.length_reverse]
  · intro k hk
    have hreverse : k < outputs.reverse.length := by rwa [List.length_reverse]
    rw [take_drop_flatMap_groups length_group hreverse, List.getElem_reverse]
    rfl

theorem transfer_groups_of_eight_outputs :
    ∃ buffer, (transfer true id [-1, 0, 15, 7, -1, 2, 3, 5]).2 = [buffer, buffer] ∧
      (bitStream buffer).length = 40 ∧
      ((bitStream buffer).drop (5 * 0)).take 5 = [true, false, true, false, true] ∧
      ((bitStream buffer).drop (5 * 7)).take 5 = [false, false, false, false, false] := by
  obtain ⟨buffer, hsent, hlength, hgroups⟩ := transfer_groups true id [-1, 0, 15, 7, -1, 2, 3, 5]
    (by decide) (by decide) (by decide) (by decide)
  refine ⟨buffer, hsent, hlength, ?_, ?_⟩
  · rw [hgroups 0 (by decide)]
    decide
  · rw [hgroups 7 (by decide)]
    decide

end Lucidac.UMatrix
