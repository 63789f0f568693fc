import Lucidac.Websockets.Wire
import Mathlib.Data.Fin.VecNotation

/-!
# Sent frames

What `send` writes is a frame of the format.  A masked payload is found again by the receiver
unless the two sides start with different bytes of the key.
-/

namespace Lucidac.Websockets

open Framework

def LengthForm.shortest (len : Nat) : LengthForm :=
  if len < 126 then short else if len < 65536 then medium else long

theorem LengthForm.shortest_fits {len : Nat} (hlen : len < 2 ^ 32) :
    (LengthForm.shortest len).Fits len := by
  rw [LengthForm.shortest]
  split
  · assumption
  · split
    · assumption
    · exact hlen

private theorem ofNat_lt_ofNat {w m n : Nat} (hm : m < 2 ^ w) (hn : n < 2 ^ w) :
    BitVec.ofNat w m < BitVec.ofNat w n ↔ m < n := by
  rw [BitVec.lt_def, BitVec.toNat_ofNat, BitVec.toNat_ofNat, Nat.mod_eq_of_lt hm,
    Nat.mod_eq_of_lt hn]

private theorem makeHeader_eq {len : Nat} (hlen : len < 2 ^ 32) (opcode : BitVec 8)
    (fin mask : Bool) :
    makeHeader (BitVec.ofNat 32 len) opcode fin mask =
      ⟨opcode.setWidth 4, 0, fin, (LengthForm.shortest len).marker len, mask⟩ := by
  have hshort : BitVec.ofNat 32 len < 126 ↔ len < 126 := ofNat_lt_ofNat hlen (by decide)
  have hmedium : BitVec.ofNat 32 len < 65536 ↔ len < 65536 := ofNat_lt_ofNat hlen (by decide)
  have hmarker : (BitVec.ofNat 32 len).setWidth 7 = BitVec.ofNat 7 len :=
    BitVec.setWidth_ofNat_of_le (by decide) len
  simp only [makeHeader, hshort, hmedium, hmarker, LengthForm.shortest]
  split
  · rfl
  · split
    · rfl
    · rfl

private theorem setWidth_swap (x : BitVec 16) :
    (x.setWidth 64 <<< 8 ||| x.setWidth 64 >>> 8).setWidth 16 = x <<< 8 ||| x >>> 8 := by
  apply BitVec.eq_of_getLsbD_eq
  intro i hi
  have h64 : i < 64 := by omega
  have hnext : 8 + i < 64 := by omega
  simp [hi, h64, hnext]

theorem getHeader_eq {len : Nat} (hlen : len < 2 ^ 32) (opcode : BitVec 8) (fin mask : Bool) :
    getHeader (BitVec.ofNat 64 len) opcode fin mask =
      Header.bytes ⟨opcode.setWidth 4, 0, fin, (LengthForm.shortest len).marker len, mask⟩ ++
        (LengthForm.shortest len).bytes len := by
  have hlen64 : len < 2 ^ 64 := Nat.lt_trans hlen (by decide)
  have hshort : BitVec.ofNat 64 len < 126 ↔ len < 126 := ofNat_lt_ofNat hlen64 (by decide)
  have hmedium : BitVec.ofNat 64 len < 65536 ↔ len < 65536 := ofNat_lt_ofNat hlen64 (by decide)
  have hsize : (BitVec.ofNat 64 len).setWidth 32 = BitVec.ofNat 32 len :=
    BitVec.setWidth_ofNat_of_le (by decide) len
  have hword : len < 65536 →
      wordBytes 2 ((BitVec.ofNat 64 len <<< 8 ||| BitVec.ofNat 64 len >>> 8).setWidth 16) =
        (wordBytes 2 (BitVec.ofNat 16 len)).reverse := by
    intro hlt
    have hwide : BitVec.ofNat 64 len = (BitVec.ofNat 16 len).setWidth 64 := by
      apply BitVec.eq_of_toNat_eq
      rw [BitVec.toNat_setWidth, BitVec.toNat_ofNat, BitVec.toNat_ofNat]
      omega
    rw [hwide, setWidth_swap, wordBytes_swapEndianess16]
  simp only [getHeader, hsize, makeHeader_eq hlen, hshort, hmedium, LengthForm.shortest]
  split
  · rw [LengthForm.bytes, List.append_nil]
  · split
    · rename_i hlt
      rw [hword hlt, LengthForm.bytes]
    · rw [wordBytes_swapEndianess, LengthForm.bytes]

/-- Bytes behind the first ones of the key's turn are masked with the key turned by as much. -/
def turn (maskingKey : Fin 4 → BitVec 8) (n : Nat) : Fin 4 → BitVec 8 :=
  fun i => maskingKey (keyIndex (n + i))

theorem turn_keyIndex (maskingKey : Fin 4 → BitVec 8) (n i : Nat) :
    turn maskingKey n (keyIndex i) = maskingKey (keyIndex (n + i)) := by
  rw [turn]
  congr 1
  apply Fin.ext
  simp only [keyIndex]
  omega

theorem remaskMessage_append (head data : List (BitVec 8)) (maskingKey : Fin 4 → BitVec 8) :
    remaskMessage (head ++ data) maskingKey head.length data.length =
      head ++ remaskData data (turn maskingKey head.length) := by
  apply List.ext_getElem
  · simp [remaskMessage, remaskData]
  · intro i hi _
    rw [remaskMessage, List.length_mapIdx, List.length_append] at hi
    simp only [remaskMessage, remaskData, List.getElem_mapIdx, List.getElem_append]
    by_cases hhead : i < head.length
    · rw [dif_pos hhead, dif_pos hhead, if_neg (by omega)]
    · rw [dif_neg hhead, dif_neg hhead, if_pos (by omega), turn_keyIndex,
        Nat.add_sub_cancel' (Nat.le_of_not_lt hhead)]

/-- Where the payload of a sent frame starts. -/
def dataStart (len : Nat) (mask : Bool) : Nat :=
  2 + (LengthForm.shortest len).size + if mask then 4 else 0

/-- The payload that a receiver finds in a sent frame. -/
def sentPayload (data : List (BitVec 8)) (mask : Bool) (maskingKey : Fin 4 → BitVec 8) :
    List (BitVec 8) :=
  if mask then
    remaskData (remaskData data (turn maskingKey (dataStart data.length mask))) maskingKey
  else data

@[simp] theorem length_remaskData (data : List (BitVec 8)) (maskingKey : Fin 4 → BitVec 8) :
    (remaskData data maskingKey).length = data.length := List.length_mapIdx

@[simp] theorem length_sentPayload (data : List (BitVec 8)) (mask : Bool)
    (maskingKey : Fin 4 → BitVec 8) : (sentPayload data mask maskingKey).length = data.length := by
  rw [sentPayload]
  split
  · rw [length_remaskData, length_remaskData]
  · rfl

theorem sentPayload_fits {data : List (BitVec 8)} (hlen : data.length < 2 ^ 32) (mask : Bool)
    (maskingKey : Fin 4 → BitVec 8) :
    (LengthForm.shortest data.length).Fits (sentPayload data mask maskingKey).length := by
  rw [length_sentPayload]
  exact LengthForm.shortest_fits hlen

/-- What `send` writes, as a frame of a peer. -/
def sentFrame (data : List (BitVec 8)) (hlen : data.length < 2 ^ 32) (opcode : BitVec 8)
    (fin mask : Bool) (maskingKey : Fin 4 → BitVec 8) : PeerFrame where
  fin := fin
  flags := 0
  opcode := opcode.setWidth 4
  key := if mask then some maskingKey else none
  form := LengthForm.shortest data.length
  payload := sentPayload data mask maskingKey
  fits := sentPayload_fits hlen mask maskingKey

theorem head_sentFrame {data : List (BitVec 8)} (hlen : data.length < 2 ^ 32) (opcode : BitVec 8)
    (fin mask : Bool) (maskingKey : Fin 4 → BitVec 8) :
    (sentFrame data hlen opcode fin mask maskingKey).head =
      getHeader (BitVec.ofNat 64 data.length) opcode fin mask ++
        if mask then List.ofFn maskingKey else [] := by
  have hmask : (if mask then some maskingKey else none).isSome = mask := by cases mask <;> rfl
  rw [getHeader_eq hlen, PeerFrame.head, PeerFrame.header, sentFrame]
  simp only [length_sentPayload, hmask]
  cases mask with
  | false => rfl
  | true => rfl

theorem length_head_sentFrame {data : List (BitVec 8)} (hlen : data.length < 2 ^ 32)
    (opcode : BitVec 8) (fin mask : Bool) (maskingKey : Fin 4 → BitVec 8) :
    (sentFrame data hlen opcode fin mask maskingKey).head.length = dataStart data.length mask := by
  rw [head_sentFrame, getHeader_eq hlen, List.length_append, List.length_append,
    LengthForm.length_bytes, dataStart]
  cases mask with
  | false => rfl
  | true => rw [if_pos rfl, if_pos rfl, List.length_ofFn]; rfl

theorem body_sentFrame_masked {data : List (BitVec 8)} (hlen : data.length < 2 ^ 32)
    (opcode : BitVec 8) (fin : Bool) (maskingKey : Fin 4 → BitVec 8) :
    (sentFrame data hlen opcode fin true maskingKey).body =
      remaskData data (turn maskingKey (dataStart data.length true)) := by
  have hbody : (sentFrame data hlen opcode fin true maskingKey).body =
      remaskData (sentPayload data true maskingKey) maskingKey := rfl
  rw [hbody, sentPayload, if_pos rfl, remaskData_remaskData]

theorem remaskData_zero (data : List (BitVec 8)) : remaskData data (fun _ => 0) = data := by
  apply List.ext_getElem
  · exact length_remaskData data _
  · intro i _ _
    simp [remaskData]

theorem send_eq_wire {data : List (BitVec 8)} (hlen : data.length < 2 ^ 32) (opcode : BitVec 8)
    (fin mask : Bool) (maskingKey : Fin 4 → BitVec 8) :
    send data opcode fin mask maskingKey = (sentFrame data hlen opcode fin mask maskingKey).wire := by
  have hhead := head_sentFrame hlen opcode fin mask maskingKey
  have hstart := length_head_sentFrame hlen opcode fin mask maskingKey
  rw [PeerFrame.wire, hhead]
  cases mask with
  | false =>
    rw [if_neg Bool.false_ne_true, List.append_nil, send]
    simp only [Bool.false_eq_true, if_false, false_and]
    rfl
  | true =>
    rw [hhead, if_pos rfl] at hstart
    rw [if_pos rfl, body_sentFrame_masked, send]
    simp only [if_true, true_and]
    split
    · rw [remaskMessage_append, hstart]
    · rename_i hzero
      have hkey : maskingKey = fun _ => 0 := Classical.not_not.mp hzero
      rw [hkey]
      congr 1
      exact (remaskData_zero data).symm

/-- The receiver takes the key from its first byte on, the sender from where the payload starts
in the message. -/
theorem sentPayload_eq_iff (data : List (BitVec 8)) (mask : Bool) (maskingKey : Fin 4 → BitVec 8) :
    sentPayload data mask maskingKey = data ↔
      mask = false ∨ (126 ≤ data.length ∧ data.length < 65536) ∨
        ∀ i < data.length, maskingKey (keyIndex (i + 2)) = maskingKey (keyIndex i) := by
  have hturn : ∀ n i, turn maskingKey n (keyIndex i) = maskingKey (keyIndex (n + i)) :=
    turn_keyIndex maskingKey
  have hmod : ∀ {i j : Nat}, i % 4 = j % 4 → keyIndex i = keyIndex j := fun h => Fin.ext h
  cases mask with
  | false => simp [sentPayload]
  | true =>
    rw [sentPayload, if_pos rfl, remaskData_remaskData_eq_iff]
    simp only [hturn, dataStart, if_true, Bool.true_eq_false, false_or, LengthForm.shortest]
    by_cases hshort : data.length < 126
    · have hnot : ¬(126 ≤ data.length ∧ data.length < 65536) := by omega
      simp only [if_pos hshort, LengthForm.size, hnot, false_or]
      apply forall₂_congr
      intro i _
      rw [hmod (by omega : (2 + 0 + 4 + i) % 4 = (i + 2) % 4)]
    · rw [if_neg hshort]
      by_cases hmedium : data.length < 65536
      · have hrange : 126 ≤ data.length ∧ data.length < 65536 := by omega
        rw [if_pos hmedium]
        simp only [LengthForm.size, hrange, and_self, true_or, iff_true]
        intro i _
        rw [hmod (by omega : (2 + 2 + 4 + i) % 4 = i % 4)]
      · have hnot : ¬(126 ≤ data.length ∧ data.length < 65536) := by omega
        simp only [if_neg hmedium, LengthForm.size, hnot, false_or]
        apply forall₂_congr
        intro i _
        rw [hmod (by omega : (2 + 8 + 4 + i) % 4 = (i + 2) % 4)]

/-- The position where the atoms of a message end that may be cut. -/
def messageAtoms (dataStart : Nat) (message : List (BitVec 8)) : List (List (BitVec 8)) :=
  message.take dataStart :: (message.drop dataStart).map fun byte => [byte]

open Arrival (Carries) in
/-- What `send` writes is received as the frame that it was called for, if and only if it is not
masked, its length is in two bytes or its key looks the same from its third byte on. -/
theorem recvFrame_send (junk : Junk) {data : List (BitVec 8)} (hlen : data.length < 2 ^ 32)
    (opcode : BitVec 8) (fin mask : Bool) (maskingKey : Fin 4 → BitVec 8)
    {rest : List (List (BitVec 8))} {byte : BitVec 8} {bytes : List (BitVec 8)}
    {s : List (Arrival (BitVec 8))}
    (h : Carries (messageAtoms (dataStart data.length mask) (send data opcode fin mask maskingKey) ++
      rest) (.data (byte :: bytes) :: s)) :
    ∃ frame s', recvFrame junk (.data (byte :: bytes) :: s) = some (frame, s') ∧
      Carries rest s' ∧ frame.fin = fin ∧ frame.opcode = opcode.setWidth 4 ∧
      frame.payload.length = data.length ∧
      (frame.payload = data ↔
        mask = false ∨ (126 ≤ data.length ∧ data.length < 65536) ∨
          ∀ i < data.length, maskingKey (keyIndex (i + 2)) = maskingKey (keyIndex i)) := by
  have hatoms : messageAtoms (dataStart data.length mask) (send data opcode fin mask maskingKey) =
      (sentFrame data hlen opcode fin mask maskingKey).atoms := by
    have hstart := length_head_sentFrame hlen opcode fin mask maskingKey
    rw [send_eq_wire hlen, messageAtoms, PeerFrame.wire, ← hstart, List.take_left, List.drop_left]
    rfl
  rw [hatoms] at h
  obtain ⟨s', hrecv, hrest, -⟩ := recvFrame_of_carries junk _ h
  exact ⟨_, s', hrecv, hrest, rfl, rfl, length_sentPayload data mask maskingKey,
    sentPayload_eq_iff data mask maskingKey⟩

/-- A short frame with a key whose halves differ, whose last byte comes behind a failed read. -/
theorem recvFrame_send_example :
    ∃ frame s', recvFrame ⟨⟨0, 0, false, 0, false⟩, fun _ => 0⟩
        [.data [0x81, 0x82, 0x01, 0x02, 0x03, 0x04, 0x4B], .failed, .data [0x6D]] =
          some (frame, s') ∧
      frame.payload.length = 2 ∧ frame.payload ≠ [0x48, 0x69] := by
  let key : Fin 4 → BitVec 8 := ![1, 2, 3, 4]
  let atoms := messageAtoms (dataStart [(0x48 : BitVec 8), 0x69].length true)
    (send [0x48, 0x69] 1 true true key)
  have hatoms : atoms ++ [] =
      [[0x81, 0x82, 0x01, 0x02, 0x03, 0x04], [0x4B], [0x6D]] := by decide
  have hcarries : Arrival.Carries (atoms ++ [])
      [.data [0x81, 0x82, 0x01, 0x02, 0x03, 0x04, 0x4B], .failed, .data [0x6D]] := by
    rw [hatoms]
    exact .piece [[0x81, 0x82, 0x01, 0x02, 0x03, 0x04], [0x4B]] (by decide)
      (.failed (.piece [[0x6D]] (by decide) .done))
  obtain ⟨frame, s', hrecv, -, -, -, hlength, hpayload⟩ :=
    recvFrame_send ⟨⟨0, 0, false, 0, false⟩, fun _ => 0⟩
      (by decide : [(0x48 : BitVec 8), 0x69].length < 2 ^ 32) 1 true true key hcarries
  refine ⟨frame, s', hrecv, hlength, fun heq => ?_⟩
  exact absurd (hpayload.mp heq) (by decide)

end Lucidac.Websockets
