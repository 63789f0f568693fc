import Lucidac.Websockets.Frame

/-!
# Frames on the wire

The format that both sides agree on, for any peer: the flags, the form in which the length is
written and the masking key are up to the sender.  `_recv` reads every frame of it, and `send`
writes frames of it.
-/

namespace Lucidac.Websockets

open Framework

/-- How the length is written: in the header, or in two or in eight bytes behind it. -/
inductive LengthForm where
  | short | medium | long

namespace LengthForm

/-- A payload is shorter than the receiver's `size_t` can tell. -/
def Fits : LengthForm → Nat → Prop
  | short, len => len < 126
  | medium, len => len < 65536
  | long, len => len < 2 ^ 32

def marker : LengthForm → Nat → BitVec 7
  | short, len => BitVec.ofNat 7 len
  | medium, _ => 126
  | long, _ => 127

/-- The most significant byte comes first. -/
def bytes : LengthForm → Nat → List (BitVec 8)
  | short, _ => []
  | medium, len => (wordBytes 2 (BitVec.ofNat 16 len)).reverse
  | long, len => (wordBytes 8 (BitVec.ofNat 64 len)).reverse

def size : LengthForm → Nat
  | short => 0
  | medium => 2
  | long => 8

theorem length_bytes (form : LengthForm) (len : Nat) : (form.bytes len).length = form.size := by
  cases form with
  | short => rfl
  | medium => rw [bytes, List.length_reverse, length_wordBytes, size]
  | long => rw [bytes, List.length_reverse, length_wordBytes, size]

end LengthForm

structure PeerFrame where
  fin : Bool
  flags : BitVec 3
  opcode : BitVec 4
  key : Option (Fin 4 → BitVec 8)
  form : LengthForm
  payload : List (BitVec 8)
  fits : form.Fits payload.length

namespace PeerFrame

def header (f : PeerFrame) : Header where
  opcode := f.opcode
  flags := f.flags
  fin := f.fin
  payload := f.form.marker f.payload.length
  mask := f.key.isSome

/-- What comes before the payload. -/
def head (f : PeerFrame) : List (BitVec 8) :=
  f.header.bytes ++ f.form.bytes f.payload.length ++ (f.key.map List.ofFn).getD []

/-- The payload as it is sent. -/
def body (f : PeerFrame) : List (BitVec 8) :=
  match f.key with
  | none => f.payload
  | some key => remaskData f.payload key

def wire (f : PeerFrame) : List (BitVec 8) := f.head ++ f.body

/-- The payload may be cut anywhere.  The head arrives in one piece: `_recv` takes two bytes of a
header, and the bytes of a length and of a key, from one read each. -/
def atoms (f : PeerFrame) : List (List (BitVec 8)) := f.head :: f.body.map fun byte => [byte]

theorem atoms_ne_nil {frames : List PeerFrame} {atom : List (BitVec 8)}
    (h : atom ∈ frames.flatMap atoms) : atom ≠ [] := by
  obtain ⟨f, -, hatom⟩ := List.mem_flatMap.mp h
  rcases List.mem_cons.mp hatom with rfl | hbody
  · exact List.cons_ne_nil _ _
  · obtain ⟨byte, -, rfl⟩ := List.mem_map.mp hbody
    exact List.cons_ne_nil _ _

/-- The frame at the receiver. -/
def received (junk : Junk) (f : PeerFrame) : WebsocketsFrame where
  fin := f.fin
  opcode := f.opcode
  mask := f.key.isSome
  maskBuf := f.key.getD junk.maskingKey
  payloadLength := BitVec.ofNat 64 f.payload.length
  payload := f.payload

end PeerFrame

section Receiving

theorem remaskData_remaskData (data : List (BitVec 8)) (maskingKey : Fin 4 → BitVec 8) :
    remaskData (remaskData data maskingKey) maskingKey = data := by
  apply List.ext_getElem
  · simp [remaskData]
  · intro i _ _
    simp only [remaskData, List.getElem_mapIdx, BitVec.xor_assoc, BitVec.xor_self, BitVec.xor_zero]

theorem remaskData_remaskData_eq_iff (data : List (BitVec 8)) (k l : Fin 4 → BitVec 8) :
    remaskData (remaskData data k) l = data ↔
      ∀ i < data.length, k (keyIndex i) = l (keyIndex i) := by
  have hxor : ∀ a b c : BitVec 8, a ^^^ b ^^^ c = a ↔ b = c := by
    intro a b c
    have hzero : a ^^^ (b ^^^ c) = a ↔ b ^^^ c = 0 := by
      conv_lhs => rhs; rw [← BitVec.xor_zero (x := a)]
      exact BitVec.xor_right_inj a
    rw [BitVec.xor_assoc, hzero]
    exact BitVec.xor_eq_zero_iff
  rw [List.ext_getElem_iff]
  simp [remaskData, hxor]

private theorem first_byte (opcode : BitVec 4) (flags : BitVec 3) (fin : Bool) :
    let byte : BitVec 8 := BitVec.ofBool fin ++ flags ++ opcode
    byte.setWidth 4 = opcode ∧ byte.extractLsb' 4 3 = flags ∧ byte.msb = fin := by
  revert opcode flags fin
  decide +kernel

private theorem second_byte (payload : BitVec 7) (mask : Bool) :
    let byte : BitVec 8 := BitVec.ofBool mask ++ payload
    byte.setWidth 7 = payload ∧ byte.msb = mask := by
  revert payload mask
  decide +kernel

theorem overwrite_bytes (junk header : Header) : junk.overwrite header.bytes = header := by
  obtain ⟨opcode, flags, fin, payload, mask⟩ := header
  obtain ⟨hopcode, hflags, hfin⟩ := first_byte opcode flags fin
  obtain ⟨hpayload, hmask⟩ := second_byte payload mask
  simp only [Header.bytes, Header.overwrite, hopcode, hflags, hfin, hpayload, hmask]

open Arrival (prepend Carries)

variable {s : List (Arrival (BitVec 8))} {rest : List (BitVec 8)}

theorem readHeaderFromSocket_bytes (junk header : Header) :
    readHeaderFromSocket junk (prepend (header.bytes ++ rest) s) = (header, prepend rest s) := by
  have hread : Arrival.read 2 (prepend (header.bytes ++ rest) s) =
      (header.bytes, prepend rest s) := 
    Arrival.read_prepend (rfl : header.bytes.length = 2) Nat.two_pos s
  rw [readHeaderFromSocket, hread]
  simp only [overwrite_bytes]

theorem readExtendedPayloadLength_bytes {header : Header} {form : LengthForm} {len : Nat}
    (hmarker : header.payload = form.marker len) (hfits : form.Fits len) :
    readExtendedPayloadLength header (prepend (form.bytes len ++ rest) s) =
      (BitVec.ofNat 64 len, prepend rest s) := by
  rw [readExtendedPayloadLength, hmarker]
  cases form with
  | short =>
    have hlen : len < 126 := hfits
    have hvalue : (BitVec.ofNat 7 len).toNat = len := by
      rw [BitVec.toNat_ofNat]
      exact Nat.mod_eq_of_lt (by omega)
    have hne : ∀ n : Nat, 126 ≤ n → n < 128 → BitVec.ofNat 7 len ≠ BitVec.ofNat 7 n := by
      intro n hle hlt heq
      have hnat := congrArg BitVec.toNat heq
      rw [hvalue, BitVec.toNat_ofNat, Nat.mod_eq_of_lt (by omega)] at hnat
      omega
    have h126 : LengthForm.short.marker len ≠ 126 := hne 126 (by decide) (by decide)
    have h127 : LengthForm.short.marker len ≠ 127 := hne 127 (by decide) (by decide)
    rw [if_neg h126, if_neg h127, LengthForm.marker, LengthForm.bytes, List.nil_append]
    congr 1
    apply BitVec.eq_of_toNat_eq
    rw [BitVec.toNat_setWidth, hvalue, BitVec.toNat_ofNat]
  | medium =>
    have hlen : len < 65536 := hfits
    have hread : Arrival.read 2 (prepend (LengthForm.medium.bytes len ++ rest) s) =
        (LengthForm.medium.bytes len, prepend rest s) :=
      Arrival.read_prepend (LengthForm.length_bytes .medium len) (by decide) s
    have hvalue : BitVec.ofNat 16 (ofWordBytes (LengthForm.medium.bytes len)) =
        BitVec.ofNat 16 len <<< 8 ||| BitVec.ofNat 16 len >>> 8 := by
      rw [LengthForm.bytes, ← wordBytes_swapEndianess16,
        ofNat_ofWordBytes_wordBytes (by decide)]
    simp only [LengthForm.marker, if_true, hread, hvalue, swapEndianess16_swapEndianess16]
    congr 1
    apply BitVec.eq_of_toNat_eq
    rw [BitVec.toNat_setWidth, BitVec.toNat_ofNat, BitVec.toNat_ofNat]
    omega
  | long =>
    have hread : Arrival.read 8 (prepend (LengthForm.long.bytes len ++ rest) s) =
        (LengthForm.long.bytes len, prepend rest s) :=
      Arrival.read_prepend (LengthForm.length_bytes .long len) (by decide) s
    have hvalue : BitVec.ofNat 64 (ofWordBytes (LengthForm.long.bytes len)) =
        swapEndianess (BitVec.ofNat 64 len) := by
      rw [LengthForm.bytes, ← wordBytes_swapEndianess, ofNat_ofWordBytes_wordBytes (by decide)]
    have h126 : LengthForm.long.marker len ≠ 126 := by simp [LengthForm.marker]
    rw [if_neg h126, LengthForm.marker, if_pos rfl]
    simp only [hread, hvalue, swapEndianess_swapEndianess]

theorem readMaskingKey_ofFn (junk key : Fin 4 → BitVec 8) :
    readMaskingKey junk (prepend (List.ofFn key ++ rest) s) = (key, prepend rest s) := by
  have hread : Arrival.read 4 (prepend (List.ofFn key ++ rest) s) =
      (List.ofFn key, prepend rest s) :=
    Arrival.read_prepend List.length_ofFn (by decide) s
  have hkey : (fun i : Fin 4 => (List.ofFn key).getD i (junk i)) = key := by
    funext i
    rw [List.getD_eq_getElem?_getD, List.getElem?_ofFn, dif_pos i.isLt, Option.getD_some]
  simp only [readMaskingKey, hread, hkey]

private theorem readMaskingKey_head (junk : Fin 4 → BitVec 8) (f : PeerFrame) :
    (if f.header.mask = true then
        readMaskingKey junk (prepend ((f.key.map List.ofFn).getD [] ++ rest) s)
      else (junk, prepend ((f.key.map List.ofFn).getD [] ++ rest) s)) =
      (f.key.getD junk, prepend rest s) := by
  have hmask : f.header.mask = f.key.isSome := rfl
  rw [hmask]
  cases f.key with
  | none => rfl
  | some key => exact readMaskingKey_ofFn junk key

private theorem remaskData_body (junk : Fin 4 → BitVec 8) (f : PeerFrame) :
    (if f.header.mask = true then remaskData f.body (f.key.getD junk) else f.body) =
      f.payload := by
  have hmask : f.header.mask = f.key.isSome := rfl
  rw [hmask, PeerFrame.body]
  cases f.key with
  | none => rfl
  | some key => exact remaskData_remaskData f.payload key

/-- Every frame of a peer is read, whatever the local variables held and however its payload is
cut into pieces; what comes after it is left. -/
theorem recvFrame_of_carries (junk : Junk) (f : PeerFrame) {rest : List (List (BitVec 8))}
    {byte : BitVec 8} {bytes : List (BitVec 8)}
    (h : Carries (f.atoms ++ rest) (.data (byte :: bytes) :: s)) :
    ∃ s', recvFrame junk (.data (byte :: bytes) :: s) = some (f.received junk, s') ∧
      Carries rest s' ∧ Arrival.weight s' < Arrival.weight (.data (byte :: bytes) :: s) := by
  obtain ⟨left, hs, hbody⟩ := h.of_data_cons
  have hlength : f.body.length = f.payload.length := by
    rw [PeerFrame.body]
    split
    · rfl
    · exact List.length_mapIdx
  have hroom : f.payload.length < 2 ^ 32 := by
    have hfits := f.fits
    revert hfits
    cases f.form <;> simp only [LengthForm.Fits] <;> omega
  have hnat : (BitVec.ofNat 64 f.payload.length).toNat = f.body.length := by
    rw [hlength, BitVec.toNat_ofNat]
    exact Nat.mod_eq_of_lt (Nat.lt_trans hroom (by decide))
  have hshort : ¬ 2 ^ 32 ≤ f.body.length := by
    rw [hlength]
    exact Nat.not_le.mpr hroom
  obtain ⟨s', hdata, hrest⟩ :=
    Arrival.readAll_of_carries (show 0 < bufferSize by decide) (Nat.le_refl _) hbody
  have hless : Arrival.weight s' < Arrival.weight (.data (byte :: bytes) :: s) := by
    rw [hs]
    exact Nat.lt_of_le_of_lt (Arrival.weight_readAll_le hdata)
      (Arrival.weight_prepend_append_lt (List.cons_ne_nil _ _) left s)
  refine ⟨s', ?_, hrest, hless⟩
  rw [hs, recvFrame, PeerFrame.head, List.append_assoc, List.append_assoc,
    readHeaderFromSocket_bytes]
  simp only [readExtendedPayloadLength_bytes (rfl : f.header.payload = _) f.fits,
    readMaskingKey_head, readData, hnat, if_neg hshort, hdata, Option.map_some, remaskData_body]
  rfl

end Receiving

end Lucidac.Websockets
