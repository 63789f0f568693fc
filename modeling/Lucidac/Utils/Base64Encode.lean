import Lucidac.Utils.Base64
import Mathlib.Tactic.IntervalCases

/-!
# Base64 encoding

Three bytes make four characters.  What was encoded decodes to the same bytes, and the number of
characters is the announced one.
-/

namespace Lucidac.Base64

section Encoding

def getSextetFromIndex (index : BitVec 8) : BitVec 8 :=
  let i := index.toNat
  if i < 26 then BitVec.ofNat 8 ('A'.toNat + i)
  else if i < 52 then BitVec.ofNat 8 ('a'.toNat + (i - 26))
  else if i < 62 then BitVec.ofNat 8 ('0'.toNat + (i - 52))
  else if i = 62 then BitVec.ofNat 8 '+'.toNat
  else if i = 63 then BitVec.ofNat 8 '/'.toNat
  else padding

def firstIndex (c : BitVec 8) : BitVec 8 := (c &&& 0b11111100) >>> 2

/-- Without a next byte the low bits stay zero. -/
def secondIndex (c : BitVec 8) (rest : List (BitVec 8)) : BitVec 8 :=
  match rest with
  | [] => (c &&& 0b00000011) <<< 4
  | d :: _ => (c &&& 0b00000011) <<< 4 ||| (d &&& 0b11110000) >>> 4

def thirdIndex (c : BitVec 8) (rest : List (BitVec 8)) : BitVec 8 :=
  match rest with
  | [] => (c &&& 0b00001111) <<< 2
  | d :: _ => (c &&& 0b00001111) <<< 2 ||| (d &&& 0b11000000) >>> 6

def fourthIndex (c : BitVec 8) : BitVec 8 := c &&& 0b00111111

/-- The sextets from here on; the second one starts from the same byte as the first one. -/
def encodeFrom : Sextet → List (BitVec 8) → List (BitVec 8)
  | _, [] => []
  | .first, c :: rest =>
    getSextetFromIndex (firstIndex c) :: getSextetFromIndex (secondIndex c rest) ::
      encodeFrom .third rest
  | .second, c :: rest => getSextetFromIndex (secondIndex c rest) :: encodeFrom .third rest
  | .third, c :: rest => getSextetFromIndex (thirdIndex c rest) :: encodeFrom .fourth rest
  | .fourth, c :: rest => getSextetFromIndex (fourthIndex c) :: encodeFrom .first rest

/-- The size of the output for lengths whose bits can be counted. -/
def encodeSize (inputLength : Nat) : Nat :=
  let required := inputLength * 8 / 6
  if inputLength % 3 ≠ 0 then (required + 3) / 4 * 4 else required

/-- The characters written to the output, whose number is the return value. -/
def encode (input : List (BitVec 8)) (outputLength : Nat) : List (BitVec 8) :=
  if input.length = 0 then []
  else if outputLength < encodeSize input.length then []
  else
    let written := encodeFrom .first input
    written ++ List.replicate (encodeSize input.length - written.length) padding

end Encoding

section Indices

/-- Below 64 no two indices share a character, and none has the padding. -/
theorem getIndexFromSextet_getSextetFromIndex : ∀ index : BitVec 8, index.toNat < 64 →
    getIndexFromSextet (getSextetFromIndex index) = index ∧
      getSextetFromIndex index ≠ padding := by
  decide +kernel

variable (a b c : BitVec 8) (rest : List (BitVec 8))

theorem toNat_lt_of_and {x : BitVec 8} (h : x &&& 0b00111111 = x) : x.toNat < 64 := by
  have hle : (x &&& 0b00111111).toNat ≤ 63 := BitVec.toNat_and x _ ▸ Nat.and_le_right
  rw [h] at hle
  omega

theorem toNat_firstIndex_lt : (firstIndex a).toNat < 64 := by
  apply toNat_lt_of_and
  ext i hi
  interval_cases i <;> simp [firstIndex]

theorem toNat_secondIndex_lt : (secondIndex a rest).toNat < 64 := by
  apply toNat_lt_of_and
  cases rest <;> (ext i hi; interval_cases i <;> simp [secondIndex])

theorem toNat_thirdIndex_lt : (thirdIndex a rest).toNat < 64 := by
  apply toNat_lt_of_and
  cases rest <;> (ext i hi; interval_cases i <;> simp [thirdIndex])

theorem toNat_fourthIndex_lt : (fourthIndex a).toNat < 64 := by
  apply toNat_lt_of_and
  rw [fourthIndex, BitVec.and_assoc, BitVec.and_self]

theorem first_byte : (firstIndex a &&& 0b00111111) <<< 2 |||
    (secondIndex a rest &&& 0b00110000) >>> 4 = a := by
  cases rest <;> (ext i hi; interval_cases i <;> simp [firstIndex, secondIndex])

theorem second_byte (rest' : List (BitVec 8)) :
    (secondIndex a (b :: rest) &&& 0b00001111) <<< 4 |||
      (thirdIndex b rest' &&& 0b00111100) >>> 2 = b := by
  cases rest' <;> (ext i hi; interval_cases i <;> simp [thirdIndex, secondIndex])

theorem third_byte : (thirdIndex b (c :: rest) &&& 0b00000011) <<< 6 |||
    (fourthIndex c &&& 0b00111111) = c := by
  ext i hi
  interval_cases i <;> simp [thirdIndex, fourthIndex]

end Indices

section RoundTrip

variable {index : BitVec 8}

theorem decodeFrom_first (h : index.toNat < 64) (c : BitVec 8) (rest : List (BitVec 8)) :
    decodeFrom .first c (getSextetFromIndex index :: rest) =
      decodeFrom .second ((index &&& 0b00111111) <<< 2) rest := by
  obtain ⟨hindex, hpadding⟩ := getIndexFromSextet_getSextetFromIndex index h
  simp only [decodeFrom, hpadding, if_false, hindex]

theorem decodeFrom_second (h : index.toNat < 64) (c : BitVec 8) (rest : List (BitVec 8)) :
    decodeFrom .second c (getSextetFromIndex index :: rest) =
      (c ||| (index &&& 0b00110000) >>> 4) ::
        decodeFrom .third ((index &&& 0b00001111) <<< 4) rest := by
  obtain ⟨hindex, hpadding⟩ := getIndexFromSextet_getSextetFromIndex index h
  simp only [decodeFrom, hpadding, if_false, hindex]

theorem decodeFrom_third (h : index.toNat < 64) (c : BitVec 8) (rest : List (BitVec 8)) :
    decodeFrom .third c (getSextetFromIndex index :: rest) =
      (c ||| (index &&& 0b00111100) >>> 2) ::
        decodeFrom .fourth ((index &&& 0b00000011) <<< 6) rest := by
  obtain ⟨hindex, hpadding⟩ := getIndexFromSextet_getSextetFromIndex index h
  simp only [decodeFrom, hpadding, if_false, hindex]

theorem decodeFrom_fourth (h : index.toNat < 64) (c : BitVec 8) (rest : List (BitVec 8)) :
    decodeFrom .fourth c (getSextetFromIndex index :: rest) =
      (c ||| (index &&& 0b00111111)) :: decodeFrom .first c rest := by
  obtain ⟨hindex, hpadding⟩ := getIndexFromSextet_getSextetFromIndex index h
  simp only [decodeFrom, hpadding, if_false, hindex]

theorem decodeFrom_padding (next : Sextet) (c : BitVec 8) (count : Nat) :
    decodeFrom next c (List.replicate count padding) = [] := by
  cases count with
  | zero => cases next <;> rfl
  | succ count => rw [List.replicate_succ, decodeFrom, if_pos rfl]

/-- Group by group; a group that is not full ends with the padding. -/
theorem decodeFrom_encodeFrom (input : List (BitVec 8)) (c : BitVec 8) (count : Nat) :
    decodeFrom .first c (encodeFrom .first input ++ List.replicate count padding) = input := by
  match input with
  | [] => exact decodeFrom_padding .first c count
  | [a] =>
    simp only [encodeFrom, List.cons_append, decodeFrom_first, decodeFrom_second,
      toNat_firstIndex_lt, toNat_secondIndex_lt, first_byte, List.nil_append, decodeFrom_padding]
  | [a, b] =>
    simp only [encodeFrom, List.cons_append, decodeFrom_first, decodeFrom_second, decodeFrom_third,
      toNat_firstIndex_lt, toNat_secondIndex_lt, toNat_thirdIndex_lt, first_byte, second_byte,
      List.nil_append, decodeFrom_padding]
  | a :: b :: d :: rest =>
    simp only [encodeFrom, List.cons_append, decodeFrom_first, decodeFrom_second, decodeFrom_third,
      decodeFrom_fourth, toNat_firstIndex_lt, toNat_secondIndex_lt, toNat_thirdIndex_lt,
      toNat_fourthIndex_lt, first_byte, second_byte, third_byte]
    rw [decodeFrom_encodeFrom rest]

theorem length_encodeFrom (input : List (BitVec 8)) :
    (encodeFrom .first input).length = (4 * input.length + 2) / 3 := by
  match input with
  | [] => rfl
  | [a] => simp [encodeFrom]
  | [a, b] => simp [encodeFrom]
  | a :: b :: d :: rest =>
    simp only [encodeFrom, List.length_cons, length_encodeFrom rest]
    omega

theorem encodeSize_eq (n : Nat) : encodeSize n = (n + 2) / 3 * 4 := by
  rw [encodeSize]
  split <;> omega

theorem length_encode {input : List (BitVec 8)} {outputLength : Nat}
    (h : encodeSize input.length ≤ outputLength) :
    (encode input outputLength).length = (input.length + 2) / 3 * 4 := by
  rw [encode]
  split
  · next hempty => rw [hempty, List.length_nil]
  · rw [if_neg (Nat.not_lt.mpr h), List.length_append, List.length_replicate, length_encodeFrom,
      encodeSize_eq]
    omega

theorem decodeSize_eq {text : List (BitVec 8)} (hempty : text.length ≠ 0)
    (hunpadded : unpadded text ≠ 0) : decodeSize text = 3 * unpadded text / 4 := by
  rw [decodeSize, if_neg hempty, lastIndex, if_neg hunpadded]
  omega

theorem decodeFrom_encode {input : List (BitVec 8)} {outputLength : Nat}
    (h : encodeSize input.length ≤ outputLength) :
    decodeFrom .first 0 (encode input outputLength) = input := by
  rw [encode]
  split
  · next hempty => rw [List.eq_nil_of_length_eq_zero hempty, decodeFrom]
  · rw [if_neg (Nat.not_lt.mpr h)]
    exact decodeFrom_encodeFrom input 0 _

/-- Encoded bytes decode to the same bytes exactly if both outputs have the announced sizes.  No part
of them is written otherwise. -/
theorem decode_encode (input : List (BitVec 8)) (outputLength decodedLength : Nat) :
    decode (encode input outputLength) decodedLength =
      if encodeSize input.length ≤ outputLength ∧ input.length ≤ decodedLength then input
      else [] := by
  by_cases hempty : input.length = 0
  · rw [encode, if_pos hempty, List.eq_nil_of_length_eq_zero hempty, ite_self]
    rfl
  · by_cases hencoded : encodeSize input.length ≤ outputLength
    · have hlength := length_encode hencoded
      have hsize := length_decodeFrom .first 0 (encode input outputLength)
      rw [decodeFrom_encode hencoded] at hsize
      simp only [Sextet.position] at hsize
      rw [decode, decodeSize_eq (by omega) (by omega), if_neg (by omega),
        decodeFrom_encode hencoded]
      by_cases hdecoded : input.length ≤ decodedLength
      · rw [if_neg (by omega), if_pos ⟨hencoded, hdecoded⟩]
      · rw [if_pos (by omega), if_neg fun hboth => hdecoded hboth.2]
    · rw [encode, if_neg hempty, if_pos (Nat.not_le.mp hencoded), if_neg fun hboth => hencoded hboth.1]
      rfl

/-- The second handshake that the firmware names to check its key. -/
example : encode [0x1d, 0x29, 0xab, 0x73, 0x4b, 0x0c, 0x95, 0x85, 0x24, 0x00, 0x69, 0xa6, 0xe4, 0xe3,
    0xe9, 0x1b, 0x61, 0xda, 0x19, 0x69] 30 = bytesOf "HSmrc0sMlYUkAGmm5OPpG2HaGWk=" := by
  decide +kernel

end RoundTrip

end Lucidac.Base64
