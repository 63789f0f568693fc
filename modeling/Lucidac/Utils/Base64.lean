import Mathlib.Algebra.Group.Nat.Defs
import Mathlib.Data.List.TakeWhile

/-!
# Base64

Decoding as in the embedded template library, which the firmware carries along.  Characters
outside of the alphabet decode like the first one, and padding ends the text.
-/

namespace Lucidac.Base64

def bytesOf (s : String) : List (BitVec 8) := s.toUTF8.data.toList.map UInt8.toBitVec

def padding : BitVec 8 := 61

def getIndexFromSextet (sextet : BitVec 8) : BitVec 8 :=
  let c := sextet.toNat
  if 'A'.toNat ≤ c ∧ c ≤ 'Z'.toNat then BitVec.ofNat 8 (c - 'A'.toNat)
  else if 'a'.toNat ≤ c ∧ c ≤ 'z'.toNat then BitVec.ofNat 8 (c - 'a'.toNat + 26)
  else if '0'.toNat ≤ c ∧ c ≤ '9'.toNat then BitVec.ofNat 8 (c - '0'.toNat + 52)
  else if c = '+'.toNat then 62
  else if c = '/'.toNat then 63
  else 0

inductive Sextet where
  | first
  | second
  | third
  | fourth

/-- The bytes written from here on, with the bits left over from the previous sextet. -/
def decodeFrom : Sextet → BitVec 8 → List (BitVec 8) → List (BitVec 8)
  | _, _, [] => []
  | next, c, sextet :: rest =>
    if sextet = padding then []
    else
      let index := getIndexFromSextet sextet
      match next with
      | .first => decodeFrom .second ((index &&& 0b00111111) <<< 2) rest
      | .second =>
        (c ||| ((index &&& 0b00110000) >>> 4)) :: decodeFrom .third ((index &&& 0b00001111) <<< 4) rest
      | .third =>
        (c ||| ((index &&& 0b00111100) >>> 2)) :: decodeFrom .fourth ((index &&& 0b00000011) <<< 6) rest
      | .fourth => (c ||| (index &&& 0b00111111)) :: decodeFrom .first c rest

def unpadded (input : List (BitVec 8)) : Nat := (input.takeWhile (· ≠ padding)).length

/-- One less than the characters before the padding; a text that starts with padding makes the
unsigned difference wrap around. -/
def lastIndex (input : List (BitVec 8)) : Nat :=
  if unpadded input = 0 then 2^32 - 1 else unpadded input - 1

def decodeSize (input : List (BitVec 8)) : Nat :=
  if input.length = 0 then 0 else lastIndex input - lastIndex input / 4

/-- The bytes written to the output, whose number is the return value. -/
def decode (input : List (BitVec 8)) (outputLength : Nat) : List (BitVec 8) :=
  if input.length = 0 then []
  else if outputLength < decodeSize input then []
  else decodeFrom .first 0 input

/-! ### The number of bytes -/

/-- How many sextets of the present group were read. -/
def Sextet.position : Sextet → Nat
  | .first => 0
  | .second => 1
  | .third => 2
  | .fourth => 3

theorem unpadded_cons_of_ne {sextet : BitVec 8} (h : sextet ≠ padding) (rest : List (BitVec 8)) :
    unpadded (sextet :: rest) = unpadded rest + 1 := by
  simp [unpadded, h]

theorem length_decodeFrom (next : Sextet) (c : BitVec 8) (input : List (BitVec 8)) :
    (decodeFrom next c input).length =
      3 * (unpadded input + next.position) / 4 - 3 * next.position / 4 := by
  induction input generalizing next c with
  | nil =>
    rw [decodeFrom, unpadded, List.takeWhile_nil, List.length_nil, Nat.zero_add, Nat.sub_self]
  | cons sextet rest ih =>
    rw [decodeFrom]
    by_cases hpad : sextet = padding
    · have hzero : unpadded (sextet :: rest) = 0 := by simp [unpadded, hpad]
      rw [if_pos hpad, hzero, Nat.zero_add, Nat.sub_self, List.length_nil]
    · rw [if_neg hpad, unpadded_cons_of_ne hpad]
      cases next with
      | first =>
        simp only [ih, Sextet.position]
      | second =>
        simp only [List.length_cons, ih, Sextet.position]
        omega
      | third =>
        simp only [List.length_cons, ih, Sextet.position]
        omega
      | fourth =>
        simp only [List.length_cons, ih, Sextet.position]
        omega

theorem length_decode_le (input : List (BitVec 8)) (outputLength : Nat) :
    (decode input outputLength).length ≤ outputLength := by
  rw [decode]
  split
  · exact Nat.zero_le _
  · rename_i hempty
    split
    · exact Nat.zero_le _
    · rename_i hfits
      have hlength := length_decodeFrom .first 0 input
      rw [decodeSize, if_neg hempty, lastIndex] at hfits
      simp only [Sextet.position] at hlength
      split at hfits <;> omega

end Lucidac.Base64
