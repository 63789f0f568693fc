import Lucidac.Framework.JsonText
import Mathlib.Data.BitVec
import Mathlib.Tactic.Ring

/-!
# Texts of network addresses

A MAC address is written as `AA-BB-CC-DD-EE-FF`, an IP address as four decimal numbers.
-/

namespace Lucidac

open Framework.JsonText (hexValue)

/-- Byte `k` of an address, counted from the last one. -/
def byteAt (address k : Nat) : Nat := address / 256 ^ k % 256

/-- `%02X` -/
def hexByte (n : Nat) : List Char :=
  [(Nat.digitChar (n / 16)).toUpper, (Nat.digitChar (n % 16)).toUpper]

/-- `toString(mac)` -/
def macToString (mac : BitVec 48) : String :=
  String.ofList (List.intercalate ['-'] ([5, 4, 3, 2, 1, 0].map fun k => hexByte (byteAt mac.toNat k)))

/-- `std::stoul(text, nullptr, 16)` on a text that begins with a digit; `none` if there is none. -/
def hexPrefix (text : List Char) : Option Nat :=
  match text.takeWhile fun c => (hexValue c).isSome with
  | [] => none
  | digits => some (digits.foldl (fun n c => 16 * n + (hexValue c).getD 0) 0)

/-- The number with these bytes, of which the first is the highest. -/
def ofBytes (bytes : List Nat) : Nat := bytes.foldl (fun n b => 256 * n + b % 256) 0

/-- `MacAddress::fromString` on an address that was zero; `none` is the exception of `stoul`. -/
def macFromString (text : String) : Option (BitVec 48) :=
  if text.length ≠ 17 then some 0
  else ([0, 1, 2, 3, 4, 5].mapM fun i => hexPrefix (text.toList.drop (3 * i))).map fun bytes =>
    BitVec.ofNat 48 (ofBytes bytes)

/-- `toString(ip)` -/
def ipToString (ip : BitVec 32) : String :=
  String.ofList (List.intercalate ['.'] ([3, 2, 1, 0].map fun k =>
    Nat.toDigits 10 (byteAt ip.toNat k)))

/-- `IPAddress::fromString` on a text of numbers and dots. -/
def ipFromString (text : String) : BitVec 32 :=
  BitVec.ofNat 32 (ofBytes ((text.toList.splitOn '.').map fun part => Nat.ofDigitChars 10 part 0))

theorem hexValue_digitChar_toUpper :
    ∀ d < 16, hexValue (Nat.digitChar d).toUpper = some d := by decide

theorem hexPrefix_hexByte {n : Nat} (h : n < 256) {rest : List Char}
    (hrest : ∀ c ∈ rest.head?, hexValue c = none) : hexPrefix (hexByte n ++ rest) = some n := by
  have hhigh := hexValue_digitChar_toUpper (n / 16) (by omega)
  have hlow := hexValue_digitChar_toUpper (n % 16) (by omega)
  have hstop : rest.takeWhile (fun c => (hexValue c).isSome) = [] := by
    cases rest with
    | nil => rfl
    | cons c rest =>
      rw [List.takeWhile_cons_of_neg]
      simp [hrest c rfl]
  simp only [hexPrefix, hexByte, List.cons_append, List.nil_append, List.takeWhile_cons, hhigh,
    hlow, Option.isSome_some, if_true, hstop, List.foldl_cons, List.foldl_nil, Option.getD_some]
  congr 1
  omega

theorem ofBytes_cons (b : Nat) (bytes : List Nat) :
    ofBytes (b :: bytes) = b % 256 * 256 ^ bytes.length + ofBytes bytes := by
  have hfold : ∀ n, bytes.foldl (fun n b => 256 * n + b % 256) n =
      n * 256 ^ bytes.length + ofBytes bytes := by
    induction bytes with
    | nil => simp [ofBytes]
    | cons c bytes ih =>
      intro n
      have hcons : ofBytes (c :: bytes) = c % 256 * 256 ^ bytes.length + ofBytes bytes := by
        rw [← ih, ofBytes, List.foldl_cons, Nat.mul_zero, Nat.zero_add]
      rw [List.foldl_cons, ih, hcons, List.length_cons, Nat.pow_succ']
      ring
  rw [ofBytes, List.foldl_cons, Nat.mul_zero, Nat.zero_add, hfold]

theorem ofBytes_byteAt (address n : Nat) :
    ofBytes ((List.range n).reverse.map (byteAt address)) = address % 256 ^ n := by
  induction n with
  | zero => simp [ofBytes, Nat.mod_one]
  | succ n ih =>
    rw [List.range_succ, List.reverse_append, List.reverse_singleton, List.singleton_append,
      List.map_cons, ofBytes_cons, ih, List.length_map, List.length_reverse, List.length_range,
      Nat.mod_pow_succ, byteAt, Nat.mod_mod, Nat.mul_comm, Nat.add_comm]

theorem ofBytes_mac (mac : BitVec 48) :
    BitVec.ofNat 48 (ofBytes ([5, 4, 3, 2, 1, 0].map (byteAt mac.toNat))) = mac := by
  have hbytes : ofBytes ([5, 4, 3, 2, 1, 0].map (byteAt mac.toNat)) = mac.toNat % 2 ^ 48 :=
    ofBytes_byteAt mac.toNat 6
  rw [hbytes, Nat.mod_eq_of_lt mac.isLt, BitVec.ofNat_toNat, BitVec.setWidth_eq]

theorem ofBytes_ip (ip : BitVec 32) :
    BitVec.ofNat 32 (ofBytes ([3, 2, 1, 0].map (byteAt ip.toNat))) = ip := by
  have hbytes : ofBytes ([3, 2, 1, 0].map (byteAt ip.toNat)) = ip.toNat % 2 ^ 32 :=
    ofBytes_byteAt ip.toNat 4
  rw [hbytes, Nat.mod_eq_of_lt ip.isLt, BitVec.ofNat_toNat, BitVec.setWidth_eq]

theorem byteAt_lt (address k : Nat) : byteAt address k < 256 := Nat.mod_lt _ (by decide)

section Mac

variable (f : Nat → Nat)

theorem intercalate_hexByte :
    List.intercalate ['-'] ([5, 4, 3, 2, 1, 0].map fun k => hexByte (f k)) =
      hexByte (f 5) ++ '-' :: (hexByte (f 4) ++ '-' :: (hexByte (f 3) ++ '-' ::
        (hexByte (f 2) ++ '-' :: (hexByte (f 1) ++ '-' :: hexByte (f 0))))) := by
  simp [List.intercalate_cons_cons]

variable {f}

/-- The bytes are at every third character. -/
theorem mapM_hexPrefix (hf : ∀ k, f k < 256) :
    ([0, 1, 2, 3, 4, 5].mapM fun i => hexPrefix ((List.intercalate ['-']
      ([5, 4, 3, 2, 1, 0].map fun k => hexByte (f k))).drop (3 * i))) =
        some ([5, 4, 3, 2, 1, 0].map f) := by
  have hdash : ∀ k rest, hexPrefix (hexByte (f k) ++ '-' :: rest) = some (f k) := by
    intro k rest
    apply hexPrefix_hexByte (hf k)
    intro c hc
    cases hc
    rfl
  have hlast : hexPrefix (hexByte (f 0)) = some (f 0) := by
    rw [← List.append_nil (hexByte (f 0))]
    exact hexPrefix_hexByte (hf 0) (by simp)
  have hdrop : ∀ n rest i, (hexByte n ++ '-' :: rest).drop (3 * (i + 1)) = rest.drop (3 * i) :=
    fun _ _ _ => rfl
  rw [intercalate_hexByte]
  simp only [List.mapM_cons, List.mapM_nil, Nat.mul_zero, List.drop_zero, hdash, hdrop _ _ 0,
    hdrop _ _ 1, hdrop _ _ 2, hdrop _ _ 3, hdrop _ _ 4, hlast]
  rfl

end Mac

theorem macFromString_macToString (mac : BitVec 48) :
    macFromString (macToString mac) = some mac := by
  have hlength : (macToString mac).length = 17 := by
    rw [macToString, String.length_ofList, intercalate_hexByte]
    rfl
  rw [macFromString, if_neg (not_not_intro hlength), macToString, String.toList_ofList,
    mapM_hexPrefix (byteAt_lt mac.toNat), Option.map_some, ofBytes_mac]

theorem ipFromString_ipToString (ip : BitVec 32) : ipFromString (ipToString ip) = ip := by
  have hnodot : ∀ part ∈ [3, 2, 1, 0].map fun k => Nat.toDigits 10 (byteAt ip.toNat k),
      '.' ∉ part := by
    intro part hpart hmem
    obtain ⟨k, -, rfl⟩ := List.mem_map.mp hpart
    exact absurd (Nat.isDigit_of_mem_toDigits (by decide) (by decide) hmem) (by decide)
  rw [ipFromString, ipToString, String.toList_ofList,
    List.splitOn_intercalate '.' hnodot (by simp), List.map_map]
  simp only [Function.comp_def, Nat.ofDigitChars_ten_toDigits]
  exact ofBytes_ip ip

end Lucidac
