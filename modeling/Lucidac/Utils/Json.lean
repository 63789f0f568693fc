import Mathlib.Algebra.Order.Group.Abs
import Mathlib.Algebra.Order.Field.Rat
import Mathlib.Data.List.TakeWhile
import Lucidac.Framework.Program
import Lucidac.Utils.Status

/-!
# JSON values and numerals

The configuration readers work on ArduinoJson variants.  An object is the list of its members in
insertion order, which is the order in which the firmware iterates over them.  Floating point
numbers are exact rationals.  The conversion of a text to a number belongs to the JSON library
and is a parameter wherever a reader can reach it.
-/

namespace Lucidac

inductive Json where
  | null
  | bool (value : Bool)
  | integer (value : Int)
  | float (value : ℚ)
  | string (value : String)
  | array (elements : List Json)
  | object (members : List (String × Json))

namespace Json

def isNull : Json → Bool
  | .null => true
  | _ => false

/-- `is<uint8_t>()`: an integer that fits eight unsigned bits. -/
def isUInt8 : Json → Bool
  | .integer n => 0 ≤ n && n < 256
  | _ => false

/-- `as<uint8_t>()`, only used where `is<uint8_t>()` holds. -/
def asUInt8 : Json → Nat
  | .integer n => n.toNat % 256
  | _ => 0

def isBool : Json → Bool
  | .bool _ => true
  | _ => false

def asBool : Json → Bool
  | .null => false
  | .bool b => b
  | .integer n => n != 0
  | .float x => x != 0
  | _ => true

theorem isUInt8_natCast {n : Nat} (h : n < 256) : (Json.integer n).isUInt8 = true := by
  simp only [isUInt8, Bool.and_eq_true, decide_eq_true_eq]
  omega

theorem asUInt8_natCast {n : Nat} (h : n < 256) : (Json.integer n).asUInt8 = n := by
  simp only [asUInt8, Int.toNat_natCast]
  exact Nat.mod_eq_of_lt h

/-- `as<float>()` before it is rounded, see `toFloat`; `parseNumber` is the library's reading of a
text. -/
def asFloat (parseNumber : String → ℚ) : Json → ℚ
  | .bool b => if b then 1 else 0
  | .integer n => n
  | .float x => x
  | .string s => parseNumber s
  | _ => 0

/-- The nearest integer, with ties to even. -/
def roundEven (x : ℚ) : Int :=
  let below := x.floor
  let twice := (x - below) * 2
  if 1 < twice ∨ twice = 1 ∧ below % 2 = 1 then below + 1 else below

/-- `ldexp` -/
def scaleByPower (x : ℚ) : Int → ℚ
  | .ofNat n => x * (2^n : Nat)
  | .negSucc n => x / (2^(n + 1) : Nat)

/-- The nearest number of single precision.  A number beyond their range stays as it is. -/
def toFloat (x : ℚ) : ℚ :=
  if x = 0 then 0
  else
    let estimate : Int := x.num.natAbs.log2 - x.den.log2
    let exponent := if |x| < scaleByPower 1 estimate then estimate - 1 else estimate
    let unit := max (exponent - 23) (-149)
    scaleByPower (roundEven (scaleByPower x (-unit))) unit

/-- `is<float>()`: numbers of either kind. -/
def isFloat : Json → Bool
  | .integer _ => true
  | .float _ => true
  | _ => false

def isString : Json → Bool
  | .string _ => true
  | _ => false

/-- `containsKey(key)`, false for everything that is not an object. -/
def containsKey (key : String) : Json → Bool
  | .object members => (members.lookup key).isSome
  | _ => false

/-- `operator[](key)`; what is missing reads as null. -/
def member (key : String) : Json → Json
  | .object members => (members.lookup key).getD .null
  | _ => .null

/-- `is<unsigned int>()` on a 32-bit target. -/
def isUInt32 : Json → Bool
  | .integer n => 0 ≤ n && n < 2^32
  | _ => false

/-- `as<unsigned int>()`, only used where `is<unsigned int>()` holds. -/
def asUInt32 : Json → Nat
  | .integer n => n.toNat % 2^32
  | _ => 0

def isObject : Json → Bool
  | .object _ => true
  | _ => false

/-- `size()` counts the elements of an array and the members of an object. -/
def size : Json → Nat
  | .array elements => elements.length
  | .object members => members.length
  | _ => 0

/-- `operator[](i)`; what is missing reads as null. -/
def element (i : Nat) : Json → Json
  | .array elements => elements.getD i .null
  | _ => .null

def isArray : Json → Bool
  | .array _ => true
  | _ => false

/-- `as<JsonArrayConst>()`; everything else gives the empty array. -/
def asArray : Json → List Json
  | .array elements => elements
  | _ => []

/-- `as<int8_t>()`: numbers are truncated, and what does not fit reads as zero. -/
def asInt8 (parseNumber : String → ℚ) (cfg : Json) : Int :=
  let x := cfg.asFloat parseNumber
  if -128 ≤ x ∧ x ≤ 127 then if x < 0 then x.ceil else x.floor else 0

theorem asInt8_integer (parseNumber : String → ℚ) {n : Int} (hmin : 0 ≤ n) (hmax : n ≤ 127) :
    (Json.integer n).asInt8 parseNumber = n := by
  have hlow : (-128 : ℚ) ≤ (n : ℚ) := by exact_mod_cast (by omega : -128 ≤ n)
  have hhigh : (n : ℚ) ≤ 127 := by exact_mod_cast hmax
  have hnonneg : ¬ (n : ℚ) < 0 := by
    rw [not_lt]
    exact_mod_cast hmin
  change (if -128 ≤ (n : ℚ) ∧ (n : ℚ) ≤ 127 then
    if (n : ℚ) < 0 then (n : ℚ).ceil else (n : ℚ).floor else 0) = n
  rw [if_pos ⟨hlow, hhigh⟩, if_neg hnonneg, Rat.floor_intCast]

/-- The conversion to an unsigned number of `w` bits: numbers are truncated, and what does not fit
reads as zero. -/
def asUnsigned (w : Nat) (parseNumber : String → ℚ) (cfg : Json) : Nat :=
  let x := cfg.asFloat parseNumber
  if 0 ≤ x ∧ x < 2^w then x.floor.toNat else 0

theorem asUnsigned_integer (parseNumber : String → ℚ) {w n : Nat} (h : n < 2^w) :
    (Json.integer n).asUnsigned w parseNumber = n := by
  have hcast : (((n : Int) : ℚ)) < 2^w := by exact_mod_cast h
  change (if 0 ≤ ((n : Int) : ℚ) ∧ ((n : Int) : ℚ) < 2^w then ((n : Int) : ℚ).floor.toNat else 0) = n
  rw [if_pos ⟨by exact_mod_cast Nat.zero_le n, hcast⟩, Rat.floor_intCast]
  exact Int.toNat_natCast n

/-- `msg[key] | fallback` for a Boolean option: only a Boolean overrides the default. -/
def boolOr (fallback : Bool) : Json → Bool
  | .bool b => b
  | _ => fallback

/-- `as<const char *>()` as the formatter prints it. -/
def asCString : Json → String
  | .string s => s
  | _ => "(null)"

end Json

/-- `utils::is_number`: every character is a decimal digit. -/
def isNumber (s : String) : Bool := s.toList.all Char.isDigit

private def isSpace (c : Char) : Bool :=
  c == ' ' || (9 ≤ c.toNat && c.toNat ≤ 13)

def digitsValue (ds : List Char) : Nat :=
  ds.foldl (fun n c => 10 * n + (c.toNat - '0'.toNat)) 0

/-- `std::stoul` on a 32-bit target: leading white space, an optional sign, the longest run of
digits.  `none` is the thrown exception. -/
def stoul (s : String) : Option Nat :=
  let (negative, rest) := match s.toList.dropWhile isSpace with
    | '-' :: rest => (true, rest)
    | '+' :: rest => (false, rest)
    | rest => (false, rest)
  let digits := rest.takeWhile Char.isDigit
  let value := digitsValue digits
  if digits = [] ∨ 2^32 ≤ value then none
  else some (if negative then (2^32 - value) % 2^32 else value)

theorem isNumber_toString (n : Nat) : isNumber (toString n) = true := by
  rw [isNumber, Nat.toString_eq_repr, Nat.toList_repr, List.all_eq_true]
  intro c hc
  exact Nat.isDigit_of_mem_toDigits (by decide) (by decide) hc

private theorem not_isSpace_of_isDigit {c : Char} (h : c.isDigit = true) : isSpace c = false := by
  simp only [Char.isDigit, Bool.and_eq_true, decide_eq_true_eq] at h
  have hlow : 48 ≤ c.toNat := h.1
  have hspace : c ≠ ' ' := by
    intro he
    rw [he] at hlow
    exact absurd hlow (by decide)
  simp only [isSpace, Bool.or_eq_false_iff, beq_eq_false_iff_ne, Bool.and_eq_false_iff,
    decide_eq_false_iff_not]
  exact ⟨hspace, Or.inr (by omega)⟩

/-- On a text of digits `std::stoul` only fails for the empty text and beyond 32 bits. -/
theorem stoul_of_isNumber {s : String} (h : isNumber s = true) :
    stoul s = if s.toList = [] ∨ 2^32 ≤ digitsValue s.toList then none
      else some (digitsValue s.toList) := by
  rw [isNumber, List.all_eq_true] at h
  have hdigits : s.toList.takeWhile Char.isDigit = s.toList := List.takeWhile_eq_self_iff.mpr h
  have hspaces : s.toList.dropWhile isSpace = s.toList := by
    cases hs : s.toList with
    | nil => rfl
    | cons c rest =>
      have hc := not_isSpace_of_isDigit (h c (by rw [hs]; exact List.mem_cons_self))
      rw [List.dropWhile_cons_of_neg (by rw [hc]; exact Bool.false_ne_true)]
  simp only [stoul]
  rw [hspaces]
  split
  · rename_i hs
    exact absurd (h '-' (by rw [hs]; exact List.mem_cons_self)) (by decide)
  · rename_i hs
    exact absurd (h '+' (by rw [hs]; exact List.mem_cons_self)) (by decide)
  · rw [hdigits, if_neg Bool.false_ne_true]

/-- `%f`: six decimals, ties to even. -/
def formatFloat (x : ℚ) : String :=
  let scaled : ℚ := |x| * 1000000
  let below : Nat := scaled.floor.toNat
  let twice : ℚ := (scaled - (below : ℚ)) * 2
  let n : Nat := if 1 < twice ∨ twice = 1 ∧ below % 2 = 1 then below + 1 else below
  let decimals := toString (n % 1000000)
  (if x < 0 then "-" else "") ++ toString (n / 1000000) ++ "." ++
    "".pushn '0' (6 - decimals.length) ++ decimals

/-- How a configuration reader ends early: with a status, or by an uncaught exception. -/
inductive ConfigError where
  | status (s : Status)
  | exception

def readIndex {σ : Type} (key : String) : EStateM ConfigError σ Nat :=
  match stoul key with
  | some n => pure n
  | none => throw .exception

/-- A decimal numeral as it stands in the key of an object. -/
structure Numeral where
  text : String
  isNumber_text : isNumber text = true
  text_ne_nil : text.toList ≠ []

def Numeral.value (key : Numeral) : Nat := digitsValue key.text.toList

theorem Numeral.readIndex_text {σ : Type} (key : Numeral) :
    (readIndex key.text : EStateM ConfigError σ Nat) =
      if 2^32 ≤ key.value then throw .exception else pure key.value := by
  simp only [readIndex]
  rw [stoul_of_isNumber key.isNumber_text, show digitsValue key.text.toList = key.value from rfl]
  by_cases h : 2^32 ≤ key.value
  · rw [if_pos (Or.inr h), if_pos h]
  · rw [if_neg (not_or.mpr ⟨key.text_ne_nil, h⟩), if_neg h]

theorem Numeral.readIndex_of_lt {σ : Type} {key : Numeral} (h : key.value < 2^32) :
    (readIndex key.text : EStateM ConfigError σ Nat) = pure key.value := by
  rw [key.readIndex_text, if_neg (Nat.not_le.mpr h)]

/-- A decimal numeral of an index below `n`. -/
structure IndexKey (n : Nat) where
  text : String
  index : Fin n
  isNumber_text : isNumber text = true
  text_ne_nil : text.toList ≠ []
  digitsValue_text : digitsValue text.toList = index

theorem IndexKey.readIndex_text {σ : Type} {n : Nat} (key : IndexKey n) (hn : n ≤ 2^32) :
    (readIndex key.text : EStateM ConfigError σ Nat) = pure key.index.val := by
  have hvalue : Numeral.value ⟨key.text, key.isNumber_text, key.text_ne_nil⟩ = key.index :=
    key.digitsValue_text
  have hread := Numeral.readIndex_of_lt (σ := σ) (by
    rw [hvalue]
    exact Nat.lt_of_lt_of_le key.index.isLt hn)
  rw [hvalue] at hread
  exact hread

/-- A `uint8_t` argument takes the index over. -/
theorem IndexKey.index_mod {n : Nat} (key : IndexKey n) (hn : n ≤ 256) :
    key.index.val % 256 = key.index.val :=
  Nat.mod_eq_of_lt (Nat.lt_of_lt_of_le key.index.isLt hn)

theorem keeps_readIndex {σ : Type} {P : σ → Prop} (key : String) :
    Framework.Keeps P (readIndex key) := by
  simp only [readIndex]
  split
  · exact .pure _
  · exact .throw _

end Lucidac
