import Lucidac.Web.Reading

/-!
# The first line of a request

Method, address and version are read back as a client wrote them.  Any byte of the address may be
escaped, and in either case of the hexadecimal digits.
-/

namespace Lucidac.Web

open Base64 (bytesOf)

variable {r : Reader} {rest : List (BitVec 8)} {cs : List (Option (BitVec 8))}

section Method

theorem processMethod_reads {method : MethodType} {verb p : List (BitVec 8)}
    {before after : List (List (BitVec 8) × MethodType)} (hp : Similar p verb)
    (hbefore : ∀ other ∈ before, diverges other.1 verb = true ∧ other.1.length ≤ 127)
    (h : Reads r (p ++ rest) cs) :
    ∃ r', processMethod (before ++ (verb, method) :: after) r = (some method, r') ∧
      Reads r' rest cs := by
  induction before generalizing p r with
  | nil =>
    obtain ⟨r', heq, hreads⟩ := expect_similar hp h
    rw [List.nil_append, processMethod, heq]
    exact ⟨r', rfl, hreads⟩
  | cons other before ih =>
    obtain ⟨hdiverges, hlength⟩ := hbefore other List.mem_cons_self
    obtain ⟨r', p', heq, hp', hreads⟩ := expect_diverges hp hdiverges hlength h
    rw [List.cons_append, processMethod, heq]
    exact ih hp' (fun o ho => hbefore o (List.mem_cons_of_mem _ ho)) hreads

/-- The word of a method and the space behind it. -/
def MethodType.verb : MethodType → List (BitVec 8)
  | .get => bytesOf "GET "
  | .head => bytesOf "HEAD "
  | .post => bytesOf "POST "
  | .put => bytesOf "PUT "
  | .delete => bytesOf "DELETE "
  | .patch => bytesOf "PATCH "
  | .options => bytesOf "OPTIONS "

/-- How many words are tried before. -/
def MethodType.position : MethodType → Nat
  | .get => 0
  | .head => 1
  | .post => 2
  | .put => 3
  | .delete => 4
  | .patch => 5
  | .options => 6

theorem verbs_eq (method : MethodType) : verbs = verbs.take method.position ++
    (method.verb, method) :: verbs.drop (method.position + 1) := by
  cases method <;> rfl

theorem diverges_before (method : MethodType) : ∀ other ∈ verbs.take method.position,
    diverges other.1 method.verb = true ∧ other.1.length ≤ 127 := by
  cases method <;> decide +kernel

/-- Methods are recognised in any spelling of their letters. -/
theorem processMethod_verb {method : MethodType} {p : List (BitVec 8)}
    (hp : Similar p method.verb) (h : Reads r (p ++ rest) cs) :
    ∃ r', processMethod verbs r = (some method, r') ∧ Reads r' rest cs := by
  rw [verbs_eq method]
  exact processMethod_reads hp (diverges_before method) h

end Method

section Address

/-- One byte of an address: as it is or escaped, with the case of each digit. -/
inductive Escape where
  | plain
  | percent (upperHigh upperLow : Bool)
deriving DecidableEq

/-- The bytes that cannot stand for themselves. -/
def plainAllowed (byte : BitVec 8) : Bool := byte ≠ 32 && byte ≠ 10 && byte ≠ 13 && byte ≠ 37

def hexDigit (upper : Bool) (n : BitVec 4) : BitVec 8 :=
  if n.toNat < 10 then n.setWidth 8 + 48
  else n.setWidth 8 + if upper then 55 else 87

def escape (byte : BitVec 8) : Escape → List (BitVec 8)
  | .plain => [byte]
  | .percent upperHigh upperLow =>
    [37, hexDigit upperHigh (byte.extractLsb' 4 4), hexDigit upperLow (byte.extractLsb' 0 4)]

/-- An address with the spelling of each of its bytes. -/
structure Address where
  bytes : List (BitVec 8 × Escape)
  plain : ∀ b ∈ bytes, b.2 = .plain → plainAllowed b.1 = true

def Address.url (a : Address) : List (BitVec 8) := a.bytes.map Prod.fst

def Address.text (a : Address) : List (BitVec 8) := a.bytes.flatMap fun b => escape b.1 b.2

theorem hexValue_hexDigit : ∀ (byte : BitVec 8) (high low : Bool),
    hexValue (hexDigit high (byte.extractLsb' 4 4)) <<< 4 |||
      hexValue (hexDigit low (byte.extractLsb' 0 4)) = byte := by
  decide +kernel

theorem readURL_escape {byte : BitVec 8} {e : Escape} (he : e = .plain → plainAllowed byte = true)
    {bufferLeft : Nat} (hleft : bufferLeft ≠ 0) (url : List (BitVec 8))
    (h : Reads r (escape byte e ++ rest) cs) :
    ∃ r', readURL (bufferLeft + 1) url r = readURL bufferLeft (url ++ [byte]) r' ∧
      Reads r' rest cs := by
  cases e with
  | plain =>
    obtain ⟨r', hread, hreads, -⟩ := h.timedRead
    have hplain := he rfl
    simp only [plainAllowed, Bool.and_eq_true, decide_eq_true_iff] at hplain
    obtain ⟨⟨⟨hspace, hnewline⟩, hreturn⟩, hpercent⟩ := hplain
    refine ⟨r', ?_, hreads⟩
    rw [readURL, hread]
    simp only [hspace, hnewline, hreturn, hpercent, hleft, or_self, if_false]
  | percent upperHigh upperLow =>
    obtain ⟨r₁, hread₁, hreads₁, -⟩ := h.timedRead
    obtain ⟨r₂, hread₂, hreads₂, -⟩ := hreads₁.timedRead
    obtain ⟨r₃, hread₃, hreads₃, -⟩ := hreads₂.timedRead
    have hend : ¬ ((37 : BitVec 8) = 32 ∨ (37 : BitVec 8) = 10 ∨ (37 : BitVec 8) = 13) := by decide
    refine ⟨r₃, ?_, hreads₃⟩
    rw [readURL, hread₁]
    simp only [hend, hleft, if_false, if_true, hread₂, hread₃, hexValue_hexDigit]

theorem readURL_full {byte : BitVec 8} {e : Escape} (he : e = .plain → plainAllowed byte = true)
    (url : List (BitVec 8)) (h : Reads r (escape byte e ++ rest) cs) :
    ∃ r', readURL 1 url r = (false, url, r') ∧ r'.readTimedout = false := by
  cases e with
  | plain =>
    obtain ⟨r', hread, hreads, -⟩ := h.timedRead
    have hplain := he rfl
    simp only [plainAllowed, Bool.and_eq_true, decide_eq_true_iff] at hplain
    obtain ⟨⟨⟨hspace, hnewline⟩, hreturn⟩, -⟩ := hplain
    refine ⟨r', ?_, hreads.timely⟩
    rw [readURL, hread]
    simp only [hspace, hnewline, hreturn, or_self, if_false, if_true]
  | percent upperHigh upperLow =>
    obtain ⟨r', hread, hreads, -⟩ := h.timedRead
    have hend : ¬ ((37 : BitVec 8) = 32 ∨ (37 : BitVec 8) = 10 ∨ (37 : BitVec 8) = 13) := by decide
    refine ⟨r', ?_, hreads.timely⟩
    rw [readURL, hread]
    simp only [hend, if_false, if_true]

theorem readURL_bytes {bytes : List (BitVec 8 × Escape)}
    (hplain : ∀ b ∈ bytes, b.2 = .plain → plainAllowed b.1 = true) {bufferLeft : Nat}
    (hpos : 0 < bufferLeft) (url : List (BitVec 8))
    (h : Reads r ((bytes.flatMap fun b => escape b.1 b.2) ++ 32 :: rest) cs) :
    ∃ r', (if bytes.length < bufferLeft then
        readURL bufferLeft url r = (true, url ++ bytes.map Prod.fst, r') ∧ Reads r' rest cs
      else ∃ written, readURL bufferLeft url r = (false, written, r')) ∧
      r'.readTimedout = false := by
  induction bytes generalizing bufferLeft url r with
  | nil =>
    obtain ⟨r', hread, hreads, -⟩ := h.timedRead
    obtain ⟨left, rfl⟩ : ∃ left, bufferLeft = left + 1 := ⟨bufferLeft - 1, by omega⟩
    refine ⟨r', ?_, hreads.timely⟩
    rw [List.length_nil, if_pos hpos, readURL, hread]
    simp only [true_or, if_true, List.map_nil, List.append_nil]
    exact ⟨trivial, hreads⟩
  | cons b bytes ih =>
    obtain ⟨left, rfl⟩ : ∃ left, bufferLeft = left + 1 := ⟨bufferLeft - 1, by omega⟩
    rw [List.flatMap_cons, List.append_assoc] at h
    have hb := hplain b List.mem_cons_self
    cases left with
    | zero =>
      obtain ⟨r', heq, htimely⟩ := readURL_full hb url h
      refine ⟨r', ?_, htimely⟩
      rw [List.length_cons, if_neg (by omega)]
      exact ⟨url, heq⟩
    | succ left =>
      obtain ⟨r₁, heq, hreads⟩ := readURL_escape hb (Nat.succ_ne_zero left) url h
      obtain ⟨r', hrest, htimely⟩ := ih (fun b' hb' => hplain b' (List.mem_cons_of_mem _ hb'))
        (Nat.succ_pos left) (url ++ [b.1]) hreads
      refine ⟨r', ?_, htimely⟩
      rw [heq, List.length_cons, List.map_cons, List.append_cons url b.1 (bytes.map Prod.fst)]
      simpa only [Nat.succ_eq_add_one, Nat.add_lt_add_iff_right] using hrest

end Address

section Version

/-- One character that begins neither the end of the line nor a version. -/
theorem readVersionLoop_skip {c : BitVec 8} {p line : List (BitVec 8)}
    (hp : Similar p (c :: line)) (hend : diverges crlf (c :: line) = true)
    (hzero : diverges (bytesOf "1.0") (c :: line) = true)
    (hone : diverges (bytesOf "1.1") (c :: line) = true) (fuel : Nat) (minor : Option Nat)
    (h : Reads r (p ++ rest) cs) :
    ∃ r' p', readVersionLoop (fuel + 1) minor r = readVersionLoop fuel minor r' ∧
      Similar p' line ∧ Reads r' (p' ++ rest) cs := by
  obtain ⟨r₁, p₁, heq₁, hp₁, hreads₁⟩ := expect_diverges hp hend (by decide) h
  obtain ⟨r₂, p₂, heq₂, hp₂, hreads₂⟩ := expect_diverges hp₁ hzero (by decide) hreads₁
  obtain ⟨r₃, p₃, heq₃, hp₃, hreads₃⟩ := expect_diverges hp₂ hone (by decide) hreads₂
  cases p₃ with
  | nil => cases hp₃
  | cons c' p₃ =>
    obtain ⟨r₄, hread, hreads₄, -⟩ := hreads₃.timedRead
    refine ⟨r₄, p₃, ?_, (similar_cons.mp hp₃).2, hreads₄⟩
    rw [readVersionLoop, heq₁]
    simp only [heq₂, heq₃, hread]

theorem readVersionLoop_end {p : List (BitVec 8)} (hp : Similar p crlf) (fuel : Nat)
    (minor : Option Nat) (h : Reads r (p ++ rest) cs) :
    ∃ r', readVersionLoop (fuel + 1) minor r = (true, minor, r') ∧ Reads r' rest cs := by
  obtain ⟨r', heq, hreads⟩ := expect_similar hp h
  rw [readVersionLoop, heq]
  exact ⟨r', rfl, hreads⟩

inductive MinorVersion where
  | zero | one
deriving DecidableEq

namespace MinorVersion

def toNat : MinorVersion → Nat
  | .zero => 0
  | .one => 1

def digits : MinorVersion → List (BitVec 8)
  | .zero => bytesOf "1.0"
  | .one => bytesOf "1.1"

end MinorVersion

theorem readVersionLoop_digits {v : MinorVersion} {p : List (BitVec 8)}
    (hp : Similar p (v.digits ++ crlf)) (fuel : Nat) (minor : Option Nat)
    (h : Reads r (p ++ rest) cs) :
    ∃ r', readVersionLoop (fuel + 2) minor r = (true, some v.toNat, r') ∧ Reads r' rest cs := by
  have hend : diverges crlf (v.digits ++ crlf) = true := by cases v <;> decide +kernel
  obtain ⟨r₁, p₁, heq₁, hp₁, hreads₁⟩ := expect_diverges hp hend (by decide) h
  cases v with
  | zero =>
    obtain ⟨s, s', rfl, hs, hs'⟩ := hp₁.exists_append
    rw [List.append_assoc] at hreads₁
    obtain ⟨r₂, heq₂, hreads₂⟩ := expect_similar hs hreads₁
    obtain ⟨r₃, heq₃, hreads₃⟩ := readVersionLoop_end hs' fuel (some 0) hreads₂
    refine ⟨r₃, ?_, hreads₃⟩
    rw [readVersionLoop, heq₁]
    simp only [show expect (bytesOf "1.0") r₁ = (true, r₂) from heq₂]
    exact heq₃
  | one =>
    obtain ⟨r₂, p₂, heq₂, hp₂, hreads₂⟩ :=
      @expect_diverges _ _ _ (bytesOf "1.0") _ _ hp₁ (by decide +kernel) (by decide) hreads₁
    obtain ⟨s, s', rfl, hs, hs'⟩ := hp₂.exists_append
    rw [List.append_assoc] at hreads₂
    obtain ⟨r₃, heq₃, hreads₃⟩ := expect_similar hs hreads₂
    obtain ⟨r₄, heq₄, hreads₄⟩ := readVersionLoop_end hs' fuel (some 1) hreads₃
    refine ⟨r₄, ?_, hreads₄⟩
    rw [readVersionLoop, heq₁]
    simp only [heq₂, show expect (bytesOf "1.1") r₂ = (true, r₃) from heq₃]
    exact heq₄

/-- The rest of the line behind the address. -/
def versionText (v : MinorVersion) : List (BitVec 8) := bytesOf "HTTP/" ++ (v.digits ++ crlf)

theorem readVersion_text (v : MinorVersion) {p : List (BitVec 8)} (hp : Similar p (versionText v))
    (h : Reads r (p ++ rest) cs) :
    ∃ r', readVersion r = (true, some v.toNat, r') ∧ Reads r' rest cs := by
  have hlength : (versionText v).length = 10 := by cases v <;> rfl
  have hsize : r.size + 1 = (rest.length + cs.length) + 4 + 2 + 1 + 1 + 1 + 1 + 1 := by
    rw [h.size_eq, List.length_append, hp.length_eq, hlength]
    omega
  have htext : versionText v = 72 :: 84 :: 84 :: 80 :: 47 :: (v.digits ++ crlf) := rfl
  rw [htext] at hp
  obtain ⟨r₁, p₁, heq₁, hp₁, h₁⟩ :=
    readVersionLoop_skip hp rfl rfl rfl ((rest.length + cs.length) + 4 + 2 + 1 + 1 + 1 + 1) none h
  obtain ⟨r₂, p₂, heq₂, hp₂, h₂⟩ :=
    readVersionLoop_skip hp₁ rfl rfl rfl ((rest.length + cs.length) + 4 + 2 + 1 + 1 + 1) none h₁
  obtain ⟨r₃, p₃, heq₃, hp₃, h₃⟩ :=
    readVersionLoop_skip hp₂ rfl rfl rfl ((rest.length + cs.length) + 4 + 2 + 1 + 1) none h₂
  obtain ⟨r₄, p₄, heq₄, hp₄, h₄⟩ :=
    readVersionLoop_skip hp₃ rfl rfl rfl ((rest.length + cs.length) + 4 + 2 + 1) none h₃
  obtain ⟨r₅, p₅, heq₅, hp₅, h₅⟩ :=
    readVersionLoop_skip hp₄ rfl rfl rfl ((rest.length + cs.length) + 4 + 2) none h₄
  obtain ⟨r', heq, hreads⟩ := readVersionLoop_digits hp₅ ((rest.length + cs.length) + 4) none h₅
  refine ⟨r', ?_, hreads⟩
  rw [readVersion, hsize, heq₁, heq₂, heq₃, heq₄, heq₅, heq]

end Version

end Lucidac.Web
