import Mathlib.Logic.Basic

/-!
# Status values

`utils::status` pairs a 32-bit code with a text; the code zero means success.  Statuses are
combined by `attach`, which scales the code of the attached status by 128 and adds it.
-/

namespace Lucidac

structure Status where
  code : BitVec 32
  msg : String
deriving DecidableEq

namespace Status

/-- `status(int code)`. -/
def ofCode (code : BitVec 32) : Status := ⟨code, "No error message provided"⟩

/-- `status()`. -/
def empty : Status := ⟨0, "success"⟩

/-- `status(bool code)`: true means success. -/
def ofBool (code : Bool) : Status := ofCode (if code then 0 else 1)

/-- `status(std::string msg)`, also reached by the formatting constructor. -/
def ofString (msg : String) : Status := ⟨-1, msg⟩

/-- `status(const char *msg)`. -/
def ofCString (msg : String) : Status := ⟨-2, msg⟩

def isOk (s : Status) : Bool := s.code == 0

def success : Status := ofCode 0

def failure : Status := ofCode (-1)

@[simp] theorem isOk_success : success.isOk = true := rfl

@[simp] theorem isOk_failure : failure.isOk = false := rfl

/-- `attach(const status &other, const char *description)`. -/
def attach (s other : Status) (description : String) : Status :=
  if !other.isOk || !s.isOk then
    ⟨s.code + other.code * 128, s.msg ++ (other.msg ++ description)⟩
  else s

/-- `attach(int _code, const char *_msg)`. -/
def attachRaw (s : Status) (code : BitVec 32) (msg : String) : Status :=
  ⟨s.code + code * 128, s.msg ++ msg⟩

/-- `attach(const char *_msg)`. -/
def attachMsg (s : Status) (msg : String) : Status := { s with msg := s.msg ++ msg }

/-- The guard of `attach` never changes the resulting code. -/
theorem attach_code (s other : Status) (description : String) :
    (s.attach other description).code = s.code + other.code * 128 := by
  simp only [attach]
  split
  · rfl
  · rename_i h
    have hcode : other.code = 0 := by
      simp only [isOk, Bool.or_eq_true, Bool.not_eq_true', beq_eq_false_iff_ne, not_or,
        Decidable.not_not, ne_eq] at h
      exact h.1
    simp [hcode]

@[simp] theorem attachRaw_code (s : Status) (code : BitVec 32) (msg : String) :
    (s.attachRaw code msg).code = s.code + code * 128 := rfl

end Status

end Lucidac
