import Lucidac.Protocol.StreamLogger

/-!
# The ring buffer of the startup log

A push removes at most one element, and only from a buffer that already holds more than its maximum.
So a full buffer grows by one element beyond the maximum, and never shrinks again while it is used.
-/

namespace Lucidac.Protocol

namespace RingBuffer

variable {α : Type}

def new (maxSize : Nat) : RingBuffer α := ⟨[], maxSize⟩

def clear (b : RingBuffer α) : RingBuffer α := { b with data := [] }

/-- What is done to a buffer; the maximum is a public field. -/
inductive Operation (α : Type) where
  | pushBack (item : α)
  | clear
  | setMaxSize (maxSize : Nat)

def apply (b : RingBuffer α) : Operation α → RingBuffer α
  | .pushBack item => b.pushBack item
  | .clear => b.clear
  | .setMaxSize maxSize => { b with maxSize }

def run (b : RingBuffer α) (ops : List (Operation α)) : RingBuffer α := ops.foldl apply b

/-! ### What the buffer is for -/

def Operation.history (pushed : List α) : Operation α → List α
  | .pushBack item => pushed ++ [item]
  | .clear => []
  | .setMaxSize _ => pushed

/-- What was pushed since the last time the buffer was cleared. -/
def history (ops : List (Operation α)) : List α := ops.foldl Operation.history []

/-- A push into a buffer that is within its maximum leaves it within its maximum. -/
def KeepsBound (b : RingBuffer α) (ops : List (Operation α)) : Prop :=
  ∀ before item after, ops = before ++ .pushBack item :: after →
    (b.run before).data.length ≤ (b.run before).maxSize →
      ((b.run before).pushBack item).data.length ≤ (b.run before).maxSize

/-- At any time the buffer holds the latest elements, in order. -/
def HoldsRecent (b : RingBuffer α) (ops : List (Operation α)) : Prop :=
  ∀ before after, ops = before ++ after → (b.run before).data <:+ history before

/-- No push finds the buffer holding exactly its maximum. -/
def NeverPushedWhenFull (b : RingBuffer α) (ops : List (Operation α)) : Prop :=
  ∀ before item after, ops = before ++ .pushBack item :: after →
    (b.run before).data.length ≠ (b.run before).maxSize

/-! ### One push -/

section Push

variable (b : RingBuffer α) (item : α)

theorem length_pushBack : (b.pushBack item).data.length =
    if b.maxSize < b.data.length then b.data.length else b.data.length + 1 := by
  rw [pushBack, List.length_append, List.length_singleton]
  split
  · rw [List.length_tail]
    omega
  · rfl

theorem length_pushBack_le_iff (h : b.data.length ≤ b.maxSize) :
    (b.pushBack item).data.length ≤ b.maxSize ↔ b.data.length ≠ b.maxSize := by
  rw [length_pushBack, if_neg (Nat.not_lt.mpr h)]
  omega

/-- The bound that the buffer does keep. -/
theorem length_pushBack_le (h : b.data.length ≤ b.maxSize + 1) :
    (b.pushBack item).data.length ≤ b.maxSize + 1 := by
  rw [length_pushBack]
  split <;> omega

theorem pushBack_suffix {pushed : List α} (h : b.data <:+ pushed) :
    (b.pushBack item).data <:+ pushed ++ [item] := by
  have hkept : (if b.maxSize < b.data.length then b.data.tail else b.data) <:+ pushed := by
    split
    · exact (List.tail_suffix b.data).trans h
    · exact h
  exact List.suffix_append_self_iff.mpr hkept

end Push

/-! ### Runs -/

section Runs

variable (b : RingBuffer α)

theorem run_append (ops ops' : List (Operation α)) : b.run (ops ++ ops') = (b.run ops).run ops' :=
  List.foldl_append

theorem history_concat (ops : List (Operation α)) (op : Operation α) :
    history (ops ++ [op]) = op.history (history ops) := List.foldl_concat ..

theorem run_concat (ops : List (Operation α)) (op : Operation α) :
    b.run (ops ++ [op]) = (b.run ops).apply op := List.foldl_concat ..

theorem apply_suffix {pushed : List α} (h : b.data <:+ pushed) (op : Operation α) :
    (b.apply op).data <:+ op.history pushed := by
  cases op with
  | pushBack item => exact b.pushBack_suffix item h
  | clear => exact List.suffix_refl []
  | setMaxSize maxSize => exact h

theorem run_suffix (maxSize : Nat) (ops : List (Operation α)) :
    ((new maxSize).run ops).data <:+ history ops := by
  induction ops using List.reverseRecOn with
  | nil => exact List.suffix_refl []
  | append_singleton ops op ih =>
    rw [run_concat, history_concat]
    exact apply_suffix _ ih op

theorem holdsRecent (maxSize : Nat) (ops : List (Operation α)) : (new maxSize).HoldsRecent ops :=
  fun before _ _ => run_suffix maxSize before

theorem keepsBound_iff (ops : List (Operation α)) :
    b.KeepsBound ops ↔ b.NeverPushedWhenFull ops := by
  constructor
  · intro h before item after hops hfull
    have hle := h before item after hops (Nat.le_of_eq hfull)
    exact (length_pushBack_le_iff _ item (Nat.le_of_eq hfull)).mp hle hfull
  · intro h before item after hops hle
    exact (length_pushBack_le_iff _ item hle).mpr (h before item after hops)

/-- Pushes alone fill a buffer up to one element beyond its maximum. -/
theorem length_run_pushBack (h : b.data.length ≤ b.maxSize + 1) (items : List α) :
    (b.run (items.map .pushBack)).data.length =
      min (b.data.length + items.length) (b.maxSize + 1) := by
  induction items generalizing b with
  | nil => exact (Nat.min_eq_left h).symm
  | cons item items ih =>
    have hrest := ih (b.pushBack item) (b.length_pushBack_le item h)
    change ((b.pushBack item).run (items.map .pushBack)).data.length = _
    have hmax : (b.pushBack item).maxSize = b.maxSize := rfl
    rw [hrest, length_pushBack, hmax, List.length_cons]
    split <;> omega

end Runs

end RingBuffer

/-! ### The startup log -/

namespace StartupLog

open RingBuffer (Operation)

def disable (s : StartupLog) : StartupLog := { s with maxSize := 0, data := [], linebuf := [] }

inductive LogOperation where
  | write (b : Char)
  | disable

def apply (s : StartupLog) : LogOperation → StartupLog
  | .write b => s.write b
  | .disable => s.disable

def run (s : StartupLog) (ops : List LogOperation) : StartupLog := ops.foldl apply s

def bufferOperation (s : StartupLog) : LogOperation → List (Operation (List Char))
  | .write b => if b = '\n' then [.pushBack s.linebuf] else []
  | .disable => [.setMaxSize 0, .clear]

def bufferOperations (s : StartupLog) : List LogOperation → List (Operation (List Char))
  | [] => []
  | op :: ops => s.bufferOperation op ++ (s.apply op).bufferOperations ops

theorem buf_apply (s : StartupLog) (op : LogOperation) :
    (s.apply op).buf = s.buf.run (s.bufferOperation op) := by
  cases op with
  | disable => rfl
  | write b =>
    simp only [apply, write, bufferOperation]
    by_cases hcr : b = '\r'
    · subst hcr
      rfl
    · rw [if_neg hcr]
      split <;> rfl

/-- Whatever is done to the log, its buffer goes through a run of its own operations. -/
theorem buf_run (s : StartupLog) (ops : List LogOperation) :
    (s.run ops).buf = s.buf.run (s.bufferOperations ops) := by
  induction ops generalizing s with
  | nil => rfl
  | cons op ops ih =>
    rw [bufferOperations, RingBuffer.run_append, ← buf_apply]
    exact ih (s.apply op)

/-! ### After it was disabled -/

section Written

variable (s : StartupLog) (bytes : List Char)

/-- Each newline pushes a line. -/
theorem bufferOperations_write : ∃ lines : List (List Char),
    s.bufferOperations (bytes.map .write) = lines.map .pushBack ∧
      lines.length = bytes.count '\n' := by
  induction bytes generalizing s with
  | nil => exact ⟨[], rfl, rfl⟩
  | cons b bytes ih =>
    obtain ⟨lines, hlines, hlength⟩ := ih (s.write b)
    have hops : s.bufferOperations ((b :: bytes).map .write) =
        s.bufferOperation (.write b) ++ lines.map .pushBack := by
      rw [← hlines]
      rfl
    by_cases hnl : b = '\n'
    · refine ⟨s.linebuf :: lines, ?_, ?_⟩
      · rw [hops, bufferOperation, if_pos hnl]
        rfl
      · rw [List.length_cons, hlength, hnl, List.count_cons_self]
    · refine ⟨lines, ?_, ?_⟩
      · rw [hops, bufferOperation, if_neg hnl]
        rfl
      · rw [hlength, List.count_cons_of_ne hnl]

/-- A disabled log keeps one line at most, and this one as soon as there was a newline. -/
theorem length_disabled :
    (s.disable.run (bytes.map .write)).data.length = min (bytes.count '\n') 1 := by
  obtain ⟨lines, hlines, hlength⟩ := s.disable.bufferOperations_write bytes
  have hbuf := s.disable.buf_run (bytes.map .write)
  have hpushed := s.disable.buf.length_run_pushBack (Nat.zero_le _) lines
  rw [hlines] at hbuf
  rw [← hbuf, hlength] at hpushed
  exact hpushed.trans (congrArg (min · 1) (Nat.zero_add _))

variable {bytes}

/-- Without a newline everything but the carriage returns stays in the unfinished line. -/
theorem linebuf_run (h : '\n' ∉ bytes) :
    (s.run (bytes.map .write)).linebuf = s.linebuf ++ bytes.filter (· ≠ '\r') := by
  induction bytes generalizing s with
  | nil => exact (List.append_nil _).symm
  | cons b bytes ih =>
    rw [List.mem_cons, not_or] at h
    have hrest : (s.run ((b :: bytes).map .write)).linebuf =
        (s.write b).linebuf ++ bytes.filter (· ≠ '\r') := ih (s.write b) h.2
    rw [hrest, write]
    by_cases hcr : b = '\r'
    · simp [hcr]
    · simp [hcr, Ne.symm h.1]

end Written

theorem data_disabled_iff (s : StartupLog) (bytes : List Char) :
    (s.disable.run (bytes.map .write)).data = [] ↔ '\n' ∉ bytes := by
  rw [← List.length_eq_zero_iff, length_disabled, ← List.count_eq_zero]
  omega

theorem disabled_iff (s : StartupLog) (bytes : List Char) :
    (s.disable.run (bytes.map .write)).data = [] ∧
      (s.disable.run (bytes.map .write)).linebuf = [] ↔ ∀ b ∈ bytes, b = '\r' := by
  rw [data_disabled_iff]
  constructor
  · rintro ⟨hnl, hlinebuf⟩ b hb
    rw [linebuf_run _ hnl, disable, List.nil_append, List.filter_eq_nil_iff] at hlinebuf
    simpa using hlinebuf b hb
  · intro h
    have hnl : '\n' ∉ bytes := fun hmem => absurd (h _ hmem) (by decide)
    refine ⟨hnl, ?_⟩
    rw [linebuf_run _ hnl, disable, List.nil_append, List.filter_eq_nil_iff]
    simpa using h

end StartupLog

/-- In any run the buffer holds the latest elements.  It stays within its maximum exactly if no push
finds it full; a disabled log, whose maximum is zero, is full when it is empty, so that it stores
the line that the next newline ends. -/
theorem ringBuffer_bounded_iff {α : Type} (maxSize : Nat) (ops : List (RingBuffer.Operation α))
    (log : StartupLog) (bytes : List Char) :
    ((RingBuffer.new maxSize).KeepsBound ops ∧ (RingBuffer.new maxSize).HoldsRecent ops ↔
      (RingBuffer.new maxSize).NeverPushedWhenFull ops) ∧
    ((log.disable.run (bytes.map .write)).data = [] ↔ '\n' ∉ bytes) ∧
    ((log.disable.run (bytes.map .write)).data = [] ∧
      (log.disable.run (bytes.map .write)).linebuf = [] ↔ ∀ b ∈ bytes, b = '\r') := by
  refine ⟨?_, log.data_disabled_iff bytes, log.disabled_iff bytes⟩
  rw [RingBuffer.keepsBound_iff]
  exact and_iff_left (RingBuffer.holdsRecent maxSize ops)

/-- The 61st line of a startup log, and a line that is written when the log is disabled. -/
theorem ringBuffer_exceeds_maxSize :
    ¬ (RingBuffer.new 60).KeepsBound
        (List.replicate 61 (RingBuffer.Operation.pushBack "x".toList)) ∧
    (StartupLog.initial.disable.run [.write 'x', .write '\n']).data = ["x".toList] := by
  refine ⟨fun h => ?_, by decide⟩
  have hle := h (List.replicate 60 (.pushBack "x".toList)) "x".toList [] rfl (by decide +kernel)
  revert hle
  decide +kernel

end Lucidac.Protocol
