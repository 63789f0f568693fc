import Lucidac.Framework.Lines
import Lucidac.Framework.TextBuffer
import Mathlib.Data.List.TakeWhile

/-!
# Lines from the serial console

Each call takes at most one byte.  A line is collected in a buffer of fixed size and returned as the
address of this buffer; a line that does not fit is cut and returned in pieces.
-/

namespace Lucidac

open Framework Framework.Lines

def newline : UInt8 := 10

/-- Behind the longest line there is room for the byte that ends a string. -/
def serialBufferSize : Nat := 4096

structure SerialLineReader where
  serialBuffer : Fin serialBufferSize → UInt8
  serialBufferPos : Nat
  echo : Bool

/-- What a call leaves behind. -/
structure LineAvailable where
  /-- Whether the address of the buffer was returned, and not `NULL`. -/
  line : Bool
  printed : List UInt8
  reader : SerialLineReader

namespace SerialLineReader

/-- `line_available` when this byte can be read; `none` is an access outside of the buffer. -/
def lineAvailable (r : SerialLineReader) : Option UInt8 → Option LineAvailable
  | none => some ⟨false, [], r⟩
  | some c => do
    let printed := if r.echo then [c] else []
    if c = newline then
      let serialBuffer ← writeCell r.serialBuffer r.serialBufferPos 0
      return ⟨true, printed, { r with serialBuffer, serialBufferPos := 0 }⟩
    else if r.serialBufferPos < serialBufferSize - 1 then
      let serialBuffer ← writeCell r.serialBuffer r.serialBufferPos c
      return ⟨false, printed, { r with serialBuffer, serialBufferPos := r.serialBufferPos + 1 }⟩
    else
      -- the last two bytes are given up for the end of the string
      let serialBuffer ← writeCell r.serialBuffer (r.serialBufferPos - 2) newline
      let serialBuffer ← writeCell serialBuffer (r.serialBufferPos - 1) 0
      return ⟨true, printed, { r with serialBuffer, serialBufferPos := 0 }⟩

/-- A call, and what the caller does to the buffer when it gets a line in it. -/
structure Call where
  incoming : Option UInt8
  use : (Fin serialBufferSize → UInt8) → Fin serialBufferSize → UInt8

/-- The bytes that are delivered in the calls. -/
def stream (calls : List Call) : List UInt8 := calls.filterMap Call.incoming

structure Session where
  /-- The strings that are found behind the returned addresses. -/
  returned : List (List UInt8)
  printed : List UInt8
  reader : SerialLineReader

def step (r : SerialLineReader) (call : Call) : Option Session := do
  let result ← r.lineAvailable call.incoming
  if result.line then
    let text ← readUntil 0 result.reader.serialBuffer 0
    return ⟨[text], result.printed,
      { result.reader with serialBuffer := call.use result.reader.serialBuffer }⟩
  else return ⟨[], result.printed, result.reader⟩

def run (r : SerialLineReader) : List Call → Option Session
  | [] => some ⟨[], [], r⟩
  | call :: calls => do
    let first ← r.step call
    let rest ← first.reader.run calls
    return ⟨first.returned ++ rest.returned, first.printed ++ rest.printed, rest.reader⟩

/-! ### The lines without the buffer -/

/-- The lines that a byte completes when `pending` is collected, and what is collected then. -/
def assemble (pending : List UInt8) (c : UInt8) : List (List UInt8) × List UInt8 :=
  if c = newline then ([pending], [])
  else if pending.length < 4095 then ([], pending ++ [c])
  else ([pending.take 4093 ++ [newline]], [])

def assembleAll (pending : List UInt8) : List UInt8 → List (List UInt8) × List UInt8
  | [] => ([], pending)
  | c :: cs =>
    ((assemble pending c).1 ++ (assembleAll (assemble pending c).2 cs).1,
      (assembleAll (assemble pending c).2 cs).2)

/-- The reader has collected this text. -/
structure Holds (r : SerialLineReader) (pending : List UInt8) : Prop where
  pos : r.serialBufferPos = pending.length
  fits : pending.length < 4096
  starts : Starts r.serialBuffer pending

/-- The string in front of the first NUL byte. -/
def cString (text : List UInt8) : List UInt8 := text.takeWhile (· ≠ 0)

variable {r : SerialLineReader} {pending : List UInt8}

theorem holds_nil (serialBuffer : Fin serialBufferSize → UInt8) (echo : Bool) :
    Holds ⟨serialBuffer, 0, echo⟩ [] :=
  ⟨rfl, by decide, .nil _⟩

theorem lineAvailable_newline (h : r.Holds pending) :
    ∃ serialBuffer, r.lineAvailable (some newline) = some ⟨true, if r.echo then [newline] else [],
        { r with serialBuffer, serialBufferPos := 0 }⟩ ∧
      readUntil 0 serialBuffer 0 = some (cString pending) := by
  have hpos : r.serialBufferPos < serialBufferSize := h.pos ▸ h.fits
  refine ⟨Function.update r.serialBuffer ⟨r.serialBufferPos, hpos⟩ 0, ?_,
    h.starts.terminate 0 h.pos⟩
  rw [lineAvailable, if_pos rfl, writeCell_of_lt _ _ hpos]
  rfl

theorem lineAvailable_room (h : r.Holds pending) {c : UInt8} (hc : c ≠ newline)
    (hroom : pending.length < 4095) :
    ∃ serialBuffer, r.lineAvailable (some c) = some ⟨false, if r.echo then [c] else [],
        { r with serialBuffer, serialBufferPos := r.serialBufferPos + 1 }⟩ ∧
      Starts serialBuffer (pending ++ [c]) := by
  have hpos : r.serialBufferPos < serialBufferSize := h.pos ▸ h.fits
  have hlt : r.serialBufferPos < serialBufferSize - 1 := h.pos ▸ hroom
  refine ⟨Function.update r.serialBuffer ⟨r.serialBufferPos, hpos⟩ c, ?_, h.starts.push h.pos c⟩
  rw [lineAvailable, if_neg hc, if_pos hlt, writeCell_of_lt _ _ hpos]
  rfl

theorem lineAvailable_full (h : r.Holds pending) {c : UInt8} (hc : c ≠ newline)
    (hfull : ¬ pending.length < 4095) :
    ∃ serialBuffer, r.lineAvailable (some c) = some ⟨true, if r.echo then [c] else [],
        { r with serialBuffer, serialBufferPos := 0 }⟩ ∧
      readUntil 0 serialBuffer 0 = some (cString (pending.take 4093 ++ [newline])) := by
  have hlength : pending.length = 4095 := by
    have hfits := h.fits
    omega
  have hpos : r.serialBufferPos = 4095 := h.pos.trans hlength
  have hcut : (pending.take 4093).length = 4093 := by
    rw [List.length_take, hlength]
    rfl
  have hpatched := (h.starts.take 4093).push (i := ⟨4093, by decide⟩) hcut.symm newline
  have hterminated := hpatched.terminate 0 (i := ⟨4094, by decide⟩)
    (by rw [List.length_append, hcut]; rfl)
  refine ⟨_, ?_, hterminated⟩
  rw [lineAvailable, if_neg hc, if_neg (by rw [hpos]; decide), hpos,
    writeCell_of_lt _ _ (show 4095 - 2 < serialBufferSize by decide), Option.bind_eq_bind,
    Option.bind_some, writeCell_of_lt _ _ (show 4095 - 1 < serialBufferSize by decide)]
  rfl

/-! ### Calls one after the other -/

/-- What a part of a session has to do, compared with the lines without the buffer. -/
structure Assembles (r : SerialLineReader) (cs : List UInt8)
    (assembled : List (List UInt8) × List UInt8) (session : Session) : Prop where
  returned : session.returned = assembled.1.map cString
  printed : session.printed = if r.echo then cs else []
  echo : session.reader.echo = r.echo
  holds : session.reader.Holds assembled.2

theorem step_of_line {call : Call} {result : LineAvailable} {text : List UInt8}
    (hcall : r.lineAvailable call.incoming = some result) (hline : result.line = true)
    (hread : readUntil 0 result.reader.serialBuffer 0 = some text) :
    r.step call = some ⟨[text], result.printed,
      { result.reader with serialBuffer := call.use result.reader.serialBuffer }⟩ := by
  rw [step, hcall, Option.bind_eq_bind, Option.bind_some, if_pos hline, hread]
  rfl

theorem step_of_no_line {call : Call} {result : LineAvailable}
    (hcall : r.lineAvailable call.incoming = some result) (hline : result.line = false) :
    r.step call = some ⟨[], result.printed, result.reader⟩ := by
  rw [step, hcall, Option.bind_eq_bind, Option.bind_some, if_neg (ne_true_of_eq_false hline)]
  rfl

theorem assembles_step (h : r.Holds pending) (call : Call) {c : UInt8}
    (hc : call.incoming = some c) :
    ∃ session, r.step call = some session ∧ Assembles r [c] (assemble pending c) session := by
  by_cases hnl : c = newline
  · obtain ⟨serialBuffer, hcall, hread⟩ := lineAvailable_newline h
    rw [← hnl, ← hc] at hcall
    refine ⟨_, step_of_line hcall rfl hread, ?_⟩
    rw [assemble, if_pos hnl]
    exact ⟨rfl, rfl, rfl, holds_nil _ _⟩
  · by_cases hroom : pending.length < 4095
    · obtain ⟨serialBuffer, hcall, hstarts⟩ := lineAvailable_room h hnl hroom
      rw [← hc] at hcall
      refine ⟨_, step_of_no_line hcall rfl, ?_⟩
      rw [assemble, if_neg hnl, if_pos hroom]
      have hlength : (pending ++ [c]).length = pending.length + 1 := List.length_append
      refine ⟨rfl, rfl, rfl, ?_, ?_, hstarts⟩
      · rw [hlength]
        exact congrArg (· + 1) h.pos
      · dsimp only
        omega
    · obtain ⟨serialBuffer, hcall, hread⟩ := lineAvailable_full h hnl hroom
      rw [← hc] at hcall
      refine ⟨_, step_of_line hcall rfl hread, ?_⟩
      rw [assemble, if_neg hnl, if_neg hroom]
      exact ⟨rfl, rfl, rfl, holds_nil _ _⟩

/-- Every session stays inside the buffer, and returns the lines as they are assembled, each up to
its first NUL byte. -/
theorem assembles_run (h : r.Holds pending) (calls : List Call) :
    ∃ session, r.run calls = some session ∧
      Assembles r (stream calls) (assembleAll pending (stream calls)) session := by
  induction calls generalizing r pending with
  | nil => exact ⟨⟨[], [], r⟩, rfl, rfl, by simp [stream], rfl, h⟩
  | cons call calls ih =>
    cases hc : call.incoming with
    | none =>
      have hstep : r.step call = some ⟨[], [], r⟩ := by
        rw [step, hc]
        rfl
      have hstream : stream (call :: calls) = stream calls := List.filterMap_cons_none hc
      obtain ⟨rest, hrest, hassembles⟩ := ih h
      refine ⟨rest, ?_, hstream ▸ hassembles⟩
      rw [run, hstep, Option.bind_eq_bind, Option.bind_some, hrest]
      rfl
    | some c =>
      obtain ⟨first, hfirst, hone⟩ := assembles_step h call hc
      obtain ⟨rest, hrest, hall⟩ := ih hone.holds
      have hstream : stream (call :: calls) = c :: stream calls := List.filterMap_cons_some hc
      refine ⟨⟨first.returned ++ rest.returned, first.printed ++ rest.printed, rest.reader⟩, ?_, ?_⟩
      · rw [run, hfirst, Option.bind_eq_bind, Option.bind_some, hrest]
        rfl
      · rw [hstream, assembleAll]
        refine ⟨?_, ?_, hall.echo.trans hone.echo, hall.holds⟩
        · rw [hone.returned, hall.returned, List.map_append]
        · rw [hone.printed, hall.printed, hone.echo]
          cases r.echo <;> rfl

/-! ### Lines that fit -/

/-- The assembled lines are the lines of the stream if none of them is too long. -/
theorem assembleAll_eq {cs : List UInt8} (hpending : ∀ c ∈ pending, (c == newline) = false)
    (hfits : ∀ line ∈ (pending ++ cs).splitOn newline, line.length ≤ 4095) :
    (assembleAll pending cs).1 = completeLines (· == newline) (pending ++ cs) := by
  induction cs generalizing pending with
  | nil =>
    rw [List.append_nil, completeLines_of_none hpending]
    rfl
  | cons c cs ih =>
    by_cases hc : c = newline
    · subst hc
      have hrest : ∀ line ∈ ([] ++ cs).splitOn newline, line.length ≤ 4095 := by
        intro line hline
        apply hfits line
        rw [List.splitOn, List.splitOnP_append_cons_of_forall_mem hpending newline rfl]
        exact List.mem_cons_of_mem pending hline
      rw [assembleAll, assemble, if_pos rfl, completeLines_cons hpending rfl, ih (by simp) hrest]
      rfl
    · have hlonger : ∀ d ∈ pending ++ [c], (d == newline) = false := by
        rw [List.forall_mem_append, List.forall_mem_singleton]
        exact ⟨hpending, beq_false_of_ne hc⟩
      rw [List.append_cons] at hfits ⊢
      obtain ⟨line, hline, hprefix⟩ := exists_prefix_mem_splitOnP hlonger cs
      have hroom : pending.length < 4095 := by
        have hle : (pending ++ [c]).length ≤ 4095 :=
          Nat.le_trans hprefix.length_le (hfits line hline)
        rwa [List.length_append] at hle
      rw [assembleAll, assemble, if_neg hc, if_pos hroom]
      exact ih hlonger hfits

theorem cString_eq_self {text : List UInt8} (h : 0 ∉ text) : cString text = text := by
  rw [cString, List.takeWhile_eq_self_iff]
  intro c hc
  exact decide_eq_true fun hzero => h (hzero ▸ hc)

end SerialLineReader

open SerialLineReader in
/-- In any calls, and whatever is done with the returned lines, the reader does not leave its buffer
and returns each line of the stream once it is finished, if the lines fit. -/
theorem lineAvailable_lines (serialBuffer : Fin serialBufferSize → UInt8) (echo : Bool)
    (calls : List Call) :
    ∃ session, SerialLineReader.run ⟨serialBuffer, 0, echo⟩ calls = some session ∧
      session.reader.serialBufferPos ≤ 4095 ∧
      ((∀ line ∈ (stream calls).splitOn newline, line.length ≤ 4095 ∧ 0 ∉ line) →
        session.returned = completeLines (· == newline) (stream calls)) := by
  obtain ⟨session, hrun, hassembles⟩ := assembles_run (holds_nil serialBuffer echo) calls
  refine ⟨session, hrun, ?_, fun hlines => ?_⟩
  · rw [hassembles.holds.pos]
    exact Nat.le_of_lt_succ hassembles.holds.fits
  · have hassembled : (assembleAll [] (stream calls)).1 =
        completeLines (· == newline) (stream calls) :=
      assembleAll_eq (by simp) fun line hline => (hlines line hline).1
    have hstrings : ∀ line ∈ completeLines (· == newline) (stream calls), cString line = line :=
      fun line hline => cString_eq_self (hlines line (mem_splitOnP_of_mem_completeLines hline)).2
    rw [hassembles.returned, hassembled, List.map_congr_left hstrings, List.map_id']

open SerialLineReader in
/-- A line and an empty line; what follows is not finished. -/
theorem lineAvailable_two_lines :
    ∃ session, SerialLineReader.run ⟨fun _ => 0xFF, 0, true⟩
        ([some 0x7B, none, some 0x7D, some 0x0A, some 0x0A, some 0x7B].map fun incoming =>
          ⟨incoming, fun _ _ => 0⟩) = some session ∧
      session.reader.serialBufferPos ≤ 4095 ∧ session.returned = [[0x7B, 0x7D], []] := by
  obtain ⟨session, hrun, hpos, hreturned⟩ := lineAvailable_lines (fun _ => 0xFF) true
    ([some 0x7B, none, some 0x7D, some 0x0A, some 0x0A, some 0x7B].map fun incoming =>
      ⟨incoming, fun _ _ => 0⟩)
  exact ⟨session, hrun, hpos, hreturned (by decide)⟩

end Lucidac
