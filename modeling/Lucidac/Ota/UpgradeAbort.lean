import Lucidac.Ota.Upgrade

/-!
# Aborting an upgrade

Chunks are written into the buffer only, and the buffer was erased when it was found.  Erasing it
again restores the whole flash.
-/

namespace Lucidac.Ota

open Framework NorMemory

variable {env : Environment}

def Session.run (env : Environment) (s : Session) (messages : List Message) : Option Session :=
  messages.foldlM (Session.step env) s

/-- An upgrade runs in the buffer found in the given flash, and nothing else was written. -/
structure WithinBuffer (mem : Memory) (f : Flasher) (upgrade : FirmwareBuffer) : Prop where
  running : f.upgrade = some upgrade
  addr : upgrade.bufferAddr = (firmwareBufferInit mem).1
  size : upgrade.bufferSize = (firmwareBufferInit mem).2
  fits : upgrade.imagelen ≤ upgrade.bufferSize
  frame : ∀ a, a < upgrade.bufferAddr ∨ flashLimit ≤ a → f.mem a = mem a

variable (env) in
theorem WithinBuffer.stream {mem : Memory} {f : Flasher} {upgrade : FirmwareBuffer}
    (h : WithinBuffer mem f upgrade) (msgIn : Json) :
    ∃ code msgOut after upgrade', f.stream env msgIn = .answered code msgOut after ∧
      WithinBuffer mem after upgrade' := by
  by_cases haccepted : ∃ upgrade', Acceptable env f upgrade' msgIn
  · obtain ⟨upgrade', haccepted⟩ := haccepted
    have hsame : upgrade' = upgrade := by
      have hrunning := haccepted.running
      rw [h.running, Option.some.injEq] at hrunning
      exact hrunning.symm
    subst hsame
    have htop := (freeBuffer_firmwareBufferInit mem).top
    rw [← h.addr, ← h.size] at htop
    have hwithin := haccepted.within
    have hfits := h.fits
    refine ⟨0, [], _, _, stream_of_acceptable haccepted, rfl, h.addr, h.size, h.fits, ?_⟩
    intro a ha
    change f.mem.program _ _ a = mem a
    rw [program_outside _ (by simp only at ha; omega)]
    exact h.frame a ha
  · obtain ⟨code, msgOut, -, hstream⟩ := stream_of_not_acceptable (not_exists.mp haccepted)
    exact ⟨code, msgOut, f, upgrade, hstream, h⟩

variable (env) in
theorem WithinBuffer.run_streams {mem : Memory} {s : Session} {upgrade : FirmwareBuffer}
    (h : WithinBuffer mem s.flasher upgrade) (streams : List Json) :
    ∃ s' upgrade', s.run env (streams.map .stream) = some s' ∧
      WithinBuffer mem s'.flasher upgrade' := by
  induction streams generalizing s upgrade with
  | nil => exact ⟨s, upgrade, rfl, h⟩
  | cons msgIn streams ih =>
    obtain ⟨code, msgOut, after, upgrade', hstream, hafter⟩ := h.stream env msgIn
    obtain ⟨s', upgrade'', hrun, hs'⟩ :=
      ih (s := ⟨after, (Message.stream msgIn).receive env s.received code⟩) hafter
    refine ⟨s', upgrade'', ?_, hs'⟩
    rw [List.map_cons, Session.run, List.foldlM_cons, step_of_answered s (.stream msgIn) hstream]
    exact hrun

/-- The buffer is erased and everything else untouched, as before the upgrade. -/
theorem WithinBuffer.firmwareBufferFree_eq {mem : Memory} {f : Flasher} {upgrade : FirmwareBuffer}
    (h : WithinBuffer mem f upgrade) :
    firmwareBufferFree f.mem upgrade.bufferAddr upgrade.bufferSize = mem := by
  have hfree := freeBuffer_firmwareBufferInit mem
  rw [← h.addr, ← h.size] at hfree
  have hsize : upgrade.bufferSize % flashSectorSize = 0 := by
    have htop := hfree.top
    have haligned := hfree.aligned
    simp only [flashLimit, flashBaseAddr, flashSize, flashReserve, flashSectorSize] at *
    omega
  rw [firmwareBufferFree, flashEraseBlock_eq f.mem hfree.aligned hsize, hfree.top]
  funext a
  split
  · rename_i ha
    exact (hfree.erased a ha.1 ha.2).symm
  · exact h.frame a (by omega)

theorem abort_restores_flash (env : Environment) (mem : Memory) (msgIn : Json)
    (msgOut : List (String × Json)) (started : Flasher)
    (hinit : Flasher.init env msgIn ⟨mem, none⟩ = .answered 0 msgOut started)
    (streams : List Json) :
    ∃ s, Session.run env ⟨started, []⟩ (streams.map .stream ++ [.abort]) = some s ∧
      s.flasher = ⟨mem, none⟩ ∧ firmwareBufferInit s.flasher.mem = firmwareBufferInit mem := by
  have hbuffer : WithinBuffer mem started (Flasher.announced env msgIn mem) := by
    obtain ⟨hstarted, hfits⟩ := init_accepted hinit
    rw [hstarted]
    exact ⟨rfl, rfl, rfl, hfits, fun a _ => rfl⟩
  obtain ⟨s, upgrade, hrun, hs⟩ := hbuffer.run_streams env (s := ⟨started, []⟩) streams
  refine ⟨⟨⟨mem, none⟩, s.received⟩, ?_, rfl, rfl⟩
  rw [Session.run, List.foldlM_append, ← Session.run, hrun]
  change (s.step env .abort >>= fun s' => some s') = _
  rw [step_of_answered s .abort (abort_of_running hs.running), hs.firmwareBufferFree_eq]
  rfl

/-! ### A program of one sector -/

/-- The first sector holds a program, and everything else is erased. -/
def oneSectorProgram : Memory := fun a =>
  if a < flashBaseAddr + flashSectorSize then 0 else BitVec.allOnes 8

theorem firmwareBufferInit_oneSectorProgram :
    (firmwareBufferInit oneSectorProgram).1 = flashBaseAddr + flashSectorSize := by
  apply firmwareBufferInit_of_program
  · decide
  · decide
  · decide
  · decide
  · intro a ha _
    rw [oneSectorProgram, if_neg (Nat.not_lt.mpr ha)]

theorem size_oneSectorProgram : flashSectorSize ≤ (firmwareBufferInit oneSectorProgram).2 := by
  rw [(freeBuffer_firmwareBufferInit oneSectorProgram).size_eq, firmwareBufferInit_oneSectorProgram]
  decide

/-- Announcing an image of up to one sector behind that program. -/
theorem init_oneSectorProgram (env : Environment) {n : Nat} (hn : n ≤ flashSectorSize) :
    ∃ msgOut, Flasher.init env (.object [("imagelen", .integer n)]) ⟨oneSectorProgram, none⟩ =
      .answered 0 msgOut ⟨oneSectorProgram, some
        (Flasher.announced env (.object [("imagelen", .integer n)]) oneSectorProgram)⟩ := by
  apply init_of_fits (f := ⟨oneSectorProgram, none⟩) rfl
  have hlength : Flasher.requestedLength env (.object [("imagelen", .integer n)]) = n :=
    Json.asUnsigned_integer _ (Nat.lt_of_le_of_lt hn (by decide))
  rw [hlength]
  exact hn.trans size_oneSectorProgram

theorem abort_restores_oneSectorProgram :
    let env : Environment := ⟨⟨fun _ => 0, fun _ => "null"⟩, fun _ => Vector.replicate 32 0, fun _ => 0⟩
    ∃ msgOut started, Flasher.init env (.object [("imagelen", .integer 8)])
        ⟨oneSectorProgram, none⟩ = .answered 0 msgOut started ∧
      ∃ s, Session.run env ⟨started, []⟩
          [.stream (.object [("payload", .string "AAAAAA==")]), .abort] = some s ∧
        s.flasher.mem = oneSectorProgram := by
  intro env
  obtain ⟨msgOut, hinit⟩ := init_oneSectorProgram env (by decide : 8 ≤ flashSectorSize)
  obtain ⟨s, hrun, hflasher, -⟩ := abort_restores_flash env oneSectorProgram _ msgOut _ hinit
    [.object [("payload", .string "AAAAAA==")]]
  exact ⟨msgOut, _, hinit, s, hrun, congrArg Flasher.mem hflasher⟩

end Lucidac.Ota
