import Lucidac.Ota.UpgradeAbort

/-!
# Which upgrades can be completed

A transfer is complete when exactly the announced number of bytes arrived.  Chunks come in whole
words, but any length can be announced, so an upgrade can be completed exactly if its length is a
multiple of four.
-/

namespace Lucidac.Ota

open Framework NorMemory

variable {env : Environment}

/-- The state after a sequence of stream messages, all of which are accepted. -/
def streamAll (env : Environment) : List Json → Flasher → Option Flasher
  | [], f => some f
  | msgIn :: rest, f =>
    match f.stream env msgIn with
    | .answered code _ after => if code = 0 then streamAll env rest after else none
    | _ => none

/-- Whatever was accepted so far, further chunks can be accepted until the transfer is complete. -/
def Completable (env : Environment) (f : Flasher) : Prop :=
  ∀ chunks f', streamAll env chunks f = some f' →
    ∃ more f'' upgrade, streamAll env more f' = some f'' ∧ f''.upgrade = some upgrade ∧
      upgrade.transferCompleted = true

/-! ### Accepted chunks -/

theorem streamAll_cons {f f' : Flasher} {msgIn : Json} {rest : List Json}
    (h : streamAll env (msgIn :: rest) f = some f') :
    ∃ upgrade, Acceptable env f upgrade msgIn ∧
      streamAll env rest (appended f upgrade (Flasher.decodedPayload env msgIn)) = some f' := by
  rw [streamAll] at h
  by_cases haccepted : ∃ upgrade, Acceptable env f upgrade msgIn
  · obtain ⟨upgrade, haccepted⟩ := haccepted
    rw [stream_of_acceptable haccepted] at h
    exact ⟨upgrade, haccepted, h⟩
  · obtain ⟨code, msgOut, hcode, hstream⟩ := stream_of_not_acceptable (not_exists.mp haccepted)
    rw [hstream] at h
    simp only [if_neg hcode] at h
    cases h

theorem streamAll_acceptable {f : Flasher} {upgrade : FirmwareBuffer} {msgIn : Json}
    (h : Acceptable env f upgrade msgIn) (rest : List Json) :
    streamAll env (msgIn :: rest) f =
      streamAll env rest (appended f upgrade (Flasher.decodedPayload env msgIn)) := by
  rw [streamAll, stream_of_acceptable h]
  rfl

/-- Between two states of one upgrade its length and its buffer stay the same. -/
theorem streamAll_streaming {chunks : List Json} {f f' : Flasher} {upgrade : FirmwareBuffer}
    {received : List (BitVec 8)} (hrunning : f.upgrade = some upgrade)
    (hs : Streaming f.mem upgrade received) (h : streamAll env chunks f = some f') :
    ∃ upgrade' received', f'.upgrade = some upgrade' ∧ Streaming f'.mem upgrade' received' ∧
      upgrade'.imagelen = upgrade.imagelen ∧ upgrade'.bufferAddr = upgrade.bufferAddr := by
  induction chunks generalizing f upgrade received with
  | nil =>
    rw [streamAll, Option.some.injEq] at h
    subst h
    exact ⟨upgrade, received, hrunning, hs, rfl, rfl⟩
  | cons msgIn rest ih =>
    obtain ⟨upgrade', haccepted, hrest⟩ := streamAll_cons h
    have hsame : upgrade' = upgrade := by
      have hsome := haccepted.running
      rw [hrunning, Option.some.injEq] at hsome
      exact hsome.symm
    subst hsame
    obtain ⟨last, received', hlast, hstreaming, hlength, haddr⟩ :=
      ih rfl (hs.appended haccepted.within haccepted.words) hrest
    exact ⟨last, received', hlast, hstreaming, hlength, haddr⟩

/-! ### Filling up -/

/-- A chunk of four bytes. -/
def wordChunk : Json := .object [("payload", .string "AAAAAA==")]

theorem length_wordChunk (env : Environment) :
    (Flasher.decodedPayload env wordChunk).length = 4 := by
  change (Base64.decode (Base64.bytesOf "AAAAAA==") binChunkSize).length = 4
  decide

variable (env) in
theorem acceptable_wordChunk {f : Flasher} {upgrade : FirmwareBuffer} {received : List (BitVec 8)}
    (hrunning : f.upgrade = some upgrade) (hs : Streaming f.mem upgrade received)
    (hbase : flashBaseAddr ≤ upgrade.bufferAddr)
    (hroom : upgrade.bytesTransmitted + 4 ≤ upgrade.imagelen) :
    Acceptable env f upgrade wordChunk := by
  have hchunk := length_wordChunk env
  have htop := hs.top
  have hfits := hs.fits
  have haligned := hs.aligned
  have hwords := hs.words
  constructor
  · exact hrunning
  · omega
  · change (Base64.bytesOf "AAAAAA==").length ≠ 0
    decide
  · change (Base64.bytesOf "AAAAAA==").length % 4 = 0
    decide
  · rw [hchunk]
    decide
  · rw [hchunk]
    exact hroom
  · rw [hchunk]
  · simp only [inFlash, Bool.and_eq_true, decide_eq_true_eq]
    simp only [flashLimit, flashBaseAddr, flashSize, flashReserve, flashSectorSize] at *
    omega
  · rw [flashSectorSize] at haligned
    omega

/-- Words fill up an image whose length is a multiple of four. -/
theorem exists_completion {f : Flasher} {upgrade : FirmwareBuffer} {received : List (BitVec 8)}
    (hrunning : f.upgrade = some upgrade) (hs : Streaming f.mem upgrade received)
    (hlength : upgrade.imagelen % 4 = 0)
    (hbase : upgrade.imagelen = 0 ∨ flashBaseAddr ≤ upgrade.bufferAddr) :
    ∃ more f' upgrade', streamAll env more f = some f' ∧ f'.upgrade = some upgrade' ∧
      upgrade'.transferCompleted = true := by
  have htransmitted := hs.transmitted
  have hwords := hs.words
  -- the induction is on the number of words that are still missing
  induction hn : (upgrade.imagelen - upgrade.bytesTransmitted) / 4 generalizing f upgrade received with
  | zero =>
    refine ⟨[], f, upgrade, rfl, hrunning, ?_⟩
    rw [FirmwareBuffer.transferCompleted, beq_iff_eq]
    omega
  | succ n ih =>
    have hflash := hbase.resolve_left (by omega)
    have haccepted := acceptable_wordChunk env hrunning hs hflash (by omega)
    have hnext := hs.appended haccepted.within haccepted.words
    have hmissing : (upgrade.imagelen - (upgrade.bytesTransmitted +
        (Flasher.decodedPayload env wordChunk).length)) / 4 = n := by
      rw [length_wordChunk env]
      omega
    obtain ⟨more, f', upgrade', hmore, hupgrade', hcomplete⟩ :=
      ih (f := appended f upgrade (Flasher.decodedPayload env wordChunk)) rfl hnext hlength hbase
        hnext.transmitted hnext.words hmissing
    refine ⟨wordChunk :: more, f', upgrade', ?_, hupgrade', hcomplete⟩
    rw [streamAll_acceptable haccepted]
    exact hmore

/-! ### What can be completed -/

theorem streaming_of_init {mem : Memory} {msgIn : Json} {msgOut : List (String × Json)}
    {f : Flasher} (hinit : Flasher.init env msgIn ⟨mem, none⟩ = .answered 0 msgOut f) :
    f.upgrade = some (Flasher.announced env msgIn mem) ∧
      Streaming f.mem (Flasher.announced env msgIn mem) [] := by
  obtain ⟨hf, hfits⟩ := init_accepted hinit
  rw [hf]
  exact ⟨rfl, streaming_announced mem msgIn hfits⟩

/-- Chunks of words never add up to another length. -/
theorem imagelen_mod_of_completed {chunks : List Json} {f f' : Flasher}
    {upgrade upgrade' : FirmwareBuffer} {received : List (BitVec 8)}
    (hrunning : f.upgrade = some upgrade) (hs : Streaming f.mem upgrade received)
    (h : streamAll env chunks f = some f') (hupgrade' : f'.upgrade = some upgrade')
    (hcomplete : upgrade'.transferCompleted = true) : upgrade.imagelen % 4 = 0 := by
  obtain ⟨last, received', hlast, hstreaming, hlength, -⟩ := streamAll_streaming hrunning hs h
  rw [hupgrade', Option.some.injEq] at hlast
  subst hlast
  rw [FirmwareBuffer.transferCompleted, beq_iff_eq, hlength] at hcomplete
  rw [hcomplete]
  exact hstreaming.words

theorem completable_iff (env : Environment) (mem : Memory) (msgIn : Json)
    (msgOut : List (String × Json)) (started : Flasher)
    (hinit : Flasher.init env msgIn ⟨mem, none⟩ = .answered 0 msgOut started) :
    Completable env started ↔
      Flasher.requestedLength env msgIn % 4 = 0 ∧
        (Flasher.requestedLength env msgIn = 0 ∨ inFlash (firmwareBufferInit mem).1 = true) := by
  obtain ⟨hrunning, hs⟩ := streaming_of_init hinit
  constructor
  · intro h
    obtain ⟨more, f, upgrade, hmore, hupgrade, hcomplete⟩ := h [] started rfl
    refine ⟨imagelen_mod_of_completed hrunning hs hmore hupgrade hcomplete, ?_⟩
    cases more with
    | nil =>
      -- nothing was sent, so nothing was announced
      left
      rw [streamAll, Option.some.injEq] at hmore
      subst hmore
      rw [hrunning, Option.some.injEq] at hupgrade
      subst hupgrade
      rw [FirmwareBuffer.transferCompleted, beq_iff_eq] at hcomplete
      exact hcomplete
    | cons msgIn' rest =>
      right
      obtain ⟨upgrade', haccepted, -⟩ := streamAll_cons hmore
      have hsame := haccepted.running
      rw [hrunning, Option.some.injEq] at hsame
      subst hsame
      exact haccepted.inFlash
  · rintro ⟨hlength, hflash⟩ chunks f hchunks
    obtain ⟨upgrade, received, hupgrade, hstreaming, hsamelength, hsameaddr⟩ :=
      streamAll_streaming hrunning hs hchunks
    apply exists_completion hupgrade hstreaming
    · rw [hsamelength]
      exact hlength
    · rw [hsamelength, hsameaddr]
      apply hflash.imp id
      intro h
      rw [inFlash, Bool.and_eq_true, decide_eq_true_eq] at h
      exact h.1

/-- Five bytes are announced, and four or eight can be sent. -/
theorem five_bytes_not_completable :
    let env : Environment := ⟨⟨fun _ => 0, fun _ => "null"⟩, fun _ => Vector.replicate 32 0, fun _ => 0⟩
    ∃ msgOut started, Flasher.init env (.object [("imagelen", .integer 5)])
        ⟨oneSectorProgram, none⟩ = .answered 0 msgOut started ∧ ¬ Completable env started := by
  intro env
  obtain ⟨msgOut, hinit⟩ := init_oneSectorProgram env (by decide : 5 ≤ flashSectorSize)
  refine ⟨msgOut, _, hinit, ?_⟩
  intro h
  obtain ⟨hrunning, hs⟩ := streaming_of_init hinit
  obtain ⟨more, f, upgrade, hmore, hupgrade, hcomplete⟩ := h [] _ rfl
  have hmod := imagelen_mod_of_completed hrunning hs hmore hupgrade hcomplete
  have hlength : Flasher.requestedLength env (.object [("imagelen", .integer 5)]) = 5 :=
    Json.asUnsigned_integer _ (by decide : 5 < 2^32)
  change Flasher.requestedLength env (.object [("imagelen", .integer 5)]) % 4 = 0 at hmod
  rw [hlength] at hmod
  exact absurd hmod (by decide)

theorem eight_bytes_completable :
    let env : Environment := ⟨⟨fun _ => 0, fun _ => "null"⟩, fun _ => Vector.replicate 32 0, fun _ => 0⟩
    ∃ msgOut started, Flasher.init env (.object [("imagelen", .integer 8)])
        ⟨oneSectorProgram, none⟩ = .answered 0 msgOut started ∧ Completable env started := by
  intro env
  obtain ⟨msgOut, hinit⟩ := init_oneSectorProgram env (by decide : 8 ≤ flashSectorSize)
  have hlength : Flasher.requestedLength env (.object [("imagelen", .integer 8)]) = 8 :=
    Json.asUnsigned_integer _ (by decide : 8 < 2^32)
  refine ⟨msgOut, _, hinit, (completable_iff env oneSectorProgram _ msgOut _ hinit).mpr ⟨?_, ?_⟩⟩
  · change Flasher.requestedLength env (.object [("imagelen", .integer 8)]) % 4 = 0
    rw [hlength]
  · rw [firmwareBufferInit_oneSectorProgram]
    exact Or.inr (by decide)

end Lucidac.Ota
