import Lucidac.Ota.Flasher

/-!
# The upgrade over whole runs

A message is answered with code 0 if it took effect, and otherwise leaves the upgrade and the flash
alone.  What was streamed can be read back from the buffer.  Three messages break this, each in one
situation: an abort that succeeds, a completion without upgrade, and an image that is too large.
-/

namespace Lucidac.Ota

open Framework NorMemory

variable {env : Environment}

/-! ### Stream messages -/

/-- All that `stream` checks, in its order, up to the write into the flash. -/
structure Acceptable (env : Environment) (f : Flasher) (upgrade : FirmwareBuffer) (msgIn : Json) :
    Prop where
  running : f.upgrade = some upgrade
  pending : upgrade.imagelen ≠ upgrade.bytesTransmitted
  payload : (Base64.bytesOf (env.json.asStdString (msgIn.member "payload"))).length ≠ 0
  groups : (Base64.bytesOf (env.json.asStdString (msgIn.member "payload"))).length % 4 = 0
  decoded : (Flasher.decodedPayload env msgIn).length ≠ 0
  within : upgrade.bytesTransmitted + (Flasher.decodedPayload env msgIn).length ≤ upgrade.imagelen
  words : (Flasher.decodedPayload env msgIn).length % 4 = 0
  inFlash : inFlash (upgrade.bufferAddr + upgrade.bytesTransmitted) = true
  aligned : (upgrade.bufferAddr + upgrade.bytesTransmitted) % 4 = 0

/-- The state after an accepted chunk. -/
def appended (f : Flasher) (upgrade : FirmwareBuffer) (data : List (BitVec 8)) : Flasher :=
  ⟨f.mem.program (upgrade.bufferAddr + upgrade.bytesTransmitted) data,
    some { upgrade with bytesTransmitted := upgrade.bytesTransmitted + data.length }⟩

variable (env) in
theorem length_decodedPayload_le (msgIn : Json) :
    (Flasher.decodedPayload env msgIn).length ≤ binChunkSize :=
  Base64.length_decode_le _ _

theorem stream_of_acceptable {f : Flasher} {upgrade : FirmwareBuffer} {msgIn : Json}
    (h : Acceptable env f upgrade msgIn) :
    f.stream env msgIn = .answered 0 [] (appended f upgrade (Flasher.decodedPayload env msgIn)) := by
  have hpending : upgrade.transferCompleted ≠ true := by
    rw [FirmwareBuffer.transferCompleted, Ne, beq_iff_eq]
    exact h.pending
  have hsize := length_decodedPayload_le env msgIn
  simp only [Flasher.stream, h.running]
  rw [if_neg hpending, if_neg h.payload, if_neg (not_not.mpr h.groups), if_neg h.decoded,
    if_neg (Nat.not_lt.mpr hsize), if_neg (Nat.not_lt.mpr h.within), if_neg (not_not.mpr h.words),
    flashWriteBlock_eq f.mem h.inFlash h.aligned h.words]
  rfl

/-- Whatever else arrives is refused, and nothing is written. -/
theorem stream_of_not_acceptable {f : Flasher} {msgIn : Json}
    (h : ∀ upgrade, ¬ Acceptable env f upgrade msgIn) :
    ∃ code msgOut, code ≠ 0 ∧ f.stream env msgIn = .answered code msgOut f := by
  simp only [Flasher.stream]
  cases hrunning : f.upgrade with
  | none => exact ⟨1, _, by decide, rfl⟩
  | some upgrade =>
    simp only
    by_cases hpending : upgrade.transferCompleted = true
    · rw [if_pos hpending]
      exact ⟨2, _, by decide, rfl⟩
    rw [if_neg hpending]
    by_cases hpayload : (Base64.bytesOf (env.json.asStdString (msgIn.member "payload"))).length = 0
    · rw [if_pos hpayload]
      exact ⟨3, _, by decide, rfl⟩
    rw [if_neg hpayload]
    by_cases hgroups : (Base64.bytesOf (env.json.asStdString (msgIn.member "payload"))).length % 4 = 0
    swap
    · rw [if_pos hgroups]
      exact ⟨4, _, by decide, rfl⟩
    rw [if_neg (not_not.mpr hgroups)]
    by_cases hdecoded : (Flasher.decodedPayload env msgIn).length = 0
    · rw [if_pos hdecoded]
      exact ⟨2, _, by decide, rfl⟩
    rw [if_neg hdecoded, if_neg (Nat.not_lt.mpr (length_decodedPayload_le env msgIn))]
    by_cases hwithin :
        upgrade.bytesTransmitted + (Flasher.decodedPayload env msgIn).length ≤ upgrade.imagelen
    swap
    · rw [if_pos (Nat.not_le.mp hwithin)]
      exact ⟨7, _, by decide, rfl⟩
    rw [if_neg (Nat.not_lt.mpr hwithin)]
    by_cases hwords : (Flasher.decodedPayload env msgIn).length % 4 = 0
    swap
    · rw [if_pos hwords]
      exact ⟨8, _, by decide, rfl⟩
    rw [if_neg (not_not.mpr hwords)]
    have hwrite : ¬ (inFlash (upgrade.bufferAddr + upgrade.bytesTransmitted) = true ∧
        (upgrade.bufferAddr + upgrade.bytesTransmitted) % 4 = 0 ∧
        (Flasher.decodedPayload env msgIn).length % 4 = 0) := by
      intro hwrite
      rw [FirmwareBuffer.transferCompleted, beq_iff_eq] at hpending
      exact h upgrade ⟨hrunning, hpending, hpayload, hgroups, hdecoded, hwithin, hwords, hwrite.1,
        hwrite.2.1⟩
    obtain ⟨code, hcode, hwritten⟩ := flashWriteBlock_refused f.mem hwrite
    have hsame : (⟨f.mem, some upgrade⟩ : Flasher) = f := by rw [← hrunning]
    rw [hwritten, if_pos (ne_of_gt hcode)]
    exact ⟨50 + code, _, by omega, congrArg (returnErr _ _) hsame⟩

/-! ### The other messages -/

section Handlers

variable {f : Flasher} {upgrade : FirmwareBuffer}

theorem init_of_running (env : Environment) (msgIn : Json) (h : f.upgrade = some upgrade) :
    ∃ msgOut, f.init env msgIn = .answered 1 msgOut f := by
  simp only [Flasher.init, h]
  exact ⟨_, rfl⟩

theorem init_of_fits {msgIn : Json} (h : f.upgrade = none)
    (hfits : Flasher.requestedLength env msgIn ≤ (firmwareBufferInit f.mem).2) :
    ∃ msgOut, f.init env msgIn =
      .answered 0 msgOut ⟨f.mem, some (Flasher.announced env msgIn f.mem)⟩ := by
  have hnot : ¬ (Flasher.announced env msgIn f.mem).imagelen >
      (Flasher.announced env msgIn f.mem).bufferSize := Nat.not_lt.mpr hfits
  simp only [Flasher.init, h]
  rw [if_neg hnot]
  exact ⟨_, rfl⟩

theorem init_of_large {msgIn : Json} (h : f.upgrade = none)
    (hlarge : (firmwareBufferInit f.mem).2 < Flasher.requestedLength env msgIn) :
    f.init env msgIn = .nullAccess := by
  have hgt : (Flasher.announced env msgIn f.mem).imagelen >
      (Flasher.announced env msgIn f.mem).bufferSize := hlarge
  simp only [Flasher.init, h]
  rw [if_pos hgt]

/-- What an accepted announcement leaves behind. -/
theorem init_accepted {mem : Memory} {msgIn : Json} {msgOut : List (String × Json)}
    (hinit : Flasher.init env msgIn ⟨mem, none⟩ = .answered 0 msgOut f) :
    f = ⟨mem, some (Flasher.announced env msgIn mem)⟩ ∧
      Flasher.requestedLength env msgIn ≤ (firmwareBufferInit mem).2 := by
  by_cases hfits : Flasher.requestedLength env msgIn ≤ (firmwareBufferInit mem).2
  · obtain ⟨msgOut', hinit'⟩ := init_of_fits (f := ⟨mem, none⟩) rfl hfits
    rw [hinit] at hinit'
    injection hinit' with _ _ hf
    exact ⟨hf, hfits⟩
  · rw [init_of_large (f := ⟨mem, none⟩) rfl (Nat.not_le.mp hfits)] at hinit
    cases hinit

theorem abort_of_none (h : f.upgrade = none) : ∃ msgOut, f.abort = .answered 1 msgOut f := by
  simp only [Flasher.abort, h]
  exact ⟨_, rfl⟩

theorem abort_of_running (h : f.upgrade = some upgrade) :
    f.abort = .answered 1 []
      ⟨firmwareBufferFree f.mem upgrade.bufferAddr upgrade.bufferSize, none⟩ := by
  simp only [Flasher.abort, h]

theorem status_reported (env : Environment) (f : Flasher) :
    ∃ msgOut, f.status env = .reported msgOut := by
  simp only [Flasher.status]
  cases f.upgrade with
  | none => exact ⟨_, rfl⟩
  | some upgrade => exact ⟨_, rfl⟩

theorem complete_of_none (h : f.upgrade = none) : f.complete env = .nullAccess := by
  simp only [Flasher.complete, h]

theorem complete_of_running (env : Environment) (h : f.upgrade = some upgrade) :
    (∃ code msgOut, code ≠ 0 ∧ f.complete env = .answered code msgOut f) ∨
      ∃ mem, f.complete env = .rebooted mem := by
  simp only [Flasher.complete, h]
  by_cases hcomplete : (!upgrade.transferCompleted) = true
  · rw [if_pos hcomplete]
    exact Or.inl ⟨1, _, by decide, rfl⟩
  rw [if_neg hcomplete]
  by_cases hhash : env.hashSha256 (Flasher.image f.mem upgrade) ≠ upgrade.upstreamHash
  · rw [if_pos hhash]
    exact Or.inl ⟨2, _, by decide, rfl⟩
  · rw [if_neg hhash]
    exact Or.inr ⟨_, rfl⟩

end Handlers

/-! ### Runs of messages -/

/-- The flasher and, while an upgrade runs, the payloads it accepted since its start. -/
structure Session where
  flasher : Flasher
  received : List (BitVec 8)

/-- The flash at the start is arbitrary, and there is no upgrade. -/
def Session.start (mem : Memory) : Session := ⟨⟨mem, none⟩, []⟩

/-- What an answer of the given code adds to the payloads. -/
def Message.receive (env : Environment) (received : List (BitVec 8)) (code : Int) :
    Message → List (BitVec 8)
  | .init _ => if code = 0 then [] else received
  | .stream msgIn => if code = 0 then received ++ Flasher.decodedPayload env msgIn else received
  | .abort | .status | .complete => received

def Session.step (env : Environment) (s : Session) (message : Message) : Option Session :=
  match message.handle env s.flasher with
  | .answered code _ after => some ⟨after, message.receive env s.received code⟩
  | .reported _ => some s
  | .nullAccess => none
  | .rebooted _ => none

/-- What the record and the flash say about a running upgrade. -/
structure Intact (mem : Memory) (upgrade : FirmwareBuffer) (received : List (BitVec 8)) : Prop where
  transmitted : upgrade.bytesTransmitted ≤ upgrade.imagelen
  fits : upgrade.imagelen ≤ upgrade.bufferSize
  content : (List.range upgrade.bytesTransmitted).map (fun i => mem (upgrade.bufferAddr + i)) =
    received

/-- A handler never uses an absent record, a refused message changes nothing, and code 0 is
answered exactly to what took effect. -/
def Message.Honoured (env : Environment) (f : Flasher) (message : Message) : Prop :=
  match message.handle env f with
  | .answered code _ after => (code ≠ 0 → after = f) ∧ (code = 0 → after ≠ f)
  | .reported _ => True
  | .nullAccess => False
  | .rebooted _ => True

/-- Every message of the run is honoured, and every upgrade on the way is intact. -/
def RunHonoured (env : Environment) : List Message → Session → Prop
  | [], s => ∀ upgrade, s.flasher.upgrade = some upgrade → Intact s.flasher.mem upgrade s.received
  | message :: rest, s =>
    (∀ upgrade, s.flasher.upgrade = some upgrade → Intact s.flasher.mem upgrade s.received) ∧
      message.Honoured env s.flasher ∧
      ∀ s', s.step env message = some s' → RunHonoured env rest s'

/-- The situations in which the handlers behave. -/
def Message.Meets (env : Environment) (f : Flasher) : Message → Prop
  | .init msgIn => f.upgrade = none →
      Flasher.requestedLength env msgIn ≤ (firmwareBufferInit f.mem).2
  | .abort => f.upgrade = none
  | .complete => f.upgrade ≠ none
  | .stream _ | .status => True

def RunMeets (env : Environment) : List Message → Session → Prop
  | [], _ => True
  | message :: rest, s =>
    message.Meets env s.flasher ∧ ∀ s', s.step env message = some s' → RunMeets env rest s'

/-! ### The invariant -/

/-- An upgrade is intact, and the rest of its buffer is still free. -/
structure Streaming (mem : Memory) (upgrade : FirmwareBuffer) (received : List (BitVec 8)) : Prop
    extends Intact mem upgrade received where
  aligned : upgrade.bufferAddr % flashSectorSize = 0
  top : upgrade.bufferAddr + upgrade.bufferSize = flashLimit
  words : upgrade.bytesTransmitted % 4 = 0
  erased : mem.ErasedOn (upgrade.bufferAddr + upgrade.bytesTransmitted) flashLimit

def Session.Sound (s : Session) : Prop :=
  ∀ upgrade, s.flasher.upgrade = some upgrade → Streaming s.flasher.mem upgrade s.received

theorem sound_start (mem : Memory) : (Session.start mem).Sound := by
  intro upgrade h
  cases h

theorem streaming_announced (mem : Memory) (msgIn : Json)
    (h : Flasher.requestedLength env msgIn ≤ (firmwareBufferInit mem).2) :
    Streaming mem (Flasher.announced env msgIn mem) [] := by
  have hfree := freeBuffer_firmwareBufferInit mem
  exact ⟨⟨Nat.zero_le _, h, rfl⟩, hfree.aligned, hfree.top, rfl, hfree.erased⟩

theorem Streaming.appended {f : Flasher} {upgrade : FirmwareBuffer} {received : List (BitVec 8)}
    (h : Streaming f.mem upgrade received) {data : List (BitVec 8)}
    (hwithin : upgrade.bytesTransmitted + data.length ≤ upgrade.imagelen)
    (hwords : data.length % 4 = 0) :
    Streaming (f.mem.program (upgrade.bufferAddr + upgrade.bytesTransmitted) data)
      { upgrade with bytesTransmitted := upgrade.bytesTransmitted + data.length }
      (received ++ data) := by
  have htop := h.top
  have hfits := h.fits
  have herased : f.mem.ErasedOn (upgrade.bufferAddr + upgrade.bytesTransmitted)
      (upgrade.bufferAddr + upgrade.bytesTransmitted + data.length) :=
    h.erased.mono (Nat.le_refl _) (by omega)
  constructor
  · constructor
    · exact hwithin
    · exact h.fits
    · simp only
      rw [List.range_add, List.map_append, List.map_map]
      congr 1
      · rw [← h.content]
        apply List.map_congr_left
        intro i hi
        rw [List.mem_range] at hi
        exact program_outside _ (Or.inl (by omega))
      · apply List.ext_getElem
        · simp
        · intro i hi hi'
          simp only [List.getElem_map, List.getElem_range, Function.comp_apply]
          rw [← Nat.add_assoc]
          exact program_erased herased hi'
  · exact h.aligned
  · exact h.top
  · have hold := h.words
    simp only
    omega
  · intro a ha ha'
    simp only at ha
    rw [program_outside _ (Or.inr (by omega))]
    exact h.erased a (by omega) ha'

theorem appended_ne {f : Flasher} {upgrade : FirmwareBuffer} {data : List (BitVec 8)}
    (hrunning : f.upgrade = some upgrade) (hdata : data.length ≠ 0) :
    Ota.appended f upgrade data ≠ f := by
  intro h
  have hupgrade := congrArg Flasher.upgrade h
  rw [hrunning, Ota.appended, Option.some.injEq] at hupgrade
  have hbytes := congrArg FirmwareBuffer.bytesTransmitted hupgrade
  simp only at hbytes
  omega

/-! ### Steps -/

section Steps

variable {s s' : Session}

theorem step_of_answered (s : Session) (message : Message) {code : Int}
    {msgOut : List (String × Json)} {after : Flasher}
    (h : message.handle env s.flasher = .answered code msgOut after) :
    s.step env message = some ⟨after, message.receive env s.received code⟩ := by
  simp only [Session.step, h]

theorem step_of_refused (s : Session) (message : Message) {code : Int}
    {msgOut : List (String × Json)} (hcode : code ≠ 0)
    (h : message.handle env s.flasher = .answered code msgOut s.flasher) :
    s.step env message = some s := by
  rw [step_of_answered s message h]
  cases message <;> simp [Message.receive, hcode]

theorem honoured_of_refused (f : Flasher) (message : Message) {code : Int}
    {msgOut : List (String × Json)} (hcode : code ≠ 0)
    (h : message.handle env f = .answered code msgOut f) : message.Honoured env f := by
  rw [Message.Honoured, h]
  exact ⟨fun _ => rfl, fun hzero => absurd hzero hcode⟩

theorem not_honoured_of_nullAccess (f : Flasher) (message : Message)
    (h : message.handle env f = .nullAccess) : ¬ message.Honoured env f := by
  rw [Message.Honoured, h]
  exact not_false

/-- What a message can do. -/
inductive Message.Effect (env : Environment) (f : Flasher) : Message → Prop where
  | refused {message : Message} {code : Int} {msgOut : List (String × Json)} (hcode : code ≠ 0)
      (hhandle : message.handle env f = .answered code msgOut f) (hmeets : message.Meets env f) :
      Effect env f message
  | crashed {message : Message} (hhandle : message.handle env f = .nullAccess)
      (hmeets : ¬ message.Meets env f) : Effect env f message
  | announced {msgIn : Json} {msgOut : List (String × Json)} (hnone : f.upgrade = none)
      (hfits : Flasher.requestedLength env msgIn ≤ (firmwareBufferInit f.mem).2)
      (hinit : f.init env msgIn =
        .answered 0 msgOut ⟨f.mem, some (Flasher.announced env msgIn f.mem)⟩) :
      Effect env f (.init msgIn)
  | streamed {msgIn : Json} {upgrade : FirmwareBuffer} (haccepted : Acceptable env f upgrade msgIn) :
      Effect env f (.stream msgIn)
  | aborted {upgrade : FirmwareBuffer} (hrunning : f.upgrade = some upgrade) : Effect env f .abort
  | reported {msgOut : List (String × Json)} (hstatus : f.status env = .reported msgOut) :
      Effect env f .status
  | rebooted {mem : Memory} (hrunning : f.upgrade ≠ none) (hreboot : f.complete env = .rebooted mem) :
      Effect env f .complete

variable (env) in
theorem Message.effect (f : Flasher) (message : Message) : message.Effect env f := by
  cases message with
  | init msgIn =>
    cases hupgrade : f.upgrade with
    | some upgrade =>
      obtain ⟨msgOut, hinit⟩ := init_of_running env msgIn hupgrade
      have hmeets : (Message.init msgIn).Meets env f := by
        intro hnone
        rw [hupgrade] at hnone
        cases hnone
      exact .refused (by decide) hinit hmeets
    | none =>
      by_cases hfits : Flasher.requestedLength env msgIn ≤ (firmwareBufferInit f.mem).2
      · obtain ⟨msgOut, hinit⟩ := init_of_fits hupgrade hfits
        exact .announced hupgrade hfits hinit
      · have hmeets : ¬ (Message.init msgIn).Meets env f := fun hmeets => hfits (hmeets hupgrade)
        exact .crashed (init_of_large hupgrade (Nat.not_le.mp hfits)) hmeets
  | stream msgIn =>
    by_cases haccepted : ∃ upgrade, Acceptable env f upgrade msgIn
    · obtain ⟨upgrade, haccepted⟩ := haccepted
      exact .streamed haccepted
    · obtain ⟨code, msgOut, hcode, hstream⟩ := stream_of_not_acceptable (not_exists.mp haccepted)
      exact .refused hcode hstream trivial
  | abort =>
    cases hupgrade : f.upgrade with
    | none =>
      obtain ⟨msgOut, habort⟩ := abort_of_none hupgrade
      exact .refused (by decide) habort hupgrade
    | some upgrade => exact .aborted hupgrade
  | status =>
    obtain ⟨msgOut, hstatus⟩ := status_reported env f
    exact .reported hstatus
  | complete =>
    cases hupgrade : f.upgrade with
    | none => exact .crashed (complete_of_none hupgrade) (fun hmeets => hmeets hupgrade)
    | some upgrade =>
      have hrunning : f.upgrade ≠ none := by
        rw [hupgrade]
        exact Option.some_ne_none upgrade
      obtain ⟨code, msgOut, hcode, hcomplete⟩ | ⟨mem, hreboot⟩ := complete_of_running env hupgrade
      · exact .refused hcode hcomplete hrunning
      · exact .rebooted hrunning hreboot

theorem sound_step (hs : s.Sound) {message : Message} (h : s.step env message = some s') :
    s'.Sound := by
  cases Message.effect env s.flasher message with
  | refused hcode hhandle _ =>
    rw [step_of_refused s message hcode hhandle, Option.some.injEq] at h
    exact h ▸ hs
  | crashed hhandle _ =>
    simp only [Session.step, hhandle] at h
    cases h
  | @announced msgIn _ _ hfits hinit =>
    rw [step_of_answered s (.init msgIn) hinit, Option.some.injEq] at h
    rw [← h]
    intro upgrade hsome
    rw [Option.some.injEq] at hsome
    rw [← hsome]
    exact streaming_announced s.flasher.mem msgIn hfits
  | @streamed msgIn upgrade haccepted =>
    rw [step_of_answered s (.stream msgIn) (stream_of_acceptable haccepted), Option.some.injEq] at h
    rw [← h]
    intro upgrade' hsome
    rw [appended, Option.some.injEq] at hsome
    rw [← hsome]
    exact (hs upgrade haccepted.running).appended haccepted.within haccepted.words
  | aborted hrunning =>
    rw [step_of_answered s .abort (abort_of_running hrunning), Option.some.injEq] at h
    rw [← h]
    intro upgrade' hsome
    cases hsome
  | reported hstatus =>
    simp only [Session.step, Message.handle, hstatus, Option.some.injEq] at h
    exact h ▸ hs
  | rebooted _ hreboot =>
    simp only [Session.step, Message.handle, hreboot] at h
    cases h

theorem honoured_iff_meets (s : Session) (message : Message) :
    message.Honoured env s.flasher ↔ message.Meets env s.flasher := by
  cases Message.effect env s.flasher message with
  | refused hcode hhandle hmeets =>
    exact iff_of_true (honoured_of_refused _ message hcode hhandle) hmeets
  | crashed hhandle hmeets =>
    exact iff_of_false (not_honoured_of_nullAccess _ message hhandle) hmeets
  | announced hnone hfits hinit =>
    apply iff_of_true _ (fun _ => hfits)
    simp only [Message.Honoured, Message.handle, hinit]
    refine ⟨fun h => absurd rfl h, fun _ hsame => ?_⟩
    have hsome := congrArg Flasher.upgrade hsame
    rw [hnone] at hsome
    cases hsome
  | streamed haccepted =>
    apply iff_of_true _ trivial
    simp only [Message.Honoured, Message.handle, stream_of_acceptable haccepted]
    exact ⟨fun h => absurd rfl h, fun _ => appended_ne haccepted.running haccepted.decoded⟩
  | aborted hrunning =>
    apply iff_of_false
    · simp only [Message.Honoured, Message.handle, abort_of_running hrunning]
      intro h
      have hnone := congrArg Flasher.upgrade (h.1 (by decide))
      rw [hrunning] at hnone
      cases hnone
    · intro hnone
      rw [Message.Meets, hrunning] at hnone
      cases hnone
  | reported hstatus =>
    apply iff_of_true _ trivial
    simp only [Message.Honoured, Message.handle, hstatus]
  | rebooted hrunning hreboot =>
    apply iff_of_true _ hrunning
    simp only [Message.Honoured, Message.handle, hreboot]

end Steps

theorem runHonoured_iff_of_sound (messages : List Message) {s : Session} (hs : s.Sound) :
    RunHonoured env messages s ↔ RunMeets env messages s := by
  have hintact : ∀ upgrade, s.flasher.upgrade = some upgrade →
      Intact s.flasher.mem upgrade s.received := fun upgrade h => (hs upgrade h).toIntact
  induction messages generalizing s with
  | nil => exact iff_of_true hintact trivial
  | cons message rest ih =>
    rw [RunHonoured, RunMeets, honoured_iff_meets s message]
    constructor
    · rintro ⟨-, hmeets, hrest⟩
      refine ⟨hmeets, fun s' hstep => ?_⟩
      have hs' := sound_step hs hstep
      exact (ih hs' fun upgrade h => (hs' upgrade h).toIntact).mp (hrest s' hstep)
    · rintro ⟨hmeets, hrest⟩
      refine ⟨hintact, hmeets, fun s' hstep => ?_⟩
      have hs' := sound_step hs hstep
      exact (ih hs' fun upgrade h => (hs' upgrade h).toIntact).mpr (hrest s' hstep)

theorem upgrade_run_honoured_iff (env : Environment) (mem : Memory) (messages : List Message) :
    RunHonoured env messages (Session.start mem) ↔ RunMeets env messages (Session.start mem) :=
  runHonoured_iff_of_sound messages (sound_start mem)

/-- A completion without upgrade. -/
theorem completion_uses_absent_record :
    ¬ RunHonoured ⟨⟨fun _ => 0, fun _ => "null"⟩, fun _ => Vector.replicate 32 0, fun _ => 0⟩
      [.complete] (Session.start fun _ => 0) := by
  intro h
  exact h.2.1

end Lucidac.Ota
