import Lucidac.Framework.Blocks

/-!
# The hash unit

The driver collects what it is given and hands it to the hash unit of the processor in packets, of
which all but the last consist of whole blocks.
-/

namespace Lucidac.Dcp

open Framework

/-- A packet with the flags for the begin and the end of a message. -/
structure WorkPacket where
  hashInit : Bool
  hashTerm : Bool
  data : List (BitVec 8)
deriving DecidableEq

inductive HashAlgoState where
  | hashInit
  | hashUpdate
deriving DecidableEq

/-- The context of a hash, with the packets that the unit was given.  The flags are not there until
they are written. -/
structure HashContext where
  blk : List (BitVec 8)
  blksz : Nat
  state : HashAlgoState
  ctrl0 : Option (Bool × Bool)
  packets : List WorkPacket

def hashBlockSize : Nat := 128

/-- Nothing is written behind the memory. -/
def memcpy (memory : List (BitVec 8)) (offset : Nat) (data : List (BitVec 8)) :
    Option (List (BitVec 8)) :=
  if offset + data.length ≤ memory.length then
    some (memory.take offset ++ data ++ memory.drop (offset + data.length))
  else none

def hashUpdate (msg : List (BitVec 8)) (ctx : HashContext) : Option HashContext :=
  ctx.ctrl0.map fun (hashInit, hashTerm) =>
    { ctx with ctrl0 := some (false, false), packets := ctx.packets ++ [⟨hashInit, hashTerm, msg⟩] }

def hashBlocks (blocks : List (BitVec 8)) (ctx : HashContext) : Option HashContext :=
  if 0 < blocks.length then hashUpdate blocks ctx else some ctx

/-- `dcp_hash_process_message_data` behind the block that was filled. -/
def processBlocks (message : List (BitVec 8)) (ctx : HashContext) : Option HashContext :=
  let fullBlocksSize := message.length / 64 * 64
  let rest := message.drop fullBlocksSize
  (hashBlocks (message.take fullBlocksSize) ctx).bind fun ctx =>
    (memcpy ctx.blk 0 rest).map fun blk => { ctx with blk, blksz := rest.length }

def processMessageData (message : List (BitVec 8)) (ctx : HashContext) : Option HashContext :=
  if 0 < ctx.blksz then
    let toCopy := hashBlockSize - ctx.blksz
    if toCopy ≤ message.length then do
      let blk ← memcpy ctx.blk ctx.blksz (message.take toCopy)
      let ctx ← hashUpdate blk { ctx with blk }
      processBlocks (message.drop toCopy) ctx
    else none
  else processBlocks message ctx

/-- `DCP_HASH_Init`; the flags are left as they are. -/
def init : HashContext := ⟨List.replicate hashBlockSize 0, 0, .hashInit, none, []⟩

/-- `DCP_HASH_Update` -/
def update (ctx : HashContext) (input : List (BitVec 8)) : Option HashContext :=
  if ctx.blksz + input.length ≤ hashBlockSize then
    (memcpy ctx.blk ctx.blksz input).map fun blk =>
      { ctx with blk, blksz := ctx.blksz + input.length }
  else
    processMessageData input
      (if ctx.state = .hashUpdate then ctx
      else { ctx with ctrl0 := some (true, false), state := .hashUpdate })

/-- `DCP_HASH_Finish` -/
def finish (ctx : HashContext) : Option (List WorkPacket) := do
  let ctx := if ctx.state = .hashInit then { ctx with ctrl0 := some (true, false) } else ctx
  let (hashInit, _) ← ctx.ctrl0
  let ctx ← hashUpdate (ctx.blk.take ctx.blksz) { ctx with ctrl0 := some (hashInit, true) }
  return ctx.packets

def hashChunks (chunks : List (List (BitVec 8))) : Option (List WorkPacket) := do
  let ctx ← chunks.foldlM update init
  finish ctx

def hash (msg : List (BitVec 8)) : Option (List WorkPacket) := hashChunks [msg]

variable {σ δ : Type} (M : BlockMachine 64 (BitVec 8) σ δ)

/-- What the unit makes of packets.  A packet that is not the last has to consist of whole
blocks. -/
def digestOf : List WorkPacket → σ → Option δ
  | [], _ => none
  | packet :: packets, s =>
    let s := if packet.hashInit then M.start else s
    if packet.hashTerm then some (M.digestFrom s packet.data)
    else if 64 ∣ packet.data.length then digestOf packets (M.absorb packet.data s)
    else none

/-- The unit has absorbed what was sent when the next packet comes. -/
def Sent (ctrl0 : Option (Bool × Bool)) (packets : List WorkPacket) (sent : List (BitVec 8)) :
    Prop :=
  64 ∣ sent.length ∧ ∃ hashInit, ctrl0 = some (hashInit, false) ∧
    ∀ hashTerm data tail s, digestOf M (packets ++ ⟨hashInit, hashTerm, data⟩ :: tail) s =
      digestOf M (⟨false, hashTerm, data⟩ :: tail) (M.absorb sent M.start)

/-- The message so far, of which a part was sent. -/
structure Holds (ctx : HashContext) (message : List (BitVec 8)) : Prop where
  length_blk : ctx.blk.length = hashBlockSize
  blksz_le : ctx.blksz ≤ hashBlockSize
  position : ∃ sent, sent ++ ctx.blk.take ctx.blksz = message ∧
    match ctx.state with
    | .hashInit => ctx.packets = [] ∧ sent = []
    | .hashUpdate => Sent M ctx.ctrl0 ctx.packets sent

section Steps

variable {M} {ctx : HashContext} {sent message : List (BitVec 8)}

theorem memcpy_eq {memory data : List (BitVec 8)} {offset : Nat}
    (h : offset + data.length ≤ memory.length) : ∃ memory',
    memcpy memory offset data = some memory' ∧ memory'.length = memory.length ∧
      memory'.take (offset + data.length) = memory.take offset ++ data := by
  have hoffset : (memory.take offset).length = offset := List.length_take_of_le (by omega)
  refine ⟨_, if_pos h, ?_, ?_⟩
  · simp only [List.length_append, List.length_drop, hoffset]
    omega
  · rw [List.take_left' (by rw [List.length_append, hoffset])]

theorem sent_begin : Sent M (some (true, false)) [] [] := by
  refine ⟨Nat.dvd_zero 64, true, rfl, ?_⟩
  intro hashTerm data tail s
  rw [BlockMachine.absorb_nil]
  rfl

theorem hashUpdate_eq {data : List (BitVec 8)} (h : Sent M ctx.ctrl0 ctx.packets sent)
    (hdata : 64 ∣ data.length) : ∃ ctrl0 packets,
    hashUpdate data ctx = some { ctx with ctrl0, packets } ∧ Sent M ctrl0 packets (sent ++ data) := by
  obtain ⟨hsent, hashInit, hctrl0, hdigest⟩ := h
  refine ⟨some (false, false), ctx.packets ++ [⟨hashInit, false, data⟩], ?_, ?_, false, rfl, ?_⟩
  · rw [hashUpdate, hctrl0]
    rfl
  · rw [List.length_append]
    exact Nat.dvd_add hsent hdata
  · intro hashTerm rest tail s
    rw [List.append_assoc, List.singleton_append, hdigest,
      BlockMachine.absorb_append M (by decide) hsent]
    rw [digestOf]
    simp only [Bool.false_eq_true, if_false, if_pos hdata]

theorem hashBlocks_eq {blocks : List (BitVec 8)} (h : Sent M ctx.ctrl0 ctx.packets sent)
    (hblocks : 64 ∣ blocks.length) : ∃ ctrl0 packets,
    hashBlocks blocks ctx = some { ctx with ctrl0, packets } ∧
      Sent M ctrl0 packets (sent ++ blocks) := by
  rw [hashBlocks]
  by_cases hpos : 0 < blocks.length
  · rw [if_pos hpos]
    exact hashUpdate_eq h hblocks
  · rw [if_neg hpos, List.eq_nil_of_length_eq_zero (Nat.eq_zero_of_not_pos hpos), List.append_nil]
    exact ⟨ctx.ctrl0, ctx.packets, rfl, h⟩

theorem processBlocks_eq (hsent : Sent M ctx.ctrl0 ctx.packets sent)
    (hstate : ctx.state = .hashUpdate) (hblk : ctx.blk.length = hashBlockSize)
    (message : List (BitVec 8)) :
    ∃ ctx', processBlocks message ctx = some ctx' ∧ Holds M ctx' (sent ++ message) := by
  have hfull : message.length / 64 * 64 ≤ message.length := Nat.div_mul_le_self _ _
  have hblocks : 64 ∣ (message.take (message.length / 64 * 64)).length := by
    rw [List.length_take_of_le hfull]
    exact Nat.dvd_mul_left _ _
  have hrest : (message.drop (message.length / 64 * 64)).length < 64 := by
    rw [List.length_drop]
    omega
  change ctx.blk.length = 128 at hblk
  obtain ⟨ctrl0, packets, heq, hsent'⟩ := hashBlocks_eq hsent hblocks
  obtain ⟨blk, hcopy, hlength, htake⟩ := @memcpy_eq ctx.blk
    (message.drop (message.length / 64 * 64)) 0 (by omega)
  rw [Nat.zero_add, List.take_zero, List.nil_append] at htake
  refine ⟨{ ctx with blk, blksz := _, ctrl0, packets }, ?_, hlength.trans hblk,
    Nat.le_of_lt (Nat.lt_trans hrest (by decide)), ?_⟩
  · rw [processBlocks, heq, Option.bind_some, hcopy]
    rfl
  · refine ⟨sent ++ message.take (message.length / 64 * 64), ?_, ?_⟩
    · rw [htake, List.append_assoc, List.take_append_drop]
    · rw [hstate]
      exact hsent'

theorem processMessageData_eq (hsent : Sent M ctx.ctrl0 ctx.packets sent)
    (hstate : ctx.state = .hashUpdate) (hblk : ctx.blk.length = hashBlockSize)
    (hle : ctx.blksz ≤ hashBlockSize) {input : List (BitVec 8)}
    (hover : hashBlockSize < ctx.blksz + input.length) :
    ∃ ctx', processMessageData input ctx = some ctx' ∧
      Holds M ctx' (sent ++ ctx.blk.take ctx.blksz ++ input) := by
  rw [processMessageData]
  by_cases hpos : 0 < ctx.blksz
  · have hcopy : hashBlockSize - ctx.blksz ≤ input.length := by omega
    have hlength : (input.take (hashBlockSize - ctx.blksz)).length = hashBlockSize - ctx.blksz :=
      List.length_take_of_le hcopy
    obtain ⟨blk, heq, hblk', htake⟩ := @memcpy_eq ctx.blk
      (input.take (hashBlockSize - ctx.blksz)) ctx.blksz (by omega)
    have hfilled : blk = ctx.blk.take ctx.blksz ++ input.take (hashBlockSize - ctx.blksz) := by
      rw [← htake, List.take_of_length_le (by omega)]
    obtain ⟨ctrl0, packets, hupdate, hsent'⟩ := @hashUpdate_eq _ _ M { ctx with blk } sent blk hsent
      (by rw [hblk', hblk]; decide)
    obtain ⟨ctx', hprocess, hholds⟩ := @processBlocks_eq _ _ M { ctx with blk, ctrl0, packets } _
      hsent' hstate (hblk'.trans hblk) (input.drop (hashBlockSize - ctx.blksz))
    rw [if_pos hpos, if_pos hcopy]
    refine ⟨ctx', ?_, ?_⟩
    · simp only [heq, Option.bind_eq_bind, Option.bind_some, hupdate, hprocess]
    · rw [hfilled, List.append_assoc, List.append_assoc, List.take_append_drop,
        ← List.append_assoc] at hholds
      exact hholds
  · rw [if_neg hpos, Nat.eq_zero_of_not_pos hpos, List.take_zero, List.append_nil]
    exact processBlocks_eq hsent hstate hblk input

theorem Holds.update (h : Holds M ctx message) (input : List (BitVec 8)) :
    ∃ ctx', Dcp.update ctx input = some ctx' ∧ Holds M ctx' (message ++ input) := by
  obtain ⟨blk, blksz, state, ctrl0, packets⟩ := ctx
  obtain ⟨hblk, hle, sent, rfl, hposition⟩ := h
  rw [Dcp.update]
  by_cases hroom : blksz + input.length ≤ hashBlockSize
  · obtain ⟨blk', heq, hblk', htake⟩ := @memcpy_eq blk input blksz (by rw [hblk]; exact hroom)
    rw [if_pos hroom, heq]
    refine ⟨_, rfl, hblk'.trans hblk, hroom, sent, ?_, hposition⟩
    rw [htake, List.append_assoc]
  · rw [if_neg hroom]
    have hover := Nat.lt_of_not_le hroom
    cases state with
    | hashInit =>
      obtain ⟨rfl, rfl⟩ := hposition
      exact @processMessageData_eq _ _ M ⟨blk, blksz, .hashUpdate, some (true, false), []⟩ []
        sent_begin rfl hblk hle input hover
    | hashUpdate => exact processMessageData_eq hposition rfl hblk hle hover

theorem Holds.finish (h : Holds M ctx message) (s : σ) :
    ∃ packets, Dcp.finish ctx = some packets ∧ digestOf M packets s = some (M.digest message) := by
  obtain ⟨blk, blksz, state, ctrl0, packets⟩ := ctx
  obtain ⟨-, -, sent, rfl, hposition⟩ := h
  have hlast : ∀ {ctrl0' : Option (Bool × Bool)}, Sent M ctrl0' packets sent →
      ∃ hashInit, ctrl0' = some (hashInit, false) ∧
        digestOf M (packets ++ [⟨hashInit, true, blk.take blksz⟩]) s =
          some (M.digest (sent ++ blk.take blksz)) := by
    rintro ctrl0' ⟨hsent, hashInit, hctrl0, hdigest⟩
    refine ⟨hashInit, hctrl0, ?_⟩
    rw [hdigest, BlockMachine.digest, BlockMachine.digestFrom_append M (by decide) hsent]
    rfl
  cases state with
  | hashInit =>
    obtain ⟨rfl, rfl⟩ := hposition
    obtain ⟨hashInit, hctrl0, hdigest⟩ := hlast sent_begin
    cases hctrl0
    exact ⟨_, rfl, hdigest⟩
  | hashUpdate =>
    obtain ⟨hashInit, hctrl0, hdigest⟩ := hlast hposition
    obtain rfl : ctrl0 = some (hashInit, false) := hctrl0
    exact ⟨_, rfl, hdigest⟩

end Steps

theorem holds_init : Holds M init [] where
  length_blk := List.length_replicate
  blksz_le := Nat.zero_le _
  position := ⟨[], rfl, rfl, rfl⟩

theorem holds_foldlM {ctx : HashContext} {message : List (BitVec 8)} (h : Holds M ctx message)
    (chunks : List (List (BitVec 8))) :
    ∃ ctx', chunks.foldlM update ctx = some ctx' ∧ Holds M ctx' (message ++ chunks.flatten) := by
  induction chunks generalizing ctx message with
  | nil =>
    rw [List.flatten_nil, List.append_nil]
    exact ⟨ctx, rfl, h⟩
  | cons chunk chunks ih =>
    obtain ⟨ctx₁, hupdate, h₁⟩ := h.update chunk
    obtain ⟨ctx', hrest, h'⟩ := ih h₁
    rw [List.append_assoc] at h'
    refine ⟨ctx', ?_, h'⟩
    rw [List.foldlM_cons, hupdate]
    exact hrest

/-- In whatever chunks a message is given, nothing outside of the block is written, no flag is read
before it is written, and the unit makes of the packets the digest of the message. -/
theorem digestOf_hashChunks (chunks : List (List (BitVec 8))) (s : σ) :
    ∃ packets, hashChunks chunks = some packets ∧
      digestOf M packets s = some (M.digest chunks.flatten) := by
  obtain ⟨ctx, hchunks, hholds⟩ := holds_foldlM M (holds_init M) chunks
  obtain ⟨packets, hfinish, hdigest⟩ := hholds.finish s
  refine ⟨packets, ?_, hdigest⟩
  rw [hashChunks, hchunks]
  exact hfinish

/-- Full blocks are sent from where they are. -/
example : (hash (List.replicate 200 0)).map
    (List.map fun packet => (packet.hashInit, packet.hashTerm, packet.data.length)) =
      some [(true, false, 192), (false, true, 8)] := by
  decide +kernel

end Lucidac.Dcp
