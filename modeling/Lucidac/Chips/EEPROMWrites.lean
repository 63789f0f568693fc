import Lucidac.Chips.EEPROM25AA02

/-!
# Writing the EEPROM

A write that fits into the memory is stored completely, with one command for every page it
touches, if the chip completes them in time.
-/

namespace Lucidac.EEPROM25AA02

open Framework

/-- The bus when no transaction is open. -/
def Bus.closed (chip : Chip) (commands : List WriteCommand) : Bus := ⟨chip, false, [], commands⟩

section Driver

variable (duration : Nat → Nat)

/-! ### Commands -/

theorem setWriteEnable_eq {bus : Bus} (hrest : bus.chip.remaining = 0) :
    setWriteEnable duration bus = .closed { bus.chip with writeEnabled := true } bus.commands := by
  simp [setWriteEnable, Bus.beginCommunication, Bus.send, Bus.endCommunication, Chip.execute, hrest,
    Bus.closed]

theorem endCommunication_reading {bus : Bus} {command : Byte} {sent : List Byte}
    (hreceived : bus.received = command :: sent)
    (hcommand : command = commandRead ∨ command = commandReadStatusRegister) :
    bus.endCommunication duration = .closed bus.chip bus.commands := by
  have hne : command ≠ commandWriteEnable ∧ command ≠ commandWrite := by
    rcases hcommand with rfl | rfl <;> decide
  have hexecute : bus.chip.execute duration bus.received = bus.chip := by
    rw [hreceived]
    simp [Chip.execute, hne]
  rw [Bus.endCommunication, hexecute, hreceived]
  cases sent with
  | nil => simp [Bus.closed]
  | cons address data => simp [hne, Bus.closed]

theorem receive_snd (count : Nat) (bus : Bus) :
    (bus.receive count).2 = bus.send (List.replicate count 0) := by
  induction count generalizing bus with
  | zero => simp [Bus.receive, Bus.send]
  | succ count ih => simp [Bus.receive, ih, Bus.send, List.replicate_succ]

theorem receive_memory {bus : Bus} {address : Byte} {sent : List Byte}
    (hreceived : bus.received = commandRead :: address :: sent) (hrest : bus.chip.remaining = 0)
    (count : Nat) : (bus.receive count).1 = (List.range count).map fun k =>
      bus.chip.memory ((address.toNat + (sent.length + k)) % 256) := by
  induction count generalizing bus sent with
  | zero => rfl
  | succ count ih =>
    have hanswer : bus.chip.answer bus.received =
        bus.chip.memory ((address.toNat + sent.length) % 256) := by
      rw [hreceived, Chip.answer, if_neg (by decide), if_pos ⟨rfl, hrest⟩]
    have hnext : (bus.send [0]).received = commandRead :: address :: (sent ++ [0]) := by
      rw [Bus.send, hreceived]
      rfl
    rw [Bus.receive, ih hnext hrest, hanswer, List.range_succ_eq_map, List.map_cons, List.map_map]
    refine congrArg₂ List.cons rfl (List.map_congr_left fun k _ => ?_)
    change bus.chip.memory _ = bus.chip.memory _
    rw [List.length_append, List.length_singleton]
    congr 2
    omega

/-! ### Polling -/

/-- What the status register holds. -/
def Chip.status (chip : Chip) : Status :=
  ⟨(if chip.remaining = 0 then 0 else 1) ||| (if chip.writeEnabled then 2 else 0)⟩

theorem isWriteInProgress_status (chip : Chip) :
    chip.status.isWriteInProgress = decide (chip.remaining ≠ 0) := by
  by_cases h : chip.remaining = 0 <;> cases hw : chip.writeEnabled <;>
    simp [Chip.status, Status.isWriteInProgress, h, hw]

theorem isWriteEnabled_status (chip : Chip) :
    chip.status.isWriteEnabled = chip.writeEnabled := by
  by_cases h : chip.remaining = 0 <;> cases hw : chip.writeEnabled <;>
    simp [Chip.status, Status.isWriteEnabled, h, hw]

theorem readStatusRegister_eq (bus : Bus) :
    readStatusRegister duration bus = (bus.chip.status, .closed bus.chip bus.commands) := by
  have hstatus : bus.chip.answer [commandReadStatusRegister] &&& 0x0F = bus.chip.status.data := by
    rw [Chip.answer, if_pos rfl, Chip.status]
    by_cases h : bus.chip.remaining = 0 <;> cases bus.chip.writeEnabled <;> simp [h]
  have hreceived : ((bus.beginCommunication.send [commandReadStatusRegister]).send [0]).received =
      [commandReadStatusRegister, 0] := rfl
  exact Prod.ext (congrArg Status.mk hstatus)
    (endCommunication_reading duration hreceived (Or.inr rfl))

/-- The chip some milliseconds later. -/
def Chip.wait (chip : Chip) (ms : Nat) : Chip := { chip with remaining := chip.remaining - ms }

theorem Chip.wait_wait (chip : Chip) (ms ms' : Nat) :
    (chip.wait ms).wait ms' = chip.wait (ms + ms') := by
  simp only [wait, Nat.sub_sub]

theorem Chip.wait_of_le {chip : Chip} {ms : Nat} (h : chip.remaining ≤ ms) :
    chip.wait ms = { chip with remaining := 0 } := by
  rw [wait, Nat.sub_eq_zero_of_le h]

/-- One try of the loop. -/
theorem awaitTries_closed (tries : Nat) (chip : Chip) (commands : List WriteCommand) :
    awaitTries duration tries (.closed chip commands) =
      if 20 < tries then (false, .closed (chip.wait 1) commands)
      else if chip.remaining ≤ 1 then (true, .closed (chip.wait 1) commands)
      else awaitTries duration (tries + 1) (.closed (chip.wait 1) commands) := by
  have hprogress : (chip.wait 1).status.isWriteInProgress = decide (¬chip.remaining ≤ 1) := by
    rw [isWriteInProgress_status, Chip.wait]
    simp only [ne_eq, Nat.sub_eq_zero_iff_le]
  have hdelay : (Bus.closed chip commands).delay = .closed (chip.wait 1) commands := rfl
  rw [awaitTries, hdelay, readStatusRegister_eq]
  split
  · rfl
  · change (if (chip.wait 1).status.isWriteInProgress = true then _ else _) = _
    rw [hprogress]
    by_cases h : chip.remaining ≤ 1
    · simp only [h]
      rfl
    · simp only [h]
      rfl

/-- The number of milliseconds after which a write is given up. -/
def pollingLimit : Nat := 21

theorem awaitTries_completes {tries : Nat} {chip : Chip} (commands : List WriteCommand)
    (htries : tries ≤ 20) (h : chip.remaining + tries ≤ pollingLimit) :
    awaitTries duration tries (.closed chip commands) =
      (true, .closed { chip with remaining := 0 } commands) := by
  rw [pollingLimit] at h
  induction hleft : 20 - tries generalizing tries chip with
  | zero =>
    rw [awaitTries_closed, if_neg (by omega), if_pos (by omega), Chip.wait_of_le (by omega)]
  | succ left ih =>
    rw [awaitTries_closed, if_neg (by omega)]
    split
    · rename_i hdone
      rw [Chip.wait_of_le hdone]
    · have hrest : (chip.wait 1).remaining + (tries + 1) ≤ 21 := by
        simp only [Chip.wait]
        omega
      exact ih (by omega) hrest (by omega)

theorem awaitTries_gives_up {tries : Nat} {chip : Chip} (commands : List WriteCommand)
    (htries : tries ≤ 21) (h : pollingLimit < chip.remaining + tries) :
    awaitTries duration tries (.closed chip commands) =
      (false, .closed (chip.wait (22 - tries)) commands) := by
  rw [pollingLimit] at h
  induction hleft : 21 - tries generalizing tries chip with
  | zero =>
    rw [awaitTries_closed, if_pos (by omega), show 22 - tries = 1 by omega]
  | succ left ih =>
    have hrest : pollingLimit < (chip.wait 1).remaining + (tries + 1) := by
      simp only [pollingLimit, Chip.wait]
      omega
    rw [awaitTries_closed, if_neg (by omega), if_neg (by omega), ih (by omega) hrest (by omega),
      Chip.wait_wait, show 1 + (22 - (tries + 1)) = 22 - tries by omega]

theorem awaitWriteComplete_eq (chip : Chip) (commands : List WriteCommand) :
    awaitWriteComplete duration (.closed chip commands) =
      if chip.remaining ≤ pollingLimit then (true, .closed { chip with remaining := 0 } commands)
      else (false, .closed (chip.wait 22) commands) := by
  rw [awaitWriteComplete]
  split
  · rename_i h
    exact awaitTries_completes duration commands (Nat.zero_le 20) h
  · rename_i h
    exact awaitTries_gives_up duration commands (Nat.zero_le 21) (Nat.not_le.mp h)

/-! ### Pages -/

/-- The chip after one write command. -/
def Chip.programmed (chip : Chip) (address : Nat) (data : List Byte) : Chip where
  memory := PagedMemory.program pageSize chip.memory address data
  writeEnabled := false
  remaining := duration chip.internalWrites
  internalWrites := chip.internalWrites + 1

theorem length_bytesFrom (buffer : Nat → Byte) (position count : Nat) :
    (bytesFrom buffer position count).length = count := by
  rw [bytesFrom, List.length_map, List.length_range]

/-- A write command reaches the chip when it is deselected. -/
theorem endCommunication_write {bus : Bus} {address : Byte} {data : List Byte} (hdata : data ≠ [])
    (hreceived : bus.received = commandWrite :: address :: data) (hrest : bus.chip.remaining = 0)
    (henabled : bus.chip.writeEnabled = true) : bus.endCommunication duration =
      .closed (bus.chip.programmed duration address.toNat data)
        (bus.commands ++ [⟨address, data.length⟩]) := by
  have hexecute : bus.chip.execute duration bus.received =
      bus.chip.programmed duration address.toNat data := by
    obtain ⟨first, data, rfl⟩ := List.exists_cons_of_ne_nil hdata
    rw [hreceived]
    simp [Chip.execute, hrest, henabled, commandWrite, commandWriteEnable, Chip.programmed]
  rw [Bus.endCommunication, hexecute, hreceived]
  simp only [if_true]
  rfl

theorem writePage_eq (address pageStart pageEnd : BitVec 32) (buffer : Nat → Byte) {bus : Bus}
    (hcount : (pageEnd - pageStart + 1).toNat ≠ 0) (hrest : bus.chip.remaining = 0) :
    writePage duration address pageStart pageEnd buffer bus =
      .closed (bus.chip.programmed duration (pageStart.setWidth 8).toNat
        (bytesFrom buffer (pageStart - address).toNat (pageEnd - pageStart + 1).toNat))
        (bus.commands ++ [⟨pageStart.setWidth 8, (pageEnd - pageStart + 1).toNat⟩]) := by
  have hdata : bytesFrom buffer (pageStart - address).toNat (pageEnd - pageStart + 1).toNat ≠ [] := by
    rw [← List.length_pos_iff, length_bytesFrom]
    exact Nat.pos_of_ne_zero hcount
  have hreceived : ((Bus.closed { bus.chip with writeEnabled := true }
      bus.commands).beginCommunication.send (commandWrite :: pageStart.setWidth 8 ::
        bytesFrom buffer (pageStart - address).toNat (pageEnd - pageStart + 1).toNat)).received =
      commandWrite :: pageStart.setWidth 8 ::
        bytesFrom buffer (pageStart - address).toNat (pageEnd - pageStart + 1).toNat := rfl
  have hsent := endCommunication_write duration hdata hreceived hrest rfl
  rw [length_bytesFrom] at hsent
  rw [writePage, setWriteEnable_eq duration hrest]
  exact hsent

theorem bytesFrom_append (buffer : Nat → Byte) (position m n : Nat) :
    bytesFrom buffer position (m + n) =
      bytesFrom buffer position m ++ bytesFrom buffer (position + m) n := by
  simp only [bytesFrom, List.range_add, List.map_append, List.map_map]
  congr 1
  refine List.map_congr_left fun k _ => ?_
  rw [Function.comp_apply, Nat.add_assoc]

/-- A command that stays inside of its page. -/
def WriteCommand.FitsPage (command : WriteCommand) : Prop :=
  command.address.toNat % pageSize + command.count ≤ pageSize

/-- The number of pages from one address to another. -/
def pagesTouched (first last : Nat) : Nat := last / 16 - first / 16 + 1

/-- The chip with the bytes from `first` on and below `next` stored. -/
def Chip.stored (chip : Chip) (address first next writes remaining : Nat) (buffer : Nat → Byte) :
    Chip where
  memory := PagedMemory.store chip.memory first (bytesFrom buffer (first - address) (next - first))
  writeEnabled := false
  remaining := remaining
  internalWrites := chip.internalWrites + writes

theorem Chip.stored_stored (chip : Chip) {address first middle next : Nat} (writes writes' : Nat)
    (remaining : Nat) (buffer : Nat → Byte) (hfirst : address ≤ first) (hmiddle : first ≤ middle)
    (hnext : middle ≤ next) :
    (chip.stored address first middle writes 0 buffer).stored address middle next writes' remaining
        buffer = chip.stored address first next (writes + writes') remaining buffer := by
  have hbytes : bytesFrom buffer (first - address) (next - first) =
      bytesFrom buffer (first - address) (middle - first) ++
        bytesFrom buffer (middle - address) (next - middle) := by
    rw [show next - first = middle - first + (next - middle) by omega, bytesFrom_append,
      show first - address + (middle - first) = middle - address by omega]
  simp only [stored, hbytes, PagedMemory.store_append, length_bytesFrom, Nat.add_assoc]
  rw [show first + (middle - first) = middle by omega]

theorem awaitWriteComplete_stored (chip : Chip) (address first next writes remaining : Nat)
    (buffer : Nat → Byte) (commands : List WriteCommand) :
    awaitWriteComplete duration
        (.closed (chip.stored address first next writes remaining buffer) commands) =
      if remaining ≤ pollingLimit then
        (true, .closed (chip.stored address first next writes 0 buffer) commands)
      else (false, .closed (chip.stored address first next writes (remaining - 22) buffer) commands) :=
  awaitWriteComplete_eq duration _ commands

section Loop

variable (address : BitVec 32) {lastByte : BitVec 32} (hlast : isAddressValid lastByte = true)
  (buffer : Nat → Byte)

/-- Behind the last byte that the command for `pageStart` writes. -/
def pageNext (lastByte pageStart : Nat) : Nat := min lastByte (pageStart / 16 * 16 + 15) + 1

include hlast in
theorem writePage_inside {pageStart : BitVec 32} (haddress : address ≤ pageStart)
    (hstart : pageStart ≤ lastByte) {bus : Bus} (hrest : bus.chip.remaining = 0) :
    ∃ command : WriteCommand, command.FitsPage ∧
      writePage duration address pageStart (pageEnd lastByte pageStart) buffer bus =
        .closed (bus.chip.stored address.toNat pageStart.toNat
          (pageNext lastByte.toNat pageStart.toNat) 1 (duration bus.chip.internalWrites) buffer)
          (bus.commands ++ [command]) := by
  rw [isAddressValid_iff] at hlast
  rw [BitVec.le_def] at haddress hstart
  have hend := pageEnd_toNat lastByte pageStart
  have haddress8 : (pageStart.setWidth 8).toNat = pageStart.toNat := by
    rw [BitVec.toNat_setWidth]
    exact Nat.mod_eq_of_lt (by omega)
  have hcount : (pageEnd lastByte pageStart - pageStart + 1).toNat =
      min lastByte.toNat (pageStart.toNat / 16 * 16 + 15) + 1 - pageStart.toNat := by
    bv_omega
  have hposition : (pageStart - address).toNat = pageStart.toNat - address.toNat := by
    bv_omega
  have hfits : pageStart.toNat % 16 +
      (min lastByte.toNat (pageStart.toNat / 16 * 16 + 15) + 1 - pageStart.toNat) ≤ 16 := by
    omega
  have hsome : (pageEnd lastByte pageStart - pageStart + 1).toNat ≠ 0 := by
    omega
  refine ⟨⟨pageStart.setWidth 8, (pageEnd lastByte pageStart - pageStart + 1).toNat⟩, ?_,
    (writePage_eq duration address _ _ buffer hsome hrest).trans ?_⟩
  · rw [WriteCommand.FitsPage, haddress8, hcount]
    exact hfits
  · rw [Chip.programmed, hposition, hcount, haddress8, PagedMemory.program_eq_store]
    · rfl
    · rw [length_bytesFrom]
      exact hfits

include hlast in
theorem last_page {pageStart : BitVec 32} (hstart : pageStart ≤ lastByte)
    (hdone : lastByte < pageEnd lastByte pageStart + 1) :
    pageNext lastByte.toNat pageStart.toNat = lastByte.toNat + 1 ∧
      pagesTouched pageStart.toNat lastByte.toNat = 1 := by
  rw [BitVec.le_def] at hstart
  rw [BitVec.lt_def, next_toNat hlast] at hdone
  rw [pageNext, pagesTouched]
  omega

include hlast in
/-- The write goes on behind its page, with one page less. -/
theorem following_page {pageStart : BitVec 32} (haddress : address ≤ pageStart)
    (hstart : pageStart ≤ lastByte) (hmore : ¬lastByte < pageEnd lastByte pageStart + 1) :
    address ≤ pageEnd lastByte pageStart + 1 ∧ pageEnd lastByte pageStart + 1 ≤ lastByte ∧
      lastByte.toNat - (pageEnd lastByte pageStart + 1).toNat < lastByte.toNat - pageStart.toNat ∧
      pagesTouched pageStart.toNat lastByte.toNat =
        1 + pagesTouched (pageEnd lastByte pageStart + 1).toNat lastByte.toNat := by
  rw [BitVec.le_def] at haddress hstart
  rw [BitVec.lt_def] at hmore
  rw [BitVec.le_def, BitVec.le_def, pagesTouched, pagesTouched]
  have hnext := next_toNat hlast pageStart
  omega

/-- One round of the loop. -/
theorem writePages_page {pageStart : BitVec 32} (haddress : address ≤ pageStart)
    (hstart : pageStart ≤ lastByte) {bus : Bus} (hrest : bus.chip.remaining = 0) :
    ∃ command : WriteCommand, command.FitsPage ∧
      writePages duration address lastByte hlast buffer pageStart bus =
        if duration bus.chip.internalWrites ≤ pollingLimit then
          if lastByte < pageEnd lastByte pageStart + 1 then
            (true, .closed (bus.chip.stored address.toNat pageStart.toNat
              (pageNext lastByte.toNat pageStart.toNat) 1 0 buffer) (bus.commands ++ [command]))
          else
            writePages duration address lastByte hlast buffer (pageEnd lastByte pageStart + 1)
              (.closed (bus.chip.stored address.toNat pageStart.toNat
                (pageNext lastByte.toNat pageStart.toNat) 1 0 buffer) (bus.commands ++ [command]))
        else
          (false, .closed (bus.chip.stored address.toNat pageStart.toNat
            (pageNext lastByte.toNat pageStart.toNat) 1 (duration bus.chip.internalWrites - 22)
              buffer) (bus.commands ++ [command])) := by
  obtain ⟨command, hfits, hpage⟩ :=
    writePage_inside duration address hlast buffer haddress hstart hrest
  refine ⟨command, hfits, ?_⟩
  rw [writePages, hpage, awaitWriteComplete_stored]
  by_cases hfirst : duration bus.chip.internalWrites ≤ pollingLimit
  · by_cases hdone : lastByte < pageEnd lastByte pageStart + 1
    · simp only [dif_pos hdone, if_pos hdone, if_pos hfirst]
    · simp only [dif_neg hdone, if_neg hdone, if_pos hfirst, if_true]
  · simp only [if_neg hfirst]
    split <;> rfl

theorem writePages_completes {pageStart : BitVec 32} (haddress : address ≤ pageStart)
    (hstart : pageStart ≤ lastByte) {bus : Bus} (hrest : bus.chip.remaining = 0)
    (hduration : ∀ k < pagesTouched pageStart.toNat lastByte.toNat,
      duration (bus.chip.internalWrites + k) ≤ pollingLimit) :
    ∃ commands : List WriteCommand, (∀ command ∈ commands, command.FitsPage) ∧
      writePages duration address lastByte hlast buffer pageStart bus =
        (true, .closed (bus.chip.stored address.toNat pageStart.toNat (lastByte.toNat + 1)
          (pagesTouched pageStart.toNat lastByte.toNat) 0 buffer) (bus.commands ++ commands)) := by
  induction hleft : lastByte.toNat - pageStart.toNat using Nat.strongRecOn
    generalizing pageStart bus with
  | ind left ih =>
    obtain ⟨command, hfits, hpage⟩ :=
      writePages_page duration address hlast buffer haddress hstart hrest
    have hfirst : duration bus.chip.internalWrites ≤ pollingLimit := hduration 0 (Nat.succ_pos _)
    rw [if_pos hfirst] at hpage
    by_cases hdone : lastByte < pageEnd lastByte pageStart + 1
    · obtain ⟨hall, hone⟩ := last_page hlast hstart hdone
      refine ⟨[command], by simpa using hfits, hpage.trans ?_⟩
      rw [if_pos hdone, hall, hone]
    · obtain ⟨haddress', hstart', hless, hpages⟩ :=
        following_page address hlast haddress hstart hdone
      have hrest' : (Bus.closed (bus.chip.stored address.toNat pageStart.toNat
          (pageNext lastByte.toNat pageStart.toNat) 1 0 buffer)
          (bus.commands ++ [command])).chip.remaining = 0 := rfl
      obtain ⟨commands, hcommands, hwritten⟩ := ih _ (hleft ▸ hless) haddress' hstart' hrest'
        (fun k hk => by
          have hk' := hduration (1 + k) (by omega)
          rwa [← Nat.add_assoc] at hk') rfl
      have hafter : (pageEnd lastByte pageStart + 1).toNat =
          pageNext lastByte.toNat pageStart.toNat := next_toNat hlast pageStart
      have hnext : pageStart.toNat ≤ pageNext lastByte.toNat pageStart.toNat ∧
          pageNext lastByte.toNat pageStart.toNat ≤ lastByte.toNat + 1 := by
        rw [BitVec.le_def] at hstart hstart'
        omega
      have hstored := bus.chip.stored_stored 1
        (pagesTouched (pageEnd lastByte pageStart + 1).toNat lastByte.toNat) 0 buffer
        (BitVec.le_def.mp haddress) hnext.1 hnext.2
      refine ⟨command :: commands, List.forall_mem_cons.mpr ⟨hfits, hcommands⟩, ?_⟩
      rw [hpage, if_neg hdone, hwritten, hpages, ← hstored, hafter]
      simp only [Bus.closed, List.append_assoc, List.singleton_append]

theorem writePages_gives_up {pageStart : BitVec 32} (haddress : address ≤ pageStart)
    (hstart : pageStart ≤ lastByte) {bus : Bus} (hrest : bus.chip.remaining = 0)
    (hduration : ∃ k < pagesTouched pageStart.toNat lastByte.toNat,
      pollingLimit < duration (bus.chip.internalWrites + k)) :
    (writePages duration address lastByte hlast buffer pageStart bus).1 = false ∧
      (writePages duration address lastByte hlast buffer pageStart bus).2.selected = false := by
  induction hleft : lastByte.toNat - pageStart.toNat using Nat.strongRecOn
    generalizing pageStart bus with
  | ind left ih =>
    obtain ⟨command, -, hpage⟩ :=
      writePages_page duration address hlast buffer haddress hstart hrest
    rw [hpage]
    by_cases hfirst : duration bus.chip.internalWrites ≤ pollingLimit
    · obtain ⟨k, hk, hlong⟩ := hduration
      cases k with
      | zero => exact absurd hfirst (Nat.not_le.mpr hlong)
      | succ k =>
        have hmore : ¬lastByte < pageEnd lastByte pageStart + 1 := by
          intro hdone
          have hone := (last_page hlast hstart hdone).2
          omega
        obtain ⟨haddress', hstart', hless, hpages⟩ :=
          following_page address hlast haddress hstart hmore
        rw [if_pos hfirst, if_neg hmore]
        refine ih _ (hleft ▸ hless) haddress' hstart' rfl ⟨k, by omega, ?_⟩ rfl
        change pollingLimit < duration (bus.chip.internalWrites + 1 + k)
        rwa [Nat.add_assoc, Nat.add_comm 1 k]
    · rw [if_neg hfirst]
      exact ⟨rfl, rfl⟩

end Loop

end Driver

end Lucidac.EEPROM25AA02
