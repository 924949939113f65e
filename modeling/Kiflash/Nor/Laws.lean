import Kiflash.Nor.Protocol
import Kiflash.Responsive
import Kiflash.Writing

/-!
# What holds of the NOR flash

The device satisfies the assumptions of the modules before it.

* `Nor.quiet`, `Nor.exactReads` — whatever its faults: a page read that went well delivers the
  page, because it follows a successful wait.
* `Nor.responsive` — without faults, once the driver is started.
* `sectorErase_mem`, `dieErase_mem`, `programPage_mem` — what a successful erase and a
  successful page program leave, where no write command goes wrong.

### Why a success is enough

A busy flash drops a read and answers with noise, and no status tells the host.  That the page
arrives is a matter of the order of the commands: `SpiFlashRead` has waited for the ready bit
just before its frame, and the flash has seen nothing since.  `exactReads` is therefore about
the function and not about a transfer, and it holds for a device with any faults.

### One write command in a run

`Writes command before w w'` says that a run has one write command in it that the flash
carries out, with bookkeeping around it.  A successful erase and a successful page program are
such runs, and what they do to the cells is then what the command does, or its misfire.  The
protocol of `Kiflash.Nor.Protocol` provides what is needed for the command to be obeyed: the
flash is idle, its latch is set, and its mode is right.
-/

open Imperative Imperative.Prog NorFlash

namespace Kiflash

namespace Nor

variable {p : NorParams} {env : Env}

/-! ## Reading -/

/-- Of the write commands, the bookkeeping uses the write of the status register only. -/
theorem writeOps_housekeeping {cmd : UInt8} (h : cmd ∈ housekeepingCommands) (hop : cmd ∈ writeOps) :
    cmd = commandWriteStatusRegister := by
  rcases hop with rfl | rfl | rfl | rfl | rfl
  · exact absurd h (by simp [housekeepingCommands]; decide)
  · exact absurd h (by simp [housekeepingCommands]; decide)
  · exact absurd h (by simp [housekeepingCommands]; decide)
  · exact absurd h (by simp [housekeepingCommands]; decide)
  · rfl

/-- Reading frames change nothing. -/
theorem not_mem_footprint_reading (x : ℕ) : ∀ frame ∈ readingFrames, x ∉ footprint frame := by
  refine not_mem_footprint ?_ x
  rintro cmd (rfl | hcmd) hop
  · exact absurd hop (by simp [writeOps]; decide)
  · exact writeOps_housekeeping hcmd hop

/-- Reading frames and driver calls leave the contents alone. -/
theorem quiet : Quiet (content : Nor p → UInt32 → UInt8) := by
  intro d d' h
  funext addr
  exact mem_of_busStep (not_mem_footprint_reading _) h

/-- The cell `k` places on from a 32-bit address. -/
theorem content_add (d : Nor p) (addr : UInt32) (k : ℕ) :
    d.content (addr + UInt32.ofNat k) = d.mem ((addr.toNat + k) % flashSize) := by
  have hmod : (addr + UInt32.ofNat k).toNat % flashSize = (addr.toNat + k) % flashSize := by
    rw [UInt32.toNat_add, UInt32.toNat_ofNat', flashSize]
    omega
  rw [content, hmod]

/-- The answer of an idle flash to the frame of a page read.  Five bytes of command and
address and four dummy bytes go out before the first byte of the page comes in. -/
theorem answer_read {d : Nor p} (h : d.wip = 0) (addr : UInt32) {stale : List UInt8}
    {k : ℕ} (hk : 4 + k < stale.length) :
    (d.answer (command4byteQuadOutputFastRead :: addrBytes addr ++ stale))[9 + k]? =
      some (d.content (addr + UInt32.ofNat k)) := by
  have hstatus : command4byteQuadOutputFastRead ≠ commandStatusregRead := by decide
  have htake : (addrBytes addr ++ stale).take 4 = addrBytes addr :=
    List.take_left' (addrBytes_length addr)
  have hlt : 9 + k < (addrBytes addr ++ stale).length + 1 := by
    rw [List.length_append, addrBytes_length]
    omega
  have hcond : command4byteQuadOutputFastRead = command4byteQuadOutputFastRead ∧ d.wip = 0 ∧
      9 ≤ 9 + k := ⟨rfl, h, Nat.le_add_right 9 k⟩
  rw [List.cons_append, answer, if_neg hstatus, List.getElem?_map, List.getElem?_range hlt,
    Option.map_some, if_pos hcond, htake, address_addrBytes, Nat.add_sub_cancel_left, content_add]

/-- **A page read that succeeds delivers the page**, on any device.  The wait in front of the
read has found the flash ready, so the frame is answered, and the commands in front of the
wait have not changed the cells. -/
theorem exactReads (p : NorParams) (env : Env) :
    ExactReads env (content : Nor p → UInt32 → UInt8) where
  quiet := quiet
  read := by
    intro addr w w' h k hk
    obtain ⟨w₀, w₁, stale, stored, bus, h₀, hwait, hstale, htransfer, -, hbuffer⟩ :=
      spiFlashRead_success fullDuplex h
    have hready : Knows true false false w₁.bus :=
      spiFlashWaitForFlashReady_conforms.of_success (knows_nothing _) hwait
    have hbefore : content w₁.bus = content w.bus := quiet.talks housekeeping_subset
      (trans_of _ h₀ ((spiFlashWaitForFlashReady_talks statusFrames_subset).of_eq hwait))
    obtain ⟨-, -, rfl, -⟩ := transfer_success htransfer
    rw [hbuffer _ (by omega), if_pos rfl, overlay, if_pos (Nat.zero_le _), Nat.sub_zero,
      answer_read (hready.wip rfl) addr (by omega), Option.getD_some, hbefore]

/-! ## Staying in a part of the flash -/

variable {cells : Set ℕ}

/-- The bookkeeping stays in any part of the flash. -/
theorem housekeeping_subset_framesWithin : housekeeping ⊆ framesWithin cells :=
  fun frame hframe x hx =>
    absurd hx (not_mem_footprint (fun _ hcmd hop => writeOps_housekeeping hcmd hop) x frame hframe)

/-- A read does as well. -/
theorem says_read_framesWithin : Says (framesWithin cells) command4byteQuadOutputFastRead :=
  says_read.mono fun frame hframe x hx => absurd hx (not_mem_footprint_reading x frame hframe)

/-- Calls of the driver with such frames. -/
theorem mem_of_framesWithin {d d' : Nor p} {x : ℕ} (hx : x ∉ cells)
    (h : Relation.ReflTransGen (BusStep (framesWithin cells)) d d') : d'.mem x = d.mem x := by
  refine mem_of_busSteps (fun frame hframe hfoot => hx ?_) h
  have hsub : footprint frame ⊆ cells := hframe
  exact hsub hfoot

/-! ## Answering -/

/-- The driver is started, and the flash is ready after less than `rounds` polls.  Under this
a wait comes to its end within the rounds that are followed. -/
structure Answering (rounds : ℕ) (d : Nor p) : Prop where
  started : d.started = true
  wip : d.wip < rounds

/-- A command leaves the driver started, and the flash busy for less than the rounds.  What a
write command adds to the busy time is bounded by the parameters. -/
theorem execute_answering {rounds : ℕ} (hbusy : ∀ n, p.busy n < rounds) {d : Nor p}
    (h : Answering rounds d) (frame : List UInt8) : Answering rounds (d.execute frame).tick := by
  refine ⟨(d.execute_started frame).trans h.started, ?_⟩
  have hwip := h.wip
  cases frame with
  | nil => exact hwip
  | cons cmd args =>
      rw [execute, tick_wip]
      rcases d.obey_cases cmd args with heq | heq | heq | heq | ⟨command, -, heq⟩ <;> rw [heq]
      · exact hwip
      · exact Nat.lt_of_le_of_lt (Nat.sub_le _ _) hwip
      · exact hwip
      · exact hwip
      · exact hbusy _

/-- Without faults, every transfer goes through. -/
theorem transfer_faultFree (hp : p.FaultFree) {d : Nor p} (h : d.started = true)
    (frame : List UInt8) (recv : Bool) :
    d.transfer frame recv =
      (some (.success, if recv then d.answer frame else []), (d.execute frame).tick) := by
  rw [transfer, if_pos h, hp.ends]

/-- **A device without faults answers.**  The measure of the polling loop is the busy time
that is left.  Each status read takes one off it, so a wait ends within as many rounds as a
write command keeps the device busy. -/
theorem responsive (hp : p.FaultFree) {rounds : ℕ} (hbusy : ∀ n, p.busy n < rounds) :
    Responsive rounds (Answering rounds : Nor p → Prop) fun d => d.wip where
  fullDuplex := fullDuplex
  polls_lt := fun h => h.wip
  transfer := fun frame recv h => ⟨_, _, transfer_faultFree hp h.started frame recv,
    execute_answering hbusy h frame⟩
  status := by
    intro d b stored d' h htransfer
    obtain ⟨-, -, rfl, rfl⟩ := transfer_success htransfer
    refine ⟨p.noise d.clock 0, d.statusByte, rfl, ?_⟩
    by_cases hwip : d.wip = 0
    · refine .inl ?_
      rw [statusByte, if_pos hwip]
      cases d.wel <;> decide
    · refine .inr ?_
      rw [tick_wip, execute, obey_statusRead]
      exact Nat.sub_lt (Nat.pos_of_ne_zero hwip) Nat.one_pos
  setSlaveSelect := fun h => ⟨_, rfl, h⟩
  start := by
    intro d h
    change Answering rounds d.start.2
    rwa [start, if_pos h.started]

end Nor

/-! ## Writing -/

section Writing

variable {p : NorParams} {env : Env} {w w' : World (Nor p)}

/-- Housekeeping leaves the cells alone. -/
theorem Nor.mem_of_housekeeping {d d' : Nor p}
    (h : Relation.ReflTransGen (BusStep housekeeping) d d') : d'.mem = d.mem := by
  funext x
  exact mem_of_busSteps (not_mem_footprint (fun _ hcmd hop => writeOps_housekeeping hcmd hop) x) h

/-- A run of bookkeeping. -/
theorem Talks.mem_eq (h : Talks housekeeping w w') : w'.bus.mem = w.bus.mem :=
  Nor.mem_of_housekeeping h.bus

/-- The write command of an erase frame in 4-byte mode. -/
theorem writeCommand_erase {cmd : UInt8} {size : ℕ} (addr : UInt32)
    (hcmd : cmd = commandSectorErase ∧ size = 0x10000 ∨ cmd = commandDieErase ∧ size = 0x4000000) :
    writeCommand true (cmd :: addrBytes addr) = some (.erase size (addr.toNat % flashSize)) := by
  rcases hcmd with ⟨rfl, rfl⟩ | ⟨rfl, rfl⟩
  · rw [writeCommand, if_neg (by decide), if_pos rfl, address_addrBytes]
    rfl
  · rw [writeCommand, if_neg (by decide), if_neg (by decide), if_pos rfl, address_addrBytes]
    rfl

/-- The write command of a page program.  It is the same in both modes, as its command byte
fixes the number of address bytes. -/
theorem writeCommand_program (fourByte : Bool) (addr : UInt32) {data : List UInt8}
    (h : data ≠ []) :
    writeCommand fourByte (command4bytePageProgram :: (addrBytes addr ++ data)) =
      some (.program (addr.toNat % flashSize) data) := by
  have hlen : 4 < (addrBytes addr ++ data).length := by
    have hpos := List.length_pos_iff.mpr h
    rw [List.length_append, addrBytes_length]
    omega
  rw [writeCommand, if_pos rfl, if_pos hlen, List.take_left' (addrBytes_length addr),
    List.drop_left' (addrBytes_length addr), address_addrBytes]

/-- A write frame that went through, sent with everything known. -/
theorem Nor.mem_of_write {d d' : Nor p} {cmd : UInt8} {args stored : List UInt8} {recv : Bool}
    {command : WriteCommand} (h : Knows true true true d)
    (hwrite : writeCommand true (cmd :: args) = some command)
    (htransfer : d.transfer (cmd :: args) recv = (some (.success, stored), d')) :
    d'.mem = command.apply (p.misfire d.clock) d.mem := by
  obtain ⟨-, -, -, rfl⟩ := transfer_success htransfer
  rw [tick_mem, execute, obey_write (h.wip rfl) (h.wel rfl) (by rw [h.mode rfl]; exact hwrite)]

/-- A write enable and a wait in 4-byte mode leave the flash ready for a write frame. -/
theorem knows_before_write {w₁ w₂ : World (Nor p)} (h : Knows true false true w.bus)
    (henable : spiFlashWriteEnable env w = (.ret .success, w₁))
    (hwait : spiFlashWaitForFlashReady env w₁ = (.ret .success, w₂)) :
    Knows true true true w₂.bus ∧ w₂.bus.mem = w.bus.mem := by
  refine ⟨spiFlashWaitForFlashReady_conforms.of_success
    (spiFlashWriteEnable_conforms.of_success h henable) hwait, Talks.mem_eq ?_⟩
  exact trans_of _ ((spiFlashWriteEnable_talks statusFrames_subset).of_eq henable)
    ((spiFlashWaitForFlashReady_talks statusFrames_subset).of_eq hwait)

/-- So does the register read in front of the frame of a die erase. -/
theorem knows_before_dieErase {w₁ w₂ : World (Nor p)}
    (hmode : spiFlash4bytemodeEnable env w = (.ret .success, w₁))
    (hread : enabledRegisterRead env commandReadExtendedAddress w₁ = (.ret .success, w₂)) :
    Knows true true true w₂.bus :=
  (enabledRegisterRead_conforms (.inl rfl)).of_success
    (spiFlash4bytemodeEnable_conforms.of_success (knows_nothing _) hmode) hread

/-- A run in which the flash carries out one write command, with housekeeping before and
after it.  `before` is the state in which it receives the command. -/
structure Writes (command : WriteCommand) (before : Nor p) (w w' : World (Nor p)) : Prop where
  mem : w'.bus.mem = command.apply (p.misfire before.clock) w.bus.mem
  events : ∃ frame es es', writeCommand before.fourByte frame = some command ∧
    w'.events = w.events ++ (es ++ .transfer before frame (some .success) :: es') ∧
    ∀ e ∈ es ++ es', e.Speaks housekeeping

/-- Bookkeeping around a run with one write command.  The cells in front of the command and
behind it are those of the whole run. -/
theorem Talks.writes {command : WriteCommand} {before : Nor p} {w₁ w₂ w₃ w₄ : World (Nor p)}
    (h : Talks housekeeping w₁ w₂) (hwrite : Writes command before w₂ w₃)
    (h' : Talks housekeeping w₃ w₄) : Writes command before w₁ w₄ := by
  obtain ⟨es₁, hes₁, hspeaks₁⟩ := h.events
  obtain ⟨frame, es, es', hcommand, hes, hspeaks⟩ := hwrite.events
  obtain ⟨es₂, hes₂, hspeaks₂⟩ := h'.events
  refine ⟨by rw [h'.mem_eq, hwrite.mem, h.mem_eq], frame, es₁ ++ es, es' ++ es₂, hcommand, ?_, ?_⟩
  · rw [hes₂, hes, hes₁]
    simp only [List.append_assoc, List.cons_append]
  · intro e he
    simp only [List.mem_append] at he hspeaks
    rcases he with (he | he) | he | he
    · exact hspeaks₁ e he
    · exact hspeaks e (.inl he)
    · exact hspeaks e (.inr he)
    · exact hspeaks₂ e he

/-- An erase frame behind a write enable, in 4-byte mode.  `GetStatus` is behind it, which is
bookkeeping as well. -/
theorem eraseCommand_writes {cmd : UInt8} {size : ℕ} {addr : UInt32}
    (hcmd : cmd = commandSectorErase ∧ size = 0x10000 ∨ cmd = commandDieErase ∧ size = 0x4000000)
    (hmode : Knows true false true w.bus)
    (h : eraseCommand env cmd addr w = (.ret .success, w')) :
    ∃ before, Writes (.erase size (addr.toNat % flashSize)) before w w' := by
  obtain ⟨w₁, henable, h⟩ := check_eq_ok.mp h
  obtain ⟨w₂, hwait, h⟩ := check_eq_ok.mp h
  have known := (knows_before_write hmode henable hwait).1
  have hbefore : Talks housekeeping w w₂ :=
    trans_of _ ((spiFlashWriteEnable_talks statusFrames_subset).of_eq henable)
      ((spiFlashWaitForFlashReady_talks statusFrames_subset).of_eq hwait)
  obtain ⟨_, _, hfill, hcommand⟩ := bind_eq_ret.mp h
  rw [fillWriteBuffer_eq (by simp [bufferSize])] at hfill
  cases hfill
  obtain ⟨w₃, w₄, hx, hinner, rfl⟩ := command_eq_success env hcommand
  obtain ⟨stored, bus, htransfer, rfl⟩ := xspiTransfer_eq_ret hx
  have frame : bytesOf (overlay w₂.writeBuffer 0 (cmd :: addrBytes addr))
      (sectorEraseBytes + 1) = cmd :: addrBytes addr :=
    bytesOf_overlay_length _ (cmd :: addrBytes addr)
  rw [frame] at htransfer hinner
  have hmem := Nor.mem_of_write known (writeCommand_erase addr hcmd) htransfer
  have hfour := writeCommand_erase addr hcmd
  rw [← known.mode rfl] at hfour
  have hafter := trans_of _ ((getStatus_talks statusFrames_subset).of_eq hinner)
    (Talks.of_buffers (rfl : { w₄ with transferInProgress := false } = _))
  exact ⟨w₂.bus, hbefore.writes ⟨hmem, cmd :: addrBytes addr, [], [], hfour, rfl, by simp⟩ hafter⟩

/-- **A successful sector erase** carries out one erase command.  The commands around it are
bookkeeping, and the flash is known to be ready, enabled and in the four-byte mode when it
comes. -/
theorem sectorErase_writes {addr : UInt32}
    (h : spiFlashSectorErase env addr w = (.ret .success, w')) :
    ∃ before, Writes (.erase 0x10000 (addr.toNat % flashSize)) before w w' := by
  obtain ⟨w₁, hmode, herase⟩ := check_eq_ok.mp h
  have known := spiFlash4bytemodeEnable_conforms.of_success (knows_nothing _) hmode
  obtain ⟨before, hwrite⟩ := eraseCommand_writes (.inl ⟨rfl, rfl⟩) known herase
  exact ⟨before, ((spiFlash4bytemodeEnable_talks subset_rfl).of_eq hmode).writes hwrite (refl_of _ _)⟩

/-- **A successful die erase** carries out one erase command.  It differs from the sector
erase in its size and in the register read behind the mode command. -/
theorem dieErase_writes {uscDieNr : UInt32}
    (h : spiFlashDieErase env uscDieNr w = (.ret .success, w')) :
    ∃ before, Writes (.erase 0x4000000 ((uscDieNr <<< 26).toNat % flashSize)) before w w' := by
  obtain ⟨w₁, hmode, h⟩ := check_eq_ok.mp h
  obtain ⟨w₂, hread, herase⟩ := check_eq_ok.mp h
  have known := knows_before_dieErase hmode hread
  have talks : Talks housekeeping w w₂ :=
    trans_of _ ((spiFlash4bytemodeEnable_talks subset_rfl).of_eq hmode)
      ((enabledRegisterRead_talks statusFrames_subset
        (says_housekeeping subset_rfl (by simp [housekeepingCommands]))).of_eq hread)
  obtain ⟨before, hwrite⟩ := eraseCommand_writes (.inr ⟨rfl, rfl⟩) known.forget_enabled herase
  exact ⟨before, talks.writes hwrite (refl_of _ _)⟩

/-- What a sector erase leaves, where nothing goes wrong. -/
theorem sectorErase_mem (hp : ∀ n, p.misfire n = none) {addr : UInt32}
    (h : spiFlashSectorErase env addr w = (.ret .success, w')) :
    w'.bus.mem = erase 0x10000 (addr.toNat % flashSize) w.bus.mem := by
  obtain ⟨before, hwrite⟩ := sectorErase_writes h
  rw [hwrite.mem, hp]
  rfl

/-- What a die erase leaves. -/
theorem dieErase_mem (hp : ∀ n, p.misfire n = none) {uscDieNr : UInt32}
    (h : spiFlashDieErase env uscDieNr w = (.ret .success, w')) :
    w'.bus.mem = erase 0x4000000 ((uscDieNr <<< 26).toNat % flashSize) w.bus.mem := by
  obtain ⟨before, hwrite⟩ := dieErase_writes h
  rw [hwrite.mem, hp]
  rfl

/-- **A successful write** programs its data into the page addressed.  Data that runs over the
end of the page goes on at its beginning.  On a device whose commands do not go wrong this is
all that changes. -/
theorem spiFlashWriteFile_mem (hp : ∀ n, p.misfire n = none) {addr byteCount : UInt32}
    {page : ℕ → UInt8} (hpos : 0 < byteCount.toNat) (hsize : byteCount.toNat + 5 ≤ bufferSize)
    (h : spiFlashWriteFile env addr byteCount command4bytePageProgram page w = (.ret .success, w')) :
    w'.bus.mem = program 256 (addr.toNat % flashSize) (bytesOf page byteCount.toNat) w.bus.mem := by
  obtain ⟨w₁, w₂, w₃, w₄, stored, hmode, henable, hwait, htransfer, -, hexit⟩ :=
    spiFlashWriteFile_success hsize h
  obtain ⟨known, hready⟩ := knows_before_write
    (spiFlash4bytemodeEnable_conforms.of_success (knows_nothing _) hmode) henable hwait
  have hbefore : w₃.bus.mem = w.bus.mem :=
    hready.trans ((spiFlash4bytemodeEnable_talks subset_rfl).of_eq hmode).mem_eq
  have hdata : bytesOf page byteCount.toNat ≠ [] := by
    rw [← List.length_pos_iff, bytesOf_length]
    exact hpos
  have hmem : w₄.bus.mem = program 256 (addr.toNat % flashSize) (bytesOf page byteCount.toNat)
      w₃.bus.mem := by
    rw [Nor.mem_of_write known (writeCommand_program true _ hdata) htransfer, hp]
    rfl
  rw [← hbefore, ← hmem]
  exact ((spiFlash4byteexit_talks subset_rfl).of_eq hexit).mem_eq

/-- **A successful page program.**  What goes into the page is what `fread` has left in the
page buffer, its end included. -/
theorem programPage_mem (hp : ∀ n, p.misfire n = none) {baseAddr startAddr : UInt32} {file : File}
    (h : programPage env baseAddr file startAddr w = (.ret .success, w')) :
    w'.bus.mem = program 256 ((startAddr + baseAddr).toNat % flashSize)
      (bytesOf (fread file startAddr (env.malloc w.mallocs)) 256) w.bus.mem := by
  obtain ⟨_, _, ⟨⟩, h⟩ := bind_eq_ret.mp h
  obtain ⟨w₁, hfirst, hwrite⟩ := check_eq_ok.mp h
  have hsame : w₁.bus.mem = w.bus.mem :=
    ((spiFlashWriteEnable_talks statusFrames_subset).of_eq hfirst).mem_eq
  rw [spiFlashWriteFile_mem hp (by decide) (by decide) hwrite, hsame]
  rfl

end Writing

end Kiflash
