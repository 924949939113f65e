import Kiflash.Verify
import Kiflash.NorFlash.Contents

/-!
# A NOR flash behind the driver

`Nor p` is the driver, the core and the flash together, at the level of whole commands: a
transfer is one command, which the flash carries out or drops.

* `WriteCommand` — the commands that use up the write enable latch, with the cells that they
  cover.
* `Nor.obey`, `Nor.answer` — one command.
* `footprint` — the cells that a frame can change, whatever state it is sent in.

`NorParams` is what the device decides: which transfers fail, how long a command keeps the
flash busy, where a program or an erase goes wrong.

### A device that may do anything a device can do

The parameters are functions of the number of the transfer.  A statement for all of them is
one about every device: the faults are not random, and not independent of each other, and may
depend on what has gone before as that is known when the run is.  A program or an erase that
goes wrong leaves anything in the cells that it covers, and nothing elsewhere.

The two flags about the mode commands stand for a difference between chips.  Some ask for the
write enable latch in front of these commands and clear it behind them, and others do not; the
code enables writes in any case.

### Addresses

The flash has `2 ^ 28` cells, and a frame has four address bytes of which the upper four bits
are ignored.  So two 32-bit addresses may be the same cell, and `content` reads a cell by a
32-bit address as the verification does.

### What is left out

There is no timing.  The busy time of a command is counted in status reads, since these are
all that the code does with it.  The configuration registers, the identification and the flag
status register have no state: no function of the code acts on what they say.
-/

open NorFlash

namespace Kiflash

/-- How a transfer ends. -/
inductive TransferEnd where
  /-- The flash has the frame, and the driver reports success. -/
  | done
  /-- The driver reports failure, and the flash has seen nothing of the frame. -/
  | lost
  /-- The driver reports failure, but the flash has the frame. -/
  | late
  deriving DecidableEq, Repr

/-- What the device decides, by the number of the transfer.  A theorem for all parameters is
one for all devices, however they fail and however long they take. -/
structure NorParams where
  ends : ℕ → TransferEnd
  /-- The status reads that find the flash busy after a write command. -/
  busy : ℕ → ℕ
  /-- What a write command leaves in the cells it covers where it goes wrong. -/
  misfire : ℕ → Option (ℕ → UInt8)
  /-- Whether the two mode commands are dropped without the write enable latch. -/
  modeNeedsWel : Bool
  /-- Whether the two mode commands clear the write enable latch. -/
  modeClearsWel : Bool
  /-- The bytes received that carry no data. -/
  noise : ℕ → ℕ → UInt8

/-- The device has no faults: every transfer goes through, and no write command goes wrong.
It may be busy for any time. -/
structure NorParams.FaultFree (p : NorParams) : Prop where
  ends : ∀ n, p.ends n = .done
  misfire : ∀ n, p.misfire n = none

/-- A device without faults that is never busy.  The examples and the witnesses run on it. -/
def NorParams.swift : NorParams where
  ends _ := .done
  busy _ := 0
  misfire _ := none
  modeNeedsWel := true
  modeClearsWel := true
  noise _ _ := 0

theorem NorParams.swift_faultFree : NorParams.swift.FaultFree := ⟨fun _ => rfl, fun _ => rfl⟩

/-- The number of cells: higher address bits are ignored.  The chip has 2 Gbit, in four
dies. -/
def flashSize : ℕ := 2 ^ 28

theorem flashSize_eq : flashSize = 268435456 := rfl

/-- The number that address bytes stand for, most significant first, as the commands send
them. -/
def address (bytes : List UInt8) : ℕ := bytes.foldl (fun a b => 256 * a + b.toNat) 0

/-- The address bytes of a frame stand for the address that they were made from. -/
theorem address_addrBytes (addr : UInt32) : address (addrBytes addr) = addr.toNat := by
  have hlt := addr.toNat_lt
  simp only [address, addrBytes, List.foldl_cons, List.foldl_nil, UInt32.toNat_toUInt8,
    UInt32.toNat_shiftRight, Nat.shiftRight_eq_div_pow, UInt32.reduceToNat, Nat.reduceMod,
    Nat.reducePow]
  omega

/-! ## Write commands -/

/-- A command that uses up the write enable latch.  These are the commands that can leave the
flash busy. -/
inductive WriteCommand where
  | program (addr : ℕ) (data : List UInt8)
  | erase (size addr : ℕ)
  | statusRegister

namespace WriteCommand

/-- The command covers the cell `x`.  A write of the status register covers none. -/
def Covers : WriteCommand → ℕ → Prop
  | program addr _, x => InBlock 256 addr x
  | erase size addr, x => InBlock size addr x
  | statusRegister, _ => False

instance : (command : WriteCommand) → (x : ℕ) → Decidable (command.Covers x)
  | program addr _, x => inferInstanceAs (Decidable (InBlock 256 addr x))
  | erase size addr, x => inferInstanceAs (Decidable (InBlock size addr x))
  | statusRegister, _ => inferInstanceAs (Decidable False)

/-- The cells after the command.  Where it goes wrong, the cells that it covers hold what the
device leaves in them. -/
def apply (command : WriteCommand) (misfire : Option (ℕ → UInt8)) (m : ℕ → UInt8) : ℕ → UInt8 :=
  match misfire with
  | some left => fun x => if command.Covers x then left x else m x
  | none =>
    match command with
    | program addr data => NorFlash.program 256 addr data m
    | erase size addr => NorFlash.erase size addr m
    | statusRegister => m

/-- A command touches the cells that it covers. -/
theorem apply_of_not_covers {command : WriteCommand} {x : ℕ} (h : ¬ command.Covers x)
    (misfire : Option (ℕ → UInt8)) (m : ℕ → UInt8) : command.apply misfire m x = m x := by
  cases misfire with
  | some left => exact if_neg h
  | none =>
      cases command with
      | program addr data => exact program_of_not_inBlock h
      | erase size addr => exact erase_of_not_inBlock h
      | statusRegister => rfl

end WriteCommand

/-- The write command in a frame.  A sector or a die is erased only if the frame has as
many address bytes as the mode asks for. -/
def writeCommand (fourByte : Bool) : List UInt8 → Option WriteCommand
  | [] => none
  | cmd :: args =>
    if cmd = command4bytePageProgram then
      if 4 < args.length then some (.program (address (args.take 4) % flashSize) (args.drop 4))
      else none
    else if cmd = commandSectorErase then
      if args.length = (if fourByte then 4 else 3) then
        some (.erase 0x10000 (address args % flashSize))
      else none
    else if cmd = commandDieErase then
      if args.length = (if fourByte then 4 else 3) then
        some (.erase 0x4000000 (address args % flashSize))
      else none
    else if cmd = commandBulkErase then some (.erase flashSize 0)
    else if cmd = commandWriteStatusRegister then some .statusRegister
    else none

/-- The command bytes of the write commands, as far as the program sends them. -/
def writeOps : Set UInt8 :=
  {command4bytePageProgram, commandSectorErase, commandDieErase, commandBulkErase,
    commandWriteStatusRegister}

/-- The other commands are no write commands. -/
theorem writeCommand_of_not_mem {cmd : UInt8} (h : cmd ∉ writeOps) (fourByte : Bool)
    (args : List UInt8) : writeCommand fourByte (cmd :: args) = none := by
  simp only [writeOps, Set.mem_insert_iff, Set.mem_singleton_iff, not_or] at h
  rw [writeCommand, if_neg h.1, if_neg h.2.1, if_neg h.2.2.1, if_neg h.2.2.2.1, if_neg h.2.2.2.2]

/-- The cells that a frame can change.  The address mode counts, as the same erase frame is a
command in one mode and none in the other. -/
def footprint (frame : List UInt8) : Set ℕ :=
  {x | ∃ fourByte command, writeCommand fourByte frame = some command ∧ command.Covers x}

/-- The other frames change nothing, and neither does a write of the status register.  The
condition is on the first bytes alone, so it is checked once for each list of commands. -/
theorem not_mem_footprint {ops : Set UInt8}
    (hops : ∀ cmd ∈ ops, cmd ∈ writeOps → cmd = commandWriteStatusRegister) (x : ℕ) :
    ∀ frame ∈ framesOf ops, x ∉ footprint frame := by
  rintro frame hframe ⟨fourByte, command, hwrite, hcovers⟩
  cases frame with
  | nil => cases hwrite
  | cons cmd args =>
      by_cases hcmd : cmd ∈ writeOps
      · rw [hops cmd (hframe cmd rfl) hcmd, writeCommand] at hwrite
        cases hwrite
        exact hcovers
      · rw [writeCommand_of_not_mem hcmd] at hwrite
        cases hwrite

/-- The page around the address of a program frame. -/
theorem footprint_program (addr : UInt32) (data : List UInt8) :
    footprint (command4bytePageProgram :: addrBytes addr ++ data) ⊆
      {x | InBlock 256 (addr.toNat % flashSize) x} := by
  rintro x ⟨fourByte, command, hwrite, hcovers⟩
  rw [List.cons_append, writeCommand, if_pos rfl] at hwrite
  split_ifs at hwrite with hdata
  cases hwrite
  rwa [List.take_left' (addrBytes_length addr), address_addrBytes] at hcovers

/-- The sector around the address of an erase frame. -/
theorem footprint_sectorErase (addr : UInt32) :
    footprint (commandSectorErase :: addrBytes addr) ⊆
      {x | InBlock 0x10000 (addr.toNat % flashSize) x} := by
  rintro x ⟨fourByte, command, hwrite, hcovers⟩
  rw [writeCommand, if_neg (by decide), if_pos rfl] at hwrite
  split_ifs at hwrite <;>
  · cases hwrite
    rwa [address_addrBytes] at hcovers

/-- The die around the address of an erase frame. -/
theorem footprint_dieErase (addr : UInt32) :
    footprint (commandDieErase :: addrBytes addr) ⊆
      {x | InBlock 0x4000000 (addr.toNat % flashSize) x} := by
  rintro x ⟨fourByte, command, hwrite, hcovers⟩
  rw [writeCommand, if_neg (by decide), if_neg (by decide), if_pos rfl] at hwrite
  split_ifs at hwrite <;>
  · cases hwrite
    rwa [address_addrBytes] at hcovers

/-- The frames that cannot change anything outside `cells`.  Isolation of a region is that
every frame of a run is one of them. -/
def framesWithin (cells : Set ℕ) : Set (List UInt8) := {frame | footprint frame ⊆ cells}

/-! ## The device -/

/-- The state of the device.  The cells are a function of all numbers, of which only those
below `flashSize` are ever looked at. -/
structure Nor (p : NorParams) where
  mem : ℕ → UInt8
  /-- The status reads that will still find the flash busy. -/
  wip : ℕ
  wel : Bool
  fourByte : Bool
  /-- The transfers so far. -/
  clock : ℕ
  /-- `IsStarted` of the driver instance. -/
  started : Bool

namespace Nor

variable {p : NorParams}

/-- An idle flash with these cells, behind a started driver: not busy, the latch clear, and in
three-byte address mode. -/
def idle (p : NorParams) (mem : ℕ → UInt8) : Nor p where
  mem := mem
  wip := 0
  wel := false
  fourByte := false
  clock := 0
  started := true

/-- The bytes of the flash by their 32-bit address.  Addresses beyond the size of the flash
wrap, as on the chip. -/
def content (d : Nor p) (addr : UInt32) : UInt8 := d.mem (addr.toNat % flashSize)

/-- The status register: `WIP` and `WEL`.  The driver looks at the first of them only. -/
def statusByte (d : Nor p) : UInt8 :=
  (if d.wip = 0 then 0 else 0x01) ||| (if d.wel then 0x02 else 0)

/-- What becomes of the flash when it has the command `cmd` with `args` behind it.  Busy, it
takes notice of a status read only; without the latch it drops a write command. -/
def obey (d : Nor p) (cmd : UInt8) (args : List UInt8) : Nor p :=
  if cmd = commandStatusregRead then { d with wip := d.wip - 1 }
  else if d.wip ≠ 0 then d
  else if cmd = commandWriteEnable then { d with wel := true }
  else if cmd = commandEnter4byteAddressMode ∨ cmd = commandExit4byteAddressMode then
    if p.modeNeedsWel && !d.wel then d
    else
      { d with
        fourByte := cmd = commandEnter4byteAddressMode
        wel := d.wel && !p.modeClearsWel }
  else
    match writeCommand d.fourByte (cmd :: args) with
    | none => d
    | some command =>
      if d.wel then
        { d with
          mem := command.apply (p.misfire d.clock) d.mem
          wip := p.busy d.clock
          wel := false }
      else d

/-- What becomes of the flash when it has the frame.  The first byte is the command; a frame
without bytes does nothing. -/
def execute (d : Nor p) : List UInt8 → Nor p
  | [] => d
  | cmd :: args => d.obey cmd args

/-- What is received while the frame is sent.  A read has its data behind the command, the
address and four dummy bytes. -/
def answer (d : Nor p) : List UInt8 → List UInt8
  | [] => []
  | cmd :: args =>
    if cmd = commandStatusregRead then p.noise d.clock 0 :: args.map fun _ => d.statusByte
    else (List.range (args.length + 1)).map fun i =>
      if cmd = command4byteQuadOutputFastRead ∧ d.wip = 0 ∧ 9 ≤ i then
        d.mem ((address (args.take 4) + (i - 9)) % flashSize)
      else p.noise d.clock i

/-- A transfer has been counted.  The counter is what the parameters are indexed by. -/
def tick (d : Nor p) : Nor p := { d with clock := d.clock + 1 }

/-- A transfer.  A driver that has not been started refuses.  The three ends are told apart by
what the flash has seen and what the driver says of it. -/
def transfer (frame : List UInt8) (recv : Bool) (d : Nor p) : Option (Xst × List UInt8) × Nor p :=
  if d.started then
    match p.ends d.clock with
    | .done => (some (.success, if recv then d.answer frame else []), (d.execute frame).tick)
    | .lost => (some (.failure, []), d.tick)
    | .late => (some (.failure, []), (d.execute frame).tick)
  else (some (.deviceIsStopped, []), d)

/-- `XSpi_Start`, as far as the flash code can tell. -/
def start (d : Nor p) : Xst × Nor p :=
  if d.started then (.deviceIsStarted, d) else (.success, { d with started := true })

@[simp] theorem tick_mem (d : Nor p) : d.tick.mem = d.mem := rfl

@[simp] theorem tick_wip (d : Nor p) : d.tick.wip = d.wip := rfl

@[simp] theorem tick_wel (d : Nor p) : d.tick.wel = d.wel := rfl

@[simp] theorem tick_fourByte (d : Nor p) : d.tick.fourByte = d.fourByte := rfl

@[simp] theorem tick_started (d : Nor p) : d.tick.started = d.started := rfl

end Nor

instance {p : NorParams} : XSpiDriver (Nor p) where
  xspiPciInitialize d := d
  xspiCfgInitialize _ d := (if d.started then .deviceIsStarted else .success, d)
  xspiSetOptions _ d := (.success, d)
  xspiSetSlaveSelect _ d := (.success, d)
  xspiStart d := d.start
  xspiTransfer _ frame recv d := d.transfer frame recv
  pciWriteReg _ _ d := d

namespace Nor

variable {p : NorParams} {d d' : Nor p} {frame : List UInt8} {recv : Bool}

/-- A transfer that the driver reports as successful.  The other two ends and a driver that is
not started report something else. -/
theorem transfer_success {stored : List UInt8}
    (h : d.transfer frame recv = (some (.success, stored), d')) :
    d.started = true ∧ p.ends d.clock = .done ∧ stored = (if recv then d.answer frame else []) ∧
      d' = (d.execute frame).tick := by
  unfold transfer at h
  by_cases hstarted : d.started = true
  · rw [if_pos hstarted] at h
    cases hends : p.ends d.clock with
    | done =>
        rw [hends] at h
        cases h
        exact ⟨hstarted, rfl, rfl, rfl⟩
    | lost | late =>
        rw [hends] at h
        cases h
  · rw [if_neg hstarted] at h
    cases h

/-- The state after a transfer, however it ended. -/
theorem transfer_cases (frame : List UInt8) (recv : Bool) (d : Nor p) :
    (d.transfer frame recv).2 = d ∨ (d.transfer frame recv).2 = d.tick ∨
      (d.transfer frame recv).2 = (d.execute frame).tick := by
  unfold transfer
  by_cases hstarted : d.started = true
  · rw [if_pos hstarted]
    cases p.ends d.clock with
    | done => exact .inr (.inr rfl)
    | lost => exact .inr (.inl rfl)
    | late => exact .inr (.inr rfl)
  · rw [if_neg hstarted]
    exact .inl rfl

/-- SPI is full duplex: as many bytes come in as go out. -/
theorem answer_length (d : Nor p) (frame : List UInt8) : (d.answer frame).length = frame.length := by
  cases frame with
  | nil => rfl
  | cons cmd args =>
      rw [answer]
      split_ifs <;> simp

/-- So the driver stores no more bytes than it sends.  An answer is as long as the frame it
belongs to. -/
theorem fullDuplex : FullDuplex (Nor p) := by
  intro rounds frame recv d status stored d' h
  change d.transfer frame recv = _ at h
  unfold transfer at h
  split_ifs at h with hstarted hrecv
  · cases hends : p.ends d.clock <;> rw [hends] at h <;> cases h
    · exact (d.answer_length frame).le
    · exact Nat.zero_le _
    · exact Nat.zero_le _
  · cases hends : p.ends d.clock <;> rw [hends] at h <;> cases h <;> exact Nat.zero_le _
  · cases h
    exact Nat.zero_le _

/-! ## One command -/

/-- A status read is answered while the flash is busy, too. -/
theorem obey_statusRead (d : Nor p) (args : List UInt8) :
    d.obey commandStatusregRead args = { d with wip := d.wip - 1 } := if_pos rfl

/-- An idle flash sets its latch. -/
theorem obey_writeEnable (h : d.wip = 0) (args : List UInt8) :
    d.obey commandWriteEnable args = { d with wel := true } := by
  rw [obey, if_neg (by decide), if_neg (not_not.mpr h), if_pos rfl]

/-- With the latch set, an idle flash switches its mode. -/
theorem obey_mode {cmd : UInt8}
    (hcmd : cmd = commandEnter4byteAddressMode ∨ cmd = commandExit4byteAddressMode)
    (h : d.wip = 0) (hwel : d.wel = true) (args : List UInt8) :
    d.obey cmd args =
      { d with fourByte := cmd = commandEnter4byteAddressMode, wel := !p.modeClearsWel } := by
  have hstatus : cmd ≠ commandStatusregRead := by rcases hcmd with rfl | rfl <;> decide
  have henable : cmd ≠ commandWriteEnable := by rcases hcmd with rfl | rfl <;> decide
  rw [obey, if_neg hstatus, if_neg (not_not.mpr h), if_neg henable, if_pos hcmd, hwel]
  simp

/-- A write command finds the flash idle and the latch set.  It uses the latch up, and the
flash is busy for as long as the device decides. -/
theorem obey_write {cmd : UInt8} {args : List UInt8} {command : WriteCommand}
    (h : d.wip = 0) (hwel : d.wel = true)
    (hwrite : writeCommand d.fourByte (cmd :: args) = some command) :
    d.obey cmd args = { d with
      mem := command.apply (p.misfire d.clock) d.mem
      wip := p.busy d.clock
      wel := false } := by
  have hcmd : cmd ∈ writeOps := by
    by_contra hcmd
    rw [writeCommand_of_not_mem hcmd] at hwrite
    cases hwrite
  have hother : cmd ≠ commandStatusregRead ∧ cmd ≠ commandWriteEnable ∧
      ¬ (cmd = commandEnter4byteAddressMode ∨ cmd = commandExit4byteAddressMode) := by
    rcases hcmd with rfl | rfl | rfl | rfl | rfl <;> decide
  obtain ⟨hstatus, henable, hmode⟩ := hother
  rw [obey, if_neg hstatus, if_neg (not_not.mpr h), if_neg henable, if_neg hmode, hwrite]
  exact if_pos hwel

/-- What a command does is one of five things.  Every invariant of the device is shown by
these cases. -/
theorem obey_cases (d : Nor p) (cmd : UInt8) (args : List UInt8) :
    d.obey cmd args = d ∨
    d.obey cmd args = { d with wip := d.wip - 1 } ∨
    d.obey cmd args = { d with wel := true } ∨
    d.obey cmd args = { d with
      fourByte := cmd = commandEnter4byteAddressMode
      wel := d.wel && !p.modeClearsWel } ∨
    ∃ command, writeCommand d.fourByte (cmd :: args) = some command ∧
      d.obey cmd args = { d with
        mem := command.apply (p.misfire d.clock) d.mem
        wip := p.busy d.clock
        wel := false } := by
  by_cases hwrite : ∃ command, writeCommand d.fourByte (cmd :: args) = some command
  · obtain ⟨command, hwrite⟩ := hwrite
    rw [obey, hwrite]
    split_ifs <;> simp
  · have hnone : writeCommand d.fourByte (cmd :: args) = none :=
      Option.eq_none_iff_forall_ne_some.mpr fun command h => hwrite ⟨command, h⟩
    rw [obey, hnone]
    split_ifs <;> simp

/-- Outside the footprint of a frame nothing changes. -/
theorem execute_mem {x : ℕ} (h : x ∉ footprint frame) : (d.execute frame).mem x = d.mem x := by
  cases frame with
  | nil => rfl
  | cons cmd args =>
      rw [execute]
      rcases d.obey_cases cmd args with heq | heq | heq | heq | ⟨command, hwrite, heq⟩ <;> rw [heq]
      exact command.apply_of_not_covers (fun hcovers => h ⟨_, _, hwrite, hcovers⟩) _ _

/-- A command has nothing to do with the driver. -/
theorem execute_started (d : Nor p) (frame : List UInt8) : (d.execute frame).started = d.started := by
  cases frame with
  | nil => rfl
  | cons cmd args =>
      rw [execute]
      rcases d.obey_cases cmd args with heq | heq | heq | heq | ⟨command, -, heq⟩ <;> rw [heq]

/-! ## What a driver call can change -/

/-- Outside the footprints of the frames nothing changes.  A step is a call of the driver, and
only a transfer hands a frame to the flash. -/
theorem mem_of_busStep {A : Set (List UInt8)} {x : ℕ} (hA : ∀ frame ∈ A, x ∉ footprint frame)
    (h : BusStep A d d') : d'.mem x = d.mem x := by
  cases h with
  | transfer rounds frame recv _ hframe =>
      change (d.transfer frame recv).2.mem x = d.mem x
      rcases transfer_cases frame recv d with heq | heq | heq <;> rw [heq]
      · rfl
      · exact execute_mem (hA frame hframe)
  | pciInitialize | setOptions | setSlaveSelect | cfgInitialize => rfl
  | start =>
      change d.start.2.mem x = _
      unfold start
      split_ifs <;> rfl

/-- The same of a run of driver calls. -/
theorem mem_of_busSteps {A : Set (List UInt8)} {x : ℕ} (hA : ∀ frame ∈ A, x ∉ footprint frame)
    (h : Relation.ReflTransGen (BusStep A) d d') : d'.mem x = d.mem x := by
  induction h with
  | refl => rfl
  | tail _ hstep ih => exact (mem_of_busStep hA hstep).trans ih

end Nor

end Kiflash
