import Kiflash.Machine

/-!
# The flash commands

The functions of `flash_qspi_rw.c` that talk to the flash, one definition for each.  They
share one shape, which is `command`: the frame is built in `WriteBuffer`, `XSpi_Transfer`
sends it, and the status, the spin on `TransferInProgress` and the test of `ErrorCount`
follow.  Every function does this after waiting for the flash to be ready, except the two
status reads and the nested calls spelled out below.

* `command` — the shape; `wp_command` is its rule.
* `spiFlashWaitForFlashReady` — the polling loop on the status register.
* `spiFlashWriteFile`, `spiFlashRead`, `eraseCommand` — a page program, a read, an erase.
* `systemInitStartup`, `ensureInit` — the startup, and the flag in front of it.
* `qspiReadFlash`, `spiBlankCheck` and the other operations of the menu that are built of
  commands.

### Reading the definitions

`check m k` stands for `Status = m; if (Status != XST_SUCCESS) return XST_FAILURE; k`.  A bare
`let _ ← m` is a call whose status the source drops, which happens in a few places: in
`GetStatus`, behind the read of the identification, at the start of the core, and in
`Spi_Blank_Check`.  Where two functions of the source differ in a constant only, they are one
definition here with that constant as a parameter, and each of them an instance of it.

The frame lengths are those of the source, also where they are longer than the command needs:
the extra bytes of a register read are sent as they stand in `WriteBuffer`.  What is printed
is left out, except for the dump, whose output is the point of the function.
-/

open Imperative Imperative.Prog

namespace Kiflash

/-! ## Command bytes and counts -/

/-- `COMMAND_STATUSREG_READ`.  The answer has the ready bit that every wait looks at. -/
def commandStatusregRead : UInt8 := 0x05
/-- `COMMAND_WRITE_ENABLE`.  It sets the latch without which an erase or a program is
refused. -/
def commandWriteEnable : UInt8 := 0x06
/-- `COMMAND_ENTER_QUAD_MODE`. -/
def commandEnterQuadMode : UInt8 := 0x35
/-- `COMMAND_ENTER_4BYTE_ADDRESS_MODE`.  From then on all commands have four address bytes. -/
def commandEnter4byteAddressMode : UInt8 := 0xB7
/-- `COMMAND_EXIT_4BYTE_ADDRESS_MODE`, back to three address bytes. -/
def commandExit4byteAddressMode : UInt8 := 0xE9
/-- `COMMAND_READ_FLAG_STATUS`. -/
def commandReadFlagStatus : UInt8 := 0x70
/-- `COMMAND_CLEAR_FLAG_STATUS`. -/
def commandClearFlagStatus : UInt8 := 0x50
/-- `COMMAND_READ_EXTENDED_ADDRESS`. -/
def commandReadExtendedAddress : UInt8 := 0xC8
/-- `COMMAND_WRITE_STATUS_REGISTER`. -/
def commandWriteStatusRegister : UInt8 := 0x01
/-- `COMMAND_4BYTE_PAGE_PROGRAM`. -/
def command4bytePageProgram : UInt8 := 0x12
/-- `COMMAND_READ_ID`. -/
def commandReadId : UInt8 := 0x9F
/-- `COMMAND_DUAL_READ`. -/
def commandDualRead : UInt8 := 0x3B
/-- `COMMAND_DUAL_IO_READ`. -/
def commandDualIoRead : UInt8 := 0xBB
/-- `COMMAND_QUAD_READ`. -/
def commandQuadRead : UInt8 := 0x6B
/-- `COMMAND_QUAD_IO_READ`. -/
def commandQuadIoRead : UInt8 := 0xEB
/-- `COMMAND_4BYTE_QUAD_OUTPUT_FAST_READ`. -/
def command4byteQuadOutputFastRead : UInt8 := 0x6C
/-- `COMMAND_SECTOR_ERASE`. -/
def commandSectorErase : UInt8 := 0xD8
/-- `COMMAND_BULK_ERASE`. -/
def commandBulkErase : UInt8 := 0xC7
/-- `COMMAND_DIE_ERASE`. -/
def commandDieErase : UInt8 := 0xC4

/-- `WRITE_ENABLE_BYTES`, the length of every command that is a single byte. -/
def writeEnableBytes : ℕ := 1
/-- `SECTOR_ERASE_BYTES`.  The erase functions send one byte more than this, for the fourth
address byte. -/
def sectorEraseBytes : ℕ := 4
/-- `BULK_ERASE_BYTES`. -/
def bulkEraseBytes : ℕ := 1
/-- `STATUS_READ_BYTES`: the command, and the register. -/
def statusReadBytes : ℕ := 2

/-- `DUAL_READ_DUMMY_BYTES`.  The blank check adds it to the index of a byte, though its reads
have five dummy bytes. -/
def dualReadDummyBytes : UInt32 := 2
/-- `QUAD_READ_DUMMY_BYTES`. -/
def quadReadDummyBytes : UInt32 := 4
/-- `QUAD_IO_READ_DUMMY_BYTES`, which is also what the four-byte quad read uses. -/
def quadIoReadDummyBytes : UInt32 := 5

/-- `FLASH_SR_IS_READY_MASK`, the write-in-progress bit of the status register.  It is clear
when the flash is ready. -/
def flashSrIsReadyMask : UInt8 := 0x01

/-- `SPI_SELECT`, the mask of the one flash on the bus. -/
def spiSelect : UInt32 := 0x01

/-- The four address bytes of a frame, most significant first.  All commands with an address
send four bytes, and so work in 4-byte address mode. -/
def addrBytes (addr : UInt32) : List UInt8 :=
  [(addr >>> 24).toUInt8, (addr >>> 16).toUInt8, (addr >>> 8).toUInt8, addr.toUInt8]

@[simp] theorem addrBytes_length (addr : UInt32) : (addrBytes addr).length = 4 := rfl

section Commands

variable {σ : Type} [XSpiDriver σ] (env : Env)

/-- The common tail of the command functions: send the first `byteCount` bytes of
`WriteBuffer`, and on success run `inner` before `TransferInProgress` is cleared.  Only the
two erase functions have something there.

A failed transfer leaves `TransferInProgress` set: the function returns before the store that
clears it. -/
def command (recv : Bool) (byteCount : ℕ) (inner : Prog (World σ) Xst) : Prog (World σ) Xst := do
  setTransferInProgress true
  check (xspiTransfer env recv byteCount) do
    let status ← inner
    setTransferInProgress false
    if status = .success then do
      awaitTransfer
      errorCheck
    else pure .failure

/-- `command` by its transfer: the flag is set before it and cleared after `inner`, and the
error counter decides in the end.  All results about single commands go through this rule. -/
theorem wp_command {recv : Bool} {byteCount : ℕ} {inner : Prog (World σ) Xst}
    {Q : Xst → World σ → Prop} {R : Stop → World σ → Prop} {w : World σ} :
    wp (command env recv byteCount inner) Q R w ↔
      wp (xspiTransfer env recv byteCount)
        (fun status w' =>
          (status = .success → wp inner
            (fun status w' =>
              (status = .success → w'.errorCount = 0 →
                Q .success { w' with transferInProgress := false }) ∧
              (status = .success → w'.errorCount ≠ 0 →
                Q .failure { w' with transferInProgress := false, errorCount := 0 }) ∧
              (status ≠ .success → Q .failure { w' with transferInProgress := false })) R w') ∧
          (status ≠ .success → Q .failure w')) R { w with transferInProgress := true } := by
  -- behind the transfer: the flag is cleared, and the error count looked at
  have tail : ∀ w' : World σ,
      wp (do
          let status ← inner
          setTransferInProgress false
          if status = Xst.success then do
            awaitTransfer
            errorCheck
          else pure .failure) Q R w' ↔
        wp inner
          (fun status w' =>
            (status = .success → w'.errorCount = 0 →
              Q .success { w' with transferInProgress := false }) ∧
            (status = .success → w'.errorCount ≠ 0 →
              Q .failure { w' with transferInProgress := false, errorCount := 0 }) ∧
            (status ≠ .success → Q .failure { w' with transferInProgress := false })) R w' := by
    intro w'
    rw [wp_bind]
    refine iff_of_eq (congrArg (fun Q => wp inner Q R w') (funext₂ fun status w' => ?_))
    by_cases hs : status = .success
    · by_cases he : w'.errorCount = 0 <;>
        simp [setTransferInProgress, awaitTransfer, errorCheck, hs, he]
    · simp [setTransferInProgress, hs]
  rw [command, wp_bind, setTransferInProgress, wp_modify, wp_check]
  simp only [statusCode_ok, statusCode_fail, ← tail]

/-- A command that went well: its transfer did, and so did `inner`.  The two states in between
are those around the transfer, before and behind what is stored. -/
theorem command_eq_success {recv : Bool} {byteCount : ℕ} {inner : Prog (World σ) Xst}
    {w w' : World σ} (h : command env recv byteCount inner w = (.ret .success, w')) :
    ∃ w₁ w₂, xspiTransfer env recv byteCount { w with transferInProgress := true } =
        (.ret .success, w₁) ∧
      inner w₁ = (.ret .success, w₂) ∧ w' = { w₂ with transferInProgress := false } := by
  obtain ⟨_, _, ⟨⟩, hcheck⟩ := bind_eq_ret.mp h
  obtain ⟨w₁, hx, hrest⟩ := check_eq_ok.mp hcheck
  obtain ⟨status, w₂, hi, htail⟩ := bind_eq_ret.mp hrest
  obtain ⟨_, _, ⟨⟩, h⟩ := bind_eq_ret.mp htail
  by_cases hs : status = .success
  · subst hs
    refine ⟨w₁, w₂, hx, hi, ?_⟩
    by_cases he : w₂.errorCount = 0
    · simpa [awaitTransfer, errorCheck, gets, pure, bind, andThen, he] using h.symm
    · simp [awaitTransfer, errorCheck, gets, Prog.modify, pure, bind, andThen, he] at h
  · simp [hs, pure] at h

/-- `SpiFlashGetStatus`: the register is in the second byte that comes in.  Of all the
commands only this one, its printing variant and `SpiFlashReadRegisterNoWriteEnable` go out
without a wait in front. -/
def spiFlashGetStatus : Prog (World σ) Xst := do
  fillWriteBuffer 0 [commandStatusregRead]
  command env true statusReadBytes (pure .success)

/-- `SpiFlashGetStatusPrint`: the same transfer, with the register printed.  The two are
definitions of their own because the source has them so. -/
def spiFlashGetStatusPrint : Prog (World σ) Xst := do
  fillWriteBuffer 0 [commandStatusregRead]
  command env true statusReadBytes (pure .success)

/-- One round of `SpiFlashWaitForFlashReady`: read the register, and look at the bit that says
whether a write is in progress. -/
def waitRound : Prog (World σ) (Unit ⊕ Xst) := do
  let status ← spiFlashGetStatus env
  if status = .success then do
    let statusReg ← gets fun w => w.readBuffer 1
    if statusReg &&& flashSrIsReadyMask = 0 then pure (.inr .success) else pure (.inl ())
  else pure (.inr .failure)

/-- `SpiFlashWaitForFlashReady`: `while(1)` with two ways out, the flash being ready and a
transfer that fails. -/
def spiFlashWaitForFlashReady : Prog (World σ) Xst :=
  loop (fun _ : Unit => waitRound env) env.rounds ()

/-- `SpiFlashWriteEnable`: wait, and set the write enable latch.  The source calls it in front
of reads as well, where the latch has no effect and stays set. -/
def spiFlashWriteEnable : Prog (World σ) Xst :=
  check (spiFlashWaitForFlashReady env) do
    fillWriteBuffer 0 [commandWriteEnable]
    command env false writeEnableBytes (pure .success)

/-- A one-byte command after a write enable and a wait, as in `SpiFlash4bytemodeEnable` and
`SpiFlash4byteexit`. -/
def enabledCommand (cmd : UInt8) : Prog (World σ) Xst :=
  check (spiFlashWriteEnable env) <|
  check (spiFlashWaitForFlashReady env) do
    fillWriteBuffer 0 [cmd]
    command env false writeEnableBytes (pure .success)

/-- `SpiFlash4bytemodeEnable`: enter 4-byte address mode.  The write enable in front of the
command and the second wait are the source's. -/
def spiFlash4bytemodeEnable : Prog (World σ) Xst :=
  enabledCommand env commandEnter4byteAddressMode

/-- `SpiFlash4byteexit`: leave it again.  Not every function that enters it calls this: the
reads and the page programs do, the erases do not. -/
def spiFlash4byteexit : Prog (World σ) Xst :=
  enabledCommand env commandExit4byteAddressMode

/-- A register read of four bytes after a write enable and a wait, as in
`SpiReadExtendedAddressRegister` and `SpiFlashReadflagstatus`. -/
def enabledRegisterRead (cmd : UInt8) : Prog (World σ) Xst :=
  check (spiFlashWriteEnable env) <|
  check (spiFlashWaitForFlashReady env) do
    fillWriteBuffer 0 [cmd]
    command env true readWriteExtraBytes.toNat (pure .success)

/-- `SpiReadExtendedAddressRegister`.  The register is read and not looked at: the print of it
is commented out in the source. -/
def spiReadExtendedAddressRegister : Prog (World σ) Xst :=
  enabledRegisterRead env commandReadExtendedAddress

/-- `SpiFlashReadflagstatus`; `verbose` only prints the register.  No caller looks at the
flags that it reads. -/
def spiFlashReadflagstatus : Prog (World σ) Xst :=
  enabledRegisterRead env commandReadFlagStatus

/-- `SpiFlashClrflagstatus`: the flags of the last erase or page program are gone.
`GetStatus` calls it right after it has read the flags, and uses the result of neither
call. -/
def spiFlashClrflagstatus : Prog (World σ) Xst :=
  check (spiFlashWaitForFlashReady env) do
    fillWriteBuffer 0 [commandClearFlagStatus]
    command env false 1 (pure .success)

/-- `GetStatus`: the status of the flag-status read and of the clear is dropped.  What is
returned is the status of the first of the three transfers. -/
def getStatus : Prog (World σ) Xst := do
  let status ← spiFlashGetStatusPrint env
  let _ ← spiFlashReadflagstatus env
  let _ ← spiFlashClrflagstatus env
  pure status

/-- `SpiFlashWrite_File`: the page program of a page buffer.  `WriteBuffer` gets the command,
the address and the page; the sum of the lengths is taken in 32 bits. -/
def spiFlashWriteFile (addr byteCount : UInt32) (writeCmd : UInt8) (pageBuffer : ℕ → UInt8) :
    Prog (World σ) Xst :=
  check (spiFlash4bytemodeEnable env) <|
  check (spiFlashWriteEnable env) <|
  check (spiFlashWaitForFlashReady env) do
    let size := (byteCount + readWriteExtraBytes + 1).toNat
    fillWriteBuffer 0 (writeCmd :: addrBytes addr)
    fillWriteBuffer 5 (bytesOf pageBuffer (size - 5))
    check (command env false size (pure .success)) (spiFlash4byteexit env)

omit [XSpiDriver σ] in
/-- The frame that `spiFlashWriteFile` builds, whatever stood in `WriteBuffer` before. -/
theorem writeFrame_eq (writeBuffer : ℕ → UInt8) (cmd : UInt8) (addr : UInt32)
    (pageBuffer : ℕ → UInt8) (size : ℕ) :
    bytesOf (overlay (overlay writeBuffer 0 (cmd :: addrBytes addr)) 5
      (bytesOf pageBuffer (size - 5))) size =
      (cmd :: addrBytes addr ++ bytesOf pageBuffer (size - 5)).take size := by
  have hfill : overlay (overlay writeBuffer 0 (cmd :: addrBytes addr)) 5
      (bytesOf pageBuffer (size - 5)) =
      overlay writeBuffer 0 (cmd :: addrBytes addr ++ bytesOf pageBuffer (size - 5)) :=
    overlay_append writeBuffer 0 (cmd :: addrBytes addr) _
  have hlen : size ≤ (cmd :: addrBytes addr ++ bytesOf pageBuffer (size - 5)).length := by
    rw [List.length_append, List.length_cons, addrBytes_length, bytesOf_length]
    omega
  rw [hfill, bytesOf_overlay_take, List.take_append_of_le_length hlen]

/-- `spiFlashWriteFile` as five checked steps. -/
theorem spiFlashWriteFile_eq (addr byteCount : UInt32) (writeCmd : UInt8)
    (pageBuffer : ℕ → UInt8) :
    spiFlashWriteFile (σ := σ) env addr byteCount writeCmd pageBuffer =
      (check (spiFlash4bytemodeEnable env) <|
      check (spiFlashWriteEnable env) <|
      check (spiFlashWaitForFlashReady env) <|
      check (fillWriteBuffer 0 (writeCmd :: addrBytes addr) >>= fun _ =>
          fillWriteBuffer 5 (bytesOf pageBuffer ((byteCount + readWriteExtraBytes + 1).toNat - 5))
            >>= fun _ => command env false (byteCount + readWriteExtraBytes + 1).toNat
              (pure .success))
        (spiFlash4byteexit env)) := by
  simp only [spiFlashWriteFile, bind_check]

/-- The dummy bytes that `SpiFlashRead` adds to its byte count, by the read command.  A
command that the chain of comparisons does not name gets none. -/
def dummyBytes (readCmd : UInt8) : UInt32 :=
  if readCmd = commandDualRead then dualReadDummyBytes
  else if readCmd = commandDualIoRead then dualReadDummyBytes
  else if readCmd = commandQuadIoRead then quadIoReadDummyBytes
  else if readCmd = commandQuadRead then quadReadDummyBytes
  else if readCmd = command4byteQuadOutputFastRead then quadIoReadDummyBytes
  else 0

/-- `SpiFlashRead`: what is read is in `ReadBuffer`, behind the bytes of the command, the
address and the dummies. -/
def spiFlashRead (addr byteCount : UInt32) (readCmd : UInt8) : Prog (World σ) Xst :=
  check (spiFlash4bytemodeEnable env) <|
  check (spiFlashWriteEnable env) <|
  check (spiFlashWaitForFlashReady env) do
    fillWriteBuffer 0 (readCmd :: addrBytes addr)
    check (command env true (byteCount + dummyBytes readCmd + readWriteExtraBytes).toNat
      (pure .success)) (spiFlash4byteexit env)

/-- `spiFlashRead` as five checked steps. -/
theorem spiFlashRead_eq (addr byteCount : UInt32) (readCmd : UInt8) :
    spiFlashRead (σ := σ) env addr byteCount readCmd =
      (check (spiFlash4bytemodeEnable env) <|
      check (spiFlashWriteEnable env) <|
      check (spiFlashWaitForFlashReady env) <|
      check (fillWriteBuffer 0 (readCmd :: addrBytes addr) >>= fun _ =>
          command env true (byteCount + dummyBytes readCmd + readWriteExtraBytes).toNat
            (pure .success))
        (spiFlash4byteexit env)) := by
  simp only [spiFlashRead, bind_check]

/-- `SpiFlashBulkErase`.  The write enable in front of it is its caller's business, other than
in the sector and the die erase. -/
def spiFlashBulkErase : Prog (World σ) Xst :=
  check (spiFlashWaitForFlashReady env) do
    fillWriteBuffer 0 [commandBulkErase]
    command env false bulkEraseBytes (pure .success)

/-- The frame of an erase and the status reads after it, which `SpiFlashSectorErase` and
`SpiFlashDieErase` share.  The call of `GetStatus` stands between the transfer and the store
to `TransferInProgress`. -/
def eraseCommand (cmd : UInt8) (addr : UInt32) : Prog (World σ) Xst :=
  check (spiFlashWriteEnable env) <|
  check (spiFlashWaitForFlashReady env) do
    fillWriteBuffer 0 (cmd :: addrBytes addr)
    command env false (sectorEraseBytes + 1) (getStatus env)

/-- `SpiFlashSectorErase`: 4-byte mode is entered, and not left.  When the command has gone
out, the status that comes back is the one of the status read behind it. -/
def spiFlashSectorErase (addr : UInt32) : Prog (World σ) Xst :=
  check (spiFlash4bytemodeEnable env) (eraseCommand env commandSectorErase addr)

/-- `SpiFlashDieErase`: the number of the die becomes the upper bits of the address.  The
shift is of 32 bits, so numbers that agree in the lower six bits name the same die. -/
def spiFlashDieErase (uscDieNr : UInt32) : Prog (World σ) Xst :=
  check (spiFlash4bytemodeEnable env) <|
  check (spiReadExtendedAddressRegister env)
    (eraseCommand env commandDieErase (uscDieNr <<< 26))

/-- `SpiFlashQuadEnable`: a write of the status register and, once the flash is ready, the
command for quad mode. -/
def spiFlashQuadEnable : Prog (World σ) Xst :=
  check (spiFlashWriteEnable env) <|
  check (spiFlashWaitForFlashReady env) do
    fillWriteBuffer 0 [commandWriteStatusRegister, 0x01, 0x01]
    check (command env false 3 (pure .success)) <|
      check (spiFlashWaitForFlashReady env) do
        fillWriteBuffer 0 [commandEnterQuadMode]
        command env true statusReadBytes (pure .success)

/-- `SpiFlashReadID`; what it prints of the answer is left out.  No caller compares the
identification with anything. -/
def spiFlashReadID : Prog (World σ) Xst :=
  check (spiFlashWaitForFlashReady env) do
    fillWriteBuffer 0 [commandReadId]
    command env true readWriteExtraBytes.toNat (pure .success)

/-! ## Initialisation -/

/-- `System_init_startup`.  `XSpi_SetStatusHandler` is left out: the handler it stores is only
called from an interrupt handler that nothing installs.  The status of `XSpi_Start` is
dropped. -/
def systemInitStartup : Prog (World σ) Xst :=
  match xspiLookupConfig spiDeviceId with
  | none => pure .deviceNotFound
  | some configPtr => do
    Prog.modify fun w => { w with bus := XSpiDriver.xspiPciInitialize w.bus }
    check (callDriver (XSpiDriver.xspiCfgInitialize configPtr)) <|
      check (callDriver
        (XSpiDriver.xspiSetOptions (xspMasterOption ||| xspManualSselectOption))) <|
      check (callDriver (XSpiDriver.xspiSetSlaveSelect spiSelect)) do
        let _ ← callDriver XSpiDriver.xspiStart
        check (spiFlashWriteEnable env) (pure .success)

/-- The lines `if (qspi_init_flag == 0) {…}` that the entry points begin with: call
`System_init_startup`, return its failure, set the flag when it succeeds.  A startup that
fails behind `XSpi_Start` leaves the driver started and the flag clear. -/
def ensureInit : Prog (World σ) Xst := do
  let started ← gets fun w => w.qspiInitFlag
  if started then pure .success
  else
    check (systemInitStartup env) do
      Prog.modify fun w => { w with qspiInitFlag := true }
      pure .success

/-- Behind the flag, the initialisation is a test. -/
theorem ensureInit_of_flag {w : World σ} (h : w.qspiInitFlag = true) :
    ensureInit env w = (.ret .success, w) := by
  rw [ensureInit]
  change (if w.qspiInitFlag = true then _ else _ : Prog (World σ) Xst) w = _
  rw [if_pos h]
  rfl

/-! ## Operations built of several commands -/

/-- `qspi_ease_entire_flash`: a bulk erase, whose end is not waited for.  The source prints
that the erase has completed as soon as the command is out. -/
def qspiEaseEntireFlash : Prog (World σ) Xst :=
  check (ensureInit env) <|
  check (spiFlashWriteEnable env) (spiFlashBulkErase env)

/-- `NUMB_SECTORS`, `512 * 8`, the bound of `qspi_erase_sector_flash` on the number of
sectors. -/
def numbSectors : UInt32 := 512 * 8

/-- `BYTE_PER_SECTOR`, what one sector erase command clears. -/
def bytePerSector : UInt32 := 65536

/-- `qspi_erase_sector_flash`: as many sectors as asked for, one behind the other, if there
are not more than the flash has. -/
def qspiEraseSectorFlash (ofsetAddr sectCount : UInt32) : Prog (World σ) Xst :=
  if sectCount < numbSectors ∨ sectCount = numbSectors then
    checkLoop (spiFlashSectorErase env) (· + bytePerSector) sectCount.toNat ofsetAddr
  else pure .failure

/-- `qspi_flash_geo`: the identification, the flags and the quad mode.  What the two calls for
the flags return is dropped. -/
def qspiFlashGeo : Prog (World σ) Xst :=
  check (ensureInit env) <|
  check (spiFlashReadID env) do
    let _ ← spiFlashReadflagstatus env
    let _ ← spiFlashClrflagstatus env
    check (spiFlashQuadEnable env) (pure .success)

/-- `qspi_flash_erase_main`; its first argument is not used.  It erases a die and then enables
the quad mode. -/
def qspiFlashEraseMain (_ofsetAddr dieCount : UInt32) : Prog (World σ) Xst :=
  check (spiFlashDieErase env dieCount) <|
  check (spiFlashQuadEnable env) (pure .success)

/-- `qspi_write_flash`: the byte count is the size of a pointer, and the data may lie across
the end of a page. -/
def qspiWriteFlash (addr : UInt32) (data : ℕ → UInt8) : Prog (World σ) Xst :=
  check (spiFlashWriteFile env addr 8 command4bytePageProgram data) (pure .success)

/-- The number of pages that `Spi_Blank_Check` and `qspi_read_flash` compute: a last one for
what is left over. -/
def pagesToRead (noByteToRead : UInt32) : UInt32 :=
  let noOfPage := noByteToRead / pageSize
  let remaind_int := noByteToRead - noOfPage * pageSize
  if remaind_int ≠ 0 then noOfPage + 1 else noOfPage

/-- One page of `Spi_Blank_Check`; the status of the write enable is dropped.  The bytes are
looked at from the index 10 of `ReadBuffer` on. -/
def blankCheckPage (startOffsetAddr : UInt32) : Prog (World σ) Xst := do
  let _ ← spiFlashWriteEnable env
  clearReadBuffer
  check (spiFlashRead env startOffsetAddr pageSize command4byteQuadOutputFastRead) do
    let readBuffer ← gets fun w => w.readBuffer
    if (List.range' 4 252).all fun index => readBuffer (index + 6) = 0xFF then pure .success
    else pure .failure

/-- `Spi_Blank_Check`; a failed initialisation is not reported.  The body of the `if` behind
it is empty in the source, as it is behind the write enable of a page. -/
def spiBlankCheck (startAddr noByteToRead : UInt32) : Prog (World σ) Xst := do
  let _ ← ensureInit env
  checkLoop (blankCheckPage env) (· + pageSize) (pagesToRead noByteToRead).toNat startAddr

/-- The inner loop of `qspi_read_flash`: the output of the page bytes at `indexes`, and the
line counter after them.  A new line begins, with its label, behind every eighth byte. -/
def dumpLine (readBuffer : ℕ → UInt8) (startAddr : UInt32) :
    List ℕ → ℕ → List (Event σ) × ℕ
  | [], cntLine => ([], cntLine)
  | index :: indexes, cntLine =>
    if 6 < cntLine then
      let rest := dumpLine readBuffer startAddr indexes 0
      (.data (readBuffer (index + 4)) ::
        .label (startAddr + (UInt32.ofNat index - 4)) :: rest.1, rest.2)
    else
      let rest := dumpLine readBuffer startAddr indexes (cntLine + 1)
      (.data (readBuffer (index + 4)) :: rest.1, rest.2)

/-- The page loop of `qspi_read_flash`.  The line counter goes on from page to page, and the
recursion is on the number of pages that are left. -/
def dumpPages : ℕ → UInt32 → ℕ → Prog (World σ) Xst
  | 0, _, _ => pure .success
  | noOfPage + 1, startAddr, cntLine =>
    check (spiFlashWriteEnable env) do
      clearReadBuffer
      check (spiFlashRead env startAddr pageSize command4byteQuadOutputFastRead) do
        let readBuffer ← gets fun w => w.readBuffer
        let line := dumpLine readBuffer startAddr (List.range' 5 256) cntLine
        Prog.modify fun w => { w with events := w.events ++ line.1 }
        dumpPages noOfPage (startAddr + pageSize) line.2

/-- `NOB_PAGES`.  The range check of `qspi_read_flash` compares with four times this
number. -/
def nobPages : UInt32 := 262144

/-- `qspi_read_flash`.  A range that the test refuses is a success without output; the test is
made in signed 32-bit arithmetic, and not at all from address 0. -/
def qspiReadFlash (startAddr noByteToRead : UInt32) : Prog (World σ) Xst :=
  check (ensureInit env) do
    let noOfPage := pagesToRead noByteToRead
    if startAddr = 0 ∨ (pagesToRead startAddr + noOfPage).toInt32 ≤ (4 * nobPages).toInt32 then do
      emit (.label startAddr)
      dumpPages env noOfPage.toNat startAddr 0
    else pure .success

end Commands

end Kiflash
