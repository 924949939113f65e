import Kiflash.Images
import Kiflash.Imperative.Thread

/-!
# The flash code as threads

`Execute` runs `kiflash_program_user` in a thread of its own, and the exported `icap` runs
`kiflash_icap` in the JavaScript thread.  Nothing keeps the two apart: they share the static
variables, the driver instance and the registers.

* `send`, `waitRound` and the like — the functions that the two calls reach, once more, now
  with their acts laid open.
* `kiflashProgramUser`, `icapCalls` — the two threads.
* the `run_` theorems — a thread that nothing disturbs does what the function does.

### What an act is

An act is one SPI command (its frame is built and sent, and its status tested), one call that
sets up the driver, one write to a register outside the SPI core, or one access to the static
variables.  The nested status reads of an erase come between the two halves of its command, so
these are acts of their own.

This is finer than the calls of the library, and coarser than the machine.  Two commands at
once on one SPI core would be two writers of one transmit FIFO; of this the model says
nothing, and the statements that use it are about the accesses outside of the core, each of
which is one act here as it is one store on the machine.

### Why the code is written twice

A function of `Kiflash.Commands` is a program that runs from a state to a state, and there is
no place in it for anybody else.  A thread is a tree of acts, and a turn of the other thread
may come between any two.  The definitions below follow those of `Kiflash.Commands` and
`Kiflash.Images` line by line, under the same names, and the `run_` theorems tie each one to
its original.  What is proved about the functions is so about the undisturbed threads, and
there is nothing here to be compared with the source that has not been compared with it there.
-/

open Imperative

namespace Kiflash

namespace Threads

variable {σ : Type} [XSpiDriver σ] (env : Env)

open Thread (atomic check checkLoop loop)

/-! ## Commands -/

/-- One SPI command: the frame that begins with `bs` is built and sent, in one act.  The other
thread comes in between commands, not inside one. -/
def send (bs : List UInt8) (recv : Bool) (byteCount : ℕ) : Thread (World σ) Xst :=
  atomic (fillWriteBuffer 0 bs >>= fun _ => command env recv byteCount (pure .success))

/-- `SpiFlashGetStatus`, and `SpiFlashGetStatusPrint` as well, which differs in its print
only. -/
def spiFlashGetStatus : Thread (World σ) Xst :=
  send env [commandStatusregRead] true statusReadBytes

/-- One round of `SpiFlashWaitForFlashReady`: the status read, and the look at its answer.
These are two acts, so what is looked at may be the answer to another thread's command. -/
def waitRound : Thread (World σ) (Unit ⊕ Xst) := do
  let status ← spiFlashGetStatus env
  if status = .success then do
    let statusReg ← atomic (.gets fun w => w.readBuffer 1)
    if statusReg &&& flashSrIsReadyMask = 0 then pure (.inr .success) else pure (.inl ())
  else pure (.inr .failure)

/-- `SpiFlashWaitForFlashReady`.  The loop is followed for as many rounds as the host
allows. -/
def spiFlashWaitForFlashReady : Thread (World σ) Xst :=
  loop (fun _ : Unit => waitRound env) env.rounds ()

/-- `SpiFlashWriteEnable`. -/
def spiFlashWriteEnable : Thread (World σ) Xst :=
  check (spiFlashWaitForFlashReady env) (send env [commandWriteEnable] false writeEnableBytes)

/-- `SpiFlash4bytemodeEnable` and `SpiFlash4byteexit`, which differ in the command byte. -/
def enabledCommand (cmd : UInt8) : Thread (World σ) Xst :=
  check (spiFlashWriteEnable env) <|
  check (spiFlashWaitForFlashReady env) (send env [cmd] false writeEnableBytes)

/-- `SpiFlash4bytemodeEnable`, whose mode the other thread may change again. -/
def spiFlash4bytemodeEnable : Thread (World σ) Xst :=
  enabledCommand env commandEnter4byteAddressMode

/-- `SpiFlash4byteexit`. -/
def spiFlash4byteexit : Thread (World σ) Xst :=
  enabledCommand env commandExit4byteAddressMode

/-- `SpiFlashReadflagstatus`. -/
def spiFlashReadflagstatus : Thread (World σ) Xst :=
  check (spiFlashWriteEnable env) <|
  check (spiFlashWaitForFlashReady env)
    (send env [commandReadFlagStatus] true readWriteExtraBytes.toNat)

/-- `SpiFlashClrflagstatus`. -/
def spiFlashClrflagstatus : Thread (World σ) Xst :=
  check (spiFlashWaitForFlashReady env) (send env [commandClearFlagStatus] false 1)

/-- `GetStatus`: three commands, and only the status of the first is returned. -/
def getStatus : Thread (World σ) Xst := do
  let status ← spiFlashGetStatus env
  let _ ← spiFlashReadflagstatus env
  let _ ← spiFlashClrflagstatus env
  pure status

/-- `SpiFlashWrite_File`. -/
def spiFlashWriteFile (addr byteCount : UInt32) (writeCmd : UInt8) (pageBuffer : ℕ → UInt8) :
    Thread (World σ) Xst :=
  check (spiFlash4bytemodeEnable env) <|
  check (spiFlashWriteEnable env) <|
  check (spiFlashWaitForFlashReady env) <|
  check (atomic (fillWriteBuffer 0 (writeCmd :: addrBytes addr) >>= fun _ =>
      fillWriteBuffer 5 (bytesOf pageBuffer ((byteCount + readWriteExtraBytes + 1).toNat - 5))
        >>= fun _ => command env false (byteCount + readWriteExtraBytes + 1).toNat
          (pure .success)))
    (spiFlash4byteexit env)

/-- `SpiFlashRead`. -/
def spiFlashRead (addr byteCount : UInt32) (readCmd : UInt8) : Thread (World σ) Xst :=
  check (spiFlash4bytemodeEnable env) <|
  check (spiFlashWriteEnable env) <|
  check (spiFlashWaitForFlashReady env) <|
  check (send env (readCmd :: addrBytes addr) true
      (byteCount + dummyBytes readCmd + readWriteExtraBytes).toNat)
    (spiFlash4byteexit env)

/-- `while(TransferInProgress);`, which the other thread may end, or keep from ending: the
flag is one for both. -/
def awaitTransfer : Thread (World σ) Unit :=
  loop (fun _ : Unit => do
    let busy ← atomic (.gets (·.transferInProgress))
    pure (if busy then .inl () else .inr ())) (env.rounds + 1) ()

/-- The erase command itself: its frame is built and sent.  What comes behind it is in
`eraseCommand`. -/
def sendErase (cmd : UInt8) (addr : UInt32) : Prog (World σ) Xst :=
  fillWriteBuffer 0 (cmd :: addrBytes addr) >>= fun _ => setTransferInProgress true >>= fun _ =>
    xspiTransfer env false (sectorEraseBytes + 1)

/-- The erase command, with the status reads before its end.  The flag is cleared behind them
here, other than in every other command. -/
def eraseCommand (cmd : UInt8) (addr : UInt32) : Thread (World σ) Xst :=
  check (spiFlashWriteEnable env) <|
  check (spiFlashWaitForFlashReady env) <|
  check (atomic (sendErase env cmd addr)) do
    let status ← getStatus env
    atomic (setTransferInProgress false)
    if status = .success then do
      awaitTransfer env
      atomic errorCheck
    else pure .failure

/-- `SpiFlashSectorErase`. -/
def spiFlashSectorErase (addr : UInt32) : Thread (World σ) Xst :=
  check (spiFlash4bytemodeEnable env) (eraseCommand env commandSectorErase addr)

/-! ## Initialisation -/

/-- `System_init_startup`. -/
def systemInitStartup : Thread (World σ) Xst :=
  match xspiLookupConfig spiDeviceId with
  | none => pure .deviceNotFound
  | some configPtr => do
    atomic (.modify fun w => { w with bus := XSpiDriver.xspiPciInitialize w.bus })
    check (atomic (callDriver (XSpiDriver.xspiCfgInitialize configPtr))) <|
      check (atomic (callDriver
        (XSpiDriver.xspiSetOptions (xspMasterOption ||| xspManualSselectOption)))) <|
      check (atomic (callDriver (XSpiDriver.xspiSetSlaveSelect spiSelect))) do
        let _ ← atomic (callDriver XSpiDriver.xspiStart)
        check (spiFlashWriteEnable env) (pure .success)

/-- `if (qspi_init_flag == 0) { ... }`.  The test and the store of the flag are two acts, so
both threads may start the driver. -/
def ensureInit : Thread (World σ) Xst := do
  let started ← atomic (.gets fun w => w.qspiInitFlag)
  if started then pure .success
  else
    check (systemInitStartup env) do
      atomic (.modify fun w => { w with qspiInitFlag := true })
      pure .success

/-! ## Operations built of several commands -/

/-- `qspi_erase_sector_flash`. -/
def qspiEraseSectorFlash (ofsetAddr sectCount : UInt32) : Thread (World σ) Xst :=
  if sectCount < numbSectors ∨ sectCount = numbSectors then
    checkLoop (spiFlashSectorErase env) (· + bytePerSector) sectCount.toNat ofsetAddr
  else pure .failure

/-- A fresh page buffer with the page of the file at `startAddr` read into it.  The buffer
belongs to the thread. -/
def readPage (file : File) (startAddr : UInt32) : Thread (World σ) (ℕ → UInt8) := do
  let buffer ← atomic (mallocPage env)
  pure (fread file startAddr buffer)

/-- A round of `qspi_program_bin` after its progress report.  Its page buffer is the thread's
own, while `WriteBuffer` is shared. -/
def programPage (baseStartAddr : UInt32) (file : File) (startAddr : UInt32) :
    Thread (World σ) Xst := do
  let buffer ← readPage env file startAddr
  check (spiFlashWriteEnable env)
    (spiFlashWriteFile env (startAddr + baseStartAddr) pageSize command4bytePageProgram buffer)

/-- A round of `qspi_verify_bin` after its progress report.  Between the read and the
comparison the other thread may have used `ReadBuffer`. -/
def verifyPage (baseStartAddr : UInt32) (file : File) (startAddr : UInt32) :
    Thread (World σ) Xst := do
  let buffer ← readPage env file startAddr
  check (spiFlashWriteEnable env) do
    atomic clearReadBuffer
    check (spiFlashRead env (baseStartAddr + startAddr) pageSize
        command4byteQuadOutputFastRead) do
      let readBuffer ← atomic (.gets fun w => w.readBuffer)
      if isEqual readBuffer buffer then pure .success else pure .failure

/-- `while (NoOfPage != 0)` over the pages of a file.  The counters are locals, which no other
thread sees. -/
def pageLoop (report : UInt32 → PageLoop → Prog (World σ) Unit)
    (page : UInt32 → Thread (World σ) Xst) (totalPage : UInt32) : Thread (World σ) Xst :=
  checkLoop (fun it => atomic (report totalPage it) >>= fun _ => page it.startAddr)
    (PageLoop.next totalPage) totalPage.toNat ⟨totalPage, 0, 0⟩

/-- The common part of the functions that work through an image file, from `fopen` to
`fclose`. -/
def imageFile (filename : String) (report : UInt32 → PageLoop → Prog (World σ) Unit)
    (page : File → UInt32 → Thread (World σ) Xst) (finish : Prog (World σ) Unit) :
    Thread (World σ) Xst := do
  let fp ← atomic (fopen env filename)
  match fp with
  | none => pure .failure
  | some file =>
    check (ensureInit env) <|
    check (atomic (callDriver (XSpiDriver.xspiSetSlaveSelect spiSelect))) do
      let _ ← atomic (callDriver XSpiDriver.xspiStart)
      check (spiFlashWriteEnable env) <|
        check (pageLoop report (page file) (pageCount file.ftell)) do
          atomic finish
          atomic fclose
          pure .success

/-- `qspi_program_bin`. -/
def qspiProgramBin : Thread (World σ) Xst := do
  let data ← atomic (.gets fun w => w.flashData)
  imageFile env data.pathname (reportProgress env 20) (programPage env data.baseAddr) (pure ())

/-- `qspi_verify_bin`. -/
def qspiVerifyBin : Thread (World σ) Xst := do
  let data ← atomic (.gets fun w => w.flashData)
  imageFile env data.pathname (reportProgress env 60) (verifyPage env data.baseAddr)
    (emit .verifyPassed)

/-- The erase of `program_user`. -/
def eraseStage : Thread (World σ) Xst := do
  let data ← atomic (.gets fun w => w.flashData)
  let status ← qspiEraseSectorFlash env 0x08000000 (sectorsToErase data 0x08000000)
  atomic (setPercentage env 20)
  pure status

/-- `program_user`, called with the argument 1. -/
def programUser : Thread (World σ) Xst := do
  atomic (setPercentage env 1)
  check (eraseStage env) do
    atomic (setPercentage env 20)
    check (qspiProgramBin env) do
      atomic (setPercentage env 60)
      check (qspiVerifyBin env) do
        atomic (setPercentage env 100)
        pure .success

/-! ## The entry points -/

/-- The FIFO writes of `icap`, an act each.  Two sequences may therefore get mixed. -/
def icapWords : List UInt64 → Thread (World σ) Unit
  | [] => pure ()
  | word :: words => do
    atomic (pciWriteReg (icapBaseAddr + icapWriteFifo) word)
    icapWords words

/-- `icap`. -/
def icap (die : UInt32) : Thread (World σ) Xst := do
  icapWords (iprogWords die)
  atomic (pciWriteReg (icapBaseAddr + icapWriteControl) 0x00000001)
  pure .success

/-- `kiflash_init`. -/
def kiflashInit : Thread (World σ) Xst := do
  atomic (.modify fun w => { w with flashData := w.flashData.initial })
  atomic (setPercentage env 0)
  atomic (pcimemInit env)
  check (ensureInit env) (pure .success)

/-- `kiflash_icap`.  It tests the flag of the driver without a lock, as every other function
does. -/
def kiflashIcap (die : UInt32) : Thread (World σ) Xst := do
  let started ← atomic (.gets fun w => w.qspiInitFlag)
  let _ ← if started then pure .success else kiflashInit env
  icap die

/-- The flashing thread: `kiflash_program_user`, act by act. -/
def kiflashProgramUser : Thread (World σ) Xst := do
  let _ ← kiflashInit env
  atomic (selectRegion .user)
  atomic (setPercentage env 0)
  check (programUser env) do
    let _ ← icap 0
    atomic (setPercentage env 100)
    pure .success

/-- The JavaScript thread: so many calls of the exported `icap`, one after the other. -/
def icapCalls : ℕ → Thread (World σ) Unit
  | 0 => pure ()
  | n + 1 => do
    let _ ← kiflashIcap env 0
    icapCalls n

/-! ## The threads on their own -/

section Run

open Thread

/-- An act, run alone, is the program that it consists of. -/
@[simp] theorem run_send (bs : List UInt8) (recv : Bool) (byteCount : ℕ) :
    run (send (σ := σ) env bs recv byteCount) =
      fillWriteBuffer 0 bs >>= fun _ => command env recv byteCount (pure .success) := rfl

@[simp] theorem run_spiFlashGetStatus :
    run (spiFlashGetStatus (σ := σ) env) = Kiflash.spiFlashGetStatus env := rfl

@[simp] theorem run_waitRound : run (waitRound (σ := σ) env) = Kiflash.waitRound env := by
  simp [waitRound, Kiflash.waitRound]

/-- The rounds of the polling loop. -/
@[simp] theorem run_spiFlashWaitForFlashReady :
    run (spiFlashWaitForFlashReady (σ := σ) env) = Kiflash.spiFlashWaitForFlashReady env := by
  simp [spiFlashWaitForFlashReady, Kiflash.spiFlashWaitForFlashReady]

@[simp] theorem run_spiFlashWriteEnable :
    run (spiFlashWriteEnable (σ := σ) env) = Kiflash.spiFlashWriteEnable env := by
  simp [spiFlashWriteEnable, Kiflash.spiFlashWriteEnable]

@[simp] theorem run_enabledCommand (cmd : UInt8) :
    run (enabledCommand (σ := σ) env cmd) = Kiflash.enabledCommand env cmd := by
  simp [enabledCommand, Kiflash.enabledCommand]

@[simp] theorem run_spiFlashReadflagstatus :
    run (spiFlashReadflagstatus (σ := σ) env) = Kiflash.spiFlashReadflagstatus env := by
  simp [spiFlashReadflagstatus, Kiflash.spiFlashReadflagstatus, enabledRegisterRead]

@[simp] theorem run_spiFlashClrflagstatus :
    run (spiFlashClrflagstatus (σ := σ) env) = Kiflash.spiFlashClrflagstatus env := by
  simp [spiFlashClrflagstatus, Kiflash.spiFlashClrflagstatus]

@[simp] theorem run_getStatus : run (getStatus (σ := σ) env) = Kiflash.getStatus env := by
  simp [getStatus, Kiflash.getStatus, Kiflash.spiFlashGetStatus, spiFlashGetStatusPrint]

@[simp] theorem run_spiFlashWriteFile (addr byteCount : UInt32) (writeCmd : UInt8)
    (pageBuffer : ℕ → UInt8) :
    run (spiFlashWriteFile (σ := σ) env addr byteCount writeCmd pageBuffer) =
      Kiflash.spiFlashWriteFile env addr byteCount writeCmd pageBuffer := by
  simp [spiFlashWriteFile, spiFlashWriteFile_eq, spiFlash4bytemodeEnable, spiFlash4byteexit,
    Kiflash.spiFlash4bytemodeEnable, Kiflash.spiFlash4byteexit]

@[simp] theorem run_spiFlashRead (addr byteCount : UInt32) (readCmd : UInt8) :
    run (spiFlashRead (σ := σ) env addr byteCount readCmd) =
      Kiflash.spiFlashRead env addr byteCount readCmd := by
  simp [spiFlashRead, spiFlashRead_eq, spiFlash4bytemodeEnable, spiFlash4byteexit,
    Kiflash.spiFlash4bytemodeEnable, Kiflash.spiFlash4byteexit]

omit [XSpiDriver σ] in
/-- Without another thread, the flag that is polled does not change.  It goes round as often
as it is followed if the flag is up, and ends at once if it is not. -/
@[simp] theorem run_awaitTransfer :
    run (awaitTransfer (σ := σ) env) = Kiflash.awaitTransfer := by
  funext w
  rw [awaitTransfer, run_loop]
  by_cases hbusy : w.transferInProgress = true
  · have hspin : ∀ n, Prog.loop (fun _ : Unit => run (do
        let busy ← atomic (.gets (World.transferInProgress (σ := σ)))
        pure (if busy then .inl () else .inr () : Unit ⊕ Unit))) n () w = (.stop .spin, w) := by
      intro n
      induction n with
      | zero => rfl
      | succ n ih =>
          refine Eq.trans ?_ ih
          simp [Prog.loop, Prog.gets, bind, pure, Prog.andThen, andThen, atomic, run, hbusy]
    rw [hspin]
    simp [Kiflash.awaitTransfer, Prog.gets, bind, Prog.andThen, hbusy, Prog.halt]
  · simp [Prog.loop, Kiflash.awaitTransfer, Prog.gets, bind, pure, Prog.andThen, andThen, atomic, run,
      hbusy]

/-- The two halves of an erase, put together again. -/
@[simp] theorem run_eraseCommand (cmd : UInt8) (addr : UInt32) :
    run (eraseCommand (σ := σ) env cmd addr) = Kiflash.eraseCommand env cmd addr := by
  simp [eraseCommand, Kiflash.eraseCommand, command, sendErase, ← Prog.bind_check]

@[simp] theorem run_spiFlashSectorErase (addr : UInt32) :
    run (spiFlashSectorErase (σ := σ) env addr) = Kiflash.spiFlashSectorErase env addr := by
  simp [spiFlashSectorErase, Kiflash.spiFlashSectorErase, spiFlash4bytemodeEnable,
    Kiflash.spiFlash4bytemodeEnable]

/-- The startup is cut into one act for each call of the driver. -/
@[simp] theorem run_systemInitStartup :
    run (systemInitStartup (σ := σ) env) = Kiflash.systemInitStartup env := by
  rw [systemInitStartup, Kiflash.systemInitStartup]
  cases xspiLookupConfig spiDeviceId <;> simp

@[simp] theorem run_ensureInit : run (ensureInit (σ := σ) env) = Kiflash.ensureInit env := by
  simp [ensureInit, Kiflash.ensureInit]

@[simp] theorem run_qspiEraseSectorFlash (ofsetAddr sectCount : UInt32) :
    run (qspiEraseSectorFlash (σ := σ) env ofsetAddr sectCount) =
      Kiflash.qspiEraseSectorFlash env ofsetAddr sectCount := by
  simp [qspiEraseSectorFlash, Kiflash.qspiEraseSectorFlash]

omit [XSpiDriver σ] in
@[simp] theorem run_readPage (file : File) (startAddr : UInt32) :
    run (readPage (σ := σ) env file startAddr) = Kiflash.readPage env file startAddr := by
  simp [readPage, Kiflash.readPage]

@[simp] theorem run_programPage (baseStartAddr : UInt32) (file : File) (startAddr : UInt32) :
    run (programPage (σ := σ) env baseStartAddr file startAddr) =
      Kiflash.programPage env baseStartAddr file startAddr := by
  simp [programPage, Kiflash.programPage]

@[simp] theorem run_verifyPage (baseStartAddr : UInt32) (file : File) (startAddr : UInt32) :
    run (verifyPage (σ := σ) env baseStartAddr file startAddr) =
      Kiflash.verifyPage env baseStartAddr file startAddr := by
  simp [verifyPage, Kiflash.verifyPage]

omit [XSpiDriver σ] in
@[simp] theorem run_pageLoop (report : UInt32 → PageLoop → Prog (World σ) Unit)
    (page : UInt32 → Thread (World σ) Xst) (totalPage : UInt32) :
    run (pageLoop report page totalPage) =
      Kiflash.pageLoop report (fun startAddr => run (page startAddr)) totalPage := by
  simp [pageLoop, Kiflash.pageLoop]

/-- The image functions, for any page and end. -/
@[simp] theorem run_imageFile (filename : String) (report : UInt32 → PageLoop → Prog (World σ) Unit)
    (page : File → UInt32 → Thread (World σ) Xst) (finish : Prog (World σ) Unit) :
    run (imageFile env filename report page finish) =
      Kiflash.imageFile env filename report (fun file startAddr => run (page file startAddr))
        finish := by
  rw [imageFile, Kiflash.imageFile, run_bind]
  congr 1
  funext fp
  cases fp <;> simp

@[simp] theorem run_qspiProgramBin :
    run (qspiProgramBin (σ := σ) env) = Kiflash.qspiProgramBin env := by
  simp [qspiProgramBin, Kiflash.qspiProgramBin]

@[simp] theorem run_qspiVerifyBin :
    run (qspiVerifyBin (σ := σ) env) = Kiflash.qspiVerifyBin env := by
  simp [qspiVerifyBin, Kiflash.qspiVerifyBin]

@[simp] theorem run_eraseStage :
    run (eraseStage (σ := σ) env) =
      Kiflash.eraseStage env (setPercentage env) (fun _ => 0x08000000) 1 := by
  simp [eraseStage, Kiflash.eraseStage]

/-- The stages of `program_user`. -/
@[simp] theorem run_programUser :
    run (programUser (σ := σ) env) = Kiflash.programUser env 1 := by
  simp [programUser, Kiflash.programUser, eraseProgramVerify]

/-- The words, one after the other. -/
@[simp] theorem run_icapWords (words : List UInt64) :
    run (icapWords (σ := σ) words) = Kiflash.icapWords words := by
  induction words with
  | nil => rfl
  | cons word words ih => simp [icapWords, Kiflash.icapWords, ih]

@[simp] theorem run_icap (die : UInt32) : run (icap (σ := σ) die) = Kiflash.icap die := by
  simp [icap, Kiflash.icap]

@[simp] theorem run_kiflashInit : run (kiflashInit (σ := σ) env) = Kiflash.kiflashInit env := by
  simp [kiflashInit, Kiflash.kiflashInit]

@[simp] theorem run_kiflashIcap (die : UInt32) :
    run (kiflashIcap (σ := σ) env die) = Kiflash.kiflashIcap env die := by
  simp [kiflashIcap, Kiflash.kiflashIcap]

/-- **The flashing thread, undisturbed, is `kiflash_program_user`.**  So the thread is not a
second model of the function, but the same one cut into acts. -/
theorem run_kiflashProgramUser :
    run (kiflashProgramUser (σ := σ) env) = Kiflash.kiflashProgramUser env := by
  simp [kiflashProgramUser, Kiflash.kiflashProgramUser]

end Run

end Threads

end Kiflash
