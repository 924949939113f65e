import Kiflash.Commands
import Mathlib.Algebra.Order.Field.Rat

/-!
# Programming and verifying image files

`qspi_program_bin`, `qspi_verify_bin` and what is built on them, up to `kiflash_program_user`
and menu option 0 of `kiflashcmd`.

* `pageCount` — the number of pages, as the code computes it from the length of the file.
* `imageFile` — the loop over the pages of an image.
* `eraseProgramVerify` — `program_golden`, `program_user` and `program_timer`.
* `kiflashProgramUser` — the entry point of the library.

### What is factored out

The four page loops of the source (`qspi_program_bin`, `qspi_verify_bin`,
`qspi_program_flash`, `qspi_verify_flash`) share everything but the body, the source of the
base address and file name, and the stores to `FlashData.percentage`; `imageFile` is that
common part.  `program_golden`, `program_user` and `program_timer` share `eraseProgramVerify`
in the same way.  Each of them stays a definition of its own, which is `imageFile` or
`eraseProgramVerify` at its own values.

The copies of these functions in `kiflashcore` and `kiflashcmd` differ only in the stores to
`FlashData.percentage`, which `Env.progress` switches.

### Arithmetic

The page count is computed in `int` and `long` from what `ftell` returns, and the arithmetic
here is that of the machine: `pageCount_toNat` says what comes out.  The percentage is
computed in `double`; its model is exact, since all numbers that occur are quotients of page
counts and small constants, and the conversion to `uint32_t` truncates.
-/

open Imperative Imperative.Prog

namespace Kiflash

/-! ## The page count -/

/-- The 64-bit value of an `int` given by its 32-bit pattern.  The remainders of the source
mix an `int` with a `uint64_t`, and the conversion extends the sign. -/
def signExtend (x : UInt32) : UInt64 := x.toInt32.toInt64.toUInt64

/-- `NoOfPage` as the image loops compute it from `FileByteCount`: the 32-bit pattern of the
`int`.  The remainder decides whether there is a last page that is not full. -/
def pageCount (fileByteCount : UInt64) : UInt32 :=
  let noOfPage := (fileByteCount / 256).toUInt32
  let quq_int := (fileByteCount / 256).toUInt32
  let remaind_int := (fileByteCount - signExtend (quq_int * pageSize)).toUInt32
  if remaind_int ≠ 0 then noOfPage + 1 else noOfPage

/-- The low half of a sign-extended pattern is the pattern. -/
theorem toUInt32_signExtend (x : UInt32) : (signExtend x).toUInt32 = x := by
  refine UInt32.toBitVec_inj.mp (BitVec.eq_of_getLsbD_eq fun i hi => ?_)
  have hlt : i < 64 := by omega
  simp [signExtend, Int32.toInt64, BitVec.getElem_signExtend, hi, hlt]

/-- The page count is the number of pages, modulo `2 ^ 32`.  The source computes the remainder
with sign extensions and truncations on the way, and it comes out right for every size. -/
theorem pageCount_toNat (fileByteCount : UInt64) :
    (pageCount fileByteCount).toNat = (fileByteCount.toNat + 255) / 256 % 2 ^ 32 := by
  have hremaind : (fileByteCount - signExtend ((fileByteCount / 256).toUInt32 * pageSize)).toUInt32.toNat
      = fileByteCount.toNat % 256 := by
    rw [UInt64.toUInt32_sub, toUInt32_signExtend]
    simp only [pageSize, UInt32.toNat_sub, UInt64.toNat_toUInt32, UInt32.toNat_mul,
      UInt64.toNat_div, UInt32.reduceToNat, UInt64.reduceToNat]
    omega
  have hcount : (fileByteCount / 256).toUInt32.toNat = fileByteCount.toNat / 256 % 2 ^ 32 := by
    rw [UInt64.toNat_toUInt32, UInt64.toNat_div]
    rfl
  have hzero : (fileByteCount - signExtend ((fileByteCount / 256).toUInt32 * pageSize)).toUInt32 = 0 ↔
      fileByteCount.toNat % 256 = 0 := by
    rw [← UInt32.toNat_inj, hremaind]
    rfl
  simp only [pageCount]
  split_ifs with h
  · rw [ne_eq, hzero] at h
    rw [UInt32.toNat_add, hcount]
    simp only [UInt32.reduceToNat]
    omega
  · rw [ne_eq, not_not, hzero] at h
    rw [hcount]
    omega

/-- The value of an `int` variable in a `double`.  A page count beyond the range of `int` is
negative there. -/
def intToDouble (x : UInt32) : ℚ := x.toInt32.toInt

/-- The conversion of a `double` to `uint32_t`: truncation towards zero.  The standard leaves
the conversion of a negative number undefined; results that meet one exclude it. -/
def doubleToU32 (q : ℚ) : UInt32 := UInt32.ofInt (q.num.tdiv q.den)

/-- `(double)((totalPage - NoOfPage)/totalPage)*100.0`, as a rational number.  The source
compares two of these as doubles; the quotients of one image are further apart than a double
rounds. -/
def curPercentage (totalPage noOfPage : UInt32) : ℚ :=
  (intToDouble totalPage - intToDouble noOfPage) / intToDouble totalPage * 100

/-- The variables of a page loop: `NoOfPage` as its 32-bit pattern, `StartAddr`, and
`curpercentage` as the previous round left it. -/
structure PageLoop where
  noOfPage : UInt32
  startAddr : UInt32
  curpercentage : ℚ

/-- The variables after a round over a `totalPage` image: one page less, the next address, and
the percentage of the round that has just begun as the latched one. -/
def PageLoop.next (totalPage : UInt32) (it : PageLoop) : PageLoop where
  noOfPage := it.noOfPage - 1
  startAddr := it.startAddr + pageSize
  curpercentage := curPercentage totalPage it.noOfPage

section Images

variable {σ : Type} [XSpiDriver σ] (env : Env)

/-! ## The loops over a file -/

/-- The progress report at the head of a round; `base` is 20 or 60.  Nothing is stored where
the value is that of the previous round. -/
def reportProgress (base : ℚ) (totalPage : UInt32) (it : PageLoop) : Prog (World σ) Unit :=
  if it.curpercentage ≠ curPercentage totalPage it.noOfPage then
    setPercentage env (doubleToU32 (base + curPercentage totalPage it.noOfPage * 40 / 100))
  else pure ()

/-- A fresh page buffer with the page of the file at `startAddr` read into it.  Behind the end
of the file it holds what the heap held. -/
def readPage (file : File) (startAddr : UInt32) : Prog (World σ) (ℕ → UInt8) := do
  let buffer ← mallocPage env
  pure (fread file startAddr buffer)

/-- A round of `qspi_program_bin` after its progress report.  A whole page is programmed, also
where the file ends within it. -/
def programPage (baseStartAddr : UInt32) (file : File) (startAddr : UInt32) :
    Prog (World σ) Xst := do
  let buffer ← readPage env file startAddr
  check (spiFlashWriteEnable env)
    (spiFlashWriteFile env (startAddr + baseStartAddr) pageSize command4bytePageProgram buffer)

/-- `isequal` of `qspi_verify_bin`: all 256 bytes of the page that was read are compared.  The
source does not leave the loop at the first difference, which makes no difference to the
value. -/
def isEqual (readBuffer buffer : ℕ → UInt8) : Bool :=
  (List.range' 5 256).all fun index => readBuffer (index + 4) = buffer (index - 5)

/-- A round of `qspi_verify_bin` after its progress report.  The page is read again from the
file, at the offset, into a fresh buffer, and compared with what the flash holds. -/
def verifyPage (baseStartAddr : UInt32) (file : File) (startAddr : UInt32) :
    Prog (World σ) Xst := do
  let buffer ← readPage env file startAddr
  check (spiFlashWriteEnable env) do
    clearReadBuffer
    check (spiFlashRead env (baseStartAddr + startAddr) pageSize
        command4byteQuadOutputFastRead) do
      let readBuffer ← gets fun w => w.readBuffer
      if isEqual readBuffer buffer then pure .success else pure .failure

/-- `while (NoOfPage != 0)` over the pages of a file.  Every round that goes on decrements
`NoOfPage`, so there are as many rounds as its 32-bit pattern says. -/
def pageLoop (report : UInt32 → PageLoop → Prog (World σ) Unit)
    (page : UInt32 → Prog (World σ) Xst) (totalPage : UInt32) : Prog (World σ) Xst :=
  checkLoop (fun it => report totalPage it >>= fun _ => page it.startAddr)
    (PageLoop.next totalPage) totalPage.toNat ⟨totalPage, 0, 0⟩

/-- The common part of the functions that work through an image file: open it, count its
pages, initialise, select the slave, start, enable writes, run the page loop and close the
file.  Each early return is behind the `fopen`, and in front of the `fclose`. -/
def imageFile (filename : String) (report : UInt32 → PageLoop → Prog (World σ) Unit)
    (page : File → UInt32 → Prog (World σ) Xst) (finish : Prog (World σ) Unit) :
    Prog (World σ) Xst := do
  let fp ← fopen env filename
  match fp with
  | none => pure .failure
  | some file =>
    check (ensureInit env) <|
    check (callDriver (XSpiDriver.xspiSetSlaveSelect spiSelect)) do
      let _ ← callDriver XSpiDriver.xspiStart
      check (spiFlashWriteEnable env) <|
        check (pageLoop report (page file) (pageCount file.ftell)) do
          finish
          fclose
          pure .success

/-- The path name `FlashData.path/FlashData.filename`, as the two calls of `concat` build
it. -/
def FlashData.pathname (data : FlashData) : String := data.path ++ "/" ++ data.filename

/-- `qspi_program_bin`: the image of the region that is selected.  The size of the image is
not compared with the end of the region. -/
def qspiProgramBin : Prog (World σ) Xst := do
  let data ← gets fun w => w.flashData
  imageFile env data.pathname (reportProgress env 20) (programPage env data.baseAddr) (pure ())

/-- `qspi_verify_bin`.  It opens the image once more, and prints that the verification has
passed behind the last page. -/
def qspiVerifyBin : Prog (World σ) Xst := do
  let data ← gets fun w => w.flashData
  imageFile env data.pathname (reportProgress env 60) (verifyPage env data.baseAddr)
    (emit .verifyPassed)

/-- The file name of `qspi_program_flash` and `qspi_verify_flash`.  It is a constant of the
source: the two functions do not look at `FlashData`. -/
def dieImageName : String := "/home/ixiaadmin/Downloads/ant4x400g.bin"

/-- `qspi_program_flash`.  It has the page loop of `qspi_program_bin` without the progress,
and the number of a die in place of a base address. -/
def qspiProgramFlash (startDie : UInt32) : Prog (World σ) Xst :=
  imageFile env dieImageName (fun _ _ => pure ()) (programPage env (startDie <<< 26)) (pure ())

/-- `qspi_verify_flash`.  It has the page loop of `qspi_verify_bin` without the progress, at
the base address of a die. -/
def qspiVerifyFlash (startDie : UInt32) : Prog (World σ) Xst :=
  imageFile env dieImageName (fun _ _ => pure ()) (verifyPage env (startDie <<< 26)) (pure ())

/-- `DownloadSerialDataToQSPIFlash`: the status is dropped, and success returned.  Its sibling
`VerifySerialDataToQSPIFlash` passes the failure on. -/
def downloadSerialDataToQSPIFlash (startDie : UInt32) : Prog (World σ) Xst := do
  let _ ← qspiProgramFlash env startDie
  pure .success

/-! ## Erase, program, verify -/

/-- The sectors erased from `eraseFrom` on: up to `FlashData.eraseEndAddr`, which is not a
multiple of the sector size away from the start in every region. -/
def sectorsToErase (data : FlashData) (eraseFrom : UInt32) : UInt32 :=
  (data.eraseEndAddr - eraseFrom) / bytePerSector

/-- The first stage of `program_golden`, `program_user` and `program_timer`: erase the region
if asked to.  `mark` is what becomes of the percentage; the store comes before the status of
the erase is looked at. -/
def eraseStage (mark : UInt32 → Prog (World σ) Unit) (eraseFrom : FlashData → UInt32)
    (erase : UInt32) : Prog (World σ) Xst :=
  if erase ≠ 0 then do
    let data ← gets fun w => w.flashData
    let status ← qspiEraseSectorFlash env (eraseFrom data) (sectorsToErase data (eraseFrom data))
    mark 20
    pure status
  else pure .success

/-- The common part of the three functions: erase, program the image, verify it.  The
percentage is stored once more behind the erase. -/
def eraseProgramVerify (mark : UInt32 → Prog (World σ) Unit)
    (eraseFrom : FlashData → UInt32) (erase : UInt32) : Prog (World σ) Xst := do
  mark 1
  check (eraseStage env mark eraseFrom erase) do
    mark 20
    check (qspiProgramBin env) do
      mark 60
      check (qspiVerifyBin env) do
        mark 100
        pure .success

/-- `program_golden`.  Its erase begins where the selected region begins, and nothing checks
that the selected region is the golden one. -/
def programGolden (erase : UInt32) : Prog (World σ) Xst :=
  eraseProgramVerify env (fun _ => pure ()) (·.eraseStartAddr) erase

/-- `program_user`: the erase starts at a constant, not at `FlashData.eraseStartAddr`.  It is
the only one of the three that keeps the percentage. -/
def programUser (erase : UInt32) : Prog (World σ) Xst :=
  eraseProgramVerify env (setPercentage env) (fun _ => 0x08000000) erase

/-- `program_timer`; the timer number is only printed.  Which timer image is written depends
on the region that was selected before. -/
def programTimer (_timerid erase : UInt32) : Prog (World σ) Xst :=
  eraseProgramVerify env (fun _ => pure ()) (·.eraseStartAddr) erase

/-- A call of one of the three programming functions, with its arguments.  The three differ in
where the erase begins and in the percentages they store, and in nothing else. -/
inductive ProgramCall where
  | golden (erase : UInt32)
  | user (erase : UInt32)
  | timer (timerid erase : UInt32)
  deriving DecidableEq, Repr

/-- What the call runs, as one program. -/
def ProgramCall.run : ProgramCall → Prog (World σ) Xst
  | golden erase => programGolden env erase
  | user erase => programUser env erase
  | timer timerid erase => programTimer env timerid erase

/-- The call's `erase` argument.  With zero the erase is left out, and the image is programmed
over what is there. -/
def ProgramCall.erase : ProgramCall → UInt32
  | golden erase => erase
  | user erase => erase
  | timer _ erase => erase

/-- Where the call's erase begins.  `program_user` has the address of the user region as a
constant, and takes only the end from `FlashData`. -/
def ProgramCall.eraseFrom : ProgramCall → FlashData → UInt32
  | user _, _ => 0x08000000
  | _, data => data.eraseStartAddr

/-- What the call does with the percentages of its stages: `program_user` stores them.  The
other two leave the percentage to the page loops. -/
def ProgramCall.mark : ProgramCall → UInt32 → Prog (World σ) Unit
  | user _ => setPercentage env
  | _ => fun _ => pure ()

/-- The three functions are one. -/
theorem ProgramCall.run_eq (call : ProgramCall) :
    call.run (σ := σ) env =
      eraseProgramVerify env (call.mark env) call.eraseFrom call.erase := by
  cases call <;> rfl

/-! ## The regions -/

/-- An image region: the `FLASH_*_IMAGE_ADDRESS` and `FLASH_*_ERASE_*_ADDRESS` constants of
one image, and its `IMAGE_NAME_*`. -/
structure Region where
  baseAddr : UInt32
  eraseStartAddr : UInt32
  eraseEndAddr : UInt32
  imageName : String
  deriving DecidableEq, Repr

/-- The golden image, at the beginning of the flash.  Its end is the beginning of the first
timer image's sectors. -/
def Region.golden : Region := ⟨0x00000000, 0x00000000, 0x07FE0000, "ant4x400g_golden.bin"⟩

/-- The first timer image.  It begins in the last kilobyte of the sector that its erase starts
with. -/
def Region.timer1 : Region := ⟨0x07FFFC00, 0x07FE0000, 0x08000000, "timer1.bin"⟩

/-- The user image, in the second half of the flash that the FPGA boots from.  It is the one
region that the library writes. -/
def Region.user : Region := ⟨0x08000000, 0x08000000, 0x0FFC0000, "ANT16400101S1.bin"⟩

/-- The second timer image, in the last four sectors in front of the end of the map. -/
def Region.timer2 : Region := ⟨0x0FFC0000, 0x0FFC0000, 0x10000000, "timer2.bin"⟩

/-- The four assignments to `FlashData` that select a region.  Path and percentage stay. -/
def FlashData.select (data : FlashData) (region : Region) : FlashData :=
  { data with
    baseAddr := region.baseAddr
    eraseStartAddr := region.eraseStartAddr
    eraseEndAddr := region.eraseEndAddr
    filename := region.imageName }

/-- Select a region in the static `FlashData`.  The path stays as it is, so an image is looked
for where the last initialisation has put it. -/
def selectRegion (region : Region) : Prog (World σ) Unit :=
  .modify fun w => { w with flashData := w.flashData.select region }

/-! ## The entry points of the library -/

/-- The base address of the ICAP core, the configuration port of the FPGA. It is on the same
bus as the SPI core, and is written past the driver. -/
def icapBaseAddr : UInt64 := 0x00070000

/-- Offset of the ICAP write FIFO, where the words of the sequence go one by one. -/
def icapWriteFifo : UInt64 := 0x0200

/-- Offset of the ICAP control register.  A write of 1 sends what is in the FIFO. -/
def icapWriteControl : UInt64 := 0x0218

/-- The words that `icap` writes to the FIFO: the sequence that makes the FPGA load an image,
from the address in the fifth of them. -/
def iprogWords (die : UInt32) : List UInt64 :=
  [0xFFFFFFFF, 0xAA995566, 0x20000000, 0x30020001, if die = 2 then 0x08000000 else 0,
    0x30008001, 0x0000000F, 0x20000000]

/-- The FIFO writes of `icap`, one after the other.  The source spells out the eight of
them. -/
def icapWords : List UInt64 → Prog (World σ) Unit
  | [] => pure ()
  | word :: words => do
    pciWriteReg (icapBaseAddr + icapWriteFifo) word
    icapWords words

/-- `icap`: the sequence is written, and then sent by a write of the control register.  There
is no check of any kind in front, and the result is always success. -/
def icap (die : UInt32) : Prog (World σ) Xst := do
  icapWords (iprogWords die)
  pciWriteReg (icapBaseAddr + icapWriteControl) 0x00000001
  pure .success

/-- The path that `kiflash_init` sets.  The library has no other. -/
def imagePath : String := "/opt/ixia/A400G/current/fpga"

/-- The path name of the user image, the only image file that a call of the library opens. -/
def userImagePath : String := imagePath ++ "/" ++ Region.user.imageName

/-- The fields of `FlashData` that `kiflash_init` sets.  The percentage is not among them, as
its store is one of those that are recorded. -/
def FlashData.initial (data : FlashData) : FlashData :=
  { data with
    baseAddr := 0
    eraseStartAddr := 0
    eraseEndAddr := 0
    filename := ""
    path := imagePath }

/-- `kiflash_init`.  It opens the chassis device each time it is called, while the startup of
the driver is left out once it has succeeded. -/
def kiflashInit : Prog (World σ) Xst := do
  Prog.modify fun w => { w with flashData := w.flashData.initial }
  setPercentage env 0
  pcimemInit env
  check (ensureInit env) (pure .success)

/-- `kiflash_getprogress`: what the worker of the JavaScript module polls.  It reads the
percentage and changes nothing. -/
def kiflashGetprogress : Prog (World σ) UInt32 := gets fun w => w.flashData.percentage

/-- `kiflash_icap`.  A failed initialisation is not looked at: the sequence is sent all the
same. -/
def kiflashIcap (die : UInt32) : Prog (World σ) Xst := do
  let started ← gets fun w => w.qspiInitFlag
  let _ ← if started then pure .success else kiflashInit env
  icap die

/-- `kiflash_program_user`; the status of `kiflash_init` is dropped.  Behind a verified image
the FPGA is told to load it, and the percentage becomes 100. -/
def kiflashProgramUser : Prog (World σ) Xst := do
  let _ ← kiflashInit env
  selectRegion .user
  setPercentage env 0
  check (programUser env 1) do
    let _ ← icap 0
    setPercentage env 100
    pure .success

/-! ## Menu option 0 of `kiflashcmd` -/

/-- `case 0` of the menu, up to and including its `icap` call; `check` stands for the `break`
out of it.  The four dies are erased first, and the images programmed without an erase, except
for the two timers. -/
def reimageWholeFlash : Prog (World σ) Xst :=
  check (spiFlashDieErase env 0) <|
  check (spiFlashDieErase env 1) <|
  check (spiFlashDieErase env 2) <|
  check (spiFlashDieErase env 3) do
    selectRegion .timer1
    check (programTimer env 1 1) do
      selectRegion .timer2
      check (programTimer env 2 1) do
        selectRegion .golden
        check (programGolden env 0) do
          selectRegion .user
          check (programUser env 0) (icap 0)

end Images

end Kiflash
