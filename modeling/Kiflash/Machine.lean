import Kiflash.Driver
import Kiflash.Imperative.Buffer

/-!
# The state of `flash_qspi_rw.c`

`World σ` holds the static variables of the file that its functions read and write, and the
driver state `σ` behind them.  `Env` holds what a run meets but does not change: the file
system, the contents of fresh heap memory, the PCI device file.

* `Env`, `World`, `Event` — the host, the state, and what a run leaves on record.
* `xspiTransfer` — the one call through which the flash is reached.
* `fillWriteBuffer`, `readPage` and the like — the stores and the library calls.

### What is there for the statements only

Two components are not variables of the program.  `events` is the record of what the run has
done, oldest first: every transfer with the state of the bus before it, every store to
`FlashData.percentage`, every register write outside the SPI core.  It is written and never
read by the code.  `Env.rounds` is the number of rounds for which an unbounded polling loop is
followed; a run that needs more of them stops with `Stop.spin`.

### What is constant, and kept nevertheless

`TransferInProgress` and `ErrorCount` are modelled although polled mode makes them constant
outside a transfer: only `SpiHandler` raises `ErrorCount`, and nothing installs an interrupt
that would call it.  The code reads both behind every transfer, and a model without them would
have to claim that they do not matter; here this is proved where it is used.

### The answers of the host

`fopen`, `malloc` and `open` are answered by their number: the `n`-th call gets the `n`-th
answer.  The host may so give a different file each time, or memory with different contents,
and a result that needs the answers to agree says so.
-/

open Imperative

namespace Kiflash

/-- An open file: what `ftell` reports at its end, and the bytes `fread` finds.  The two need
not agree, as they do not for a special file. -/
structure File where
  ftell : UInt64
  contents : List UInt8
  deriving DecidableEq, Repr

/-- `ftell` reports the number of bytes, as it does for a regular file.  The loops count their
pages by what `ftell` says, and read by what `fread` finds, so the two are kept apart. -/
def File.Regular (file : File) : Prop := file.ftell.toNat = file.contents.length

instance (file : File) : Decidable file.Regular :=
  inferInstanceAs (Decidable (file.ftell.toNat = file.contents.length))

/-- What a run meets and does not change.  The answers of the host are functions of how many
calls have been made, so that a file may appear, change or vanish between two calls. -/
structure Env where
  /-- The answer to the `n`-th `fopen`, by path name. -/
  fopen : ℕ → String → Option File
  /-- The memory that the `n`-th `malloc` of a page buffer returns. -/
  malloc : ℕ → ℕ → UInt8
  /-- Whether the `n`-th `open` of the chassis PCI device succeeds. -/
  openPci : ℕ → Bool
  /-- The number of rounds for which an unbounded loop is followed. -/
  rounds : ℕ
  /-- Whether `FlashData.percentage` is kept.  The copy of the file in `kiflashcore`
  keeps it; the copy in `kiflashcmd` has the same functions without it. -/
  progress : Bool

/-- The static `FlashData`: the region that is worked on, the progress, and the path of the
image.  A programming function takes its region from here, not from its arguments. -/
structure FlashData where
  baseAddr : UInt32
  eraseStartAddr : UInt32
  eraseEndAddr : UInt32
  percentage : UInt32
  path : String
  filename : String
  deriving DecidableEq, Repr

/-- What a run does that its statements speak about.  `before` is the state behind the driver
when it happens, so that a statement about the record can say what the device was like at that
time. -/
inductive Event (σ : Type) where
  /-- A call of `XSpi_Transfer`, with its status when it returned. -/
  | transfer (before : σ) (frame : List UInt8) (status : Option Xst)
  /-- A store to `FlashData.percentage`. -/
  | percentage (value : UInt32)
  /-- A write to a register outside the SPI core. -/
  | pciWrite (before : σ) (address data : UInt64)
  /-- `printf ("bin verify passed\n")`. -/
  | verifyPassed
  /-- The address label at the head of a line of the dump. -/
  | label (address : UInt32)
  /-- A byte of the dump. -/
  | data (value : UInt8)

/-- A host with one answer to every `fopen`, and fresh memory filled with `heap`.  The chassis
device opens, and a loop is followed for one round: enough for a flash that is never busy. -/
def Env.plain (answer : Option File) (heap : UInt8) : Env where
  fopen _ _ := answer
  malloc _ _ := heap
  openPci _ := true
  rounds := 1
  progress := true

/-- The static variables of the file, and the state behind the driver.  The two buffers are
functions, since what the code has not stored in them is sent as well. -/
structure World (σ : Type) where
  bus : σ
  flashData : FlashData
  qspiInitFlag : Bool
  transferInProgress : Bool
  errorCount : ℕ
  readBuffer : ℕ → UInt8
  writeBuffer : ℕ → UInt8
  /-- Page buffers taken from the heap so far. -/
  mallocs : ℕ
  /-- Calls of `fopen` so far. -/
  fopens : ℕ
  /-- Streams open now. -/
  streams : ℕ
  /-- Descriptors of the chassis PCI device opened so far. -/
  pciFds : ℕ
  events : List (Event σ)

/-- The static variables of a fresh process, before a bus in the state `bus`.  C initialises
them with zeros; the bus is as the processes before have left it. -/
def World.fresh {σ : Type} (bus : σ) : World σ where
  bus := bus
  flashData := ⟨0, 0, 0, 0, "", ""⟩
  qspiInitFlag := false
  transferInProgress := false
  errorCount := 0
  readBuffer _ := 0
  writeBuffer _ := 0
  mallocs := 0
  fopens := 0
  streams := 0
  pciFds := 0
  events := []

/-- The events of a run from `w` to `w'`.  The record only grows, so this is what stands
behind the old part. -/
def newEvents {σ : Type} (w w' : World σ) : List (Event σ) := w'.events.drop w.events.length

/-- The new events can be read off an equation for the record. -/
theorem newEvents_of_eq {σ : Type} {w w' : World σ} {es : List (Event σ)}
    (h : w'.events = w.events ++ es) : newEvents w w' = es := by
  rw [newEvents, h, List.drop_left]

/-- Of two runs one behind the other, the events are those of the first and those of the
second. -/
theorem newEvents_append {σ : Type} {w w₁ w₂ : World σ} {es : List (Event σ)}
    (h : w.events <+: w₁.events) (h₂ : w₂.events = w₁.events ++ es) :
    newEvents w w₂ = newEvents w w₁ ++ es := by
  rw [newEvents, h₂, List.drop_append_of_le_length h.length_le, newEvents]

/-- `PAGE_SIZE`, the number of bytes that one page program command writes. -/
def pageSize : UInt32 := 256

/-- `READ_WRITE_EXTRA_BYTES`.  The comment in the source counts the command and the address in
it; with a four-byte address it is one byte short.  The page program adds that byte, and the
read has it among its dummy bytes. -/
def readWriteExtraBytes : UInt32 := 4

/-- The size of `ReadBuffer` and of `WriteBuffer`, `PAGE_SIZE + READ_WRITE_EXTRA_BYTES + 5`.
It is exactly what the read of a page with its dummy bytes fills. -/
def bufferSize : ℕ := 265

section Primitives

variable {σ : Type} (env : Env)

/-- `WriteBuffer[i] = b`.  A store outside of the array is the end of what can be said of the
run: the run stops as wild, and no claim about its outcome holds by accident. -/
def setWriteBuffer (i : ℕ) (b : UInt8) : Prog (World σ) Unit :=
  if i < bufferSize then
    .modify fun w => { w with writeBuffer := overlay w.writeBuffer i [b] }
  else .halt .wild

/-- Consecutive stores into `WriteBuffer`, from the index `i` on.  The functions of the source
store a command and its address byte by byte. -/
def fillWriteBuffer : ℕ → List UInt8 → Prog (World σ) Unit
  | _, [] => pure ()
  | i, b :: bs => setWriteBuffer i b >>= fun _ => fillWriteBuffer (i + 1) bs

/--
`for (Index = 0; Index < PAGE_SIZE + READ_WRITE_EXTRA_BYTES; Index++) ReadBuffer[Index] = 0x0`:
the last five bytes of the array are left as they are. -/
def clearReadBuffer : Prog (World σ) Unit :=
  .modify fun w => { w with readBuffer := overlay w.readBuffer 0 (List.replicate 260 0) }

/-- Record an event.  The record is of the model, not of the source: what a caller can observe
of a run is read off it. -/
def emit (e : Event σ) : Prog (World σ) Unit :=
  .modify fun w => { w with events := w.events ++ [e] }

/-- `FlashData.percentage = value`, in the copy of the file that keeps the percentage.  Each
store is recorded as well, as another thread may look at any of them. -/
def setPercentage (value : UInt32) : Prog (World σ) Unit :=
  if env.progress then
    .modify fun w =>
      { w with
        flashData := { w.flashData with percentage := value }
        events := w.events ++ [.percentage value] }
  else pure ()

/-- `TransferInProgress = b`.  The flag is set around every transfer; the wait for it never
turns, as the driver is used in polled mode. -/
def setTransferInProgress (b : Bool) : Prog (World σ) Unit :=
  .modify fun w => { w with transferInProgress := b }

/-- `while(TransferInProgress);`, which spins for ever if the flag is set: nothing else would
clear it. -/
def awaitTransfer : Prog (World σ) Unit :=
  Prog.gets (·.transferInProgress) >>= fun busy => if busy then .halt .spin else pure ()

/-- `if(ErrorCount != 0) { ErrorCount = 0; return XST_FAILURE; }`, else success.  An error is
reported once. -/
def errorCheck : Prog (World σ) Xst :=
  Prog.gets (·.errorCount) >>= fun n =>
    if n = 0 then pure .success
    else .modify (fun w => { w with errorCount := 0 }) >>= fun _ => pure .failure

/-- The state after an `fopen` with this answer.  A file that is not there opens no stream.
The counter of the calls advances in both cases, so that the next call has an answer of its
own. -/
def World.opened (w : World σ) (answer : Option File) : World σ :=
  { w with fopens := w.fopens + 1, streams := w.streams + if answer.isSome then 1 else 0 }

/-- `fopen(filename, "r")`.  What the host answers depends on the name and on the number of
the calls before, and `none` is the null pointer. -/
def fopen (filename : String) : Prog (World σ) (Option File) := fun w =>
  (.ret (env.fopen w.fopens filename), w.opened (env.fopen w.fopens filename))

/-- `fclose(fp)`.  The functions call it on the streams that they have opened, and not on
every way out. -/
def fclose : Prog (World σ) Unit := .modify fun w => { w with streams := w.streams - 1 }

/-- `malloc` of a page buffer.  Its contents are up to the host: a short `fread` leaves its
end as it is, and that is what goes into the last page of an image. -/
def mallocPage : Prog (World σ) (ℕ → UInt8) := fun w =>
  (.ret (env.malloc w.mallocs), { w with mallocs := w.mallocs + 1 })

/-- `fseek(fp, offset, SEEK_SET); fread(buffer, 1, PAGE_SIZE, fp)`: the bytes of the
file that are there, over what the buffer held. -/
def fread (file : File) (offset : UInt32) (buffer : ℕ → UInt8) : ℕ → UInt8 :=
  overlay buffer 0 ((file.contents.drop offset.toNat).take 256)

/-- `pcimem_init`: the process ends when the device cannot be opened.  The descriptor that is
opened is never closed. -/
def pcimemInit : Prog (World σ) Unit := fun w =>
  if env.openPci w.pciFds then (.ret (), { w with pciFds := w.pciFds + 1 })
  else (.stop .exit, w)

variable [XSpiDriver σ]

/-- The state after a call of `XSpi_Transfer` that left the bus as `bus`: the transfer is on
record, with the bus as it was before. -/
def World.sent (w : World σ) (frame : List UInt8) (status : Option Xst) (bus : σ) : World σ :=
  { w with bus, events := w.events ++ [.transfer w.bus frame status] }

/-- A driver call that only returns a status.  It leaves no event, as nothing is exchanged
with the flash. -/
def callDriver (call : σ → Xst × σ) : Prog (World σ) Xst := fun w =>
  (.ret (call w.bus).1, { w with bus := (call w.bus).2 })

/-- `XSpi_Transfer(SpiPtr, WriteBuffer, ReadBuffer, ByteCount)`, with `NULL` for `ReadBuffer`
unless `recv`.

A byte count beyond the buffers, or an answer beyond them, is an access outside of the arrays.
A transfer that is still polling when its rounds are over is on record without a status. -/
def xspiTransfer (recv : Bool) (byteCount : ℕ) : Prog (World σ) Xst := fun w =>
  if bufferSize < byteCount then (.stop .wild, w)
  else
    let frame := bytesOf w.writeBuffer byteCount
    match XSpiDriver.xspiTransfer env.rounds frame recv w.bus with
    | (none, bus) => (.stop .spin, w.sent frame none bus)
    | (some (status, stored), bus) =>
      if bufferSize < stored.length then (.stop .wild, w.sent frame status bus)
      else
        (.ret status,
          { w.sent frame status bus with
            readBuffer := if recv then overlay w.readBuffer 0 stored else w.readBuffer })

/-- `PciWriteReg(&Spi, baseAddr, address, data)`, on record as well.  Outside of the driver
only `icap` uses it, for the registers of another core. -/
def pciWriteReg (address data : UInt64) : Prog (World σ) Unit :=
  .modify fun w =>
    { w with
      bus := XSpiDriver.pciWriteReg address data w.bus
      events := w.events ++ [.pciWrite w.bus address data] }

end Primitives

/-! ## Rules for the primitives -/

section Rules

variable {σ : Type} {env : Env} {w : World σ}

/-- Stores inside the bounds of `WriteBuffer` are one overlay.  The frames of all the commands
are put together by this lemma. -/
theorem fillWriteBuffer_eq {i : ℕ} {bs : List UInt8} (h : i + bs.length ≤ bufferSize) :
    fillWriteBuffer i bs w = (.ret (), { w with writeBuffer := overlay w.writeBuffer i bs }) := by
  induction bs generalizing i w with
  | nil => simp [fillWriteBuffer, pure]
  | cons b bs ih =>
      rw [List.length_cons] at h
      have hi : i < bufferSize := by omega
      change Prog.andThen (setWriteBuffer i b) _ w = _
      rw [setWriteBuffer, if_pos hi]
      change fillWriteBuffer (i + 1) bs _ = _
      rw [ih (by omega)]
      simp only [overlay_cons]

/-- Stores that may run over the end of `WriteBuffer`: they touch nothing else, and nothing
below the index they start from. -/
theorem wp_fillWriteBuffer {i : ℕ} {bs : List UInt8} {Q : Unit → World σ → Prop}
    {R : Stop → World σ → Prop}
    (ret : i + bs.length ≤ bufferSize ∨ bs = [] →
      Q () { w with writeBuffer := overlay w.writeBuffer i bs })
    (wild : ∀ writeBuffer, R .wild { w with writeBuffer }) :
    Prog.wp (fillWriteBuffer i bs) Q R w := by
  induction bs generalizing i w with
  | nil => simpa [fillWriteBuffer] using ret (.inr rfl)
  | cons b bs ih =>
      refine Prog.wp_bind.mpr ?_
      rw [setWriteBuffer, Prog.wp_ite]
      refine ⟨fun hi => Prog.wp_modify.mpr (ih (fun h => ?_) fun _ => wild _), fun _ => wild _⟩
      have hlen : i + (b :: bs).length ≤ bufferSize := by
        rcases h with h | rfl
        · rw [List.length_cons]; omega
        · exact hi
      simpa only [overlay_cons] using ret (.inl hlen)

/-- A store to the percentage, in both copies of the file. -/
theorem wp_setPercentage {value : UInt32} {Q : Unit → World σ → Prop}
    {R : Stop → World σ → Prop} :
    Prog.wp (setPercentage env value) Q R w ↔
      Q () (if env.progress then
        { w with
          flashData := { w.flashData with percentage := value }
          events := w.events ++ [.percentage value] } else w) := by
  by_cases h : env.progress <;> simp [setPercentage, h]

/-- The two outcomes of `pcimem_init`. -/
theorem wp_pcimemInit {Q : Unit → World σ → Prop} {R : Stop → World σ → Prop} :
    Prog.wp (pcimemInit env) Q R w ↔
      (env.openPci w.pciFds = true → Q () { w with pciFds := w.pciFds + 1 }) ∧
        (env.openPci w.pciFds = false → R .exit w) := by
  by_cases h : env.openPci w.pciFds = true <;> simp [Prog.wp, pcimemInit, h]

theorem wp_mallocPage {Q : (ℕ → UInt8) → World σ → Prop} {R : Stop → World σ → Prop} :
    Prog.wp (mallocPage env) Q R w ↔ Q (env.malloc w.mallocs) { w with mallocs := w.mallocs + 1 } :=
  Iff.rfl

theorem wp_callDriver {call : σ → Xst × σ} {Q : Xst → World σ → Prop}
    {R : Stop → World σ → Prop} :
    Prog.wp (callDriver call) Q R w ↔ Q (call w.bus).1 { w with bus := (call w.bus).2 } :=
  Iff.rfl

variable [XSpiDriver σ]

/-- A call of `XSpi_Transfer`, by what the driver did.  The four cases are the two accesses
outside of the arrays, the transfer that does not end, and the one that returns. -/
theorem wp_xspiTransfer {recv : Bool} {n : ℕ} {Q : Xst → World σ → Prop}
    {R : Stop → World σ → Prop}
    (bounds : bufferSize < n → R .wild w)
    (spin : ∀ bus, XSpiDriver.xspiTransfer env.rounds (bytesOf w.writeBuffer n) recv w.bus =
      (none, bus) → R .spin (w.sent (bytesOf w.writeBuffer n) none bus))
    (wild : ∀ status stored bus,
      XSpiDriver.xspiTransfer env.rounds (bytesOf w.writeBuffer n) recv w.bus =
        (some (status, stored), bus) → bufferSize < stored.length →
      R .wild (w.sent (bytesOf w.writeBuffer n) (some status) bus))
    (ret : ∀ status stored bus,
      XSpiDriver.xspiTransfer env.rounds (bytesOf w.writeBuffer n) recv w.bus =
        (some (status, stored), bus) → stored.length ≤ bufferSize →
      Q status { w.sent (bytesOf w.writeBuffer n) (some status) bus with
        readBuffer := if recv then overlay w.readBuffer 0 stored else w.readBuffer }) :
    Prog.wp (xspiTransfer env recv n) Q R w := by
  by_cases hn : bufferSize < n
  · exact (Prog.wp_of_stop (by rw [xspiTransfer, if_pos hn])).mpr (bounds hn)
  · rcases hx : XSpiDriver.xspiTransfer env.rounds (bytesOf w.writeBuffer n) recv w.bus with
      ⟨_ | ⟨status, stored⟩, bus⟩
    · exact (Prog.wp_of_stop (by simp only [xspiTransfer, if_neg hn, hx])).mpr (spin _ hx)
    · by_cases hs : bufferSize < stored.length
      · exact (Prog.wp_of_stop (by simp only [xspiTransfer, if_neg hn, hx, if_pos hs])).mpr
          (wild _ _ _ hx hs)
      · exact (Prog.wp_of_ret (by simp only [xspiTransfer, if_neg hn, hx, if_neg hs])).mpr
          (ret _ _ _ hx (Nat.le_of_not_lt hs))

/-- A call of `XSpi_Transfer` that returned: the driver has returned, and its answer is in
`ReadBuffer` if one was asked for. -/
theorem xspiTransfer_eq_ret {recv : Bool} {n : ℕ} {status : Xst} {w' : World σ}
    (h : xspiTransfer env recv n w = (.ret status, w')) :
    ∃ stored bus,
      XSpiDriver.xspiTransfer env.rounds (bytesOf w.writeBuffer n) recv w.bus =
        (some (status, stored), bus) ∧
      w' = { w.sent (bytesOf w.writeBuffer n) (some status) bus with
        readBuffer := if recv then overlay w.readBuffer 0 stored else w.readBuffer } := by
  have hwp : Prog.wp (xspiTransfer env recv n)
      (fun status w' => ∃ stored bus,
        XSpiDriver.xspiTransfer env.rounds (bytesOf w.writeBuffer n) recv w.bus =
          (some (status, stored), bus) ∧
        w' = { w.sent (bytesOf w.writeBuffer n) (some status) bus with
          readBuffer := if recv then overlay w.readBuffer 0 stored else w.readBuffer })
      (fun _ _ => True) w :=
    wp_xspiTransfer (fun _ => trivial) (fun _ _ => trivial) (fun _ _ _ _ _ => trivial)
      fun _ stored bus hx _ => ⟨stored, bus, hx, rfl⟩
  exact (Prog.wp_of_ret h).mp hwp

end Rules

end Kiflash
