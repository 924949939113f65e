import Kiflash.Spi.Core

/-!
# `XSpi_Transfer`

The transfer fills the transmit FIFO, lets the core send, and in polled mode alternates
between polling for an empty transmit FIFO, draining the receive FIFO and filling the transmit
FIFO again.

* `fillRound`, `drainRound` — the rounds of the two loops over a FIFO.
* `pollTxEmpty` — the wait for the core.
* `polledRound`, `polledTransfer` — the polled mode.
* `startTransfer`, `xspiTransfer` — the transfer, behind its checks and with them.

### The loops

The poll gives up after 100 reads.  The three other loops are unbounded in the source and
followed for `rounds` rounds; one that is not through by then has no result.  `ByteCount` and
`Data` are loop variables, everything else that changes is in the driver instance.  Both are
passed from round to round, as the code uses what an earlier round has left in them.

### What `StatusReg` holds

One variable takes turns at the status register and the interrupt status register.  The first
filling of a transfer is entered with the interrupt status in it, and tests it for the
transmit full bit; the fillings of the later rounds are entered with the status register.
Each read is a line of its own here, so that this is to be seen in the definitions.

### Two ways out

At its end the polled mode holds the transmitter back, raises the select lines and clears the
busy flag.  A poll that gives up returns from inside of the loop, and does none of these.
-/

open Imperative Imperative.Prog

namespace Kiflash.SpiCore

section Definitions

variable {ε : Type} [PciDevice ε]

/-- `DataWidth >> 3`, by which the counts of a transfer change with each word. -/
def bytesPerWord (dataWidth : UInt8) : UInt32 := (dataWidth >>> 3).toUInt32

/-- The next word to send; `data` is what the variable held before, and what goes out when the
width is none of the three. -/
def nextWord (dataWidth : UInt8) (buffer : ℕ → UInt8) (data : UInt32) : UInt32 :=
  if dataWidth = xspDatawidthByte then (buffer 0).toUInt32
  else if dataWidth = xspDatawidthHalfWord then
    (buffer 0).toUInt32 ||| (buffer 1).toUInt32 <<< 8
  else if dataWidth = xspDatawidthWord then
    (buffer 0).toUInt32 ||| (buffer 1).toUInt32 <<< 8 ||| (buffer 2).toUInt32 <<< 16 |||
      (buffer 3).toUInt32 <<< 24
  else data

/-- The bytes that a received word adds to the receive buffer, least significant first. -/
def wordBytes (dataWidth : UInt8) (data : UInt32) : List UInt8 :=
  if dataWidth = xspDatawidthByte then [data.toUInt8]
  else if dataWidth = xspDatawidthHalfWord then [data.toUInt8, (data >>> 8).toUInt8]
  else if dataWidth = xspDatawidthWord then
    [data.toUInt8, (data >>> 8).toUInt8, (data >>> 16).toUInt8, (data >>> 24).toUInt8]
  else []

/-- A round of filling the transmit FIFO, with `StatusReg` and `Data`.  It reads the status
register behind each word. -/
def fillRound (dataWidth : UInt8) :
    UInt32 × UInt32 → Prog (SpiCore ε) ((UInt32 × UInt32) ⊕ UInt32)
  | (statusReg, data) => do
    let spi ← gets fun s => s.spi
    if statusReg &&& xspSrTxFullMask = 0 ∧ 0 < spi.remainingBytes then do
      let data := nextWord dataWidth spi.sendBuffer data
      xspiPciWriteReg xspDtrOffset data.toUInt64
      setSpi fun spi =>
        { spi with
          sendBuffer := fun i => spi.sendBuffer (i + (bytesPerWord dataWidth).toNat)
          remainingBytes := spi.remainingBytes - bytesPerWord dataWidth }
      let statusReg ← xspiGetStatusReg
      pure (.inl (statusReg, data))
    else pure (.inr data)

/-- The poll of the transmit empty bit: what is left of `loopcountdown` after it.  The source
counts down after the read and before the test, so a bit that is up at the last read counts as
a timeout. -/
def pollTxEmpty : ℕ → Prog (SpiCore ε) ℕ
  | 0 => pure 0
  | loopcountdown + 1 => do
    let statusReg ← xspiIntrGetStatus
    if statusReg.toUInt32 &&& xspIntrTxEmptyMask = 0 ∧ loopcountdown ≠ 0 then
      pollTxEmpty loopcountdown
    else pure loopcountdown

/-- A round of draining the receive FIFO, with `StatusReg`, `ByteCount` and `Data`.  The byte
count goes down by what is received, and wraps when more comes than was asked for. -/
def drainRound (dataWidth : UInt8) :
    UInt32 × UInt32 × UInt32 → Prog (SpiCore ε) ((UInt32 × UInt32 × UInt32) ⊕ (UInt32 × UInt32))
  | (statusReg, byteCount, data) =>
    if statusReg &&& xspSrRxEmptyMask = 0 then do
      let value ← xspiPciReadReg xspDrrOffset
      let data := value.toUInt32
      setSpi fun spi =>
        { spi with recvBuffer := spi.recvBuffer.map (· ++ wordBytes dataWidth data) }
      let statusReg ← xspiGetStatusReg
      pure (.inl (statusReg, byteCount - bytesPerWord dataWidth, data))
    else pure (.inr (byteCount, data))

/-- Let the core send: the transmitter is no longer inhibited.  All other bits of the control
register are written back as they are. -/
def uninhibit : Prog (SpiCore ε) Unit := do
  let controlReg ← xspiGetControlReg
  xspiSetControlReg (controlReg &&& ~~~xspCrTransInhibitMask)

/-- Keep the core from sending.  Between two fills this holds what is already queued. -/
def inhibit : Prog (SpiCore ε) Unit := do
  let controlReg ← xspiGetControlReg
  xspiSetControlReg (controlReg ||| xspCrTransInhibitMask)

/-- A round of the polled mode, with `ByteCount` and `Data`: the next loop variables, or
the status with which the loop is left. -/
def polledRound (rounds : ℕ) (dataWidth : UInt8) :
    UInt32 × UInt32 → Prog (SpiCore ε) ((UInt32 × UInt32) ⊕ Xst)
  | (byteCount, data) =>
    if 0 < byteCount then do
      let loopcountdown ← pollTxEmpty 100
      if loopcountdown = 0 then pure (.inr .failure)
      else do
        xspiIntrClear xspIntrTxEmptyMask
        inhibit
        let statusReg ← xspiGetStatusReg
        let (byteCount, data) ← loop (drainRound dataWidth) rounds (statusReg, byteCount, data)
        let remainingBytes ← gets fun s => s.spi.remainingBytes
        if 0 < remainingBytes then do
          let statusReg ← xspiGetStatusReg
          let data ← loop (fillRound dataWidth) rounds (statusReg, data)
          uninhibit
          pure (.inl (byteCount, data))
        else pure (.inl (byteCount, data))
    else pure (.inr .success)

/-- The polled mode.  Only the end of the loop stops the transfer and clears the busy
flag; a poll that gives up returns from inside of it. -/
def polledTransfer (rounds : ℕ) (dataWidth : UInt8) (byteCount data : UInt32) :
    Prog (SpiCore ε) Xst :=
  check (loop (polledRound rounds dataWidth) rounds (byteCount, data)) do
    inhibit
    let spi ← gets fun s => s.spi
    xspiSetSlaveSelectReg spi.slaveSelectMask
    setSpi fun spi => { spi with isBusy := false }
    pure .success

/-- The transfer behind its checks.  With the interrupts on it returns as soon as the core has
been let go. -/
def startTransfer (rounds : ℕ) (buffer : ℕ → UInt8) (recv : Bool) (byteCount : UInt32)
    (globalIntrReg : Bool) : Prog (SpiCore ε) Xst := do
  setSpi fun spi =>
    { spi with
      isBusy := true
      sendBuffer := buffer
      recvBuffer := if recv then some [] else none
      requestedBytes := byteCount
      remainingBytes := byteCount }
  let spi ← gets fun s => s.spi
  let _ ← xspiGetStatusReg
  let statusReg ← xspiIntrGetStatus
  let data ← loop (fillRound spi.dataWidth) rounds (statusReg.toUInt32, 0)
  xspiSetSlaveSelectReg spi.slaveSelectReg
  uninhibit
  let _ ← xspiIntrGetStatus
  if globalIntrReg then do
    xspiIntrEnable xspIntrTxEmptyMask
    xspiIntrGlobalEnable
    pure .success
  else polledTransfer rounds spi.dataWidth byteCount data

/-- `XSpi_Transfer`; `send` is `none` for a `NULL` send buffer, `recv` says whether there is
a receive buffer. -/
def xspiTransfer (rounds : ℕ) (send : Option (ℕ → UInt8)) (recv : Bool) (byteCount : UInt32) :
    Prog (SpiCore ε) Xst := do
  let spi ← gets fun s => s.spi
  match send with
  | none => pure .failure
  | some buffer =>
    if byteCount = 0 ∨ spi.isReady ≠ xilComponentIsReady then pure .failure
    else if spi.isStarted ≠ xilComponentIsStarted then pure .deviceIsStopped
    else if spi.isBusy then pure .deviceBusy
    else do
      let globalIntrReg ← xspiIsIntrGlobalEnabled
      xspiIntrGlobalDisable
      let controlReg ← xspiGetControlReg
      if controlReg &&& xspCrMasterModeMask ≠ 0 ∧ controlReg &&& xspCrLoopbackMask = 0 ∧
          spi.slaveSelectReg = spi.slaveSelectMask then do
        if globalIntrReg then xspiIntrGlobalEnable
        pure .spiNoSlave
      else startTransfer rounds buffer recv byteCount globalIntrReg

end Definitions

end Kiflash.SpiCore
