import Kiflash.Machine
import Kiflash.Spi.Setup

/-!
# The interrupt mode of the driver

With the interrupts on, `XSpi_Transfer` only starts a transfer.  `XSpi_InterruptHandler` goes
on with it whenever the core raises one of the interrupts that are enabled, and tells the
status handler how it comes out.  Here the handler's result is the list of its calls of the
status handler.

* `StatusEvent`, `Report` — what the status handler is told.
* `conditions` — the interrupts that are only reported.
* `transmitEmpty` — what the handler does for an empty transmit FIFO.
* `xspiInterruptHandler` — the handler.
* `spiHandler` — the status handler of the flash code.

### The handler as a program

A call of the handler is one run of a program on the driver instance and the device.  When it
is called is up to the core, and is no part of this module.  The status handler is a function
pointer in the instance; that its calls are returned as a list, in their order, leaves open
what it does with them, and `spiHandler` says what the one of the flash code does.

### A mode fault

A mode fault means that another master has selected this core.  The handler gives the transfer
up and returns at once, without a look at the other interrupts.
-/

open Imperative Imperative.Prog

namespace Kiflash

/-- `XSP_INTR_MODE_FAULT_MASK`: another master has selected this one. -/
def xspIntrModeFaultMask : UInt32 := 0x00000001
/-- `XSP_INTR_SLAVE_MODE_FAULT_MASK`. -/
def xspIntrSlaveModeFaultMask : UInt32 := 0x00000002
/-- `XSP_INTR_TX_UNDERRUN_MASK`. -/
def xspIntrTxUnderrunMask : UInt32 := 0x00000008
/-- `XSP_INTR_RX_OVERRUN_MASK`. -/
def xspIntrRxOverrunMask : UInt32 := 0x00000020
/-- `XSP_INTR_TX_HALF_EMPTY_MASK`. -/
def xspIntrTxHalfEmptyMask : UInt32 := 0x00000040
/-- `XSP_INTR_SLAVE_MODE_MASK`. -/
def xspIntrSlaveModeMask : UInt32 := 0x00000080
/-- `XSP_INTR_RX_NOT_EMPTY_MASK`. -/
def xspIntrRxNotEmptyMask : UInt32 := 0x00000100
/-- `XSP_INTR_CMD_ERR_MASK`. -/
def xspIntrCmdErrMask : UInt32 := 0x00002000

/-- The status events, `XST_SPI_MODE_FAULT` to `XST_SPI_COMMAND_ERROR`. -/
inductive StatusEvent where
  | modeFault
  | transferDone
  | transmitUnderrun
  | receiveOverrun
  | slaveModeFault
  | slaveMode
  | receiveNotEmpty
  | commandError
  deriving DecidableEq

/-- A call of the status handler: `StatusEvent` and `ByteCount`.  The reference to the
caller's own data is always the instance. -/
abbrev Report : Type := StatusEvent × UInt32

/-- `SpiHandler`, the status handler of the flash code.  It has one counter for all the
errors, so what went wrong is not kept. -/
def spiHandler {σ : Type} (w : World σ) (report : Report) : World σ :=
  { w with
    transferInProgress := false
    errorCount := if report.1 ≠ .transferDone then w.errorCount + 1 else w.errorCount }

/-- The conditions that the handler only reports, in its order.  The order is that of the
source, and several may come in one call. -/
def conditions (intrStatus bytesDone : UInt32) : List Report :=
  List.filterMap (fun entry => if intrStatus &&& entry.1 ≠ 0 then some entry.2 else none)
    [(xspIntrSlaveModeMask, .slaveMode, 0), (xspIntrRxNotEmptyMask, .receiveNotEmpty, 0),
      (xspIntrSlaveModeFaultMask, .slaveModeFault, bytesDone),
      (xspIntrRxOverrunMask, .receiveOverrun, bytesDone),
      (xspIntrTxUnderrunMask, .transmitUnderrun, bytesDone),
      (xspIntrCmdErrMask, .commandError, bytesDone)]

/-- The interrupts that are reported, and no part of a transfer.  A sole master never sees
them. -/
def errorMask : UInt32 :=
  xspIntrModeFaultMask ||| xspIntrSlaveModeFaultMask ||| xspIntrTxUnderrunMask |||
    xspIntrRxOverrunMask ||| xspIntrSlaveModeMask ||| xspIntrRxNotEmptyMask ||| xspIntrCmdErrMask

/-- A word without the bits of a mask has none of a part of it. -/
theorem and_eq_zero_of_and {x mask mask' : UInt32} (h : x &&& mask = 0)
    (hsub : mask &&& mask' = mask') : x &&& mask' = 0 := by
  rw [← hsub, ← UInt32.and_assoc, h, UInt32.zero_and]

/-- Without these interrupts there is nothing to report. -/
theorem conditions_of_quiet {intrStatus : UInt32} (h : intrStatus &&& errorMask = 0)
    (bytesDone : UInt32) : conditions intrStatus bytesDone = [] := by
  have hnone : ∀ mask, errorMask &&& mask = mask → ¬ intrStatus &&& mask ≠ 0 := fun _ hsub =>
    not_not_intro (and_eq_zero_of_and h hsub)
  simp only [conditions, List.filterMap_cons, List.filterMap_nil,
    if_neg (hnone xspIntrSlaveModeMask rfl), if_neg (hnone xspIntrRxNotEmptyMask rfl),
    if_neg (hnone xspIntrSlaveModeFaultMask rfl), if_neg (hnone xspIntrRxOverrunMask rfl),
    if_neg (hnone xspIntrTxUnderrunMask rfl), if_neg (hnone xspIntrCmdErrMask rfl)]

namespace SpiCore

variable {ε : Type} [PciDevice ε]

/-- `XSpi_IntrDisable`; the complement of the mask is one of 64 bits, so the upper half of the
register stays. -/
def xspiIntrDisable (disableMask : UInt32) : Prog (SpiCore ε) Unit := do
  let enabled ← xspiPciReadReg xspIierOffset
  xspiPciWriteReg xspIierOffset (enabled &&& ~~~(disableMask &&& xspIntrAll).toUInt64)

/-- What the handler does for an empty transmit FIFO: the received bytes are stored, and the FIFO is
filled again or the transfer is over.  The byte count of the draining loop is one of the polled
mode. -/
def transmitEmpty (rounds : ℕ) (dataWidth : UInt8) : Prog (SpiCore ε) (List Report) := do
  let controlReg ← xspiGetControlReg
  xspiSetControlReg (controlReg ||| xspCrTransInhibitMask)
  let statusReg ← xspiGetStatusReg
  let drained ← loop (drainRound dataWidth) rounds (statusReg, 0, 0)
  let remainingBytes ← gets fun s => s.spi.remainingBytes
  if 0 < remainingBytes then do
    let statusReg ← xspiGetStatusReg
    let _ ← loop (fillRound dataWidth) rounds (statusReg, drained.2)
    xspiSetControlReg controlReg
    pure []
  else do
    let spi ← gets fun s => s.spi
    xspiSetSlaveSelectReg spi.slaveSelectMask
    xspiIntrDisable xspIntrTxEmptyMask
    setSpi fun spi => { spi with isBusy := false }
    pure [(.transferDone, spi.requestedBytes)]

/-- `XSpi_InterruptHandler`.  It returns the calls of the status handler in their order.  The
interrupts are cleared before anything else, so that one raised meanwhile is not lost, and a
mode fault ends the call at once. -/
def xspiInterruptHandler (rounds : ℕ) : Prog (SpiCore ε) (List Report) := do
  let intrStatus ← xspiIntrGetStatus
  let intrStatus := intrStatus.toUInt32
  xspiIntrClear intrStatus
  let spi ← gets fun s => s.spi
  if intrStatus &&& xspIntrModeFaultMask ≠ 0 then do
    xspiAbort
    let _ ← xspiGetStatusReg
    pure [(.modeFault, spi.requestedBytes - spi.remainingBytes)]
  else do
    let reports ←
      if intrStatus &&& xspIntrTxEmptyMask ≠ 0 ∨ intrStatus &&& xspIntrTxHalfEmptyMask ≠ 0 then
        transmitEmpty rounds spi.dataWidth
      else pure []
    let spi ← gets fun s => s.spi
    pure (reports ++ conditions intrStatus (spi.requestedBytes - spi.remainingBytes))

end SpiCore

end Kiflash
