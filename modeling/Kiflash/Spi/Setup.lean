import Kiflash.Spi.Transfer

/-!
# Setting up the SPI driver

The functions of `xspi.c` and `xspi_options.c` that `System_init_startup` calls, and the
driver as a whole: `SpiCore ε` is an `XSpiDriver`, so that the flash code runs over the
registers of any PCI device `ε`.

* `xspiAbort`, `xspiReset` — giving a transfer up, and the reset of the core.
* `configured`, `xspiCfgInitialize` — the instance as the startup sets it up.
* `xspiSetOptions`, `xspiSetSlaveSelect`, `xspiStart` — the calls that the startup makes
  behind it.
* the instance of `XSpiDriver`.

### The order of the startup

`XSpi_CfgInitialize` refuses a driver that is started, and nothing in the repository ever
stops one.  So the functions of this module run once in a process, unless they fail before
`XSpi_Start`; and a startup that fails behind it can never be repeated.

### Words of other widths

The transfer supports words of 8, 16 and 32 bits, and the configuration table has one core,
with bytes.  The other widths are modelled as the code has them.

### From a driver function to `XSpiDriver`

The setup functions have no loops, so that they always return; `statusOf` takes this into
account.  A transfer may run out of its rounds, and then has no status.  The receive buffer of
the flash code is an array which the driver is given a pointer to, and the interface hands
over the bytes that have been stored into it.
-/

open Imperative Imperative.Prog

namespace Kiflash.SpiCore

section Definitions

variable {ε : Type} [PciDevice ε]

/-- `XSpi_Abort`; its `ControlReg` is a `u16`, which cuts off the upper half of the
register. -/
def xspiAbort : Prog (SpiCore ε) Unit := do
  let spi ← gets fun s => s.spi
  xspiSetSlaveSelectReg spi.slaveSelectMask
  let controlReg ← xspiGetControlReg
  let controlReg := controlReg.toUInt16 ||| xspCrTransInhibitMask.toUInt16
  let controlReg :=
    if spi.hasFifos then
      controlReg ||| (xspCrTxfifoResetMask ||| xspCrRxfifoResetMask).toUInt16
    else controlReg
  xspiSetControlReg controlReg.toUInt32
  setSpi fun spi => { spi with remainingBytes := 0, requestedBytes := 0, isBusy := false }

/-- `XSpi_Reset`: the transfer is given up, the driver stopped and the core reset.  The busy
flag is cleared by the abort that it begins with. -/
def xspiReset : Prog (SpiCore ε) Unit := do
  xspiAbort
  setSpi fun spi => { spi with isStarted := 0, slaveSelectReg := spi.slaveSelectMask }
  xspiPciWriteReg xspSrrOffset xspSrrResetMask

/-- The dummy read of `XSpi_CfgInitialize` for designs with a startup block.  Three bytes are
sent to whatever is selected, and up to two of the answers are taken. -/
def startupRead : Prog (SpiCore ε) Unit := do
  let controlReg ← xspiGetControlReg
  xspiSetControlReg (controlReg ||| (xspCrTxfifoResetMask ||| xspCrRxfifoResetMask |||
    xspCrEnableMask ||| xspCrMasterModeMask))
  xspiPciWriteReg xspDtrOffset 0x9F
  xspiPciWriteReg xspDtrOffset 0x00
  xspiPciWriteReg xspDtrOffset 0x00
  uninhibit
  inhibit
  let statusReg ← xspiGetStatusReg
  if statusReg &&& xspSrRxEmptyMask = 0 then do
    let _ ← xspiPciReadReg xspDrrOffset
  let statusReg ← xspiGetStatusReg
  if statusReg &&& xspSrRxEmptyMask = 0 then do
    let _ ← xspiPciReadReg xspDrrOffset

/-- The instance as `XSpi_CfgInitialize` sets it up.  A width of zero in the table means
bytes. -/
def configured (config : XSpiConfig) (spi : XSpi) : XSpi :=
  { spi with
    isStarted := 0
    isBusy := false
    sendBuffer := fun _ => 0
    recvBuffer := none
    requestedBytes := 0
    remainingBytes := 0
    baseAddr := config.baseAddress
    hasFifos := config.hasFifos
    slaveOnly := config.slaveOnly
    numSlaveBits := config.numSlaveBits
    dataWidth := if config.dataWidth = 0 then xspDatawidthByte else config.dataWidth
    isReady := xilComponentIsReady
    slaveSelectMask := (1 <<< config.numSlaveBits.toUInt32) - 1
    slaveSelectReg := (1 <<< config.numSlaveBits.toUInt32) - 1 }

/-- `XSpi_CfgInitialize`, with the base address of the configuration.  A started driver
refuses, so a second startup of a driver that has come up gets no further than this. -/
def xspiCfgInitialize (config : XSpiConfig) : Prog (SpiCore ε) Xst := do
  let spi ← gets fun s => s.spi
  if spi.isStarted = xilComponentIsStarted then pure .deviceIsStarted
  else do
    setSpi (configured config)
    if config.useStartup = 1 then startupRead
    xspiReset
    pure .success

/-- `OptionsTable`: the options and the bits of the control register that they stand for. -/
def optionsTable : List (UInt32 × UInt32) :=
  [(0x8, xspCrLoopbackMask), (0x2, xspCrClkPolarityMask), (0x4, xspCrClkPhaseMask),
    (xspMasterOption, xspCrMasterModeMask), (xspManualSselectOption, xspCrManualSsMask)]

/-- `XSpi_SetOptions`.  An option that is not asked for is switched off, and all other bits of
the control register stay. -/
def xspiSetOptions (options : UInt32) : Prog (SpiCore ε) Xst := do
  let spi ← gets fun s => s.spi
  if spi.isBusy then pure .deviceBusy
  else if options &&& xspMasterOption ≠ 0 ∧ spi.slaveOnly then pure .spiSlaveOnly
  else do
    let controlReg ← xspiGetControlReg
    xspiSetControlReg <| optionsTable.foldl
      (fun controlReg entry =>
        if options &&& entry.1 ≠ 0 then controlReg ||| entry.2 else controlReg &&& ~~~entry.2)
      controlReg
    pure .success

/-- `NumAsserted` of `XSpi_SetSlaveSelect`: the lines of the mask that the core has. -/
def numAsserted (slaveMask : UInt32) (numSlaveBits : UInt8) : ℕ :=
  (List.range numSlaveBits.toNat).countP fun index => (slaveMask >>> UInt32.ofNat index) &&& 0x1 ≠ 0

/-- `XSpi_SetSlaveSelect`.  It only notes the selection in the instance; the register is
written by the next transfer. -/
def xspiSetSlaveSelect (slaveMask : UInt32) : Prog (SpiCore ε) Xst := do
  let spi ← gets fun s => s.spi
  if spi.isBusy then pure .deviceBusy
  else if 1 < numAsserted slaveMask spi.numSlaveBits then pure .spiTooManySlaves
  else do
    setSpi fun spi => { spi with slaveSelectReg := ~~~slaveMask }
    pure .success

/-- `XSpi_Start`: the interrupts are switched on and off again at its end. -/
def xspiStart : Prog (SpiCore ε) Xst := do
  let spi ← gets fun s => s.spi
  if spi.isReady ≠ xilComponentIsReady then pure .failure
  else if spi.isStarted = xilComponentIsStarted then pure .deviceIsStarted
  else do
    xspiIntrEnable xspIntrDftMask
    setSpi fun spi => { spi with isStarted := xilComponentIsStarted }
    let controlReg ← xspiGetControlReg
    xspiSetControlReg (controlReg ||| (xspCrTxfifoResetMask ||| xspCrRxfifoResetMask |||
      xspCrEnableMask))
    xspiIntrGlobalEnable
    xspiIntrGlobalDisable
    pure .success

/-- The status of a driver function without loops.  Such a function always returns, so the
second case never arises where this is used. -/
def statusOf (run : Outcome Xst × SpiCore ε) : Xst × SpiCore ε :=
  match run with
  | (.ret status, s) => (status, s)
  | (.stop _, s) => (.failure, s)

/-- The driver over the registers.  The bytes stored are counted from the beginning of
each transfer; behind the frame, memory is taken to hold zeros. -/
instance : XSpiDriver (SpiCore ε) where
  xspiPciInitialize s := { s with spi := { s.spi with pci := true } }
  xspiCfgInitialize config s := statusOf (xspiCfgInitialize config s)
  xspiSetOptions options s := statusOf (xspiSetOptions options s)
  xspiSetSlaveSelect slaveMask s := statusOf (xspiSetSlaveSelect slaveMask s)
  xspiStart s := statusOf (xspiStart s)
  xspiTransfer rounds frame recv s :=
    match xspiTransfer rounds (some fun i => frame.getD i 0) recv (UInt32.ofNat frame.length)
      { s with spi := { s.spi with recvBuffer := s.spi.recvBuffer.map fun _ => [] } } with
    | (.ret status, s') => (some (status, s'.spi.recvBuffer.getD []), s')
    | (.stop _, s') => (none, s')
  pciWriteReg address data s :=
    if s.spi.pci then { s with device := PciDevice.write64 address data s.device } else s

end Definitions

end Kiflash.SpiCore
