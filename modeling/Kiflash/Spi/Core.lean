import Kiflash.Driver

/-!
# The SPI core behind its registers

`XSpi_Transfer` and its relatives reach the AXI Quad SPI core through 64-bit accesses to the
PCI memory of the chassis.  `PciDevice ε` is that memory: what a read answers and what an
access does to the device are the device's business.

* `XSpi` — the driver instance, the fields that its functions read.
* `SpiCore ε` — the instance and the device: what the driver functions work on.
* the register access macros of `xspi.h`, under their names.

Left out are the statistics, the status handler and the fields that nothing modelled reads
(`SpiMode`, `FlashBaseAddr`, `XipMode`).

### Reads have effects

A read of the receive register takes a byte out of its FIFO, and a read of any register may
find that the core has gone on in the meantime.  So `PciDevice.read64` returns a new state of
the device as well.  Nothing is assumed of it here.

### The addresses

The offsets of the registers are doubled in `xspi_l.h`, as the core is reached over a wider
bus, and they are added to a base address of 64 bits.  An instance without a `pci` handle
reads a constant and writes nothing.

### The buffers

`SendBufferPtr` is moved on as bytes are sent; here the field is the memory from the pointer
on.  Of the receive buffer the instance has what this transfer has stored.  Where the caller
has passed `NULL`, there is none.
-/

open Imperative Imperative.Prog

namespace Kiflash

/-- The PCI memory of the chassis.  The driver has no access to the hardware but these two,
and a read may change what is behind it, as a read of the receive FIFO does. -/
class PciDevice (ε : Type) where
  read64 : UInt64 → ε → UInt64 × ε
  write64 : UInt64 → UInt64 → ε → ε

/-- The driver instance, with the fields that the modelled functions read.  The two buffers
are kept as what is left to send and as what has been stored, in place of the moving pointers
of the source. -/
structure XSpi where
  baseAddr : UInt64
  isReady : UInt32
  isStarted : UInt32
  hasFifos : Bool
  slaveOnly : Bool
  numSlaveBits : UInt8
  dataWidth : UInt8
  slaveSelectMask : UInt32
  slaveSelectReg : UInt32
  /-- The memory from `SendBufferPtr` on. -/
  sendBuffer : ℕ → UInt8
  /-- What the call of `XSpi_Transfer` has stored through `RecvBufferPtr`, unless it is
  `NULL`. -/
  recvBuffer : Option (List UInt8)
  requestedBytes : UInt32
  remainingBytes : UInt32
  isBusy : Bool
  /-- Whether `pci` points to something. -/
  pci : Bool

/-- The driver instance and what is behind the PCI memory.  The driver functions are programs
over this pair, so the same text runs over any device. -/
structure SpiCore (ε : Type) where
  spi : XSpi
  device : ε

/-- `XIL_COMPONENT_IS_READY`. -/
def xilComponentIsReady : UInt32 := 0x11111111
/-- `XIL_COMPONENT_IS_STARTED`. -/
def xilComponentIsStarted : UInt32 := 0x22222222

/-- `XSP_DGIER_OFFSET`, the global interrupt enable register.  All the offsets are doubled in
the source, as each register has a word of 64 bits. -/
def xspDgierOffset : UInt32 := 0x1C * 2
/-- `XSP_IISR_OFFSET`. -/
def xspIisrOffset : UInt32 := 0x20 * 2
/-- `XSP_IIER_OFFSET`. -/
def xspIierOffset : UInt32 := 0x28 * 2
/-- `XSP_SRR_OFFSET`. -/
def xspSrrOffset : UInt32 := 0x40 * 2
/-- `XSP_CR_OFFSET`. -/
def xspCrOffset : UInt32 := 0x60 * 2
/-- `XSP_SR_OFFSET`. -/
def xspSrOffset : UInt32 := 0x64 * 2
/-- `XSP_DTR_OFFSET`. -/
def xspDtrOffset : UInt32 := 0x68 * 2
/-- `XSP_DRR_OFFSET`. -/
def xspDrrOffset : UInt32 := 0x6C * 2
/-- `XSP_SSR_OFFSET`. -/
def xspSsrOffset : UInt32 := 0x70 * 2

/-- `XSP_GINTR_ENABLE_MASK`.  Interrupts are on when the register equals it, not when the bit
is set. -/
def xspGintrEnableMask : UInt64 := 0x80000000
/-- `XSP_INTR_TX_EMPTY_MASK`. -/
def xspIntrTxEmptyMask : UInt32 := 0x00000004
/-- `XSP_INTR_ALL`. -/
def xspIntrAll : UInt32 := 0x3FFF
/-- `XSP_INTR_DFT_MASK`. -/
def xspIntrDftMask : UInt32 := 0x202B
/-- `XSP_SRR_RESET_MASK`. -/
def xspSrrResetMask : UInt64 := 0x0000000A

/-- `XSP_CR_LOOPBACK_MASK`.  In loopback mode the transfer does not ask for a selected
slave. -/
def xspCrLoopbackMask : UInt32 := 0x00000001
/-- `XSP_CR_ENABLE_MASK`. -/
def xspCrEnableMask : UInt32 := 0x00000002
/-- `XSP_CR_MASTER_MODE_MASK`. -/
def xspCrMasterModeMask : UInt32 := 0x00000004
/-- `XSP_CR_CLK_POLARITY_MASK`. -/
def xspCrClkPolarityMask : UInt32 := 0x00000008
/-- `XSP_CR_CLK_PHASE_MASK`. -/
def xspCrClkPhaseMask : UInt32 := 0x00000010
/-- `XSP_CR_TXFIFO_RESET_MASK`. -/
def xspCrTxfifoResetMask : UInt32 := 0x00000020
/-- `XSP_CR_RXFIFO_RESET_MASK`. -/
def xspCrRxfifoResetMask : UInt32 := 0x00000040
/-- `XSP_CR_MANUAL_SS_MASK`. -/
def xspCrManualSsMask : UInt32 := 0x00000080
/-- `XSP_CR_TRANS_INHIBIT_MASK`. -/
def xspCrTransInhibitMask : UInt32 := 0x00000100

/-- `XSP_SR_RX_EMPTY_MASK`: nothing is left to take from the receive FIFO. -/
def xspSrRxEmptyMask : UInt32 := 0x00000001
/-- `XSP_SR_TX_FULL_MASK`. -/
def xspSrTxFullMask : UInt32 := 0x00000008

/-- `XSP_DATAWIDTH_BYTE`. -/
def xspDatawidthByte : UInt8 := 8
/-- `XSP_DATAWIDTH_HALF_WORD`. -/
def xspDatawidthHalfWord : UInt8 := 16
/-- `XSP_DATAWIDTH_WORD`. -/
def xspDatawidthWord : UInt8 := 32

namespace SpiCore

section Registers

variable {ε : Type} [PciDevice ε]

/-- `XSpi_PciReadReg`.  Without the pointer to the PCI memory it returns a constant, and the
device is not touched. -/
def xspiPciReadReg (address : UInt32) : Prog (SpiCore ε) UInt64 := fun s =>
  if s.spi.pci then
    let access := PciDevice.read64 (s.spi.baseAddr + address.toUInt64) s.device
    (.ret access.1, { s with device := access.2 })
  else (.ret 0xDEADBEEF, s)

/-- `XSpi_PciWriteReg`.  Without the pointer to the PCI memory nothing is written. -/
def xspiPciWriteReg (address : UInt32) (data : UInt64) : Prog (SpiCore ε) Unit :=
  .modify fun s =>
    if s.spi.pci then
      { s with device := PciDevice.write64 (s.spi.baseAddr + address.toUInt64) data s.device }
    else s

/-- `XSpi_GetControlReg`, the lower half of what the register holds. -/
def xspiGetControlReg : Prog (SpiCore ε) UInt32 := do
  let value ← xspiPciReadReg xspCrOffset
  pure value.toUInt32

/-- `XSpi_SetControlReg`.  It writes all bits: the callers read the register first. -/
def xspiSetControlReg (mask : UInt32) : Prog (SpiCore ε) Unit :=
  xspiPciWriteReg xspCrOffset mask.toUInt64

/-- `XSpi_GetStatusReg`, the status of the two FIFOs. -/
def xspiGetStatusReg : Prog (SpiCore ε) UInt32 := do
  let value ← xspiPciReadReg xspSrOffset
  pure value.toUInt32

/-- `XSpi_SetSlaveSelectReg`, which selects on the wires what `XSpi_SetSlaveSelect` has noted
in the instance. -/
def xspiSetSlaveSelectReg (mask : UInt32) : Prog (SpiCore ε) Unit :=
  xspiPciWriteReg xspSsrOffset mask.toUInt64

/-- `XSpi_IsIntrGlobalEnabled`: the register is compared with the mask as a whole.  What it
says decides between the polled and the interrupt mode of a transfer. -/
def xspiIsIntrGlobalEnabled : Prog (SpiCore ε) Bool := do
  let value ← xspiPciReadReg xspDgierOffset
  pure (value = xspGintrEnableMask)

/-- `XSpi_IntrGlobalEnable`.  The register has no other bit that is used, so it is
overwritten. -/
def xspiIntrGlobalEnable : Prog (SpiCore ε) Unit :=
  xspiPciWriteReg xspDgierOffset xspGintrEnableMask

/-- `XSpi_IntrGlobalDisable`, at the beginning of every transfer. -/
def xspiIntrGlobalDisable : Prog (SpiCore ε) Unit := xspiPciWriteReg xspDgierOffset 0

/-- `XSpi_IntrGetStatus`.  Its bits are the interrupts that have been raised, and stay so
until they are cleared. -/
def xspiIntrGetStatus : Prog (SpiCore ε) UInt64 := xspiPciReadReg xspIisrOffset

/-- `XSpi_IntrClear`.  The register toggles on write, and the macro writes what it has read
together with the mask: the bits that were up go down, all of them. -/
def xspiIntrClear (clearMask : UInt32) : Prog (SpiCore ε) Unit := do
  let status ← xspiIntrGetStatus
  xspiPciWriteReg xspIisrOffset (status ||| clearMask.toUInt64)

/-- `XSpi_IntrEnable`: the mask is added to what is enabled already, within `XSP_INTR_ALL`. -/
def xspiIntrEnable (enableMask : UInt32) : Prog (SpiCore ε) Unit := do
  let enabled ← xspiPciReadReg xspIierOffset
  xspiPciWriteReg xspIierOffset (enabled ||| (enableMask &&& xspIntrAll).toUInt64)

/-- Change a field of the driver instance.  The device is not touched. -/
def setSpi (change : XSpi → XSpi) : Prog (SpiCore ε) Unit :=
  .modify fun s => { s with spi := change s.spi }

end Registers

end SpiCore

end Kiflash
