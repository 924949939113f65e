import Kiflash.Imperative.Prog

/-!
# What the flash code calls of the SPI driver

`flash_qspi_rw.c` never touches the SPI core's registers itself.  It goes through the
functions of `xspi.c`, `xspi_options.c` and `xspi_sinit.c`, on the one static instance `Spi`.
`XSpiDriver σ` is that interface: `σ` is everything behind it, the driver instance, the core's
registers and the flash on the bus.

* `Xst` — the status codes.
* `XSpiConfig`, `xspiLookupConfig` — the configuration table.
* `XSpiDriver` — the calls.

### One code, several meanings

The flash code is written over any such `σ`.  Two families of instances give it a meaning:
`Kiflash.Nor`, where a transfer is one command of a NOR flash, and `Kiflash.SpiCore`, where it
is the register accesses of `XSpi_Transfer`.  A result that is proved for every `σ` holds of
both, and of every device that misbehaves in a way that neither of them has: the class asks
for no laws, so what a transfer answers is up to the instance.  The results about healthy
devices have such laws as hypotheses where they are needed.
-/

open Imperative

namespace Kiflash

/-- The `XST_*` codes of `xstatus.h` that the modelled functions return.  The flash code
compares them with `XST_SUCCESS` only. -/
inductive Xst where
  | success
  | failure
  | deviceNotFound
  | deviceIsStarted
  | deviceIsStopped
  | deviceBusy
  | spiNoSlave
  | spiTooManySlaves
  | spiSlaveOnly
  deriving DecidableEq, Repr

instance : StatusCode Xst where
  ok := .success
  fail := .failure
  fail_ne_ok := by decide

/-- What `check` takes for a success is `XST_SUCCESS`. -/
@[simp] theorem statusCode_ok : (StatusCode.ok : Xst) = .success := rfl

/-- What `check` returns for any other status is `XST_FAILURE`. -/
@[simp] theorem statusCode_fail : (StatusCode.fail : Xst) = .failure := rfl

/-- `XSpi_Config`, the fields that `XSpi_CfgInitialize` reads.  The generated table of
`xspi_g.c` holds one entry of this type for each core of the design. -/
structure XSpiConfig where
  deviceId : UInt16
  baseAddress : UInt64
  hasFifos : Bool
  slaveOnly : Bool
  numSlaveBits : UInt8
  dataWidth : UInt8
  useStartup : UInt8
  deriving DecidableEq, Repr

/-- `XPAR_SPI_0_DEVICE_ID`, the identifier that the startup looks up.  An absent entry is the
one error of the startup that is not `XST_FAILURE`. -/
def spiDeviceId : UInt16 := 50

/-- `XSpi_ConfigTable`, filled from the `XPAR_SPI_0_*` constants.  It has one entry, which is
found (`xspiLookupConfig`). -/
def xspiConfigTable : List XSpiConfig :=
  [{ deviceId := 50, baseAddress := 0x00060000, hasFifos := true, slaveOnly := false,
     numSlaveBits := 1, dataWidth := 8, useStartup := 0 }]

/-- `XSpi_LookupConfig`: the first entry of the table with this identifier.  The null pointer
that the source returns for an unknown device is `none`. -/
def xspiLookupConfig (deviceId : UInt16) : Option XSpiConfig :=
  xspiConfigTable.find? (·.deviceId = deviceId)

/-- `XSP_MASTER_OPTION`: the core drives the bus.  Only with it does the driver ask for a
selected slave in front of a transfer. -/
def xspMasterOption : UInt32 := 0x1

/-- `XSP_MANUAL_SSELECT_OPTION`: the slave select lines follow the register alone, so that one
command is one selection of the flash. -/
def xspManualSselectOption : UInt32 := 0x10

/-- The driver calls of the flash code.

`xspiTransfer rounds frame recv` is `XSpi_Transfer` with the bytes to send, with or without a
receive buffer.  It answers with the status and the bytes it stored into the receive buffer,
first byte first, or with `none` when it is still polling after `rounds` rounds of one of its
unbounded loops.  More bytes than were sent may come back: the bound of the receive buffer is
checked where the answer is stored. -/
class XSpiDriver (σ : Type) where
  xspiPciInitialize : σ → σ
  xspiCfgInitialize : XSpiConfig → σ → Xst × σ
  xspiSetOptions : UInt32 → σ → Xst × σ
  xspiSetSlaveSelect : UInt32 → σ → Xst × σ
  xspiStart : σ → Xst × σ
  xspiTransfer : ℕ → List UInt8 → Bool → σ → Option (Xst × List UInt8) × σ
  pciWriteReg : UInt64 → UInt64 → σ → σ

end Kiflash
