import Kiflash.Machine
import Kiflash.Spi.Setup

/-!
# A device to run the driver on

`Axi` is a small AXI Quad SPI core: its control, slave select and interrupt registers,
transmit and receive FIFOs of sixteen bytes, and a slave that answers every byte with zero.  A
halted core has the registers of a core and never shifts a byte, as one whose SPI clock has
stopped.

* `Controller` — what a statement about the driver needs to see of the core behind it.
* `Axi` — the core, with its read and write accesses.
* `Axi.controller` — it sees it of `Axi`.
* `SpiCore.blank`, `SpiCore.started` — a driver instance in front of a device.

### Why a core at all

The driver functions are generic in the device, and the statements about them are for all
devices that keep to some laws.  A law that no device satisfies would make such a statement
empty.  `Axi` is executable, so that a run of the driver can be evaluated down to each
register access, and the states that the examples begin in are reached by the driver's own
setup and not made up.

It shifts at once, and has a slave without a memory.  The cores with a schedule and with a
real slave are in `Kiflash.Spi.Fifo` and `Kiflash.Spi.Board`.
-/

open Imperative Imperative.Prog

namespace Kiflash

/-! ## What is seen of a core -/

/-- The control and slave select registers of the SPI core at `base`.  No read access changes
them, and neither does the interrupt enable register. -/
structure Controller (ε : Type) [PciDevice ε] (base : UInt64) where
  control : ε → UInt32
  slaveSelect : ε → UInt32
  read_control : ∀ d, (PciDevice.read64 (base + xspCrOffset.toUInt64) d).1.toUInt32 = control d
  control_read : ∀ address d, control (PciDevice.read64 address d).2 = control d
  slaveSelect_read : ∀ address d, slaveSelect (PciDevice.read64 address d).2 = slaveSelect d
  control_dgier : ∀ data d,
    control (PciDevice.write64 (base + xspDgierOffset.toUInt64) data d) = control d
  slaveSelect_dgier : ∀ data d,
    slaveSelect (PciDevice.write64 (base + xspDgierOffset.toUInt64) data d) = slaveSelect d

/-! ## The core -/

/-- An AXI Quad SPI core, with `halted` for one that never shifts.  Its slave answers every
byte with zero. -/
structure Axi where
  control : UInt32
  slaveSelect : UInt32
  dgier : UInt64
  iisr : UInt64
  iier : UInt64
  tx : List UInt8
  rx : List UInt8
  halted : Bool
  deriving DecidableEq

namespace Axi

/-- Where the configuration table places the core, as an offset into the PCI memory. -/
def base : UInt64 := 0x00060000

/-- The core after its reset: the transmitter is inhibited, and no slave is selected. -/
def reset (halted : Bool) : Axi := ⟨0x180, 0xFFFFFFFF, 0, 0, 0, [], [], halted⟩

/-- Shift out what is in the transmit FIFO, if the core may: enabled, not inhibited, and with
a slave selected. -/
def shift (d : Axi) : Axi :=
  if d.halted = false ∧ d.tx ≠ [] ∧ d.control &&& xspCrEnableMask ≠ 0 ∧
      d.control &&& xspCrTransInhibitMask = 0 ∧ d.slaveSelect &&& 1 = 0 then
    { d with tx := [], rx := d.rx ++ d.tx.map fun _ => 0, iisr := d.iisr ||| 0x4 }
  else d

/-- The status register: receive FIFO empty, transmit FIFO empty, transmit FIFO full.  The
FIFOs have sixteen entries. -/
def status (d : Axi) : UInt64 :=
  (if d.rx = [] then 0x1 else 0) ||| (if d.tx = [] then 0x4 else 0) |||
    (if d.tx.length < 16 then 0 else 0x8)

/-- A read access: only a read of the receive FIFO changes anything.  An address without a
register reads as zero. -/
def read (address : UInt64) (d : Axi) : UInt64 × Axi :=
  let offset := address - base
  if offset = xspDgierOffset.toUInt64 then (d.dgier, d)
  else if offset = xspIisrOffset.toUInt64 then (d.iisr, d)
  else if offset = xspIierOffset.toUInt64 then (d.iier, d)
  else if offset = xspCrOffset.toUInt64 then (d.control.toUInt64, d)
  else if offset = xspSrOffset.toUInt64 then (d.status, d)
  else if offset = xspDrrOffset.toUInt64 then
    ((d.rx.headD 0).toUInt64, { d with rx := d.rx.tail })
  else if offset = xspSsrOffset.toUInt64 then (d.slaveSelect.toUInt64, d)
  else (0, d)

/-- A write access.  A core that is not halted shifts as soon as the write has left it enabled
with something to send. -/
def write (address data : UInt64) (d : Axi) : Axi :=
  let offset := address - base
  if offset = xspDgierOffset.toUInt64 then { d with dgier := data }
  -- the bits of the interrupt status register toggle on write
  else if offset = xspIisrOffset.toUInt64 then { d with iisr := d.iisr ^^^ data }
  else if offset = xspIierOffset.toUInt64 then { d with iier := data }
  else if offset = xspSrrOffset.toUInt64 then reset d.halted
  else if offset = xspCrOffset.toUInt64 then
    shift { d with
      control := data.toUInt32 &&& ~~~(xspCrTxfifoResetMask ||| xspCrRxfifoResetMask)
      tx := if data.toUInt32 &&& xspCrTxfifoResetMask = 0 then d.tx else []
      rx := if data.toUInt32 &&& xspCrRxfifoResetMask = 0 then d.rx else [] }
  else if offset = xspDtrOffset.toUInt64 then
    shift { d with tx := if d.tx.length < 16 then d.tx ++ [data.toUInt8] else d.tx }
  else if offset = xspSsrOffset.toUInt64 then shift { d with slaveSelect := data.toUInt32 }
  else d

end Axi

instance : PciDevice Axi := ⟨Axi.read, Axi.write⟩

/-- A read access leaves the control register alone. -/
theorem Axi.control_read (address : UInt64) (d : Axi) :
    (Axi.read address d).2.control = d.control := by
  unfold Axi.read
  grind

/-- And the slave select register. -/
theorem Axi.slaveSelect_read (address : UInt64) (d : Axi) :
    (Axi.read address d).2.slaveSelect = d.slaveSelect := by
  unfold Axi.read
  grind

/-- The registers of the core, at the base address of the configuration table.  This is what
the results about every controller are applied to. -/
def Axi.controller : Controller Axi Axi.base where
  control := Axi.control
  slaveSelect := Axi.slaveSelect
  read_control d := by
    change (Axi.read _ d).1.toUInt32 = d.control
    simp [Axi.read, xspDgierOffset, xspIisrOffset, xspIierOffset, xspCrOffset, Axi.base]
  control_read := Axi.control_read
  slaveSelect_read := Axi.slaveSelect_read
  control_dgier _ _ := rfl
  slaveSelect_dgier _ _ := rfl

/-- A host without image files that follows every loop for long enough for a startup.  The
flash on this bus answers at once, so a few rounds are enough. -/
def patientEnv : Env := { Env.plain none 0 with rounds := 40 }

namespace SpiCore

/-- A driver instance in zeroed memory, in front of the device.  It is what the static `Spi`
is when the process comes up. -/
def blank {ε : Type} (device : ε) : SpiCore ε where
  spi := ⟨0, 0, 0, false, false, 0, 0, 0, 0, fun _ => 0, none, 0, 0, false, false⟩
  device := device

/-- The driver as `System_init_startup` has set it up before its first transfer, computed by
the functions of the driver. -/
def started {ε : Type} [PciDevice ε] (device : ε) : SpiCore ε :=
  let s := XSpiDriver.xspiPciInitialize (blank device)
  let s := (xspiLookupConfig spiDeviceId).elim s fun config =>
    (XSpiDriver.xspiCfgInitialize config s).2
  let s := (XSpiDriver.xspiSetOptions (xspMasterOption ||| xspManualSselectOption) s).2
  let s := (XSpiDriver.xspiSetSlaveSelect 1 s).2
  (XSpiDriver.xspiStart s).2

end SpiCore

end Kiflash
