import Kiflash.Spi.Axi
import Mathlib.Data.Nat.Bitwise

/-!
# A core with FIFOs of any depth

`FifoCore ε base depth` lists what a statement about a polled transfer needs of the core at
`base`, in terms of what can be seen of it (`FifoView`).

* While the transmitter is inhibited, or nothing is queued, the core does what the accesses
  say and nothing else.
* Otherwise it shifts: at some access it has sent every queued byte and received one for each,
  and with that raises the transmit empty bit.  The other interrupt bits may be anything by
  then.

`Fifo depth` is such a core, with a slave and a schedule to be chosen, and `Traced ε` keeps
the write accesses of a device.

### Laws instead of a core

The statements about the transfer quantify over all devices with these laws.  They say nothing
about clocks or about the slave, and nothing about when the core shifts; the driver cannot
rely on any of this, and waits.  The laws hold for every register access that the transfer
makes and at every state in which it makes it, which is why each has its own side condition.

### What is seen

`sent` and `received` are not registers.  They are the history of the wires, and let a
statement say that the bytes went out in order and once each.

### The history of the accesses

A byte may be written to a full queue, and a core drops it.  Whether the driver does so cannot
be told from the view behind the access; `Traced` keeps each write access with the state that
it met.
-/

open Imperative Imperative.Prog

namespace Kiflash

/-! ## Masks -/

section Masks

variable (x mask : UInt32)

/-- Setting the bits of a mask. -/
theorem or_and_self_mask : (x ||| mask) &&& mask = mask := by
  apply UInt32.eq_of_toBitVec_eq
  ext i
  simp +contextual

/-- Clearing them. -/
theorem clear_and_mask : (x &&& ~~~mask) &&& mask = 0 := by
  apply UInt32.eq_of_toBitVec_eq
  ext i
  simp +contextual

variable {x mask}

/-- An equation of words that follows from another one bit by bit. -/
theorem eq_of_bits {y z z' : UInt32} (h : z = z')
    (hbits : ∀ i (_ : i < 32), z.toBitVec[i] = z'.toBitVec[i] → x.toBitVec[i] = y.toBitVec[i]) :
    x = y := by
  apply UInt32.eq_of_toBitVec_eq
  ext i hi
  exact hbits i hi (by rw [h])

/-- Writing back what was read, with the mask, toggles the bits of the mask off. -/
theorem toggle_and_mask (h : x &&& mask = mask) : (x ^^^ (x ||| mask)) &&& mask = 0 := by
  refine eq_of_bits h fun i hi hbit => ?_
  simp at hbit ⊢
  grind

/-- A single bit is there or is not. -/
theorem and_txEmpty_cases (x : UInt32) :
    x &&& xspIntrTxEmptyMask = 0 ∨ x &&& xspIntrTxEmptyMask = xspIntrTxEmptyMask := by
  have hbit := Nat.and_two_pow x.toNat 2
  rcases hb : x.toNat.testBit 2 <;> rw [hb] at hbit
  · exact .inl (UInt32.toNat_inj.mp hbit)
  · exact .inr (UInt32.toNat_inj.mp hbit)

end Masks

/-! ## What is seen of a core -/

/-- What can be seen of a core: its registers, its queues, and what has gone over its
wires. -/
structure FifoView where
  control : UInt32
  slaveSelect : UInt32
  interrupts : UInt32
  tx : List UInt8
  rx : List UInt8
  /-- What the core has shifted out. -/
  sent : List UInt8
  /-- What it has shifted in. -/
  received : List UInt8

namespace FifoView

/-- The transmit empty bit is raised.  It is the bit of the interrupt status that the polled
transfer waits for. -/
def TxEmpty (v : FifoView) : Prop := v.interrupts &&& xspIntrTxEmptyMask ≠ 0

/-- The transmitter is held back.  What is written to the data register then stays in the
queue. -/
def Inhibited (v : FifoView) : Prop := v.control &&& xspCrTransInhibitMask ≠ 0

/-- Nothing moves by itself.  An access to a core at rest finds what the last access has
left. -/
def Resting (v : FifoView) : Prop := v.Inhibited ∨ v.tx = []

instance (v : FifoView) : Decidable v.TxEmpty := inferInstanceAs (Decidable (_ ≠ _))

instance (v : FifoView) : Decidable v.Inhibited := inferInstanceAs (Decidable (_ ≠ _))

instance (v : FifoView) : Decidable v.Resting := inferInstanceAs (Decidable (_ ∨ _))

/-- The queued bytes are out, and as many bytes are in.  The bus is full duplex: a byte comes
in for each that goes out. -/
def shifted (v : FifoView) (interrupts : UInt32) (replies : List UInt8) : FifoView :=
  { v with
    interrupts
    tx := []
    rx := v.rx ++ replies
    sent := v.sent ++ v.tx
    received := v.received ++ replies }

/-- What an access can find of a core that shifts: it is still at it, or everything queued is
out. -/
inductive Shifts (v : FifoView) : FifoView → Prop where
  | going (interrupts : UInt32)
      (same : interrupts &&& xspIntrTxEmptyMask = v.interrupts &&& xspIntrTxEmptyMask) :
      Shifts v { v with interrupts }
  | done (interrupts : UInt32) (replies : List UInt8) (raised : interrupts &&& xspIntrTxEmptyMask ≠ 0)
      (length : replies.length = v.tx.length) : Shifts v (v.shifted interrupts replies)

end FifoView

/-- The laws of a core at `base` with FIFOs of `depth` bytes.  They say what the accesses of
the driver find, and leave open how long the core takes and what the slave answers. -/
structure FifoCore (ε : Type) [PciDevice ε] (base : UInt64) (depth : ℕ) where
  view : ε → FifoView
  read_control : ∀ d, (PciDevice.read64 (base + xspCrOffset.toUInt64) d).1.toUInt32 = (view d).control
  read_rxEmpty : ∀ d, (view d).Resting →
    ((PciDevice.read64 (base + xspSrOffset.toUInt64) d).1.toUInt32 &&& xspSrRxEmptyMask = 0 ↔
      (view d).rx ≠ [])
  read_txFull : ∀ d, (view d).Resting →
    ((PciDevice.read64 (base + xspSrOffset.toUInt64) d).1.toUInt32 &&& xspSrTxFullMask = 0 ↔
      (view d).tx.length < depth)
  read_interrupts : ∀ d, (PciDevice.read64 (base + xspIisrOffset.toUInt64) d).1.toUInt32 =
    (view (PciDevice.read64 (base + xspIisrOffset.toUInt64) d).2).interrupts
  view_read : ∀ offset : UInt32, offset ≠ xspDrrOffset → ∀ d, (view d).Resting →
    view (PciDevice.read64 (base + offset.toUInt64) d).2 = view d
  view_shift : ∀ d, ¬ (view d).Resting →
    (view d).Shifts (view (PciDevice.read64 (base + xspIisrOffset.toUInt64) d).2)
  read_data : ∀ d byte rest, (view d).Resting → (view d).rx = byte :: rest →
    (PciDevice.read64 (base + xspDrrOffset.toUInt64) d).1.toUInt32.toUInt8 = byte ∧
      view (PciDevice.read64 (base + xspDrrOffset.toUInt64) d).2 = { view d with rx := rest }
  write_dgier : ∀ data d, (view d).Resting →
    view (PciDevice.write64 (base + xspDgierOffset.toUInt64) data d) = view d
  /-- The interrupt bits toggle on write. -/
  write_interrupts : ∀ data d, (view d).Resting →
    view (PciDevice.write64 (base + xspIisrOffset.toUInt64) data d) =
      { view d with interrupts := (view d).interrupts ^^^ data.toUInt32 }
  write_data : ∀ data d, (view d).Inhibited → (view d).tx.length < depth →
    view (PciDevice.write64 (base + xspDtrOffset.toUInt64) data d) =
      { view d with tx := (view d).tx ++ [data.toUInt8] }
  write_slaveSelect : ∀ data d, (view d).Resting →
    view (PciDevice.write64 (base + xspSsrOffset.toUInt64) data d) =
      { view d with slaveSelect := data.toUInt32 }
  inhibit : ∀ d, (view d).Resting →
    view (PciDevice.write64 (base + xspCrOffset.toUInt64)
      ((view d).control ||| xspCrTransInhibitMask).toUInt64 d) =
      { view d with control := (view d).control ||| xspCrTransInhibitMask }
  uninhibit_empty : ∀ d, (view d).tx = [] →
    view (PciDevice.write64 (base + xspCrOffset.toUInt64)
      ((view d).control &&& ~~~xspCrTransInhibitMask).toUInt64 d) =
      { view d with control := (view d).control &&& ~~~xspCrTransInhibitMask }
  uninhibit : ∀ d, (view d).Inhibited → (view d).tx ≠ [] →
    FifoView.Shifts { view d with control := (view d).control &&& ~~~xspCrTransInhibitMask }
      (view (PciDevice.write64 (base + xspCrOffset.toUInt64)
        ((view d).control &&& ~~~xspCrTransInhibitMask).toUInt64 d))

/-! ## A device with its history -/

/-- A device and the write accesses that it has been given, each with the state it met.  So a
theorem can speak of how full a queue was when a byte was written to it. -/
structure Traced (ε : Type) where
  device : ε
  writes : List (ε × UInt64 × UInt64)

namespace Traced

variable {ε : Type} [PciDevice ε]

instance : PciDevice (Traced ε) where
  read64 address t :=
    let access := PciDevice.read64 address t.device
    (access.1, { t with device := access.2 })
  write64 address data t :=
    { device := PciDevice.write64 address data t.device
      writes := t.writes ++ [(t.device, address, data)] }

end Traced

/-- What has been written to the data register, with how much was queued at that time.  A
write to a full queue would lose its byte. -/
def FifoCore.dataWrites {ε : Type} [PciDevice ε] {base : UInt64} {depth : ℕ}
    (c : FifoCore ε base depth) (t : Traced ε) : List (UInt64 × ℕ) :=
  t.writes.filterMap fun (d, address, data) =>
    if address = base + xspDtrOffset.toUInt64 then some (data, (c.view d).tx.length) else none

/-! ## A core with a slave and a schedule -/

/-- A core with FIFOs of `depth` bytes.  It is the device on which the general results are
run: its slave answers by a function, and it shifts after as many polls as it is told. -/
structure Fifo (depth : ℕ) where
  view : FifoView
  dgier : UInt64
  /-- The reads of the interrupt status that the shifting still takes. -/
  wait : ℕ
  /-- How many it takes each of the next times. -/
  waits : List ℕ
  /-- What the slave answers, by the number of the byte. -/
  reply : ℕ → UInt8

namespace Fifo

variable {depth : ℕ}

/-- The bytes that the slave answers the queued ones with.  They are numbered over the whole
run, so that no two of them are alike by accident. -/
def replies (d : Fifo depth) : List UInt8 :=
  (List.range d.view.tx.length).map fun i => d.reply (d.view.received.length + i)

/-- A read of the interrupt status lets a core that is not at rest shift.  Time passes at
these reads only, as the driver looks at nothing else while it waits. -/
def poll (d : Fifo depth) : Fifo depth :=
  if d.view.Resting then d
  else if d.wait = 0 then
    { d with view := d.view.shifted (d.view.interrupts ||| xspIntrTxEmptyMask) d.replies }
  else { d with wait := d.wait - 1 }

/-- The status register: receive FIFO empty, transmit FIFO full.  These are the two bits that
the transfer looks at. -/
def status (d : Fifo depth) : UInt64 :=
  (if d.view.rx = [] then 0x1 else 0) ||| (if d.view.tx.length < depth then 0 else 0x8)

/-- A read access.  The receive FIFO gives its first byte away, and the interrupt status moves
the core on. -/
def read (address : UInt64) (d : Fifo depth) : UInt64 × Fifo depth :=
  let offset := address - Axi.base
  if offset = xspDgierOffset.toUInt64 then (d.dgier, d)
  else if offset = xspIisrOffset.toUInt64 then (d.poll.view.interrupts.toUInt64, d.poll)
  else if offset = xspCrOffset.toUInt64 then (d.view.control.toUInt64, d)
  else if offset = xspSrOffset.toUInt64 then (d.status, d)
  else if offset = xspDrrOffset.toUInt64 then
    ((d.view.rx.headD 0).toUInt64, { d with view := { d.view with rx := d.view.rx.tail } })
  else (0, d)

/-- A write access.  The data register takes a byte as long as there is room, and the control
register starts the shifting. -/
def write (address data : UInt64) (d : Fifo depth) : Fifo depth :=
  let offset := address - Axi.base
  if offset = xspDgierOffset.toUInt64 then { d with dgier := data }
  else if offset = xspIisrOffset.toUInt64 then
    { d with view := { d.view with interrupts := d.view.interrupts ^^^ data.toUInt32 } }
  else if offset = xspCrOffset.toUInt64 then
    let d := { d with view := { d.view with control := data.toUInt32 } }
    if d.view.Inhibited then d else { d with wait := d.waits.headD 0, waits := d.waits.tail }
  else if offset = xspDtrOffset.toUInt64 then
    if d.view.tx.length < depth then
      { d with view := { d.view with tx := d.view.tx ++ [data.toUInt8] } }
    else d
  else if offset = xspSsrOffset.toUInt64 then
    { d with view := { d.view with slaveSelect := data.toUInt32 } }
  else d

instance : PciDevice (Fifo depth) := ⟨read, write⟩

/-- At rest, a poll finds what was there. -/
theorem poll_of_resting {d : Fifo depth} (h : d.view.Resting) : d.poll = d := by
  rw [poll, if_pos h]

/-- A poll finds the core shifting. -/
theorem poll_shifts {d : Fifo depth} (h : ¬ d.view.Resting) : d.view.Shifts d.poll.view := by
  rw [poll, if_neg h]
  split
  · refine .done _ _ ?_ ?_
    · rw [or_and_self_mask]
      decide
    · rw [replies, List.length_map, List.length_range]
  · exact .going _ rfl

/-- A write to the control register. -/
theorem view_setControl (mask : UInt32) (d : Fifo depth) :
    (write (Axi.base + xspCrOffset.toUInt64) mask.toUInt64 d).view =
      { d.view with control := mask } := by
  change Fifo.view (if FifoView.Inhibited { d.view with control := mask.toUInt64.toUInt32 } then _
    else _) = _
  rw [UInt32.toUInt32_toUInt64]
  split
  · rfl
  · rfl

/-- **A `Fifo` has the laws.**  So the results about every core with FIFOs are about
something. -/
def core : FifoCore (Fifo depth) Axi.base depth where
  view := Fifo.view
  read_control d := UInt32.toUInt32_toUInt64 _
  read_rxEmpty d _ := by
    change d.status.toUInt32 &&& 1 = 0 ↔ d.view.rx ≠ []
    rw [status]
    by_cases hrx : d.view.rx = [] <;> by_cases htx : d.view.tx.length < depth <;>
      simp only [hrx, htx, if_true, if_false, ne_eq, not_true, not_false_iff] <;> decide
  read_txFull d _ := by
    change d.status.toUInt32 &&& 8 = 0 ↔ d.view.tx.length < depth
    rw [status]
    by_cases hrx : d.view.rx = [] <;> by_cases htx : d.view.tx.length < depth <;>
      simp only [hrx, htx, if_true, if_false] <;> decide
  read_interrupts d := UInt32.toUInt32_toUInt64 _
  view_read offset h d hrest := by
    change (read _ d).2.view = d.view
    have hne : Axi.base + offset.toUInt64 - Axi.base ≠ xspDrrOffset.toUInt64 := by
      rw [UInt64.add_comm, UInt64.add_sub_cancel]
      exact fun heq => h (UInt32.toUInt64_inj.mp heq)
    simp only [read, if_neg hne, poll_of_resting hrest]
    grind
  view_shift d h := poll_shifts h
  read_data d byte rest _ hrx := by
    change (d.view.rx.headD 0).toUInt64.toUInt32.toUInt8 = byte ∧
      { d.view with rx := d.view.rx.tail } = { d.view with rx := rest }
    rw [hrx]
    exact ⟨by simp, rfl⟩
  write_dgier data d _ := rfl
  write_interrupts data d _ := rfl
  write_data data d _ h := by
    change Fifo.view (if d.view.tx.length < depth then
      { d with view := { d.view with tx := d.view.tx ++ [data.toUInt8] } } else d) = _
    rw [if_pos h]
  write_slaveSelect data d _ := rfl
  inhibit d _ := view_setControl _ d
  uninhibit_empty d _ := view_setControl _ d
  uninhibit d _ _ := by
    change FifoView.Shifts _ (write _ _ d).view
    rw [view_setControl]
    exact .going _ rfl

/-- An idle core that waits as scheduled and whose slave counts the bytes.  The schedule says
how many polls each of the shifts takes. -/
def idle (depth : ℕ) (interrupts : UInt32) (waits : List ℕ) : Fifo depth where
  view := ⟨0x186, 0xFFFFFFFF, interrupts, [], [], [], []⟩
  dgier := 0
  wait := 0
  waits := waits
  reply := UInt8.ofNat

end Fifo

/-- The driver as `System_init_startup` leaves it, in front of the device: ready, started, in
polled mode, and with the flash selected. -/
def SpiCore.idle {ε : Type} (device : ε) : SpiCore ε where
  spi := ⟨Axi.base, xilComponentIsReady, xilComponentIsStarted, true, false, 1, xspDatawidthByte,
    1, ~~~1, fun _ => 0, none, 0, 0, false, true⟩
  device := device

end Kiflash
