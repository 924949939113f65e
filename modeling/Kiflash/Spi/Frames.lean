import Kiflash.Spi.Board
import Kiflash.Spi.Interrupts
import Mathlib.Data.Fin.Basic

/-!
# A polled transfer is a frame

Over a `Board`, `XSpi_Transfer` is one frame of the slave: the bytes to send are what the
slave sees between the falling and the rising edge of its select line, and its answers to them
are what the driver stores.

* `Bench` — what the accesses of a transfer leave alone: the slave, and what went over the bus
  before the frame.
* `Standing`, `Waiting` — a started driver between two transfers, and the same in the polled
  mode.
* `Standing.begins`, `Standing.releases`, `Standing.ends` — the beginning and the end of a
  frame, as both modes of the driver share them.
* `Waiting.transfer` — the polled transfer.

### Two invariants side by side

That the bytes are exchanged is known from the core alone: `Exchange` proves it with the
ledger, which speaks of what any core with FIFOs shows.  What the bytes mean to the slave is
not seen there.  So the loops are gone through a second time, with `Holds`: the slave has not
been released, and nothing but the frame has gone over the bus.  This invariant is the same at
every access, and `Flows` gives it for the whole of the loops without looking into them.  The
two are joined with `wp_and` at the end, where `Bench.exchanged` reads the answers off the
ledger.

### Why the poll does not time out

`Exchange` asks that the core empties its queue before the poll gives up.  A board does so by
its type: the shifts of a schedule take less than 99 polls (`Board.patient`).  `Holds.prompt`
turns this into the hypothesis of the exchange, so that a transfer over a board needs no
assumption about the time.

### The transmit empty bit

The bit is a latch.  A transfer that starts with the bit set would take its queue for empty
before anything is shifted, and end the frame early.  `Cleared` says that it is not set while
the transmitter is held back, and `Clears` carries it through the loops.  Each round clears
the bit before it inhibits the transmitter, in this order, and that is why it holds.

### What the modes share

`Holds` has a parameter `P`, a property of the interrupt registers, since the polled mode and
the interrupt mode differ in these only.  `Stable` lists what `P` has to be kept by.
-/

open Imperative Imperative.Prog

namespace Kiflash

variable {κ : Type} [SerialSlave κ] {depth : ℕ}

/-! ## What an access of the board can do -/

namespace Board

/-- A read changes nothing, lets the core shift, or takes a received byte. -/
theorem read_cases (address : UInt64) (b : Board κ depth) :
    (read address b).2 = b ∨ (read address b).2 = b.poll ∨
      (read address b).2 = { b with rx := b.rx.tail } := by
  unfold read
  grind

/-- A poll changes nothing, shifts, or counts down. -/
theorem poll_cases (b : Board κ depth) :
    b.poll = b ∨ ¬ b.view.Resting ∧
      (b.poll = b.shift ∨ b.poll = { b with pending := (b.pending.1 - 1, b.pending.2) }) := by
  unfold poll
  grind

/-- A core that runs and is not at rest counts down to its next shift, and then shifts. -/
theorem poll_of_sending {b : Board κ depth} (hnot : ¬ b.view.Resting) (hrun : Running b.control) :
    b.poll = if b.pending.1 = 0 then b.shift
      else { b with pending := (b.pending.1 - 1, b.pending.2) } := by
  rw [poll, if_neg (not_or.mpr ⟨hnot, not_not_intro hrun⟩)]

/-- What a shift leaves in the interrupt status. -/
theorem interrupts_shift (b : Board κ depth) : b.shift.interrupts = b.raised :=
  congrArg FifoView.interrupts (view_shift b)

/-- What the accesses leave alone while the slave is selected, or the transmitter inhibited.
`held` is this alternative: without it a shift outside of the frame could go unseen by the
slave. -/
structure Bench (k : κ) (earlier : List (UInt8 × UInt8)) (slaveSelect : UInt32)
    (b : Board κ depth) : Prop where
  slave : b.slave = k
  earlier : b.earlier = earlier
  slaveSelect : b.slaveSelect = slaveSelect
  running : Running b.control
  txFull : b.interrupts &&& xspSrTxFullMask = 0
  held : Selected b.slaveSelect ∨ b.view.Inhibited

variable {k : κ} {earlier : List (UInt8 × UInt8)} {slaveSelect : UInt32} {b : Board κ depth}

/-- A shift does not raise the bit for a full queue. -/
theorem raised_txFull (h : b.interrupts &&& xspSrTxFullMask = 0) :
    b.raised &&& xspSrTxFullMask = 0 := by
  rw [raised, or_and_of_disjoint (clear_and_mask _ _), or_and_of_disjoint (by decide), h]

/-- A shift goes to the slave that is selected, and adds to the frame only. -/
theorem Bench.shift (h : Bench k earlier slaveSelect b) (hnot : ¬ b.view.Resting) :
    Bench k earlier slaveSelect b.shift := by
  have hselected : Selected b.slaveSelect :=
    h.held.resolve_right fun hinhibited => hnot (.inl hinhibited)
  unfold Board.shift
  rw [dif_pos hselected]
  exact ⟨h.slave, h.earlier, h.slaveSelect, h.running, raised_txFull h.txFull, h.held⟩

/-- So does a poll, which shifts at most. -/
theorem Bench.poll (h : Bench k earlier slaveSelect b) : Bench k earlier slaveSelect b.poll := by
  rcases b.poll_cases with hpoll | ⟨hnot, hpoll | hpoll⟩
  · rwa [hpoll]
  · rw [hpoll]
    exact h.shift hnot
  · rw [hpoll]
    exact ⟨h.slave, h.earlier, h.slaveSelect, h.running, h.txFull, h.held⟩

/-- And with it every read access. -/
theorem Bench.read (h : Bench k earlier slaveSelect b) (address : UInt64) :
    Bench k earlier slaveSelect (read address b).2 := by
  rcases b.read_cases address with hread | hread | hread
  · rwa [hread]
  · rw [hread]
    exact h.poll
  · rw [hread]
    exact ⟨h.slave, h.earlier, h.slaveSelect, h.running, h.txFull, h.held⟩

/-- A byte that is queued is not on the bus yet. -/
theorem Bench.writeData (h : Bench k earlier slaveSelect b) (data : UInt64) :
    Bench k earlier slaveSelect (write (Axi.base + xspDtrOffset.toUInt64) data b) := by
  change Bench k earlier slaveSelect
    (if b.tx.length < depth then { b with tx := b.tx ++ [data.toUInt8] } else b)
  split
  · exact ⟨h.slave, h.earlier, h.slaveSelect, h.running, h.txFull, h.held⟩
  · exact h

/-- Writing back what was read, with other bits, toggles the ones read off. -/
theorem Bench.writeInterrupts (h : Bench k earlier slaveSelect b) {mask : UInt32}
    (hmask : mask &&& xspSrTxFullMask = 0) :
    Bench k earlier slaveSelect (write (Axi.base + xspIisrOffset.toUInt64)
      (b.interrupts.toUInt64 ||| mask.toUInt64) b) := by
  have hwritten : (b.interrupts.toUInt64 ||| mask.toUInt64).toUInt32 &&& xspSrTxFullMask = 0 := by
    rw [UInt64.toUInt32_or, UInt32.toUInt32_toUInt64, UInt32.toUInt32_toUInt64,
      or_and_of_disjoint hmask, h.txFull]
  exact ⟨h.slave, h.earlier, h.slaveSelect, h.running, xor_and h.txFull hwritten, h.held⟩

/-- The interrupt enable registers are no part of it, so that they can be written at any
time. -/
theorem Bench.enables (h : Bench k earlier slaveSelect b) (dgier iier : UInt64) :
    Bench k earlier slaveSelect ({ b with dgier, iier } : Board κ depth) :=
  ⟨h.slave, h.earlier, h.slaveSelect, h.running, h.txFull, h.held⟩

/-- The frame begins.  A line that was high goes low, and the slave is the one that was
there. -/
theorem Bench.select (h : Bench k earlier slaveSelect b) {slaveSelect' : UInt32}
    (hselected : Selected slaveSelect') : Bench k earlier slaveSelect' (b.select slaveSelect') := by
  rw [Board.select, dif_pos hselected]
  exact ⟨h.slave, h.earlier, rfl, h.running, h.txFull, .inl hselected⟩

/-- What went over the bus in the frame: the bytes that were sent, and the answers of the
slave to them, beginning from the state that it had at the selection. -/
theorem Bench.exchanged (h : Bench k earlier slaveSelect b) {bytes stored : List UInt8}
    (hsent : b.view.sent = earlier.map Prod.fst ++ bytes)
    (hreceived : b.view.received = earlier.map Prod.snd ++ stored) :
    b.frame.map Prod.fst = bytes ∧ stored = SerialSlave.replies k [] bytes := by
  simp only [view, h.earlier, List.map_append] at hsent hreceived
  have hout := List.append_cancel_left hsent
  have hin := List.append_cancel_left hreceived
  exact ⟨hout, by rw [← hin, b.answered, hout, h.slave]⟩

/-- Between two frames: a core that runs but holds back, with nothing in its FIFOs, and the
slave `k`. -/
structure Idle (k : κ) (b : Board κ depth) : Prop where
  slave : b.slave = k
  deselected : ¬ Selected b.slaveSelect
  running : Running b.control
  rested : SpiCore.Rested b.view
  txFull : b.interrupts &&& xspSrTxFullMask = 0

/-- The frame ends.  The slave is told the bytes of the frame, and what it does with them is
its own affair. -/
theorem Bench.release (h : Bench k earlier slaveSelect b) (hrested : SpiCore.Rested b.view)
    (hframe : b.frame ≠ []) :
    (b.select spiSelect).Idle (SerialSlave.release k (b.frame.map Prod.fst)) := by
  have hdeselected : ¬ Selected spiSelect := by decide
  rw [Board.select, dif_neg hdeselected]
  refine ⟨?_, hdeselected, h.running, ?_, h.txFull⟩
  · rw [← h.slave]
    exact if_neg hframe
  · exact ⟨hrested.inhibited, hrested.tx, hrested.rx, hrested.notEmpty⟩

/-- Bits of the control register outside of the two that let the core run.  The transmitter
may be let go only while a slave is selected. -/
theorem Bench.setControl (h : Bench k earlier slaveSelect b) {mask : UInt32}
    (hreset : mask &&& fifoResetMask = 0) (hsame : SameRun mask b.control)
    (hheld : Selected b.slaveSelect ∨ mask &&& xspCrTransInhibitMask ≠ 0) :
    Bench k earlier slaveSelect (b.setControl mask) := by
  have hload : Bench k earlier slaveSelect (b.loadControl mask) := by
    have hcontrol : (b.loadControl mask).control = mask := clear_of_and_eq_zero hreset
    refine ⟨h.slave, h.earlier, h.slaveSelect, ?_, h.txFull, hheld.imp_right fun h => ?_⟩
    · rw [hcontrol]
      exact hsame.running h.running
    · change (b.loadControl mask).control &&& _ ≠ 0
      rwa [hcontrol]
  rw [Board.setControl, arm]
  split
  · exact hload
  · exact ⟨hload.slave, hload.earlier, hload.slaveSelect, hload.running, hload.txFull, hload.held⟩

/-- A transmitter that is held back has the transmit empty bit cleared.  It is so between
transfers, and it is what makes the first poll of the next one wait. -/
def Cleared (b : Board κ depth) : Prop := b.view.Inhibited → ¬ b.view.TxEmpty

/-- A read leaves the bit as it is, unless it shifts, and a core that holds back does not.  So
the bit is clear when the next transfer begins. -/
theorem Cleared.read (h : b.Cleared) (address : UInt64) : (Board.read address b).2.Cleared := by
  rcases b.read_cases address with hread | hread | hread
  · rwa [hread]
  · rw [hread]
    rcases b.poll_cases with hpoll | ⟨hnot, hpoll | hpoll⟩
    · rwa [hpoll]
    · -- an inhibited core does not shift
      rw [hpoll, Cleared, view_shift]
      exact fun hinhibited => absurd (.inl hinhibited) hnot
    · rw [hpoll]
      exact h
  · rw [hread]
    exact h

/-- Neither does a byte that is queued. -/
theorem Cleared.writeData (h : b.Cleared) (data : UInt64) :
    (write (Axi.base + xspDtrOffset.toUInt64) data b).Cleared := by
  change Board.Cleared (if b.tx.length < depth then { b with tx := b.tx ++ [data.toUInt8] } else b)
  split
  · exact h
  · exact h

/-- A property of the interrupt registers, and of what the core is going to raise, that the
accesses of a transfer keep.  `clear` is asked only for masks that have nothing to do with
errors. -/
class Stable (P : Board κ depth → Prop) : Prop where
  read : ∀ {b} address, P b → P (Board.read address b).2
  writeData : ∀ {b} data, P b → P (write (Axi.base + xspDtrOffset.toUInt64) data b)
  clear : ∀ {b mask}, mask &&& errorMask = 0 → P b →
    P (write (Axi.base + xspIisrOffset.toUInt64) (b.interrupts.toUInt64 ||| mask.toUInt64) b)
  select : ∀ {b} slaveSelect, P b → P (b.select slaveSelect)
  setControl : ∀ {b} mask, P b → P (b.setControl mask)

/-- The interrupts are off.  This is what a driver in the polled mode asks of them, and what
`XSpi_Start` leaves. -/
def Polled (b : Board κ depth) : Prop := b.dgier ≠ xspGintrEnableMask

/-- What a read access leaves alone in the interrupt enable registers and the schedule.  The
cases are the registers; only the interrupt status and the receive FIFO change anything at
all. -/
theorem enables_read (address : UInt64) (b : Board κ depth) :
    (Board.read address b).2.dgier = b.dgier ∧ (Board.read address b).2.iier = b.iier ∧
      (Board.read address b).2.pending.2 = b.pending.2 ∧
      (Board.read address b).2.schedule = b.schedule := by
  have hshift : b.shift.dgier = b.dgier ∧ b.shift.iier = b.iier ∧ b.shift.pending.2 = b.pending.2 ∧
      b.shift.schedule = b.schedule := by
    unfold shift
    split <;> exact ⟨rfl, rfl, rfl, rfl⟩
  rcases b.read_cases address with hread | hread | hread
  · rw [hread]
    exact ⟨rfl, rfl, rfl, rfl⟩
  · rw [hread]
    rcases b.poll_cases with hpoll | ⟨-, hpoll | hpoll⟩ <;> rw [hpoll]
    · exact ⟨rfl, rfl, rfl, rfl⟩
    · exact hshift
    · exact ⟨rfl, rfl, rfl, rfl⟩
  · rw [hread]
    exact ⟨rfl, rfl, rfl, rfl⟩

/-- The data register takes a byte if there is room. -/
theorem write_data (data : UInt64) (b : Board κ depth) :
    write (Axi.base + xspDtrOffset.toUInt64) data b =
      if b.tx.length < depth then { b with tx := b.tx ++ [data.toUInt8] } else b := rfl

instance : Stable (fun b : Board κ depth => b.Polled) where
  read address h := by
    rwa [Polled, (enables_read address _).1]
  writeData data h := by
    rw [write_data]
    split <;> exact h
  clear _ h := h
  select slaveSelect h := by
    unfold Board.select
    split <;> exact h
  setControl mask h := by
    rw [setControl, arm]
    split <;> exact h

end Board

/-! ## What the driver does to the board -/

namespace SpiCore

/-- The driver and its board.  The state behind the flash code is one of these in the modules
that follow. -/
abbrev Bus (κ : Type) [SerialSlave κ] (depth : ℕ) : Type := SpiCore (Traced (Board κ depth))

variable {P P' : Board κ depth → Prop} {k : κ} {earlier : List (UInt8 × UInt8)}
variable {slaveSelect : UInt32} {s : Bus κ depth}

section Accesses

variable {R : Stop → Bus κ depth → Prop}

/-- A register of the board is read. -/
theorem wp_readBoard (hw : Wired Axi.base s.spi) (offset : UInt32) {Q : UInt64 → Bus κ depth → Prop}
    (h : ∀ t : Traced (Board κ depth),
      t.device = (Board.read (Axi.base + offset.toUInt64) s.device.device).2 →
      Q (Board.read (Axi.base + offset.toUInt64) s.device.device).1 { s with device := t }) :
    wp (xspiPciReadReg offset) Q R s := by
  refine (wp_of_ret (by rw [xspiPciReadReg, if_pos hw.pci, hw.baseAddr])).mpr ?_
  exact h ⟨_, s.device.writes⟩ rfl

/-- A register of the board is written. -/
theorem wp_writeBoard (hw : Wired Axi.base s.spi) (offset : UInt32) (data : UInt64)
    {Q : Unit → Bus κ depth → Prop}
    (h : ∀ t : Traced (Board κ depth),
      t.device = Board.write (Axi.base + offset.toUInt64) data s.device.device →
      Q () { s with device := t }) : wp (xspiPciWriteReg offset data) Q R s := by
  refine wp_modify.mpr ?_
  rw [if_pos hw.pci, hw.baseAddr]
  exact h ⟨_, _⟩ rfl

/-- The control register is read as it is. -/
theorem wp_readControl (hw : Wired Axi.base s.spi) {Q : UInt32 → Bus κ depth → Prop}
    (h : ∀ t : Traced (Board κ depth), t.device = s.device.device →
      Q s.device.device.control { s with device := t }) : wp xspiGetControlReg Q R s := by
  refine wp_bind.mpr (wp_readBoard hw xspCrOffset fun t ht => wp_pure.mpr ?_)
  have hvalue : (Board.read (Axi.base + xspCrOffset.toUInt64) s.device.device).1.toUInt32 =
      s.device.device.control := Board.core.read_control _
  rw [hvalue]
  exact h t ht

/-- The control register is written. -/
theorem wp_writeControl (hw : Wired Axi.base s.spi) (mask : UInt32) {Q : Unit → Bus κ depth → Prop}
    (h : ∀ t : Traced (Board κ depth), t.device = s.device.device.setControl mask →
      Q () { s with device := t }) : wp (xspiSetControlReg mask) Q R s :=
  wp_writeBoard hw _ _ fun t ht => h t (ht.trans (Board.write_setControl _ _))

end Accesses

/-- The board of a driver that reaches it: its bench, and the property of its mode.  The two
modes of a transfer share all but the last field. -/
structure Holds (P : Board κ depth → Prop) (k : κ) (earlier : List (UInt8 × UInt8))
    (slaveSelect : UInt32) (s : Bus κ depth) : Prop where
  wired : Wired Axi.base s.spi
  bench : s.device.device.Bench k earlier slaveSelect
  mode : P s.device.device

/-- Another board in the same place. -/
theorem Holds.device (h : Holds P k earlier slaveSelect s) {t : Traced (Board κ depth)}
    (ht : t.device.Bench k earlier slaveSelect) (hmode : P t.device) :
    Holds P k earlier slaveSelect { s with device := t } :=
  ⟨h.wired, ht, hmode⟩

variable [Board.Stable P]

/-- Every access that the loops make keeps it. -/
theorem holds_flows : Flows (Keeps fun s : Bus κ depth => Holds P k earlier slaveSelect s) where
  read offset _ _ h := wp_state_iff.mp <| wp_readBoard h.wired offset fun _ ht =>
    h.device (ht ▸ h.bench.read _) (ht ▸ Board.Stable.read _ h.mode)
  writeData data _ h := wp_state_iff.mp <| wp_writeBoard h.wired _ data fun _ ht =>
    h.device (ht ▸ h.bench.writeData data) (ht ▸ Board.Stable.writeData data h.mode)
  buffers _ _ _ _ h := ⟨⟨h.wired.pci, h.wired.baseAddr⟩, h.bench, h.mode⟩

/-- Bits of the control register outside of the two that let the core run. -/
theorem Holds.setControl (h : Holds P k earlier slaveSelect s) {mask : UInt32}
    (hreset : mask &&& fifoResetMask = 0) (hsame : SameRun mask s.device.device.control)
    (hheld : Selected slaveSelect ∨ mask &&& xspCrTransInhibitMask ≠ 0)
    {R : Stop → Bus κ depth → Prop} :
    wp (xspiSetControlReg mask) (fun _ s' => Holds P k earlier slaveSelect s') R s := by
  refine wp_writeControl h.wired _ fun t ht =>
    h.device (ht ▸ ?_) (ht ▸ Board.Stable.setControl _ h.mode)
  exact h.bench.setControl hreset hsame (h.bench.slaveSelect ▸ hheld)

/-- The transmitter may be held back at any time. -/
theorem Holds.hold (h : Holds P k earlier slaveSelect s) {R : Stop → Bus κ depth → Prop} :
    wp (xspiSetControlReg (s.device.device.control ||| xspCrTransInhibitMask))
      (fun _ s' => Holds P k earlier slaveSelect s') R s := by
  refine h.setControl ((or_and_of_disjoint (by decide)).trans s.device.device.noReset)
    (sameRun_or (forall_runMasks.mpr (by decide))) (.inr ?_)
  rw [or_and_self_mask]
  decide

/-- It may be let go in the frame. -/
theorem Holds.free (h : Holds P k earlier slaveSelect s) (hselected : Selected slaveSelect)
    {R : Stop → Bus κ depth → Prop} :
    wp (xspiSetControlReg (s.device.device.control &&& ~~~xspCrTransInhibitMask))
      (fun _ s' => Holds P k earlier slaveSelect s') R s :=
  h.setControl ((clear_and_of_disjoint (by decide)).trans s.device.device.noReset)
    (sameRun_clear (forall_runMasks.mpr (by decide))) (.inl hselected)

/-- `inhibit` reads the register before it writes it. -/
theorem holds_inhibit :
    Moves (Keeps fun s : Bus κ depth => Holds P k earlier slaveSelect s) inhibit := by
  intro s h
  refine wp_state_iff.mp (wp_bind.mpr (wp_readControl h.wired fun t ht => ?_))
  have h' : Holds P k earlier slaveSelect { s with device := t } :=
    h.device (ht ▸ h.bench) (ht ▸ h.mode)
  have hhold := h'.hold (R := fun _ s' => Holds P k earlier slaveSelect s')
  rwa [show t.device.control = s.device.device.control by rw [ht]] at hhold

/-- So does `uninhibit`. -/
theorem holds_uninhibit (hselected : Selected slaveSelect) :
    Moves (Keeps fun s : Bus κ depth => Holds P k earlier slaveSelect s) uninhibit := by
  intro s h
  refine wp_state_iff.mp (wp_bind.mpr (wp_readControl h.wired fun t ht => ?_))
  have h' : Holds P k earlier slaveSelect { s with device := t } :=
    h.device (ht ▸ h.bench) (ht ▸ h.mode)
  have hfree := h'.free hselected (R := fun _ s' => Holds P k earlier slaveSelect s')
  rwa [show t.device.control = s.device.device.control by rw [ht]] at hfree

/-- The driver clears an interrupt by writing back what it reads, which toggles no bit but the
one it means. -/
theorem holds_intrClear {mask : UInt32} (hmask : mask &&& errorMask = 0) :
    Moves (Keeps fun s : Bus κ depth => Holds P k earlier slaveSelect s) (xspiIntrClear mask) := by
  intro s h
  refine wp_state_iff.mp (wp_bind.mpr (wp_readBoard h.wired xspIisrOffset fun t ht => ?_))
  have hpoll : t.device = s.device.device.poll := ht
  refine wp_writeBoard (s := { s with device := t }) h.wired xspIisrOffset _ fun t' ht' => ?_
  have hwritten : t'.device = Board.write (Axi.base + xspIisrOffset.toUInt64)
      (s.device.device.poll.interrupts.toUInt64 ||| mask.toUInt64) s.device.device.poll :=
    ht'.trans (congrArg (Board.write _ _) hpoll)
  have hmode : P s.device.device.poll :=
    Board.Stable.read (Axi.base + xspIisrOffset.toUInt64) h.mode
  refine h.device (hwritten ▸ ?_) (hwritten ▸ Board.Stable.clear hmask hmode)
  exact h.bench.poll.writeInterrupts (and_eq_zero_of_and hmask (by decide))

/-- In the frame, the polled mode leaves alone what was before it. -/
theorem holds_polledRound (hselected : Selected slaveSelect) (rounds : ℕ) (dataWidth : UInt8)
    (vars : UInt32 × UInt32) :
    Moves (Keeps fun s : Bus κ depth => Holds P k earlier slaveSelect s)
      (polledRound rounds dataWidth vars) :=
  RoundFlows.polledRound ⟨holds_flows, holds_intrClear (by decide), holds_inhibit,
    holds_uninhibit hselected⟩
    rounds dataWidth vars

/-! ### The poll -/

/-- A read of the interrupt status is a poll of the board. -/
theorem Holds.afterRead (h : Holds P k earlier slaveSelect s) :
    Holds P k earlier slaveSelect (afterRead s) ∧
      (SpiCore.afterRead s).device.device = s.device.device.poll ∧
      intrStatus s = s.device.device.poll.interrupts := by
  refine ⟨holds_flows.read xspIisrOffset (by decide) s h, ?_⟩
  rw [SpiCore.afterRead, intrStatus, xspiIntrGetStatus, xspiPciReadReg, if_pos h.wired.pci,
    if_pos h.wired.pci, h.wired.baseAddr]
  exact ⟨rfl, UInt32.toUInt32_toUInt64 _⟩

/-- **A core that has something to send is through with it before the poll gives up.**  The
induction is on the polls that are left until the shift: each of them counts down by one, and
there are less than 99. -/
theorem Holds.prompt (h : Holds P k earlier slaveSelect s) (hnot : ¬ s.device.device.view.Resting) :
    ∃ n < 99, Empties s n := by
  suffices ∃ n ≤ s.device.device.pending.1.val, Empties s n by
    obtain ⟨n, hn, hempties⟩ := this
    exact ⟨n, Nat.lt_of_le_of_lt hn s.device.device.pending.1.isLt, hempties⟩
  generalize hm : s.device.device.pending.1.val = m
  induction m generalizing s with
  | zero =>
      obtain ⟨-, -, hstatus⟩ := h.afterRead
      refine ⟨0, le_rfl, ?_⟩
      have hshift : s.device.device.poll = s.device.device.shift := by
        rw [Board.poll_of_sending hnot h.bench.running, if_pos (Fin.ext hm)]
      rw [Empties, Function.iterate_zero, id, hstatus, hshift, Board.interrupts_shift]
      exact Board.raised_txEmpty _
  | succ m ih =>
      obtain ⟨h', hafter, -⟩ := h.afterRead
      have hpending : s.device.device.pending.1 ≠ 0 := by
        rintro h0
        rw [h0] at hm
        exact absurd hm (Nat.succ_ne_zero m).symm
      rw [Board.poll_of_sending hnot h.bench.running, if_neg hpending] at hafter
      obtain ⟨n, hn, hempties⟩ := ih h' (by rw [hafter]; exact hnot) (by
        rw [hafter]
        change (s.device.device.pending.1 - 1).val = m
        rw [Fin.val_sub_one_of_ne_zero hpending, hm, Nat.add_sub_cancel])
      exact ⟨n + 1, Nat.succ_le_succ hn, hempties⟩

/-! ### The transmit empty bit -/

/-- A board that the driver reaches, and that is through with its poll if it is inhibited. -/
structure Clears (s : Bus κ depth) : Prop where
  wired : Wired Axi.base s.spi
  cleared : s.device.device.Cleared

/-- Reads and queued bytes keep it. -/
theorem clears_flows : Flows (Keeps fun s : Bus κ depth => Clears s) where
  read offset _ _ h := wp_state_iff.mp <| wp_readBoard h.wired offset fun _ ht =>
    ⟨h.wired, ht ▸ h.cleared.read _⟩
  writeData data _ h := wp_state_iff.mp <| wp_writeBoard h.wired _ data fun _ ht =>
    ⟨h.wired, ht ▸ h.cleared.writeData data⟩
  buffers _ _ _ _ h := ⟨⟨h.wired.pci, h.wired.baseAddr⟩, h.cleared⟩

/-- A core that is let go is not inhibited, so there is nothing to show. -/
theorem clears_uninhibit : Moves (Keeps fun s : Bus κ depth => Clears s) uninhibit := by
  intro s h
  refine wp_state_iff.mp (wp_bind.mpr (wp_readControl h.wired fun t ht => ?_))
  refine wp_writeControl (s := { s with device := t }) h.wired _ fun t' ht' => ⟨h.wired, ?_⟩
  intro hinhibited
  rw [ht', Board.view_setControl] at hinhibited
  · exact absurd (clear_and_mask _ _) hinhibited
  · exact (clear_and_of_disjoint (by decide)).trans s.device.device.noReset

section Round

variable {spi₀ : XSpi} {v₀ : FifoView} {log₀ : List (UInt64 × ℕ)} {buffer : ℕ → UInt8}
variable {recv : Bool} {byteCount : UInt32}

/-- With bytes left at the head of the loop, something is on its way. -/
theorem Polling.sending {left : UInt32}
    (h : Polling Board.core spi₀ v₀ log₀ buffer recv byteCount left s) (hpos : 0 < left.toNat) :
    ∃ count stored v, Underway Board.core spi₀ v₀ log₀ buffer recv byteCount count stored v s ∧
      Sending v ∧ left.toNat + stored.length = byteCount.toNat := by
  obtain ⟨count, stored, v, hunderway, hleft, hphase⟩ := h
  refine ⟨count, stored, v, hunderway, hphase.resolve_right fun ⟨_, htx, hrx, hcount⟩ => ?_, hleft⟩
  have hlength := hunderway.length_le
  rw [htx, hrx, hcount] at hlength
  simp only [List.length_nil] at hlength
  omega

/-- A round clears the transmit empty bit before it inhibits the transmitter.  It follows the
body of the round: the poll, the clearing, the inhibition, the draining and the filling. -/
theorem Polling.round_clears (hw : Wired Axi.base spi₀) {rounds : ℕ} {left data : UInt32}
    (h : Polling Board.core spi₀ v₀ log₀ buffer recv byteCount left s) (hclears : Clears s)
    (hprompt : ¬ s.device.device.view.Resting → ∃ n < 99, Empties s n) :
    wp (polledRound rounds xspDatawidthByte (left, data)) (fun _ s' => Clears s')
      (fun _ _ => True) s := by
  refine wp_ite.mpr ⟨fun hpos => ?_, fun _ => hclears⟩
  obtain ⟨count, stored, v, hunderway, hsending, -⟩ := h.sending (UInt32.lt_iff_toNat_lt.mp hpos)
  -- the bit is there already, or it will be before the poll gives up
  have hsoon : ∃ n < 99, Empties s n := by
    obtain ⟨_, hat, -⟩ := hunderway.located
    by_cases hresting : v.Resting
    · exact ⟨0, by decide, hunderway.empties_of_resting hw hsending hresting⟩
    · refine hprompt fun h => hresting ?_
      rw [← hat.view]
      exact h
  refine wp_bind.mpr (wp_mono (hunderway.poll hw hsending hsoon)
    (fun loopcountdown s₁ ⟨hfound, v₁, h₁, hsending₁, hempty⟩ => ?_) fun _ _ => False.elim)
  rw [if_neg hfound]
  obtain ⟨htx₁, -, -⟩ := hsending₁.some.resolve_left fun h => h.2 hempty
  obtain ⟨log, hat₁, -⟩ := h₁.located
  refine wp_bind.mpr (wp_mono (hat₁.intrClear hw.underway (.inr htx₁) hempty)
    (fun _ s₂ ⟨interrupts, hclear, hat₂⟩ => ?_) fun _ _ => False.elim)
  refine wp_bind.mpr (wp_mono (hat₂.inhibit hw.underway (.inr htx₁)) (fun _ s₃ hat₃ => ?_)
    fun _ _ => False.elim)
  have hclears₃ : Clears s₃ := by
    refine ⟨by rw [hat₃.spi]; exact hw.underway, fun _ => not_not_intro ?_⟩
    have hview : s₃.device.device.view = _ := hat₃.view
    rw [hview]
    exact hclear
  exact wp_mono ((clears_flows.exchangeRound clears_uninhibit rounds xspDatawidthByte left data).wp s₃)
    (fun _ _ h => h hclears₃) fun _ _ _ => trivial

/-- Every round finds a core that is quick enough, since what holds of the frame holds at the
head of each. -/
theorem Holds.prompt_of_mem (hselected : Selected slaveSelect)
    (h : Holds P k earlier slaveSelect s) (rounds : ℕ) (vars : UInt32 × UInt32) :
    ∀ r ∈ visits (polledRound rounds xspDatawidthByte) rounds vars s,
      ¬ r.2.device.device.view.Resting → ∃ n < 99, Empties r.2 n := by
  intro r hr
  refine Holds.prompt (forall_visits (I := fun _ s => Holds P k earlier slaveSelect s)
    (P := fun _ => True) (fun vars s h _ => ?_) rounds vars s h (fun _ _ => trivial) r hr)
  have hround : Moves (Keeps fun s : Bus κ depth => Holds P k earlier slaveSelect s) _ :=
    holds_polledRound hselected rounds xspDatawidthByte vars
  refine wp_mono (hround.wp s) (fun r s' h' => ?_) fun _ _ _ => trivial
  cases r with
  | inl _ => exact h' h
  | inr _ => trivial

/-- The polling loop in a frame: it succeeds, all bytes are exchanged, and both invariants are
there at its end. -/
theorem Polling.frame (h : Polling Board.core spi₀ v₀ log₀ buffer recv byteCount byteCount s)
    (data : UInt32) (hw : Wired Axi.base spi₀) (hdepth : 0 < depth) {rounds : ℕ}
    (hrounds : byteCount.toNat < rounds)
    (hselected : Selected slaveSelect) (hholds : Holds P k earlier slaveSelect s)
    (hclears : Clears s) :
    wp (Prog.loop (polledRound rounds xspDatawidthByte) rounds (byteCount, data))
      (fun status s' => status = .success ∧
        Complete Board.core spi₀ v₀ log₀ buffer recv byteCount s' ∧
        Holds P k earlier slaveSelect s' ∧ Clears s') never s := by
  have hprompt := hholds.prompt_of_mem hselected rounds (byteCount, data)
  have hholding : Moves (Keeps fun s : Bus κ depth => Holds P k earlier slaveSelect s) _ :=
    Moves.loop (holds_polledRound hselected rounds xspDatawidthByte) rounds (byteCount, data)
  have hclearing : wp (Prog.loop (polledRound rounds xspDatawidthByte) rounds (byteCount, data))
      (fun _ s' => Clears s') (fun _ _ => True) s := by
    refine wp_loop_of_visits
      (fun _ vars s => Polling Board.core spi₀ v₀ log₀ buffer recv byteCount vars.1 s ∧ Clears s)
      (fun r => ¬ r.2.device.device.view.Resting → ∃ n < 99, Empties r.2 n) ?_
      (fun _ _ _ => trivial) rounds (byteCount, data) s ⟨h, hclears⟩ hprompt
    rintro _ ⟨left, data⟩ s₁ ⟨h₁, hclears₁⟩ hsoon
    refine wp_mono (wp_and (h₁.round hw hdepth hrounds hsoon)
      (h₁.round_clears hw hclears₁ hsoon)) (fun r s₂ ⟨h₂, hclears₂⟩ => ?_) fun _ _ _ => trivial
    cases r with
    | inl _ => exact ⟨h₂.2, hclears₂⟩
    | inr _ => exact hclears₂
  exact wp_mono (wp_and (h.loop hw hdepth hrounds hprompt) (wp_and (hholding.wp s) hclearing))
    (fun _ _ ⟨⟨hok, hcomplete⟩, hheld, hcleared⟩ => ⟨hok, hcomplete, hheld hholds, hcleared⟩)
    fun _ _ h => h.1

end Round

/-! ### The transfer -/

/-- A started driver between two transfers, in front of an idle core and the slave `k`.  The
instance is configured as `System_init_startup` does it: bytes, and one slave line, which is
this slave's. -/
structure Standing (P : Board κ depth → Prop) (k : κ) (s : Bus κ depth) : Prop where
  wired : Wired Axi.base s.spi
  ready : s.spi.isReady = xilComponentIsReady
  started : s.spi.isStarted = xilComponentIsStarted
  idle : s.spi.isBusy = false
  width : s.spi.dataWidth = xspDatawidthByte
  numSlaveBits : s.spi.numSlaveBits = 1
  slaveSelectMask : s.spi.slaveSelectMask = spiSelect
  slaveSelectReg : s.spi.slaveSelectReg = ~~~spiSelect
  board : s.device.device.Idle k
  mode : P s.device.device

/-- The same in the polled mode, which is the mode of the flash code. -/
abbrev Waiting (k : κ) (s : Bus κ depth) : Prop := Standing Board.Polled k s

omit [Board.Stable P] in
/-- Between two transfers the bench is the one of no frame at all. -/
theorem Standing.holds (h : Standing P k s) :
    Holds P k s.device.device.earlier s.device.device.slaveSelect s :=
  ⟨h.wired, ⟨h.board.slave, rfl, rfl, h.board.running, h.board.txFull,
    .inr h.board.rested.inhibited⟩, h.mode⟩

/-- The checks switch the interrupts off, and read the control register.  Whatever `P` says of
the board must therefore hold without the interrupts. -/
theorem Holds.checks (h : Holds P k earlier slaveSelect s)
    (hoff : ∀ b, P b → P' { b with dgier := 0 }) :
    Holds P' k earlier slaveSelect (SpiCore.checks s).2 := by
  suffices hchecks : wp SpiCore.checks (fun _ => Holds P' k earlier slaveSelect)
      (fun _ => Holds P' k earlier slaveSelect) s from wp_state_iff.mp hchecks
  refine wp_bind.mpr (wp_bind.mpr ?_)
  refine wp_readBoard h.wired _ fun t₁ ht₁ => wp_pure.mpr (wp_bind.mpr ?_)
  have h₁ : Holds P k earlier slaveSelect { s with device := t₁ } :=
    h.device (ht₁ ▸ h.bench.read _) (ht₁ ▸ Board.Stable.read _ h.mode)
  refine wp_writeBoard h₁.wired _ _ fun t₂ ht₂ => wp_bind.mpr ?_
  refine wp_readControl (s := { s with device := t₂ }) h.wired fun t₃ ht₃ => wp_pure.mpr ?_
  have hdevice : t₃.device = { t₁.device with dgier := 0 } := ht₃.trans ht₂
  exact ⟨h.wired, hdevice ▸ h₁.bench.enables 0 t₁.device.iier, hdevice ▸ hoff _ h₁.mode⟩

omit [Board.Stable P] in
/-- They tell whether the interrupts are on, and change nothing else.  Only one of the two
registers that they read is written, and it is the one that switches the interrupts off. -/
theorem Standing.checks (h : Standing P k s) :
    wp checks (fun r s' =>
      r = (decide (s.device.device.dgier = xspGintrEnableMask), s.device.device.control) ∧
      At Board.core s.spi s.device.device.view (Board.core.dataWrites s.device) s') never s := by
  have hat : At Board.core s.spi s.device.device.view (Board.core.dataWrites s.device) s :=
    ⟨rfl, rfl, rfl⟩
  have hresting : s.device.device.view.Resting := .inl h.board.rested.inhibited
  refine wp_bind.mpr (wp_bind.mpr (wp_mono (hat.read_resting h.wired hresting (by decide))
    (fun value s₁ ⟨hvalue, h₁⟩ => ?_) fun _ _ => id))
  refine wp_pure.mpr (wp_bind.mpr (wp_mono (h₁.write_other h.wired (by decide) 0)
    (fun _ s₂ h₂ => ?_) fun _ _ => id))
  have hview₁ : (Board.core.view s₁.device.device).Resting := by
    rw [h₁.view]
    exact hresting
  rw [Board.core.write_dgier _ _ hview₁, h₁.view] at h₂
  refine wp_bind.mpr (wp_mono (h₂.getControlReg h.wired hresting) (fun _ s₃ ⟨hcontrol, h₃⟩ => ?_)
    fun _ _ => id)
  exact ⟨by rw [hcontrol, hvalue]; rfl, h₃⟩

/-- The opening begins the frame.  The select line goes down when the FIFO has been filled,
and the slave is at its first byte. -/
theorem Holds.opening (h : Holds P k earlier slaveSelect s)
    (hreg : s.spi.slaveSelectReg = ~~~spiSelect) (rounds : ℕ) (buffer : ℕ → UInt8) (recv : Bool)
    (byteCount : UInt32) :
    wp (opening rounds buffer recv byteCount) (fun _ s' => Holds P k earlier (~~~spiSelect) s')
      (fun _ _ => True) s := by
  have drop : ∀ (why : Stop) (s' : Bus κ depth), Holds P k earlier slaveSelect s' → True :=
    fun _ _ _ => trivial
  have hselected : Selected (~~~spiSelect) := by decide
  refine wp_bind.mpr (wp_modify.mpr (wp_bind.mpr (wp_gets.mpr ?_)))
  have h₁ : Holds P k earlier slaveSelect { s with spi := { s.spi with
      isBusy := true
      sendBuffer := buffer
      recvBuffer := if recv then some [] else none
      requestedBytes := byteCount
      remainingBytes := byteCount } } := ⟨⟨h.wired.pci, h.wired.baseAddr⟩, h.bench, h.mode⟩
  refine holds_flows.xspiGetStatusReg.wp_bind h₁ (fun _ s₂ h₂ => ?_) drop
  refine (holds_flows.read _ (by decide)).wp_bind h₂ (fun statusReg s₃ h₃ => ?_) drop
  refine (Moves.loop (holds_flows.fillRound _) _ _).wp_bind h₃ (fun data s₄ h₄ => ?_) drop
  refine wp_bind.mpr (wp_writeBoard h₄.wired _ _ fun t ht => ?_)
  have h₅ : Holds P k earlier (~~~spiSelect) { s₄ with device := t } := by
    have hselect : t.device = s₄.device.device.select (~~~spiSelect) := by
      rw [ht, Board.write_select, hreg]
    exact ⟨h₄.wired, hselect ▸ h₄.bench.select hselected, hselect ▸ Board.Stable.select _ h₄.mode⟩
  refine (holds_uninhibit hselected).wp_bind h₅ (fun _ s₆ h₆ => ?_) fun _ _ _ => trivial
  exact (holds_flows.read _ (by decide)).wp_bind h₆ (fun _ _ h₇ => h₇) fun _ _ _ => trivial

/-- What is left of a transfer behind its opening: in the interrupt mode the interrupts are
switched on, and in the polled mode the loop follows. -/
def remainder (rounds : ℕ) (byteCount data : UInt32) (globalIntrReg : Bool) :
    Prog (Bus κ depth) Xst :=
  if globalIntrReg then do
    xspiIntrEnable xspIntrTxEmptyMask
    xspiIntrGlobalEnable
    pure .success
  else polledTransfer rounds xspDatawidthByte byteCount data

/-- `startTransfer` is its opening and its remainder. -/
theorem startTransfer_opening (hwidth : s.spi.dataWidth = xspDatawidthByte) (rounds : ℕ)
    (buffer : ℕ → UInt8) (recv : Bool) (byteCount : UInt32) (globalIntrReg : Bool) :
    startTransfer rounds buffer recv byteCount globalIntrReg s =
      (opening rounds buffer recv byteCount >>= fun data =>
        remainder rounds byteCount data globalIntrReg) s := by
  cases globalIntrReg with
  | false =>
      rw [startTransfer_eq, hwidth]
      rfl
  | true =>
      simp only [startTransfer, opening, bind_bind, pure_bind, if_true]
      rw [setSpi_gets, setSpi_gets]
      rfl

omit [Board.Stable P] in
/-- A transfer that passes its checks comes to `startTransfer`.  The driver is ready, started
and idle, and the flash has been selected, so each check lets it through. -/
theorem Standing.xspiTransfer_eq (h : Standing P k s) {byteCount : UInt32} (hbytes : byteCount ≠ 0)
    {s₁ : Bus κ depth} {globalIntrReg : Bool}
    (hchecks : SpiCore.checks s = (.ret (globalIntrReg, s.device.device.control), s₁)) (rounds : ℕ)
    (buffer : ℕ → UInt8) (recv : Bool) :
    xspiTransfer rounds (some buffer) recv byteCount s =
      startTransfer rounds buffer recv byteCount globalIntrReg s₁ := by
  have hready : ¬ (byteCount = 0 ∨ s.spi.isReady ≠ xilComponentIsReady) :=
    not_or.mpr ⟨hbytes, not_not_intro h.ready⟩
  have hidle : ¬ s.spi.isBusy = true := not_busy h.idle
  have hslave : ¬ (s.device.device.control &&& xspCrMasterModeMask ≠ 0 ∧
      s.device.device.control &&& xspCrLoopbackMask = 0 ∧
      s.spi.slaveSelectReg = s.spi.slaveSelectMask) := by
    rw [h.slaveSelectReg, h.slaveSelectMask]
    exact fun hno => absurd hno.2.2 (by decide)
  have htransfer : xspiTransfer rounds (some buffer) recv byteCount s =
      (SpiCore.checks >>= fun (globalIntrReg, controlReg) =>
        if controlReg &&& xspCrMasterModeMask ≠ 0 ∧ controlReg &&& xspCrLoopbackMask = 0 ∧
            s.spi.slaveSelectReg = s.spi.slaveSelectMask then do
          if globalIntrReg then xspiIntrGlobalEnable
          pure .spiNoSlave
        else startTransfer rounds buffer recv byteCount globalIntrReg) s := by
    refine (bind_of_ret (rfl : gets _ s = (.ret s.spi, s))).trans ?_
    simp only [SpiCore.checks, bind_bind, pure_bind, if_neg hready,
      if_neg (not_not_intro h.started), if_neg hidle]
  rw [htransfer, bind_of_ret hchecks]
  dsimp only
  rw [if_neg hslave]

/-- **The beginning of a transfer.**  The interrupts are off by then, the slave is selected,
and the core sends.  What is left of the transfer is its polling loop, or in the interrupt
mode nothing but to enable the interrupts again. -/
theorem Standing.begins (h : Standing P k s) (hoff : ∀ b, P b → P' { b with dgier := 0 })
    [Board.Stable P'] (hdepth : 0 < depth) {byteCount : UInt32} (hbytes : byteCount ≠ 0)
    {rounds : ℕ} (hrounds : byteCount.toNat < rounds) (buffer : ℕ → UInt8) (recv : Bool) :
    ∃ data s', xspiTransfer rounds (some buffer) recv byteCount s =
        remainder rounds byteCount data (s.device.device.dgier = xspGintrEnableMask) s' ∧
      Polling Board.core s.spi s.device.device.view (Board.core.dataWrites s.device) buffer recv
        byteCount byteCount s' ∧
      Holds P' k s.device.device.earlier (~~~spiSelect) s' := by
  obtain ⟨_, s₁, hchecks, rfl, hat₁⟩ := exists_ret_of_wp h.checks
  have hholds₁ : Holds P' k s.device.device.earlier s.device.device.slaveSelect s₁ := by
    have hkept := h.holds.checks hoff
    rwa [hchecks] at hkept
  have hreg₁ : s₁.spi.slaveSelectReg = ~~~spiSelect := by
    rw [hat₁.spi]
    exact h.slaveSelectReg
  obtain ⟨data, s₂, hopening, hphase, hholds₂⟩ := exists_ret_of_wp <|
    wp_mono (wp_and (hat₁.opening buffer recv h.wired h.width hdepth hrounds hbytes h.board.rested)
      (hholds₁.opening hreg₁ rounds buffer recv byteCount)) (fun _ _ h => h) fun _ _ h => h.1
  obtain ⟨-, hpolling⟩ := hphase.resolve_right fun hfull => hfull.1 h.board.txFull
  have hwidth₁ : s₁.spi.dataWidth = xspDatawidthByte := by
    rw [hat₁.spi]
    exact h.width
  refine ⟨data, s₂, ?_, hpolling, hholds₂⟩
  rw [h.xspiTransfer_eq hbytes hchecks, startTransfer_opening hwidth₁, bind_of_ret hopening]

/-- The bytes of a transfer, as the slave sees them.  The frame ends where the driver raises
the select line. -/
def frameOf (buffer : ℕ → UInt8) (byteCount : UInt32) : List UInt8 :=
  (List.range byteCount.toNat).map buffer

section End

variable {k' : κ} {s₀ : Bus κ depth} {log₀ log : List (UInt64 × ℕ)}
variable {buffer : ℕ → UInt8} {recv : Bool} {byteCount : UInt32} {stored : List UInt8}
variable {spi : XSpi} {v : FifoView}

omit [Board.Stable P] in
/-- **The end of the frame.**  The slave has seen the bytes of the transfer, and what was
stored is what it has answered.  The ledger of the transfer says what has gone over the wires,
and the bench of the board that this is the slave's frame. -/
theorem Standing.releases (h₀ : Standing P' k s₀) (hbytes : byteCount ≠ 0)
    (hat : At Board.core spi v log s)
    (hledger : Ledger depth s₀.device.device.view log₀ buffer byteCount.toNat stored v log)
    (hrested : Rested v) (hholds : Holds P k s₀.device.device.earlier (~~~spiSelect) s) :
    (s.device.device.select spiSelect).Idle (SerialSlave.release k (frameOf buffer byteCount)) ∧
      stored = SerialSlave.replies k [] (frameOf buffer byteCount) := by
  have hview : s.device.device.view = v := hat.view
  have hnone : s₀.device.device.frame = [] := s₀.device.device.between h₀.board.deselected
  have hsent := hledger.sent
  have hreceived := hledger.received
  rw [hrested.tx, List.append_nil, Board.view, hnone, List.append_nil] at hsent
  rw [hrested.rx, List.append_nil, Board.view, hnone, List.append_nil] at hreceived
  obtain ⟨hframe, hstored⟩ := hholds.bench.exchanged (by rw [hview]; exact hsent)
    (by rw [hview]; exact hreceived)
  have hsome : s.device.device.frame ≠ [] := by
    rintro hempty
    rw [hempty] at hframe
    have hlength := congrArg List.length hframe
    rw [List.length_map, List.length_map, List.length_range] at hlength
    exact hbytes (UInt32.toNat_inj.mp hlength.symm)
  have hidle := hholds.bench.release (by rw [hview]; exact hrested) hsome
  rw [hframe] at hidle
  exact ⟨hidle, hstored⟩

omit [Board.Stable P] in
/-- The driver between two transfers again, when the instance is no longer busy and the core
idle. -/
theorem Standing.ends (h₀ : Standing P' k s₀) {count : ℕ}
    (hspi : s.spi = underway s₀.spi buffer recv byteCount count stored)
    {t : Traced (Board κ depth)} (hidle : t.device.Idle k') (hmode : P t.device) :
    Standing P k' ⟨{ s.spi with isBusy := false }, t⟩ := by
  rw [hspi]
  exact ⟨⟨h₀.wired.pci, h₀.wired.baseAddr⟩, h₀.ready, h₀.started, rfl, h₀.width, h₀.numSlaveBits,
    h₀.slaveSelectMask, h₀.slaveSelectReg, hidle, hmode⟩

end End

/-- The end of the transfer ends the frame: the transmitter is inhibited, the slave
deselected, and the instance free for the next. -/
theorem Waiting.close {log₀ log : List (UInt64 × ℕ)}
    {buffer : ℕ → UInt8} {recv : Bool} {byteCount : UInt32} {stored : List UInt8} {v : FifoView}
    {s₀ : Bus κ depth} (h₀ : Waiting k s₀) (hbytes : byteCount ≠ 0)
    (hat : At Board.core (underway s₀.spi buffer recv byteCount byteCount.toNat stored) v log s)
    (hledger : Ledger depth s₀.device.device.view log₀ buffer byteCount.toNat stored v log)
    (hv : v.Inhibited) (htx : v.tx = []) (hrx : v.rx = [])
    (hholds : Holds Board.Polled k s₀.device.device.earlier (~~~spiSelect) s) (hclears : Clears s) :
    wp (do
        inhibit
        let spi ← gets fun s => s.spi
        xspiSetSlaveSelectReg spi.slaveSelectMask
        setSpi fun spi => { spi with isBusy := false }
        pure Xst.success)
      (fun status s' => status = .success ∧
        Waiting (SerialSlave.release k (frameOf buffer byteCount)) s' ∧
        s'.spi.recvBuffer =
          if recv then some (SerialSlave.replies k [] (frameOf buffer byteCount)) else none)
      never s := by
  have hw : Wired Axi.base s₀.spi := h₀.wired
  -- the exchange and the frame are two facts about one access, and are joined here
  have hinhibit : wp inhibit
      (fun _ s' => Holds Board.Polled k s₀.device.device.earlier (~~~spiSelect) s')
      (fun _ _ => True) s :=
    wp_mono (holds_inhibit.wp s) (fun _ _ h => h hholds) fun _ _ _ => trivial
  refine wp_bind.mpr (wp_mono (wp_and (hat.inhibit hw.underway (.inl hv)) hinhibit)
    (fun _ s₁ ⟨hat₁, h₁⟩ => ?_) fun _ _ h => h.1)
  refine wp_bind.mpr (wp_gets.mpr (wp_bind.mpr (wp_writeBoard h₁.wired _ _ fun t ht => ?_)))
  refine wp_bind.mpr (wp_modify.mpr (wp_pure.mpr ?_))
  -- with the transmitter held back and the bit cleared, the core is at rest again
  have hrested : Rested { v with control := v.control ||| xspCrTransInhibitMask } := by
    have hcleared := hclears.cleared
    have hview : s.device.device.view = v := hat.view
    rw [Board.Cleared, hview] at hcleared
    have hinhibited : (v.control ||| xspCrTransInhibitMask) &&& xspCrTransInhibitMask ≠ 0 := by
      rw [or_and_self_mask]
      decide
    exact ⟨hinhibited, htx, hrx, hcleared hv⟩
  obtain ⟨hidle, hstored⟩ := Standing.releases h₀ hbytes hat₁ (hledger.registers _ _ _) hrested h₁
  have hboard : t.device = s₁.device.device.select spiSelect := by
    rw [ht, Board.write_select, hat₁.spi]
    exact congrArg (Board.select · _) h₀.slaveSelectMask
  have hmode : Board.Polled t.device := hboard ▸ Board.Stable.select _ h₁.mode
  rw [← hboard] at hidle
  refine ⟨rfl, Standing.ends h₀ hat₁.spi hidle hmode, ?_⟩
  change s₁.spi.recvBuffer = _
  rw [hat₁.spi]
  change (if recv then some stored else none) = _
  rw [hstored]

/-- **A polled transfer is one frame of the slave.**  It succeeds, what it stores is what the
slave answers to the bytes, and the slave is left behind the frame.  Nothing is assumed of the
slave, of the bytes or of the depth of the FIFOs. -/
theorem Waiting.transfer (h : Waiting k s) (hdepth : 0 < depth) {byteCount : UInt32}
    (hbytes : byteCount ≠ 0) {rounds : ℕ} (hrounds : byteCount.toNat < rounds)
    (buffer : ℕ → UInt8) (recv : Bool) :
    wp (xspiTransfer rounds (some buffer) recv byteCount)
      (fun status s' => status = .success ∧
        Waiting (SerialSlave.release k (frameOf buffer byteCount)) s' ∧
        s'.spi.recvBuffer =
          if recv then some (SerialSlave.replies k [] (frameOf buffer byteCount)) else none)
      never s := by
  have hw : Wired Axi.base s.spi := h.wired
  have hoff : ∀ b : Board κ depth, b.Polled → ({ b with dgier := 0 } : Board κ depth).Polled :=
    fun _ _ => (by decide : (0 : UInt64) ≠ xspGintrEnableMask)
  obtain ⟨data, s₂, htransfer, hpolling, hholds₂⟩ :=
    Standing.begins h hoff hdepth hbytes hrounds buffer recv
  -- a core that sends is not inhibited, and there is nothing to clear yet
  have hclears₂ : Clears s₂ := by
    have hpos : 0 < byteCount.toNat :=
      Nat.pos_of_ne_zero fun h => hbytes (UInt32.toNat_inj.mp h)
    obtain ⟨_, _, v, hunderway, hsending, -⟩ := hpolling.sending hpos
    obtain ⟨_, hat, -⟩ := hunderway.located
    have hview : s₂.device.device.view = v := hat.view
    refine ⟨hholds₂.wired, fun hinhibited => absurd ?_ hsending.free⟩
    rwa [← hview]
  obtain ⟨status, s₃, hloop, rfl, ⟨stored, v, hunderway, -, hv, htx, hrx⟩, hholds₃, hclears₃⟩ :=
    exists_ret_of_wp (hpolling.frame data hw hdepth hrounds (by decide) hholds₂ hclears₂)
  obtain ⟨log, hat₃, hledger⟩ := hunderway.located
  have hclose := Waiting.close h hbytes hat₃ hledger hv htx hrx hholds₃ hclears₃
  obtain ⟨status, s', hend, hdone⟩ := exists_ret_of_wp hclose
  refine (wp_of_ret ?_).mpr hdone
  rw [htransfer, decide_eq_false h.mode, remainder, if_neg Bool.false_ne_true, polledTransfer,
    check_of_ok hloop]
  exact hend

end SpiCore

end Kiflash
