import Kiflash.Spi.Exchange
import Kiflash.Spi.Linked

/-!
# A core with a slave on its bus

`Board κ depth` is a core with FIFOs of `depth` bytes and a serial slave `κ`: it shifts the
queued bytes out, byte by byte, and the answers of the slave in.  A frame of the slave begins
when its select line goes low and ends when the line goes high again.

* `SerialSlave` — what the slave answers in the course of a frame, and what the frame does to
  it in the end.
* `Board` — the core, its slave and its history.
* `Board.core` — the laws of a core with FIFOs.

### What the core may do

The core takes at most 98 reads of the interrupt status for what is queued, and never raises
the interrupt bit that has the place of the transmit full bit: it is one of slaves only.
Within these bounds the schedule is arbitrary, and so are the other interrupt bits that come
up while it shifts.  Both are data of the board, one entry for each time that the transmitter
is let go.

The bound of 98 is the driver's: its poll reads the register at most a hundred times.

### States that cannot be

Three fields of the structure are proofs.  The reset bits of the control register read as
zero; no frame is under way while the line is high; and what has come in during the frame is
what the slave has answered.  The operations below keep them, so every state of a board is one
that a core can be in.

### What is not on the board

The ICAP core of the chassis; a write to it changes nothing here.  There is one slave, on the
first line.
-/

open Imperative Imperative.Prog

namespace Kiflash

/-! ## Slaves -/

/-- A slave that is shifted one byte after the other. -/
class SerialSlave (κ : Type) where
  /-- The byte that comes in with the next one that goes out, behind the given ones of the
  frame. -/
  reply : κ → List UInt8 → UInt8
  /-- The slave behind the frame. -/
  release : κ → List UInt8 → κ

namespace SerialSlave

variable {κ : Type} [SerialSlave κ]

/-- The bytes that come in with the given ones, behind `before`.  They are asked for one by
one, each with what has gone out so far. -/
def replies (k : κ) (before : List UInt8) : List UInt8 → List UInt8
  | [] => []
  | byte :: bytes => reply k before :: replies k (before ++ [byte]) bytes

/-- At the beginning of a frame nothing has been answered. -/
theorem answered_nil (k : κ) :
    ([] : List (UInt8 × UInt8)).map Prod.snd = replies k [] (([] : List (UInt8 × UInt8)).map Prod.fst) :=
  rfl

theorem replies_length (k : κ) (before bytes : List UInt8) :
    (replies k before bytes).length = bytes.length := by
  induction bytes generalizing before with
  | nil => rfl
  | cons byte bytes ih => rw [replies, List.length_cons, ih, List.length_cons]

/-- Bytes in two parts: the second part is answered behind the first. -/
theorem replies_append (k : κ) (before bytes bytes' : List UInt8) :
    replies k before (bytes ++ bytes') =
      replies k before bytes ++ replies k (before ++ bytes) bytes' := by
  induction bytes generalizing before with
  | nil => simp [replies]
  | cons byte bytes ih => simp [replies, ih]

/-- Each answer depends on what has gone out before it. -/
theorem replies_eq_map (k : κ) (before bytes : List UInt8) :
    replies k before bytes =
      (List.range bytes.length).map fun i => reply k (before ++ bytes.take i) := by
  induction bytes generalizing before with
  | nil => rfl
  | cons byte bytes ih =>
      rw [replies, ih, List.length_cons, List.range_succ_eq_map, List.map_cons, List.map_map]
      simp [Function.comp_def]

end SerialSlave

/-! ## Masks -/

section Masks

variable {x y mask mask' : UInt32}

/-- Clearing bits that are not set. -/
theorem clear_of_and_eq_zero (h : x &&& mask = 0) : x &&& ~~~mask = x := by
  refine eq_of_bits h fun i hi hbit => ?_
  simp at hbit ⊢
  grind

/-- A word that has no bit of two masks. -/
theorem and_eq_zero_of_or (h : x &&& (mask ||| mask') = 0) : x &&& mask = 0 ∧ x &&& mask' = 0 := by
  refine ⟨eq_of_bits h fun i hi hbit => ?_, eq_of_bits h fun i hi hbit => ?_⟩
  · simp at hbit ⊢
    grind
  · simp at hbit ⊢
    grind

/-- Toggling other bits. -/
theorem xor_and (h : x &&& mask = 0) (h' : y &&& mask = 0) : (x ^^^ y) &&& mask = 0 := by
  refine eq_of_bits (h.trans h'.symm) fun i hi hbit => ?_
  simp at hbit ⊢
  grind

end Masks

/-! ## The board -/

/-- `XSP_CR_TXFIFO_RESET_MASK | XSP_CR_RXFIFO_RESET_MASK`: both bits read as zero. -/
def fifoResetMask : UInt32 := xspCrTxfifoResetMask ||| xspCrRxfifoResetMask

/-- The bits of the status register: receive FIFO empty, transmit FIFO empty, transmit FIFO
full.  The other bits are not looked at by the driver. -/
def statusWord (rxEmpty txEmpty txFull : Bool) : UInt64 :=
  (if rxEmpty then 0x1 else 0) ||| (if txEmpty then 0x4 else 0) ||| (if txFull then 0x8 else 0)

/-- The receive empty bit of the status register. -/
theorem statusWord_rxEmpty : ∀ rxEmpty txEmpty txFull,
    (statusWord rxEmpty txEmpty txFull).toUInt32 &&& xspSrRxEmptyMask = 0 ↔ rxEmpty = false := by
  decide

/-- The transmit full bit. -/
theorem statusWord_txFull : ∀ rxEmpty txEmpty txFull,
    (statusWord rxEmpty txEmpty txFull).toUInt32 &&& xspSrTxFullMask = 0 ↔ txFull = false := by
  decide

/-- The slave's line is low.  The core has one line for the one flash on the bus. -/
def Selected (slaveSelect : UInt32) : Prop := slaveSelect &&& 1 = 0

instance (slaveSelect : UInt32) : Decidable (Selected slaveSelect) :=
  inferInstanceAs (Decidable (_ = _))

/-- A core with FIFOs of `depth` bytes, and a slave. -/
structure Board (κ : Type) [SerialSlave κ] (depth : ℕ) where
  control : UInt32
  slaveSelect : UInt32
  interrupts : UInt32
  dgier : UInt64
  iier : UInt64
  tx : List UInt8
  rx : List UInt8
  /-- The reads of the interrupt status that the shifting still takes, and what it raises besides
  the transmit empty bit. -/
  pending : Fin 99 × UInt32
  /-- The same of the next times. -/
  schedule : List (Fin 99 × UInt32)
  /-- The slave as the frame found it. -/
  slave : κ
  /-- What went out and came in before the frame. -/
  earlier : List (UInt8 × UInt8)
  /-- What went out and came in in the frame. -/
  frame : List (UInt8 × UInt8)
  noReset : control &&& fifoResetMask = 0
  between : ¬ Selected slaveSelect → frame = []
  answered : frame.map Prod.snd = SerialSlave.replies slave [] (frame.map Prod.fst)

namespace Board

variable {κ : Type} [SerialSlave κ] {depth : ℕ}

/-- What can be seen of the core.  The laws of a core with FIFOs are stated over it. -/
def view (b : Board κ depth) : FifoView where
  control := b.control
  slaveSelect := b.slaveSelect
  interrupts := b.interrupts
  tx := b.tx
  rx := b.rx
  sent := (b.earlier ++ b.frame).map Prod.fst
  received := (b.earlier ++ b.frame).map Prod.snd

/-- The slave's answers to the queued bytes; without a slave the line is high. -/
def replies (b : Board κ depth) : List UInt8 :=
  if Selected b.slaveSelect then SerialSlave.replies b.slave (b.frame.map Prod.fst) b.tx
  else b.tx.map fun _ => 0xFF

theorem replies_length (b : Board κ depth) : b.replies.length = b.tx.length := by
  rw [replies]
  split
  · exact SerialSlave.replies_length _ _ _
  · exact List.length_map _

/-- The interrupt bits that come with the end of the shifting: transmit empty, and whatever
else the schedule has put there. -/
def raised (b : Board κ depth) : UInt32 :=
  b.interrupts ||| xspIntrTxEmptyMask ||| (b.pending.2 &&& ~~~xspSrTxFullMask)

/-- What is queued goes out, and the answers come in.  A slave that is selected has the bytes
in its frame from then on. -/
def shift (b : Board κ depth) : Board κ depth :=
  if h : Selected b.slaveSelect then
    { b with
      interrupts := b.raised
      tx := []
      rx := b.rx ++ b.replies
      frame := b.frame ++ b.tx.zip b.replies
      between := fun hno => absurd h hno
      answered := by
        have hlength := b.replies_length
        rw [List.map_append, List.map_append, List.map_snd_zip hlength.le,
          List.map_fst_zip hlength.ge, SerialSlave.replies_append, b.answered, List.nil_append,
          replies, if_pos h] }
  else
    { b with
      interrupts := b.raised
      tx := []
      rx := b.rx ++ b.replies
      earlier := b.earlier ++ b.tx.zip b.replies }

/-- A read of the interrupt status lets a core shift that is enabled, master and not at rest. -/
def poll (b : Board κ depth) : Board κ depth :=
  if b.view.Resting ∨ ¬ Running b.control then b
  else if b.pending.1 = 0 then b.shift
  else { b with pending := (b.pending.1 - 1, b.pending.2) }

/-- The status register, computed from the two queues. -/
def status (b : Board κ depth) : UInt64 := statusWord (b.rx = []) (b.tx = []) (depth ≤ b.tx.length)

/-- A new state of the select lines.  A line that goes high ends the frame, and the slave does
what it was told. -/
def select (slaveSelect : UInt32) (b : Board κ depth) : Board κ depth :=
  if h : Selected slaveSelect then
    { b with slaveSelect, between := fun hno => absurd h hno }
  else
    { b with
      slaveSelect
      slave := if b.frame = [] then b.slave else SerialSlave.release b.slave (b.frame.map Prod.fst)
      earlier := b.earlier ++ b.frame
      frame := []
      between := fun _ => rfl
      answered := SerialSlave.answered_nil _ }

/-- The control register; the two reset bits empty the FIFOs, and read as zero afterwards. -/
def loadControl (mask : UInt32) (b : Board κ depth) : Board κ depth :=
  { b with
    control := mask &&& ~~~fifoResetMask
    tx := if mask &&& xspCrTxfifoResetMask = 0 then b.tx else []
    rx := if mask &&& xspCrRxfifoResetMask = 0 then b.rx else []
    noReset := clear_and_mask _ _ }

/-- The next entry of the schedule, unless the transmitter is inhibited.  So the core takes
its time each time it is let go. -/
def arm (b : Board κ depth) : Board κ depth :=
  if b.view.Inhibited then b
  else { b with pending := b.schedule.headD (0, 0), schedule := b.schedule.tail }

/-- A write of the control register: its bits are stored, and the core may begin to shift. -/
def setControl (mask : UInt32) (b : Board κ depth) : Board κ depth := (b.loadControl mask).arm

/-- The reset of the core.  It raises the select lines, so a frame that was under way ends. -/
def reset (b : Board κ depth) : Board κ depth :=
  { b.select 0xFFFFFFFF with
    control := 0x180
    interrupts := 0
    dgier := 0
    iier := 0
    tx := []
    rx := []
    noReset := by decide }

/-- A read access.  It is answered from the register at this offset, and by zero where there
is none. -/
def read (address : UInt64) (b : Board κ depth) : UInt64 × Board κ depth :=
  let offset := address - Axi.base
  if offset = xspDgierOffset.toUInt64 then (b.dgier, b)
  else if offset = xspIisrOffset.toUInt64 then (b.poll.interrupts.toUInt64, b.poll)
  else if offset = xspIierOffset.toUInt64 then (b.iier, b)
  else if offset = xspCrOffset.toUInt64 then (b.control.toUInt64, b)
  else if offset = xspSrOffset.toUInt64 then (b.status, b)
  else if offset = xspDrrOffset.toUInt64 then
    ((b.rx.headD 0).toUInt64, { b with rx := b.rx.tail })
  else if offset = xspSsrOffset.toUInt64 then (b.slaveSelect.toUInt64, b)
  else (0, b)

/-- A write access.  The select register ends a frame and begins one, and the other registers
leave the slave alone. -/
def write (address data : UInt64) (b : Board κ depth) : Board κ depth :=
  let offset := address - Axi.base
  if offset = xspDgierOffset.toUInt64 then { b with dgier := data }
  -- the bits of the interrupt status register toggle on write
  else if offset = xspIisrOffset.toUInt64 then
    { b with interrupts := b.interrupts ^^^ data.toUInt32 }
  else if offset = xspIierOffset.toUInt64 then { b with iier := data }
  else if offset = xspSrrOffset.toUInt64 then if data = xspSrrResetMask then b.reset else b
  else if offset = xspCrOffset.toUInt64 then b.setControl data.toUInt32
  else if offset = xspDtrOffset.toUInt64 then
    if b.tx.length < depth then { b with tx := b.tx ++ [data.toUInt8] } else b
  else if offset = xspSsrOffset.toUInt64 then b.select data.toUInt32
  else b

instance : PciDevice (Board κ depth) := ⟨read, write⟩

/-! ## The laws of a core -/

variable {b : Board κ depth}

/-- The board shifts as a core does. -/
theorem view_shift (b : Board κ depth) : b.shift.view = b.view.shifted b.raised b.replies := by
  have hlength := b.replies_length
  have hout := List.map_fst_zip hlength.ge
  have hin := List.map_snd_zip hlength.le
  unfold shift
  split
  · simp [view, FifoView.shifted, hout, hin]
  · rename_i hno
    simp [view, FifoView.shifted, hout, hin, b.between hno]

/-- When everything is out, the transmit empty bit is raised. -/
theorem raised_txEmpty (b : Board κ depth) : b.raised &&& xspIntrTxEmptyMask ≠ 0 := by
  have hraised : b.raised &&& xspIntrTxEmptyMask = xspIntrTxEmptyMask := by
    apply UInt32.eq_of_toBitVec_eq
    ext i
    simp +contextual [raised]
  rw [hraised]
  decide

/-- At rest, a poll finds what was there. -/
theorem poll_of_resting (h : b.view.Resting) : b.poll = b := by
  rw [poll, if_pos (.inl h)]

/-- Otherwise the core has gone on, or not yet. -/
theorem poll_shifts (b : Board κ depth) : b.view.Shifts b.poll.view := by
  unfold poll
  split
  · exact .going _ rfl
  · split
    · rw [view_shift]
      exact .done _ _ b.raised_txEmpty b.replies_length
    · exact .going _ rfl

/-- The select lines make no difference to what else is seen. -/
theorem view_select (slaveSelect : UInt32) (b : Board κ depth) :
    (b.select slaveSelect).view = { b.view with slaveSelect } := by
  unfold select
  split
  · rfl
  · simp [view]

/-- The write access of the slave select register. -/
theorem write_select (mask : UInt32) (b : Board κ depth) :
    write (Axi.base + xspSsrOffset.toUInt64) mask.toUInt64 b = b.select mask := by
  change b.select mask.toUInt64.toUInt32 = _
  rw [UInt32.toUInt32_toUInt64]

/-! ### The control register -/

/-- The write access of the control register. -/
theorem write_setControl (mask : UInt32) (b : Board κ depth) :
    write (Axi.base + xspCrOffset.toUInt64) mask.toUInt64 b = b.setControl mask := by
  change b.setControl mask.toUInt64.toUInt32 = _
  rw [UInt32.toUInt32_toUInt64]

theorem view_arm (b : Board κ depth) : b.arm.view = b.view := by
  unfold arm
  split
  · rfl
  · rfl

theorem view_setControl {mask : UInt32} (h : mask &&& fifoResetMask = 0) (b : Board κ depth) :
    (b.setControl mask).view = { b.view with control := mask } := by
  obtain ⟨htx, hrx⟩ := and_eq_zero_of_or h
  rw [setControl, view_arm]
  simp [loadControl, view, clear_of_and_eq_zero h, htx, hrx]

/-- A mask that the driver makes of the control register itself. -/
theorem view_write_control {mask : UInt32} (h : mask &&& fifoResetMask = 0) (b : Board κ depth) :
    (write (Axi.base + xspCrOffset.toUInt64) mask.toUInt64 b).view =
      { b.view with control := mask } := by
  rw [write_setControl, view_setControl h]

/-- **A `Board` has the laws of a core.**  With this the results about transfers hold of a
core that has a real slave behind it. -/
def core : FifoCore (Board κ depth) Axi.base depth where
  view := view
  read_control b := UInt32.toUInt32_toUInt64 _
  read_rxEmpty b _ := (statusWord_rxEmpty _ _ _).trans decide_eq_false_iff_not
  read_txFull b _ := (statusWord_txFull _ _ _).trans (decide_eq_false_iff_not.trans Nat.not_le)
  read_interrupts b := UInt32.toUInt32_toUInt64 _
  view_read offset h b hrest := by
    change (read _ b).2.view = b.view
    have hne : Axi.base + offset.toUInt64 - Axi.base ≠ xspDrrOffset.toUInt64 := by
      rw [UInt64.add_comm, UInt64.add_sub_cancel]
      exact fun heq => h (UInt32.toUInt64_inj.mp heq)
    simp only [read, if_neg hne, poll_of_resting hrest]
    grind
  view_shift b _ := poll_shifts b
  read_data b byte rest _ hrx := by
    change (b.rx.headD 0).toUInt64.toUInt32.toUInt8 = byte ∧
      { b.view with rx := b.rx.tail } = { b.view with rx := rest }
    have hrx : b.rx = byte :: rest := hrx
    rw [hrx]
    exact ⟨by simp, rfl⟩
  write_dgier data b _ := rfl
  write_interrupts data b _ := rfl
  write_data data b _ h := by
    have hroom : b.tx.length < depth := h
    change view (if b.tx.length < depth then { b with tx := b.tx ++ [data.toUInt8] } else b) = _
    rw [if_pos hroom]
    rfl
  write_slaveSelect _ b _ := view_select _ b
  inhibit b _ := view_write_control ((or_and_of_disjoint (by decide)).trans b.noReset) b
  uninhibit_empty b _ :=
    view_write_control ((clear_and_of_disjoint (by decide)).trans b.noReset) b
  uninhibit b _ _ := by
    change FifoView.Shifts _ (write _ _ b).view
    rw [view_write_control]
    · exact .going _ rfl
    · exact (clear_and_of_disjoint (by decide)).trans b.noReset

end Board

end Kiflash
