import Kiflash.Imperative.Signals
import Kiflash.Spi.Session

/-!
# A transfer in the interrupt mode

With the interrupts on, a transfer is made of calls of the interrupt handler, at times that
the core chooses.  Here the core runs by itself, and the handler is called whenever the
interrupt line is up and the processor takes notice.

* `Signal` — the core gets on, or the processor takes notice of its line.
* `Serving` — a started driver between two transfers, with the interrupts on.
* `InFlight` — a transfer that the core is at.
* `ranked` — each signal that a transfer waits for takes it on, and the others do nothing.

In whatever order the signals come, the transfer is one frame of the slave.

### How a transfer is cut

`XSpi_Transfer` returns when the FIFO is filled and the core let go.  What the polled mode
does in one loop is done here by `XSpi_InterruptHandler`, one round a call: it drains what
came in, fills what is left, and lets the core go again, or it releases the slave and reports.
Between two calls the transfer is nowhere on the stack.  `InFlight` is the invariant that
holds there: the ledger of `Exchange` for the bytes, and `Holds` of `Frames` for the slave.

### The rank

A transfer waits for the core until the FIFO is empty, and then for the processor.  `Waits`
says for which, and how much is left: 100 for every byte that is still to be stored, less what
the core has counted down.  A tick that is waited for takes one off the countdown or raises
the line.  A call of the handler stores at least one byte, since the core was let go with
something to send.  Signals that are not waited for find a core at rest, or a line that is
down, and do nothing at all.  This is a `Ranked` system, and the rules for these are in
`Signals`.

### What the handler sees

The handler reads the interrupts, clears them all, and tests one after the other.  `Alert`
keeps the others away: the errors are not raised, and only those of `activeMask` are enabled,
so that the line is up exactly when the FIFO has run empty (`Alert.line_iff`).
-/

open Imperative Imperative.Prog

namespace Kiflash

variable {κ : Type} [SerialSlave κ] {depth : ℕ}

/-! ## The interrupts of a board -/

namespace Board

variable {b : Board κ depth} {on : Prop} {iier : UInt64}

/-- The interrupt line is up: the interrupts are on, and one that is enabled has been
raised. -/
def Line (b : Board κ depth) : Prop :=
  b.dgier &&& xspGintrEnableMask ≠ 0 ∧ b.interrupts.toUInt64 &&& b.iier ≠ 0

instance (b : Board κ depth) : Decidable b.Line := inferInstanceAs (Decidable (_ ∧ _))

/-- The core is going to raise no interrupts but those of its FIFOs.  What is to be raised is
a part of the schedule. -/
def Quiet (b : Board κ depth) : Prop := ∀ e ∈ b.pending :: b.schedule, e.2 &&& errorMask = 0

/-- The interrupt registers: `on` says whether the interrupts are on, `iier` which ones are.
It is the interrupt mode's counterpart of `Board.Polled`. -/
structure Alert (on : Prop) (iier : UInt64) (b : Board κ depth) : Prop where
  dgier : b.dgier = xspGintrEnableMask ↔ on
  iier : b.iier = iier
  interrupts : b.interrupts &&& errorMask = 0
  quiet : b.Quiet

/-- The shift that is pending, and the ones behind it. -/
theorem quiet_iff :
    b.Quiet ↔ b.pending.2 &&& errorMask = 0 ∧ ∀ e ∈ b.schedule, e.2 &&& errorMask = 0 :=
  List.forall_mem_cons

/-- A read takes the schedule on at most. -/
theorem Quiet.read (h : b.Quiet) (address : UInt64) : (Board.read address b).2.Quiet := by
  obtain ⟨-, -, hpending, hschedule⟩ := enables_read address b
  rw [quiet_iff, hpending, hschedule]
  exact quiet_iff.mp h

/-- So does a write to the control register, which begins a shift.  The schedule says what the
shift raises, and a quiet one raises no error. -/
theorem Quiet.setControl (h : b.Quiet) (mask : UInt32) : (b.setControl mask).Quiet := by
  rw [Board.setControl, arm]
  split
  · exact h
  · -- the next entry of the schedule, or none
    obtain ⟨-, hschedule⟩ := quiet_iff.mp h
    refine quiet_iff.mpr ⟨?_, fun e he => hschedule e (List.mem_of_mem_tail he)⟩
    change (b.schedule.headD (0, 0)).2 &&& errorMask = 0
    cases hb : b.schedule with
    | nil => rfl
    | cons e _ => exact hschedule e (by rw [hb]; exact List.mem_cons_self)

/-- The select lines have nothing to do with it. -/
theorem Quiet.select (h : b.Quiet) (slaveSelect : UInt32) : (b.select slaveSelect).Quiet := by
  unfold Board.select
  split <;> exact h

/-- A shift of a quiet core raises no error. -/
theorem raised_quiet (h : b.interrupts &&& errorMask = 0) (hquiet : b.Quiet) :
    b.raised &&& errorMask = 0 := by
  have hpending : b.pending.2 &&& ~~~xspSrTxFullMask &&& errorMask = 0 := by
    rw [UInt32.and_assoc, UInt32.and_comm (~~~xspSrTxFullMask), ← UInt32.and_assoc,
      (quiet_iff.mp hquiet).1, UInt32.zero_and]
  rw [raised, or_and_of_disjoint hpending, or_and_of_disjoint (by decide), h]

/-- The registers stay as they are at reads, A read may shift, and the shift raises no more
than the transmit empty bit. -/
theorem Alert.read (h : Alert on iier b) (address : UInt64) :
    Alert on iier (Board.read address b).2 := by
  obtain ⟨hdgier, hiier, -, -⟩ := enables_read address b
  refine ⟨by rw [hdgier]; exact h.dgier, hiier.trans h.iier, ?_, h.quiet.read address⟩
  rcases b.read_cases address with hread | hread | hread
  · rw [hread]
    exact h.interrupts
  · rw [hread]
    rcases b.poll_cases with hpoll | ⟨-, hpoll | hpoll⟩ <;> rw [hpoll]
    · exact h.interrupts
    · rw [interrupts_shift]
      exact raised_quiet h.interrupts h.quiet
    · exact h.interrupts
  · rw [hread]
    exact h.interrupts

/-- and when a slave is selected. -/
theorem Alert.select (h : Alert on iier b) (slaveSelect : UInt32) :
    Alert on iier (b.select slaveSelect) := by
  refine ⟨?_, ?_, ?_, h.quiet.select slaveSelect⟩
  all_goals unfold Board.select; split
  all_goals first | exact h.dgier | exact h.iier | exact h.interrupts

instance : Stable (fun b : Board κ depth => Alert on iier b) where
  read address h := h.read address
  writeData data h := by
    rw [write_data]
    split
    · exact ⟨h.dgier, h.iier, h.interrupts, h.quiet⟩
    · exact h
  clear {b mask} hmask h := by
    have hwritten : (b.interrupts.toUInt64 ||| mask.toUInt64).toUInt32 &&& errorMask = 0 := by
      rw [UInt64.toUInt32_or, UInt32.toUInt32_toUInt64, UInt32.toUInt32_toUInt64,
        or_and_of_disjoint hmask, h.interrupts]
    exact ⟨h.dgier, h.iier, xor_and h.interrupts hwritten, h.quiet⟩
  select slaveSelect h := h.select slaveSelect
  setControl mask h := by
    refine ⟨?_, ?_, ?_, h.quiet.setControl mask⟩
    all_goals rw [Board.setControl, arm]; split
    all_goals first | exact h.dgier | exact h.iier | exact h.interrupts

/-- Writing the two enable registers. -/
theorem Alert.enables (h : Alert on iier b) {on' : Prop} {dgier : UInt64}
    (hdgier : dgier = xspGintrEnableMask ↔ on') (iier' : UInt64) :
    Alert on' iier' ({ b with dgier, iier := iier' } : Board κ depth) :=
  ⟨hdgier, rfl, h.interrupts, h.quiet⟩

/-- The interrupts that are enabled during a transfer: those of the startup, and the one of
the empty FIFO. -/
def activeMask : UInt32 := xspIntrDftMask ||| xspIntrTxEmptyMask

/-- With the interrupts on, the line is up when one that is enabled is raised. -/
theorem line_iff {mask : UInt32} (h : Alert True mask.toUInt64 b) :
    b.Line ↔ b.interrupts &&& mask ≠ 0 := by
  have hdgier : b.dgier &&& xspGintrEnableMask ≠ 0 := by
    rw [h.dgier.mpr trivial]
    decide
  have henabled : b.interrupts.toUInt64 &&& b.iier = (b.interrupts &&& mask).toUInt64 := by
    rw [h.iier, UInt32.toUInt64_and]
  have hzero : (b.interrupts &&& mask).toUInt64 = (0 : UInt32).toUInt64 ↔
      b.interrupts &&& mask = 0 := UInt32.toUInt64_inj
  rw [Line, henabled]
  exact (and_iff_right hdgier).trans (not_congr hzero)

/-- Between two transfers the line is down, since only errors are enabled. -/
theorem Alert.not_line (h : Alert True xspIntrDftMask.toUInt64 b) : ¬ b.Line := by
  rw [line_iff h]
  exact not_not_intro (and_eq_zero_of_and h.interrupts (by decide))

/-- In the course of a transfer it is up when the transmit FIFO has run empty. -/
theorem Alert.line_iff (h : Alert True activeMask.toUInt64 b) : b.Line ↔ b.view.TxEmpty := by
  have hrest : b.interrupts &&& xspIntrDftMask = 0 := and_eq_zero_of_and h.interrupts (by decide)
  have hmask : b.interrupts &&& activeMask = b.interrupts &&& xspIntrTxEmptyMask := by
    rw [UInt32.and_comm] at hrest
    rw [activeMask, UInt32.or_comm, UInt32.and_comm, or_and_of_disjoint hrest, UInt32.and_comm]
  rw [Board.line_iff h, hmask]
  exact Iff.rfl

end Board

namespace SpiCore

/-! ## The accesses of the handler -/

/-- A bit that was clear is clear again. -/
theorem or_clear {x mask : UInt32} (h : x &&& mask = 0) : (x ||| mask) &&& ~~~mask = x := by
  refine eq_of_bits h fun i hi hbit => ?_
  simp at hbit ⊢
  grind

section Accesses

variable {ε : Type} [PciDevice ε] {base : UInt64} {c : FifoCore ε base depth} {spi : XSpi}
variable {v : FifoView} {log : List (UInt64 × ℕ)} {s : SpiCore (Traced ε)}

/-- Writing back what is there toggles every interrupt off. -/
theorem At.intrClearAll (h : At c spi v log s) (hw : Wired base spi) (hv : v.Resting) :
    wp (xspiIntrClear v.interrupts) (fun _ s' => At c spi { v with interrupts := 0 } log s')
      never s := by
  refine wp_bind.mpr (wp_mono (h.intrGetStatus hw) ?_ fun _ _ => id)
  rintro value s₁ ⟨v₁, hvalue, hrest, _, h₁⟩
  obtain rfl := hrest hv
  refine wp_mono (h₁.write_other hw (by decide) _) (fun _ s₂ h₂ => ?_) fun _ _ => id
  have hview₁ : (c.view s₁.device.device).Resting := by
    rw [h₁.view]
    exact hv
  rwa [c.write_interrupts _ _ hview₁, h₁.view, UInt64.toUInt32_or, hvalue, UInt32.toUInt32_toUInt64,
    UInt32.or_self, UInt32.xor_self] at h₂

/-- The transmitter is held back, and the core rests. -/
theorem At.hold (h : At c spi v log s) (hw : Wired base spi) (hv : v.Resting) :
    wp (xspiSetControlReg (v.control ||| xspCrTransInhibitMask))
      (fun _ s' => At c spi { v with control := v.control ||| xspCrTransInhibitMask } log s')
      never s := by
  refine wp_mono (h.write_other hw (by decide) _) (fun _ s' h' => ?_) fun _ _ => id
  have hview := c.inhibit s.device.device (by rw [h.view]; exact hv)
  rw [h.view] at hview
  rwa [hview] at h'

/-- The transmitter is let go, and what is queued shifts from here on. -/
theorem At.free (h : At c spi v log s) (hw : Wired base spi) (hv : v.Inhibited) :
    wp (xspiSetControlReg (v.control &&& ~~~xspCrTransInhibitMask))
      (fun _ s' => ∃ v', Freed v v' ∧ At c spi v' log s') never s := by
  refine wp_mono (h.write_other hw (by decide) _) (fun _ s' h' => ⟨_, ⟨?_, ?_⟩, h'⟩) fun _ _ => id
  · intro hempty
    have hview := c.uninhibit_empty s.device.device (by rw [h.view]; exact hempty)
    rwa [h.view] at hview
  · intro hqueued
    have hview := c.uninhibit s.device.device (by rw [h.view]; exact hv)
      (by rw [h.view]; exact hqueued)
    rwa [h.view] at hview

/-- Draining takes no notice of its byte count.  The handler has none, and passes zero.  So
the drain of the polled mode can be used for the handler as it is. -/
theorem wp_drain_forget (dataWidth : UInt8) {Q : SpiCore (Traced ε) → Prop}
    {R : Stop → SpiCore (Traced ε) → Prop} {rounds : ℕ} {statusReg left left' data : UInt32}
    (h : wp (loop (drainRound dataWidth) rounds (statusReg, left, data)) (fun _ s' => Q s') R s) :
    wp (loop (drainRound dataWidth) rounds (statusReg, left', data)) (fun _ s' => Q s') R s := by
  induction rounds generalizing s statusReg left left' data with
  | zero => exact h
  | succ n ih =>
      rw [loop, wp_bind, drainRound] at h ⊢
      by_cases hsome : statusReg &&& xspSrRxEmptyMask = 0
      · rw [if_pos hsome] at h ⊢
        refine wp_bind.mpr (wp_mono (wp_bind.mp h) (fun value s₁ h₁ => ?_) fun _ _ => id)
        refine wp_bind.mpr (wp_mono (wp_bind.mp h₁) (fun _ s₂ h₂ => ?_) fun _ _ => id)
        exact wp_bind.mpr (wp_mono (wp_bind.mp h₂) (fun _ s₃ h₃ => ih h₃) fun _ _ => id)
      · rw [if_neg hsome] at h ⊢
        exact h

end Accesses

section Enables

variable {spi : XSpi} {v : FifoView} {log : List (UInt64 × ℕ)} {s : Bus κ depth}

/-- Enabling interrupts is nothing to the FIFOs.  The register is read and written back with
one more bit. -/
theorem At.intrEnable (h : At Board.core spi v log s) (hw : Wired Axi.base spi) (mask : UInt32) :
    wp (xspiIntrEnable mask)
      (fun _ s' => s'.device.device = { s.device.device with
          iier := s.device.device.iier ||| (mask &&& xspIntrAll).toUInt64 } ∧
        At Board.core spi v log s') never s := by
  have hws : Wired Axi.base s.spi := h.spi ▸ hw
  have hread := wp_and (h.read hw xspIierOffset) <| wp_readBoard hws xspIierOffset
    (Q := fun value s' => value = s.device.device.iier ∧ s'.device.device = s.device.device)
    (R := fun _ _ => True) fun _ ht => ⟨rfl, ht⟩
  refine wp_bind.mpr (wp_mono hread ?_ fun _ _ h => h.1)
  rintro value s₁ ⟨⟨_, hat₁⟩, hvalue, hd₁⟩
  have hws₁ : Wired Axi.base s₁.spi := hat₁.spi ▸ hw
  refine wp_mono (wp_and (hat₁.write_other hw (by decide) _) (wp_writeBoard hws₁ xspIierOffset _
    (Q := fun _ s' => s'.device.device = { s₁.device.device with
      iier := value ||| (mask &&& xspIntrAll).toUInt64 }) (R := fun _ _ => True) fun _ ht => ht))
    ?_ fun _ _ h => h.1
  rintro _ s₂ ⟨hat₂, hd₂⟩
  rw [hvalue, hd₁] at hd₂
  exact ⟨hd₂, hat₂.spi, (congrArg Board.view hd₂).trans h.view, hat₂.log⟩

/-- Neither is switching them on. -/
theorem At.intrGlobalEnable (h : At Board.core spi v log s) (hw : Wired Axi.base spi) :
    wp xspiIntrGlobalEnable
      (fun _ s' => s'.device.device = { s.device.device with dgier := xspGintrEnableMask } ∧
        At Board.core spi v log s') never s := by
  have hws : Wired Axi.base s.spi := h.spi ▸ hw
  refine wp_mono (wp_and (h.write_other hw (by decide) _) (wp_writeBoard hws xspDgierOffset _
    (Q := fun _ s' => s'.device.device = { s.device.device with dgier := xspGintrEnableMask })
    (R := fun _ _ => True) fun _ ht => ht)) ?_ fun _ _ h => h.1
  rintro _ s₁ ⟨hat₁, hd₁⟩
  exact ⟨hd₁, hat₁.spi, (congrArg Board.view hd₁).trans h.view, hat₁.log⟩

end Enables

/-! ## Signals -/

/-- What can happen while a transfer is under way.  A run is a list of these, in any order and
with any repetition. -/
inductive Signal where
  /-- The core gets on. -/
  | tick
  /-- The processor takes notice of the interrupt line. -/
  | irq
  deriving DecidableEq

/-- There are two signals, -/
theorem Signal.eq_irq_of_ne {signal : Signal} (h : signal ≠ .tick) : signal = .irq := by
  cases signal with
  | tick => exact absurd rfl h
  | irq => rfl

/-- one and the other. -/
theorem Signal.eq_tick_of_ne {signal : Signal} (h : signal ≠ .irq) : signal = .tick := by
  cases signal with
  | tick => rfl
  | irq => exact absurd rfl h

/-- The core does what it would do at a read of its interrupt status: it counts down, or
shifts.  In the interrupt mode nothing has to read for it. -/
def elapse (s : Bus κ depth) : Bus κ depth :=
  { s with device := { s.device with device := s.device.device.poll } }

/-- What comes of a signal.  Notice of a line that is down is taken for nothing: the processor
is not interrupted. -/
def onSignal (rounds : ℕ) : Signal → Prog (Bus κ depth) (List Report)
  | .tick => do
    modify elapse
    pure []
  | .irq => do
    let line ← gets fun s => decide s.device.device.Line
    if line then xspiInterruptHandler rounds else pure []

/-! ## A transfer under way -/

/-- A started driver between two transfers, with the interrupts on.  Each request leads back
to it. -/
abbrev Serving (k : κ) (s : Bus κ depth) : Prop :=
  Standing (Board.Alert True xspIntrDftMask.toUInt64) k s

section InFlight

variable (s₀ : Bus κ depth) (k : κ) (buffer : ℕ → UInt8) (recv : Bool) (byteCount : UInt32)

/-- The board of a transfer that began in `s₀`, with its interrupts enabled, transmit empty
among them. -/
abbrev Active (s : Bus κ depth) : Prop :=
  Holds (Board.Alert True Board.activeMask.toUInt64) k s₀.device.device.earlier (~~~spiSelect) s

/-- The transfer in its course.  The ledger is the one of the polled mode, so its lemmas are
used here as they are. -/
abbrev InCourse (count : ℕ) (stored : List UInt8) (v : FifoView) (s : Bus κ depth) : Prop :=
  Underway Board.core s₀.spi s₀.device.device.view (Board.core.dataWrites s₀.device) buffer recv
    byteCount count stored v s

/-- The core is at a transfer that began in `s₀`; `stored` is what has been received of it.
This is the invariant between two signals. -/
structure InFlight (stored : List UInt8) (v : FifoView) (s : Bus κ depth) : Prop where
  underway : ∃ count, InCourse s₀ buffer recv byteCount count stored v s
  sending : Sending v
  active : Active s₀ k s

/-- The transfer is over, and its answer is stored.  The slave has been released, with the
whole frame. -/
structure Delivered (s : Bus κ depth) : Prop where
  serving : Serving (SerialSlave.release k (frameOf buffer byteCount)) s
  stored : s.spi.recvBuffer =
    if recv then some (SerialSlave.replies k [] (frameOf buffer byteCount)) else none

/-- The handler has stored something and reports nothing, or the transfer is over.  So each
call of it is progress. -/
def Handled (stored : List UInt8) (reports : List Report) (s : Bus κ depth) : Prop :=
  (reports = [] ∧ ∃ stored' v', stored.length < stored'.length ∧
    InFlight s₀ k buffer recv byteCount stored' v' s) ∨
  (reports = [(.transferDone, byteCount)] ∧ Delivered k buffer recv byteCount s)

end InFlight

section Handler

variable {s₀ s : Bus κ depth} {k : κ} {buffer : ℕ → UInt8} {recv : Bool} {byteCount : UInt32}
variable {stored : List UInt8} {v : FifoView} {count rounds : ℕ}

/-- The accesses of the handler keep the board active. -/
theorem active_flows : Flows (Keeps (Active s₀ k)) := holds_flows

/-- What is seen of the core is what is there. -/
theorem InFlight.view (h : InFlight s₀ k buffer recv byteCount stored v s) :
    s.device.device.view = v := by
  obtain ⟨_, hunderway⟩ := h.underway
  obtain ⟨_, hat, -⟩ := hunderway.located
  exact hat.view

/-- Something is still to be stored, as something is on its way. -/
theorem InFlight.stored_lt (h : InFlight s₀ k buffer recv byteCount stored v s) :
    stored.length < byteCount.toNat := by
  obtain ⟨count, hunderway⟩ := h.underway
  have hlength := hunderway.length_le
  have henough := hunderway.enough
  rcases h.sending.some with ⟨htx, -⟩ | ⟨-, -, hrx⟩
  · have hpos := List.length_pos_iff.mpr htx
    omega
  · have hpos := List.length_pos_iff.mpr hrx
    omega

/-- What is stored is the beginning of what the slave answers to the whole frame.  The answers
to the first bytes do not depend on the ones that follow. -/
theorem InFlight.stored_prefix (h₀ : Serving k s₀)
    (h : InFlight s₀ k buffer recv byteCount stored v s) :
    stored <+: SerialSlave.replies k [] (frameOf buffer byteCount) := by
  obtain ⟨count, hunderway⟩ := h.underway
  obtain ⟨log, hat, hledger⟩ := hunderway.located
  set b := s.device.device
  set b₀ := s₀.device.device
  have hview : b.view = v := hat.view
  have hsent := hledger.sent
  have hreceived := hledger.received
  have hearlier : b₀.earlier ++ b₀.frame = b.earlier := by
    rw [b₀.between h₀.board.deselected, List.append_nil, h.active.bench.earlier]
  rw [← hview] at hsent hreceived
  change (b.earlier ++ b.frame).map Prod.fst ++ b.tx = (b₀.earlier ++ b₀.frame).map Prod.fst ++ _
    at hsent
  change (b.earlier ++ b.frame).map Prod.snd = (b₀.earlier ++ b₀.frame).map Prod.snd ++ _ ++ b.rx
    at hreceived
  rw [hearlier, List.map_append, List.append_assoc] at hsent hreceived
  have hout := List.append_cancel_left hsent
  have hin := List.append_cancel_left hreceived
  -- what has gone out is the beginning of the frame, and its answers are stored or in the FIFO
  have hgone : b.frame.map Prod.fst <+: frameOf buffer byteCount := by
    refine List.IsPrefix.trans ⟨b.tx, hout⟩ ?_
    rw [frameOf]
    refine List.IsPrefix.map buffer ?_
    rw [← min_eq_left hunderway.enough, ← List.take_range]
    exact List.take_prefix _ _
  obtain ⟨rest, hrest⟩ := hgone
  rw [b.answered, h.active.bench.slave] at hin
  rw [← hrest, SerialSlave.replies_append, hin, List.append_assoc]
  exact List.prefix_append _ _

/-- With bytes left to send, the FIFO is filled again and the core let go.  It is the refill
of the polled mode, but for the control register, which gets back the value from before. -/
theorem Underway.refillBack (h₀ : Serving k s₀) (hdepth : 0 < depth)
    (hrounds : byteCount.toNat < rounds) {control : UInt32}
    (hv : v.control = control ||| xspCrTransInhibitMask)
    (hcontrol : control &&& xspCrTransInhibitMask = 0)
    (h : InCourse s₀ buffer recv byteCount count stored v s)
    (htx : v.tx = []) (hnot : ¬ v.TxEmpty) (hmore : count < byteCount.toNat)
    (hactive : Active s₀ k s) (data : UInt32) :
    wp (do
        let statusReg ← xspiGetStatusReg
        let _ ← loop (fillRound xspDatawidthByte) rounds (statusReg, data)
        xspiSetControlReg control
        pure ([] : List Report))
      (fun reports s' => reports = [] ∧ ∃ v', InFlight s₀ k buffer recv byteCount stored v' s')
      never s := by
  have hw : Wired Axi.base s₀.spi := h₀.wired
  have hinhibited : v.Inhibited := by
    rw [FifoView.Inhibited, hv, or_and_self_mask]
    decide
  obtain ⟨log, hat, hledger⟩ := h.located
  refine wp_bind.mpr (wp_mono (active_flows.xspiGetStatusReg.wp_and hactive
    (hat.getStatusReg hw.underway (.inl hinhibited))) ?_
    fun _ _ => id)
  rintro statusReg s₁ ⟨⟨_, hroom, hat₁⟩, h₁⟩
  have hunderway₁ := Underway.mk h.enough ⟨log, hat₁, hledger⟩
  have hfree : statusReg &&& xspSrTxFullMask = 0 := by
    refine hroom.mpr ?_
    rw [htx]
    exact hdepth
  refine wp_bind.mpr (wp_mono ((Moves.loop (active_flows.fillRound _) _ _).wp_and h₁
    (hunderway₁.fill hw hinhibited (fun _ => hroom.mp hfree) (by omega)))
    ?_ fun _ _ => id)
  rintro _ s₂ ⟨⟨count', v₂, h₂, _, hfilled, hqueued, _⟩, hactive₂⟩
  have hqueued : v₂.tx ≠ [] := hqueued hfree hmore
  obtain ⟨log₂, hat₂, hledger₂⟩ := h₂.located
  have hv₂ : v₂.Inhibited := by
    rw [FifoView.Inhibited, hfilled.control]
    exact hinhibited
  have hnot₂ : ¬ v₂.TxEmpty := by
    rw [FifoView.TxEmpty, hfilled.interrupts]
    exact hnot
  -- the control register as it was is the one without the inhibition
  have hwritten : v₂.control &&& ~~~xspCrTransInhibitMask = control := by
    rw [hfilled.control, hv, or_clear hcontrol]
  have hboard : s₂.device.device.control = v₂.control :=
    congrArg FifoView.control (hat₂.view : s₂.device.device.view = v₂)
  have hfree₂ := wp_and (hat₂.free hw.underway hv₂)
    (hboard ▸ hactive₂.free (by decide) (R := fun _ _ => True))
  rw [hwritten] at hfree₂
  refine wp_bind.mpr (wp_mono hfree₂ ?_ fun _ _ h => h.1)
  rintro _ s₃ ⟨⟨v₃, hfreed, hat₃⟩, hactive₃⟩
  refine ⟨rfl, v₃, ⟨count', h₂.enough, log₂, hat₃, ?_⟩, hfreed.sending hqueued hnot₂, hactive₃⟩
  exact (hledger₂.registers _ _ _).shifts (hfreed.2 hqueued)

/-- With everything received, the slave is released and the interrupt switched off.  The
report tells the number of bytes. -/
theorem Underway.finish (h₀ : Serving k s₀) (hbytes : byteCount ≠ 0)
    (h : InCourse s₀ buffer recv byteCount byteCount.toNat stored v s) (hrested : Rested v)
    (hactive : Active s₀ k s) :
    wp (do
        let spi ← gets fun s => s.spi
        xspiSetSlaveSelectReg spi.slaveSelectMask
        xspiIntrDisable xspIntrTxEmptyMask
        setSpi fun spi => { spi with isBusy := false }
        pure [(StatusEvent.transferDone, spi.requestedBytes)])
      (fun reports s' => reports = [(.transferDone, byteCount)] ∧
        Delivered k buffer recv byteCount s')
      never s := by
  obtain ⟨log, hat, hledger⟩ := h.located
  obtain ⟨hidle, hstored⟩ := Standing.releases h₀ hbytes hat hledger hrested hactive
  refine wp_bind.mpr (wp_gets.mpr (wp_bind.mpr (wp_writeBoard hactive.wired _ _ fun t ht => ?_)))
  refine wp_bind.mpr (wp_bind.mpr ?_)
  refine wp_readBoard (s := { s with device := t }) hactive.wired _ fun t₁ ht₁ => ?_
  refine wp_writeBoard (s := { s with device := t₁ }) hactive.wired _ _ fun t₂ ht₂ => ?_
  refine wp_bind.mpr (wp_modify.mpr (wp_pure.mpr ⟨?_, ?_⟩))
  · rw [hat.spi]
    rfl
  -- the first write ends the frame, and the other two take the transmit interrupt out again
  have hselect : t.device = s.device.device.select spiSelect := by
    rw [ht, Board.write_select, hat.spi]
    exact congrArg (Board.select · _) h₀.slaveSelectMask
  have halert : Board.Alert True Board.activeMask.toUInt64 t.device :=
    hselect ▸ hactive.mode.select spiSelect
  have hmask : Board.activeMask.toUInt64 &&& ~~~(xspIntrTxEmptyMask &&& xspIntrAll).toUInt64 =
      xspIntrDftMask.toUInt64 := by decide
  have hread : t₁.device = t.device := ht₁
  have hboard : t₂.device = { t.device with iier := xspIntrDftMask.toUInt64 } := by
    rw [ht₂, ← hmask, ← halert.iier, ← hread]
    rfl
  rw [← hselect] at hidle
  have hidle₂ : t₂.device.Idle (SerialSlave.release k (frameOf buffer byteCount)) := by
    rw [hboard]
    exact ⟨hidle.slave, hidle.deselected, hidle.running, hidle.rested, hidle.txFull⟩
  have halert₂ : Board.Alert True xspIntrDftMask.toUInt64 t₂.device := by
    rw [hboard]
    exact halert.enables halert.dgier _
  refine ⟨Standing.ends h₀ hat.spi hidle₂ halert₂, ?_⟩
  change s.spi.recvBuffer = _
  rw [hat.spi]
  change (if recv then some stored else none) = _
  rw [hstored]

/-- What has come in is stored.  It is one loop of the handler, and no report comes from
it. -/
theorem Underway.collect (h₀ : Serving k s₀) (hrounds : byteCount.toNat < rounds)
    (h : InCourse s₀ buffer recv byteCount count stored v s) (hv : v.Inhibited)
    (hactive : Active s₀ k s) :
    wp (do
        let statusReg ← xspiGetStatusReg
        loop (drainRound xspDatawidthByte) rounds (statusReg, 0, 0))
      (fun _ s' => InCourse s₀ buffer recv byteCount count (stored ++ v.rx) { v with rx := [] } s' ∧
        Active s₀ k s')
      never s := by
  have hw : Wired Axi.base s₀.spi := h₀.wired
  have hlength := h.length_le
  have henough := h.enough
  obtain ⟨log, hat, hledger⟩ := h.located
  refine wp_bind.mpr (wp_mono (active_flows.xspiGetStatusReg.wp_and hactive
    (hat.getStatusReg hw.underway (.inl hv))) ?_ fun _ _ => id)
  rintro statusReg s₁ ⟨⟨hstatus, _, hat₁⟩, hactive₁⟩
  have h₁ : InCourse s₀ buffer recv byteCount count stored v s₁ := ⟨henough, log, hat₁, hledger⟩
  have hleft : (UInt32.ofNat (byteCount.toNat - stored.length)).toNat + stored.length =
      byteCount.toNat := by
    rw [UInt32.toNat_ofNat_of_lt' ((Nat.sub_le _ _).trans_lt byteCount.toNat_lt)]
    omega
  have hdrain : wp (loop (drainRound xspDatawidthByte) rounds (statusReg, 0, 0))
      (fun _ s' => InCourse s₀ buffer recv byteCount count (stored ++ v.rx) { v with rx := [] } s')
      never s₁ :=
    wp_drain_forget _ <|
      wp_mono (h₁.drain hw hv hstatus hleft (by omega)) (fun _ _ h => h.1) fun _ _ => id
  exact (Moves.loop (active_flows.drainRound _) _ _).wp_and hactive₁ hdrain

/-- The transmit part of the handler: it collects, and then either fills again or finishes.
Which of the two is decided by what is left to send, as in the source. -/
theorem Underway.transmitEmpty (h₀ : Serving k s₀) (hbytes : byteCount ≠ 0) (hdepth : 0 < depth)
    (hrounds : byteCount.toNat < rounds)
    (h : InCourse s₀ buffer recv byteCount count stored v s)
    (hfree : ¬ v.Inhibited) (htx : v.tx = []) (hrx : v.rx ≠ []) (hnot : ¬ v.TxEmpty)
    (hactive : Active s₀ k s) :
    wp (transmitEmpty rounds xspDatawidthByte) (Handled s₀ k buffer recv byteCount stored)
      never s := by
  have hw : Wired Axi.base s₀.spi := h₀.wired
  have henough := h.enough
  obtain ⟨log, hat, hledger⟩ := h.located
  have hcontrol : v.control &&& xspCrTransInhibitMask = 0 := not_not.mp hfree
  have hreads : Moves (Keeps (Active s₀ k)) xspiGetControlReg :=
    (active_flows.read _ (by decide)).bind fun _ => moves_pure _
  refine wp_bind.mpr (wp_mono (hreads.wp_and hactive (hat.getControlReg hw.underway (.inr htx)))
    ?_ fun _ _ => id)
  rintro controlReg s₁ ⟨⟨hreg, hat₁⟩, hactive₁⟩
  subst hreg
  -- the transmitter is held back
  have hboard : s₁.device.device.control = v.control :=
    congrArg FifoView.control (hat₁.view : s₁.device.device.view = v)
  refine wp_bind.mpr (wp_mono (wp_and (hat₁.hold hw.underway (.inr htx))
    (hboard ▸ hactive₁.hold (R := fun _ _ => True))) ?_ fun _ _ h => h.1)
  rintro _ s₂ ⟨hat₂, hactive₂⟩
  set v₂ : FifoView := { v with control := v.control ||| xspCrTransInhibitMask }
  have hv₂ : v₂.Inhibited := by
    rw [FifoView.Inhibited, or_and_self_mask]
    decide
  have hcourse : InCourse s₀ buffer recv byteCount count stored v₂ s₂ :=
    ⟨henough, log, hat₂, hledger.registers _ _ _⟩
  refine wp_bind.mpr (wp_mono (wp_bind.mp (hcourse.collect h₀ hrounds hv₂ hactive₂)) ?_
    fun _ _ => id)
  intro statusReg s₃ h₃
  refine wp_bind.mpr (wp_mono h₃ ?_ fun _ _ => id)
  rintro drained s₄ ⟨h₄, hactive₄⟩
  have hmore : stored.length < (stored ++ v₂.rx).length := by
    rw [List.length_append]
    exact Nat.lt_add_of_pos_right (List.length_pos_iff.mpr hrx)
  obtain ⟨_, hat₄, -⟩ := h₄.located
  refine wp_bind.mpr (wp_gets.mpr (wp_ite.mpr ⟨fun hremaining => ?_, fun hnone => ?_⟩))
  · -- bytes are left to send, and the FIFO has run empty
    rw [hat₄.spi] at hremaining
    have hcount := (underway_remaining henough).mp hremaining
    refine wp_mono (h₄.refillBack h₀ hdepth hrounds rfl hcontrol htx hnot hcount hactive₄ drained.2)
      ?_ fun _ _ => id
    rintro reports s₅ ⟨hnothing, v₅, h₅⟩
    exact .inl ⟨hnothing, _, v₅, hmore, h₅⟩
  · -- every byte has gone out and come back
    rw [hat₄.spi] at hnone
    obtain rfl : count = byteCount.toNat :=
      le_antisymm henough (not_lt.mp fun h => hnone ((underway_remaining henough).mpr h))
    have hrested : Rested { v₂ with rx := [] } := ⟨hv₂, htx, rfl, hnot⟩
    exact wp_mono (h₄.finish h₀ hbytes hrested hactive₄) (fun _ _ => .inr) fun _ _ => id

/-- **The interrupt handler.**  Called for the transmit FIFO, it takes the transfer on, or
ends it.  The other tests of the handler are not met, since nothing else is raised. -/
theorem InFlight.xspiInterruptHandler (h₀ : Serving k s₀) (hbytes : byteCount ≠ 0)
    (hdepth : 0 < depth) (hrounds : byteCount.toNat < rounds)
    (h : InFlight s₀ k buffer recv byteCount stored v s) (hempty : v.TxEmpty) :
    wp (xspiInterruptHandler rounds) (Handled s₀ k buffer recv byteCount stored) never s := by
  have hw : Wired Axi.base s₀.spi := h₀.wired
  obtain ⟨count, hunderway⟩ := h.underway
  obtain ⟨htx, -, hrx⟩ := h.sending.some.resolve_left fun h => h.2 hempty
  have hresting : v.Resting := .inr htx
  -- what the handler reads is the bit of the empty FIFO and no error
  have hquiet : v.interrupts &&& errorMask = 0 := by
    have hinterrupts := h.active.mode.interrupts
    rwa [show s.device.device.interrupts = v.interrupts from congrArg FifoView.interrupts h.view]
      at hinterrupts
  obtain ⟨log, hat, hledger⟩ := hunderway.located
  refine wp_bind.mpr (wp_mono ((active_flows.read _ (by decide)).wp_and h.active
    (hat.intrGetStatus hw.underway)) ?_
    fun _ _ => id)
  rintro intrStatus s₁ ⟨⟨v₁, hvalue, hrest, _, hat₁⟩, hactive₁⟩
  obtain rfl := hrest hresting
  dsimp only
  rw [hvalue]
  refine wp_bind.mpr (wp_mono ((holds_intrClear hquiet).wp_and hactive₁
    (hat₁.intrClearAll hw.underway hresting)) ?_ fun _ _ => id)
  rintro _ s₂ ⟨hat₂, hactive₂⟩
  -- all interrupts are cleared before any of them is looked at
  have hcourse : InCourse s₀ buffer recv byteCount count stored { v₁ with interrupts := 0 } s₂ :=
    ⟨hunderway.enough, log, hat₂, hledger.registers _ _ _⟩
  have hcleared : ¬ FifoView.TxEmpty { v₁ with interrupts := 0 } := not_not_intro (UInt32.zero_and)
  have hwidth : s₂.spi.dataWidth = xspDatawidthByte := by
    rw [hat₂.spi]
    exact h₀.width
  refine wp_bind.mpr (wp_gets.mpr (wp_ite.mpr ⟨fun hfault => ?_, fun _ => ?_⟩))
  · -- the core raises no mode fault
    exact absurd (and_eq_zero_of_and hquiet (by decide)) hfault
  refine wp_ite.mpr ⟨fun _ => wp_bind.mpr ?_, fun hno => absurd (Or.inl hempty) hno⟩
  rw [hwidth]
  refine wp_mono (Underway.transmitEmpty h₀ hbytes hdepth hrounds hcourse h.sending.free htx hrx
    hcleared hactive₂) (fun reports s₃ hhandled => ?_) fun _ _ => id
  refine wp_bind.mpr (wp_gets.mpr (wp_pure.mpr ?_))
  rwa [conditions_of_quiet hquiet, List.append_nil]

/-- **A transfer is started.**  It returns at once, with the FIFO filled and the core at it.
Up to its end it is the transfer of the polled mode, so this begins with what is known of that
one. -/
theorem Serving.start (h₀ : Serving k s₀) (hbytes : byteCount ≠ 0) (hdepth : 0 < depth)
    (hrounds : byteCount.toNat < rounds) (buffer : ℕ → UInt8) (recv : Bool) :
    wp (xspiTransfer rounds (some buffer) recv byteCount)
      (fun status s' => status = .success ∧ ∃ v, InFlight s₀ k buffer recv byteCount [] v s')
      never s₀ := by
  have hoff : ∀ b : Board κ depth, b.Alert True xspIntrDftMask.toUInt64 →
      ({ b with dgier := 0 } : Board κ depth).Alert False xspIntrDftMask.toUInt64 := by
    intro b h
    have hne : (0 : UInt64) ≠ xspGintrEnableMask := by decide
    exact ⟨iff_of_false hne id, h.iier, h.interrupts, h.quiet⟩
  obtain ⟨data, s₁, htransfer, hpolling, hholds⟩ :=
    Standing.begins h₀ hoff hdepth hbytes hrounds buffer recv
  have hpos : 0 < byteCount.toNat := Nat.pos_of_ne_zero fun h => hbytes (UInt32.toNat_inj.mp h)
  -- where the polled mode would begin its loop, the FIFO is filled and nothing stored
  obtain ⟨count, stored, v, hunderway, hsending, hleft⟩ := hpolling.sending hpos
  obtain rfl : stored = [] := List.eq_nil_of_length_eq_zero (by omega)
  obtain ⟨log, hat, hledger⟩ := hunderway.located
  have hw : Wired Axi.base (underway s₀.spi buffer recv byteCount count []) := h₀.wired.underway
  -- the interrupts were on before the call, so they are switched on again
  rw [wp, htransfer, decide_eq_true (h₀.mode.dgier.mpr trivial), remainder, if_pos rfl]
  change wp _ _ never s₁
  refine wp_bind.mpr (wp_mono (hat.intrEnable hw _) ?_ fun _ _ => id)
  rintro _ s₂ ⟨hd₂, hat₂⟩
  refine wp_bind.mpr (wp_mono (hat₂.intrGlobalEnable hw) ?_ fun _ _ => id)
  rintro _ s₃ ⟨hd₃, hat₃⟩
  refine wp_pure.mpr ⟨rfl, v, ⟨count, hunderway.enough, log, hat₃, hledger⟩, hsending,
    hat₃.spi ▸ hw, ?_, ?_⟩
  · rw [hd₃, hd₂]
    exact hholds.bench.enables _ _
  · have hmask : xspIntrDftMask.toUInt64 ||| (xspIntrTxEmptyMask &&& xspIntrAll).toUInt64 =
        Board.activeMask.toUInt64 := by decide
    rw [hd₃, hd₂, hholds.mode.iier, hmask]
    exact hholds.mode.enables (iff_of_true rfl trivial) _

end Handler

/-! ## Whatever the order of the signals -/

section Signals

/-- What the transfer waits for, and how many times at most: each byte takes less than 100
ticks. -/
inductive Waits (s₀ : Bus κ depth) (k : κ) (buffer : ℕ → UInt8) (recv : Bool) (byteCount : UInt32) :
    Signal → ℕ → Bus κ depth → Prop where
  | tick {stored : List UInt8} {v : FifoView} {s : Bus κ depth}
      (h : InFlight s₀ k buffer recv byteCount stored v s) (hnot : ¬ v.TxEmpty) :
      Waits s₀ k buffer recv byteCount .tick
        (100 * (byteCount.toNat - stored.length - 1) + s.device.device.pending.1 + 1) s
  | irq {stored : List UInt8} {v : FifoView} {s : Bus κ depth}
      (h : InFlight s₀ k buffer recv byteCount stored v s) (hempty : v.TxEmpty) :
      Waits s₀ k buffer recv byteCount .irq (100 * (byteCount.toNat - stored.length - 1)) s

/-- One report, and the answer.  It is what a request comes to. -/
def Done (k : κ) (buffer : ℕ → UInt8) (recv : Bool) (byteCount : UInt32) (reports : List Report)
    (s : Bus κ depth) : Prop :=
  reports = [(.transferDone, byteCount)] ∧ Delivered k buffer recv byteCount s

variable {s₀ s : Bus κ depth} {k : κ} {buffer : ℕ → UInt8} {recv : Bool} {byteCount : UInt32}
variable {stored : List UInt8} {v : FifoView} {rounds : ℕ}

/-- A transfer in flight waits for something. -/
theorem InFlight.waits (h : InFlight s₀ k buffer recv byteCount stored v s) :
    ∃ signal rank, rank < 100 * (byteCount.toNat - stored.length) ∧
      Waits s₀ k buffer recv byteCount signal rank s := by
  have hlt := h.stored_lt
  by_cases hempty : v.TxEmpty
  · exact ⟨.irq, _, by omega, .irq h hempty⟩
  · have hpending := s.device.device.pending.1.isLt
    exact ⟨.tick, _, by omega, .tick h hempty⟩

/-- And what waits is in flight. -/
theorem Waits.inFlight {signal : Signal} {rank : ℕ}
    (h : Waits s₀ k buffer recv byteCount signal rank s) :
    ∃ stored v, InFlight s₀ k buffer recv byteCount stored v s := by
  cases h with
  | tick h _ => exact ⟨_, _, h⟩
  | irq h _ => exact ⟨_, _, h⟩

/-- A core at rest stays as it is. -/
theorem elapse_of_resting (h : s.device.device.view.Resting) : elapse s = s := by
  rw [elapse, Board.poll_of_resting h]

/-- The core gets on: it comes closer to raising its interrupt, or raises it.  The measure is
the number of ticks that the schedule still has for this shift. -/
theorem InFlight.elapse (h : InFlight s₀ k buffer recv byteCount stored v s) (hnot : ¬ v.TxEmpty) :
    ∃ v', InFlight s₀ k buffer recv byteCount stored v' (elapse s) ∧ (v'.TxEmpty ∨
      ¬ v'.TxEmpty ∧ (SpiCore.elapse s).device.device.pending.1.val + 1 =
        s.device.device.pending.1.val) := by
  obtain ⟨hqueued, -⟩ := h.sending.some.resolve_right fun h => hnot h.2.1
  have hview := h.view
  have hbusy : ¬ v.Resting := fun hresting => hresting.elim h.sending.free hqueued
  have hbusy' : ¬ s.device.device.view.Resting := by rwa [hview]
  have hshifts : v.Shifts s.device.device.poll.view := by
    have hpoll := Board.poll_shifts s.device.device
    rwa [hview] at hpoll
  obtain ⟨count, hunderway⟩ := h.underway
  obtain ⟨log, hat, hledger⟩ := hunderway.located
  refine ⟨s.device.device.poll.view, ⟨⟨count, hunderway.enough, log, ⟨hat.spi, rfl, hat.log⟩,
    hledger.shifts hshifts⟩, h.sending.shifts hbusy hshifts, h.active.wired, h.active.bench.poll,
    h.active.mode.read (Axi.base + xspIisrOffset.toUInt64)⟩, ?_⟩
  have hpoll := Board.poll_of_sending hbusy' h.active.bench.running
  -- the core shifts and raises its line, or counts down by one
  by_cases hlast : s.device.device.pending.1 = 0
  · rw [if_pos hlast] at hpoll
    left
    rw [hpoll, Board.view_shift]
    exact Board.raised_txEmpty _
  · rw [if_neg hlast] at hpoll
    right
    have hpending : (SpiCore.elapse s).device.device.pending.1.val + 1 =
        s.device.device.pending.1.val := by
      change s.device.device.poll.pending.1.val + 1 = _
      rw [hpoll]
      change (s.device.device.pending.1 - 1).val + 1 = _
      rw [Fin.val_sub_one_of_ne_zero hlast]
      exact Nat.succ_pred_eq_of_ne_zero fun h => hlast (Fin.ext h)
    refine ⟨?_, hpending⟩
    rw [hpoll]
    change ¬ s.device.device.view.TxEmpty
    rwa [hview]

/-- **Each signal that the transfer waits for takes it on; the others do nothing.**  There are
four cases, a signal and what is waited for: two of them advance, and two are idle. -/
theorem ranked (h₀ : Serving k s₀) (hbytes : byteCount ≠ 0) (hdepth : 0 < depth)
    (hrounds : byteCount.toNat < rounds) :
    Ranked (onSignal rounds) (Waits s₀ k buffer recv byteCount)
      (Done k buffer recv byteCount : List Report → Bus κ depth → Prop) where
  advance {signal rank s} hwaits := by
    cases hwaits with
    | tick h hnot =>
        refine wp_bind.mpr (wp_modify.mpr (wp_pure.mpr (.inl ⟨rfl, ?_⟩)))
        obtain ⟨v', h', hempty | ⟨hnot', hpending⟩⟩ := h.elapse hnot
        · -- the FIFO has run empty: the awaited signal is the other one
          exact ⟨.irq, _, by omega, .irq h' hempty⟩
        · exact ⟨.tick, _, by omega, .tick h' hnot'⟩
    | irq h hempty =>
        have hline : s.device.device.Line := by
          rw [h.active.mode.line_iff, h.view]
          exact hempty
        refine wp_bind.mpr (wp_gets.mpr ?_)
        rw [if_pos (decide_eq_true hline)]
        refine wp_mono (h.xspiInterruptHandler h₀ hbytes hdepth hrounds hempty) ?_ fun _ _ => id
        rintro reports s' (⟨rfl, stored', v', hmore, h'⟩ | hdone)
        · -- a stored byte is worth the ticks that the next one can take
          obtain ⟨signal, rank, hrank, hwaits⟩ := h'.waits
          exact .inl ⟨rfl, signal, rank, by omega, hwaits⟩
        · exact .inr hdone
  ignore {signal rank s signal'} hwaits hne := by
    cases hwaits with
    | tick h hnot =>
        obtain rfl := Signal.eq_irq_of_ne hne
        -- the line is down, and the handler is not called
        have hline : ¬ s.device.device.Line := by
          rw [h.active.mode.line_iff, h.view]
          exact hnot
        refine wp_bind.mpr (wp_gets.mpr ?_)
        rw [if_neg (by rwa [decide_eq_true_eq])]
        exact ⟨rfl, .tick h hnot⟩
    | irq h hempty =>
        obtain rfl := Signal.eq_tick_of_ne hne
        -- with an empty transmit FIFO the core has nothing to do
        obtain ⟨htx, -⟩ := h.sending.some.resolve_left fun h => h.2 hempty
        refine wp_bind.mpr (wp_modify.mpr (wp_pure.mpr ⟨rfl, ?_⟩))
        rw [elapse_of_resting (by rw [h.view]; exact .inr htx)]
        exact .irq h hempty
  rest := by
    rintro reports s signal ⟨rfl, h⟩
    cases signal with
    | tick =>
        refine wp_bind.mpr (wp_modify.mpr (wp_pure.mpr ⟨rfl, rfl, ?_⟩))
        rwa [elapse_of_resting (.inr h.serving.board.rested.tx)]
    | irq =>
        refine wp_bind.mpr (wp_gets.mpr ?_)
        rw [if_neg (by rw [decide_eq_true_eq]; exact h.serving.mode.not_line)]
        exact ⟨rfl, rfl, h⟩

end Signals

end SpiCore

end Kiflash
