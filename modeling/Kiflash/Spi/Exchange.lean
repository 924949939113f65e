import Kiflash.Spi.Polling

/-!
# The polled transfer as an exchange of bytes

What `XSpi_Transfer` does over a core with FIFOs, whatever their depth: it queues the bytes to
send, lets the core shift them, and stores the bytes that came in for them.

* `At` — the driver instance, what is seen of the core, and what has been written to its data
  register.
* `Ledger` — where each byte of the transfer is: queued, out, in, stored.
* `Underway`, `Polling`, `Complete` — the transfer in its course, at the condition of its
  loop, and at its end.
* `Exchanged` — the exchange is complete.
* `exact_exchange_iff` — when the transfer is one.

### The ledger

A transfer of `n` bytes over FIFOs of `d` goes round about `n / d` times, filling, waiting and
draining.  What is true at every step of it is an account of the bytes: the first `count` have
been queued, and each of these is in the transmit queue, or out with its reply in the receive
queue, or out with its reply stored.  `Ledger` is this account.  Each access to the core moves
one byte from one column to the next, or all queued ones at once, and has a lemma that says
so; the loops then need no further invariant.

### How the loop comes to its end

The polled loop counts the bytes that are still to be stored.  A round stores at least one,
since the core was let go with something queued.  That the queue has something in it is not
obvious: a round fills only while there is room *and* something left, and it is reached with
an empty queue.  `Sending` carries it from the end of one round to the poll of the next.

### What is assumed

`Ready` says that the driver is started and idle and the core at rest.  The core must shift
what is queued before the poll gives up (`hprompt`); this is asked at the states that the
polls of the run begin in, and only while there is something to shift.  Nothing is asked of
the bytes, the depth or the slave.
-/

open Imperative Imperative.Prog

namespace Kiflash.SpiCore

variable {ε : Type} [PciDevice ε] {base : UInt64} {depth : ℕ}

/-! ## The accesses of the core -/

/-- The driver instance `spi`, in front of a core that shows `v` and has been written `log`.
The steps of a transfer are stated with it, one triple for each. -/
structure At (c : FifoCore ε base depth) (spi : XSpi) (v : FifoView) (log : List (UInt64 × ℕ))
    (s : SpiCore (Traced ε)) : Prop where
  spi : s.spi = spi
  view : c.view s.device.device = v
  log : c.dataWrites s.device = log

/-- The instance drives the core at `base`: it has the PCI memory and the address. -/
structure Wired (base : UInt64) (spi : XSpi) : Prop where
  pci : spi.pci = true
  baseAddr : spi.baseAddr = base

/-- Neither a loop without end nor anything else that has no result.  As a postcondition of a
stop it says that the program returns. -/
abbrev never : Stop → SpiCore (Traced ε) → Prop := fun _ _ => False

section Accesses

variable {c : FifoCore ε base depth} {spi : XSpi} {v : FifoView} {log : List (UInt64 × ℕ)}
variable {s : SpiCore (Traced ε)}

/-- A read access goes to the device. -/
theorem At.read (h : At c spi v log s) (hw : Wired base spi) (offset : UInt32) :
    wp (xspiPciReadReg offset)
      (fun value s' => value = (PciDevice.read64 (base + offset.toUInt64) s.device.device).1 ∧
        At c spi (c.view (PciDevice.read64 (base + offset.toUInt64) s.device.device).2) log s')
      never s := by
  have hpci : s.spi.pci = true := by rw [h.spi, hw.pci]
  have hbase : s.spi.baseAddr = base := by rw [h.spi, hw.baseAddr]
  rw [wp, xspiPciReadReg, if_pos hpci, hbase]
  exact ⟨rfl, h.spi, rfl, h.log⟩

/-- Of a core at rest, a read access but one of the received data changes nothing. -/
theorem At.read_resting (h : At c spi v log s) (hw : Wired base spi) (hv : v.Resting)
    {offset : UInt32} (hoffset : offset ≠ xspDrrOffset) :
    wp (xspiPciReadReg offset)
      (fun value s' => value = (PciDevice.read64 (base + offset.toUInt64) s.device.device).1 ∧
        At c spi v log s') never s := by
  refine wp_mono (h.read hw offset) (fun value s' ⟨hvalue, h'⟩ => ⟨hvalue, ?_⟩) fun _ _ => id
  rwa [c.view_read offset hoffset _ (by rw [h.view]; exact hv), h.view] at h'

/-- A write access goes to the device, and to the history.  A write of the data register is on
the list of what has been written to it, and no other write is. -/
theorem At.write (h : At c spi v log s) (hw : Wired base spi) (offset : UInt32) (data : UInt64) :
    wp (xspiPciWriteReg offset data)
      (fun _ s' => At c spi (c.view (PciDevice.write64 (base + offset.toUInt64) data s.device.device))
        (log ++ if offset = xspDtrOffset then [(data, v.tx.length)] else []) s') never s := by
  have hpci : s.spi.pci = true := by rw [h.spi, hw.pci]
  have hbase : s.spi.baseAddr = base := by rw [h.spi, hw.baseAddr]
  refine wp_modify.mpr ?_
  rw [if_pos hpci, hbase]
  refine ⟨h.spi, rfl, ?_⟩
  have heq : base + offset.toUInt64 = base + xspDtrOffset.toUInt64 ↔ offset = xspDtrOffset := by
    rw [UInt64.add_right_inj, UInt32.toUInt64_inj]
  have hlog := h.log
  rw [FifoCore.dataWrites] at hlog
  change c.dataWrites ⟨_, s.device.writes ++ [(s.device.device, base + offset.toUInt64, data)]⟩ = _
  rw [FifoCore.dataWrites, List.filterMap_append, hlog, ← h.view]
  by_cases hoffset : offset = xspDtrOffset
  · simp [hoffset]
  · simp [heq, hoffset]

/-- A write access but one of the data to send. -/
theorem At.write_other (h : At c spi v log s) (hw : Wired base spi) {offset : UInt32}
    (hoffset : offset ≠ xspDtrOffset) (data : UInt64) :
    wp (xspiPciWriteReg offset data)
      (fun _ s' => At c spi (c.view (PciDevice.write64 (base + offset.toUInt64) data s.device.device))
        log s') never s := by
  refine wp_mono (h.write hw offset data) (fun _ s' h' => ?_) fun _ _ => id
  rwa [if_neg hoffset, List.append_nil] at h'

/-- The byte goes to the end of the queue. -/
theorem At.writeData (h : At c spi v log s) (hw : Wired base spi) (hv : v.Inhibited)
    (hroom : v.tx.length < depth) (data : UInt64) :
    wp (xspiPciWriteReg xspDtrOffset data)
      (fun _ s' => At c spi { v with tx := v.tx ++ [data.toUInt8] } (log ++ [(data, v.tx.length)]) s')
      never s := by
  refine wp_mono (h.write hw xspDtrOffset data) (fun _ s' h' => ?_) fun _ _ => id
  rwa [if_pos rfl, c.write_data data _ (by rw [h.view]; exact hv) (by rw [h.view]; exact hroom),
    h.view] at h'

/-- A change of the instance leaves the core alone. -/
theorem At.setSpi (h : At c spi v log s) (change : XSpi → XSpi) :
    wp (setSpi change) (fun _ s' => At c (change spi) v log s') never s :=
  ⟨by rw [← h.spi], h.view, h.log⟩

/-- A look at the instance. -/
theorem At.getSpi (h : At c spi v log s) :
    wp (gets fun s => s.spi) (fun value s' => value = spi ∧ At c spi v log s') never s := ⟨h.spi, h⟩

/-- The control register of a core at rest. -/
theorem At.getControlReg (h : At c spi v log s) (hw : Wired base spi) (hv : v.Resting) :
    wp xspiGetControlReg (fun value s' => value = v.control ∧ At c spi v log s') never s := by
  refine wp_bind.mpr (wp_mono (h.read_resting hw hv (by decide)) (fun value s' ⟨hvalue, h'⟩ => ?_)
    fun _ _ => id)
  exact ⟨by rw [hvalue, c.read_control, h.view], h'⟩

/-- The status register tells whether there is something to read and room to write. -/
theorem At.getStatusReg (h : At c spi v log s) (hw : Wired base spi) (hv : v.Resting) :
    wp xspiGetStatusReg
      (fun value s' => (value &&& xspSrRxEmptyMask = 0 ↔ v.rx ≠ []) ∧
        (value &&& xspSrTxFullMask = 0 ↔ v.tx.length < depth) ∧ At c spi v log s') never s := by
  refine wp_bind.mpr (wp_mono (h.read_resting hw hv (by decide)) (fun value s' ⟨hvalue, h'⟩ => ?_)
    fun _ _ => id)
  have hresting : (c.view s.device.device).Resting := by rw [h.view]; exact hv
  have hrx := c.read_rxEmpty _ hresting
  have htx := c.read_txFull _ hresting
  rw [← hvalue, h.view] at hrx htx
  exact ⟨hrx, htx, h'⟩

/-- A core that shifts may have gone on when its interrupt status is read. -/
theorem At.intrGetStatus (h : At c spi v log s) (hw : Wired base spi) :
    wp xspiIntrGetStatus
      (fun value s' => ∃ v', value.toUInt32 = v'.interrupts ∧ (v.Resting → v' = v) ∧
        (¬ v.Resting → v.Shifts v') ∧ At c spi v' log s') never s := by
  refine wp_mono (h.read hw xspIisrOffset) (fun value s' ⟨hvalue, h'⟩ => ⟨_, ?_, ?_, ?_, h'⟩)
    fun _ _ => id
  · rw [hvalue, c.read_interrupts]
  · intro hv
    rw [c.view_read _ (by decide) _ (by rw [h.view]; exact hv), h.view]
  · intro hv
    rw [← h.view] at hv ⊢
    exact c.view_shift _ hv

/-- Clearing the transmit empty bit. -/
theorem At.intrClear (h : At c spi v log s) (hw : Wired base spi) (hv : v.Resting)
    (hempty : v.TxEmpty) :
    wp (xspiIntrClear xspIntrTxEmptyMask)
      (fun _ s' => ∃ interrupts, interrupts &&& xspIntrTxEmptyMask = 0 ∧
        At c spi { v with interrupts } log s') never s := by
  refine wp_bind.mpr (wp_mono (h.intrGetStatus hw) (fun value s₁ ⟨v₁, hvalue, hrest, _, h₁⟩ => ?_)
    fun _ _ => id)
  obtain rfl := hrest hv
  refine wp_mono (h₁.write_other hw (by decide) _) (fun _ s₂ h₂ =>
    ⟨v₁.interrupts ^^^ (v₁.interrupts ||| xspIntrTxEmptyMask), ?_, ?_⟩) fun _ _ => id
  · exact toggle_and_mask ((and_txEmpty_cases _).resolve_left hempty)
  · rwa [c.write_interrupts _ _ (by rw [h₁.view]; exact hv), h₁.view, UInt64.toUInt32_or, hvalue,
      UInt32.toUInt32_toUInt64] at h₂

/-- A write to the select lines. -/
theorem At.setSlaveSelectReg (h : At c spi v log s) (hw : Wired base spi) (hv : v.Resting)
    (mask : UInt32) :
    wp (xspiSetSlaveSelectReg mask) (fun _ s' => At c spi { v with slaveSelect := mask } log s')
      never s := by
  refine wp_mono (h.write_other hw (by decide) mask.toUInt64) (fun _ s' h' => ?_) fun _ _ => id
  rwa [c.write_slaveSelect _ _ (by rw [h.view]; exact hv), h.view, UInt32.toUInt32_toUInt64] at h'

/-- Holding the transmitter back. -/
theorem At.inhibit (h : At c spi v log s) (hw : Wired base spi) (hv : v.Resting) :
    wp inhibit (fun _ s' => At c spi { v with control := v.control ||| xspCrTransInhibitMask } log s')
      never s := by
  refine wp_bind.mpr (wp_mono (h.getControlReg hw hv) (fun value s₁ ⟨hvalue, h₁⟩ => ?_)
    fun _ _ => id)
  refine wp_mono (h₁.write_other hw (by decide) _) (fun _ s₂ h₂ => ?_) fun _ _ => id
  have hview := c.inhibit s₁.device.device (by rw [h₁.view]; exact hv)
  rw [h₁.view, ← hvalue] at hview
  rw [hview] at h₂
  rw [← hvalue]
  exact h₂

/-- What the core shows when it is let go.  With an empty queue only the control register has
changed, else it may have shifted already. -/
def Freed (v v' : FifoView) : Prop :=
  (v.tx = [] → v' = { v with control := v.control &&& ~~~xspCrTransInhibitMask }) ∧
    (v.tx ≠ [] → FifoView.Shifts { v with control := v.control &&& ~~~xspCrTransInhibitMask } v')

/-- Letting it go: a core with something queued shifts from here on.  With an empty queue
nothing happens, and the register alone has changed. -/
theorem At.uninhibit (h : At c spi v log s) (hw : Wired base spi) (hv : v.Inhibited) :
    wp uninhibit (fun _ s' => ∃ v', Freed v v' ∧ At c spi v' log s') never s := by
  refine wp_bind.mpr (wp_mono (h.getControlReg hw (.inl hv)) (fun value s₁ ⟨hvalue, h₁⟩ => ?_)
    fun _ _ => id)
  refine wp_mono (h₁.write_other hw (by decide) _) (fun _ s₂ h₂ => ⟨_, ⟨?_, ?_⟩, h₂⟩) fun _ _ => id
  · intro hempty
    have hview := c.uninhibit_empty s₁.device.device (by rw [h₁.view]; exact hempty)
    rw [h₁.view, ← hvalue] at hview
    rw [← hvalue]
    exact hview
  · intro hqueued
    have hview := c.uninhibit s₁.device.device (by rw [h₁.view]; exact hv)
      (by rw [h₁.view]; exact hqueued)
    rw [h₁.view, ← hvalue] at hview
    rw [← hvalue]
    exact hview

/-- A read of the received data takes the first byte. -/
theorem At.readData (h : At c spi v log s) (hw : Wired base spi) (hv : v.Resting) {byte : UInt8}
    {rest : List UInt8} (hrx : v.rx = byte :: rest) :
    wp (xspiPciReadReg xspDrrOffset)
      (fun value s' => value.toUInt32.toUInt8 = byte ∧ At c spi { v with rx := rest } log s')
      never s := by
  refine wp_mono (h.read hw xspDrrOffset) (fun value s' ⟨hvalue, h'⟩ => ?_) fun _ _ => id
  obtain ⟨hbyte, hview⟩ := c.read_data s.device.device byte rest (by rw [h.view]; exact hv)
    (by rw [h.view]; exact hrx)
  rw [hview, h.view] at h'
  exact ⟨by rw [hvalue]; exact hbyte, h'⟩

end Accesses

/-! ## Where the bytes are -/

/-- Of the bytes of `buffer`, the first `count` have been queued; `stored` are the bytes that
have been taken out for them.  `v₀` and `log₀` are what there was before. -/
structure Ledger (depth : ℕ) (v₀ : FifoView) (log₀ : List (UInt64 × ℕ)) (buffer : ℕ → UInt8)
    (count : ℕ) (stored : List UInt8) (v : FifoView) (log : List (UInt64 × ℕ)) : Prop where
  sent : v.sent ++ v.tx = v₀.sent ++ (List.range count).map buffer
  received : v.received = v₀.received ++ stored ++ v.rx
  balance : stored.length + v.rx.length + v.tx.length = count
  written : ∃ new, log = log₀ ++ new ∧
    new.map Prod.fst = (List.range count).map (fun i => (buffer i).toUInt64) ∧ ∀ w ∈ new, w.2 < depth

namespace Ledger

variable {v₀ v v' : FifoView} {log₀ log : List (UInt64 × ℕ)} {buffer : ℕ → UInt8} {count : ℕ}
variable {stored : List UInt8}

/-- The registers of the core are no part of it. -/
theorem registers (h : Ledger depth v₀ log₀ buffer count stored v log) (control slaveSelect
    interrupts : UInt32) :
    Ledger depth v₀ log₀ buffer count stored { v with control, slaveSelect, interrupts } log :=
  ⟨h.sent, h.received, h.balance, h.written⟩

/-- What is queued goes out, and as much comes in. -/
theorem shifts (h : Ledger depth v₀ log₀ buffer count stored v log) (hshifts : v.Shifts v') :
    Ledger depth v₀ log₀ buffer count stored v' log := by
  cases hshifts with
  | going => exact h.registers _ _ _
  | done interrupts replies raised hlength =>
      refine ⟨?_, ?_, ?_, h.written⟩
      · rw [FifoView.shifted, List.append_nil, h.sent]
      · rw [FifoView.shifted, h.received, List.append_assoc]
      · have hbalance := h.balance
        simp only [FifoView.shifted, List.length_append, List.length_nil, hlength]
        omega

/-- One byte is queued.  It is written to the data register, so it joins the log together with
what was queued before it. -/
theorem queue (h : Ledger depth v₀ log₀ buffer count stored v log) (hroom : v.tx.length < depth) :
    Ledger depth v₀ log₀ buffer (count + 1) stored { v with tx := v.tx ++ [buffer count] }
      (log ++ [((buffer count).toUInt64, v.tx.length)]) := by
  obtain ⟨new, hlog, hnew, hfit⟩ := h.written
  refine ⟨?_, h.received, ?_, new ++ [((buffer count).toUInt64, v.tx.length)], ?_, ?_, ?_⟩
  · rw [← List.append_assoc, h.sent, List.range_succ, List.map_append, List.append_assoc]
    rfl
  · have hbalance := h.balance
    simp only [List.length_append, List.length_singleton]
    omega
  · rw [hlog, List.append_assoc]
  · rw [List.map_append, hnew, List.range_succ, List.map_append]
    rfl
  · intro w hw
    rcases List.mem_append.mp hw with hw | hw
    · exact hfit w hw
    · rw [List.mem_singleton.mp hw]
      exact hroom

/-- One byte is taken out of the receive queue. -/
theorem store {byte : UInt8} {rest : List UInt8}
    (h : Ledger depth v₀ log₀ buffer count stored v log) (hrx : v.rx = byte :: rest) :
    Ledger depth v₀ log₀ buffer count (stored ++ [byte]) { v with rx := rest } log := by
  refine ⟨h.sent, ?_, ?_, h.written⟩
  · rw [h.received, hrx, List.append_assoc, List.append_assoc, List.append_assoc]
    rfl
  · have hbalance := h.balance
    rw [hrx, List.length_cons] at hbalance
    simp only [List.length_append, List.length_singleton]
    omega

end Ledger

/-! ## The loops -/

/-- The driver instance in the course of a transfer of `byteCount` bytes, `count` of which
have been queued. -/
def underway (spi : XSpi) (buffer : ℕ → UInt8) (recv : Bool) (byteCount : UInt32) (count : ℕ)
    (stored : List UInt8) : XSpi :=
  { spi with
    isBusy := true
    sendBuffer := fun i => buffer (i + count)
    recvBuffer := if recv then some stored else none
    requestedBytes := byteCount
    remainingBytes := byteCount - UInt32.ofNat count }

section Transfer

variable {c : FifoCore ε base depth} {spi₀ : XSpi} {v₀ : FifoView} {log₀ : List (UInt64 × ℕ)}
variable {buffer : ℕ → UInt8} {recv : Bool} {byteCount : UInt32}

variable (c spi₀ v₀ log₀ buffer recv byteCount) in
/-- A transfer in its course: the instance and the core agree about how far it is.  This is
the invariant of the transfer, from the first fill to the last drain. -/
structure Underway (count : ℕ) (stored : List UInt8) (v : FifoView) (s : SpiCore (Traced ε)) :
    Prop where
  enough : count ≤ byteCount.toNat
  located : ∃ log, At c (underway spi₀ buffer recv byteCount count stored) v log s ∧
    Ledger depth v₀ log₀ buffer count stored v log

variable {count : ℕ} {stored : List UInt8} {v : FifoView} {s : SpiCore (Traced ε)}

omit [PciDevice ε] in
/-- Something remains to be sent as long as not all has been queued. -/
theorem underway_remaining (h : count ≤ byteCount.toNat) :
    0 < (underway spi₀ buffer recv byteCount count stored).remainingBytes ↔ count < byteCount.toNat := by
  have hle : UInt32.ofNat count ≤ byteCount := by
    rw [UInt32.le_iff_toNat_le, UInt32.toNat_ofNat_of_lt' (h.trans_lt byteCount.toNat_lt)]
    exact h
  change 0 < byteCount - UInt32.ofNat count ↔ _
  rw [UInt32.lt_iff_toNat_lt, UInt32.toNat_sub_of_le _ _ hle,
    UInt32.toNat_ofNat_of_lt' (h.trans_lt byteCount.toNat_lt)]
  change 0 < byteCount.toNat - count ↔ _
  omega

omit [PciDevice ε] in
/-- Moving the send buffer on by a byte.  The count is a natural number, while the instance
keeps what is left of it as 32 bits. -/
theorem underway_succ : underway spi₀ buffer recv byteCount (count + 1) stored =
    { underway spi₀ buffer recv byteCount count stored with
      sendBuffer := fun i =>
        (underway spi₀ buffer recv byteCount count stored).sendBuffer
          (i + (bytesPerWord xspDatawidthByte).toNat)
      remainingBytes := (underway spi₀ buffer recv byteCount count stored).remainingBytes -
        bytesPerWord xspDatawidthByte } := by
  have hbuffer : (fun i => buffer (i + (count + 1))) =
      fun i => buffer (i + (bytesPerWord xspDatawidthByte).toNat + count) := by
    funext i
    congr 1
    change i + (count + 1) = i + 1 + count
    omega
  have hremaining : byteCount - UInt32.ofNat (count + 1) =
      byteCount - UInt32.ofNat count - bytesPerWord xspDatawidthByte := by
    have hone : bytesPerWord xspDatawidthByte = 1 := rfl
    rw [UInt32.ofNat_add, hone]
    grind
  rw [underway, hbuffer, hremaining]
  rfl

/-- A transfer does not rewire the instance. -/
theorem Wired.underway (h : Wired base spi₀) :
    Wired base (underway spi₀ buffer recv byteCount count stored) :=
  ⟨h.pci, h.baseAddr⟩

omit [PciDevice ε] in
/-- The next word is the next byte. -/
theorem nextWord_underway (data : UInt32) :
    nextWord xspDatawidthByte (underway spi₀ buffer recv byteCount count stored).sendBuffer data =
      (buffer count).toUInt32 := by
  rw [nextWord, if_pos rfl, underway]
  dsimp only
  rw [Nat.zero_add]

/-- What a round of filling does not touch.  A queue that has something in it is not emptied
by it. -/
structure Filled (v v' : FifoView) : Prop where
  control : v'.control = v.control
  interrupts : v'.interrupts = v.interrupts
  rx : v'.rx = v.rx
  queued : v.tx ≠ [] → v'.tx ≠ []

/-- Filling the queue: it takes something, if there is room and something left.  The induction
is on the rounds of the loop, each of which queues one byte. -/
theorem Underway.fill (hw : Wired base spi₀) {rounds : ℕ} {statusReg data : UInt32}
    (h : Underway c spi₀ v₀ log₀ buffer recv byteCount count stored v s) (hv : v.Inhibited)
    (hroom : statusReg &&& xspSrTxFullMask = 0 → v.tx.length < depth)
    (hrounds : byteCount.toNat < count + rounds) :
    wp (loop (fillRound xspDatawidthByte) rounds (statusReg, data))
      (fun _ s' => ∃ count' v', Underway c spi₀ v₀ log₀ buffer recv byteCount count' stored v' s' ∧
        count ≤ count' ∧ Filled v v' ∧
        (statusReg &&& xspSrTxFullMask = 0 → count < byteCount.toNat → v'.tx ≠ []) ∧
        (statusReg &&& xspSrTxFullMask ≠ 0 → v' = v)) never s := by
  induction rounds generalizing count v s statusReg data with
  | zero => exact absurd h.enough (by omega)
  | succ n ih =>
      obtain ⟨log, hat, hledger⟩ := h.located
      refine wp_bind.mpr (wp_bind.mpr (wp_mono hat.getSpi (fun spi s₁ ⟨hspi, h₁⟩ => ?_) fun _ _ => id))
      subst hspi
      -- a round queues one byte, or the loop is over: full, or nothing left
      by_cases hgo : statusReg &&& xspSrTxFullMask = 0 ∧
          0 < (underway spi₀ buffer recv byteCount count stored).remainingBytes
      · rw [if_pos hgo]
        have hcount := (underway_remaining h.enough).mp hgo.2
        refine wp_bind.mpr (wp_mono (h₁.writeData hw.underway hv (hroom hgo.1) _)
          (fun _ s₂ h₂ => ?_) fun _ _ => id)
        refine wp_bind.mpr (wp_mono (h₂.setSpi _) (fun _ s₃ h₃ => ?_) fun _ _ => id)
        rw [← underway_succ] at h₃
        refine wp_bind.mpr (wp_mono (h₃.getStatusReg hw.underway (.inl hv))
          (fun status s₄ ⟨_, hfull, h₄⟩ => ?_) fun _ _ => id)
        have hnext : Underway c spi₀ v₀ log₀ buffer recv byteCount (count + 1) stored
            { v with tx := v.tx ++ [buffer count] } s₄ := by
          refine ⟨hcount, _, ?_, hledger.queue (hroom hgo.1)⟩
          rwa [nextWord_underway, UInt8.toUInt64_toUInt32, UInt8.toUInt8_toUInt64] at h₄
        refine wp_pure.mpr (wp_mono (ih hnext hv (fun hfree => ?_) (by omega))
          (fun _ s' ⟨count', v', h', hle, hfilled, _, _⟩ => ?_) fun _ _ => id)
        · have hlength := hfull.mp hfree
          rwa [List.length_append, List.length_singleton] at hlength ⊢
        · have hqueued := hfilled.queued (by simp)
          exact ⟨count', v', h', by omega, ⟨hfilled.control, hfilled.interrupts, hfilled.rx,
            fun _ => hqueued⟩, fun _ _ => hqueued, fun h => absurd hgo.1 h⟩
      · rw [if_neg hgo]
        refine ⟨count, v, ⟨h.enough, log, h₁, hledger⟩, le_rfl, ⟨rfl, rfl, rfl, id⟩, ?_, fun _ => rfl⟩
        intro hfree hcount
        exact absurd ⟨hfree, (underway_remaining h.enough).mpr hcount⟩ hgo

omit [PciDevice ε] in
/-- Storing a byte. -/
theorem underway_store {byte : UInt8} :
    underway spi₀ buffer recv byteCount count (stored ++ [byte]) =
      { underway spi₀ buffer recv byteCount count stored with
        recvBuffer := (underway spi₀ buffer recv byteCount count stored).recvBuffer.map
          (· ++ [byte]) } := by
  cases recv with
  | false => rfl
  | true => rfl

/-- There are never more bytes received than were queued. -/
theorem Underway.length_le (h : Underway c spi₀ v₀ log₀ buffer recv byteCount count stored v s) :
    stored.length + v.rx.length + v.tx.length = count := by
  obtain ⟨_, _, hledger⟩ := h.located
  exact hledger.balance

/-- Draining stores every received byte, and counts it.  The induction is on what is in the
FIFO: each round takes one byte of it, and the count of what is left goes down with it. -/
theorem Underway.drain (hw : Wired base spi₀) {rounds : ℕ} {statusReg left data : UInt32}
    (h : Underway c spi₀ v₀ log₀ buffer recv byteCount count stored v s) (hv : v.Inhibited)
    (hstatus : statusReg &&& xspSrRxEmptyMask = 0 ↔ v.rx ≠ [])
    (hleft : left.toNat + stored.length = byteCount.toNat) (hrounds : v.rx.length < rounds) :
    wp (loop (drainRound xspDatawidthByte) rounds (statusReg, left, data))
      (fun (left', _) s' =>
        Underway c spi₀ v₀ log₀ buffer recv byteCount count (stored ++ v.rx) { v with rx := [] } s' ∧
          left'.toNat + (stored ++ v.rx).length = byteCount.toNat) never s := by
  induction rounds generalizing stored v s statusReg left data with
  | zero => exact absurd hrounds (Nat.not_lt_zero _)
  | succ n ih =>
      have hlength := h.length_le
      have henough := h.enough
      obtain ⟨log, hat, hledger⟩ := h.located
      refine wp_bind.mpr ?_
      -- the loop ends when the receive queue is empty, which the status register tells
      rcases hrx : v.rx with _ | ⟨byte, rest⟩
      · have hempty : ¬ statusReg &&& xspSrRxEmptyMask = 0 := fun h => hstatus.mp h hrx
        rw [drainRound, if_neg hempty, List.append_nil]
        refine ⟨?_, hleft⟩
        rwa [← hrx]
      · have hsome : statusReg &&& xspSrRxEmptyMask = 0 :=
          hstatus.mpr (by rw [hrx]; exact List.cons_ne_nil _ _)
        rw [drainRound, if_pos hsome]
        rw [hrx, List.length_cons] at hlength hrounds
        refine wp_bind.mpr (wp_mono (hat.readData hw.underway (.inl hv) hrx)
          (fun value s₁ ⟨hbyte, h₁⟩ => ?_) fun _ _ => id)
        refine wp_bind.mpr (wp_mono (h₁.setSpi _) (fun _ s₂ h₂ => ?_) fun _ _ => id)
        refine wp_bind.mpr (wp_mono (h₂.getStatusReg ⟨hw.pci, hw.baseAddr⟩ (.inl hv))
          (fun status s₃ ⟨hempty, _, h₃⟩ => ?_) fun _ _ => id)
        -- the byte goes from the receive queue to the stored ones
        have hnext : Underway c spi₀ v₀ log₀ buffer recv byteCount count (stored ++ [byte])
            { v with rx := rest } s₃ := by
          refine ⟨henough, log, ?_, hledger.store hrx⟩
          have hword : wordBytes xspDatawidthByte value.toUInt32 = [byte] := by
            rw [wordBytes, if_pos rfl, hbyte]
          rw [hword] at h₃
          rwa [underway_store]
        -- and the count of what is left does not fall below zero, since a byte was there
        have hone : (left - bytesPerWord xspDatawidthByte).toNat = left.toNat - 1 := by
          have hone : bytesPerWord xspDatawidthByte = 1 := rfl
          have hle : (1 : UInt32) ≤ left := by
            rw [UInt32.le_iff_toNat_le]
            change 1 ≤ left.toNat
            omega
          rw [hone, UInt32.toNat_sub_of_le _ _ hle]
          rfl
        have hleft' : (left - bytesPerWord xspDatawidthByte).toNat + (stored ++ [byte]).length =
            byteCount.toNat := by
          rw [hone, List.length_append, List.length_singleton]
          omega
        refine wp_pure.mpr (wp_mono (ih hnext hv hempty hleft' (Nat.lt_of_succ_lt_succ hrounds))
          (fun _ s' h' => ?_) fun _ _ => id)
        rwa [List.append_assoc] at h'

/-- The core has been let go with something to send, and has sent it or has not.  In both
cases the poll that follows comes to an end. -/
structure Sending (v : FifoView) : Prop where
  free : ¬ v.Inhibited
  some : v.tx ≠ [] ∧ ¬ v.TxEmpty ∨ v.tx = [] ∧ v.TxEmpty ∧ v.rx ≠ []

omit [PciDevice ε] in
/-- It stays so while the core goes on.  The step is either one that leaves the queue, or the
one that empties it and raises the bit. -/
theorem Sending.shifts {v' : FifoView} (h : Sending v) (hv : ¬ v.Resting) (hshifts : v.Shifts v') :
    Sending v' := by
  have hqueued : v.tx ≠ [] := fun h => hv (.inr h)
  have hnot : ¬ v.TxEmpty := (h.some.resolve_right fun h => hqueued h.1).2
  cases hshifts with
  | going interrupts same =>
      refine ⟨h.free, .inl ⟨hqueued, ?_⟩⟩
      rw [FifoView.TxEmpty, same]
      exact hnot
  | done interrupts replies raised hlength =>
      refine ⟨h.free, .inr ⟨rfl, raised, fun hrx => hqueued ?_⟩⟩
      obtain ⟨-, hreplies⟩ := List.append_eq_nil_iff.mp hrx
      rw [← List.length_eq_zero_iff, ← hlength, hreplies, List.length_nil]

omit [PciDevice ε] in
/-- A core that is let go with something queued. -/
theorem Freed.sending {v' : FifoView} (h : Freed v v') (hqueued : v.tx ≠ []) (hnot : ¬ v.TxEmpty) :
    Sending v' := by
  have hfree : ¬ FifoView.Inhibited { v with control := v.control &&& ~~~xspCrTransInhibitMask } :=
    not_not_intro (clear_and_mask _ _)
  refine Sending.shifts (v := { v with control := v.control &&& ~~~xspCrTransInhibitMask })
    ⟨hfree, .inl ⟨hqueued, hnot⟩⟩ ?_ (h.2 hqueued)
  exact fun hrest => hrest.elim hfree hqueued

/-- A read of the interrupt status may find that the core has gone on. -/
theorem Underway.afterRead (hw : Wired base spi₀)
    (h : Underway c spi₀ v₀ log₀ buffer recv byteCount count stored v s) :
    ∃ v', Underway c spi₀ v₀ log₀ buffer recv byteCount count stored v' (afterRead s) ∧
      intrStatus s = v'.interrupts ∧ (v.Resting → v' = v) ∧ (¬ v.Resting → v.Shifts v') := by
  obtain ⟨log, hat, hledger⟩ := h.located
  obtain ⟨value, hread, hvalue⟩ := xspiIntrGetStatus_eq s
  obtain ⟨v', hstatus, hrest, hshifts, h'⟩ := (wp_of_ret hread).mp (hat.intrGetStatus hw.underway)
  refine ⟨v', ⟨h.enough, log, h', ?_⟩, hvalue.symm.trans hstatus, hrest, hshifts⟩
  by_cases hv : v.Resting
  · rw [hrest hv]
    exact hledger
  · exact hledger.shifts (hshifts hv)

/-- The poll finds the transmit empty bit, when it comes before the last read.  Each read lets
the core go on, and the transfer is in its course behind all of them. -/
theorem Underway.poll (hw : Wired base spi₀) {n : ℕ}
    (h : Underway c spi₀ v₀ log₀ buffer recv byteCount count stored v s) (hv : Sending v)
    (hprompt : ∃ k < n, Empties s k) :
    wp (pollTxEmpty (n + 1))
      (fun left s' => left ≠ 0 ∧ ∃ v', Underway c spi₀ v₀ log₀ buffer recv byteCount count stored v' s' ∧
        Sending v' ∧ v'.TxEmpty) never s := by
  induction n generalizing v s with
  | zero => exact absurd hprompt (by simp)
  | succ n ih =>
      obtain ⟨v', h', hstatus, hrest, hshifts⟩ := h.afterRead hw
      have hv' : Sending v' := by
        by_cases hresting : v.Resting
        · rw [hrest hresting]
          exact hv
        · exact hv.shifts hresting (hshifts hresting)
      by_cases hfirst : intrStatus s &&& xspIntrTxEmptyMask = 0
      · have hnext : ∃ k < n, Empties (SpiCore.afterRead s) k := by
          obtain ⟨k, hk, hempties⟩ := hprompt
          cases k with
          | zero => exact absurd hfirst hempties
          | succ k => exact ⟨k, Nat.lt_of_succ_lt_succ hk, hempties⟩
        have hrun := ih h' hv' hnext
        rw [wp] at hrun ⊢
        rwa [pollTxEmpty_succ, if_pos ⟨hfirst, Nat.succ_ne_zero n⟩]
      · rw [wp, pollTxEmpty_succ, if_neg fun h => hfirst h.1]
        exact ⟨Nat.succ_ne_zero n, v', h', hv', by rw [FifoView.TxEmpty, ← hstatus]; exact hfirst⟩

variable (c spi₀ v₀ log₀ buffer recv byteCount) in
/-- At the condition of the polling loop: `ByteCount` is what is still to be stored, and the
core sends, or everything has been stored. -/
def Polling (left : UInt32) (s : SpiCore (Traced ε)) : Prop :=
  ∃ count stored v, Underway c spi₀ v₀ log₀ buffer recv byteCount count stored v s ∧
    left.toNat + stored.length = byteCount.toNat ∧
    (Sending v ∨ v.Inhibited ∧ v.tx = [] ∧ v.rx = [] ∧ count = byteCount.toNat)

/-- A core that has sent everything already shows it at the first look. -/
theorem Underway.empties_of_resting (hw : Wired base spi₀)
    (h : Underway c spi₀ v₀ log₀ buffer recv byteCount count stored v s) (hv : Sending v)
    (hresting : v.Resting) : Empties s 0 := by
  obtain ⟨v', -, hstatus, hrest, -⟩ := h.afterRead hw
  have htx : v.tx = [] := hresting.resolve_left hv.free
  have hempty : v.TxEmpty := (hv.some.resolve_left fun h => h.1 htx).2.1
  rw [Empties, Function.iterate_zero, id, hstatus, hrest hresting]
  exact hempty

/-- With bytes left and an emptied queue, the rest goes on its way.  The fill takes at least
one byte, as there is room and something left, so the core has something to send again. -/
theorem Underway.refill (hw : Wired base spi₀) (hdepth : 0 < depth) {rounds : ℕ}
    {left data : UInt32} (h : Underway c spi₀ v₀ log₀ buffer recv byteCount count stored v s)
    (hv : v.Inhibited) (htx : v.tx = []) (hnot : ¬ v.TxEmpty) (hmore : count < byteCount.toNat)
    (hrounds : byteCount.toNat < rounds) :
    wp (do
        let statusReg ← xspiGetStatusReg
        let data ← loop (fillRound xspDatawidthByte) rounds (statusReg, data)
        uninhibit
        pure (.inl (left, data) : (UInt32 × UInt32) ⊕ Xst))
      (fun r s' => ∃ data' count' v', r = .inl (left, data') ∧
        Underway c spi₀ v₀ log₀ buffer recv byteCount count' stored v' s' ∧ Sending v')
      never s := by
  obtain ⟨log, hat, hledger⟩ := h.located
  refine wp_bind.mpr (wp_mono (hat.getStatusReg hw.underway (.inl hv))
    (fun statusReg s₁ ⟨_, hroom, hat₁⟩ => ?_) fun _ _ => id)
  -- the queue is empty, so that the status register shows room
  have h₁ := Underway.mk h.enough ⟨log, hat₁, hledger⟩
  have hfree : statusReg &&& xspSrTxFullMask = 0 := by
    refine hroom.mpr ?_
    rw [htx]
    exact hdepth
  refine wp_bind.mpr (wp_mono (h₁.fill hw hv (fun _ => hroom.mp hfree) (by omega))
    (fun data' s₂ ⟨count', v₂, h₂, _, hfilled, hqueued, _⟩ => ?_) fun _ _ => id)
  have hqueued : v₂.tx ≠ [] := hqueued hfree hmore
  obtain ⟨log₂, hat₂, hledger₂⟩ := h₂.located
  have hv₂ : v₂.Inhibited := by
    rw [FifoView.Inhibited, hfilled.control]
    exact hv
  have hnot₂ : ¬ v₂.TxEmpty := by
    rw [FifoView.TxEmpty, hfilled.interrupts]
    exact hnot
  refine wp_bind.mpr (wp_mono (hat₂.uninhibit hw.underway hv₂)
    (fun _ s₃ ⟨v₃, hfreed, hat₃⟩ => ?_) fun _ _ => id)
  have hledger₃ := (hledger₂.registers _ _ _).shifts (hfreed.2 hqueued)
  exact ⟨data', count', v₃, rfl, ⟨h₂.enough, log₂, hat₃, hledger₃⟩,
    hfreed.sending hqueued hnot₂⟩

/-- A round of the polled mode: something is stored, and the rest is on its way.  It is the
step of the induction for the whole loop, with `ByteCount` as its measure. -/
theorem Polling.round (hw : Wired base spi₀) (hdepth : 0 < depth) {rounds : ℕ}
    (hrounds : byteCount.toNat < rounds) {left data : UInt32}
    (h : Polling c spi₀ v₀ log₀ buffer recv byteCount left s)
    (hprompt : ¬ (c.view s.device.device).Resting → ∃ k < 99, Empties s k) :
    wp (polledRound rounds xspDatawidthByte (left, data))
      (fun r s' => match r with
        | .inl (left', _) => left'.toNat < left.toNat ∧
            Polling c spi₀ v₀ log₀ buffer recv byteCount left' s'
        | .inr status => status = .success ∧ left = 0 ∧
            Polling c spi₀ v₀ log₀ buffer recv byteCount left s') never s := by
  obtain ⟨count, stored, v, hunderway, hleft, hphase⟩ := h
  have hlength := hunderway.length_le
  have henough := hunderway.enough
  refine wp_ite.mpr ⟨fun hpos => ?_, fun hzero => ?_⟩
  · have hpos : 0 < left.toNat := UInt32.lt_iff_toNat_lt.mp hpos
    have hsending : Sending v := by
      refine hphase.resolve_right fun ⟨_, htx, hrx, hcount⟩ => ?_
      rw [htx, hrx, hcount] at hlength
      simp only [List.length_nil] at hlength
      omega
    have hview : c.view s.device.device = v := by
      obtain ⟨_, hat, -⟩ := hunderway.located
      exact hat.view
    have hsoon : ∃ k < 99, Empties s k := by
      by_cases hresting : v.Resting
      · exact ⟨0, by decide, hunderway.empties_of_resting hw hsending hresting⟩
      · exact hprompt (by rw [hview]; exact hresting)
    -- the poll finds the bit, which is cleared, and the transmitter is held back
    refine wp_bind.mpr (wp_mono (hunderway.poll hw hsending hsoon)
      (fun loopcountdown s₁ ⟨hfound, v₁, h₁, hsending₁, hempty⟩ => ?_) fun _ _ => id)
    rw [if_neg hfound]
    obtain ⟨htx₁, -, hrx₁⟩ := hsending₁.some.resolve_left fun h => h.2 hempty
    obtain ⟨log, hat₁, hledger⟩ := h₁.located
    refine wp_bind.mpr (wp_mono (hat₁.intrClear hw.underway (.inr htx₁) hempty)
      (fun _ s₂ ⟨interrupts, hclear, hat₂⟩ => ?_) fun _ _ => id)
    refine wp_bind.mpr (wp_mono (hat₂.inhibit hw.underway (.inr htx₁)) (fun _ s₃ hat₃ => ?_)
      fun _ _ => id)
    set v₃ : FifoView := { v₁ with control := v₁.control ||| xspCrTransInhibitMask, interrupts }
    have hv₃ : v₃.Inhibited := by
      rw [FifoView.Inhibited, or_and_self_mask]
      decide
    refine wp_bind.mpr (wp_mono (hat₃.getStatusReg hw.underway (.inl hv₃))
      (fun statusReg s₄ ⟨hstatus, _, hat₄⟩ => ?_) fun _ _ => id)
    have h₄ : Underway c spi₀ v₀ log₀ buffer recv byteCount count stored v₃ s₄ :=
      ⟨henough, log, hat₄, hledger.registers _ _ _⟩
    -- what the round has received is stored, and there is something of it
    refine wp_bind.mpr (wp_mono (h₄.drain hw hv₃ hstatus hleft ?_)
      (fun (left', _) s₅ ⟨h₅, hleft'⟩ => ?_) fun _ _ => id)
    · have hlength₁ := h₁.length_le
      change v₁.rx.length < rounds
      omega
    have hless : left'.toNat < left.toNat := by
      have hsome : 0 < v₁.rx.length := List.length_pos_iff.mpr hrx₁
      rw [List.length_append] at hleft'
      change left'.toNat + (stored.length + v₁.rx.length) = _ at hleft'
      omega
    have hnot : ¬ v₃.TxEmpty := not_not_intro hclear
    obtain ⟨_, hat₅, -⟩ := h₅.located
    refine wp_bind.mpr (wp_gets.mpr (wp_ite.mpr ⟨fun hmore => ?_, fun hnone => ?_⟩))
    · rw [hat₅.spi] at hmore
      have hmore := (underway_remaining henough).mp hmore
      refine wp_mono (h₅.refill hw hdepth hv₃ htx₁ hnot hmore hrounds)
        (fun r s₆ ⟨data', count', v₆, hr, h₆, hsending₆⟩ => ?_) fun _ _ => id
      subst hr
      exact ⟨hless, count', _, v₆, h₆, hleft', .inl hsending₆⟩
    · rw [hat₅.spi] at hnone
      have hall : count = byteCount.toNat :=
        le_antisymm henough (not_lt.mp fun h => hnone ((underway_remaining henough).mpr h))
      exact ⟨hless, count, _, _, h₅, hleft', .inr ⟨hv₃, htx₁, rfl, hall⟩⟩
  · have hleft₀ : left = 0 := by
      have hle : ¬ 0 < left.toNat := fun h => hzero (UInt32.lt_iff_toNat_lt.mpr h)
      exact UInt32.toNat_inj.mp (by change left.toNat = 0; omega)
    exact ⟨rfl, hleft₀, count, stored, v, hunderway, hleft, hphase⟩

variable (c spi₀ v₀ log₀ buffer recv byteCount) in
/-- Everything has been sent and stored.  It is the invariant at the end of the outer loop,
with nothing left in either queue. -/
def Complete (s : SpiCore (Traced ε)) : Prop :=
  ∃ stored v, Underway c spi₀ v₀ log₀ buffer recv byteCount byteCount.toNat stored v s ∧
    stored.length = byteCount.toNat ∧ v.Inhibited ∧ v.tx = [] ∧ v.rx = []

/-- When nothing is left to be stored, everything has been.  The byte count of the loop is
what has not been stored, so all has been sent and nothing is queued. -/
theorem Polling.complete (h : Polling c spi₀ v₀ log₀ buffer recv byteCount 0 s) :
    Complete c spi₀ v₀ log₀ buffer recv byteCount s := by
  obtain ⟨count, stored, v, hunderway, hleft, hphase⟩ := h
  have hlength := hunderway.length_le
  have henough := hunderway.enough
  have hstored : stored.length = byteCount.toNat := by
    rw [← hleft]
    exact (Nat.zero_add _).symm
  rcases hphase with hsending | ⟨hv, htx, hrx, rfl⟩
  · rcases hsending.some with ⟨htx, -⟩ | ⟨-, -, hrx⟩
    · have := List.length_pos_iff.mpr htx
      omega
    · have := List.length_pos_iff.mpr hrx
      omega
  · exact ⟨stored, v, hunderway, hstored, hv, htx, hrx⟩

/-- The polling loop, with enough rounds followed and a core that is fast enough.  Each round
stores at least one byte, and this is what the rounds are counted against. -/
theorem Polling.loop (hw : Wired base spi₀) (hdepth : 0 < depth) {rounds : ℕ}
    (hrounds : byteCount.toNat < rounds) {data : UInt32}
    (h : Polling c spi₀ v₀ log₀ buffer recv byteCount byteCount s)
    (hprompt : ∀ r ∈ visits (polledRound rounds xspDatawidthByte) rounds (byteCount, data) s,
      ¬ (c.view r.2.device.device).Resting → ∃ k < 99, Empties r.2 k) :
    wp (loop (polledRound rounds xspDatawidthByte) rounds (byteCount, data))
      (fun status s' => status = .success ∧ Complete c spi₀ v₀ log₀ buffer recv byteCount s')
      never s := by
  refine wp_loop_of_visits
    (fun m vars s => Polling c spi₀ v₀ log₀ buffer recv byteCount vars.1 s ∧ vars.1.toNat < m)
    (fun r => ¬ (c.view r.2.device.device).Resting → ∃ k < 99, Empties r.2 k) ?_
    (fun _ _ h => absurd h.2 (Nat.not_lt_zero _)) rounds (byteCount, data) s ⟨h, hrounds⟩ hprompt
  rintro m ⟨left, data⟩ s₁ ⟨h₁, hm⟩ hsoon
  refine wp_mono (h₁.round hw hdepth hrounds hsoon) (fun r s₂ h₂ => ?_) fun _ _ => id
  cases r with
  | inl vars => exact ⟨h₂.2, Nat.lt_of_lt_of_le h₂.1 (Nat.le_of_lt_succ hm)⟩
  | inr status =>
      obtain ⟨rfl, hleft, h₂⟩ := h₂
      rw [hleft] at h₂
      exact ⟨rfl, h₂.complete⟩

/-- The end of the transfer holds the transmitter back and deselects the slave.  The busy flag
is taken back as well, and the next transfer can begin. -/
theorem Polling.polledTransfer (hw : Wired base spi₀) (hdepth : 0 < depth) {rounds : ℕ}
    (hrounds : byteCount.toNat < rounds) {data : UInt32}
    (h : Polling c spi₀ v₀ log₀ buffer recv byteCount byteCount s)
    (hprompt : ∀ r ∈ visits (polledRound rounds xspDatawidthByte) rounds (byteCount, data) s,
      ¬ (c.view r.2.device.device).Resting → ∃ k < 99, Empties r.2 k) :
    wp (polledTransfer rounds xspDatawidthByte byteCount data)
      (fun status s' => status = .success ∧ ∃ stored v log,
        At c { underway spi₀ buffer recv byteCount byteCount.toNat stored with isBusy := false } v log s' ∧
          Ledger depth v₀ log₀ buffer byteCount.toNat stored v log ∧
          stored.length = byteCount.toNat ∧ v.tx = [] ∧ v.rx = [] ∧
          v.slaveSelect = spi₀.slaveSelectMask) never s := by
  refine wp_check.mpr (wp_mono (h.loop hw hdepth hrounds hprompt)
    (fun status s₁ ⟨hok, hcomplete⟩ => ⟨fun _ => ?_, fun h => absurd hok h⟩) fun _ _ => id)
  obtain ⟨stored, v, h₁, hstored, hv, htx, hrx⟩ := hcomplete
  obtain ⟨log, hat₁, hledger⟩ := h₁.located
  refine wp_bind.mpr (wp_mono (hat₁.inhibit hw.underway (.inl hv)) (fun _ s₂ hat₂ => ?_) fun _ _ => id)
  refine wp_bind.mpr (wp_mono hat₂.getSpi (fun spi s₃ ⟨hspi, hat₃⟩ => ?_) fun _ _ => id)
  subst hspi
  refine wp_bind.mpr (wp_mono (hat₃.setSlaveSelectReg hw.underway (.inr htx) _)
    (fun _ s₄ hat₄ => ?_) fun _ _ => id)
  refine wp_bind.mpr (wp_mono (hat₄.setSpi _) (fun _ s₅ hat₅ => ?_) fun _ _ => id)
  exact ⟨rfl, stored, _, log, hat₅, hledger.registers _ _ _, hstored, htx, hrx, rfl⟩

/-! ## The opening -/

/-- The driver behind the checks, in front of an idle core: nothing queued, nothing to take,
and no transmit empty left over from before. -/
structure Rested (v : FifoView) : Prop where
  inhibited : v.Inhibited
  tx : v.tx = []
  rx : v.rx = []
  notEmpty : ¬ v.TxEmpty

omit [PciDevice ε] in
/-- Nothing has been sent, and nothing stored. -/
theorem Rested.ledger {v : FifoView} (h : Rested v) (log : List (UInt64 × ℕ))
    (buffer : ℕ → UInt8) : Ledger depth v log buffer 0 [] v log := by
  refine ⟨?_, ?_, ?_, [], ?_, rfl, fun _ h => (nomatch h)⟩
  · rw [h.tx]
    simp
  · rw [h.rx]
    simp
  · rw [h.tx, h.rx]
    rfl
  · simp

/-- A core that was freed with bytes queued, as the polling loop finds it behind one more
read. -/
theorem Underway.polling (h : Underway c spi₀ v₀ log₀ buffer recv byteCount count [] v s)
    {v₁ v₂ : FifoView} {log : List (UInt64 × ℕ)} {s₂ : SpiCore (Traced ε)}
    (hledger : Ledger depth v₀ log₀ buffer count [] v₁ log) (hsending : Sending v₁)
    (hrest : v₁.Resting → v₂ = v₁) (hshifts : ¬ v₁.Resting → v₁.Shifts v₂)
    (hat : At c (underway spi₀ buffer recv byteCount count []) v₂ log s₂) :
    Polling c spi₀ v₀ log₀ buffer recv byteCount byteCount s₂ := by
  refine ⟨count, [], v₂, ⟨h.enough, log, hat, ?_⟩, rfl, .inl ?_⟩
  all_goals by_cases hresting : v₁.Resting
  · rw [hrest hresting]
    exact hledger
  · exact hledger.shifts (hshifts hresting)
  · rw [hrest hresting]
    exact hsending
  · exact hsending.shifts hresting (hshifts hresting)

/-- The transfer before its polling loop.  The first filling goes by the interrupt status: a
bit of it that has the place of the transmit full bit keeps it from taking anything. -/
theorem At.opening (buffer : ℕ → UInt8) (recv : Bool) (hw : Wired base spi₀)
    (hwidth : spi₀.dataWidth = xspDatawidthByte) (hdepth : 0 < depth) {rounds : ℕ}
    (hrounds : byteCount.toNat < rounds) (hbytes : byteCount ≠ 0) (hrested : Rested v₀) (h : At c spi₀ v₀ log₀ s) :
    wp (opening rounds buffer recv byteCount)
      (fun _ s' =>
        (v₀.interrupts &&& xspSrTxFullMask = 0 ∧
          Polling c spi₀ v₀ log₀ buffer recv byteCount byteCount s') ∨
        (v₀.interrupts &&& xspSrTxFullMask ≠ 0 ∧ ∃ spi v log, Wired base spi ∧ At c spi v log s' ∧
          v.tx = [] ∧ ¬ v.TxEmpty)) never s := by
  have hresting : v₀.Resting := .inl hrested.inhibited
  refine wp_bind.mpr (wp_mono (h.setSpi _) (fun _ s₁ h₁ => ?_) fun _ _ => id)
  have hstart : underway spi₀ buffer recv byteCount 0 [] =
      { spi₀ with
        isBusy := true
        sendBuffer := buffer
        recvBuffer := if recv then some [] else none
        requestedBytes := byteCount
        remainingBytes := byteCount } := by
    rw [underway]
    simp
  rw [← hstart] at h₁
  have hw₁ : Wired base (underway spi₀ buffer recv byteCount 0 []) := hw.underway
  refine wp_bind.mpr (wp_mono h₁.getSpi (fun spi s₂ ⟨hspi, h₂⟩ => ?_) fun _ _ => id)
  subst hspi
  refine wp_bind.mpr (wp_mono (h₂.getStatusReg hw₁ hresting) (fun _ s₃ ⟨_, _, h₃⟩ => ?_) fun _ _ => id)
  refine wp_bind.mpr (wp_mono (h₃.intrGetStatus hw₁) (fun statusReg s₄ ⟨v₄, hstatus, hrest, _, h₄⟩ => ?_)
    fun _ _ => id)
  obtain rfl := hrest hresting
  -- nothing is queued yet: the account of an idle core, with no byte in any column
  have hunderway : Underway c spi₀ v₄ log₀ buffer recv byteCount 0 [] v₄ s₄ :=
    ⟨Nat.zero_le _, log₀, h₄, hrested.ledger log₀ buffer⟩
  have hpos : 0 < byteCount.toNat := by
    rw [Nat.pos_iff_ne_zero]
    exact fun h => hbytes (UInt32.toNat_inj.mp h)
  have hroom : v₄.tx.length < depth := by
    rw [hrested.tx]
    exact hdepth
  have hwidth₁ : (underway spi₀ buffer recv byteCount 0 []).dataWidth = xspDatawidthByte := hwidth
  rw [hwidth₁, hstatus]
  refine wp_bind.mpr (wp_mono (hunderway.fill hw hrested.inhibited (fun _ => hroom) (by omega))
    (fun data s₅ ⟨count, v₅, h₅, _, hfilled, hqueued, hsame⟩ => ?_) fun _ _ => id)
  obtain ⟨log₅, hat₅, hledger₅⟩ := h₅.located
  -- the filling has left the transmitter held back, so the select line may be written
  have hv₅ : v₅.Inhibited := by
    rw [FifoView.Inhibited, hfilled.control]
    exact hrested.inhibited
  have hnot₅ : ¬ v₅.TxEmpty := by
    rw [FifoView.TxEmpty, hfilled.interrupts]
    exact hrested.notEmpty
  refine wp_bind.mpr (wp_mono (hat₅.setSlaveSelectReg hw.underway (.inl hv₅) _)
    (fun _ s₆ hat₆ => ?_) fun _ _ => id)
  refine wp_bind.mpr (wp_mono (hat₆.uninhibit hw.underway hv₅) (fun _ s₇ ⟨v₇, hfreed, hat₇⟩ => ?_)
    fun _ _ => id)
  refine wp_bind.mpr (wp_mono (hat₇.intrGetStatus hw.underway)
    (fun _ s₈ ⟨v₈, _, hrest₈, hshifts₈, hat₈⟩ => ?_) fun _ _ => id)
  by_cases hclear : v₄.interrupts &&& xspSrTxFullMask = 0
  -- the filling has found room, and the transmitter is let go with something to send
  · have hqueued := hqueued hclear hpos
    have hsending₇ := hfreed.sending hqueued hnot₅
    have hledger₇ := (hledger₅.registers _ _ _).shifts (hfreed.2 hqueued)
    exact .inl ⟨hclear, h₅.polling hledger₇ hsending₇ hrest₈ hshifts₈ hat₈⟩
  -- the status word said that the FIFO was full: nothing is queued, and nothing will shift
  · have htx₅ : v₅.tx = [] := by
      rw [hsame hclear]
      exact hrested.tx
    obtain rfl := hfreed.1 htx₅
    obtain rfl := hrest₈ (.inr htx₅)
    exact .inr ⟨hclear, _, _, log₅, hw.underway, hat₈, htx₅, hnot₅⟩

/-- A core with nothing to send never raises the transmit empty bit.  The reads change nothing
then, so the bit is at each of them what it was at the first. -/
theorem At.none_empties {n : ℕ} (h : At c spi₀ v log₀ s) (hw : Wired base spi₀) (htx : v.tx = [])
    (hnot : ¬ v.TxEmpty) : ¬ Empties s n := by
  induction n generalizing s with
  | zero =>
      obtain ⟨value, hread, hvalue⟩ := xspiIntrGetStatus_eq s
      obtain ⟨v', hstatus, hrest, -, -⟩ := (wp_of_ret hread).mp (h.intrGetStatus hw)
      rw [Empties, Function.iterate_zero, id, ← hvalue, hstatus, hrest (.inr htx)]
      exact hnot
  | succ n ih =>
      obtain ⟨value, hread, -⟩ := xspiIntrGetStatus_eq s
      obtain ⟨v', -, hrest, -, h'⟩ := (wp_of_ret hread).mp (h.intrGetStatus hw)
      obtain rfl := hrest (.inr htx)
      exact ih h'

end Transfer

/-! ## The exchange -/

/-- A started and idle driver in front of an idle core, with a slave selected and the
interrupts off. -/
structure Ready (c : FifoCore ε base depth) (s : SpiCore (Traced ε)) : Prop where
  pci : s.spi.pci = true
  ready : s.spi.isReady = xilComponentIsReady
  started : s.spi.isStarted = xilComponentIsStarted
  idle : s.spi.isBusy = false
  width : s.spi.dataWidth = xspDatawidthByte
  slave : ¬ ((c.view s.device.device).control &&& xspCrMasterModeMask ≠ 0 ∧
    (c.view s.device.device).control &&& xspCrLoopbackMask = 0 ∧
    s.spi.slaveSelectReg = s.spi.slaveSelectMask)
  polled : (PciDevice.read64 (base + xspDgierOffset.toUInt64) s.device.device).1 ≠ xspGintrEnableMask
  rested : Rested (c.view s.device.device)

/-- The transfer has exchanged `byteCount` bytes. -/
structure Exchanged (c : FifoCore ε base depth) (rounds : ℕ) (buffer : ℕ → UInt8) (recv : Bool)
    (byteCount : UInt32) (s s' : SpiCore (Traced ε)) : Prop where
  /-- The bytes to send have been written once each, in order, and never to a full queue. -/
  written : ∃ new, c.dataWrites s'.device = c.dataWrites s.device ++ new ∧
    new.map Prod.fst = (List.range byteCount.toNat).map (fun i => (buffer i).toUInt64) ∧
    ∀ w ∈ new, w.2 < depth
  sent : (c.view s'.device.device).sent =
    (c.view s.device.device).sent ++ (List.range byteCount.toNat).map buffer
  /-- The bytes received have been stored, all of them and nothing else. -/
  stored : ∃ replies, replies.length = byteCount.toNat ∧
    (c.view s'.device.device).received = (c.view s.device.device).received ++ replies ∧
    s'.spi.recvBuffer = if recv then some replies else none
  /-- At every test of it, `ByteCount` is the number of bytes still to be stored. -/
  counted : ∀ r ∈ pollingRounds rounds buffer recv byteCount s,
    r.1.1.toNat + (c.view r.2.device.device).received.length =
      byteCount.toNat + (c.view s.device.device).received.length +
        (c.view r.2.device.device).rx.length
  emptied : (c.view s'.device.device).tx = [] ∧ (c.view s'.device.device).rx = []
  deselected : (c.view s'.device.device).slaveSelect = s.spi.slaveSelectMask
  idle : s'.spi.isBusy = false

section Exchange

variable {s : SpiCore (Traced ε)} {byteCount : UInt32}

/-- The checks leave the driver and the core as they are.  They find the interrupts off, which
sends the transfer into the polled mode. -/
theorem Ready.checks {c : FifoCore ε s.spi.baseAddr depth} (h : Ready c s) :
    wp checks (fun r s' => r = (false, (c.view s.device.device).control) ∧
      At c s.spi (c.view s.device.device) (c.dataWrites s.device) s') never s := by
  have hat : At c s.spi (c.view s.device.device) (c.dataWrites s.device) s := ⟨rfl, rfl, rfl⟩
  have hw : Wired s.spi.baseAddr s.spi := ⟨h.pci, rfl⟩
  have hresting : (c.view s.device.device).Resting := .inl h.rested.inhibited
  refine wp_bind.mpr (wp_bind.mpr (wp_mono (hat.read_resting hw hresting (by decide))
    (fun value s₁ ⟨hvalue, h₁⟩ => ?_) fun _ _ => id))
  refine wp_pure.mpr (wp_bind.mpr (wp_mono (h₁.write_other hw (by decide) 0) (fun _ s₂ h₂ => ?_)
    fun _ _ => id))
  rw [c.write_dgier _ _ (by rw [h₁.view]; exact hresting), h₁.view] at h₂
  refine wp_bind.mpr (wp_mono (h₂.getControlReg hw hresting) (fun value' s₃ ⟨hcontrol, h₃⟩ => ?_)
    fun _ _ => id)
  have hpolled := h.polled
  rw [← hvalue] at hpolled
  exact ⟨by rw [hcontrol, decide_eq_false hpolled], h₃⟩

/-- Such a driver takes a transfer of at least one byte. -/
theorem Ready.admitted {c : FifoCore ε s.spi.baseAddr depth} (h : Ready c s) (hbytes : byteCount ≠ 0) :
    Admitted byteCount s := by
  obtain ⟨r, s', hrun, rfl, -⟩ := exists_ret_of_wp h.checks
  exact ⟨hbytes, h.ready, h.started, h.idle, _, by rw [hrun], h.slave⟩

/-- What is known of the polling loop when the first filling has taken something. -/
theorem Polling.counted {c : FifoCore ε s.spi.baseAddr depth} {v₀ : FifoView}
    {log₀ : List (UInt64 × ℕ)} {buffer : ℕ → UInt8} {recv : Bool} {left : UInt32}
    {s' : SpiCore (Traced ε)} (h : Polling c s.spi v₀ log₀ buffer recv byteCount left s') :
    left.toNat + (c.view s'.device.device).received.length =
      byteCount.toNat + v₀.received.length + (c.view s'.device.device).rx.length := by
  obtain ⟨count, stored, v, hunderway, hleft, -⟩ := h
  obtain ⟨log, hat, hledger⟩ := hunderway.located
  rw [hat.view, hledger.received, List.length_append, List.length_append]
  omega

/-- It is known at every test of `ByteCount`. -/
theorem Polling.counted_of_mem {c : FifoCore ε s.spi.baseAddr depth}
    (hw : Wired s.spi.baseAddr s.spi) (hdepth : 0 < depth) {v₀ : FifoView}
    {log₀ : List (UInt64 × ℕ)} {buffer : ℕ → UInt8} {recv : Bool} {rounds : ℕ}
    (hrounds : byteCount.toNat < rounds) {data : UInt32} {s₂ : SpiCore (Traced ε)}
    (h : Polling c s.spi v₀ log₀ buffer recv byteCount byteCount s₂)
    (hprompt : ∀ r ∈ visits (polledRound rounds xspDatawidthByte) rounds (byteCount, data) s₂,
      ¬ (c.view r.2.device.device).Resting → ∃ k < 99, Empties r.2 k) :
    ∀ r ∈ visits (polledRound rounds xspDatawidthByte) rounds (byteCount, data) s₂,
      r.1.1.toNat + (c.view r.2.device.device).received.length =
        byteCount.toNat + v₀.received.length + (c.view r.2.device.device).rx.length := by
  intro r hr
  refine Polling.counted (forall_visits (I := fun (vars : UInt32 × UInt32) s' =>
    Polling c s.spi v₀ log₀ buffer recv byteCount vars.1 s') ?_ rounds (byteCount, data) s₂ h
    hprompt r hr)
  rintro ⟨left, data⟩ s₃ h₃ hsoon
  refine wp_mono (h₃.round hw hdepth hrounds hsoon) (fun r s₄ h₄ => ?_) fun _ _ h => h.elim
  cases r with
  | inl vars => exact h₄.2
  | inr status => trivial

/-- With nothing queued the transfer fails: its first poll gives up. -/
theorem At.failure_of_unsent {base : UInt64} {c : FifoCore ε base depth} {spi : XSpi}
    {v : FifoView} {log : List (UInt64 × ℕ)} {s₂ : SpiCore (Traced ε)} (h : At c spi v log s₂)
    (hw : Wired base spi) (htx : v.tx = []) (hnot : ¬ v.TxEmpty) (hadmitted : Admitted byteCount s)
    {buffer : ℕ → UInt8} {recv : Bool} {rounds : ℕ} (hrounds : 0 < rounds) (hpos : 0 < byteCount)
    {data : UInt32} (hpolling : pollingRounds rounds buffer recv byteCount s =
      visits (polledRound rounds s.spi.dataWidth) rounds (byteCount, data) s₂) :
    (xspiTransfer rounds (some buffer) recv byteCount s).1 = .ret .failure := by
  obtain ⟨n, rfl⟩ := Nat.exists_eq_succ_of_ne_zero hrounds.ne'
  have hcount : 0 < (byteCount, data).1 := hpos
  obtain ⟨s₃, hup⟩ := polledRound_of_none (n + 1) s.spi.dataWidth hcount fun k _ =>
    h.none_empties hw htx hnot
  refine (xspiTransfer_failure_iff hadmitted (n + 1) buffer recv).mpr
    ⟨((byteCount, data), s₂), ?_, by rw [hup]⟩
  rw [hpolling]
  exact List.mem_cons_self

/-- **The polled transfer is an exact exchange exactly when the interrupt status it enters
with lacks the bit that has the place of the transmit full bit.**  Over a core of any depth
that shifts what is queued before a poll gives up, for any bytes: the first filling tests the
interrupt status, and with that bit it queues nothing, so that the poll waits in vain.

The bit is the one of the transmit full flag in the status register, and in the interrupt
status it has another meaning (`xspSrTxFullMask` is applied to both).  `Exchanged` is the
whole of the purpose: each byte is written once and in order, as many are stored as were sent,
and these are the ones that the core has received for them.  `hprompt` is asked only where
there is something to shift. -/
theorem exact_exchange_iff (s : SpiCore (Traced ε)) (c : FifoCore ε s.spi.baseAddr depth)
    (hdepth : 1 ≤ depth) (hready : Ready c s) (buffer : ℕ → UInt8) (recv : Bool)
    (byteCount : UInt32) (hbytes : 1 ≤ byteCount) (rounds : ℕ) (hrounds : byteCount.toNat < rounds)
    (hprompt : ∀ r ∈ pollingRounds rounds buffer recv byteCount s,
      ¬ (c.view r.2.device.device).Resting → ∃ k < 99, Empties r.2 k) :
    (∃ s', xspiTransfer rounds (some buffer) recv byteCount s = (.ret .success, s') ∧
      Exchanged c rounds buffer recv byteCount s s') ↔
      (c.view s.device.device).interrupts &&& xspSrTxFullMask = 0 := by
  have hw : Wired s.spi.baseAddr s.spi := ⟨hready.pci, rfl⟩
  have hpos : 0 < byteCount := UInt32.lt_of_lt_of_le (by decide) hbytes
  have hne : byteCount ≠ 0 := fun h => UInt32.lt_irrefl 0 (by rwa [h] at hpos)
  have hadmitted := hready.admitted hne
  obtain ⟨_, s₁, hchecks, rfl, hat⟩ := exists_ret_of_wp hready.checks
  obtain ⟨data, s₂, hopening, hphase⟩ := exists_ret_of_wp
    (hat.opening buffer recv hw hready.width hdepth hrounds hne hready.rested)
  have hpolling : pollingRounds rounds buffer recv byteCount s =
      visits (polledRound rounds xspDatawidthByte) rounds (byteCount, data) s₂ := by
    rw [pollingRounds, hchecks]
    dsimp only
    rw [hopening, hready.width]
  constructor
  -- a transfer that succeeds has queued something
  · rintro ⟨s', hrun, -⟩
    rcases hphase with ⟨hclear, -⟩ | ⟨-, spi, v, log, hw', h₂, htx, hnot⟩
    · exact hclear
    · -- nothing is queued, and the transfer fails
      have hfailed := h₂.failure_of_unsent hw' htx hnot hadmitted (Nat.zero_lt_of_lt hrounds) hpos
        (hready.width.symm ▸ hpolling)
      rw [hrun] at hfailed
      cases hfailed
  · intro hclear
    -- otherwise the loop has something to do, and the account at its end is the exchange
    obtain ⟨-, h₂⟩ := hphase.resolve_right fun h => h.1 hclear
    rw [hpolling] at hprompt
    obtain ⟨_, s', hrun, rfl, stored, v, log, hat', hledger, hlength, htx, hrx, hselect⟩ :=
      exists_ret_of_wp (h₂.polledTransfer hw hdepth hrounds hprompt)
    refine ⟨s', ?_, ?_⟩
    · rw [xspiTransfer_of_admitted hadmitted, hchecks]
      dsimp only
      rw [bind_of_ret hopening, hready.width]
      exact hrun
    · refine ⟨?_, ?_, ⟨stored, hlength, ?_, ?_⟩, ?_, ?_, ?_, ?_⟩
      · rw [hat'.log]
        exact hledger.written
      · have hsent := hledger.sent
        rwa [htx, List.append_nil, ← hat'.view] at hsent
      · have hreceived := hledger.received
        rwa [hrx, List.append_nil, ← hat'.view] at hreceived
      · rw [hat'.spi]
        rfl
      · rw [hpolling]
        exact h₂.counted_of_mem hw hdepth hrounds hprompt
      · rw [hat'.view]
        exact ⟨htx, hrx⟩
      · rw [hat'.view]
        exact hselect
      · rw [hat'.spi]

/-- An idle core with FIFOs of two bytes.  Three bytes do not fit at once, so a transfer of
them goes through the refill. -/
def twoDeep (interrupts : UInt32) : SpiCore (Traced (Fifo 2)) :=
  idle ⟨Fifo.idle 2 interrupts [3, 1], []⟩

/-- Three bytes over FIFOs of two, in two rounds. -/
theorem exact_exchange_three :
    ∃ s', xspiTransfer 4 (some UInt8.ofNat) true 3 (twoDeep 0x10) = (.ret .success, s') ∧
      Exchanged Fifo.core 4 UInt8.ofNat true 3 (twoDeep 0x10) s' := by
  have hready : Ready Fifo.core (twoDeep 0x10) :=
    ⟨rfl, rfl, rfl, rfl, rfl, by decide, by decide, by decide, rfl, rfl, by decide⟩
  exact (exact_exchange_iff (twoDeep 0x10) Fifo.core (by decide) hready UInt8.ofNat true 3
    (by decide) 4 (by decide) (by decide +kernel)).mpr (by decide)

/-- The interrupt status on entry has bit 3 set and the transmit empty bit clear.  Nothing is
written, and the transfer fails. -/
theorem exact_exchange_counterexample :
    Ready Fifo.core (twoDeep 0x8) ∧
      (∀ r ∈ pollingRounds 4 UInt8.ofNat true 3 (twoDeep 0x8), r.2.device.device.view.Resting) ∧
      (xspiTransfer 4 (some UInt8.ofNat) true 3 (twoDeep 0x8)).1 = .ret .failure ∧
      Fifo.core.dataWrites
        (xspiTransfer 4 (some UInt8.ofNat) true 3 (twoDeep 0x8)).2.device = [] := by
  refine ⟨⟨rfl, rfl, rfl, rfl, rfl, by decide, by decide, by decide, rfl, rfl, by decide⟩, ?_⟩
  decide +kernel

end Exchange

end Kiflash.SpiCore
