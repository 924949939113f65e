import Kiflash.Spi.Axi

/-!
# What a failed transfer leaves behind

`XSpi_Transfer` sets the busy flag, selects the slave and lets the core send, and only the end
of its polling loop takes all of this back.  `Refused` are the requests that it turns down
before that: they leave the driver as it was.  Every other request that fails has been given
up on by the poll, and keeps the busy flag.

* `Flows`, `RoundFlows` — the accesses that a round of the polled mode is made of, for any
  relation.
* `Undisturbed` — what a round keeps.
* `Released` — the driver is free for the next request.
* `failed_transfer_releases_iff` — when a failed transfer leaves it so.

### Accesses, not rounds

What is kept by a round is kept by each of its accesses, and a round is made of few kinds of
these.  `Flows` lists them as fields of a structure with a relation as its parameter, and
shows the loops from the fields, for reads and queued bytes; `RoundFlows` adds the clearing of
an interrupt and the transmitter.  The modules behind this one come back to the structures
with other relations.  Neither the data nor the timing of the device appears in them.

### The condition

A call that is not turned down sets `IsBusy`.  It is cleared in one place, at the end of the
polled mode, and the return of the poll that gives up does not pass it (`Ends`).  So whether a
failed transfer releases the driver is known before it begins: it must be turned down by the
checks.  The two registers are then as they were, which is why they have to be in order
before.

### What is assumed

The device is any with a control register and a select register (`Controller`), and the
instance is not busy.  Whether the transfer comes to its end is not in question: the statement
is about transfers that return.
-/

open Imperative Imperative.Prog

namespace Kiflash.SpiCore

variable {ε : Type} [PciDevice ε] {s s' : SpiCore ε}

/-! ## What an access of the core keeps -/

/-- A property of the driver instance, as one of the driver and its core.  What the core does
cannot change it. -/
def Has (P : XSpi → Prop) (s : SpiCore ε) : Prop := P s.spi

/-- A property of the instance that the buffer pointers and the count of the bytes still
to send have no say in. -/
def Steady (P : XSpi → Prop) : Prop :=
  ∀ spi sendBuffer recvBuffer remainingBytes, P spi →
    P { spi with sendBuffer, recvBuffer, remainingBytes }

section Steady

variable {P : XSpi → Prop}

/-- A read of a register does not touch the instance, -/
theorem xspiPciReadReg_keeps (address : UInt32) :
    Moves (Keeps (Has (ε := ε) P)) (xspiPciReadReg address) := by
  intro s
  unfold xspiPciReadReg
  split
  · exact id
  · exact id

/-- and neither does a write, -/
theorem xspiPciWriteReg_keeps (address : UInt32) (data : UInt64) :
    Moves (Keeps (Has (ε := ε) P)) (xspiPciWriteReg address data) := by
  refine moves_modify fun s => ?_
  split
  · exact id
  · exact id

/-- nor what is made of them. -/
theorem xspiGetControlReg_keeps : Moves (Keeps (Has (ε := ε) P)) xspiGetControlReg :=
  (xspiPciReadReg_keeps _).bind fun _ => moves_pure _

/-- The status register is read. -/
theorem xspiGetStatusReg_keeps : Moves (Keeps (Has (ε := ε) P)) xspiGetStatusReg :=
  (xspiPciReadReg_keeps _).bind fun _ => moves_pure _

/-- The interrupt enable register is read and written. -/
theorem xspiIntrEnable_keeps (enableMask : UInt32) :
    Moves (Keeps (Has (ε := ε) P)) (xspiIntrEnable enableMask) :=
  (xspiPciReadReg_keeps _).bind fun _ => xspiPciWriteReg_keeps _ _

/-- As is the control register, to let the transmitter go, -/
theorem uninhibit_keeps : Moves (Keeps (Has (ε := ε) P)) uninhibit :=
  xspiGetControlReg_keeps.bind fun _ => xspiPciWriteReg_keeps _ _

/-- and to hold it back. -/
theorem inhibit_keeps : Moves (Keeps (Has (ε := ε) P)) inhibit :=
  xspiGetControlReg_keeps.bind fun _ => xspiPciWriteReg_keeps _ _

end Steady

/-! ## What the polled mode moves along -/

section Flows

variable {r : SpiCore ε → SpiCore ε → Prop}

/-- The registers that the driver reads.  Only the receive FIFO among them is changed by
it. -/
def readOffsets : List UInt32 :=
  [xspDgierOffset, xspIisrOffset, xspIierOffset, xspCrOffset, xspSrOffset, xspDrrOffset]

/-- What polling, draining and filling are made of moves along `r`.  The loops are composed
from these steps once, for every `r`. -/
structure Flows (r : SpiCore ε → SpiCore ε → Prop) : Prop where
  read : ∀ address ∈ readOffsets, Moves r (xspiPciReadReg address)
  writeData : ∀ data, Moves r (xspiPciWriteReg xspDtrOffset data)
  buffers : ∀ s sendBuffer recvBuffer remainingBytes,
    r s { s with spi := { s.spi with sendBuffer, recvBuffer, remainingBytes } }

/-- What a round of the polled mode is made of moves along `r`, the two changes of the inhibit
bit included. -/
structure RoundFlows (r : SpiCore ε → SpiCore ε → Prop) : Prop extends Flows r where
  intrClear : Moves r (xspiIntrClear xspIntrTxEmptyMask)
  inhibit : Moves r inhibit
  uninhibit : Moves r uninhibit

namespace Flows

variable [IsPreorder (SpiCore ε) r] (hr : Flows r)
include hr

theorem xspiGetStatusReg : Moves r (xspiGetStatusReg (ε := ε)) :=
  (hr.read _ (by decide)).bind fun _ => moves_pure _

/-- The poll reads.  The induction is on its countdown. -/
theorem pollTxEmpty (loopcountdown : ℕ) : Moves r (pollTxEmpty (ε := ε) loopcountdown) := by
  induction loopcountdown with
  | zero => exact moves_pure _
  | succ n ih => exact (hr.read _ (by decide)).bind fun _ => ih.ite (moves_pure _)

theorem fillRound (dataWidth : UInt8) (vars : UInt32 × UInt32) :
    Moves r (fillRound (ε := ε) dataWidth vars) := by
  refine (moves_gets _).bind fun spi => Moves.ite ?_ (moves_pure _)
  refine (hr.writeData _).bind fun _ => Moves.bind (moves_modify fun s => ?_) fun _ =>
    hr.xspiGetStatusReg.bind fun _ => moves_pure _
  exact hr.buffers s _ s.spi.recvBuffer _

/-- Draining reads, and changes the buffers. -/
theorem drainRound (dataWidth : UInt8) (vars : UInt32 × UInt32 × UInt32) :
    Moves r (drainRound (ε := ε) dataWidth vars) := by
  refine Moves.ite ?_ (moves_pure _)
  refine (hr.read _ (by decide)).bind fun _ => Moves.bind (moves_modify fun s => ?_) fun _ =>
    hr.xspiGetStatusReg.bind fun _ => moves_pure _
  exact hr.buffers s s.spi.sendBuffer _ s.spi.remainingBytes

/-- What is left of a round behind the poll and the inhibition.  The transmitter is a
parameter, as the handler lets it go in another way. -/
theorem exchangeRound (huninhibit : Moves r SpiCore.uninhibit) (rounds : ℕ) (dataWidth : UInt8)
    (byteCount data : UInt32) : Moves r (do
      let statusReg ← SpiCore.xspiGetStatusReg (ε := ε)
      let (byteCount, data) ← loop (SpiCore.drainRound dataWidth) rounds (statusReg, byteCount, data)
      let remainingBytes ← gets fun s => s.spi.remainingBytes
      if 0 < remainingBytes then do
        let statusReg ← SpiCore.xspiGetStatusReg
        let data ← loop (SpiCore.fillRound dataWidth) rounds (statusReg, data)
        SpiCore.uninhibit
        pure (.inl (byteCount, data) : (UInt32 × UInt32) ⊕ Xst)
      else pure (.inl (byteCount, data))) :=
  hr.xspiGetStatusReg.bind fun _ => (Moves.loop (hr.drainRound dataWidth) _ _).bind fun _ =>
    (moves_gets _).bind fun _ => Moves.ite (hr.xspiGetStatusReg.bind fun _ =>
      (Moves.loop (hr.fillRound dataWidth) _ _).bind fun _ =>
      huninhibit.bind fun _ => moves_pure _) (moves_pure _)

end Flows

/-- Every round of the polled mode, whether the poll gives up in it or not. -/
theorem RoundFlows.polledRound [IsPreorder (SpiCore ε) r] (hr : RoundFlows r) (rounds : ℕ)
    (dataWidth : UInt8) (vars : UInt32 × UInt32) :
    Moves r (polledRound (ε := ε) rounds dataWidth vars) :=
  Moves.ite ((hr.pollTxEmpty 100).bind fun _ => Moves.ite (moves_pure _) <|
    hr.intrClear.bind fun _ => hr.inhibit.bind fun _ =>
    hr.exchangeRound hr.uninhibit rounds dataWidth _ _)
    (moves_pure _)

end Flows

/-! ## What the polled mode keeps -/

/-- The registers behind which the core's control register is not. -/
def plainOffsets : List UInt32 :=
  [xspDgierOffset, xspIisrOffset, xspIierOffset, xspDtrOffset, xspSsrOffset]

/-- `P` of the driver is kept by what a round of the polled mode is made of. -/
structure Undisturbed (P : SpiCore ε → Prop) : Prop where
  read : ∀ address, Moves (Keeps P) (xspiPciReadReg address)
  write : ∀ address ∈ plainOffsets, ∀ data, Moves (Keeps P) (xspiPciWriteReg address data)
  inhibit : Moves (Keeps P) inhibit
  uninhibit : Moves (Keeps P) uninhibit
  buffers : ∀ s sendBuffer recvBuffer remainingBytes, P s →
    P { s with spi := { s.spi with sendBuffer, recvBuffer, remainingBytes } }

/-- What is steady is undisturbed. -/
theorem Steady.undisturbed {P : XSpi → Prop} (hP : Steady P) : Undisturbed (Has (ε := ε) P) where
  read := xspiPciReadReg_keeps
  write address _ data := xspiPciWriteReg_keeps address data
  inhibit := inhibit_keeps
  uninhibit := uninhibit_keeps
  buffers s _ _ _ h := hP s.spi _ _ _ h

namespace Undisturbed

variable {P : SpiCore ε → Prop} (hP : Undisturbed P)
include hP

/-- An interrupt is cleared. -/
theorem xspiIntrClear (clearMask : UInt32) : Moves (Keeps P) (xspiIntrClear (ε := ε) clearMask) :=
  (hP.read _).bind fun _ => hP.write _ (by decide) _

/-- So a round is made of what keeps the property. -/
theorem roundFlows : RoundFlows (Keeps P) where
  read address _ := hP.read address
  writeData := hP.write _ (by decide)
  uninhibit := hP.uninhibit
  buffers := hP.buffers
  intrClear := hP.xspiIntrClear _
  inhibit := hP.inhibit

theorem fillRound (dataWidth : UInt8) (vars : UInt32 × UInt32) :
    Moves (Keeps P) (fillRound (ε := ε) dataWidth vars) := hP.roundFlows.fillRound dataWidth vars

/-- Every round of the polled mode, whether the poll gives up in it or not. -/
theorem polledRound (rounds : ℕ) (dataWidth : UInt8) (vars : UInt32 × UInt32) :
    Moves (Keeps P) (polledRound (ε := ε) rounds dataWidth vars) :=
  hP.roundFlows.polledRound rounds dataWidth vars

end Undisturbed

/-! ## A transfer that was given up -/

/-- The busy flag is set.  A transfer that finds it so is refused. -/
def Busy (spi : XSpi) : Prop := spi.isBusy = true

/-- A round leaves the busy flag alone. -/
theorem steady_busy : Steady Busy := fun _ _ _ _ h => h

/-- A transfer that passed its checks succeeds, or is given up on and stays busy. -/
def Ends (status : Xst) (s : SpiCore ε) : Prop := status = .success ∨ status = .failure ∧ Has Busy s

/-- Only the end of the polled mode clears the busy flag. -/
theorem polledTransfer_ends (rounds : ℕ) (dataWidth : UInt8) (byteCount data : UInt32)
    (h : Has Busy s) :
    wp (polledTransfer rounds dataWidth byteCount data) Ends (fun _ _ => True) s := by
  have hloop := Moves.loop ((steady_busy.undisturbed (ε := ε)).polledRound rounds dataWidth)
    rounds (byteCount, data)
  refine wp_check.mpr (wp_mono (hloop.wp s) (fun status s₁ h₁ => ⟨fun _ => ?_, fun _ => ?_⟩)
    fun _ _ _ => trivial)
  · exact inhibit_keeps.wp_bind (h₁ h) (fun _ _ _ => .inl rfl) fun _ _ _ => trivial
  · exact .inr ⟨rfl, h₁ h⟩

/-- **Behind the checks** a transfer succeeds or keeps the busy flag, in either mode.  The
flag is set first, and none of the steps takes it back but the last one of the polled mode, in
front of the success. -/
theorem startTransfer_ends (rounds : ℕ) (buffer : ℕ → UInt8) (recv : Bool) (byteCount : UInt32)
    (globalIntrReg : Bool) (s : SpiCore ε) :
    wp (startTransfer rounds buffer recv byteCount globalIntrReg) Ends (fun _ _ => True) s := by
  have drop : ∀ (why : Stop) (s' : SpiCore ε), Has Busy s' → True := fun _ _ _ => trivial
  unfold startTransfer
  refine wp_bind.mpr (wp_modify.mpr (wp_bind.mpr (wp_gets.mpr ?_)))
  refine (xspiGetStatusReg_keeps (P := Busy)).wp_bind rfl (fun _ s₁ h₁ => ?_) drop
  refine (xspiPciReadReg_keeps _).wp_bind h₁ (fun statusReg s₂ h₂ => ?_) drop
  refine (Moves.loop (steady_busy.undisturbed.fillRound _) _ _).wp_bind h₂ (fun data s₃ h₃ => ?_) drop
  refine (xspiPciWriteReg_keeps _ _).wp_bind h₃ (fun _ s₄ h₄ => ?_) drop
  refine uninhibit_keeps.wp_bind h₄ (fun _ s₅ h₅ => ?_) drop
  refine (xspiPciReadReg_keeps _).wp_bind h₅ (fun _ s₆ h₆ => ?_) drop
  refine wp_ite.mpr ⟨fun _ => ?_, fun _ => polledTransfer_ends _ _ _ _ h₆⟩
  -- with interrupts the transfer is only started, and that succeeds
  refine (xspiIntrEnable_keeps _).wp_bind h₆ (fun _ s₇ h₇ => ?_) drop
  exact (xspiPciWriteReg_keeps _ _).wp_bind h₇ (fun _ _ _ => .inl rfl) drop

/-! ## Requests that are turned down -/

section Refused

variable {base : UInt64} (c : Controller ε base)

/-- The control register as the driver reads it.  The checks of a transfer look at it. -/
def controlReg (s : SpiCore ε) : UInt32 := if s.spi.pci then c.control s.device else 0xDEADBEEF

/-- A master with no slave selected, and not in loopback mode: the case of
`XST_SPI_NO_SLAVE`. -/
def NoSlave (s : SpiCore ε) : Prop :=
  controlReg c s &&& xspCrMasterModeMask ≠ 0 ∧ controlReg c s &&& xspCrLoopbackMask = 0 ∧
    s.spi.slaveSelectReg = s.spi.slaveSelectMask

/-- The requests that the checks of `XSpi_Transfer` turn down, but for the busy check.  They
are turned down before the busy flag is set. -/
def Refused (send : Option (ℕ → UInt8)) (byteCount : UInt32) (s : SpiCore ε) : Prop :=
  send = none ∨ byteCount = 0 ∨ s.spi.isReady ≠ xilComponentIsReady ∨
    s.spi.isStarted ≠ xilComponentIsStarted ∨ NoSlave c s

/-- The core does not send by itself.  A transfer leaves it so when it succeeds. -/
def Inhibited (s : SpiCore ε) : Prop := c.control s.device &&& xspCrTransInhibitMask ≠ 0

/-- The lines of all slaves are high. -/
def Deselected (s : SpiCore ε) : Prop :=
  c.slaveSelect s.device &&& s.spi.slaveSelectMask = s.spi.slaveSelectMask

instance (s : SpiCore ε) : Decidable (Inhibited c s) :=
  inferInstanceAs (Decidable (c.control s.device &&& xspCrTransInhibitMask ≠ 0))

instance (s : SpiCore ε) : Decidable (Deselected c s) :=
  inferInstanceAs (Decidable (c.slaveSelect s.device &&& s.spi.slaveSelectMask =
    s.spi.slaveSelectMask))

/-- A step that leaves the instance and the two registers as they were.  The checks are made
of such steps. -/
def Untouched (s s' : SpiCore ε) : Prop :=
  s.spi.baseAddr = base → s'.spi = s.spi ∧ c.control s'.device = c.control s.device ∧
    c.slaveSelect s'.device = c.slaveSelect s.device

instance : IsPreorder (SpiCore ε) (Untouched c) where
  refl _ _ := ⟨rfl, rfl, rfl⟩
  trans s₁ s₂ s₃ h h' hbase := by
    obtain ⟨hspi, hcontrol, hselect⟩ := h hbase
    obtain ⟨hspi', hcontrol', hselect'⟩ := h' (by rw [hspi]; exact hbase)
    exact ⟨hspi'.trans hspi, hcontrol'.trans hcontrol, hselect'.trans hselect⟩

/-- Reads are such steps, -/
theorem xspiPciReadReg_untouched (address : UInt32) :
    Moves (Untouched c) (xspiPciReadReg address) := by
  intro s _
  unfold xspiPciReadReg
  split
  · exact ⟨rfl, c.control_read _ _, c.slaveSelect_read _ _⟩
  · exact ⟨rfl, rfl, rfl⟩

/-- and so is switching the interrupts off, the one write of the checks. -/
theorem xspiPciWriteReg_dgier_untouched (data : UInt64) :
    Moves (Untouched c) (xspiPciWriteReg xspDgierOffset data) := by
  refine moves_modify fun s hbase => ?_
  split
  · rw [hbase]
    exact ⟨rfl, c.control_dgier _ _, c.slaveSelect_dgier _ _⟩
  · exact ⟨rfl, rfl, rfl⟩

/-- The control register is read as it is. -/
theorem xspiGetControlReg_eq (h : s.spi.baseAddr = base) :
    wp xspiGetControlReg (fun value s' => value = controlReg c s ∧ Untouched c s s')
      (fun _ _ => False) s := by
  refine wp_bind.mpr ?_
  by_cases hpci : s.spi.pci = true
  · refine (wp_of_ret (by rw [xspiPciReadReg, if_pos hpci])).mpr ⟨?_, fun _ => ?_⟩
    · rw [controlReg, if_pos hpci, h]
      exact c.read_control _
    · exact ⟨rfl, c.control_read _ _, c.slaveSelect_read _ _⟩
  · refine (wp_of_ret (by rw [xspiPciReadReg, if_neg hpci])).mpr ⟨?_, fun _ => ⟨rfl, rfl, rfl⟩⟩
    rw [controlReg, if_neg hpci]
    rfl

variable {c}

/-- It reads the same behind such a step. -/
theorem Untouched.controlReg_eq (h : Untouched c s s') (hbase : s.spi.baseAddr = base) :
    controlReg c s' = controlReg c s := by
  obtain ⟨hspi, hcontrol, -⟩ := h hbase
  rw [controlReg, controlReg, hspi, hcontrol]

/-- A call on an idle driver: the request is turned down and nothing has changed, or it is
not and `Ends` says how it comes out. -/
theorem xspiTransfer_of_idle (rounds : ℕ) (send : Option (ℕ → UInt8)) (recv : Bool)
    (byteCount : UInt32) (hbase : s.spi.baseAddr = base) (hidle : ¬ Has Busy s) :
    wp (xspiTransfer rounds send recv byteCount)
      (fun status s' =>
        (Refused c send byteCount s ∧ status ≠ .success ∧ status ≠ .deviceBusy ∧
          Untouched c s s') ∨
        (¬ Refused c send byteCount s ∧ Ends status s')) (fun _ _ => True) s := by
  have same : Untouched c s s := refl_of _ s
  refine wp_bind.mpr (wp_gets.mpr ?_)
  cases send with
  | none => exact .inl ⟨.inl rfl, by decide, by decide, same⟩
  | some buffer =>
      refine wp_ite.mpr ⟨fun h => ?_, fun hready => wp_ite.mpr ⟨fun h => ?_, fun hstarted =>
        wp_ite.mpr ⟨fun h => absurd h hidle, fun _ => ?_⟩⟩⟩
      · exact .inl ⟨.inr (h.imp_right .inl), by decide, by decide, same⟩
      · exact .inl ⟨.inr (.inr (.inr (.inl h))), by decide, by decide, same⟩
      -- the request is well formed; what follows reads and writes the registers of the
      -- interrupts only
      obtain ⟨hcount, hready⟩ := not_or.mp hready
      refine wp_bind.mpr (wp_mono (((xspiPciReadReg_untouched c _).bind fun _ =>
        moves_pure _).wp s) (fun globalIntrReg s₁ h₁ => ?_) fun _ _ _ => trivial)
      refine wp_bind.mpr (wp_mono ((xspiPciWriteReg_dgier_untouched c _).wp s₁) (fun _ s₂ h₂ => ?_)
        fun _ _ _ => trivial)
      have h₂ := trans_of (Untouched c) h₁ h₂
      refine wp_bind.mpr (wp_mono (xspiGetControlReg_eq c ((congrArg _ (h₂ hbase).1).trans hbase))
        (fun value s₃ h₃ => ?_) fun _ _ h => h.elim)
      obtain ⟨rfl, h₃⟩ := h₃
      rw [h₂.controlReg_eq hbase]
      have h₃ := trans_of (Untouched c) h₂ h₃
      refine wp_ite.mpr ⟨fun hnone => ?_, fun hsome => ?_⟩
      -- no slave is selected: the interrupts are switched on again if they were, and that is
      -- all
      · have refused : Refused c (some buffer) byteCount s := .inr (.inr (.inr (.inr hnone)))
        refine wp_ite.mpr ⟨fun _ => wp_bind.mpr ?_, fun _ => ?_⟩
        · refine wp_mono ((xspiPciWriteReg_dgier_untouched c _).wp s₃) (fun _ s₄ h₄ => ?_)
            fun _ _ _ => trivial
          exact .inl ⟨refused, by decide, by decide, trans_of _ h₃ h₄⟩
        · exact .inl ⟨refused, by decide, by decide, h₃⟩
      · refine wp_mono (startTransfer_ends _ _ _ _ _ s₃) (fun status s' h => .inr ⟨?_, h⟩)
          fun _ _ h => h
        rintro (h | h | h | h | h)
        · exact nomatch h
        · exact hcount h
        · exact hready h
        · exact hstarted h
        · exact hsome h

/-! ## The driver after a failed transfer -/

variable (c)

/-- A failed transfer is over: the driver is idle, the core holds back, no slave is
selected, and the next request is not turned down as if it were still going on. -/
structure Released (s : SpiCore ε) : Prop where
  idle : s.spi.isBusy = false
  inhibited : Inhibited c s
  deselected : Deselected c s
  transfer : ∀ rounds send recv byteCount,
    (xspiTransfer rounds send recv byteCount s).1 ≠ .ret .deviceBusy
  setSlaveSelect : ∀ slaveMask, (xspiSetSlaveSelect slaveMask s).1 ≠ .ret .deviceBusy

variable {c}

omit [PciDevice ε] in
/-- An idle driver is not busy. -/
theorem not_busy (h : s.spi.isBusy = false) : ¬ Has Busy s := by
  change ¬ s.spi.isBusy = true
  simp [h]

/-- An idle driver does not turn down a transfer as busy, -/
theorem xspiTransfer_ne_deviceBusy (rounds : ℕ) (send : Option (ℕ → UInt8)) (recv : Bool)
    (byteCount : UInt32) (c : Controller ε base) (hbase : s.spi.baseAddr = base)
    (hidle : s.spi.isBusy = false) :
    (xspiTransfer rounds send recv byteCount s).1 ≠ .ret .deviceBusy := by
  intro hbusy
  have hrun : xspiTransfer rounds send recv byteCount s =
      (.ret .deviceBusy, (xspiTransfer rounds send recv byteCount s).2) := Prod.ext hbusy rfl
  rcases (wp_of_ret hrun).mp (xspiTransfer_of_idle (c := c) rounds send recv byteCount hbase
    (not_busy hidle)) with ⟨-, -, hne, -⟩ | ⟨-, h | ⟨h, -⟩⟩
  · exact hne rfl
  · exact nomatch h
  · exact nomatch h

omit [PciDevice ε] in
/-- nor a selection. -/
theorem xspiSetSlaveSelect_ne_deviceBusy (slaveMask : UInt32) (hidle : s.spi.isBusy = false) :
    (xspiSetSlaveSelect slaveMask s).1 ≠ .ret .deviceBusy := by
  have hwp : wp (xspiSetSlaveSelect slaveMask) (fun status _ => status ≠ .deviceBusy)
      (fun _ _ => True) s := by
    refine wp_bind.mpr (wp_gets.mpr (wp_ite.mpr ⟨fun h => absurd h (not_busy hidle), fun _ =>
      wp_ite.mpr ⟨fun _ => wp_pure.mpr (by decide), fun _ => ?_⟩⟩))
    exact wp_bind.mpr (wp_modify.mpr (wp_pure.mpr (by decide)))
  intro hbusy
  exact (wp_of_ret (Prod.ext hbusy rfl)).mp hwp rfl

/-- The flag and the two registers are all it takes. -/
theorem Released.of_idle (c : Controller ε base) (hbase : s.spi.baseAddr = base)
    (hidle : s.spi.isBusy = false) (hinhibited : Inhibited c s) (hdeselected : Deselected c s) :
    Released c s :=
  ⟨hidle, hinhibited, hdeselected,
    fun rounds send recv byteCount =>
      xspiTransfer_ne_deviceBusy rounds send recv byteCount c hbase hidle,
    fun slaveMask => xspiSetSlaveSelect_ne_deviceBusy slaveMask hidle⟩

end Refused

/-- **A failed transfer releases the driver exactly when it was turned down by the checks**
and the core held back, with no slave selected, before.  A transfer that the poll gave up on,
in whatever round, leaves the driver busy.

The condition is made of the checks of the code and of the two registers before the call, so
that it can be told before anything is sent.  `Released` asks for everything that the next
request depends on: the flag, the transmitter, the select lines, and that neither a transfer
nor a selection is turned down as busy.  The device is any that has the two registers, with
any timing. -/
theorem failed_transfer_releases_iff (s : SpiCore ε) (c : Controller ε s.spi.baseAddr)
    (rounds : ℕ) (send : Option (ℕ → UInt8)) (recv : Bool) (byteCount : UInt32) (status : Xst)
    (s' : SpiCore ε) (hidle : s.spi.isBusy = false)
    (hrun : xspiTransfer rounds send recv byteCount s = (.ret status, s'))
    (hfailed : status ≠ .success) :
    Released c s' ↔ Refused c send byteCount s ∧ Inhibited c s ∧ Deselected c s := by
  have hends := (wp_of_ret hrun).mp (xspiTransfer_of_idle (c := c) rounds send recv byteCount rfl
    (not_busy hidle))
  -- turned down, and everything is as before; or not, and then a failure keeps the busy flag
  rcases hends with ⟨hrefused, -, -, huntouched⟩ | ⟨hadmitted, hends⟩
  · obtain ⟨hspi, hcontrol, hselect⟩ := huntouched rfl
    constructor
    · rintro ⟨-, hinhibited, hdeselected, -, -⟩
      rw [Inhibited, hcontrol] at hinhibited
      rw [Deselected, hselect, hspi] at hdeselected
      exact ⟨hrefused, hinhibited, hdeselected⟩
    · rintro ⟨-, hinhibited, hdeselected⟩
      refine .of_idle c (by rw [hspi]) (by rw [hspi]; exact hidle) ?_ ?_
      · rw [Inhibited, hcontrol]
        exact hinhibited
      · rw [Deselected, hselect, hspi]
        exact hdeselected
  · constructor
    · intro hreleased
      rcases hends with h | ⟨-, hbusy⟩
      · exact absurd h hfailed
      · exact absurd hbusy (not_busy hreleased.idle)
    · rintro ⟨hrefused, -, -⟩
      exact absurd hrefused hadmitted

/-- A request for no bytes is turned down and leaves the driver as it was. -/
theorem failed_transfer_releases_no_bytes :
    Released Axi.controller
      (xspiTransfer 1 (some fun _ => 0x05) true 0 (started (Axi.reset false))).2 := by
  have hinhibited : Inhibited Axi.controller (started (Axi.reset false)) := by decide +kernel
  have hdeselected : Deselected Axi.controller (started (Axi.reset false)) := by decide +kernel
  exact (failed_transfer_releases_iff (started (Axi.reset false)) Axi.controller 1
    (some fun _ => 0x05) true 0 .failure _ rfl rfl (by decide)).mpr
    ⟨.inr (.inl rfl), hinhibited, hdeselected⟩

/-- The driver after a status read to a halted core: busy, with the slave selected. -/
def timedOut : SpiCore Axi :=
  (xspiTransfer 3 (some fun _ => 0x05) true 2 (started (Axi.reset true))).2

/-- The status read fails.  The driver stays busy, the core may send and the slave is
selected, and the next requests are turned down. -/
theorem failed_transfer_wedges :
    (started (Axi.reset true)).spi.isBusy = false ∧
      (xspiTransfer 3 (some fun _ => 0x05) true 2 (started (Axi.reset true))).1 = .ret .failure ∧
      timedOut.spi.isBusy = true ∧ ¬ Inhibited Axi.controller timedOut ∧
      ¬ Deselected Axi.controller timedOut ∧
      (xspiTransfer 3 (some fun _ => 0x05) true 2 timedOut).1 = .ret .deviceBusy ∧
      (xspiSetSlaveSelect 1 timedOut).1 = .ret .deviceBusy := by
  decide +kernel

end Kiflash.SpiCore
