import Kiflash.Mirroring
import Kiflash.Spi.Frames

/-!
# The driver in front of a board

What the calls of the flash code do over a `Board`, whatever state the registers of its core
are in to begin with: the startup makes it an idle board, and from then on each transfer is a
frame.

* `Cold` — a driver that has not been started, in front of a board in any state.
* `Cold.bootCalls` — the startup.
* `Waiting.driverTransfer` — a transfer.
* `session` — the startup, and transfers one after the other.

### The slave behind a reset

The process before may have ended anywhere.  A poll that gave up leaves the slave selected,
with a part of a frame on the bus, and no one has set its line high since.  The reset that is
the first access of `XSpi_CfgInitialize` does: the slave then takes the bytes that it has seen
for a frame and acts on them.  `Board.released` computes what comes out of that, and `Cold k`
says that it is `k`.  Every board has such a `k`, so that `Cold` restricts the instance only,
which must not be started; what is said behind the startup is said of the slave as it is then.

### The startup, call by call

The registers are known exactly behind the reset, and each of the following calls changes a
few of them.  `Settled` carries their values through, so that the masks of the control
register are closed terms which are computed: 0x180 after the reset, 0x184 as the master,
0x186 when the core is enabled.  `Primed` says the same of the instance.  The last call makes
the pair a `Waiting` one, for which `Frames` has the transfer.

### Sessions

`serve` is the abstract side: the slave takes the frames one after the other, and its answers
are collected where a receive buffer is given.  `session` says that the driver's transfers are
this, with nothing in between.  The frames must fit a transfer (`Fits`): they are not empty,
and their number of bytes fits into the 32 bits of the `ByteCount`.
-/

open Imperative Imperative.Prog

namespace Kiflash

variable {κ : Type} [SerialSlave κ] {depth : ℕ} {k : κ}

namespace Board

variable {b : Board κ depth}

/-- The slave once its line is high: a frame that was under way is over, and has had its
effect.  The startup begins by raising the line, so this is the slave that it meets. -/
def released (b : Board κ depth) : κ :=
  if b.frame = [] then b.slave else SerialSlave.release b.slave (b.frame.map Prod.fst)

/-- The slave `k` is there, and not selected.  A core that has been reset leaves its slave
so. -/
structure Apart (k : κ) (b : Board κ depth) : Prop where
  slave : b.slave = k
  deselected : ¬ Selected b.slaveSelect

/-- Behind a frame nothing is under way. -/
theorem Apart.released (h : Apart k b) : b.released = k :=
  (if_pos (b.between h.deselected)).trans h.slave

/-- A write of the slave select register that sets the line high leaves the slave of `released`,
whether it was selected or not. -/
theorem apart_select (h : b.released = k) {slaveSelect : UInt32}
    (hdeselected : ¬ Selected slaveSelect) : Apart k (b.select slaveSelect) := by
  rw [Board.select, dif_neg hdeselected]
  exact ⟨h, hdeselected⟩

/-- The control register has no say in it. -/
theorem Apart.setControl (h : Apart k b) (mask : UInt32) : Apart k (b.setControl mask) := by
  rw [Board.setControl, arm]
  split
  · exact ⟨h.slave, h.deselected⟩
  · exact ⟨h.slave, h.deselected⟩

/-- The core has these control and interrupt enable registers, and nothing to do.  The startup
goes from one such state to the next. -/
structure Settled (k : κ) (control : UInt32) (iier : UInt64) (b : Board κ depth) : Prop
    extends Apart k b where
  control : b.control = control
  iier : b.iier = iier
  interrupts : b.interrupts = 0
  tx : b.tx = []
  rx : b.rx = []

/-- The registers of a core behind its reset. -/
theorem Apart.reset (h : Apart k b) : Settled k 0x180 0 b.reset :=
  have hall : ¬ Selected 0xFFFFFFFF := by decide
  have hselect : Apart k (b.select 0xFFFFFFFF) := apart_select h.released hall
  ⟨⟨hselect.slave, hselect.deselected⟩, rfl, rfl, rfl, rfl, rfl⟩

section Settled

variable {control : UInt32} {iier : UInt64}

/-- A write of the control register; the bits that reset the FIFOs clear themselves. -/
theorem Settled.setControl (h : Settled k control iier b) (mask : UInt32) :
    Settled k (mask &&& ~~~fifoResetMask) iier (b.setControl mask) := by
  have hload : Settled k (mask &&& ~~~fifoResetMask) iier (b.loadControl mask) :=
    ⟨⟨h.slave, h.deselected⟩, rfl, h.iier, h.interrupts, by simp [loadControl, h.tx],
      by simp [loadControl, h.rx]⟩
  rw [Board.setControl, arm]
  split
  · exact hload
  · exact ⟨⟨hload.slave, hload.deselected⟩, hload.control, hload.iier, hload.interrupts, hload.tx,
      hload.rx⟩

/-- A write of the interrupt enable register, -/
theorem Settled.setIier (h : Settled k control iier b) (iier' : UInt64) :
    Settled k control iier' ({ b with iier := iier' } : Board κ depth) :=
  ⟨⟨h.slave, h.deselected⟩, h.control, rfl, h.interrupts, h.tx, h.rx⟩

/-- and of the global one. -/
theorem Settled.setDgier (h : Settled k control iier b) (dgier : UInt64) :
    Settled k control iier ({ b with dgier } : Board κ depth) :=
  ⟨⟨h.slave, h.deselected⟩, h.control, h.iier, h.interrupts, h.tx, h.rx⟩

/-- Enabled, master, manual slave select and inhibited. -/
theorem Settled.idle (h : Settled k 0x186 iier b) : Idle k b := by
  have hrunning : Running b.control := by
    rw [h.control]
    decide
  have hinhibited : b.control &&& xspCrTransInhibitMask ≠ 0 := by
    rw [h.control]
    decide
  have hinterrupts : ∀ mask, b.interrupts &&& mask = 0 := by simp [h.interrupts]
  exact ⟨h.slave, h.deselected, hrunning,
    ⟨hinhibited, h.tx, h.rx, not_not_intro (hinterrupts _)⟩, hinterrupts _⟩

end Settled

/-- The interrupts that the driver enables once and for all, and none of them raised. -/
structure Fresh (b : Board κ depth) : Prop where
  interrupts : b.interrupts = 0
  iier : b.iier = xspIntrDftMask.toUInt64

end Board

namespace SpiCore

variable {s : Bus κ depth}

/-! ## The startup -/

/-- A driver that has not been started.  Nothing is said of the registers: the FIFOs may hold bytes
of an earlier process, and the slave may be selected, in the middle of a frame.  It is then `k` that
comes out of this frame. -/
structure Cold (k : κ) (s : Bus κ depth) : Prop where
  stopped : s.spi.isStarted ≠ xilComponentIsStarted
  board : s.device.device.released = k

/-- An instance that has been configured, and not started.  It is where `XSpi_Start` takes
up. -/
structure Primed (k : κ) (control : UInt32) (s : Bus κ depth) : Prop where
  wired : Wired Axi.base s.spi
  ready : s.spi.isReady = xilComponentIsReady
  stopped : s.spi.isStarted = 0
  idle : s.spi.isBusy = false
  width : s.spi.dataWidth = xspDatawidthByte
  slaveOnly : s.spi.slaveOnly = false
  numSlaveBits : s.spi.numSlaveBits = 1
  slaveSelectMask : s.spi.slaveSelectMask = spiSelect
  board : s.device.device.Settled k control 0

/-- The configuration of the SPI core. -/
theorem eq_of_xspiLookupConfig {config : XSpiConfig}
    (hconfig : xspiLookupConfig spiDeviceId = some config) :
    config = ⟨50, Axi.base, true, false, 1, 8, 0⟩ :=
  (Option.some.inj hconfig).symm

/-- The configuration resets the core, whatever its registers are.  The abort raises the
select lines first, so a frame that was under way ends before anything else. -/
theorem Cold.xspiCfgInitialize (h : Cold k s) (hpci : s.spi.pci = true) {config : XSpiConfig}
    (hconfig : xspiLookupConfig spiDeviceId = some config) :
    wp (xspiCfgInitialize config) (fun status s' => status = .success ∧ Primed k 0x180 s')
      never s := by
  obtain rfl := eq_of_xspiLookupConfig hconfig
  have hmask : ((1 : UInt32) <<< (1 : UInt8).toUInt32) - 1 = spiSelect := by decide
  have hdeselected : ¬ Selected (((1 : UInt32) <<< (1 : UInt8).toUInt32) - 1) := by decide
  refine wp_bind.mpr (wp_gets.mpr (wp_ite.mpr
    ⟨fun hstarted => absurd hstarted h.stopped, fun _ => ?_⟩))
  refine wp_bind.mpr (wp_modify.mpr (wp_ite.mpr ⟨fun h => absurd h (by decide), fun _ => ?_⟩))
  have hw : Wired Axi.base (configured ⟨50, Axi.base, true, false, 1, 8, 0⟩ s.spi) := ⟨hpci, rfl⟩
  refine wp_bind.mpr (wp_bind.mpr (wp_bind.mpr (wp_gets.mpr ?_)))
  refine wp_bind.mpr (wp_writeBoard hw _ _ fun t₁ ht₁ => ?_)
  have h₁ : t₁.device.Apart k := by
    rw [ht₁, Board.write_select]
    exact Board.apart_select h.board hdeselected
  refine wp_bind.mpr (wp_bind.mpr (wp_readBoard hw _ fun t₂ ht₂ => wp_pure.mpr ?_))
  have h₂ : t₂.device.Apart k := by
    have hread : t₂.device = t₁.device := ht₂
    rwa [hread]
  refine wp_bind.mpr (wp_writeBoard hw _ _ fun t₃ ht₃ => ?_)
  have h₃ : t₃.device.Apart k := by
    rw [ht₃, Board.write_setControl]
    exact h₂.setControl _
  refine wp_modify.mpr (wp_bind.mpr (wp_modify.mpr ?_))
  refine wp_writeBoard ?_ _ _ fun t₄ ht₄ => ?_
  · exact ⟨hpci, rfl⟩
  exact ⟨rfl, ⟨hpci, rfl⟩, rfl, rfl, rfl, rfl, rfl, rfl, hmask, ht₄ ▸ h₃.reset⟩

section Primed

variable {control : UInt32} {R : Stop → Bus κ depth → Prop}

/-- A change of the core in front of the instance. -/
theorem Primed.device (h : Primed k control s) {t : Traced (Board κ depth)} {control' : UInt32}
    (ht : t.device.Settled k control' 0) : Primed k control' { s with device := t } :=
  ⟨h.wired, h.ready, h.stopped, h.idle, h.width, h.slaveOnly, h.numSlaveBits, h.slaveSelectMask, ht⟩

/-- The options make the core the master, with manual slave select.  The number is the control
register that the reset has left, with the bit of the master. -/
theorem Primed.xspiSetOptions (h : Primed k 0x180 s) :
    wp (xspiSetOptions (xspMasterOption ||| xspManualSselectOption))
      (fun status s' => status = .success ∧ Primed k 0x184 s') never s := by
  refine wp_bind.mpr (wp_gets.mpr (wp_ite.mpr ⟨fun hbusy => ?_, fun _ => wp_ite.mpr
    ⟨fun hslave => ?_, fun _ => ?_⟩⟩))
  · rw [h.idle] at hbusy
    exact absurd hbusy Bool.false_ne_true
  · rw [h.slaveOnly] at hslave
    exact absurd hslave.2 Bool.false_ne_true
  refine wp_bind.mpr (wp_readControl h.wired fun t ht => wp_bind.mpr ?_)
  refine wp_writeControl (s := { s with device := t }) h.wired _ fun t' ht' => ⟨rfl, h.device ?_⟩
  have hboard : t.device.Settled k 0x180 0 := ht ▸ h.board
  rw [ht', h.board.control]
  exact hboard.setControl 0x184

/-- The slave is noted in the instance, and not selected yet. -/
theorem Primed.xspiSetSlaveSelect (h : Primed k control s) :
    wp (xspiSetSlaveSelect spiSelect) (fun status s' => status = .success ∧ Primed k control s' ∧
      s'.spi.slaveSelectReg = ~~~spiSelect) never s := by
  refine wp_bind.mpr (wp_gets.mpr (wp_ite.mpr ⟨fun hbusy => ?_, fun _ => wp_ite.mpr
    ⟨fun hmany => ?_, fun _ => ?_⟩⟩))
  · rw [h.idle] at hbusy
    exact absurd hbusy Bool.false_ne_true
  · rw [h.numSlaveBits] at hmany
    exact absurd hmany (by decide)
  · exact ⟨rfl, ⟨⟨h.wired.pci, h.wired.baseAddr⟩, h.ready, h.stopped, h.idle, h.width, h.slaveOnly,
      h.numSlaveBits, h.slaveSelectMask, h.board⟩, rfl⟩

/-- The start enables the core, and empties its FIFOs.  It has the interrupts off again at its
end, so the transfers behind it are in the polled mode. -/
theorem Primed.xspiStart (h : Primed k 0x184 s) (hreg : s.spi.slaveSelectReg = ~~~spiSelect) :
    wp xspiStart (fun status s' => status = .success ∧ Waiting k s' ∧ s'.device.device.Fresh)
      never s := by
  have hstopped : s.spi.isStarted ≠ xilComponentIsStarted := by
    rw [h.stopped]
    decide
  refine wp_bind.mpr (wp_gets.mpr (wp_ite.mpr ⟨fun hno => absurd h.ready hno, fun _ => wp_ite.mpr
    ⟨fun hyes => absurd hyes hstopped, fun _ => ?_⟩⟩))
  refine wp_bind.mpr (wp_bind.mpr (wp_readBoard h.wired _ fun t₁ ht₁ => ?_))
  -- the interrupt enable register is read and written back with the default interrupts
  have h₁ : t₁.device.Settled k 0x184 0 := by
    have hread : t₁.device = s.device.device := ht₁
    rw [hread]
    exact h.board
  refine wp_writeBoard (s := { s with device := t₁ }) h.wired _ _ fun t₂ ht₂ =>
    wp_bind.mpr (wp_modify.mpr (wp_bind.mpr ?_))
  have h₂ : t₂.device.Settled k 0x184 xspIntrDftMask.toUInt64 := by
    have hvalue : s.device.device.iier ||| (xspIntrDftMask &&& xspIntrAll).toUInt64 =
        xspIntrDftMask.toUInt64 := by
      rw [h.board.iier]
      decide
    have hwritten : t₂.device = { t₁.device with iier := xspIntrDftMask.toUInt64 } := by
      rw [ht₂, ← hvalue]
      rfl
    rw [hwritten]
    exact h₁.setIier _
  have hw : ∀ t : Traced (Board κ depth), Wired Axi.base (SpiCore.mk
      { s.spi with isStarted := xilComponentIsStarted } t).spi :=
    fun _ => ⟨h.wired.pci, h.wired.baseAddr⟩
  refine wp_readControl (hw t₂) fun t₃ ht₃ => wp_bind.mpr ?_
  refine wp_writeControl (hw t₃) _ fun t₄ ht₄ => wp_bind.mpr ?_
  -- then the control register, with the bits that reset the FIFOs and the one that enables
  have h₄ : t₄.device.Settled k 0x186 xspIntrDftMask.toUInt64 := by
    have h₃ : t₃.device.Settled k 0x184 xspIntrDftMask.toUInt64 := ht₃ ▸ h₂
    rw [ht₄, h₂.control]
    exact h₃.setControl 0x1E6
  refine wp_writeBoard (hw t₄) _ _ fun t₅ ht₅ => wp_bind.mpr ?_
  refine wp_writeBoard (hw t₅) _ _ fun t₆ ht₆ => wp_pure.mpr ?_
  -- and the global enable, off
  have hboard : t₆.device = { t₄.device with dgier := 0 } := by
    rw [ht₆, ht₅]
    rfl
  have h₆ : t₆.device.Settled k 0x186 xspIntrDftMask.toUInt64 := by
    rw [hboard]
    exact h₄.setDgier 0
  have hoff : t₆.device.Polled := by
    rw [hboard]
    exact (by decide : (0 : UInt64) ≠ xspGintrEnableMask)
  exact ⟨rfl, ⟨hw t₆, h.ready, rfl, h.idle, h.width, h.numSlaveBits, h.slaveSelectMask, hreg,
    h₆.idle, hoff⟩, h₆.interrupts, h₆.iier⟩

end Primed

/-- What a call without loops comes to. -/
theorem exists_statusOf {m : Prog (Bus κ depth) Xst} {Q : Xst → Bus κ depth → Prop}
    (h : wp m Q never s) : Q (statusOf (m s)).1 (statusOf (m s)).2 := by
  obtain ⟨status, s', hrun, hQ⟩ := exists_ret_of_wp h
  rw [hrun]
  exact hQ

/-- **The startup.**  Whatever the registers of the core are, the driver calls of
`System_init_startup` make it an idle core.  In front of it is the slave that was there, behind the
frame that may have been under way: the first access of `XSpi_CfgInitialize` sets its line high. -/
theorem Cold.bootCalls (h : Cold k s) {config : XSpiConfig}
    (hconfig : xspiLookupConfig spiDeviceId = some config) :
    (bootCalls config s).1 = .success ∧ Waiting k (bootCalls config s).2 ∧
      (bootCalls config s).2.device.device.Fresh := by
  have h₀ : Cold k (XSpiDriver.xspiPciInitialize s) := ⟨h.stopped, h.board⟩
  obtain ⟨hok₁, h₁⟩ := exists_statusOf (h₀.xspiCfgInitialize rfl hconfig)
  obtain ⟨hok₂, h₂⟩ := exists_statusOf h₁.xspiSetOptions
  obtain ⟨hok₃, h₃, hreg⟩ := exists_statusOf h₂.xspiSetSlaveSelect
  obtain ⟨-, h₄, hfresh⟩ := exists_statusOf (h₃.xspiStart hreg)
  rw [Kiflash.bootCalls, thenCall_of_success hok₁, thenCall_of_success hok₂,
    thenCall_of_success hok₃]
  exact ⟨rfl, h₄, hfresh⟩

/-! ## Behind the startup -/

section Counts

variable {frame : List UInt8} (hsize : frame.length < UInt32.size)
include hsize

/-- A length below 2³² is its own byte count, -/
theorem toNat_ofNat_length : (UInt32.ofNat frame.length).toNat = frame.length :=
  Nat.mod_eq_of_lt hsize

/-- which is not zero unless the frame is empty. -/
theorem ofNat_length_ne_zero (hsome : frame ≠ []) : UInt32.ofNat frame.length ≠ 0 := by
  intro hzero
  have hcount := toNat_ofNat_length hsize
  rw [hzero] at hcount
  exact hsome (List.eq_nil_of_length_eq_zero hcount.symm)

/-- The bytes of a transfer whose buffer is a list. -/
theorem frameOf_getD : frameOf (fun i => frame.getD i 0) (UInt32.ofNat frame.length) = frame := by
  rw [frameOf, toNat_ofNat_length hsize]
  exact List.ext_getElem (by simp) fun i _ hi => by simp [hi]

end Counts

namespace Waiting

variable (h : Waiting k s)
include h

/-- A driver that has been started is not started again.  It is refused by the configuration,
which touches nothing. -/
theorem bootCalls (config : XSpiConfig) :
    (bootCalls config s).1 ≠ .success ∧ Waiting k (bootCalls config s).2 := by
  have hpci : Waiting k (XSpiDriver.xspiPciInitialize s) :=
    ⟨⟨rfl, h.wired.baseAddr⟩, h.ready, h.started, h.idle, h.width, h.numSlaveBits,
      h.slaveSelectMask, h.slaveSelectReg, h.board, h.mode⟩
  have hrefused : XSpiDriver.xspiCfgInitialize config (XSpiDriver.xspiPciInitialize s) =
      (.deviceIsStarted, XSpiDriver.xspiPciInitialize s) := by
    change statusOf (xspiCfgInitialize config _) = _
    rw [xspiCfgInitialize_of_started config hpci.started]
    rfl
  have hstarted : Xst.deviceIsStarted ≠ .success := by decide
  have hfailure : Xst.failure ≠ .success := by decide
  rw [Kiflash.bootCalls, thenCall_of_ne (by rwa [hrefused]), hrefused]
  exact ⟨hfailure, hpci⟩

/-- The slave is noted again, which changes nothing.  The image functions call it in front of
each of their page loops. -/
theorem xspiSetSlaveSelect :
    (XSpiDriver.xspiSetSlaveSelect spiSelect s).1 = .success ∧
      Waiting k (XSpiDriver.xspiSetSlaveSelect spiSelect s).2 := by
  have hcall : wp (SpiCore.xspiSetSlaveSelect spiSelect)
      (fun status s' => status = .success ∧ Waiting k s') never s := by
    refine wp_bind.mpr (wp_gets.mpr (wp_ite.mpr ⟨fun hbusy => ?_, fun _ => wp_ite.mpr
      ⟨fun hmany => ?_, fun _ => ⟨rfl, ?_⟩⟩⟩))
    · rw [h.idle] at hbusy
      exact absurd hbusy Bool.false_ne_true
    · rw [h.numSlaveBits] at hmany
      exact absurd hmany (by decide)
    · exact ⟨⟨h.wired.pci, h.wired.baseAddr⟩, h.ready, h.started, h.idle, h.width, h.numSlaveBits,
        h.slaveSelectMask, rfl, h.board, h.mode⟩
  exact exists_statusOf hcall

/-- A start of a started driver is none. -/
theorem xspiStart : Waiting k (XSpiDriver.xspiStart s).2 := by
  change Waiting k (statusOf (SpiCore.xspiStart s)).2
  rw [statusOf_snd, xspiStart_of_started h.started]
  exact h

/-- The next transfer begins with its own receive buffer. -/
theorem forget :
    Waiting k { s with spi := { s.spi with recvBuffer := s.spi.recvBuffer.map fun _ => [] } } :=
  ⟨⟨h.wired.pci, h.wired.baseAddr⟩, h.ready, h.started, h.idle, h.width, h.numSlaveBits,
    h.slaveSelectMask, h.slaveSelectReg, h.board, h.mode⟩

/-- **A transfer is a frame**, as the flash code calls it: with a list for the buffer, and
with the stored bytes as its result.  The status is success, and what comes in is what the
slave answers to this frame. -/
theorem driverTransfer (hdepth : 0 < depth) {rounds : ℕ} {frame : List UInt8} (hsome : frame ≠ [])
    (hrounds : frame.length < rounds) (hsize : frame.length < UInt32.size) (recv : Bool) :
    (XSpiDriver.xspiTransfer rounds frame recv s).1 =
        some (.success, if recv then SerialSlave.replies k [] frame else []) ∧
      Waiting (SerialSlave.release k frame) (XSpiDriver.xspiTransfer rounds frame recv s).2 := by
  have hcount := toNat_ofNat_length hsize
  have hbytes := ofNat_length_ne_zero hsize hsome
  have hframe := frameOf_getD hsize
  obtain ⟨status, s', hrun, rfl, h', hstored⟩ := exists_ret_of_wp <| h.forget.transfer hdepth hbytes
    (hcount.symm ▸ hrounds) (fun i => frame.getD i 0) recv
  rw [hframe] at h' hstored
  simp only [XSpiDriver.xspiTransfer]
  rw [hrun]
  refine ⟨?_, h'⟩
  change some (Xst.success, s'.spi.recvBuffer.getD []) = _
  rw [hstored]
  cases recv with
  | false => rfl
  | true => rfl

end Waiting

/-- A driver that has not been started sends nothing.  Its registers are not even read.  The
checks of the instance come first, and one of them turns the transfer down. -/
theorem Cold.driverTransfer (h : Cold k s) (rounds : ℕ) (frame : List UInt8) (recv : Bool) :
    ∃ status s', XSpiDriver.xspiTransfer rounds frame recv s = (some (status, []), s') ∧
      status ≠ .success ∧ Cold k s' := by
  have hcold :
      Cold k { s with spi := { s.spi with recvBuffer := s.spi.recvBuffer.map fun _ => [] } } :=
    ⟨h.stopped, h.board⟩
  have hrefused : wp (xspiTransfer rounds (some fun i => frame.getD i 0) recv
      (UInt32.ofNat frame.length)) (fun status s' => status ≠ .success ∧ Cold k s' ∧
        s'.spi.recvBuffer.getD [] = []) never
      { s with spi := { s.spi with recvBuffer := s.spi.recvBuffer.map fun _ => [] } } := by
    have hnothing : (s.spi.recvBuffer.map fun _ => ([] : List UInt8)).getD [] = [] := by
      cases s.spi.recvBuffer with
      | none => rfl
      | some _ => rfl
    have hfailure : Xst.failure ≠ .success := by decide
    have hstopped : Xst.deviceIsStopped ≠ .success := by decide
    refine wp_bind.mpr (wp_gets.mpr (wp_ite.mpr ⟨fun _ => ⟨hfailure, hcold, hnothing⟩, fun _ =>
      wp_ite.mpr ⟨fun _ => ⟨hstopped, hcold, hnothing⟩, fun hstarted => ?_⟩⟩))
    exact absurd (not_not.mp hstarted) h.stopped
  obtain ⟨status, s', hrun, hne, h', hstored⟩ := exists_ret_of_wp hrefused
  refine ⟨status, s', ?_, hne, h'⟩
  simp only [XSpiDriver.xspiTransfer]
  rw [hrun]
  exact congrArg (fun stored => (some (status, stored), s')) hstored

/-! ## One transfer after the other -/

/-- The answers to the transfers, each with its frame and with or without a receive buffer.
It is any session of any driver. -/
def transfers {σ : Type} [XSpiDriver σ] (rounds : ℕ) :
    List (List UInt8 × Bool) → σ → List (Option (Xst × List UInt8)) × σ
  | [], d => ([], d)
  | (frame, recv) :: requests, d =>
    let first := XSpiDriver.xspiTransfer rounds frame recv d
    let others := transfers rounds requests first.2
    (first.1 :: others.1, others.2)

/-- The same of the slave alone, with no driver and no core in between. -/
def serve : List (List UInt8 × Bool) → κ → List (List UInt8) × κ
  | [], k => ([], k)
  | (frame, recv) :: requests, k =>
    let others := serve requests (SerialSlave.release k frame)
    ((if recv then SerialSlave.replies k [] frame else []) :: others.1, others.2)

/-- The frames that fit into a transfer: not empty, and short enough for the rounds that are
followed. -/
def Fits (rounds : ℕ) (requests : List (List UInt8 × Bool)) : Prop :=
  ∀ request ∈ requests, request.1 ≠ [] ∧ request.1.length < rounds ∧
    request.1.length < UInt32.size

/-- **Transfers one after the other.**  The induction is on the requests: each leaves the
driver waiting, in front of the slave behind its frame.  The answers are those of the slave
alone. -/
theorem Waiting.transfers (hdepth : 0 < depth) {rounds : ℕ} {requests : List (List UInt8 × Bool)}
    (hfits : Fits rounds requests) (h : Waiting k s) :
    (transfers rounds requests s).1 =
        (serve requests k).1.map (fun stored => some (.success, stored)) ∧
      Waiting (serve requests k).2 (SpiCore.transfers rounds requests s).2 := by
  induction requests generalizing k s with
  | nil => exact ⟨rfl, h⟩
  | cons request requests ih =>
      obtain ⟨hsome, hrounds, hsize⟩ := hfits request List.mem_cons_self
      obtain ⟨hanswer, hnext⟩ := h.driverTransfer hdepth hsome hrounds hsize request.2
      obtain ⟨hothers, hend⟩ := ih (fun r hr => hfits r (List.mem_cons_of_mem _ hr)) hnext
      refine ⟨?_, hend⟩
      rw [serve, List.map_cons, SpiCore.transfers]
      exact List.cons_eq_cons.mpr ⟨hanswer, hothers⟩

/-- **Nothing is lost, repeated or reordered on the bus.**  From any state of the core's
registers, the startup succeeds, each transfer behind it succeeds and stores what the slave
answers to its frame, and in the end the slave is where these frames alone, in this order,
take it.

If a timeout has left the slave selected, `k` is what comes out of the frame that it was in,
and the first transfer does not become a part of that frame.  `hfits` keeps to frames that a
transfer accepts: not empty, and with a length that 32 bits hold.  The depth of the FIFOs and
the slave are arbitrary. -/
theorem session (hdepth : 0 < depth) {config : XSpiConfig}
    (hconfig : xspiLookupConfig spiDeviceId = some config) {rounds : ℕ}
    {requests : List (List UInt8 × Bool)} (hfits : Fits rounds requests) (h : Cold k s) :
    (bootCalls config s).1 = .success ∧
      (transfers rounds requests (bootCalls config s).2).1 =
        (serve requests k).1.map (fun stored => some (.success, stored)) ∧
      (transfers rounds requests (bootCalls config s).2).2.device.device.slave =
        (serve requests k).2 := by
  obtain ⟨hok, hwaiting, -⟩ := h.bootCalls hconfig
  obtain ⟨hanswers, hend⟩ := hwaiting.transfers hdepth hfits
  exact ⟨hok, hanswers, hend.board.slave⟩

/-- A slave that answers each byte with the one before it, and remembers its frames. -/
structure Delay where
  frames : List (List UInt8)

instance : SerialSlave Delay where
  reply _ before := before.getLastD 0
  release k frame := ⟨k.frames ++ [frame]⟩

/-- A board in the middle of something, whose slave is not selected.  Its registers and queues
are as far from a reset as can be. -/
def disordered (k : κ) : Board κ depth where
  control := 0x1E
  slaveSelect := 0xFFFFFFFF
  interrupts := 0x3FFF
  dgier := xspGintrEnableMask
  iier := 0
  tx := [1, 2]
  rx := [3]
  pending := (⟨7, by decide⟩, 0)
  schedule := [(⟨98, by decide⟩, 0), (⟨2, by decide⟩, 0x3FFF)]
  slave := k
  earlier := [(4, 5)]
  frame := []
  noReset := by decide
  between _ := rfl
  answered := SerialSlave.answered_nil k

/-- It is cold, with the slave as it is. -/
theorem cold_disordered (k : κ) (depth : ℕ) :
    Cold k (blank ⟨disordered k, []⟩ : Bus κ depth) :=
  have hstopped : (0 : UInt32) ≠ xilComponentIsStarted := by decide
  ⟨hstopped, if_pos rfl⟩

/-- A board that was left in the middle of a frame: a timeout releases no slave. -/
def interrupted (k : κ) : Board κ depth where
  control := 0x6
  slaveSelect := 0xFFFFFFFE
  interrupts := 0x3FFF
  dgier := xspGintrEnableMask
  iier := 0
  tx := [1, 2]
  rx := [3]
  pending := (⟨7, by decide⟩, 0)
  schedule := [(⟨98, by decide⟩, 0), (⟨2, by decide⟩, 0x3FFF)]
  slave := k
  earlier := [(4, 5)]
  frame := [(9, SerialSlave.reply k [])]
  noReset := by decide
  between hno := absurd (by decide) hno
  answered := rfl

/-- Its frame is over with the startup. -/
theorem cold_interrupted (k : κ) (depth : ℕ) :
    Cold (SerialSlave.release k [9]) (blank ⟨interrupted k, []⟩ : Bus κ depth) :=
  have hstopped : (0 : UInt32) ≠ xilComponentIsStarted := by decide
  ⟨hstopped, if_neg (List.cons_ne_nil _ _)⟩

/-- The driver behind its startup. -/
def delayed : Bus Delay 2 :=
  (bootCalls ⟨50, Axi.base, true, false, 1, 8, 0⟩ (blank ⟨interrupted ⟨[]⟩, []⟩)).2

/-- Two frames, behind one that was interrupted. -/
theorem session_delay :
    (transfers 4 [([6], false), ([3, 1, 4], true)] delayed).1 =
        [some (.success, []), some (.success, [0, 3, 1])] ∧
      (transfers 4 [([6], false), ([3, 1, 4], true)] delayed).2.device.device.slave =
        ⟨[[9], [6], [3, 1, 4]]⟩ := by
  have hfits : Fits 4 [([6], false), ([3, 1, 4], true)] := by
    simp [Fits, UInt32.size]
  have hconfig : xspiLookupConfig spiDeviceId = some ⟨50, Axi.base, true, false, 1, 8, 0⟩ := rfl
  obtain ⟨-, hanswers, hslave⟩ :=
    session (by decide) hconfig hfits (cold_interrupted (⟨[]⟩ : Delay) 2)
  rw [delayed, hanswers, hslave]
  exact ⟨rfl, rfl⟩

end SpiCore

end Kiflash
