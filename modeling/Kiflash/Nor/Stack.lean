import Kiflash.Nor.Device
import Kiflash.Spi.Session

/-!
# The flash on the bus of the core

The flash of `Nor p`, command by command, is a serial slave, byte by byte.  The flash code
over `XSpi_Transfer`, its register accesses, a core with FIFOs and this slave does what it
does over `Nor p`.

* `SerialSlave (Nor p)` — the flash behind its select line.
* `Stacked` — a state of the registers and the command level that stands for the same.
* `stacked` — the register level and the command level answer alike.
* `runs_through_registers` — every run from a fresh process does the same on both levels.

### How a slave becomes a command

On the bus a flash sees single bytes while it is selected, and answers each with a byte before
it knows the rest.  It obeys when the select line is released.  That the bytes in between make
up the answer of the command level is `Nor.replies_eq_answer`; it needs that the answer at a
place depends on the frame up to that place only.

### What the levels share and where they differ

The core loses no frame, so the flash that it is compared with has only transfers that
succeed.  An empty frame is turned down by `XSpi_Transfer` and accepted by `Nor`, so the runs
that are compared send none.  The polling loops of the driver need at most one round for each
byte, so more rounds are followed than the write buffer has bytes.

Before the startup the registers of the core hold anything, and a frame may be under way;
`Cold` says so.  The startup resets the core, and with that the flash obeys whatever it was
sent.
-/

open Imperative Imperative.Prog

namespace Kiflash

open SpiCore

variable {p : NorParams} {depth : ℕ}

/-! ## The flash as a slave -/

/-- The flash is shifted one byte after the other, and obeys at the end of the frame. -/
instance : SerialSlave (Nor p) where
  reply d
    | [] => p.noise d.clock 0
    | cmd :: args =>
      if cmd = commandStatusregRead then d.statusByte
      else if cmd = command4byteQuadOutputFastRead ∧ d.wip = 0 ∧ 8 ≤ args.length then
        d.mem ((address (args.take 4) + (args.length - 8)) % flashSize)
      else p.noise d.clock (args.length + 1)
  release d frame := (d.execute frame).tick

namespace Nor

/-- What comes in while a frame goes out.  The reply to a byte depends on the bytes before it
only, and not on those that are still to come. -/
theorem replies_eq_answer (d : Nor p) (frame : List UInt8) :
    SerialSlave.replies d [] frame = d.answer frame := by
  rw [SerialSlave.replies_eq_map]
  cases frame with
  | nil => rfl
  | cons cmd args =>
      rw [answer, List.length_cons]
      by_cases hstatus : cmd = commandStatusregRead
      · rw [if_pos hstatus, List.range_succ_eq_map, List.map_cons, List.map_map,
          List.map_const', ← List.length_range (n := args.length), ← List.map_const']
        simp [SerialSlave.reply, hstatus, Function.comp_def]
      rw [if_neg hstatus]
      refine List.map_congr_left fun i hi => ?_
      cases i with
      | zero => simp [SerialSlave.reply]
      | succ i =>
          have hi : i ≤ args.length := Nat.le_of_lt_succ (Nat.lt_of_succ_lt (Nat.succ_lt_succ
            (Nat.lt_of_succ_lt_succ (List.mem_range.mp hi))))
          have hlength : (args.take i).length = i := List.length_take_of_le hi
          have htake : 8 ≤ i → (args.take i).take 4 = args.take 4 := fun h => by
            rw [List.take_take, min_eq_left (by omega)]
          simp only [List.nil_append, List.take_succ_cons, SerialSlave.reply, if_neg hstatus, hlength]
          by_cases hdata : 8 ≤ i
          · simp [hdata, htake hdata]
          · simp [hdata]

end Nor

/-- The startup is refused by a driver that has been started. -/
theorem Nor.bootCalls_of_started {d : Nor p} (h : d.started = true) (configPtr : XSpiConfig) :
    bootCalls configPtr d = (.failure, d) := by
  have hrefused : XSpiDriver.xspiCfgInitialize configPtr d = (.deviceIsStarted, d) :=
    Prod.ext (if_pos h) rfl
  change thenCall (XSpiDriver.xspiCfgInitialize configPtr) _ d = _
  have hne : Xst.deviceIsStarted ≠ .success := by decide
  rw [thenCall_of_ne (by rwa [hrefused]), hrefused]

/-- A driver that has not been started is started. -/
theorem Nor.bootCalls_of_stopped {d : Nor p} (h : d.started = false) (configPtr : XSpiConfig) :
    bootCalls configPtr d = (.success, { d with started := true }) := by
  have haccepted : XSpiDriver.xspiCfgInitialize configPtr d = (.success, d) :=
    Prod.ext (if_neg (by rw [h]; decide)) rfl
  change thenCall (XSpiDriver.xspiCfgInitialize configPtr) (fun d => (.success, d.start.2)) d = _
  rw [thenCall_of_success (by rw [haccepted]), haccepted]
  change (Xst.success, d.start.2) = _
  rw [start, if_neg (by rw [h]; decide)]

/-! ## Two levels of one driver -/

/-- The registers and the commands: a started driver between two transfers, or one that has
not been started. -/
def Stacked (booted : Bool) (s : Bus (Nor p) depth) (d : Nor p) : Prop :=
  d.started = true ∧ Waiting d s ∨
    booted = false ∧ d.started = false ∧ Cold { d with started := true } s

namespace Stacked

variable {booted : Bool} {s : Bus (Nor p) depth} {d : Nor p}

/-- One transfer.  The exchange of the polled loop delivers the frame byte by byte, and the
release of the select line makes it a command. -/
theorem transfer (h : Stacked booted s d) (hends : ∀ n, p.ends n = .done) (hdepth : 0 < depth)
    {rounds : ℕ} {frame : List UInt8} (hsome : frame ≠ []) (hrounds : frame.length < rounds)
    (hsize : frame.length < UInt32.size) (recv : Bool) :
    SameAnswer (Stacked booted) (XSpiDriver.xspiTransfer rounds frame recv s)
      (XSpiDriver.xspiTransfer rounds frame recv d) := by
  rcases h with ⟨hstarted, h⟩ | ⟨rfl, hstopped, h⟩
  · obtain ⟨hanswer, h'⟩ := h.driverTransfer hdepth hsome hrounds hsize recv
    have hrun : XSpiDriver.xspiTransfer rounds frame recv s =
        (some (.success, if recv then d.answer frame else []), _) :=
      Prod.ext (by rw [hanswer, d.replies_eq_answer]) rfl
    have hrun' : XSpiDriver.xspiTransfer rounds frame recv d =
        (some (.success, if recv then d.answer frame else []), (d.execute frame).tick) := by
      change d.transfer frame recv = _
      rw [Nor.transfer, if_pos hstarted, hends]
    rw [hrun, hrun']
    exact ⟨Iff.rfl, rfl, .inl ⟨(d.execute_started frame).trans hstarted, h'⟩⟩
  · obtain ⟨status, s', hrun, hne, h'⟩ := h.driverTransfer rounds frame recv
    have hrun' : XSpiDriver.xspiTransfer rounds frame recv d = (some (.deviceIsStopped, []), d) :=
      if_neg (by rw [hstopped]; decide)
    rw [hrun, hrun']
    have hno : Xst.deviceIsStopped ≠ .success := by decide
    exact ⟨iff_of_false hne hno, rfl, .inr ⟨rfl, hstopped, h'⟩⟩

/-- The startup: refused on both levels, or carried out on both. -/
theorem boot (h : Stacked booted s d) {configPtr : XSpiConfig}
    (hconfig : xspiLookupConfig spiDeviceId = some configPtr) :
    SameVerdict (bootCalls configPtr s).1 (bootCalls configPtr d).1 ∧
      Stacked booted (bootCalls configPtr s).2 (bootCalls configPtr d).2 ∧
      ((bootCalls configPtr s).1 = .success →
        Stacked true (bootCalls configPtr s).2 (bootCalls configPtr d).2) := by
  rcases h with ⟨hstarted, h⟩ | ⟨rfl, hstopped, h⟩
  · obtain ⟨hne, h'⟩ := h.bootCalls configPtr
    rw [Nor.bootCalls_of_started hstarted]
    have hno : Xst.failure ≠ .success := by decide
    exact ⟨iff_of_false hne hno, .inl ⟨hstarted, h'⟩, fun hok => absurd hok hne⟩
  · obtain ⟨hok, h', -⟩ := h.bootCalls hconfig
    rw [Nor.bootCalls_of_stopped hstopped]
    exact ⟨iff_of_true hok rfl, .inl ⟨rfl, h'⟩, fun _ => .inl ⟨rfl, h'⟩⟩

/-- The registers of the ICAP core are not on the board. -/
theorem write_icap {register : UInt64} (h : register ∈ [icapWriteFifo, icapWriteControl])
    (data : UInt64) (b : Board (Nor p) depth) : b.write (icapBaseAddr + register) data = b := by
  rcases List.mem_pair.mp h with rfl | rfl
  · exact rfl
  · exact rfl

/-- A write to the ICAP core reaches neither.  The flash is behind another core, and the
relation does not look at the ICAP core. -/
theorem write (h : Stacked booted s d) {register : UInt64}
    (hregister : register ∈ [icapWriteFifo, icapWriteControl]) (data : UInt64) :
    Stacked booted (XSpiDriver.pciWriteReg (icapBaseAddr + register) data s)
      (XSpiDriver.pciWriteReg (icapBaseAddr + register) data d) := by
  have hboard : ∃ t : Traced (Board (Nor p) depth), t.device = s.device.device ∧
      XSpiDriver.pciWriteReg (icapBaseAddr + register) data s = { s with device := t } := by
    by_cases hpci : s.spi.pci = true
    · exact ⟨_, write_icap hregister data s.device.device, if_pos hpci⟩
    · exact ⟨s.device, rfl, if_neg hpci⟩
  obtain ⟨t, ht, hrun⟩ := hboard
  rw [hrun]
  rcases h with ⟨hstarted, h⟩ | ⟨rfl, hstopped, h⟩
  · exact .inl ⟨hstarted, h.wired, h.ready, h.started, h.idle, h.width, h.numSlaveBits,
      h.slaveSelectMask, h.slaveSelectReg, ht ▸ h.board, ht ▸ h.mode⟩
  · exact .inr ⟨rfl, hstopped, h.stopped, ht ▸ h.board⟩

end Stacked

/-- The register level and the command level answer alike.  This is the simulation that
carries the results about commands down to the registers: each call of the driver's interface
keeps the relation and returns the same. -/
def stacked (hends : ∀ n, p.ends n = .done) (hdepth : 0 < depth) {rounds : ℕ}
    (hrounds : bufferSize < rounds) : Mirroring (Bus (Nor p) depth) (Nor p) rounds where
  rel := Stacked
  anyway h := .inl (h.resolve_right fun hno => absurd hno.1.symm Bool.false_ne_true)
  empty := False
  transfer booted frame recv _ _ hsome hlength h :=
    have hsize : bufferSize < UInt32.size := by decide
    h.transfer hends hdepth (hsome.resolve_right id) (Nat.lt_of_le_of_lt hlength hrounds)
      (Nat.lt_of_le_of_lt hlength hsize) recv
  select h := by
    obtain ⟨hstarted, h⟩ := h.resolve_right fun hno => absurd hno.1.symm Bool.false_ne_true
    obtain ⟨hok, h'⟩ := h.xspiSetSlaveSelect
    exact ⟨iff_of_true hok rfl, .inl ⟨hstarted, h'⟩⟩
  start {_ d} h := by
    obtain ⟨hstarted, h⟩ := h.resolve_right fun hno => absurd hno.1.symm Bool.false_ne_true
    have hrun : XSpiDriver.xspiStart d = (.deviceIsStarted, d) := if_pos hstarted
    rw [hrun]
    exact .inl ⟨hstarted, h.xspiStart⟩
  boot _ _ _ _ hconfig h := h.boot hconfig
  write _ _ data _ _ hregister h := h.write hregister data

/-- The flash on the bus of a board, behind a frame that may be under way.  It is what the
relation compares with the flash of the command level. -/
def flashOf (s : Bus (Nor p) depth) : Nor p := s.device.device.released

/-- The flash on the bus is that of the command level. -/
theorem Stacked.flash {booted : Bool} {s : Bus (Nor p) depth} {d : Nor p}
    (h : Stacked booted s d) : flashOf s = { d with started := true } := by
  rcases h with ⟨hstarted, h⟩ | ⟨-, -, h⟩
  · have happart : s.device.device.Apart d := ⟨h.board.slave, h.board.deselected⟩
    rw [flashOf, happart.released, ← hstarted]
  · exact h.board

/-- **The levels of the stack agree.**  Whatever the registers of the core hold when a process
comes up in front of it, every run of operations returns on the register level what it returns on
the command level, or stops where it does; it leaves the same static variables and the same
flash, and what can be seen of it on the way is the same.  The slave may be selected when the process
comes up: `d` is then the flash behind the frame that was under way.  `hframed` keeps out the calls
of `SpiFlashRead` and `SpiFlashWrite_File` whose 32-bit length sum is zero, because `XSpi_Transfer`
turns an empty frame down and `Nor` does not. -/
theorem runs_through_registers {env : Env} (hrounds : bufferSize < env.rounds) (hdepth : 0 < depth)
    (hends : ∀ n, p.ends n = .done) {s : Bus (Nor p) depth} {d : Nor p}
    (hcold : Cold { d with started := true } s) (hstopped : d.started = false)
    {operations : List Operation} (hframed : ∀ operation ∈ operations, operation.Framed) :
    (statuses env operations (World.fresh s)).1 = (statuses env operations (World.fresh d)).1 ∧
      (statuses env operations (World.fresh s)).2.statics =
        (statuses env operations (World.fresh d)).2.statics ∧
      (statuses env operations (World.fresh s)).2.events.map Event.seen =
        (statuses env operations (World.fresh d)).2.events.map Event.seen ∧
      flashOf (statuses env operations (World.fresh s)).2.bus =
        { (statuses env operations (World.fresh d)).2.bus with started := true } := by
  have hrel : (stacked hends hdepth hrounds).rel false s d := .inr ⟨rfl, hstopped, hcold⟩
  obtain ⟨houtcome, h⟩ := (stacked hends hdepth hrounds).statuses_fresh
    (fun operation hmem => .inl (hframed operation hmem)) hrel
  exact ⟨houtcome, h.statics, h.seen, h.bus.flash⟩

/-- A blank flash without faults, behind a driver that has not been started.  It is the
command level's side of a process that has just come up. -/
def Nor.unstarted : Nor .swift := { Nor.idle .swift (fun _ => 0xFF) with started := false }

/-- A process that comes up in front of it, with the registers of the core in disorder. -/
def unstartedStack : Bus (Nor .swift) 16 := blank ⟨disordered (Nor.idle .swift fun _ => 0xFF), []⟩

/-- An erase and a reboot. -/
theorem runs_through_registers_erase :
    (statuses { Env.plain none 0 with rounds := 300 } [.kiflashInit, .spiFlashSectorErase 0x10000,
        .kiflashIcap 2] (World.fresh unstartedStack)).1 =
      (statuses { Env.plain none 0 with rounds := 300 } [.kiflashInit, .spiFlashSectorErase 0x10000,
        .kiflashIcap 2] (World.fresh Nor.unstarted)).1 := by
  have hcold : Cold { Nor.unstarted with started := true } unstartedStack := cold_disordered _ _
  have hframed : ∀ operation ∈ [Operation.kiflashInit, .spiFlashSectorErase 0x10000, .kiflashIcap 2],
      operation.Framed := by simp [Operation.Framed]
  exact (runs_through_registers (by decide) (by decide) NorParams.swift_faultFree.ends hcold rfl
    hframed).1

end Kiflash
