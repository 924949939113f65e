import Kiflash.Mirroring
import Kiflash.Spi.Retry

/-!
# The memory that the flash code touches

The host maps the memory of the chassis whole, with more in it than the SPI core.  Whatever
the device answers, the accesses of the flash code stay with the registers of the core and
with the two registers of the ICAP core that `icap` writes.

* `Observed ε` — a device with the addresses of its accesses.
* `windows` — the registers.
* `accesses_inside_windows` — every run of operations.

An instance that has not been configured holds no base address; it is turned down before its
first access.

### The invariant

An access is made of the base address of the instance and an offset of the code.  The offsets
are seen where the access stands, and `TransferFlows` and `CallFlows` list all of them.  The
base address is another matter: it is zero in a fresh process, and the registers would be
anywhere.  `Located` says that it is the one of the core, and is kept by the calls that have
passed their checks.  `Inside` is weaker, and holds at any time: an instance that is *ready*
has its base address.  A transfer and a start check that it is ready before their first
access; `XSpi_SetOptions` does not, and is called behind a successful configuration only.

### What is observed

`Observed` records the addresses and hands everything else to the device, so that the code
sees no difference.  The device is arbitrary: it may answer anything, and change at any
access.  A transfer that never comes to its end is included, since the accesses are counted in
the state that any number of rounds leaves.
-/

open Imperative Imperative.Prog

namespace Kiflash

/-! ## Observing a device -/

/-- A device and the addresses of its accesses.  The device behaves as it would without.  This
is how a run is asked where it has been. -/
structure Observed (ε : Type) where
  device : ε
  accesses : List UInt64

variable {ε : Type} [PciDevice ε]

instance : PciDevice (Observed ε) where
  read64 address d :=
    let access := PciDevice.read64 address d.device
    (access.1, ⟨access.2, d.accesses ++ [address]⟩)
  write64 address data d := ⟨PciDevice.write64 address data d.device, d.accesses ++ [address]⟩

/-- The registers of the core that the driver reads or writes.  The occupancy registers are
not among them. -/
def coreOffsets : List UInt32 :=
  [xspDgierOffset, xspIisrOffset, xspIierOffset, xspSrrOffset, xspCrOffset, xspSrOffset,
    xspDtrOffset, xspDrrOffset, xspSsrOffset]

/-- The addresses of these registers, and of the two of the ICAP core.  Eleven words of the
chassis memory. -/
def windows : List UInt64 :=
  coreOffsets.map (fun offset => Axi.base + offset.toUInt64) ++
    [icapWriteFifo, icapWriteControl].map (icapBaseAddr + ·)

/-- The registers are aligned, and a map of 0x70220 bytes holds them. -/
theorem windows_aligned : ∀ address ∈ windows,
    8 ∣ address.toNat ∧ address.toNat + 8 ≤ 0x70220 := by
  have hall : windows.all fun address =>
      decide (8 ∣ address.toNat ∧ address.toNat + 8 ≤ 0x70220) := by decide +kernel
  intro address h
  exact of_decide_eq_true (List.all_eq_true.mp hall address h)

/-- A register of the core is in them. -/
theorem core_mem_windows {offset : UInt32} (h : offset ∈ coreOffsets) :
    Axi.base + offset.toUInt64 ∈ windows :=
  List.mem_append_left _ (List.mem_map_of_mem h)

namespace SpiCore

variable {s : SpiCore (Observed ε)}

/-- Everything so far was an access of one of the registers.  It is the safety property of the
whole driver. -/
def Within (s : SpiCore (Observed ε)) : Prop := ∀ address ∈ s.device.accesses, address ∈ windows

/-- And the next access of the core will be, as the instance has the base address. -/
structure Located (s : SpiCore (Observed ε)) : Prop where
  baseAddr : s.spi.baseAddr = Axi.base
  within : Within s

/-- An instance that is ready has its base address.  One that is not ready makes no access
before it is configured. -/
structure Inside (s : SpiCore (Observed ε)) : Prop where
  baseAddr : s.spi.isReady = xilComponentIsReady → s.spi.baseAddr = Axi.base
  within : Within s

omit [PciDevice ε] in
/-- A located instance is inside whether it is ready or not. -/
theorem Located.inside (h : Located s) : Inside s := ⟨fun _ => h.baseAddr, h.within⟩

omit [PciDevice ε] in
/-- A ready one is located. -/
theorem Inside.located (h : Inside s) (hready : s.spi.isReady = xilComponentIsReady) : Located s :=
  ⟨h.baseAddr hready, h.within⟩

omit [PciDevice ε] in
/-- One more access of a register. -/
theorem Within.append (h : Within s) {address : UInt64} (haddress : address ∈ windows) :
    ∀ a ∈ s.device.accesses ++ [address], a ∈ windows := by
  intro a ha
  rcases List.mem_append.mp ha with hold | hnew
  · exact h a hold
  · rwa [List.mem_singleton.mp hnew]

/-! ## The driver -/

section Driver

/-- A read of a register of the core, -/
theorem located_read {offset : UInt32} (hoffset : offset ∈ coreOffsets) :
    Moves (Keeps (Located (ε := ε))) (xspiPciReadReg offset) := by
  intro s h
  unfold xspiPciReadReg
  split
  · refine ⟨h.baseAddr, ?_⟩
    rw [h.baseAddr]
    exact h.within.append (core_mem_windows hoffset)
  · exact h

/-- and a write. -/
theorem located_write {offset : UInt32} (hoffset : offset ∈ coreOffsets) (data : UInt64) :
    Moves (Keeps (Located (ε := ε))) (xspiPciWriteReg offset data) := by
  refine moves_modify fun s h => ?_
  split
  · refine ⟨h.baseAddr, ?_⟩
    rw [h.baseAddr]
    exact h.within.append (core_mem_windows hoffset)
  · exact h

/-- The control register is read, -/
theorem located_getControlReg : Moves (Keeps (Located (ε := ε))) xspiGetControlReg :=
  (located_read (by decide)).bind fun _ => moves_pure _

/-- and written. -/
theorem located_setControlReg (mask : UInt32) :
    Moves (Keeps (Located (ε := ε))) (xspiSetControlReg mask) :=
  located_write (by decide) _

/-- The registers that a transfer reads are among them, -/
theorem readOffsets_subset : ∀ offset ∈ readOffsets, offset ∈ coreOffsets := by
  simp [readOffsets, coreOffsets]

/-- and those that it writes. -/
theorem plainOffsets_subset : ∀ offset ∈ plainOffsets, offset ∈ coreOffsets := by
  simp [plainOffsets, coreOffsets]

/-- So a transfer stays with the registers of the core, -/
theorem located_flows : TransferFlows (Keeps (Located (ε := ε))) where
  read offset h := located_read (readOffsets_subset offset h)
  writeData := located_write (by decide)
  buffers _ _ _ _ h := ⟨h.baseAddr, h.within⟩
  intrClear := (located_read (by decide)).bind fun _ => located_write (by decide) _
  inhibit := located_getControlReg.bind fun _ => located_setControlReg _
  uninhibit := located_getControlReg.bind fun _ => located_setControlReg _
  write offset h := located_write (plainOffsets_subset offset h)
  request _ _ _ h := ⟨h.baseAddr, h.within⟩

/-- and so do the other calls. -/
theorem located_calls : CallFlows (Keeps (Located (ε := ε))) where
  toTransferFlows := located_flows
  setControl := located_setControlReg
  reset := located_write (by decide) _
  settings _ _ _ h := ⟨h.baseAddr, h.within⟩

end Driver

/-! ## The calls of the flash code -/

section Calls

/-- An instance that is not ready sends nothing.  One that is ready knows its base address,
and its accesses are those of the core's registers. -/
theorem Inside.transfer (h : Inside s) (rounds : ℕ) (frame : List UInt8) (recv : Bool) :
    Inside (XSpiDriver.xspiTransfer rounds frame recv s).2 := by
  rw [driverTransfer_snd]
  set s₀ : SpiCore (Observed ε) :=
    { s with spi := { s.spi with recvBuffer := s.spi.recvBuffer.map fun _ => [] } } with hs₀
  have h₀ : Inside s₀ := ⟨h.baseAddr, h.within⟩
  by_cases hready : s₀.spi.isReady = xilComponentIsReady
  · exact (located_flows.xspiTransfer _ _ _ _ _ (h₀.located hready)).inside
  · -- the request is turned down by the first check
    have hrun : xspiTransfer rounds (some fun i => frame.getD i 0) recv (UInt32.ofNat frame.length)
        s₀ = (.ret .failure, s₀) := by
      have hno : UInt32.ofNat frame.length = 0 ∨ s₀.spi.isReady ≠ xilComponentIsReady :=
        .inr hready
      exact (bind_of_ret (rfl : gets (fun s => s.spi) s₀ = (.ret s₀.spi, s₀))).trans
        (congrFun (if_pos hno) s₀)
    rwa [hrun]

/-- A selection is noted in the instance and makes no access. -/
theorem Inside.setSlaveSelect (h : Inside s) (mask : UInt32) :
    Inside (XSpiDriver.xspiSetSlaveSelect mask s).2 := by
  refine (statusOf_snd _).symm ▸ xspiSetSlaveSelect_keeps mask (fun _ _ h => ?_) s h
  exact ⟨h.baseAddr, h.within⟩

/-- A start checks that the instance is ready before its first access. -/
theorem Inside.start (h : Inside s) : Inside (XSpiDriver.xspiStart s).2 := by
  refine (statusOf_snd _).symm ▸ ?_
  by_cases hready : s.spi.isReady = xilComponentIsReady
  · exact (located_calls.xspiStart s (h.located hready)).inside
  · have hrun : xspiStart s = (.ret .failure, s) := by
      exact (bind_of_ret (rfl : gets (fun s => s.spi) s = (.ret s.spi, s))).trans
        (congrFun (if_pos hready) s)
    rwa [hrun]

/-- A successful configuration has set the base address.  The address is stored in front of
the first access, so even those of a reset are in the windows. -/
theorem Inside.cfgInitialize (h : Inside s) {config : XSpiConfig}
    (hconfig : xspiLookupConfig spiDeviceId = some config) :
    Inside (XSpiDriver.xspiCfgInitialize config s).2 ∧
      ((XSpiDriver.xspiCfgInitialize config s).1 = .success →
        Located (XSpiDriver.xspiCfgInitialize config s).2) := by
  obtain rfl : config = ⟨50, Axi.base, true, false, 1, 8, 0⟩ := (Option.some.inj hconfig).symm
  change Inside (statusOf (xspiCfgInitialize _ s)).2 ∧ ((statusOf (xspiCfgInitialize _ s)).1 = _ →
    Located (statusOf (xspiCfgInitialize _ s)).2)
  by_cases hstarted : s.spi.isStarted = xilComponentIsStarted
  · rw [xspiCfgInitialize_of_started _ hstarted]
    have hne : Xst.deviceIsStarted ≠ .success := by decide
    exact ⟨h, fun hno => absurd hno hne⟩
  suffices hlocated :
      Located (statusOf (xspiCfgInitialize ⟨50, Axi.base, true, false, 1, 8, 0⟩ s)).2 from
    ⟨hlocated.inside, fun _ => hlocated⟩
  rw [statusOf_snd]
  have hset : Located { s with spi := configured ⟨50, Axi.base, true, false, 1, 8, 0⟩ s.spi } :=
    ⟨rfl, h.within⟩
  have hreset := (located_calls (ε := ε)).xspiReset.bind fun _ => moves_pure Xst.success
  have hrun : xspiCfgInitialize ⟨50, Axi.base, true, false, 1, 8, 0⟩ s =
      (xspiReset >>= fun _ => pure Xst.success)
        { s with spi := configured ⟨50, Axi.base, true, false, 1, 8, 0⟩ s.spi } := by
    exact (bind_of_ret (rfl : gets (fun s => s.spi) s = (.ret s.spi, s))).trans
      (congrFun (if_neg hstarted) s)
  rw [hrun]
  exact hreset _ hset

/-- The startup: each of its calls is made only if the one before it has succeeded. -/
theorem Inside.bootCalls (h : Inside s) {config : XSpiConfig}
    (hconfig : xspiLookupConfig spiDeviceId = some config) : Inside (bootCalls config s).2 := by
  have h₀ : Inside (XSpiDriver.xspiPciInitialize s) := ⟨h.baseAddr, h.within⟩
  obtain ⟨h₁, hlocated⟩ := h₀.cfgInitialize hconfig
  refine thenCall_snd (fun _ => h₁) fun hok => ?_
  have h₂ : Inside (XSpiDriver.xspiSetOptions (xspMasterOption ||| xspManualSselectOption)
      (XSpiDriver.xspiCfgInitialize config (XSpiDriver.xspiPciInitialize s)).2).2 :=
    ((statusOf_snd _).symm ▸ located_calls.xspiSetOptions _ _ (hlocated hok)).inside
  refine thenCall_snd (fun _ => h₂) fun _ => ?_
  exact thenCall_snd (fun _ => h₂.setSlaveSelect _) fun _ => (h₂.setSlaveSelect _).start

/-- The words for the ICAP core go to its registers. -/
theorem Inside.write (h : Inside s) {register : UInt64}
    (hregister : register ∈ [icapWriteFifo, icapWriteControl]) (data : UInt64) :
    Inside (XSpiDriver.pciWriteReg (icapBaseAddr + register) data s) := by
  have hmem : icapBaseAddr + register ∈ windows :=
    List.mem_append_right _ (List.mem_map_of_mem hregister)
  change Inside (if s.spi.pci then _ else s)
  split
  · exact ⟨h.baseAddr, h.within.append hmem⟩
  · exact h

/-- Every call of the flash code keeps it. -/
theorem inside_kept (rounds : ℕ) : Kept rounds (Inside (ε := ε)) where
  transfer frame recv _ h := h.transfer rounds frame recv
  select h := h.setSlaveSelect _
  start h := h.start
  boot hconfig h := h.bootCalls hconfig
  write _ data _ hregister h := h.write hregister data

end Calls

end SpiCore

/-- **Whatever the device answers and however often it keeps the code waiting, a process
touches the registers of the core and of the ICAP core, and nothing else of the mapped
memory.**  The accesses are aligned, so that none of them reaches beyond its register.

There are no hypotheses: the host may refuse its files, its memory or the device, and the
operations may fail at any place or keep polling until the rounds are used up. -/
theorem accesses_inside_windows (env : Env) (device : ε) (operations : List Operation) :
    (statuses env operations
        (World.fresh (SpiCore.blank ⟨device, []⟩ : SpiCore (Observed ε)))).2.bus.device.accesses.Forall
      fun address => address ∈ windows ∧ 8 ∣ address.toNat ∧ address.toNat + 8 ≤ 0x70220 := by
  refine List.forall_iff_forall_mem.mpr ?_
  intro address haddress
  have hunready : (0 : UInt32) ≠ xilComponentIsReady := by decide
  have hfresh : SpiCore.Inside (SpiCore.blank ⟨device, []⟩ : SpiCore (Observed ε)) :=
    ⟨fun hready => absurd hready hunready, fun _ h => absurd h List.not_mem_nil⟩
  have hmem : address ∈ windows :=
    ((SpiCore.inside_kept env.rounds).statuses_fresh operations hfresh).within address haddress
  exact ⟨hmem, windows_aligned address hmem⟩

end Kiflash
