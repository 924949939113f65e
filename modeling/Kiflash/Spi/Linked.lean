import Kiflash.Spi.Fifo
import Kiflash.Spi.Retry

/-!
# A driver linked to a running core

`System_init_startup` enables the core and makes it the master of its bus, which is what a
transfer needs to shift anything.  Whether it stays so is a matter of what the rest of the
program writes to the control register.

* `Reloading` — what is assumed of the core behind the driver: which accesses its control
  register sees, and that the reboot words reset it.
* `Linked` — the instance is started and the core enabled and master.  Every call of the
  driver keeps it, and the calls of the startup establish it.

### Two bits

Of the control register only the two bits of `runMasks` matter here.  The driver sets and
clears others all the time (the transmitter is inhibited and let go in every transfer, the
FIFOs are reset), and each of these writes keeps the two as they are.  `SameRun` compares two
values in these bits, and the lemmas about masks reduce a write to `mask' &&& mask = 0`, which
is decided for the masks of the driver.

### Keeping and establishing

The calls fall into two groups.  Those that may come in any order keep `Linked`, by
`lasting_linked` and what `Setup` knows about calls that last.  `XSpi_CfgInitialize`,
`XSpi_SetOptions` and `XSpi_Start` establish it, in this order and only so: the first resets
the core, the second makes it master, and the third enables it.  `Prepared` is what is known
in between.

### The reboot

`Reloading.control_reboot` says that the words which `icap` writes leave the core disabled.
This is what the rest of the development starts from, when it asks what a driver is worth
after a reboot that it has not noticed.
-/

open Imperative Imperative.Prog

namespace Kiflash

/-! ## Masks -/

section Masks

variable {x mask mask' : UInt32}

/-- Setting other bits does not show under a mask. -/
theorem or_and_of_disjoint (h : mask' &&& mask = 0) : (x ||| mask') &&& mask = x &&& mask := by
  refine eq_of_bits h fun i hi hbit => ?_
  simp at hbit ⊢
  grind

/-- Neither does clearing them. -/
theorem clear_and_of_disjoint (h : mask' &&& mask = 0) : (x &&& ~~~mask') &&& mask = x &&& mask := by
  refine eq_of_bits h fun i hi hbit => ?_
  simp at hbit ⊢
  grind

end Masks

/-- The bits of the control register that let the core shift: enabled, and master. -/
def runMasks : List UInt32 := [xspCrEnableMask, xspCrMasterModeMask]

/-- Both bits, one by one. -/
theorem forall_runMasks {P : UInt32 → Prop} :
    (∀ mask ∈ runMasks, P mask) ↔ P xspCrEnableMask ∧ P xspCrMasterModeMask := by simp [runMasks]

/-- Both bits are set: the core shifts what it has, if it is not held back.  A reset clears
them. -/
def Running (controlReg : UInt32) : Prop := ∀ mask ∈ runMasks, controlReg &&& mask ≠ 0

instance (controlReg : UInt32) : Decidable (Running controlReg) :=
  decidable_of_iff _ forall_runMasks.symm

/-- The two bits are the same.  All that is written to the control register outside of the
setup keeps them. -/
def SameRun (controlReg controlReg' : UInt32) : Prop :=
  ∀ mask ∈ runMasks, controlReg &&& mask = controlReg' &&& mask

/-- So one of them runs if the other does. -/
theorem SameRun.running {controlReg controlReg' : UInt32} (h : SameRun controlReg controlReg')
    (hrun : Running controlReg') : Running controlReg := by
  intro mask hmask
  rw [h mask hmask]
  exact hrun mask hmask

/-- Bits outside of the two may be set or cleared. -/
theorem sameRun_or {controlReg mask' : UInt32} (h : ∀ mask ∈ runMasks, mask' &&& mask = 0) :
    SameRun (controlReg ||| mask') controlReg :=
  fun mask hmask => or_and_of_disjoint (h mask hmask)

theorem sameRun_clear {controlReg mask' : UInt32} (h : ∀ mask ∈ runMasks, mask' &&& mask = 0) :
    SameRun (controlReg &&& ~~~mask') controlReg :=
  fun mask hmask => clear_and_of_disjoint (h mask hmask)

/-! ## The core -/

section Core

variable {ε : Type} [PciDevice ε]

/-- The device after the accesses of `icap`: the words go to the FIFO of the configuration
port, and a bit of its control register sends them. -/
def reboot (die : UInt32) (d : ε) : ε :=
  PciDevice.write64 (icapBaseAddr + icapWriteControl) 0x00000001
    ((iprogWords die).foldl (fun d word => PciDevice.write64 (icapBaseAddr + icapWriteFifo) word d) d)

/-- The control register is changed by writes to it and by resets alone, and the reboot words
reset it: disabled, and not master.  A design that is loaded anew starts like this. -/
structure Reloading {base : UInt64} (core : Controller ε base) : Prop where
  control_plain : ∀ offset ∈ SpiCore.plainOffsets, ∀ data d,
    core.control (PciDevice.write64 (base + offset.toUInt64) data d) = core.control d
  control_written : ∀ data d, SameRun
    (core.control (PciDevice.write64 (base + xspCrOffset.toUInt64) data d)) data.toUInt32
  control_reboot : ∀ die d, ∀ mask ∈ runMasks, core.control (reboot die d) &&& mask = 0

end Core

namespace SpiCore

variable {ε : Type} [PciDevice ε] {base : UInt64} {core : Controller ε base} {s : SpiCore ε}

/-- The instance reaches the core at `base`.  Without this its accesses go nowhere, or
elsewhere. -/
structure Attached (base : UInt64) (s : SpiCore ε) : Prop where
  pci : s.spi.pci = true
  baseAddr : s.spi.baseAddr = base

/-- The instance is started, and the core behind it enabled and master.  This is the state in
which a transfer is worth its name. -/
structure Linked (core : Controller ε base) (s : SpiCore ε) : Prop extends Attached base s where
  started : Has Started s
  running : Running (core.control s.device)

/-- The device may change, as long as the two bits do not. -/
theorem Linked.device (h : Linked core s) {device : ε}
    (hsame : SameRun (core.control device) (core.control s.device)) : Linked core { s with device } :=
  ⟨⟨h.pci, h.baseAddr⟩, h.started, hsame.running h.running⟩

/-- Or as long as they are set. -/
theorem Linked.device_of_running (h : Linked core s) {device : ε}
    (hrun : Running (core.control device)) : Linked core { s with device } :=
  ⟨⟨h.pci, h.baseAddr⟩, h.started, hrun⟩

/-! ## Accesses of the registers -/

section Accesses

variable {R : Stop → SpiCore ε → Prop}

/-- A read leaves the control register alone. -/
theorem wp_read (core : Controller ε base) {Q : UInt64 → SpiCore ε → Prop} (address : UInt32)
    (h : ∀ value device, core.control device = core.control s.device → Q value { s with device }) :
    wp (xspiPciReadReg address) Q R s := by
  by_cases hpci : s.spi.pci = true
  · exact (wp_of_ret (by rw [xspiPciReadReg, if_pos hpci])).mpr (h _ _ (core.control_read _ _))
  · exact (wp_of_ret (by rw [xspiPciReadReg, if_neg hpci])).mpr (h _ s.device rfl)

/-- The control register is read as it is. -/
theorem wp_control (core : Controller ε base) (hattached : Attached base s) {Q : UInt32 → SpiCore ε → Prop}
    (h : ∀ device, core.control device = core.control s.device →
      Q (core.control s.device) { s with device }) : wp xspiGetControlReg Q R s := by
  refine wp_bind.mpr ((wp_of_ret (by rw [xspiPciReadReg, if_pos hattached.pci])).mpr ?_)
  have hvalue : (PciDevice.read64 (s.spi.baseAddr + xspCrOffset.toUInt64) s.device).1.toUInt32 =
      core.control s.device := by
    rw [hattached.baseAddr]
    exact core.read_control s.device
  refine wp_pure.mpr ?_
  rw [hvalue]
  exact h _ (core.control_read _ _)

/-- Writes to the other registers leave it alone. -/
theorem wp_plain (laws : Reloading core) (hattached : Attached base s) {Q : Unit → SpiCore ε → Prop}
    {offset : UInt32} (hoffset : offset ∈ plainOffsets) (data : UInt64)
    (h : ∀ device, core.control device = core.control s.device → Q () { s with device }) :
    wp (xspiPciWriteReg offset data) Q R s := by
  refine wp_modify.mpr ?_
  rw [if_pos hattached.pci, hattached.baseAddr]
  exact h _ (laws.control_plain offset hoffset data s.device)

/-- A write to it is seen in the two bits. -/
theorem wp_setControl (laws : Reloading core) (hattached : Attached base s) {Q : Unit → SpiCore ε → Prop}
    (mask : UInt32) (h : ∀ device, SameRun (core.control device) mask → Q () { s with device }) :
    wp (xspiSetControlReg mask) Q R s := by
  refine wp_modify.mpr ?_
  rw [if_pos hattached.pci, hattached.baseAddr]
  have hwritten := laws.control_written mask.toUInt64 s.device
  rw [UInt32.toUInt32_toUInt64] at hwritten
  exact h _ hwritten

end Accesses

/-! ## What keeps the core running -/

/-- **The calls of the driver keep the link.**  Every access is looked at once, and the calls
follow from what they are made of.  The only accesses that matter are the two to the control
register, and both write back the bits they have read. -/
theorem lasting_linked (laws : Reloading core) : Lasting (Linked core) where
  read address s h := wp_state_iff.mp (wp_read core address <|
    fun _ _ hsame => h.device fun _ _ => by rw [hsame])
  write offset hoffset data s h := wp_state_iff.mp (wp_plain laws h.toAttached hoffset data <|
    fun _ hsame => h.device fun _ _ => by rw [hsame])
  inhibit s h := by
    refine wp_state_iff.mp (wp_bind.mpr (wp_control core h.toAttached fun device hsame => ?_))
    have hattached : Attached base { s with device } := ⟨h.pci, h.baseAddr⟩
    refine wp_setControl laws hattached _ fun device' hwritten => h.device fun mask hmask => ?_
    exact (hwritten mask hmask).trans (sameRun_or (forall_runMasks.mpr (by decide)) mask hmask)
  uninhibit s h := by
    refine wp_state_iff.mp (wp_bind.mpr (wp_control core h.toAttached fun device hsame => ?_))
    have hattached : Attached base { s with device } := ⟨h.pci, h.baseAddr⟩
    refine wp_setControl laws hattached _ fun device' hwritten => h.device fun mask hmask => ?_
    exact (hwritten mask hmask).trans (sameRun_clear (forall_runMasks.mpr (by decide)) mask hmask)
  buffers _ _ _ _ h := ⟨⟨h.pci, h.baseAddr⟩, h.started, h.running⟩
  request _ _ _ h := ⟨⟨h.pci, h.baseAddr⟩, h.started, h.running⟩

/-- The control register that `XSpi_SetOptions` writes for the options of the startup: master,
manual selection, and no loopback. -/
def optionsControl (controlReg : UInt32) : UInt32 :=
  (controlReg &&& ~~~xspCrLoopbackMask &&& ~~~xspCrClkPolarityMask &&& ~~~xspCrClkPhaseMask |||
    xspCrMasterModeMask) ||| xspCrManualSsMask

/-- It has the enable bit of before. -/
theorem optionsControl_enable (controlReg : UInt32) :
    optionsControl controlReg &&& xspCrEnableMask = controlReg &&& xspCrEnableMask := by
  rw [optionsControl, or_and_of_disjoint (by decide), or_and_of_disjoint (by decide),
    clear_and_of_disjoint (by decide), clear_and_of_disjoint (by decide),
    clear_and_of_disjoint (by decide)]

/-- It has the master bit. -/
theorem optionsControl_master (controlReg : UInt32) :
    optionsControl controlReg &&& xspCrMasterModeMask ≠ 0 := by
  rw [optionsControl, or_and_of_disjoint (by decide), or_and_self_mask]
  decide

/-- The options of the startup leave the core enabled if it was, and make it master. -/
theorem wp_xspiSetOptions (laws : Reloading core) (hattached : Attached base s)
    {Q : Xst → SpiCore ε → Prop} {R : Stop → SpiCore ε → Prop}
    (refused : s.spi.isBusy = true ∨ s.spi.slaveOnly = true → ∀ status, status ≠ .success → Q status s)
    (done : ∀ device, (∀ mask ∈ runMasks, core.control device &&& mask =
      optionsControl (core.control s.device) &&& mask) → Q .success { s with device }) :
    wp (xspiSetOptions (xspMasterOption ||| xspManualSselectOption)) Q R s := by
  refine wp_bind.mpr (wp_gets.mpr (wp_ite.mpr ⟨fun hbusy => ?_, fun _ => wp_ite.mpr ⟨fun hslave => ?_,
    fun _ => ?_⟩⟩))
  · exact refused (.inl hbusy) _ (by decide)
  · exact refused (.inr hslave.2) _ (by decide)
  refine wp_bind.mpr (wp_control core hattached fun device hsame => wp_bind.mpr ?_)
  have hattached' : Attached base { s with device } := ⟨hattached.pci, hattached.baseAddr⟩
  exact wp_setControl laws hattached' _ fun device' hwritten => done device' hwritten

/-- So it runs if the one of before did. -/
theorem running_optionsControl {controlReg : UInt32} (h : Running controlReg) :
    Running (optionsControl controlReg) := by
  intro mask hmask
  rcases List.mem_cons.mp hmask with rfl | hmask
  · rw [optionsControl_enable]
    exact h _ hmask
  · obtain rfl := List.mem_singleton.mp hmask
    exact optionsControl_master controlReg

/-- A started instance is not started again. -/
theorem xspiStart_of_started (h : Has Started s) : (xspiStart s).2 = s := by
  have hstarted : s.spi.isStarted = xilComponentIsStarted := h
  have hsame : wp xspiStart (fun _ s' => s' = s) (fun _ s' => s' = s) s :=
    wp_bind.mpr (wp_gets.mpr (wp_ite.mpr ⟨fun _ => rfl, fun _ => wp_ite.mpr
      ⟨fun _ => rfl, fun hno => absurd hstarted hno⟩⟩))
  exact wp_state_iff.mp hsame

/-- A step on the bus is a call of the driver, as the flash code makes it, and keeps the link.
The cases are the six kinds of calls; a second configuration is refused, as the instance is
started. -/
theorem linked_of_busStep (laws : Reloading core) {A : Set (List UInt8)} {s' : SpiCore ε}
    (hstep : BusStep A s s') (h : Linked core s) : Linked core s' := by
  cases hstep with
  | transfer rounds frame recv => exact (lasting_linked laws).driverTransfer rounds frame recv s h
  | pciInitialize => exact ⟨⟨rfl, h.baseAddr⟩, h.started, h.running⟩
  | cfgInitialize config =>
      change Linked core (statusOf (xspiCfgInitialize config s)).2
      rw [xspiCfgInitialize_of_started config h.started]
      exact h
  | setOptions =>
      refine (statusOf_snd _).symm ▸ wp_state_iff.mp (wp_xspiSetOptions laws h.toAttached
        (fun _ _ _ => h) fun device hsame => h.device_of_running (SameRun.running hsame ?_))
      exact running_optionsControl h.running
  | setSlaveSelect slaveMask =>
      refine (statusOf_snd _).symm ▸ xspiSetSlaveSelect_keeps slaveMask (fun _ _ h => ?_) s h
      exact ⟨⟨h.pci, h.baseAddr⟩, h.started, h.running⟩
  | start =>
      change Linked core (statusOf (xspiStart s)).2
      rw [statusOf_snd, xspiStart_of_started h.started]
      exact h

/-- And any number of them. -/
theorem linked_of_busSteps (laws : Reloading core) {A : Set (List UInt8)} {s' : SpiCore ε}
    (hsteps : Relation.ReflTransGen (BusStep A) s s') (h : Linked core s) : Linked core s' := by
  induction hsteps with
  | refl => exact h
  | tail _ hstep ih => exact linked_of_busStep laws hstep ih

/-! ## What the startup establishes -/

/-- The instance has accepted `config`, and reaches the core.  It is not started yet.  The
startup goes through these states in front of `XSpi_Start`. -/
structure Prepared (base : UInt64) (config : XSpiConfig) (s : SpiCore ε) : Prop
    extends Attached base s where
  accepted : Accepted config s.spi

section Startup

variable {config : XSpiConfig}

/-- `XSpi_CfgInitialize` accepts a configuration without a startup block. -/
theorem xspiCfgInitialize_prepared (hstartup : config.useStartup ≠ 1)
    (hbase : config.baseAddress = base) (hpci : s.spi.pci = true) (h : ¬ Has Started s) :
    wp (xspiCfgInitialize config) (fun status s' => status = .success ∧ Prepared base config s')
      (fun _ _ => False) s := by
  refine wp_bind.mpr (wp_gets.mpr (wp_ite.mpr ⟨fun hstarted => absurd hstarted h, fun _ => ?_⟩))
  refine wp_bind.mpr (wp_modify.mpr (wp_ite.mpr ⟨fun h => absurd h hstartup, fun _ => ?_⟩))
  exact wp_bind.mpr (wp_xspiReset fun _ => ⟨rfl, ⟨hpci, hbase⟩, rfl, rfl, rfl, rfl, rfl⟩)

/-- `XSpi_SetOptions` makes the core master, unless it is configured as a slave. -/
theorem xspiSetOptions_prepared (laws : Reloading core) (hmaster : config.slaveOnly = false)
    (h : Prepared base config s) :
    wp (xspiSetOptions (xspMasterOption ||| xspManualSselectOption))
      (fun status s' => status = .success ∧ Prepared base config s' ∧
        core.control s'.device &&& xspCrMasterModeMask ≠ 0) (fun _ _ => False) s := by
  refine wp_xspiSetOptions laws h.toAttached (fun hrefused => ?_) fun device hsame => ⟨rfl, ?_, ?_⟩
  · rcases hrefused with hbusy | hslave
    · exact absurd hbusy (not_busy h.accepted.isBusy)
    · rw [h.accepted.slaveOnly, hmaster] at hslave
      exact nomatch hslave
  · exact ⟨⟨h.pci, h.baseAddr⟩, h.accepted⟩
  · rw [hsame _ (by decide)]
    exact optionsControl_master _

/-- **The start of a prepared instance whose core is master links it.**  `XSpi_Start` enables
the core with a write that keeps the master bit.  All its other writes go to registers behind
which the control register is not. -/
theorem xspiStart_linked (laws : Reloading core) (h : Prepared base config s)
    (hmaster : core.control s.device &&& xspCrMasterModeMask ≠ 0) :
    wp xspiStart (fun _ s' => Linked core s') (fun _ _ => False) s := by
  have hstopped : ¬ s.spi.isStarted = xilComponentIsStarted := by
    rw [h.accepted.isStarted]
    decide
  refine wp_bind.mpr (wp_gets.mpr (wp_ite.mpr ⟨fun hready => absurd h.accepted.isReady hready,
    fun _ => wp_ite.mpr ⟨fun hstarted => absurd hstarted hstopped, fun _ => ?_⟩⟩))
  let started : XSpi := { s.spi with isStarted := xilComponentIsStarted }
  have before : ∀ device : ε, Attached base ⟨s.spi, device⟩ := fun _ => ⟨h.pci, h.baseAddr⟩
  have after : ∀ device : ε, Attached base ⟨started, device⟩ := fun _ => ⟨h.pci, h.baseAddr⟩
  refine wp_bind.mpr (wp_bind.mpr (wp_read core _ fun _ d₁ h₁ => ?_))
  refine wp_plain laws (before d₁) (by decide) _ fun d₂ h₂ => wp_bind.mpr (wp_modify.mpr ?_)
  refine wp_bind.mpr (wp_control core (after d₂) fun d₃ h₃ => wp_bind.mpr ?_)
  refine wp_setControl laws (after d₃) _ fun d₄ h₄ => wp_bind.mpr ?_
  refine wp_plain laws (after d₄) (by decide) _ fun d₅ h₅ => wp_bind.mpr ?_
  refine wp_plain laws (after d₅) (by decide) _ fun d₆ h₆ => ⟨after d₆, rfl, ?_⟩
  -- the write of the control register is the only one of these that it sees
  have hcontrol : core.control d₂ = core.control s.device := h₂.trans h₁
  change Running (core.control d₆)
  rw [h₆, h₅]
  intro mask hmask
  rw [h₄ mask hmask, hcontrol]
  rcases List.mem_cons.mp hmask with rfl | hmask
  · rw [← UInt32.or_assoc, or_and_self_mask]
    decide
  · obtain rfl := List.mem_singleton.mp hmask
    rw [or_and_of_disjoint (by decide)]
    exact hmaster

end Startup

end SpiCore

end Kiflash
