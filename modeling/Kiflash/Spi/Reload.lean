import Kiflash.Imperative.Steps
import Kiflash.Spi.Linked

/-!
# The driver and a core that is reloaded

`qspi_init_flag` and `IsStarted` say that `System_init_startup` has linked the driver to a
running core.  The reboot words reset the core and leave the two variables alone, so that they
say it still when it is no longer so.

* `LibraryCall.Reboots` — the call gets to its call of `icap` and finds the driver initialised
  there.
* `Agrees` — the flag and the instance speak the truth about the core.
* `agreement_iff` — they do for as long as no call does reboot.
* `Fpga` — a core that the reboot words reset.

### The invariant

`Agrees` alone is not preserved: it says nothing about an instance that is started while the
flag is clear, and the next call of `kiflash_init` would set the flag.  `Decided` closes this
gap.  Behind a call either the flag is set and the driver linked, or the driver is `Stuck`,
which means that no startup will ever succeed again.  Before a call the weaker `Sound` is
enough, since every call begins with a test of the flag.

### The condition

Only a reboot can break the agreement, and it does so always: the words leave a core that is
neither enabled nor master (`Reloading`).  Whether a call reboots is computed from the state
before it.  `LibraryCall.untilIcap` is the part of the call that precedes `icap`, with the
tests that decide whether it is reached; a call that finds the driver initialised at that
place reboots the core under it.  A `kiflash_icap` whose initialisation fails reboots as well,
and is harmless, as the flag is clear behind it.

### What is assumed

The laws of `Reloading` are the assumptions, and `Fpga` is a device that obeys them: the
registers of `Axi`, with the write FIFO of the configuration port beside them.  The runs start
from a fresh process on a device in any state.
-/

open Imperative Imperative.Prog

namespace Kiflash

/-! ## The calls of a client -/

open SpiCore

section Definitions

variable {σ : Type} [XSpiDriver σ] (env : Env)

/-- What the call runs before it calls `icap`, with whether it does.  `kiflash_init` has no
`icap`; `kiflash_program_user` reboots after the programming has succeeded; `kiflash_icap`
reboots whatever its own initialisation returns. -/
def LibraryCall.untilIcap : LibraryCall → Prog (World σ) Bool
  | init => do
    let _ ← kiflashInit env
    pure false
  | programUser => do
    let _ ← kiflashInit env
    selectRegion .user
    setPercentage env 0
    let status ← Kiflash.programUser env 1
    pure (status = .success)
  | icap _ => do
    let started ← gets fun w => w.qspiInitFlag
    let _ ← if started then pure .success else kiflashInit env
    pure true

/-- The call gets to its call of `icap`, and finds the driver initialised there.  Behind it
the core is as it comes up, while the driver takes it for started. -/
def LibraryCall.Reboots (w : World σ) (call : LibraryCall) : Prop :=
  ∃ w₁, call.untilIcap env w = (.ret true, w₁) ∧ w₁.qspiInitFlag = true

end Definitions

section Calls

variable {ε : Type} [PciDevice ε] {env : Env} {w w' : World (SpiCore ε)}

/-- An initialised driver that is started has a running core.  This is what a reboot of the
FPGA breaks. -/
def Agrees {base : UInt64} (core : Controller ε base) (w : World (SpiCore ε)) : Prop :=
  w.qspiInitFlag = true → Has Started w.bus → Running (core.control w.bus.device)

variable {core : Controller ε Axi.base}

/-- An initialised driver is linked to a running core.  It is the invariant of runs in which
no step reboots the FPGA. -/
def Sound (core : Controller ε Axi.base) (w : World (SpiCore ε)) : Prop :=
  w.qspiInitFlag = true → Linked core w.bus

/-- The driver is initialised and linked to a running core, or it will never be.  The second
case is a startup that has failed for good. -/
def Decided (core : Controller ε Axi.base) (w : World (SpiCore ε)) : Prop :=
  w.qspiInitFlag = true ∧ Linked core w.bus ∨ Stuck w

/-- A sound driver agrees with the core. -/
theorem Sound.agrees (h : Sound core w) : Agrees core w := fun hflag _ => (h hflag).running

/-- A driver that is stuck has its flag clear. -/
theorem Decided.sound (h : Decided core w) : Sound core w := by
  intro hflag
  rcases h with ⟨-, hlinked⟩ | hstuck
  · exact hlinked
  · exact nomatch hflag.symm.trans hstuck.qspiInitFlag

/-- The core and the flag are all that it depends on. -/
theorem Sound.of_eq (h : Sound core w) (bus : w'.bus = w.bus)
    (qspiInitFlag : w'.qspiInitFlag = w.qspiInitFlag) : Sound core w' := by
  rw [Sound, bus, qspiInitFlag]
  exact h

/-- As is the other. -/
theorem Decided.of_eq (h : Decided core w) (bus : w'.bus = w.bus)
    (qspiInitFlag : w'.qspiInitFlag = w.qspiInitFlag) : Decided core w' := by
  rcases h with ⟨hflag, hlinked⟩ | hstuck
  · exact .inl ⟨qspiInitFlag.trans hflag, bus ▸ hlinked⟩
  · exact .inr ⟨qspiInitFlag.trans hstuck.qspiInitFlag, bus ▸ hstuck.started⟩

/-- What the startup relies on of the place of the core. -/
theorem xspiLookupConfig_base {config : XSpiConfig} (h : xspiLookupConfig spiDeviceId = some config) :
    config.baseAddress = Axi.base := by
  obtain rfl : _ = config := Option.some.inj (h.symm.trans rfl).symm
  rfl

/-- A startup that succeeds links the driver to a running core.  It is followed call by call:
the configuration prepares the instance, the options make the core master, and the start
enables it. -/
theorem systemInitStartup_linked (laws : Reloading core) :
    wp (systemInitStartup env) (fun status w' => status = .success → Linked core w'.bus)
      (fun _ _ => True) w := by
  -- a started instance is refused, so a success is one of an instance that was not
  by_cases hstarted : Has Started w.bus
  · refine wp_mono (systemInitStartup_of_started hstarted) (fun status _ h hok => ?_)
      fun _ _ _ => trivial
    exact nomatch hok.symm.trans h.1
  obtain ⟨config, hlookup, hstartup, hmaster, hselect⟩ := xspiLookupConfig_spi
  have hbase := xspiLookupConfig_base hlookup
  rw [systemInitStartup, hlookup]
  refine wp_bind.mpr (wp_modify.mpr (wp_check.mpr (wp_callDriver_statusOf
    (xspiCfgInitialize_prepared hstartup hbase rfl hstarted)
    fun status w₁ _ h₁ => ⟨fun _ => ?_, fun hne => absurd h₁.1 hne⟩)))
  refine wp_check.mpr (wp_callDriver_statusOf (xspiSetOptions_prepared laws hmaster h₁.2)
    fun status w₂ _ h₂ => ⟨fun _ => ?_, fun hne => absurd h₂.1 hne⟩)
  have hslave : wp (xspiSetSlaveSelect spiSelect)
      (fun status s => status = .success ∧ Prepared Axi.base config s ∧
        core.control s.device &&& xspCrMasterModeMask ≠ 0) (fun _ _ => False) w₂.bus := by
    refine wp_mono (wp_and (xspiSetSlaveSelect_of_accepted _ hselect h₂.2.1.accepted)
      ((xspiSetSlaveSelect_keeps spiSelect (P := fun s => Attached Axi.base s ∧
        core.control s.device &&& xspCrMasterModeMask ≠ 0) fun _ _ h => ⟨⟨h.1.pci, h.1.baseAddr⟩, h.2⟩).wp
          w₂.bus)) (fun status s h => ?_) fun _ _ h => h.1
    obtain ⟨hattached, hbit⟩ := h.2 ⟨h₂.2.1.toAttached, h₂.2.2⟩
    exact ⟨h.1.1, ⟨hattached, h.1.2⟩, hbit⟩
  refine wp_check.mpr (wp_callDriver_statusOf hslave
    fun status w₃ _ h₃ => ⟨fun _ => ?_, fun hne => absurd h₃.1 hne⟩)
  refine wp_bind.mpr (wp_callDriver_statusOf (xspiStart_linked laws h₃.2.1 h₃.2.2)
    fun _ w₄ _ h₄ => ?_)
  have henable : Moves (Talks Set.univ) (check (spiFlashWriteEnable (σ := SpiCore ε) env)
      (pure .success)) := (spiFlashWriteEnable_talks (Set.subset_univ _)).check (moves_pure _)
  exact wp_mono (henable.wp w₄) (fun _ _ h _ => linked_of_busSteps laws h.bus h₄) fun _ _ _ => trivial

/-- The test of the flag starts the driver up if it is clear, which either links it or leaves
it stuck. -/
theorem ensureInit_decided (laws : Reloading core) (h : Sound core w) :
    wp (ensureInit env) (fun _ w' => Decided core w') (fun _ _ => True) w := by
  refine wp_bind.mpr (wp_gets.mpr (wp_ite.mpr ⟨fun hflag => .inl ⟨hflag, h hflag⟩, fun hflag => ?_⟩))
  have hflag : w.qspiInitFlag = false := Bool.eq_false_iff.mpr hflag
  refine wp_check.mpr (wp_mono (wp_and (systemInitStartup_stuck hflag) (systemInitStartup_linked laws))
    (fun status w' h' => ⟨fun hok => ?_, fun _ => .inr h'.1⟩) fun _ _ _ => trivial)
  exact .inl ⟨rfl, h'.2 hok⟩

/-- So does `kiflash_init`. -/
theorem kiflashInit_decided (laws : Reloading core) (h : Sound core w) :
    wp (kiflashInit env) (fun _ w' => Decided core w') (fun _ _ => True) w := by
  obtain ⟨percentage, events, hreset, -⟩ := w.reset_eq env
  refine wp_kiflashInit (fun _ => trivial) fun _ => ?_
  have hsound : Sound core { w.reset env with pciFds := w.pciFds + 1 } :=
    h.of_eq (by rw [hreset]) (by rw [hreset])
  exact wp_mono (ensureInit_decided laws hsound) (fun _ _ h => ⟨fun _ => h, fun _ => h⟩)
    fun _ _ _ => trivial

/-- Programming neither stops the instance nor disables the core. -/
theorem programUser_decided (laws : Reloading core) (erase : UInt32) (h : Decided core w) :
    Decided core (Kiflash.programUser env erase w).2 := by
  rcases h with ⟨hflag, hlinked⟩ | hstuck
  · have reports : Reports Set.univ Set.univ w (Kiflash.programUser env erase w).2 :=
      (ProgramCall.user erase).run_moves w
    exact .inl ⟨reports.qspiInitFlag hflag, linked_of_busSteps laws reports.bus hlinked⟩
  · exact .inr (carries_stuck.program (.user erase) w hstuck)

/-- The calls up to the place where they may reboot.  None of them resets the core once the
driver is linked to it, and a startup that fails fails for good. -/
theorem untilIcap_decided (laws : Reloading core) (h : Sound core w) {call : LibraryCall}
    {reaches : Bool} (hrun : call.untilIcap env w = (.ret reaches, w')) : Decided core w' := by
  -- each call begins with the initialisation, unless it finds the flag set
  have init : ∀ {status w₁}, kiflashInit env w = (.ret status, w₁) → Decided core w₁ :=
    fun hinit => (wp_of_ret hinit).mp (kiflashInit_decided laws h)
  cases call with
  | init =>
      obtain ⟨_, w₁, hinit, ⟨⟩⟩ := bind_eq_ret.mp hrun
      exact init hinit
  | programUser =>
      obtain ⟨_, w₁, hinit, hrun⟩ := bind_eq_ret.mp hrun
      obtain ⟨_, _, ⟨⟩, hrun⟩ := bind_eq_ret.mp hrun
      obtain ⟨_, w₂, hzero, hrun⟩ := bind_eq_ret.mp hrun
      obtain ⟨_, w₃, hprogram, ⟨⟩⟩ := bind_eq_ret.mp hrun
      obtain ⟨percentage, events, hstored⟩ :=
        setPercentage_eq env 0 { w₁ with flashData := w₁.flashData.select .user }
      have hdecided : Decided core w₂ := by
        rw [hstored] at hzero
        cases hzero
        exact (init hinit).of_eq rfl rfl
      have hprogrammed : Decided core (Kiflash.programUser env 1 w₂).2 :=
        programUser_decided laws 1 hdecided
      rw [hprogram] at hprogrammed
      exact hprogrammed
  | icap die =>
      obtain ⟨_, _, ⟨⟩, hrun⟩ := bind_eq_ret.mp hrun
      split at hrun
      · rename_i hflag
        cases hrun
        exact .inl ⟨hflag, h hflag⟩
      · obtain ⟨_, w₁, hinit, ⟨⟩⟩ := bind_eq_ret.mp hrun
        exact init hinit

/-! ## The reboot -/

/-- A write outside the SPI core gets to the device through an instance that reaches it. -/
theorem pciWriteReg_bus (address data : UInt64) (w : World (SpiCore ε)) (hpci : w.bus.spi.pci = true) :
    ∃ events, pciWriteReg address data w = (.ret (), { w with
      bus := { w.bus with device := PciDevice.write64 address data w.bus.device }, events }) := by
  have hbus : XSpiDriver.pciWriteReg address data w.bus =
      { w.bus with device := PciDevice.write64 address data w.bus.device } := if_pos hpci
  refine ⟨w.events ++ [.pciWrite w.bus address data], ?_⟩
  rw [← hbus]
  rfl

/-- The words go to the device one after the other. -/
theorem icapWords_bus (words : List UInt64) (w : World (SpiCore ε)) (hpci : w.bus.spi.pci = true) :
    ∃ events, icapWords words w = (.ret (), { w with
      bus := { w.bus with
        device := words.foldl
          (fun d word => PciDevice.write64 (icapBaseAddr + icapWriteFifo) word d) w.bus.device }
      events }) := by
  induction words generalizing w with
  | nil => exact ⟨w.events, rfl⟩
  | cons word words ih =>
      obtain ⟨events₁, hwrite⟩ := pciWriteReg_bus (icapBaseAddr + icapWriteFifo) word w hpci
      obtain ⟨events, hwords⟩ := ih { w with
        bus := { w.bus with
          device := PciDevice.write64 (icapBaseAddr + icapWriteFifo) word w.bus.device }
        events := events₁ } hpci
      exact ⟨events, bind_eq_ret.mpr ⟨(), _, hwrite, hwords⟩⟩

/-- `icap` succeeds always, and the device behind it is the rebooted one. -/
theorem icap_bus (die : UInt32) (w : World (SpiCore ε)) (hpci : w.bus.spi.pci = true) :
    ∃ events, icap die w = (.ret .success,
      { w with bus := { w.bus with device := reboot die w.bus.device }, events }) := by
  obtain ⟨events₁, hwords⟩ := icapWords_bus (iprogWords die) w hpci
  obtain ⟨events, hwrite⟩ := pciWriteReg_bus (icapBaseAddr + icapWriteControl) 0x00000001
    { w with
      bus := { w.bus with
        device := (iprogWords die).foldl
          (fun d word => PciDevice.write64 (icapBaseAddr + icapWriteFifo) word d) w.bus.device }
      events := events₁ } hpci
  exact ⟨events, bind_eq_ret.mpr ⟨(), _, hwords, bind_eq_ret.mpr ⟨(), _, hwrite, rfl⟩⟩⟩

/-- Behind an initialised driver, the reboot words leave the core neither enabled nor master,
while the flag and the instance say otherwise. -/
theorem not_agrees_of_reboot (laws : Reloading core) {status : Xst} (die : UInt32)
    (hflag : w.qspiInitFlag = true) (hlinked : Linked core w.bus)
    (hicap : icap die w = (.ret status, w')) :
    w'.qspiInitFlag = true ∧ Has Started w'.bus ∧ ¬ Running (core.control w'.bus.device) := by
  obtain ⟨events, hreboot⟩ := icap_bus die w hlinked.pci
  rw [hreboot] at hicap
  cases hicap
  refine ⟨hflag, hlinked.started, fun hrun => ?_⟩
  exact hrun xspCrEnableMask (by decide) (laws.control_reboot die _ _ (by decide))

/-- `icap` after the calls before it: whether the core agrees is whether the driver was
initialised.  An initialised driver is started and stays so, while the reboot leaves the core
without its enable bit. -/
theorem agrees_icap_iff (laws : Reloading core) {status : Xst} (die : UInt32) (h : Decided core w)
    (hicap : icap die w = (.ret status, w')) :
    (Agrees core w' ↔ ¬ w.qspiInitFlag = true) ∧ (Agrees core w' → Sound core w') := by
  rcases h with ⟨hflag, hlinked⟩ | hstuck
  · obtain ⟨hflag', hstarted', hstopped⟩ := not_agrees_of_reboot laws die hflag hlinked hicap
    have hno : ¬ Agrees core w' := fun hagrees => hstopped (hagrees hflag' hstarted')
    exact ⟨iff_of_false hno (not_not_intro hflag), fun hagrees => absurd hagrees hno⟩
  · have hflag' : w'.qspiInitFlag = false := by
      obtain ⟨bus, events, hreboot⟩ := icap_eq die w
      rw [hreboot] at hicap
      cases hicap
      exact hstuck.qspiInitFlag
    have hsound : Sound core w' := fun hflag => nomatch hflag.symm.trans hflag'
    refine ⟨iff_of_true hsound.agrees ?_, fun _ => hsound⟩
    rw [hstuck.qspiInitFlag]
    exact Bool.false_ne_true

/-- A call that comes to its end without `icap` does not reboot, and the driver agrees with
the core behind it. -/
theorem agrees_iff_of_decided (h : Decided core w') {call : LibraryCall}
    (huntil : ∃ w₁, call.untilIcap env w = (.ret false, w₁)) :
    (Agrees core w' ↔ ¬ call.Reboots env w) ∧ (Agrees core w' → Sound core w') := by
  refine ⟨iff_of_true h.sound.agrees ?_, fun _ => h.sound⟩
  rintro ⟨w₁, hreaches, -⟩
  obtain ⟨w₂, hreaches'⟩ := huntil
  exact nomatch hreaches.symm.trans hreaches'

/-- A call that goes on to `icap`: the flag at that place decides. -/
theorem agrees_iff_of_icap (laws : Reloading core) (h : Sound core w) {call : LibraryCall}
    {w₁ w₂ : World (SpiCore ε)} {status : Xst} (die : UInt32)
    (huntil : call.untilIcap env w = (.ret true, w₁)) (hicap : icap die w₁ = (.ret status, w₂)) :
    (Agrees core w₂ ↔ ¬ call.Reboots env w) ∧ (Agrees core w₂ → Sound core w₂) := by
  have hreboots : call.Reboots env w ↔ w₁.qspiInitFlag = true := by
    refine ⟨?_, fun hflag => ⟨w₁, huntil, hflag⟩⟩
    rintro ⟨w₁', huntil', hflag⟩
    cases huntil.symm.trans huntil'
    exact hflag
  rw [hreboots]
  exact agrees_icap_iff laws die (untilIcap_decided laws h huntil) hicap

/-- **One call.**  From a sound state, the core agrees behind the call if and only if the call
did not reboot it, and then the state is sound again.  The cases are the three calls of the
library, each cut where it comes to `icap`. -/
theorem LibraryCall.agrees_iff (laws : Reloading core) (h : Sound core w) {call : LibraryCall}
    {status : Xst} (hrun : call.run env w = (.ret status, w')) :
    (Agrees core w' ↔ ¬ call.Reboots env w) ∧ (Agrees core w' → Sound core w') := by
  cases call with
  | init =>
      have huntil : LibraryCall.untilIcap env .init w = (.ret false, w') :=
        bind_eq_ret.mpr ⟨status, w', hrun, rfl⟩
      exact agrees_iff_of_decided (untilIcap_decided laws h huntil) ⟨w', huntil⟩
  | programUser =>
      obtain ⟨status₁, w₁, hinit, hrun⟩ := bind_eq_ret.mp hrun
      obtain ⟨_, _, ⟨⟩, hrun⟩ := bind_eq_ret.mp hrun
      obtain ⟨_, w₂, hzero, hrun⟩ := bind_eq_ret.mp hrun
      have until_of : ∀ {status₂ w₃}, Kiflash.programUser env 1 w₂ = (.ret status₂, w₃) →
          LibraryCall.untilIcap env .programUser w = (.ret (status₂ = .success), w₃) :=
        fun hprogram => bind_eq_ret.mpr ⟨_, _, hinit, bind_eq_ret.mpr ⟨_, _, rfl,
          bind_eq_ret.mpr ⟨_, _, hzero, bind_eq_ret.mpr ⟨_, _, hprogram, rfl⟩⟩⟩⟩
      rcases check_eq_ret.mp hrun with ⟨w₃, hprogram, hrun⟩ | ⟨status₂, hprogram, hne, -⟩
      · obtain ⟨_, w₄, hicap, hrun⟩ := bind_eq_ret.mp hrun
        obtain ⟨_, w₅, hlast, ⟨⟩⟩ := bind_eq_ret.mp hrun
        obtain ⟨percentage, events, hstored⟩ := setPercentage_eq env 100 w₄
        rw [hstored] at hlast
        cases hlast
        -- the last percentage is no business of the core
        have hstep := agrees_iff_of_icap laws h 0 (until_of hprogram) hicap
        exact hstep
      · have huntil := until_of hprogram
        rw [decide_eq_false (p := status₂ = .success) hne] at huntil
        exact agrees_iff_of_decided (untilIcap_decided laws h huntil) ⟨w', huntil⟩
  | icap die =>
      obtain ⟨_, _, ⟨⟩, hrun⟩ := bind_eq_ret.mp hrun
      split at hrun
      · rename_i hflag
        have huntil : LibraryCall.untilIcap env (.icap die) w = (.ret true, w) :=
          bind_eq_ret.mpr ⟨_, _, rfl, by rw [if_pos hflag]; rfl⟩
        exact agrees_iff_of_icap laws h die huntil hrun
      · rename_i hflag
        obtain ⟨status₁, w₁, hinit, hrun⟩ := bind_eq_ret.mp hrun
        have huntil : LibraryCall.untilIcap env (.icap die) w = (.ret true, w₁) :=
          bind_eq_ret.mpr ⟨_, _, rfl, by
            rw [if_neg hflag]
            exact bind_eq_ret.mpr ⟨status₁, w₁, hinit, rfl⟩⟩
        exact agrees_iff_of_icap laws h die huntil hrun

/-- **When the driver and the core agree.**  After every call of a run of a fresh process, on
a core in any state, the core of an initialised and started driver is enabled and master, if
and only if no call of the run reboots the FPGA behind an initialised driver.

The first call that reboots spoils the state behind it, and up to this one all states are
sound, so that the condition can be told call by call from the state before each.  `laws` is
what is known of the core: which writes its control register sees, and that the reboot words
reset it. -/
theorem agreement_iff (laws : Reloading core) (calls : List LibraryCall) (device : ε) :
    (∀ step ∈ steps (LibraryCall.run env) calls (World.fresh (blank device)),
      Agrees core step.after) ↔
    ∀ step ∈ steps (LibraryCall.run env) calls (World.fresh (blank device)),
      ¬ step.call.Reboots env step.before :=
  forall_steps_iff_of (P := Sound core) (C := fun (call : LibraryCall) w => ¬ call.Reboots env w)
    (fun _ _ _ _ h hrun => LibraryCall.agrees_iff laws h hrun)
    fun (hflag : false = true) => nomatch hflag

end Calls

/-! ## An FPGA -/

/-- The SPI core of an FPGA, and the words in the write FIFO of its ICAP core.  The two cores
are on one bus, and a reboot resets the first. -/
structure Fpga where
  core : Axi
  icap : List UInt64

namespace Fpga

/-- The FIFO ends in a reboot command, for whatever address.  Eight words make one, the fifth
of which is the address. -/
def isIprog (words : List UInt64) : Bool :=
  let last := words.drop (words.length - 8)
  last.take 4 = [0xFFFFFFFF, 0xAA995566, 0x20000000, 0x30020001] ∧
    last.drop 5 = [0x30008001, 0x0000000F, 0x20000000]

/-- The ICAP core takes words, and executes them when its control register is written.  All
other addresses are those of the SPI core. -/
def write (address data : UInt64) (d : Fpga) : Fpga :=
  if address = icapBaseAddr + icapWriteFifo then { d with icap := d.icap ++ [data] }
  else if address = icapBaseAddr + icapWriteControl then
    { core := if isIprog d.icap then Axi.reset d.core.halted else d.core, icap := [] }
  else { d with core := Axi.write address data d.core }

end Fpga

instance : PciDevice Fpga where
  read64 address d := ((Axi.read address d.core).1, { d with core := (Axi.read address d.core).2 })
  write64 := Fpga.write

/-- The registers of the SPI core, as the results about controllers want them. -/
def Fpga.controller : Controller Fpga Axi.base where
  control d := d.core.control
  slaveSelect d := d.core.slaveSelect
  read_control d := Axi.controller.read_control d.core
  control_read address d := Axi.control_read address d.core
  slaveSelect_read address d := Axi.slaveSelect_read address d.core
  control_dgier _ _ := rfl
  slaveSelect_dgier _ _ := rfl

/-- A shift leaves the control register alone. -/
theorem Axi.control_shift (d : Axi) : d.shift.control = d.control := by
  unfold Axi.shift
  split <;> rfl

/-- The words of `iprogWords` end in a reboot command, whatever has been in the FIFO before
them. -/
theorem Fpga.isIprog_iprogWords (words : List UInt64) (die : UInt32) :
    isIprog (words ++ iprogWords die) = true := by
  have hlast : (words ++ iprogWords die).drop ((words ++ iprogWords die).length - 8) =
      iprogWords die := by
    rw [List.length_append]
    exact List.drop_left' (by simp [iprogWords])
  unfold isIprog
  rw [hlast]
  simp [iprogWords]

/-- So they reset the core.  The eight words end in a sequence that the core takes for a
reboot, whatever stood in the FIFO before. -/
theorem Fpga.reboot_eq (die : UInt32) (d : Fpga) : reboot die d = ⟨Axi.reset d.core.halted, []⟩ := by
  have hwords : ∀ (words : List UInt64) (d : Fpga), words.foldl
      (fun d word => Fpga.write (icapBaseAddr + icapWriteFifo) word d) d =
        { d with icap := d.icap ++ words } := by
    intro words
    induction words with
    | nil => intro d; simp
    | cons word words ih =>
        intro d
        rw [List.foldl_cons, ih]
        simp [Fpga.write]
  have hreboot : reboot die d = Fpga.write (icapBaseAddr + icapWriteControl) 0x00000001
      ((iprogWords die).foldl (fun d word => Fpga.write (icapBaseAddr + icapWriteFifo) word d) d) := rfl
  rw [hreboot, hwords, Fpga.write, if_neg (by decide), if_pos rfl]
  simp only [isIprog_iprogWords, if_true]

/-- Writes to other registers of the SPI core leave its control register alone. -/
theorem Axi.control_write (address data : UInt64) (d : Axi)
    (hreset : address - base ≠ xspSrrOffset.toUInt64) (hcontrol : address - base ≠ xspCrOffset.toUInt64) :
    (Axi.write address data d).control = d.control := by
  simp only [Axi.write, if_neg hreset, if_neg hcontrol]
  split_ifs <;> simp [Axi.control_shift]

/-- A write outside the ICAP core is one to the SPI core. -/
theorem Fpga.write_of_ne {address : UInt64} (data : UInt64) (d : Fpga)
    (hfifo : address ≠ icapBaseAddr + icapWriteFifo)
    (hcontrol : address ≠ icapBaseAddr + icapWriteControl) :
    PciDevice.write64 address data d = { d with core := Axi.write address data d.core } := by
  change Fpga.write address data d = _
  rw [Fpga.write, if_neg hfifo, if_neg hcontrol]

/-- The FPGA obeys the laws.  The two cores share the bus, and their addresses do not meet. -/
theorem Fpga.reloading : Reloading Fpga.controller where
  control_plain offset hoffset data d := by
    have hplain : ∀ offset ∈ SpiCore.plainOffsets,
        (Axi.base + offset.toUInt64 ≠ icapBaseAddr + icapWriteFifo ∧
          Axi.base + offset.toUInt64 ≠ icapBaseAddr + icapWriteControl) ∧
        Axi.base + offset.toUInt64 - Axi.base ≠ xspSrrOffset.toUInt64 ∧
          Axi.base + offset.toUInt64 - Axi.base ≠ xspCrOffset.toUInt64 := by
      simp only [SpiCore.plainOffsets, List.forall_mem_cons, List.not_mem_nil, false_implies,
        implies_true, and_true]
      decide
    obtain ⟨⟨hfifo, hicap⟩, hreset, hcontrol⟩ := hplain offset hoffset
    rw [Fpga.write_of_ne data d hfifo hicap]
    exact Axi.control_write _ data d.core hreset hcontrol
  control_written data d mask hmask := by
    rw [Fpga.write_of_ne data d (by decide) (by decide)]
    have hcontrol : (Axi.write (Axi.base + xspCrOffset.toUInt64) data d.core).control =
        data.toUInt32 &&& ~~~(xspCrTxfifoResetMask ||| xspCrRxfifoResetMask) := Axi.control_shift _
    change (Axi.write _ data d.core).control &&& mask = _
    rw [hcontrol]
    exact sameRun_clear (forall_runMasks.mpr (by decide)) mask hmask
  control_reboot die d mask hmask := by
    rw [Fpga.reboot_eq]
    change 0x180 &&& mask = 0
    revert mask
    exact forall_runMasks.mpr (by decide)

/-- An FPGA after power-up: the core as its reset leaves it, and no words. -/
def Fpga.powerUp : Fpga := ⟨Axi.reset false, []⟩

/-- The first initialisation of a fresh process on it: the flag is set, the instance started,
and the core runs. -/
theorem agreement_init :
    ∃ step ∈ steps (LibraryCall.run patientEnv) [.init] (World.fresh (blank Fpga.powerUp)),
      step.value = .success ∧ step.after.qspiInitFlag = true ∧ Has Started step.after.bus ∧
      Running (Fpga.controller.control step.after.bus.device) := by
  have hagrees : ∀ step ∈ steps (LibraryCall.run patientEnv) [.init]
      (World.fresh (blank Fpga.powerUp)), Agrees Fpga.controller step.after := by
    refine (agreement_iff Fpga.reloading _ _).mpr fun step hstep => ?_
    obtain ⟨value, w', -, rfl | hrest⟩ := mem_steps_cons hstep
    · rintro ⟨w₁, huntil, -⟩
      obtain ⟨_, _, -, hfalse⟩ := bind_eq_ret.mp huntil
      exact nomatch hfalse
    · exact nomatch hrest
  have hflags : ∃ step ∈ steps (LibraryCall.run patientEnv) [.init]
      (World.fresh (blank Fpga.powerUp)), step.value = .success ∧
      step.after.qspiInitFlag = true ∧ step.after.bus.spi.isStarted = xilComponentIsStarted := by
    decide +kernel
  obtain ⟨step, hstep, hok, hflag, hstarted⟩ := hflags
  exact ⟨step, hstep, hok, hflag, hstarted, hagrees step hstep hflag hstarted⟩

/-- A reboot behind it resets the core and leaves the driver as it was.  Both calls
succeed. -/
theorem agreement_counterexample :
    ∃ step ∈ steps (LibraryCall.run patientEnv) [.init, .icap 0]
      (World.fresh (blank Fpga.powerUp)), step.value = .success ∧
      step.after.qspiInitFlag = true ∧ step.after.bus.spi.isStarted = xilComponentIsStarted ∧
      step.after.bus.device.core = Axi.reset false ∧
      ¬ Running (Fpga.controller.control step.after.bus.device) := by
  decide +kernel

end Kiflash
