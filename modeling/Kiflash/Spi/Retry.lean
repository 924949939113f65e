import Kiflash.Operations
import Kiflash.Spi.Timeout

/-!
# A failed startup cannot be retried

`XSpi_CfgInitialize` refuses a driver instance that is started, and `System_init_startup`
starts it before its first transfer.  A startup that fails therefore leaves `IsStarted` set
and `qspi_init_flag` clear (`Stuck`), and no function of the flash code undoes that: nothing
calls `XSpi_Stop` or `XSpi_Reset` on a started instance.  Whatever is called afterwards and
whatever becomes of the device, every further startup is refused.

* `TransferFlows`, `CallFlows` — the accesses that the calls of the driver are made of, for
  any property of the driver.
* `Stuck` — the states that a failed startup leaves.
* `Step` — an operation, or a change of the device behind the registers.
* `failed_startup_never_retried` — no run of steps leads out.

### Flows

That a call keeps a property, or moves along a preorder in general, is a matter of the
accesses that it makes.  `Timeout` has this for the rounds of a transfer, and here it is
extended twice, to whole transfers and to the other calls.  Each structure lists the accesses
that are allowed, and the lemmas in its namespace bear the names of the calls.  They are used
with several relations: for the instance that stays started, for the link of `Linked`, and for
the interrupts of `Requests`.

### Why nothing recovers

The flag is set only where a startup has succeeded.  A startup is refused by
`XSpi_CfgInitialize` if the instance is started; if it is not, none of the calls up to
`XSpi_Start` can fail, and `System_init_startup` does not stop the instance when a later one
does.  So a startup ends with the instance started, however it comes out, and `Stuck` is
preserved by every operation since each begins with the test of the flag.  In between the
device may change in any way, even be repaired.
-/

open Imperative Imperative.Prog

namespace Kiflash

namespace SpiCore

variable {ε : Type} [PciDevice ε] {s s' : SpiCore ε}

/-! ## A started instance stays started -/

/-- The instance is started.  Nothing but a reset or a stop takes this back, and the flash
code calls neither. -/
def Started (spi : XSpi) : Prop := spi.isStarted = xilComponentIsStarted

/-- The transfers leave `IsStarted` alone. -/
theorem steady_started : Steady Started := fun _ _ _ _ h => h

/-- What a transfer is made of moves along `r`: its rounds, its writes, and the fields of the
request. -/
structure TransferFlows (r : SpiCore ε → SpiCore ε → Prop) : Prop extends RoundFlows r where
  write : ∀ address ∈ plainOffsets, ∀ data, Moves r (xspiPciWriteReg address data)
  request : ∀ s isBusy requestedBytes,
    r s { s with spi := { s.spi with isBusy, requestedBytes } }

namespace TransferFlows

variable {r : SpiCore ε → SpiCore ε → Prop} [IsPreorder (SpiCore ε) r] (hr : TransferFlows r)
include hr

theorem xspiGetControlReg : Moves r (xspiGetControlReg (ε := ε)) :=
  (hr.read _ (by decide)).bind fun _ => moves_pure _

theorem xspiIntrEnable (enableMask : UInt32) : Moves r (xspiIntrEnable (ε := ε) enableMask) :=
  (hr.read _ (by decide)).bind fun _ => hr.write _ (by decide) _

/-- The transfer behind its checks.  The relation is one that polling, draining and filling
move along, and the rest is a few accesses. -/
theorem startTransfer (rounds : ℕ) (buffer : ℕ → UInt8) (recv : Bool) (byteCount : UInt32)
    (globalIntrReg : Bool) :
    Moves r (startTransfer (ε := ε) rounds buffer recv byteCount globalIntrReg) := by
  have polled : ∀ dataWidth data,
      Moves r (polledTransfer (ε := ε) rounds dataWidth byteCount data) := fun _ _ =>
    (Moves.loop (hr.polledRound _ _) _ _).check <| hr.inhibit.bind fun _ =>
      (moves_gets _).bind fun _ => (hr.write _ (by decide) _).bind fun _ =>
      Moves.bind (moves_modify fun s => hr.request s false s.spi.requestedBytes) fun _ =>
      moves_pure _
  unfold SpiCore.startTransfer
  refine Moves.bind (moves_modify fun s => ?_) fun _ => (moves_gets _).bind fun spi => ?_
  · exact trans_of r (hr.buffers s buffer (if recv then some [] else none) byteCount)
      (hr.request _ true byteCount)
  refine hr.xspiGetStatusReg.bind fun _ => (hr.read _ (by decide)).bind fun statusReg => ?_
  refine (Moves.loop (hr.fillRound _) _ _).bind fun data => ?_
  refine (hr.write _ (by decide) _).bind fun _ => hr.uninhibit.bind fun _ => ?_
  refine (hr.read _ (by decide)).bind fun _ => Moves.ite ?_ (polled _ _)
  exact (hr.xspiIntrEnable _).bind fun _ => (hr.write _ (by decide) _).bind fun _ => moves_pure _

/-- The transfer behind its first checks. -/
theorem admitted (rounds : ℕ) (buffer : ℕ → UInt8) (recv : Bool) (byteCount : UInt32) (spi : XSpi) :
    Moves r (do
      let globalIntrReg ← xspiIsIntrGlobalEnabled
      xspiIntrGlobalDisable
      let controlReg ← SpiCore.xspiGetControlReg (ε := ε)
      if controlReg &&& xspCrMasterModeMask ≠ 0 ∧ controlReg &&& xspCrLoopbackMask = 0 ∧
          spi.slaveSelectReg = spi.slaveSelectMask then do
        if globalIntrReg then xspiIntrGlobalEnable
        pure .spiNoSlave
      else SpiCore.startTransfer rounds buffer recv byteCount globalIntrReg) := by
  refine ((hr.read _ (by decide)).bind fun _ => moves_pure _).bind fun globalIntrReg => ?_
  refine (hr.write _ (by decide) _).bind fun _ => hr.xspiGetControlReg.bind fun _ => ?_
  refine Moves.ite (Moves.ite ?_ (moves_pure _)) (hr.startTransfer _ _ _ _ _)
  exact (hr.write _ (by decide) _).bind fun _ => moves_pure _

/-- The transfer, refused or not. -/
theorem xspiTransfer (rounds : ℕ) (send : Option (ℕ → UInt8)) (recv : Bool) (byteCount : UInt32) :
    Moves r (xspiTransfer (ε := ε) rounds send recv byteCount) := by
  refine (moves_gets _).bind fun spi => ?_
  cases send with
  | none => exact moves_pure _
  | some buffer =>
      exact (moves_pure _).ite ((moves_pure _).ite ((moves_pure _).ite (hr.admitted _ _ _ _ _)))

end TransferFlows

/-- What the other calls of the driver are made of moves along `r`: the control register, the
reset, and the settings. -/
structure CallFlows (r : SpiCore ε → SpiCore ε → Prop) : Prop extends TransferFlows r where
  setControl : ∀ mask, Moves r (xspiSetControlReg mask)
  reset : Moves r (xspiPciWriteReg xspSrrOffset xspSrrResetMask)
  settings : ∀ s isStarted slaveSelectReg,
    r s { s with spi := { s.spi with isStarted, slaveSelectReg } }

namespace CallFlows

variable {r : SpiCore ε → SpiCore ε → Prop} [IsPreorder (SpiCore ε) r] (hr : CallFlows r)
include hr

theorem xspiAbort : Moves r (xspiAbort (ε := ε)) := by
  refine (moves_gets _).bind fun _ => (hr.write _ (by decide) _).bind fun _ => ?_
  refine hr.xspiGetControlReg.bind fun _ => (hr.setControl _).bind fun _ => moves_modify fun s => ?_
  exact trans_of r (hr.buffers s s.spi.sendBuffer s.spi.recvBuffer 0) (hr.request _ false 0)

theorem xspiReset : Moves r (xspiReset (ε := ε)) :=
  hr.xspiAbort.bind fun _ =>
    Moves.bind (moves_modify fun s => hr.settings s 0 s.spi.slaveSelectMask) fun _ => hr.reset

theorem startupRead : Moves r (startupRead (ε := ε)) := by
  have hlast : Moves r (do
      let statusReg ← SpiCore.xspiGetStatusReg (ε := ε)
      if statusReg &&& xspSrRxEmptyMask = 0 then do
        let _ ← xspiPciReadReg xspDrrOffset) :=
    hr.xspiGetStatusReg.bind fun _ =>
      ((hr.read _ (by decide)).bind fun _ => moves_pure _).ite (moves_pure _)
  refine hr.xspiGetControlReg.bind fun _ => (hr.setControl _).bind fun _ => ?_
  refine (hr.writeData _).bind fun _ => (hr.writeData _).bind fun _ => ?_
  refine (hr.writeData _).bind fun _ => hr.uninhibit.bind fun _ => ?_
  refine hr.inhibit.bind fun _ => hr.xspiGetStatusReg.bind fun _ => ?_
  exact Moves.ite ((hr.read _ (by decide)).bind fun _ => hlast) hlast

theorem xspiSetOptions (options : UInt32) : Moves r (xspiSetOptions (ε := ε) options) :=
  (moves_gets _).bind fun _ => (moves_pure _).ite <| (moves_pure _).ite <|
    hr.xspiGetControlReg.bind fun _ => (hr.setControl _).bind fun _ => moves_pure _

theorem xspiSetSlaveSelect (slaveMask : UInt32) : Moves r (xspiSetSlaveSelect (ε := ε) slaveMask) :=
  (moves_gets _).bind fun _ => (moves_pure _).ite <| (moves_pure _).ite <|
    Moves.bind (moves_modify fun s => hr.settings s s.spi.isStarted _) fun _ => moves_pure _

theorem xspiStart : Moves r (xspiStart (ε := ε)) := by
  refine (moves_gets _).bind fun _ => (moves_pure _).ite <| (moves_pure _).ite ?_
  refine (hr.xspiIntrEnable _).bind fun _ => Moves.bind (moves_modify fun s => ?_) fun _ => ?_
  · exact hr.settings s xilComponentIsStarted s.spi.slaveSelectReg
  · exact hr.xspiGetControlReg.bind fun _ => (hr.setControl _).bind fun _ =>
      (hr.write _ (by decide) _).bind fun _ => (hr.write _ (by decide) _).bind fun _ => moves_pure _

end CallFlows

/-- The state behind a transfer as the flash code calls it, in terms of the call of the
driver. -/
theorem driverTransfer_snd (rounds : ℕ) (frame : List UInt8) (recv : Bool) (s : SpiCore ε) :
    (XSpiDriver.xspiTransfer rounds frame recv s).2 =
      (xspiTransfer rounds (some fun i => frame.getD i 0) recv (UInt32.ofNat frame.length)
        { s with spi := { s.spi with recvBuffer := s.spi.recvBuffer.map fun _ => [] } }).2 := by
  simp only [XSpiDriver.xspiTransfer]
  split <;> rename_i heq <;> rw [heq]

/-- `P` of the driver is kept by whatever a transfer does, the marks of the request
included. -/
structure Lasting (P : SpiCore ε → Prop) : Prop extends Undisturbed P where
  request : ∀ s isBusy requestedBytes, P s →
    P { s with spi := { s.spi with isBusy, requestedBytes } }

/-- That the instance is started is such a property. -/
theorem lasting_started : Lasting (Has (ε := ε) Started) where
  toUndisturbed := steady_started.undisturbed
  request _ _ _ h := h

namespace Lasting

variable {P : SpiCore ε → Prop} (hP : Lasting P)
include hP

/-- So transfers keep it. -/
theorem transferFlows : TransferFlows (Keeps P) where
  toRoundFlows := hP.roundFlows
  write := hP.write
  request := hP.request

/-- The transfer as the flash code calls it. -/
theorem driverTransfer (rounds : ℕ) (frame : List UInt8) (recv : Bool) (s : SpiCore ε) (h : P s) :
    P (XSpiDriver.xspiTransfer rounds frame recv s).2 := by
  rw [driverTransfer_snd]
  exact hP.transferFlows.xspiTransfer _ _ _ _ _
    (hP.buffers s s.spi.sendBuffer _ s.spi.remainingBytes h)

end Lasting

/-- A started instance is not configured again. -/
theorem xspiCfgInitialize_of_started (config : XSpiConfig) (h : Has Started s) :
    xspiCfgInitialize config s = (.ret .deviceIsStarted, s) := by
  have hstarted : s.spi.isStarted = xilComponentIsStarted := h
  refine (bind_of_ret (rfl : gets (fun s => s.spi) s = (.ret s.spi, s))).trans ?_
  rw [if_pos hstarted]
  rfl

/-- The options do not stop it. -/
theorem xspiSetOptions_keeps (options : UInt32) :
    Moves (Keeps (Has (ε := ε) Started)) (xspiSetOptions options) :=
  (moves_gets _).bind fun _ => (moves_pure _).ite <| (moves_pure _).ite <|
    xspiGetControlReg_keeps.bind fun _ => (xspiPciWriteReg_keeps _ _).bind fun _ => moves_pure _

omit [PciDevice ε] in
/-- Neither does the selection of a slave. -/
theorem xspiSetSlaveSelect_keeps (slaveMask : UInt32) {P : SpiCore ε → Prop}
    (hP : ∀ s slaveSelectReg, P s → P { s with spi := { s.spi with slaveSelectReg } }) :
    Moves (Keeps P) (xspiSetSlaveSelect slaveMask) :=
  (moves_gets _).bind fun _ => (moves_pure _).ite <| (moves_pure _).ite <|
    Moves.bind (moves_modify fun s h => hP s _ h) fun _ => moves_pure _

/-- Nor a start. -/
theorem xspiStart_keeps : Moves (Keeps (Has (ε := ε) Started)) xspiStart := by
  refine (moves_gets _).bind fun _ => (moves_pure _).ite <| (moves_pure _).ite ?_
  refine (xspiIntrEnable_keeps _).bind fun _ => Moves.bind (moves_modify fun _ _ => ?_) fun _ => ?_
  · exact rfl
  · exact xspiGetControlReg_keeps.bind fun _ => (xspiPciWriteReg_keeps _ _).bind fun _ =>
      (xspiPciWriteReg_keeps _ _).bind fun _ => (xspiPciWriteReg_keeps _ _).bind fun _ =>
      moves_pure _

omit [PciDevice ε] in
/-- Taking a status for an outcome leaves the state alone. -/
theorem statusOf_snd (run : Outcome Xst × SpiCore ε) : (statusOf run).2 = run.2 := by
  rcases run with ⟨_ | _, _⟩ <;> rfl

/-- No call of the flash code stops a started instance.  A reset would, but it is only called
by a configuration, which a started instance refuses. -/
theorem started_of_busStep {A : Set (List UInt8)} (hstep : BusStep A s s') (h : Has Started s) :
    Has Started s' := by
  cases hstep with
  | transfer rounds frame recv => exact lasting_started.driverTransfer rounds frame recv s h
  | pciInitialize => exact h
  | cfgInitialize config =>
      change Has Started (statusOf (xspiCfgInitialize config s)).2
      rw [xspiCfgInitialize_of_started config h]
      exact h
  | setOptions => exact (statusOf_snd _).symm ▸ xspiSetOptions_keeps _ s h
  | setSlaveSelect slaveMask =>
      exact (statusOf_snd _).symm ▸ xspiSetSlaveSelect_keeps slaveMask (fun _ _ h => h) s h
  | start => exact (statusOf_snd _).symm ▸ xspiStart_keeps s h

/-- And so no number of them. -/
theorem started_of_busSteps {A : Set (List UInt8)} (hsteps : Relation.ReflTransGen (BusStep A) s s')
    (h : Has Started s) : Has Started s' := by
  induction hsteps with
  | refl => exact h
  | tail _ hstep ih => exact started_of_busStep hstep ih

/-! ## The startup starts the instance -/

section Startup

variable {Q : Unit → SpiCore ε → Prop} {R : Stop → SpiCore ε → Prop} {config : XSpiConfig}

/-- A read of a register returns something and changes the device at most. -/
theorem wp_xspiPciReadReg {Q : UInt64 → SpiCore ε → Prop} (address : UInt32)
    (h : ∀ value device, Q value { s with device }) : wp (xspiPciReadReg address) Q R s := by
  by_cases hpci : s.spi.pci = true
  · exact (wp_of_ret (by rw [xspiPciReadReg, if_pos hpci])).mpr (h _ _)
  · exact (wp_of_ret (by rw [xspiPciReadReg, if_neg hpci])).mpr (h _ s.device)

/-- A write to a register changes the device at most. -/
theorem wp_xspiPciWriteReg (address : UInt32) (data : UInt64) (h : ∀ device, Q () { s with device }) :
    wp (xspiPciWriteReg address data) Q R s := by
  refine wp_modify.mpr ?_
  split
  · exact h _
  · exact h s.device

/-- The control register is one of them. -/
theorem wp_xspiGetControlReg {Q : UInt32 → SpiCore ε → Prop}
    (h : ∀ value device, Q value { s with device }) : wp xspiGetControlReg Q R s :=
  wp_bind.mpr (wp_xspiPciReadReg _ fun _ device => h _ device)

/-- So is the interrupt enable register. -/
theorem wp_xspiIntrEnable (enableMask : UInt32) (h : ∀ device, Q () { s with device }) :
    wp (xspiIntrEnable enableMask) Q R s :=
  wp_bind.mpr (wp_xspiPciReadReg _ fun _ _ => wp_xspiPciWriteReg _ _ h)

/-- The reset clears the fields of the request and no others. -/
theorem wp_xspiReset
    (h : ∀ device, Q ()
      { spi := { s.spi with
          remainingBytes := 0
          requestedBytes := 0
          isBusy := false
          isStarted := 0
          slaveSelectReg := s.spi.slaveSelectMask }
        device }) : wp xspiReset Q R s := by
  refine wp_bind.mpr (wp_bind.mpr (wp_gets.mpr (wp_bind.mpr (wp_xspiPciWriteReg _ _ fun _ => ?_))))
  refine wp_bind.mpr (wp_xspiGetControlReg fun value _ => wp_bind.mpr ?_)
  refine wp_xspiPciWriteReg _ _ fun _ => wp_modify.mpr (wp_bind.mpr (wp_modify.mpr ?_))
  exact wp_xspiPciWriteReg _ _ h

/-- The instance has accepted `config` and is neither busy nor started.  It is what
`XSpi_CfgInitialize` leaves when it succeeds. -/
structure Accepted (config : XSpiConfig) (spi : XSpi) : Prop where
  isReady : spi.isReady = xilComponentIsReady
  slaveOnly : spi.slaveOnly = config.slaveOnly
  numSlaveBits : spi.numSlaveBits = config.numSlaveBits
  isBusy : spi.isBusy = false
  isStarted : spi.isStarted = 0

/-- `XSpi_CfgInitialize` accepts an instance that is not started. -/
theorem xspiCfgInitialize_of_not_started (hstartup : config.useStartup ≠ 1) (h : ¬ Has Started s) :
    wp (xspiCfgInitialize config)
      (fun status s' => status = .success ∧ Accepted config s'.spi) (fun _ _ => False) s := by
  refine wp_bind.mpr (wp_gets.mpr (wp_ite.mpr ⟨fun hstarted => absurd hstarted h, fun _ => ?_⟩))
  refine wp_bind.mpr (wp_modify.mpr (wp_ite.mpr ⟨fun h => absurd h hstartup, fun _ => ?_⟩))
  exact wp_bind.mpr (wp_xspiReset fun _ => ⟨rfl, rfl, rfl, rfl, rfl, rfl⟩)

/-- `XSpi_SetOptions` cannot fail then: the instance is neither busy nor a slave. -/
theorem xspiSetOptions_of_accepted (options : UInt32) (hmaster : config.slaveOnly = false)
    (h : Accepted config s.spi) :
    wp (xspiSetOptions options) (fun status s' => status = .success ∧ Accepted config s'.spi)
      (fun _ _ => False) s := by
  refine wp_bind.mpr (wp_gets.mpr (wp_ite.mpr ⟨fun hbusy => ?_, fun _ => ?_⟩))
  · exact absurd hbusy (not_busy h.isBusy)
  refine wp_ite.mpr ⟨?_, fun _ => ?_⟩
  · rintro ⟨-, hslave⟩
    rw [h.slaveOnly, hmaster] at hslave
    exact nomatch hslave
  · refine wp_bind.mpr (wp_xspiGetControlReg fun _ _ => wp_bind.mpr ?_)
    exact wp_xspiPciWriteReg _ _ fun _ => ⟨rfl, h⟩

omit [PciDevice ε] in
/-- Nor can `XSpi_SetSlaveSelect`, for a mask of at most one line. -/
theorem xspiSetSlaveSelect_of_accepted (slaveMask : UInt32)
    (hmask : numAsserted slaveMask config.numSlaveBits ≤ 1) (h : Accepted config s.spi) :
    wp (xspiSetSlaveSelect slaveMask) (fun status s' => status = .success ∧ Accepted config s'.spi)
      (fun _ _ => False) s := by
  refine wp_bind.mpr (wp_gets.mpr (wp_ite.mpr ⟨fun hbusy => ?_, fun _ => ?_⟩))
  · exact absurd hbusy (not_busy h.isBusy)
  refine wp_ite.mpr ⟨?_, fun _ => ?_⟩
  · intro hmany
    rw [h.numSlaveBits] at hmany
    omega
  · exact wp_bind.mpr (wp_modify.mpr ⟨rfl, h.1, h.2, h.3, h.4, h.5⟩)

/-- `XSpi_Start` starts it.  The instance is ready and has not been started, so it gets past
both checks. -/
theorem xspiStart_of_accepted (h : Accepted config s.spi) :
    wp xspiStart (fun _ s' => Has Started s') (fun _ _ => False) s := by
  have hstopped : ¬ s.spi.isStarted = xilComponentIsStarted := by
    rw [h.isStarted]
    decide
  refine wp_bind.mpr (wp_gets.mpr (wp_ite.mpr ⟨fun hready => absurd h.isReady hready, fun _ =>
    wp_ite.mpr ⟨fun hstarted => absurd hstarted hstopped, fun _ => ?_⟩⟩))
  refine wp_bind.mpr (wp_xspiIntrEnable _ fun _ => wp_bind.mpr (wp_modify.mpr ?_))
  refine wp_bind.mpr (wp_xspiGetControlReg fun _ _ => wp_bind.mpr ?_)
  refine wp_xspiPciWriteReg _ _ fun _ => wp_bind.mpr ?_
  refine wp_xspiPciWriteReg _ _ fun _ => wp_bind.mpr ?_
  exact wp_xspiPciWriteReg _ _ fun _ => rfl

end Startup

end SpiCore

/-! ## Stuck states -/

open SpiCore

variable {ε : Type} [PciDevice ε] {env : Env} {w w' : World (SpiCore ε)}

/-- The driver instance is started, and the flash code has not noted it as initialised.  The
next startup finds the instance started and is refused, and so is every one after it. -/
structure Stuck (w : World (SpiCore ε)) : Prop where
  qspiInitFlag : w.qspiInitFlag = false
  started : Has Started w.bus

/-- The flag is set only after a configuration was accepted, which a started instance
does not do. -/
theorem Stuck.of_talks {A : Set (List UInt8)} (h : Talks A w w') (hstuck : Stuck w) : Stuck w' := by
  refine ⟨Bool.eq_false_iff.mpr fun hset => ?_, started_of_busSteps h.bus hstuck.started⟩
  obtain ⟨config, bus, hbus, hconfig⟩ := h.configured hstuck.qspiInitFlag hset
  have hstarted := started_of_busSteps hbus hstuck.started
  change (statusOf (xspiCfgInitialize config bus)).1 = _ at hconfig
  rw [xspiCfgInitialize_of_started config hstarted] at hconfig
  exact nomatch hconfig

/-- Every operation keeps a stuck state. -/
theorem carries_stuck : Carries (σ := SpiCore ε) env (Keeps Stuck) := by
  refine .of_talks (fun hbus hflag _ _ hstuck => ⟨hflag.trans hstuck.qspiInitFlag, ?_⟩)
    (fun address data => moves_modify fun w hstuck => ⟨hstuck.qspiInitFlag, ?_⟩)
    fun _ _ => Stuck.of_talks
  · rw [hbus]
    exact hstuck.started
  · change Has Started (if w.bus.spi.pci then _ else _)
    split
    · exact hstuck.started
    · exact hstuck.started

omit [PciDevice ε] in
/-- A driver call changes nothing but the bus. -/
theorem wp_callDriver_statusOf {m : Prog (SpiCore ε) Xst} {P : Xst → SpiCore ε → Prop}
    {Q : Xst → World (SpiCore ε) → Prop} {R : Stop → World (SpiCore ε) → Prop}
    (h : wp m P (fun _ _ => False) w.bus)
    (hret : ∀ status w', w'.qspiInitFlag = w.qspiInitFlag → P status w'.bus → Q status w') :
    wp (callDriver fun s => statusOf (m s)) Q R w := by
  obtain ⟨status, bus, hm, hP⟩ := exists_ret_of_wp h
  refine wp_callDriver.mpr ?_
  rw [hm]
  exact hret status { w with bus } rfl hP

/-- What the startup relies on of the entry in the configuration table. -/
theorem xspiLookupConfig_spi : ∃ config, xspiLookupConfig spiDeviceId = some config ∧
    config.useStartup ≠ 1 ∧ config.slaveOnly = false ∧
    numAsserted spiSelect config.numSlaveBits ≤ 1 :=
  ⟨_, rfl, by decide, by decide, by decide⟩

/-- The startup of a started instance is refused before it touches the device. -/
theorem systemInitStartup_of_started (h : Has Started w.bus) :
    wp (systemInitStartup env)
      (fun status w' => status = .failure ∧ w'.qspiInitFlag = w.qspiInitFlag ∧ Has Started w'.bus)
      (fun _ _ => False) w := by
  obtain ⟨config, hlookup, -⟩ := xspiLookupConfig_spi
  have hrefused : wp (xspiCfgInitialize config) (fun status s => status ≠ .success ∧ Has Started s)
      (fun _ _ => False) (XSpiDriver.xspiPciInitialize w.bus) :=
    (wp_of_ret (xspiCfgInitialize_of_started (s := XSpiDriver.xspiPciInitialize w.bus) config
      h)).mpr ⟨by decide, h⟩
  rw [systemInitStartup, hlookup]
  refine wp_bind.mpr (wp_modify.mpr (wp_check.mpr ?_))
  exact wp_callDriver_statusOf hrefused fun status w₁ hflag h₁ =>
    ⟨fun hok => absurd hok h₁.1, fun _ => ⟨rfl, hflag, h₁.2⟩⟩

/-- **A startup ends in a stuck state, however it comes out**: the flag is its callers' to
set.  The calls up to `XSpi_Start` are followed one by one, and from there on the instance
stays started. -/
theorem systemInitStartup_stuck (hflag : w.qspiInitFlag = false) :
    wp (systemInitStartup env) (fun _ w' => Stuck w') (fun _ _ => True) w := by
  by_cases hstarted : Has Started w.bus
  · exact wp_mono (systemInitStartup_of_started hstarted)
      (fun _ _ h => ⟨h.2.1.trans hflag, h.2.2⟩) fun _ _ _ => trivial
  obtain ⟨config, hlookup, hstartup, hmaster, hselect⟩ := xspiLookupConfig_spi
  rw [systemInitStartup, hlookup]
  -- no call refuses an instance that has just been configured
  refine wp_bind.mpr (wp_modify.mpr (wp_check.mpr (wp_callDriver_statusOf
    (xspiCfgInitialize_of_not_started hstartup hstarted)
    fun status w₁ hflag₁ h₁ => ⟨fun _ => ?_, fun hne => absurd h₁.1 hne⟩)))
  refine wp_check.mpr (wp_callDriver_statusOf (xspiSetOptions_of_accepted _ hmaster h₁.2)
    fun status w₂ hflag₂ h₂ => ⟨fun _ => ?_, fun hne => absurd h₂.1 hne⟩)
  refine wp_check.mpr (wp_callDriver_statusOf (xspiSetSlaveSelect_of_accepted _ hselect h₂.2)
    fun status w₃ hflag₃ h₃ => ⟨fun _ => ?_, fun hne => absurd h₃.1 hne⟩)
  refine wp_bind.mpr (wp_callDriver_statusOf (xspiStart_of_accepted h₃.2)
    fun _ w₄ hflag₄ h₄ => ?_)
  have hstuck : Stuck w₄ :=
    ⟨hflag₄.trans (hflag₃.trans (hflag₂.trans (hflag₁.trans hflag))), h₄⟩
  have henable : Moves (Keeps Stuck) (check (spiFlashWriteEnable (σ := SpiCore ε) env)
      (pure .success)) := carries_stuck.spiFlashWriteEnable.check (moves_pure _)
  exact wp_mono (henable.wp w₄) (fun _ _ h => h hstuck) fun _ _ _ => trivial

/-! ## Runs after a failed startup -/

/-- An operation, with whatever the file system and the heap then have to offer, or a change
of the device behind the registers. -/
inductive Step : World (SpiCore ε) → World (SpiCore ε) → Prop
  | operation (env : Env) (operation : Operation) (w : World (SpiCore ε)) :
    Step w (operation.run env w).2
  | device (change : ε → ε) (w : World (SpiCore ε)) :
    Step w { w with bus := { w.bus with device := change w.bus.device } }

/-- No step leads out of a stuck state, -/
theorem Stuck.step (hstep : Step w w') (h : Stuck w) : Stuck w' := by
  cases hstep with
  | operation env operation => exact carries_stuck.run (fun _ _ h => ⟨h.1, h.2⟩) operation w h
  | device => exact ⟨h.qspiInitFlag, h.started⟩

/-- and no run does. -/
theorem Stuck.run (hsteps : Relation.ReflTransGen Step w w') (h : Stuck w) : Stuck w' := by
  induction hsteps with
  | refl => exact h
  | tail _ hstep ih => exact ih.step hstep

/-- The test of the flag finds it clear, and the startup is refused. -/
theorem ensureInit_of_stuck (h : Stuck w) :
    wp (ensureInit env) (fun status _ => status = .failure) (fun _ _ => False) w := by
  refine wp_bind.mpr (wp_gets.mpr (wp_ite.mpr ⟨fun hset => ?_, fun _ => ?_⟩))
  · exact nomatch h.qspiInitFlag.symm.trans hset
  · refine wp_check.mpr (wp_mono (systemInitStartup_of_started h.started) (fun status w' hfail => ?_)
      fun _ _ h => h)
    exact ⟨fun hok => (nomatch hok.symm.trans hfail.1), fun _ => rfl⟩

/-- `kiflash_init` fails, or exits. -/
theorem kiflashInit_of_stuck (h : Stuck w) :
    wp (kiflashInit env) (fun status _ => status = .failure) (fun why _ => why = .exit) w := by
  refine wp_bind.mpr (wp_modify.mpr (wp_bind.mpr (wp_setPercentage.mpr ?_)))
  have hstuck : ∀ {w' : World (SpiCore ε)}, w'.bus = w.bus → w'.qspiInitFlag = w.qspiInitFlag →
      Stuck w' := fun hbus hflag => ⟨hflag.trans h.qspiInitFlag, by rw [hbus]; exact h.started⟩
  refine wp_bind.mpr (wp_pcimemInit.mpr ⟨fun _ => wp_check.mpr ?_, fun _ => rfl⟩)
  refine wp_mono (ensureInit_of_stuck (hstuck ?_ ?_)) (fun status w' hfail => ?_)
    fun _ _ h => h.elim
  · split <;> rfl
  · split <;> rfl
  · exact ⟨fun hok => (nomatch hok.symm.trans hfail), fun _ => rfl⟩

/-- **A failed startup is never made good.**  The operation that wanted it fails, and after
it, whatever operations are called and whatever becomes of the device, every initialisation
fails: `kiflash_init` does not return `XST_SUCCESS`, and neither does the test of
`qspi_init_flag` in any other operation.

A `Step` is an operation with its own file system and heap, or an arbitrary change of the
device, so that a run may repair the core in between.  It is of no use: the driver instance is
refused before the device is asked. -/
theorem failed_startup_never_retried (env : Env) (w w' : World (SpiCore ε)) (status : Xst)
    (hflag : w.qspiInitFlag = false) (hrun : systemInitStartup env w = (.ret status, w'))
    (hfailed : status ≠ .success) :
    ensureInit env w = (.ret .failure, w') ∧
      ∀ env' w'', Relation.ReflTransGen Step w' w'' →
        (kiflashInit env' w'').1 ≠ .ret .success ∧ (ensureInit env' w'').1 = .ret .failure := by
  constructor
  · refine (bind_of_ret (rfl : gets _ w = (.ret w.qspiInitFlag, w))).trans ?_
    rw [hflag]
    exact check_of_ne hrun hfailed
  intro env' w'' hlater
  have hstuck : Stuck w'' := .run hlater ((wp_of_ret hrun).mp (systemInitStartup_stuck hflag))
  constructor
  · intro hsuccess
    have hrun' : kiflashInit env' w'' = (.ret .success, (kiflashInit env' w'').2) :=
      Prod.ext hsuccess rfl
    exact nomatch (wp_of_ret hrun').mp (kiflashInit_of_stuck hstuck)
  · have hwp : wp (ensureInit env') (fun status _ => status = .failure) (fun _ _ => False) w'' :=
      ensureInit_of_stuck hstuck
    obtain ⟨status', w₃, hrun', rfl⟩ := exists_ret_of_wp hwp
    rw [hrun']

/-- The state after a startup on a core whose clock stands still.  The last step of the
startup, a write enable, has timed out. -/
def unstarted : World (SpiCore Axi) :=
  (systemInitStartup patientEnv (World.fresh (blank (Axi.reset true)))).2

/-- The same state with the clock running again, and the core reset.  Nothing is wrong with
the hardware any more. -/
def repaired : World (SpiCore Axi) :=
  { unstarted with bus := { unstarted.bus with device := Axi.reset false } }

/-- The startup on the halted core fails, and the one on the repaired core is refused. -/
theorem failed_startup_never_retried_repaired :
    (kiflashInit patientEnv repaired).1 ≠ .ret .success := by
  have hfailed : (systemInitStartup patientEnv (World.fresh (blank (Axi.reset true)))).1 =
      .ret .failure := by decide +kernel
  have hrun : systemInitStartup patientEnv (World.fresh (blank (Axi.reset true))) =
      (.ret .failure, unstarted) := by rw [unstarted, ← hfailed]
  exact ((failed_startup_never_retried patientEnv _ unstarted .failure rfl hrun (by decide)).2
    patientEnv repaired (.single (.device (fun _ => Axi.reset false) unstarted))).1

/-- A first initialisation on the repaired core succeeds; the one that follows a failed
startup does not. -/
theorem failed_startup_spoils_repaired :
    (systemInitStartup patientEnv (World.fresh (blank (Axi.reset true)))).1 = .ret .failure ∧
      repaired.bus.device = Axi.reset false ∧
      (kiflashInit patientEnv repaired).1 = .ret .failure ∧
      (kiflashInit patientEnv (World.fresh (blank (Axi.reset false)))).1 = .ret .success := by
  decide +kernel

end Kiflash
