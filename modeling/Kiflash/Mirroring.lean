import Kiflash.Operations
import Kiflash.Imperative.Paired
import Mathlib.Data.List.Forall2

/-!
# The flash code over two drivers

The flash code sees of the driver what its calls answer.  Over two drivers that answer alike
from related states, it does the same: it returns the same, leaves the same in its static
variables, and records the same events.

* `Mirroring σ σ'` — two drivers that answer alike, with the relation between their states
  before the startup and behind it.
* `Mirrored` — two states of the flash code that differ in what is behind the driver alone.
* `Mirroring.statuses` — every run of operations keeps it.
* `Kept` — a condition on one driver is a mirroring of the driver with itself.

### What this is for

The flash code is generic in the driver, and the development has several: the flash chips
alone, the driver over the registers of the core, the board with all chips, the same with a
camera in front.  A result about the flash code over one of them is one over another as soon
as the two are a `Mirroring`.  The five obligations of that structure are about single driver
calls.  The induction over the code is made here once, and is the same for all pairs.

### Two relations

Before the startup the driver may be in any condition, and its calls may be answered by
refusals.  Behind it more is known: the driver is configured, and the core is out of reset.  A
mirroring has a relation for each of the two cases, the second of which implies the first, and
the startup leads from one to the other.  The flag `qspi_init_flag` tells the code which case
it is in, and `Mirrored.flag` says that it is right.

### Where the drivers need not agree

A failed transfer may have failed for different reasons, since the flash code does not look at
them; `SameVerdict` compares statuses up to that.  Nor need the drivers agree about an empty
frame (`Mirroring.empty`); `Operation.Framed` are the operations that send none.
-/

open Imperative Imperative.Prog

namespace Kiflash

variable {σ σ' : Type}

/-! ## Two drivers -/

/-- Two answers of `XSpi_Transfer`: the same verdict and the same bytes, or a poll that goes
on in both. -/
def SameAnswer (r : σ → σ' → Prop) :
    Option (Xst × List UInt8) × σ → Option (Xst × List UInt8) × σ' → Prop
  | (some (status, stored), d), (some (status', stored'), d') =>
    SameVerdict status status' ∧ stored = stored' ∧ r d d'
  | (none, d), (none, d') => r d d'
  | _, _ => False

/-- An answer is the same as itself. -/
theorem sameAnswer_of {r : σ → σ' → Prop} {answer : Option (Xst × List UInt8)} {d : σ} {d' : σ'}
    (h : r d d') : SameAnswer r (answer, d) (answer, d') := by
  rcases answer with _ | ⟨status, stored⟩
  · exact h
  · exact ⟨Iff.rfl, rfl, h⟩

/-- A driver call, and if it succeeds another one.  The startup is a chain of these, and can
so be compared as one call. -/
def thenCall (call call' : σ → Xst × σ) (d : σ) : Xst × σ :=
  if (call d).1 = .success then call' (call d).2 else (.failure, (call d).2)

/-- The second call, behind a success of the first. -/
theorem thenCall_of_success {call call' : σ → Xst × σ} {d : σ} (h : (call d).1 = .success) :
    thenCall call call' d = call' (call d).2 := if_pos h

theorem thenCall_of_ne {call call' : σ → Xst × σ} {d : σ} (h : (call d).1 ≠ .success) :
    thenCall call call' d = (.failure, (call d).2) := if_neg h

/-- What holds of the driver behind either of the two ways. -/
theorem thenCall_snd {P : σ → Prop} {call call' : σ → Xst × σ} {d : σ}
    (hfail : (call d).1 ≠ .success → P (call d).2)
    (hnext : (call d).1 = .success → P (call' (call d).2).2) : P (thenCall call call' d).2 := by
  by_cases h : (call d).1 = .success
  · rw [thenCall_of_success h]
    exact hnext h
  · rw [thenCall_of_ne h]
    exact hfail h

/-- Two checked calls are one.  So a chain of them can be compared as one call, where the
single calls cannot be. -/
theorem check_callDriver (call call' : σ → Xst × σ) :
    check (callDriver call) (callDriver call') = callDriver (thenCall call call') := by
  funext w
  have hrun : callDriver call w = (.ret (call w.bus).1, { w with bus := (call w.bus).2 }) := rfl
  have hthen : callDriver (thenCall call call') w =
      (.ret (thenCall call call' w.bus).1, { w with bus := (thenCall call call' w.bus).2 }) := rfl
  rw [hthen]
  by_cases h : (call w.bus).1 = .success
  · rw [h] at hrun
    rw [check_of_ok hrun, thenCall_of_success h]
    rfl
  · rw [check_of_ne hrun h, thenCall_of_ne h]
    rfl

/-- The driver calls of `System_init_startup`; the status of `XSpi_Start` is dropped.  The
write enable behind them is a transfer, and is compared as such. -/
def bootCalls [XSpiDriver σ] (configPtr : XSpiConfig) : σ → Xst × σ :=
  thenCall (fun d => XSpiDriver.xspiCfgInitialize configPtr (XSpiDriver.xspiPciInitialize d)) <|
    thenCall (XSpiDriver.xspiSetOptions (xspMasterOption ||| xspManualSselectOption)) <|
    thenCall (XSpiDriver.xspiSetSlaveSelect spiSelect) fun d =>
      (.success, (XSpiDriver.xspiStart d).2)

/-- `System_init_startup` is its driver calls and a write enable. -/
theorem systemInitStartup_eq [XSpiDriver σ] (env : Env) :
    systemInitStartup (σ := σ) env = match xspiLookupConfig spiDeviceId with
      | none => pure .deviceNotFound
      | some configPtr =>
        check (callDriver (bootCalls configPtr)) (check (spiFlashWriteEnable env) (pure .success)) := by
  unfold systemInitStartup bootCalls
  cases xspiLookupConfig spiDeviceId with
  | none => rfl
  | some configPtr =>
      simp only [← check_callDriver, check_assoc]
      rfl

/-- In front of the flag, the initialisation is the startup. -/
theorem ensureInit_of_not_flag [XSpiDriver σ] (env : Env) {w : World σ}
    (h : ¬w.qspiInitFlag = true) :
    ensureInit env w = check (systemInitStartup env)
      (Prog.modify (fun w => { w with qspiInitFlag := true }) >>= fun _ => pure .success) w := by
  rw [ensureInit]
  change (if w.qspiInitFlag = true then _ else _ : Prog (World σ) Xst) w = _
  rw [if_neg h]

/-- Two drivers that answer alike, `rounds` of each unbounded loop being followed.  Between
their states there is one relation before the startup and one behind it.  The register writes
are those of `icap` only. -/
structure Mirroring (σ σ' : Type) [XSpiDriver σ] [XSpiDriver σ'] (rounds : ℕ) where
  rel : Bool → σ → σ' → Prop
  anyway : ∀ {d d'}, rel true d d' → rel false d d'
  /-- They answer alike to an empty frame, too. -/
  empty : Prop
  transfer : ∀ booted frame recv {d d'}, frame ≠ [] ∨ empty → frame.length ≤ bufferSize →
    rel booted d d' →
    SameAnswer (rel booted) (XSpiDriver.xspiTransfer rounds frame recv d)
      (XSpiDriver.xspiTransfer rounds frame recv d')
  select : ∀ {d d'}, rel true d d' →
    SameVerdict (XSpiDriver.xspiSetSlaveSelect spiSelect d).1
      (XSpiDriver.xspiSetSlaveSelect spiSelect d').1 ∧
    rel true (XSpiDriver.xspiSetSlaveSelect spiSelect d).2
      (XSpiDriver.xspiSetSlaveSelect spiSelect d').2
  start : ∀ {d d'}, rel true d d' → rel true (XSpiDriver.xspiStart d).2 (XSpiDriver.xspiStart d').2
  boot : ∀ booted {configPtr d d'}, xspiLookupConfig spiDeviceId = some configPtr →
    rel booted d d' →
    SameVerdict (bootCalls configPtr d).1 (bootCalls configPtr d').1 ∧
    rel booted (bootCalls configPtr d).2 (bootCalls configPtr d').2 ∧
    ((bootCalls configPtr d).1 = .success →
      rel true (bootCalls configPtr d).2 (bootCalls configPtr d').2)
  write : ∀ booted register data {d d'}, register ∈ [icapWriteFifo, icapWriteControl] →
    rel booted d d' → rel booted (XSpiDriver.pciWriteReg (icapBaseAddr + register) data d)
      (XSpiDriver.pciWriteReg (icapBaseAddr + register) data d')

/-! ## Two states of the flash code -/

/-- Two events in front of related drivers.  The statuses agree as far as the code looks at
them. -/
inductive Event.Mirrored (r : σ → σ' → Prop) : Event σ → Event σ' → Prop where
  | transfer {before before' frame status status'} (related : r before before')
      (same : Option.Rel SameVerdict status status') :
      Mirrored r (.transfer before frame status) (.transfer before' frame status')
  | pciWrite {before before' address data} (related : r before before') :
      Mirrored r (.pciWrite before address data) (.pciWrite before' address data)
  | percentage (value) : Mirrored r (.percentage value) (.percentage value)
  | verifyPassed : Mirrored r .verifyPassed .verifyPassed
  | label (address) : Mirrored r (.label address) (.label address)
  | data (value) : Mirrored r (.data value) (.data value)

/-- What can be told of an event whatever is behind the driver: its frame and whether it
succeeded, its address and its data, but not the state of the bus. -/
def Event.seen : Event σ → Event Unit
  | .transfer _ frame status =>
    .transfer () frame (status.map fun status => if status = .success then .success else .failure)
  | .pciWrite _ address word => .pciWrite () address word
  | .percentage value => .percentage value
  | .verifyPassed => .verifyPassed
  | .label address => .label address
  | .data value => .data value

theorem Event.Mirrored.seen {r : σ → σ' → Prop} {e : Event σ} {e' : Event σ'} (h : e.Mirrored r e') :
    e.seen = e'.seen := by
  cases h with
  | transfer _ same =>
      cases same with
      | none => rfl
      | some hsame =>
          have hverdict := propext hsame
          simp only [statusCode_ok] at hverdict
          simp [Event.seen, hverdict]
  | pciWrite | percentage | verifyPassed | label | data => rfl

/-- The static variables, without the record of the run.  They must be equal on both sides,
and not only related. -/
def World.statics (w : World σ) : World Unit := { w with bus := (), events := [] }

/-- Two states that differ in what is behind the driver alone. -/
structure Mirrored (rel : Bool → σ → σ' → Prop) (booted : Bool) (w : World σ) (w' : World σ') :
    Prop where
  statics : w.statics = w'.statics
  bus : rel booted w.bus w'.bus
  flag : w.qspiInitFlag = true → rel true w.bus w'.bus
  events : List.Forall₂ (Event.Mirrored (rel false)) w.events w'.events

namespace Mirroring

variable [XSpiDriver σ] [XSpiDriver σ'] {env : Env} (M : Mirroring σ σ' env.rounds) (b : Bool)

/-! ### Steps of the flash code -/

section Steps

/-- Whatever is known, the weaker relation holds. -/
theorem rel_false {d : σ} {d' : σ'} (h : M.rel b d d') : M.rel false d d' := by
  cases b with
  | false => exact h
  | true => exact M.anyway h

/-- A change of the static variables.  The driver and the record are left alone, so the
relation is that of before. -/
theorem modify (f : ∀ {τ : Type}, World τ → World τ)
    (hf : ∀ {τ : Type} (w : World τ), (f w).statics = f w.statics ∧ (f w).bus = w.bus ∧
      (f w).events = w.events ∧ (f w).qspiInitFlag = w.qspiInitFlag) :
    Mirrors (Mirrored M.rel b) (Prog.modify f) (Prog.modify f) := by
  refine mirrors_modify fun w w' h => ?_
  obtain ⟨hstatics, hbus, hevents, hflag⟩ := hf w
  obtain ⟨hstatics', hbus', hevents', -⟩ := hf w'
  refine ⟨by rw [hstatics, hstatics', h.statics], ?_, ?_, ?_⟩
  · rw [hbus, hbus']
    exact h.bus
  · rw [hbus, hbus', hflag]
    exact h.flag
  · rw [hevents, hevents']
    exact h.events

/-- A look at the static variables. -/
theorem gets {α : Type} (g : ∀ {τ : Type}, World τ → α)
    (hg : ∀ {τ : Type} (w : World τ), g w = g w.statics) :
    Mirrors (Mirrored M.rel b) (Prog.gets g) (Prog.gets g) :=
  mirrors_gets fun w w' h => by rw [hg w, hg w', h.statics]

/-- A new event. -/
theorem record {e : Event σ} {e' : Event σ'} (he : Event.Mirrored (M.rel false) e e') :
    Mirrors (Mirrored M.rel b) (emit e) (emit e') :=
  mirrors_modify fun _ _ h => ⟨h.statics, h.bus, h.flag, List.rel_append h.events (.cons he .nil)⟩

theorem setWriteBuffer (i : ℕ) (byte : UInt8) :
    Mirrors (Mirrored M.rel b) (setWriteBuffer i byte) (setWriteBuffer i byte) :=
  Mirrors.ite (M.modify b (fun w => { w with writeBuffer := overlay w.writeBuffer i [byte] })
    fun _ => ⟨rfl, rfl, rfl, rfl⟩) (mirrors_halt _)

/-- Building a frame touches the buffers only, and these are the same on both sides. -/
theorem fillWriteBuffer (i : ℕ) (bs : List UInt8) :
    Mirrors (Mirrored M.rel b) (fillWriteBuffer i bs) (fillWriteBuffer i bs) := by
  induction bs generalizing i with
  | nil => exact mirrors_pure _
  | cons byte bs ih => exact (M.setWriteBuffer b i byte).bind fun _ => ih _

theorem clearReadBuffer : Mirrors (Mirrored M.rel b) clearReadBuffer clearReadBuffer :=
  M.modify b (fun w => { w with readBuffer := overlay w.readBuffer 0 (List.replicate 260 0) })
    fun _ => ⟨rfl, rfl, rfl, rfl⟩

/-- A store, on record in both runs. -/
theorem setPercentage (value : UInt32) :
    Mirrors (Mirrored M.rel b) (setPercentage env value) (setPercentage env value) := by
  refine Mirrors.ite (mirrors_modify fun w w' h => ⟨?_, h.bus, h.flag, ?_⟩) (mirrors_pure _)
  · exact congrArg
      (fun w : World Unit => { w with flashData := { w.flashData with percentage := value } })
      h.statics
  · exact List.rel_append h.events (.cons (.percentage value) .nil)

theorem setTransferInProgress (busy : Bool) :
    Mirrors (Mirrored M.rel b) (setTransferInProgress busy) (setTransferInProgress busy) :=
  M.modify b (fun w => { w with transferInProgress := busy }) fun _ => ⟨rfl, rfl, rfl, rfl⟩

theorem awaitTransfer : Mirrors (Mirrored M.rel b) awaitTransfer awaitTransfer :=
  (M.gets b (fun w => w.transferInProgress) fun _ => rfl).bind fun _ =>
    (mirrors_halt _).ite (mirrors_pure _)

theorem errorCheck : Mirrors (Mirrored M.rel b) errorCheck errorCheck :=
  (M.gets b (fun w => w.errorCount) fun _ => rfl).bind fun _ => (mirrors_pure _).ite <|
    (M.modify b (fun w => { w with errorCount := 0 }) fun _ => ⟨rfl, rfl, rfl, rfl⟩).bind
      fun _ => mirrors_pure _

/-- A step that answers by the static variables, and changes nothing else. -/
theorem answering {α : Type} (answer : ∀ {τ : Type}, World τ → Outcome α)
    (f : ∀ {τ : Type}, World τ → World τ)
    (hanswer : ∀ {τ : Type} (w : World τ), answer w = answer w.statics)
    (hf : ∀ {τ : Type} (w : World τ), (f w).statics = f w.statics ∧ (f w).bus = w.bus ∧
      (f w).events = w.events ∧ (f w).qspiInitFlag = w.qspiInitFlag) :
    Mirrors (Mirrored M.rel b) (fun w => (answer w, f w)) (fun w => (answer w, f w)) := by
  intro w w' h
  obtain ⟨-, h'⟩ := M.modify b f hf w w' h
  have hsame : answer w = answer w' := by rw [hanswer w, hanswer w', h.statics]
  have hrun' : (answer w', f w') = (answer w, f w') := by rw [hsame]
  rcases ha : answer w with value | why <;> rw [ha] at hrun'
  · have hrun : (answer w, f w) = (.ret value, f w) := by rw [ha]
    exact (paired_of_ret hrun hrun').mpr ⟨rfl, h'⟩
  · have hrun : (answer w, f w) = (.stop why, f w) := by rw [ha]
    exact (paired_of_stop hrun hrun').mpr h'

theorem fopen (filename : String) :
    Mirrors (Mirrored M.rel b) (fopen env filename) (fopen env filename) :=
  M.answering b (fun w => .ret (env.fopen w.fopens filename))
    (fun w => w.opened (env.fopen w.fopens filename)) (fun _ => rfl) fun _ => ⟨rfl, rfl, rfl, rfl⟩

theorem fclose : Mirrors (Mirrored M.rel b) fclose fclose :=
  M.modify b (fun w => { w with streams := w.streams - 1 }) fun _ => ⟨rfl, rfl, rfl, rfl⟩

theorem mallocPage : Mirrors (Mirrored M.rel b) (mallocPage env) (mallocPage env) :=
  M.answering b (fun w => .ret (env.malloc w.mallocs)) (fun w => { w with mallocs := w.mallocs + 1 })
    (fun _ => rfl) fun _ => ⟨rfl, rfl, rfl, rfl⟩

/-- The device file is a matter of the host, and the host is the same.  It ends the process on
both sides or on neither. -/
theorem pcimemInit : Mirrors (Mirrored M.rel b) (pcimemInit env) (pcimemInit env) := by
  intro w w' h
  have hfds : w.pciFds = w'.pciFds := congrArg World.pciFds h.statics
  obtain ⟨-, h'⟩ := M.modify b (fun w => { w with pciFds := w.pciFds + 1 })
    (fun _ => ⟨rfl, rfl, rfl, rfl⟩) w w' h
  by_cases hopen : env.openPci w'.pciFds = true
  · have hrun : Kiflash.pcimemInit env w = (.ret (), { w with pciFds := w.pciFds + 1 }) :=
      if_pos (by rw [hfds, hopen])
    have hrun' : Kiflash.pcimemInit env w' = (.ret (), { w' with pciFds := w'.pciFds + 1 }) :=
      if_pos hopen
    exact (paired_of_ret hrun hrun').mpr ⟨rfl, h'⟩
  · have hrun : Kiflash.pcimemInit env w = (.stop .exit, w) := if_neg (by rw [hfds]; exact hopen)
    have hrun' : Kiflash.pcimemInit env w' = (.stop .exit, w') := if_neg hopen
    exact (paired_of_stop hrun hrun').mpr h

/-- A call of `XSpi_Transfer` with something to send.  The frame is the same, since the
buffers are; the answers are alike, so the receive buffers are as well, and the entries in the
two records correspond. -/
theorem xspiTransfer (recv : Bool) {byteCount : ℕ} (hpos : 0 < byteCount ∨ M.empty) :
    MirrorsUpTo SameVerdict (Mirrored M.rel b) (xspiTransfer env recv byteCount)
      (xspiTransfer env recv byteCount) := by
  intro w w' h
  have hbuffer : w.writeBuffer = w'.writeBuffer := congrArg World.writeBuffer h.statics
  set frame := bytesOf w'.writeBuffer byteCount with hframe
  by_cases hbounds : bufferSize < byteCount
  · have hrun : Kiflash.xspiTransfer env recv byteCount w = (.stop .wild, w) := if_pos hbounds
    have hrun' : Kiflash.xspiTransfer env recv byteCount w' = (.stop .wild, w') := if_pos hbounds
    exact (paired_of_stop hrun hrun').mpr h
  have hne : frame ≠ [] ∨ M.empty := by
    rw [← List.length_pos_iff, bytesOf_length]
    exact hpos
  have hlength : frame.length ≤ bufferSize := by
    rw [bytesOf_length]
    exact Nat.le_of_not_lt hbounds
  -- what is recorded of a transfer is the same on both sides, up to the state of the bus
  have hsent : ∀ {status status' : Option Xst} {d : σ} {d' : σ'},
      Option.Rel SameVerdict status status' → M.rel b d d' →
      (w.qspiInitFlag = true → M.rel true d d') →
      Mirrored M.rel b (w.sent frame status d) (w'.sent frame status' d') := fun hstatus hd hflag =>
    ⟨h.statics, hd, hflag,
      List.rel_append h.events (.cons (.transfer (M.rel_false b h.bus) hstatus) .nil)⟩
  have hanswer := M.transfer b frame recv hne hlength h.bus
  have hflag := fun hflag => M.transfer true frame recv hne hlength (h.flag hflag)
  have hrun : Kiflash.xspiTransfer env recv byteCount w = _ := if_neg hbounds
  have hrun' : Kiflash.xspiTransfer env recv byteCount w' = _ := if_neg hbounds
  rw [hbuffer] at hrun
  rw [← hframe] at hrun hrun'
  dsimp only at hrun hrun'
  rcases hx : XSpiDriver.xspiTransfer env.rounds frame recv w.bus with ⟨_ | ⟨status, stored⟩, d⟩ <;>
    rcases hx' : XSpiDriver.xspiTransfer env.rounds frame recv w'.bus with
      ⟨_ | ⟨status', stored'⟩, d'⟩ <;>
    rw [hx, hx'] at hanswer hflag <;> rw [hx] at hrun <;> rw [hx'] at hrun'
  -- both spin, or both answer; one alone does not, by `M.transfer`
  · exact (paired_of_stop hrun hrun').mpr (hsent .none hanswer hflag)
  · exact hanswer.elim
  · exact hanswer.elim
  · obtain ⟨hverdict, rfl, hd⟩ := hanswer
    have hsent := hsent (.some hverdict) hd fun hset => (hflag hset).2.2
    dsimp only at hrun hrun'
    by_cases hstored : bufferSize < stored.length
    · rw [if_pos hstored] at hrun hrun'
      exact (paired_of_stop hrun hrun').mpr hsent
    · rw [if_neg hstored] at hrun hrun'
      refine (paired_of_ret hrun hrun').mpr ⟨hverdict, ?_, hsent.bus, hsent.flag, hsent.events⟩
      exact congrArg (fun w : World Unit =>
        { w with readBuffer := if recv then overlay w.readBuffer 0 stored else w.readBuffer })
        h.statics

theorem pciWriteReg {register : UInt64} (h : register ∈ [icapWriteFifo, icapWriteControl])
    (data : UInt64) : Mirrors (Mirrored M.rel b) (pciWriteReg (icapBaseAddr + register) data)
      (pciWriteReg (icapBaseAddr + register) data) :=
  mirrors_modify fun _ _ hw => ⟨hw.statics, M.write b register data h hw.bus,
    fun hflag => M.write true register data h (hw.flag hflag),
    List.rel_append hw.events (.cons (.pciWrite (M.rel_false b hw.bus)) .nil)⟩

end Steps

/-! ### The commands -/

section Commands

/-- The command functions, around their transfer. -/
theorem command (recv : Bool) {byteCount : ℕ} (hpos : 0 < byteCount ∨ M.empty)
    {inner : Prog (World σ) Xst} {inner' : Prog (World σ') Xst}
    (h : Mirrors (Mirrored M.rel b) inner inner') :
    Mirrors (Mirrored M.rel b) (command env recv byteCount inner)
      (command env recv byteCount inner') := by
  refine (M.setTransferInProgress b true).bind fun _ => (M.xspiTransfer b recv hpos).check ?_
  exact h.bind fun _ => (M.setTransferInProgress b false).bind fun _ =>
    ((M.awaitTransfer b).bind fun _ => M.errorCheck b).ite (mirrors_pure _)

/-- A frame that is built and sent. -/
theorem send (recv : Bool) {byteCount : ℕ} (hpos : 0 < byteCount ∨ M.empty) (bs : List UInt8) :
    Mirrors (Mirrored M.rel b)
      (Kiflash.fillWriteBuffer 0 bs >>= fun _ => Kiflash.command env recv byteCount (pure .success))
      (Kiflash.fillWriteBuffer 0 bs >>= fun _ => Kiflash.command env recv byteCount (pure .success)) :=
  (M.fillWriteBuffer b 0 bs).bind fun _ => M.command b recv hpos (mirrors_pure _)

theorem spiFlashGetStatus :
    Mirrors (Mirrored M.rel b) (spiFlashGetStatus env) (spiFlashGetStatus env) :=
  M.send b true (.inl (by decide)) _

/-- The polling loop: both sides see the same ready bit, round for round. -/
theorem spiFlashWaitForFlashReady :
    Mirrors (Mirrored M.rel b) (spiFlashWaitForFlashReady env) (spiFlashWaitForFlashReady env) := by
  refine Mirrors.loop (fun _ => (M.spiFlashGetStatus b).bind fun _ => Mirrors.ite ?_ (mirrors_pure _))
    _ _
  exact (M.gets b (fun w => w.readBuffer 1) fun _ => rfl).bind fun _ =>
    (mirrors_pure _).ite (mirrors_pure _)

theorem spiFlashWriteEnable :
    Mirrors (Mirrored M.rel b) (spiFlashWriteEnable env) (spiFlashWriteEnable env) :=
  (M.spiFlashWaitForFlashReady b).check (M.send b false (.inl (by decide)) _)

theorem enabledCommand (cmd : UInt8) :
    Mirrors (Mirrored M.rel b) (enabledCommand env cmd) (enabledCommand env cmd) :=
  (M.spiFlashWriteEnable b).check <| (M.spiFlashWaitForFlashReady b).check <|
    M.send b false (.inl (by decide)) _

theorem enabledRegisterRead (cmd : UInt8) :
    Mirrors (Mirrored M.rel b) (enabledRegisterRead env cmd) (enabledRegisterRead env cmd) :=
  (M.spiFlashWriteEnable b).check <| (M.spiFlashWaitForFlashReady b).check <|
    M.send b true (.inl (by decide)) _

theorem spiFlashClrflagstatus :
    Mirrors (Mirrored M.rel b) (spiFlashClrflagstatus env) (spiFlashClrflagstatus env) :=
  (M.spiFlashWaitForFlashReady b).check (M.send b false (.inl (by decide)) _)

theorem getStatus : Mirrors (Mirrored M.rel b) (getStatus env) (getStatus env) :=
  (M.send b true (.inl (by decide)) _).bind fun _ => (M.enabledRegisterRead b _).bind fun _ =>
    (M.spiFlashClrflagstatus b).bind fun _ => mirrors_pure _

/-- A page program, if its length does not come out as zero or an empty frame is answered
alike. -/
theorem spiFlashWriteFile (addr : UInt32) {byteCount : UInt32}
    (hsize : byteCount + readWriteExtraBytes + 1 ≠ 0 ∨ M.empty) (writeCmd : UInt8) (pageBuffer : ℕ → UInt8) :
    Mirrors (Mirrored M.rel b) (spiFlashWriteFile env addr byteCount writeCmd pageBuffer)
      (spiFlashWriteFile env addr byteCount writeCmd pageBuffer) := by
  have hpos : 0 < (byteCount + readWriteExtraBytes + 1).toNat ∨ M.empty :=
    hsize.imp_left fun hsize => Nat.pos_of_ne_zero fun h => hsize (UInt32.toNat_inj.mp h)
  exact (M.enabledCommand b _).check <| (M.spiFlashWriteEnable b).check <|
    (M.spiFlashWaitForFlashReady b).check <| (M.fillWriteBuffer b _ _).bind fun _ =>
    (M.fillWriteBuffer b _ _).bind fun _ =>
    (M.command b false hpos (mirrors_pure _)).check (M.enabledCommand b _)

/-- A read, under the same condition. -/
theorem spiFlashRead (addr : UInt32) {byteCount : UInt32} {readCmd : UInt8}
    (hsize : byteCount + dummyBytes readCmd + readWriteExtraBytes ≠ 0 ∨ M.empty) :
    Mirrors (Mirrored M.rel b) (spiFlashRead env addr byteCount readCmd)
      (spiFlashRead env addr byteCount readCmd) := by
  have hpos : 0 < (byteCount + dummyBytes readCmd + readWriteExtraBytes).toNat ∨ M.empty :=
    hsize.imp_left fun hsize => Nat.pos_of_ne_zero fun h => hsize (UInt32.toNat_inj.mp h)
  exact (M.enabledCommand b _).check <| (M.spiFlashWriteEnable b).check <|
    (M.spiFlashWaitForFlashReady b).check <| (M.fillWriteBuffer b _ _).bind fun _ =>
    (M.command b true hpos (mirrors_pure _)).check (M.enabledCommand b _)

theorem spiFlashBulkErase :
    Mirrors (Mirrored M.rel b) (spiFlashBulkErase env) (spiFlashBulkErase env) :=
  (M.spiFlashWaitForFlashReady b).check (M.send b false (.inl (by decide)) _)

theorem eraseCommand (cmd : UInt8) (addr : UInt32) :
    Mirrors (Mirrored M.rel b) (eraseCommand env cmd addr) (eraseCommand env cmd addr) :=
  (M.spiFlashWriteEnable b).check <| (M.spiFlashWaitForFlashReady b).check <|
    (M.fillWriteBuffer b _ _).bind fun _ => M.command b false (.inl (by decide)) (M.getStatus b)

theorem spiFlashSectorErase (addr : UInt32) :
    Mirrors (Mirrored M.rel b) (spiFlashSectorErase env addr) (spiFlashSectorErase env addr) :=
  (M.enabledCommand b _).check (M.eraseCommand b _ _)

theorem spiFlashDieErase (uscDieNr : UInt32) :
    Mirrors (Mirrored M.rel b) (spiFlashDieErase env uscDieNr) (spiFlashDieErase env uscDieNr) :=
  (M.enabledCommand b _).check <| (M.enabledRegisterRead b _).check (M.eraseCommand b _ _)

theorem spiFlashQuadEnable :
    Mirrors (Mirrored M.rel b) (spiFlashQuadEnable env) (spiFlashQuadEnable env) :=
  (M.spiFlashWriteEnable b).check <| (M.spiFlashWaitForFlashReady b).check <|
    (M.fillWriteBuffer b _ _).bind fun _ => (M.command b false (.inl (by decide)) (mirrors_pure _)).check <|
    (M.spiFlashWaitForFlashReady b).check (M.send b true (.inl (by decide)) _)

theorem spiFlashReadID : Mirrors (Mirrored M.rel b) (spiFlashReadID env) (spiFlashReadID env) :=
  (M.spiFlashWaitForFlashReady b).check (M.send b true (.inl (by decide)) _)

end Commands

/-! ### The startup -/

section Startup

variable {b} in
/-- Behind the startup more is known. -/
theorem of_true {w : World σ} {w' : World σ'} (h : Mirrored M.rel true w w') :
    Mirrored M.rel b w w' := by
  cases b with
  | false => exact ⟨h.statics, M.anyway h.bus, h.flag, h.events⟩
  | true => exact h

/-- Two programs that lead behind the startup if they succeed.  A function that begins with
`ensureInit` is such a program. -/
def Boots (m : Prog (World σ) Xst) (m' : Prog (World σ') Xst) : Prop :=
  ∀ w w', Mirrored M.rel b w w' → Paired m m'
    (fun status status' v v' => SameVerdict status status' ∧ Mirrored M.rel b v v' ∧
      (status = .success → Mirrored M.rel true v v')) (Mirrored M.rel b) w w'

variable {M b} {m k : Prog (World σ) Xst} {m' k' : Prog (World σ') Xst}

/-- Such programs are mirrored. -/
theorem Boots.upTo (h : M.Boots b m m') : MirrorsUpTo SameVerdict (Mirrored M.rel b) m m' :=
  fun w w' hw => paired_mono (h w w' hw) (fun _ _ _ _ ⟨hsame, hv, _⟩ => ⟨hsame, hv⟩) fun _ _ => id

/-- What comes behind a startup finds a running driver. -/
theorem Boots.check (h : M.Boots b m m') (hk : Mirrors (Mirrored M.rel true) k k') :
    Mirrors (Mirrored M.rel b) (Prog.check m k) (Prog.check m' k') := by
  intro w w' hw
  refine paired_check (paired_mono (h w w' hw) (fun status status' v v' ⟨hsame, hv, hup⟩ =>
    ⟨hsame, fun hok => ?_, fun _ => ⟨rfl, hv⟩⟩) fun _ _ => id)
  exact paired_mono (hk v v' (hup hok)) (fun _ _ _ _ ⟨heq, hv⟩ => ⟨heq, M.of_true hv⟩)
    fun _ _ => M.of_true

/-- Two startups, one behind the other. -/
theorem Boots.andThen (h : M.Boots b m m') (hk : Mirrors (Mirrored M.rel true) k k') :
    M.Boots b (Prog.check m k) (Prog.check m' k') := by
  intro w w' hw
  refine paired_check (paired_mono (h w w' hw) (fun status status' v v' ⟨hsame, hv, hup⟩ =>
    ⟨hsame, fun hok => ?_, fun _ => ⟨Iff.rfl, hv, fun h => absurd h StatusCode.fail_ne_ok⟩⟩)
    fun _ _ => id)
  refine paired_mono (hk v v' (hup hok)) (fun status status' v v' ⟨heq, hv⟩ => ?_)
    fun _ _ => M.of_true
  subst heq
  exact ⟨Iff.rfl, M.of_true hv, fun _ => hv⟩

variable (M b)

theorem callDriver_bootCalls {configPtr : XSpiConfig}
    (hconfig : xspiLookupConfig spiDeviceId = some configPtr) :
    M.Boots b (callDriver (bootCalls configPtr)) (callDriver (bootCalls configPtr)) := by
  intro w w' h
  obtain ⟨hverdict, hbus, hup⟩ := M.boot b hconfig h.bus
  have hflag := fun hset => (M.boot true hconfig (h.flag hset)).2.1
  exact ⟨hverdict, ⟨h.statics, hbus, hflag, h.events⟩,
    fun hok => ⟨h.statics, hup hok, hflag, h.events⟩⟩

theorem systemInitStartup : M.Boots b (systemInitStartup env) (systemInitStartup env) := by
  rw [systemInitStartup_eq, systemInitStartup_eq]
  cases hconfig : xspiLookupConfig spiDeviceId with
  | none => exact fun w w' hw => ⟨Iff.rfl, hw, fun h => absurd h (by decide)⟩
  | some configPtr =>
      exact (M.callDriver_bootCalls b hconfig).andThen <|
        (M.spiFlashWriteEnable true).check (mirrors_pure _)

/-- The flag is set behind a startup alone.  So behind a success the drivers are related as
started ones. -/
theorem ensureInit : M.Boots b (ensureInit env) (ensureInit env) := by
  intro w w' h
  have hsame : w.qspiInitFlag = w'.qspiInitFlag := congrArg World.qspiInitFlag h.statics
  by_cases hflag : w.qspiInitFlag = true
  · refine (paired_of_ret (ensureInit_of_flag env hflag)
      (ensureInit_of_flag env (hsame ▸ hflag))).mpr ?_
    exact ⟨Iff.rfl, h, fun _ => ⟨h.statics, h.flag hflag, h.flag, h.events⟩⟩
  · have setFlag : Mirrors (Mirrored M.rel true)
        (Prog.modify (fun w : World σ => { w with qspiInitFlag := true }) >>= fun _ => pure Xst.success)
        (Prog.modify (fun w : World σ' => { w with qspiInitFlag := true }) >>= fun _ =>
          pure Xst.success) := by
      refine Mirrors.bind (mirrors_modify fun v v' hv => ?_) fun _ => mirrors_pure _
      exact ⟨congrArg (fun w : World Unit => { w with qspiInitFlag := true }) hv.statics, hv.bus,
        fun _ => hv.bus, hv.events⟩
    exact (paired_congr (ensureInit_of_not_flag env hflag)
      (ensureInit_of_not_flag env (hsame ▸ hflag))).mpr
      ((M.systemInitStartup b).andThen setFlag w w' h)

end Startup

/-! ### Functions built of commands -/

section Functions

theorem qspiEaseEntireFlash :
    Mirrors (Mirrored M.rel b) (qspiEaseEntireFlash env) (qspiEaseEntireFlash env) :=
  (M.ensureInit b).check <| (M.spiFlashWriteEnable true).check (M.spiFlashBulkErase true)

theorem qspiEraseSectorFlash (ofsetAddr sectCount : UInt32) :
    Mirrors (Mirrored M.rel b) (qspiEraseSectorFlash env ofsetAddr sectCount)
      (qspiEraseSectorFlash env ofsetAddr sectCount) :=
  (Mirrors.checkLoop (M.spiFlashSectorErase b) _ _).ite (mirrors_pure _)

theorem qspiFlashGeo : Mirrors (Mirrored M.rel b) (qspiFlashGeo env) (qspiFlashGeo env) :=
  (M.ensureInit b).check <| (M.spiFlashReadID true).check <|
    (M.enabledRegisterRead true _).bind fun _ => (M.spiFlashClrflagstatus true).bind fun _ =>
    (M.spiFlashQuadEnable true).check (mirrors_pure _)

theorem qspiFlashEraseMain (ofsetAddr dieCount : UInt32) :
    Mirrors (Mirrored M.rel b) (qspiFlashEraseMain env ofsetAddr dieCount)
      (qspiFlashEraseMain env ofsetAddr dieCount) :=
  (M.spiFlashDieErase b _).check <| (M.spiFlashQuadEnable b).check (mirrors_pure _)

theorem qspiWriteFlash (addr : UInt32) (data : ℕ → UInt8) :
    Mirrors (Mirrored M.rel b) (qspiWriteFlash env addr data) (qspiWriteFlash env addr data) :=
  (M.spiFlashWriteFile b _ (.inl (by decide)) _ _).check (mirrors_pure _)

theorem readBuffer : Mirrors (Mirrored M.rel b) (Prog.gets fun w => w.readBuffer)
    (Prog.gets fun w => w.readBuffer) :=
  M.gets b (fun w => w.readBuffer) fun _ => rfl

theorem flashData : Mirrors (Mirrored M.rel b) (Prog.gets fun w => w.flashData)
    (Prog.gets fun w => w.flashData) :=
  M.gets b (fun w => w.flashData) fun _ => rfl

theorem blankCheckPage (startOffsetAddr : UInt32) :
    Mirrors (Mirrored M.rel b) (blankCheckPage env startOffsetAddr)
      (blankCheckPage env startOffsetAddr) :=
  (M.spiFlashWriteEnable b).bind fun _ => (M.clearReadBuffer b).bind fun _ =>
    (M.spiFlashRead b _ (.inl (by decide))).check <| (M.readBuffer b).bind fun _ =>
    (mirrors_pure _).ite (mirrors_pure _)

theorem spiBlankCheck (startAddr noByteToRead : UInt32) :
    Mirrors (Mirrored M.rel b) (spiBlankCheck env startAddr noByteToRead)
      (spiBlankCheck env startAddr noByteToRead) :=
  (M.ensureInit b).upTo.bind fun _ _ _ => Mirrors.checkLoop (M.blankCheckPage b) _ _

omit [XSpiDriver σ] [XSpiDriver σ'] in
/-- Both dumps are of one page. -/
theorem dumpLine_mirrored (r : σ → σ' → Prop) (readBuffer : ℕ → UInt8) (startAddr : UInt32)
    (indexes : List ℕ) (cntLine : ℕ) :
    List.Forall₂ (Event.Mirrored r) (dumpLine readBuffer startAddr indexes cntLine).1
      (dumpLine readBuffer startAddr indexes cntLine).1 ∧
    (dumpLine (σ := σ) readBuffer startAddr indexes cntLine).2 =
      (dumpLine (σ := σ') readBuffer startAddr indexes cntLine).2 := by
  induction indexes generalizing cntLine with
  | nil => exact ⟨.nil, rfl⟩
  | cons index indexes ih =>
      rw [dumpLine, dumpLine]
      split
      · exact ⟨.cons (.data _) (.cons (.label _) (ih _).1), (ih _).2⟩
      · exact ⟨.cons (.data _) (ih _).1, (ih _).2⟩

theorem dumpPages (noOfPage : ℕ) (startAddr : UInt32) (cntLine : ℕ) :
    Mirrors (Mirrored M.rel b) (dumpPages env noOfPage startAddr cntLine)
      (dumpPages env noOfPage startAddr cntLine) := by
  induction noOfPage generalizing startAddr cntLine with
  | zero => exact mirrors_pure _
  | succ n ih =>
      refine (M.spiFlashWriteEnable b).check <| (M.clearReadBuffer b).bind fun _ =>
        (M.spiFlashRead b _ (.inl (by decide))).check <| (M.readBuffer b).bind fun readBuffer => ?_
      obtain ⟨hline, hcnt⟩ := dumpLine_mirrored (M.rel false) readBuffer startAddr
        (List.range' 5 256) cntLine
      simp only [hcnt]
      refine Mirrors.bind (mirrors_modify fun w w' h => ?_) fun _ => ih _ _
      exact ⟨h.statics, h.bus, h.flag, List.rel_append h.events hline⟩

theorem qspiReadFlash (startAddr noByteToRead : UInt32) :
    Mirrors (Mirrored M.rel b) (qspiReadFlash env startAddr noByteToRead)
      (qspiReadFlash env startAddr noByteToRead) :=
  (M.ensureInit b).check <|
    ((M.record true (.label startAddr)).bind fun _ => M.dumpPages true _ _ _).ite (mirrors_pure _)

end Functions

/-! ### Image files -/

section Images

theorem readPage (file : File) (startAddr : UInt32) :
    Mirrors (Mirrored M.rel b) (readPage env file startAddr) (readPage env file startAddr) :=
  (M.mallocPage b).bind fun _ => mirrors_pure _

theorem programPage (baseStartAddr : UInt32) (file : File) (startAddr : UInt32) :
    Mirrors (Mirrored M.rel b) (programPage env baseStartAddr file startAddr)
      (programPage env baseStartAddr file startAddr) :=
  (M.readPage b _ _).bind fun _ => (M.spiFlashWriteEnable b).check <|
    M.spiFlashWriteFile b _ (.inl (by decide)) _ _

theorem verifyPage (baseStartAddr : UInt32) (file : File) (startAddr : UInt32) :
    Mirrors (Mirrored M.rel b) (verifyPage env baseStartAddr file startAddr)
      (verifyPage env baseStartAddr file startAddr) :=
  (M.readPage b _ _).bind fun _ => (M.spiFlashWriteEnable b).check <|
    (M.clearReadBuffer b).bind fun _ => (M.spiFlashRead b _ (.inl (by decide))).check <|
    (M.readBuffer b).bind fun _ => (mirrors_pure _).ite (mirrors_pure _)

theorem reportProgress (base : ℚ) (totalPage : UInt32) (it : PageLoop) :
    Mirrors (Mirrored M.rel b) (reportProgress env base totalPage it)
      (reportProgress env base totalPage it) :=
  (M.setPercentage b _).ite (mirrors_pure _)

theorem imageFile (filename : String) {report : UInt32 → PageLoop → Prog (World σ) Unit}
    {report' : UInt32 → PageLoop → Prog (World σ') Unit} {page : File → UInt32 → Prog (World σ) Xst}
    {page' : File → UInt32 → Prog (World σ') Xst} {finish : Prog (World σ) Unit}
    {finish' : Prog (World σ') Unit}
    (hreport : ∀ totalPage it, Mirrors (Mirrored M.rel true) (report totalPage it)
      (report' totalPage it))
    (hpage : ∀ file startAddr, Mirrors (Mirrored M.rel true) (page file startAddr)
      (page' file startAddr))
    (hfinish : Mirrors (Mirrored M.rel true) finish finish') :
    Mirrors (Mirrored M.rel b) (imageFile env filename report page finish)
      (imageFile env filename report' page' finish') := by
  refine (M.fopen b filename).bind fun fp => ?_
  cases fp with
  | none => exact mirrors_pure _
  | some file =>
      refine (M.ensureInit b).check ?_
      refine MirrorsUpTo.check (fun w w' h => ?_) ?_
      · obtain ⟨hverdict, hbus⟩ := M.select h.bus
        exact ⟨hverdict, h.statics, hbus, fun _ => hbus, h.events⟩
      refine MirrorsUpTo.bind (V := fun _ _ => True) (fun w w' h => ?_) fun _ _ _ => ?_
      · exact ⟨trivial, h.statics, M.start h.bus, fun _ => M.start h.bus, h.events⟩
      refine (M.spiFlashWriteEnable true).check <| Mirrors.check ?_ <|
        hfinish.bind fun _ => (M.fclose true).bind fun _ => mirrors_pure _
      exact Mirrors.checkLoop (fun it => (hreport _ it).bind fun _ => hpage _ _) _ _

theorem qspiProgramBin : Mirrors (Mirrored M.rel b) (qspiProgramBin env) (qspiProgramBin env) :=
  (M.flashData b).bind fun _ => M.imageFile b _ (fun _ _ => M.reportProgress true _ _ _)
    (fun _ _ => M.programPage true _ _ _) (mirrors_pure _)

theorem qspiVerifyBin : Mirrors (Mirrored M.rel b) (qspiVerifyBin env) (qspiVerifyBin env) :=
  (M.flashData b).bind fun _ => M.imageFile b _ (fun _ _ => M.reportProgress true _ _ _)
    (fun _ _ => M.verifyPage true _ _ _) (M.record true .verifyPassed)

theorem qspiProgramFlash (startDie : UInt32) :
    Mirrors (Mirrored M.rel b) (qspiProgramFlash env startDie) (qspiProgramFlash env startDie) :=
  M.imageFile b _ (fun _ _ => mirrors_pure _) (fun _ _ => M.programPage true _ _ _) (mirrors_pure _)

theorem qspiVerifyFlash (startDie : UInt32) :
    Mirrors (Mirrored M.rel b) (qspiVerifyFlash env startDie) (qspiVerifyFlash env startDie) :=
  M.imageFile b _ (fun _ _ => mirrors_pure _) (fun _ _ => M.verifyPage true _ _ _) (mirrors_pure _)

theorem program (call : ProgramCall) :
    Mirrors (Mirrored M.rel b) (call.run env) (call.run env) := by
  have mark : ∀ value, Mirrors (Mirrored M.rel b) (call.mark env value) (call.mark env value) := by
    intro value
    cases call with
    | user => exact M.setPercentage b _
    | golden | timer => exact mirrors_pure _
  have erase : Mirrors (Mirrored M.rel b)
      (eraseStage env (call.mark env) call.eraseFrom call.erase)
      (eraseStage env (call.mark env) call.eraseFrom call.erase) :=
    Mirrors.ite ((M.flashData b).bind fun _ => (M.qspiEraseSectorFlash b _ _).bind fun _ =>
      (mark _).bind fun _ => mirrors_pure _) (mirrors_pure _)
  rw [call.run_eq, call.run_eq]
  exact (mark _).bind fun _ => erase.check <| (mark _).bind fun _ =>
    (M.qspiProgramBin b).check <| (mark _).bind fun _ => (M.qspiVerifyBin b).check <|
    (mark _).bind fun _ => mirrors_pure _

end Images

/-! ### The entry points -/

section EntryPoints

theorem icap (die : UInt32) : Mirrors (Mirrored M.rel b) (icap die) (icap die) := by
  have words : ∀ ws, Mirrors (Mirrored M.rel b) (icapWords ws) (icapWords ws) := by
    intro ws
    induction ws with
    | nil => exact mirrors_pure _
    | cons word ws ih => exact (M.pciWriteReg b (by simp) _).bind fun _ => ih
  exact (words _).bind fun _ => (M.pciWriteReg b (by simp) _).bind fun _ => mirrors_pure _

theorem kiflashInit : Mirrors (Mirrored M.rel b) (kiflashInit env) (kiflashInit env) :=
  (M.modify b (fun w => { w with flashData := w.flashData.initial })
    fun _ => ⟨rfl, rfl, rfl, rfl⟩).bind fun _ => (M.setPercentage b _).bind fun _ =>
    (M.pcimemInit b).bind fun _ => (M.ensureInit b).upTo.check (mirrors_pure _)

theorem kiflashIcap (die : UInt32) :
    Mirrors (Mirrored M.rel b) (kiflashIcap env die) (kiflashIcap env die) :=
  (M.gets b (fun w => w.qspiInitFlag) fun _ => rfl).bind fun _ =>
    Mirrors.ite ((mirrors_pure _).bind fun _ => M.icap b _)
      ((M.kiflashInit b).bind fun _ => M.icap b _)

theorem selectRegion (region : Region) :
    Mirrors (Mirrored M.rel b) (selectRegion region) (selectRegion region) :=
  M.modify b (fun w => { w with flashData := w.flashData.select region })
    fun _ => ⟨rfl, rfl, rfl, rfl⟩

theorem kiflashProgramUser :
    Mirrors (Mirrored M.rel b) (kiflashProgramUser env) (kiflashProgramUser env) :=
  (M.kiflashInit b).bind fun _ => (M.selectRegion b _).bind fun _ =>
    (M.setPercentage b _).bind fun _ => (M.program b (.user 1)).check <|
    (M.icap b _).bind fun _ => (M.setPercentage b _).bind fun _ => mirrors_pure _

theorem reimageWholeFlash :
    Mirrors (Mirrored M.rel b) (reimageWholeFlash env) (reimageWholeFlash env) :=
  (M.spiFlashDieErase b _).check <| (M.spiFlashDieErase b _).check <|
    (M.spiFlashDieErase b _).check <| (M.spiFlashDieErase b _).check <|
    (M.selectRegion b _).bind fun _ => (M.program b (.timer 1 1)).check <|
    (M.selectRegion b _).bind fun _ => (M.program b (.timer 2 1)).check <|
    (M.selectRegion b _).bind fun _ => (M.program b (.golden 0)).check <|
    (M.selectRegion b _).bind fun _ => (M.program b (.user 0)).check (M.icap b _)

end EntryPoints

end Mirroring

/-! ## Runs -/

/-- Operations that never send an empty frame: the lengths of a read and of a page write are
32-bit sums, which may come out as 0. -/
def Operation.Framed : Operation → Prop
  | .spiFlashRead _ byteCount readCmd => byteCount + dummyBytes readCmd + readWriteExtraBytes ≠ 0
  | .spiFlashWriteFile _ byteCount _ _ => byteCount + readWriteExtraBytes + 1 ≠ 0
  | _ => True

/-- What the operations of a sequence return, in their order.  A sequence that stops has no
such list. -/
def statuses {σ : Type} [XSpiDriver σ] (env : Env) : List Operation → Prog (World σ) (List Xst)
  | [] => pure []
  | operation :: operations => do
    let status ← operation.run env
    let others ← statuses env operations
    pure (status :: others)

namespace Mirroring

variable [XSpiDriver σ] [XSpiDriver σ'] {env : Env} (M : Mirroring σ σ' env.rounds) (b : Bool)

/-- One operation, by the case of the call.  Each case follows from the parts of the function,
by the rules for programs. -/
theorem run {operation : Operation} (h : operation.Framed ∨ M.empty) :
    Mirrors (Mirrored M.rel b) (operation.run env) (operation.run env) := by
  cases operation with
  | spiFlashRead => exact M.spiFlashRead b _ h
  | spiFlashWriteFile => exact M.spiFlashWriteFile b _ h _ _
  | spiFlashSectorErase => exact M.spiFlashSectorErase b _
  | spiFlashDieErase => exact M.spiFlashDieErase b _
  | spiFlashQuadEnable => exact M.spiFlashQuadEnable b
  | spiFlashReadID => exact M.spiFlashReadID b
  | spiFlashReadflagstatus => exact M.enabledRegisterRead b _
  | spiFlashClrflagstatus => exact M.spiFlashClrflagstatus b
  | qspiEaseEntireFlash => exact M.qspiEaseEntireFlash b
  | qspiEraseSectorFlash => exact M.qspiEraseSectorFlash b _ _
  | qspiFlashGeo => exact M.qspiFlashGeo b
  | qspiFlashEraseMain ofsetAddr dieCount => exact M.qspiFlashEraseMain b ofsetAddr dieCount
  | qspiWriteFlash => exact M.qspiWriteFlash b _ _
  | qspiReadFlash => exact M.qspiReadFlash b _ _
  | spiBlankCheck => exact M.spiBlankCheck b _ _
  | qspiProgramBin => exact M.qspiProgramBin b
  | qspiVerifyBin => exact M.qspiVerifyBin b
  | downloadSerialDataToQSPIFlash => exact (M.qspiProgramFlash b _).bind fun _ => mirrors_pure _
  | qspiVerifyFlash => exact M.qspiVerifyFlash b _
  | program call => exact M.program b call
  | kiflashInit => exact M.kiflashInit b
  | kiflashIcap => exact M.kiflashIcap b _
  | kiflashProgramUser => exact M.kiflashProgramUser b
  | reimageWholeFlash => exact M.reimageWholeFlash b
  | assign data =>
      exact (M.modify b (fun w => { w with flashData := data })
        fun _ => ⟨rfl, rfl, rfl, rfl⟩).bind fun _ => mirrors_pure _

/-- **Over two drivers that answer alike, every run does the same.**  The induction is on the
sequence of operations.  Where a driver does not answer empty frames as the other one does,
the operations must have frames that are not empty. -/
theorem statuses {operations : List Operation}
    (h : ∀ operation ∈ operations, operation.Framed ∨ M.empty) :
    Mirrors (Mirrored M.rel b) (statuses env operations) (statuses env operations) := by
  induction operations with
  | nil => exact mirrors_pure _
  | cons operation operations ih =>
      exact (M.run b (h _ List.mem_cons_self)).bind fun _ =>
        (ih fun operation' hmem => h _ (List.mem_cons_of_mem _ hmem)).bind fun _ => mirrors_pure _

/-- The same from fresh processes on.  Their flags are clear, so the relation before the
startup is enough. -/
theorem statuses_fresh {operations : List Operation}
    (h : ∀ operation ∈ operations, operation.Framed ∨ M.empty) {d : σ} {d' : σ'} (hd : M.rel false d d') :
    (Kiflash.statuses env operations (World.fresh d)).1 =
        (Kiflash.statuses env operations (World.fresh d')).1 ∧
      Mirrored M.rel false (Kiflash.statuses env operations (World.fresh d)).2
        (Kiflash.statuses env operations (World.fresh d')).2 := by
  have hfresh : Mirrored M.rel false (World.fresh d) (World.fresh d') :=
    ⟨rfl, hd, fun hset => absurd hset Bool.false_ne_true, .nil⟩
  rcases paired_cases (M.statuses false h _ _ hfresh) with
    ⟨a, a', v, v', hrun, hrun', rfl, hv⟩ | ⟨why, v, v', hrun, hrun', hv⟩
  · rw [hrun, hrun']
    exact ⟨rfl, hv⟩
  · rw [hrun, hrun']
    exact ⟨rfl, hv⟩

end Mirroring

/-! ## One driver -/

/-- A condition on what is behind the driver that the calls of the flash code keep.  It is the
special case of a mirroring with one side. -/
structure Kept (rounds : ℕ) [XSpiDriver σ] (I : σ → Prop) : Prop where
  transfer : ∀ frame recv {d}, I d → I (XSpiDriver.xspiTransfer rounds frame recv d).2
  select : ∀ {d}, I d → I (XSpiDriver.xspiSetSlaveSelect spiSelect d).2
  start : ∀ {d}, I d → I (XSpiDriver.xspiStart d).2
  boot : ∀ {configPtr d}, xspiLookupConfig spiDeviceId = some configPtr → I d →
    I (bootCalls configPtr d).2
  write : ∀ register data {d}, register ∈ [icapWriteFifo, icapWriteControl] → I d →
    I (XSpiDriver.pciWriteReg (icapBaseAddr + register) data d)

/-- A driver mirrors itself, with the condition on the side.  So the results about mirrorings
give invariants of runs as well. -/
def Kept.mirroring {rounds : ℕ} [XSpiDriver σ] {I : σ → Prop} (hI : Kept rounds I) :
    Mirroring σ σ rounds where
  rel _ d d' := d = d' ∧ I d
  anyway h := h
  empty := True
  transfer := by
    rintro _ frame recv d _ - - ⟨rfl, h⟩
    exact sameAnswer_of ⟨rfl, hI.transfer frame recv h⟩
  select := by
    rintro d _ ⟨rfl, h⟩
    exact ⟨Iff.rfl, rfl, hI.select h⟩
  start := by
    rintro d _ ⟨rfl, h⟩
    exact ⟨rfl, hI.start h⟩
  boot := by
    rintro _ configPtr d _ hconfig ⟨rfl, h⟩
    exact ⟨Iff.rfl, ⟨rfl, hI.boot hconfig h⟩, fun _ => ⟨rfl, hI.boot hconfig h⟩⟩
  write := by
    rintro _ register data d _ hregister ⟨rfl, h⟩
    exact ⟨rfl, hI.write register data hregister h⟩

/-- The condition holds behind every run of a process that comes up in it. -/
theorem Kept.statuses_fresh {env : Env} [XSpiDriver σ] {I : σ → Prop} (hI : Kept env.rounds I)
    (operations : List Operation) {d : σ} (h : I d) :
    I (statuses env operations (World.fresh d)).2.bus :=
  (hI.mirroring.statuses_fresh (fun _ _ => .inr trivial) ⟨rfl, h⟩).2.bus.2

/-- The records tell the same. -/
theorem Mirrored.seen {rel : Bool → σ → σ' → Prop} {booted : Bool} {w : World σ} {w' : World σ'}
    (h : Mirrored rel booted w w') : w.events.map Event.seen = w'.events.map Event.seen := by
  generalize w.events = es, w'.events = es', h.events = hevents
  induction hevents with
  | nil => rfl
  | cons he _ ih => rw [List.map_cons, List.map_cons, he.seen, ih]

end Kiflash
