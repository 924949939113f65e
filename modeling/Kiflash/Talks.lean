import Kiflash.Images
import Mathlib.Logic.Relation
import Mathlib.Data.Set.Insert

/-!
# What a run of flash commands can touch

Every function of `Kiflash.Commands` does three kinds of things: it stores into the two frame
buffers, it calls the driver, and it records its transfers.  `Talks A w w'` says that a run
from `w` to `w'` did nothing else, and that every frame it sent is in the set `A`.  It holds
for every driver, whatever the run's outcome.

* `framesOf`, `Says` — sets of frames, by their command bytes.
* `housekeeping` — the frames of the functions that only poll, enable, switch modes and read
  registers; `statusFrames` — those of them that leave the modes alone.
* `BusStep`, `Talks` — a driver call, and a run of them.
* one `Moves (Talks A)` theorem for each command function, under `statusFrames ⊆ A` or
  `housekeeping ⊆ A` and, for the functions that send something else, the membership of that
  frame.

### What is gained by the set of frames

The set is a parameter since the statements that use it differ in what they must exclude.
That nothing outside of a region is erased needs the erase frames with their addresses; that
the address mode is left alone needs the command bytes only; that two slaves do not interfere
needs no more than that every frame is a frame.  One theorem per function answers them all.

`Talks` is an upper bound on what a function does.  It does not say that a frame is sent, nor
in which order; where that matters the functions are evaluated, in `Kiflash.Nor` and in
`Kiflash.Openings`.

### What the initialisation adds

`Talks.configured` is the one part that is not a frame condition.  The flag `qspi_init_flag`
goes up only if the driver has accepted a configuration on the way, and this is what the later
statements on a startup that failed rest on.
-/

open Imperative Imperative.Prog

namespace Kiflash

/-! ## Sets of frames -/

/-- The frames that begin with a command byte of `ops`, and the empty frame.  A transfer of no
bytes is answered by the driver with a failure, but it is called. -/
def framesOf (ops : Set UInt8) : Set (List UInt8) := {frame | ∀ op ∈ frame.head?, op ∈ ops}

/-- Every frame that begins with `cmd` is in `A`, cut off wherever.  The frames that the code
sends are prefixes of the write buffer, and the buffer may hold bytes of earlier frames behind
the new ones. -/
def Says (A : Set (List UInt8)) (cmd : UInt8) : Prop := ∀ rest n, (cmd :: rest).take n ∈ A

/-- A set of frames given by command bytes does not look behind the first. -/
theorem says_framesOf {ops : Set UInt8} {cmd : UInt8} (h : cmd ∈ ops) : Says (framesOf ops) cmd := by
  intro rest n
  cases n with
  | zero => simp [framesOf]
  | succ n => simpa [framesOf] using h

theorem says_univ (cmd : UInt8) : Says Set.univ cmd := fun _ _ => trivial

theorem Says.mono {A B : Set (List UInt8)} {cmd : UInt8} (h : Says A cmd) (hAB : A ⊆ B) :
    Says B cmd := fun rest n => hAB (h rest n)

theorem framesOf_mono {ops ops' : Set UInt8} (h : ops ⊆ ops') : framesOf ops ⊆ framesOf ops' :=
  fun _ hframe op hop => h (hframe op hop)

/-- The command bytes that the flash code sends for its own bookkeeping.  None of them changes
what the flash stores. -/
def housekeepingCommands : Set UInt8 :=
  {commandStatusregRead, commandWriteEnable, commandEnterQuadMode,
    commandEnter4byteAddressMode, commandExit4byteAddressMode, commandReadFlagStatus,
    commandClearFlagStatus, commandReadExtendedAddress, commandWriteStatusRegister,
    commandReadId}

/-- The frames of the bookkeeping.  They neither read the cells nor change them. -/
def housekeeping : Set (List UInt8) := framesOf housekeepingCommands

/-- The command bytes that are sent around every other command: to poll, to set the write
enable latch, and to read and clear the flag status register. -/
def statusCommands : Set UInt8 :=
  {commandStatusregRead, commandWriteEnable, commandReadFlagStatus, commandClearFlagStatus}

/-- The frames of these commands. -/
def statusFrames : Set (List UInt8) := framesOf statusCommands

/-- The status commands are part of the bookkeeping. -/
theorem statusFrames_subset : statusFrames ⊆ housekeeping := by
  refine framesOf_mono ?_
  rintro cmd (rfl | rfl | rfl | rfl) <;> simp [housekeepingCommands]

section Definitions

variable {σ : Type} [XSpiDriver σ]

/-- One call of the driver, with the options that the flash code asks for; a transfer has its
frame in `A`.  The slave mask is left open, as the reset of the core and the code's own
selection differ in it. -/
inductive BusStep (A : Set (List UInt8)) : σ → σ → Prop
  | transfer (rounds : ℕ) (frame : List UInt8) (recv : Bool) (bus : σ) (h : frame ∈ A) :
    BusStep A bus (XSpiDriver.xspiTransfer rounds frame recv bus).2
  | pciInitialize (bus : σ) : BusStep A bus (XSpiDriver.xspiPciInitialize bus)
  | cfgInitialize (config : XSpiConfig) (bus : σ) :
    BusStep A bus (XSpiDriver.xspiCfgInitialize config bus).2
  | setOptions (bus : σ) :
    BusStep A bus (XSpiDriver.xspiSetOptions (xspMasterOption ||| xspManualSselectOption) bus).2
  | setSlaveSelect (mask : UInt32) (bus : σ) :
    BusStep A bus (XSpiDriver.xspiSetSlaveSelect mask bus).2
  | start (bus : σ) : BusStep A bus (XSpiDriver.xspiStart bus).2

theorem BusStep.mono {A B : Set (List UInt8)} (hAB : A ⊆ B) {bus bus' : σ} (h : BusStep A bus bus') :
    BusStep B bus bus' := by
  cases h with
  | transfer rounds frame recv bus h => exact .transfer rounds frame recv bus (hAB h)
  | pciInitialize => exact .pciInitialize _
  | cfgInitialize => exact .cfgInitialize _ _
  | setOptions => exact .setOptions _
  | setSlaveSelect => exact .setSlaveSelect _ _
  | start => exact .start _

/-- The event is a transfer with its frame in `A`.  A run of commands records nothing else.
Stores to the percentage and writes elsewhere are not of this kind. -/
def Event.Speaks (A : Set (List UInt8)) : Event σ → Prop
  | .transfer _ frame _ => frame ∈ A
  | _ => False

/-- From `bus` on, the driver comes to accept a configuration, after calls that are allowed.
Of a driver that always refuses this is never the case. -/
def Configured (A : Set (List UInt8)) (bus : σ) : Prop :=
  ∃ config bus', Relation.ReflTransGen (BusStep A) bus bus' ∧
    (XSpiDriver.xspiCfgInitialize config bus').1 = .success

theorem Configured.mono {A B : Set (List UInt8)} (hAB : A ⊆ B) {bus : σ} (h : Configured A bus) :
    Configured B bus := by
  obtain ⟨config, bus', hbus, hconfig⟩ := h
  exact ⟨config, bus', hbus.lift id fun _ _ => BusStep.mono hAB, hconfig⟩

/-- A run that only calls the driver, with frames in `A`.  What the driver does behind the
calls is not bounded: its state may be that of a board with several chips. -/
structure Talks (A : Set (List UInt8)) (w w' : World σ) : Prop where
  bus : Relation.ReflTransGen (BusStep A) w.bus w'.bus
  flashData : w'.flashData = w.flashData
  qspiInitFlag : w.qspiInitFlag = true → w'.qspiInitFlag = true
  configured : w.qspiInitFlag = false → w'.qspiInitFlag = true → Configured A w.bus
  mallocs : w'.mallocs = w.mallocs
  fopens : w'.fopens = w.fopens
  streams : w'.streams = w.streams
  pciFds : w'.pciFds = w.pciFds
  events : ∃ es, w'.events = w.events ++ es ∧ ∀ e ∈ es, e.Speaks A

/-- A flag that a step leaves alone is not set by it.  The hypothesis of `Talks.configured` is
then contradictory. -/
theorem not_set_of_eq {b b' : Bool} (h : b' = b) {P : Prop} : b = false → b' = true → P := by
  rintro rfl rfl
  exact nomatch h

instance (A : Set (List UInt8)) : IsPreorder (World σ) (Talks A) where
  refl w := ⟨.refl, rfl, id, not_set_of_eq rfl, rfl, rfl, rfl, rfl, [], by simp, by simp⟩
  trans w₁ w₂ w₃ h h' := by
    obtain ⟨es, hes, hA⟩ := h.events
    obtain ⟨es', hes', hA'⟩ := h'.events
    refine ⟨h.bus.trans h'.bus, h'.flashData.trans h.flashData,
      h'.qspiInitFlag ∘ h.qspiInitFlag, fun hflag hflag' => ?_, h'.mallocs.trans h.mallocs,
      h'.fopens.trans h.fopens, h'.streams.trans h.streams, h'.pciFds.trans h.pciFds, es ++ es', ?_, ?_⟩
    -- The flag goes up in one of the two parts; the configuration was accepted in that one.
    · by_cases hflag₂ : w₂.qspiInitFlag = true
      · exact h.configured hflag hflag₂
      · obtain ⟨config, bus', hbus, hconfig⟩ :=
          h'.configured (Bool.eq_false_iff.mpr hflag₂) hflag'
        exact ⟨config, bus', h.bus.trans hbus, hconfig⟩
    · rw [hes', hes, List.append_assoc]
    · intro e he
      rcases List.mem_append.mp he with he | he
      · exact hA e he
      · exact hA' e he

theorem Talks.mono {A B : Set (List UInt8)} (hAB : A ⊆ B) {w w' : World σ} (h : Talks A w w') :
    Talks B w w' := by
  obtain ⟨es, hes, hA⟩ := h.events
  refine ⟨h.bus.lift id fun _ _ => BusStep.mono hAB, h.flashData, h.qspiInitFlag,
    fun hflag hflag' => (h.configured hflag hflag').mono hAB, h.mallocs, h.fopens, h.streams,
    h.pciFds, es, hes, fun e he => ?_⟩
  cases e with
  | transfer before frame status => exact hAB (hA _ he)
  | _ => exact (hA _ he).elim

end Definitions

section Commands

variable {σ : Type} [XSpiDriver σ] {env : Env} {A : Set (List UInt8)} {w : World σ}

/-- Changes of the buffers and of the polled flags alone.  These are the stores between two
transfers. -/
theorem Talks.of_buffers {w' : World σ}
    (h : w' = { w with
      transferInProgress := w'.transferInProgress
      errorCount := w'.errorCount
      readBuffer := w'.readBuffer
      writeBuffer := w'.writeBuffer }) : Talks A w w' := by
  rw [h]
  exact ⟨.refl, rfl, id, not_set_of_eq rfl, rfl, rfl, rfl, rfl, [], by simp, by simp⟩

/-- One transfer, with whatever became of the receive buffer. -/
theorem Talks.of_sent {rounds : ℕ} {frame : List UInt8} {recv : Bool} {status : Option Xst}
    {bus : σ} {readBuffer : ℕ → UInt8} (h : frame ∈ A)
    (hbus : (XSpiDriver.xspiTransfer rounds frame recv w.bus).2 = bus) :
    Talks A w { w.sent frame status bus with readBuffer } :=
  ⟨hbus ▸ .single (.transfer rounds frame recv w.bus h), rfl, id, not_set_of_eq rfl, rfl, rfl,
    rfl, rfl, [.transfer w.bus frame status], rfl, by simpa [Event.Speaks] using h⟩

/-- A call of the driver without a frame. -/
theorem callDriver_talks {call : σ → Xst × σ} (h : ∀ bus, BusStep A bus (call bus).2) :
    Moves (Talks A) (callDriver call) := fun w =>
  ⟨.single (h w.bus), rfl, id, not_set_of_eq rfl, rfl, rfl, rfl, rfl, [], by simp [callDriver],
    by simp⟩

/-- The call of `XSpi_Transfer`, whatever it returns. -/
theorem xspiTransfer_talks {recv : Bool} {n : ℕ} (h : bytesOf w.writeBuffer n ∈ A) :
    wp (xspiTransfer env recv n) (fun _ w' => Talks A w w') (fun _ w' => Talks A w w') w := by
  refine wp_xspiTransfer (fun _ => refl_of _ w) (fun bus hx => ?_)
    (fun status stored bus hx _ => ?_) (fun status stored bus hx _ => ?_)
  · exact Talks.of_sent h (congrArg Prod.snd hx)
  · exact Talks.of_sent h (congrArg Prod.snd hx)
  · exact Talks.of_sent h (congrArg Prod.snd hx)

/-- The body that the command functions share: the transfer, the wait, the error check, and
what comes behind them. -/
theorem command_talks {recv : Bool} {n : ℕ} {inner : Prog (World σ) Xst}
    (hinner : Moves (Talks A) inner) (h : bytesOf w.writeBuffer n ∈ A) :
    wp (command env recv n inner) (fun _ w' => Talks A w w') (fun _ w' => Talks A w w') w := by
  have start : Talks A w { w with transferInProgress := true } := .of_buffers rfl
  refine (wp_command env).mpr (wp_mono (xspiTransfer_talks h) (fun status w₁ h₁ => ?_) ?_)
  · refine ⟨fun _ => wp_mono (hinner.wp w₁) (fun status w₂ h₂ => ?_) (fun _ w₂ h₂ => ?_),
      fun _ => trans_of _ start h₁⟩
    · have done := trans_of _ start (trans_of _ h₁ h₂)
      exact ⟨fun _ _ => trans_of _ done (.of_buffers rfl),
        fun _ _ => trans_of _ done (.of_buffers rfl), fun _ => trans_of _ done (.of_buffers rfl)⟩
    · exact trans_of _ start (trans_of _ h₁ h₂)
  · exact fun _ w₁ h₁ => trans_of _ start h₁

/-- The shape of every command function: a frame that begins with `bs` is built and sent.  The
bytes behind `bs` are what the buffer held before, so the frame is required for all of
them. -/
theorem send_talks {bs : List UInt8} {recv : Bool} {n : ℕ} {inner : Prog (World σ) Xst}
    (hframe : ∀ stale, (bs ++ stale).take n ∈ A) (hinner : Moves (Talks A) inner) :
    Moves (Talks A) (fillWriteBuffer 0 bs >>= fun _ => command env recv n inner) := by
  intro w
  refine wp_state_iff.mp (wp_bind.mpr (wp_fillWriteBuffer (fun _ => ?_) fun _ => .of_buffers rfl))
  have speaks : bytesOf (overlay w.writeBuffer 0 bs) n ∈ A := by
    rw [bytesOf_overlay_take]
    exact hframe _
  exact wp_mono (command_talks hinner speaks)
    (fun _ _ h => trans_of _ (.of_buffers rfl) h) (fun _ _ h => trans_of _ (.of_buffers rfl) h)

/-- A one-byte command.  Its arguments, where it has any, do not matter to a set that is given
by command bytes. -/
theorem sendByte_talks {cmd : UInt8} {args : List UInt8} {recv : Bool} {n : ℕ} (h : Says A cmd) :
    Moves (Talks A) (fillWriteBuffer 0 (cmd :: args) >>= fun _ =>
      command (σ := σ) env recv n (pure .success)) :=
  send_talks (fun stale => h (args ++ stale) n) (moves_pure _)

section Status

variable (hA : statusFrames ⊆ A)
include hA

omit [XSpiDriver σ] in
theorem says_status {cmd : UInt8} (h : cmd ∈ statusCommands) : Says A cmd :=
  (says_framesOf h).mono hA

theorem spiFlashGetStatus_talks : Moves (Talks A) (spiFlashGetStatus (σ := σ) env) :=
  sendByte_talks (says_status hA (by simp [statusCommands]))

theorem spiFlashWaitForFlashReady_talks :
    Moves (Talks A) (spiFlashWaitForFlashReady (σ := σ) env) := by
  refine Moves.loop (fun _ => (spiFlashGetStatus_talks hA).bind fun status => ?_) _ _
  exact ((moves_gets _).bind fun _ => (moves_pure _).ite (moves_pure _)).ite (moves_pure _)

theorem spiFlashWriteEnable_talks : Moves (Talks A) (spiFlashWriteEnable (σ := σ) env) :=
  (spiFlashWaitForFlashReady_talks hA).check
    (sendByte_talks (says_status hA (by simp [statusCommands])))

theorem enabledCommand_talks {cmd : UInt8} (hcmd : Says A cmd) :
    Moves (Talks A) (enabledCommand (σ := σ) env cmd) :=
  (spiFlashWriteEnable_talks hA).check <|
    (spiFlashWaitForFlashReady_talks hA).check (sendByte_talks hcmd)

theorem enabledRegisterRead_talks {cmd : UInt8} (hcmd : Says A cmd) :
    Moves (Talks A) (enabledRegisterRead (σ := σ) env cmd) :=
  (spiFlashWriteEnable_talks hA).check <|
    (spiFlashWaitForFlashReady_talks hA).check (sendByte_talks hcmd)

theorem spiFlashReadflagstatus_talks : Moves (Talks A) (spiFlashReadflagstatus (σ := σ) env) :=
  enabledRegisterRead_talks hA (says_status hA (by simp [statusCommands]))

theorem spiFlashClrflagstatus_talks : Moves (Talks A) (spiFlashClrflagstatus (σ := σ) env) :=
  (spiFlashWaitForFlashReady_talks hA).check
    (sendByte_talks (says_status hA (by simp [statusCommands])))

theorem spiFlashBulkErase_talks (hcmd : Says A commandBulkErase) :
    Moves (Talks A) (spiFlashBulkErase (σ := σ) env) :=
  (spiFlashWaitForFlashReady_talks hA).check (sendByte_talks hcmd)

theorem getStatus_talks : Moves (Talks A) (getStatus (σ := σ) env) :=
  (spiFlashGetStatus_talks hA).bind fun _ => (spiFlashReadflagstatus_talks hA).bind fun _ =>
    (spiFlashClrflagstatus_talks hA).bind fun _ => moves_pure _

/-- The common body of the two erases by address: poll, enable, send, poll, and the flag
status. -/
theorem eraseCommand_talks {cmd : UInt8} {addr : UInt32} (hframe : cmd :: addrBytes addr ∈ A) :
    Moves (Talks A) (eraseCommand (σ := σ) env cmd addr) :=
  (spiFlashWriteEnable_talks hA).check <| (spiFlashWaitForFlashReady_talks hA).check <|
    send_talks (fun _ => hframe) (getStatus_talks hA)

/-- A startup that succeeds has had its configuration accepted.  The function returns at the
first step that fails, so success means that `XSpi_CfgInitialize` was among those that did
not. -/
theorem systemInitStartup_configured :
    wp (systemInitStartup (σ := σ) env)
      (fun status w' => Talks A w w' ∧ (status = .success → Configured A w.bus))
      (fun _ w' => Talks A w w') w := by
  rw [systemInitStartup]
  split
  · exact ⟨refl_of _ w, fun h => nomatch h⟩
  · rename_i config _
    have init : Talks A w { w with bus := XSpiDriver.xspiPciInitialize w.bus } :=
      ⟨.single (.pciInitialize w.bus), rfl, id, not_set_of_eq rfl, rfl, rfl, rfl, rfl, [], by simp,
        by simp⟩
    have rest : Moves (Talks A) (check (callDriver (XSpiDriver.xspiSetOptions
        (xspMasterOption ||| xspManualSselectOption))) <|
        check (callDriver (XSpiDriver.xspiSetSlaveSelect spiSelect)) do
          let _ ← callDriver (σ := σ) XSpiDriver.xspiStart
          check (spiFlashWriteEnable env) (pure .success)) :=
      (callDriver_talks .setOptions).check <| (callDriver_talks (.setSlaveSelect _)).check <|
        (callDriver_talks .start).bind fun _ => (spiFlashWriteEnable_talks hA).check (moves_pure _)
    have init := trans_of _ init (callDriver_talks (.cfgInitialize config) _)
    refine wp_bind.mpr (wp_modify.mpr (wp_check.mpr (wp_callDriver.mpr ⟨fun hok => ?_, fun _ => ?_⟩)))
    · refine wp_mono (rest.wp _) (fun _ w' h => ⟨trans_of _ init h, fun _ => ?_⟩)
        fun _ w' h => trans_of _ init h
      exact ⟨config, _, .single (.pciInitialize w.bus), hok⟩
    · exact ⟨init, fun h => nomatch h⟩

/-- The startup behind the flag: it is skipped, fails with the flag clear, or succeeds with
the configuration accepted. -/
theorem ensureInit_talks : Moves (Talks A) (ensureInit (σ := σ) env) := by
  refine (moves_gets _).bind fun _ => (moves_pure _).ite fun w => ?_
  refine wp_state_iff.mp (wp_check.mpr (wp_mono (systemInitStartup_configured hA)
    (fun status w' h => ⟨fun hok => ?_, fun _ => h.1⟩) fun _ _ h => h))
  obtain ⟨talks, configured⟩ := h
  exact ⟨talks.bus, talks.flashData, fun _ => rfl, fun _ _ => configured hok, talks.mallocs,
    talks.fopens, talks.streams, talks.pciFds, talks.events⟩

end Status

section Housekeeping

variable (hA : housekeeping ⊆ A)
include hA

omit [XSpiDriver σ] in
theorem says_housekeeping {cmd : UInt8} (h : cmd ∈ housekeepingCommands) : Says A cmd :=
  (says_framesOf h).mono hA

theorem spiFlash4bytemodeEnable_talks : Moves (Talks A) (spiFlash4bytemodeEnable (σ := σ) env) :=
  enabledCommand_talks (statusFrames_subset.trans hA)
    (says_housekeeping hA (by simp [housekeepingCommands]))

theorem spiFlash4byteexit_talks : Moves (Talks A) (spiFlash4byteexit (σ := σ) env) :=
  enabledCommand_talks (statusFrames_subset.trans hA)
    (says_housekeeping hA (by simp [housekeepingCommands]))

theorem spiFlashReadID_talks : Moves (Talks A) (spiFlashReadID (σ := σ) env) :=
  (spiFlashWaitForFlashReady_talks (statusFrames_subset.trans hA)).check
    (sendByte_talks (says_housekeeping hA (by simp [housekeepingCommands])))

theorem spiFlashQuadEnable_talks : Moves (Talks A) (spiFlashQuadEnable (σ := σ) env) := by
  have hstatus : statusFrames ⊆ A := statusFrames_subset.trans hA
  simp only [spiFlashQuadEnable, bind_check]
  refine (spiFlashWriteEnable_talks hstatus).check <|
    (spiFlashWaitForFlashReady_talks hstatus).check <| Moves.check (sendByte_talks ?_) <|
    (spiFlashWaitForFlashReady_talks hstatus).check (sendByte_talks ?_)
  · exact says_housekeeping hA (by simp [housekeepingCommands])
  · exact says_housekeeping hA (by simp [housekeepingCommands])

/-- A page program.  The frame is the one that the length, a sum of 32 bits, cuts off: for a
length that wraps to nothing it is empty. -/
theorem spiFlashWriteFile_talks {addr byteCount : UInt32} {writeCmd : UInt8}
    {pageBuffer : ℕ → UInt8}
    (hframe : (writeCmd :: addrBytes addr ++ bytesOf pageBuffer
      ((byteCount + readWriteExtraBytes + 1).toNat - 5)).take
      (byteCount + readWriteExtraBytes + 1).toNat ∈ A) :
    Moves (Talks A) (spiFlashWriteFile (σ := σ) env addr byteCount writeCmd pageBuffer) := by
  have hstatus : statusFrames ⊆ A := statusFrames_subset.trans hA
  rw [spiFlashWriteFile_eq]
  refine (spiFlash4bytemodeEnable_talks hA).check <| (spiFlashWriteEnable_talks hstatus).check <|
    (spiFlashWaitForFlashReady_talks hstatus).check <|
    Moves.check (fun w => ?_) (spiFlash4byteexit_talks hA)
  generalize (byteCount + readWriteExtraBytes + 1).toNat = size at hframe ⊢
  refine wp_state_iff.mp (wp_bind.mpr (wp_fillWriteBuffer (fun _ => ?_) fun _ => .of_buffers rfl))
  refine wp_bind.mpr (wp_fillWriteBuffer (fun _ => ?_) fun _ => .of_buffers rfl)
  have speaks : bytesOf (overlay (overlay w.writeBuffer 0 (writeCmd :: addrBytes addr)) 5
      (bytesOf pageBuffer (size - 5))) size ∈ A := by
    rw [writeFrame_eq]
    exact hframe
  exact wp_mono (command_talks (moves_pure _) speaks)
    (fun _ _ h => trans_of _ (.of_buffers rfl) h) (fun _ _ h => trans_of _ (.of_buffers rfl) h)

/-- A read.  Its command byte is an argument of the function. -/
theorem spiFlashRead_talks {addr byteCount : UInt32} {readCmd : UInt8} (hcmd : Says A readCmd) :
    Moves (Talks A) (spiFlashRead (σ := σ) env addr byteCount readCmd) := by
  have hstatus : statusFrames ⊆ A := statusFrames_subset.trans hA
  rw [spiFlashRead_eq]
  exact (spiFlash4bytemodeEnable_talks hA).check <| (spiFlashWriteEnable_talks hstatus).check <|
    (spiFlashWaitForFlashReady_talks hstatus).check <|
    (sendByte_talks hcmd).check (spiFlash4byteexit_talks hA)

theorem spiFlashSectorErase_talks {addr : UInt32}
    (hframe : commandSectorErase :: addrBytes addr ∈ A) :
    Moves (Talks A) (spiFlashSectorErase (σ := σ) env addr) :=
  (spiFlash4bytemodeEnable_talks hA).check (eraseCommand_talks (statusFrames_subset.trans hA) hframe)

/-- The die erase, with the address that the shift gives: of a die number only six bits
survive. -/
theorem spiFlashDieErase_talks {uscDieNr : UInt32}
    (hframe : commandDieErase :: addrBytes (uscDieNr <<< 26) ∈ A) :
    Moves (Talks A) (spiFlashDieErase (σ := σ) env uscDieNr) := by
  have hstatus : statusFrames ⊆ A := statusFrames_subset.trans hA
  refine (spiFlash4bytemodeEnable_talks hA).check <|
    (enabledRegisterRead_talks hstatus ?_).check (eraseCommand_talks hstatus hframe)
  exact says_housekeeping hA (by simp [housekeepingCommands])

/-- The loop over the sectors, each with its own frame.  The addresses count up in steps of a
sector, and wrap at 32 bits. -/
theorem qspiEraseSectorFlash_talks {ofsetAddr sectCount : UInt32}
    (hframe : ∀ i < sectCount.toNat,
      commandSectorErase :: addrBytes (ofsetAddr + UInt32.ofNat (65536 * i)) ∈ A) :
    Moves (Talks A) (qspiEraseSectorFlash (σ := σ) env ofsetAddr sectCount) := by
  refine Moves.ite (fun w => ?_) (moves_pure _)
  -- the sectors left, and the address of the next one
  refine wp_state_iff.mp (wp_checkLoop (fun n addr w' => n ≤ sectCount.toNat ∧
      addr = ofsetAddr + UInt32.ofNat (65536 * (sectCount.toNat - n)) ∧ Talks A w w')
    (fun n addr w₁ inv => ?_) (fun _ _ inv => inv.2.2) _ _ w ⟨le_rfl, by simp, refl_of _ w⟩)
  obtain ⟨hle, rfl, h₁⟩ := inv
  have herase : Moves (Talks A) (spiFlashSectorErase (σ := σ) env _) :=
    spiFlashSectorErase_talks hA (hframe (sectCount.toNat - (n + 1)) (by omega))
  refine wp_mono (herase.wp w₁) (fun status w₂ h₂ => ?_) fun _ w₂ h₂ => trans_of _ h₁ h₂
  refine ⟨fun _ => ⟨by omega, ?_, trans_of _ h₁ h₂⟩, fun _ => trans_of _ h₁ h₂⟩
  have hstride : 65536 * (sectCount.toNat - n) = 65536 * (sectCount.toNat - (n + 1)) + 65536 := by
    omega
  rw [hstride, UInt32.ofNat_add, ← UInt32.add_assoc]
  rfl

end Housekeeping

end Commands

end Kiflash
