import Kiflash.Nor.Device

/-!
# The command protocol of the flash

The flash drops a command that it gets at the wrong time, and the driver does not notice.  So
the host has to keep to three rules (`Proper`): nothing but a status read while the flash is
busy, write commands with the write enable latch set, and five-byte erase frames in 4-byte
address mode.

`Knows idle enabled fourByte` is what the host can rely on between two commands;
`Conforms P m Q` says that `m` keeps to the rules from `P` on and that its success establishes
`Q`.  Every function that sends a frame has one `Conforms` theorem, and everything built of
these functions follows by composition.

### What the host knows

The host cannot see the state of the flash.  What it knows follows from what it has sent and
how that went: behind a successful wait the flash is idle, behind a successful write enable
its latch is set, behind a successful mode command it is in that mode and the latch may be
gone.  A transfer that fails makes nothing known, and the functions stop there.  The three
flags of `Knows` say which of the three is known; `false` means that it is not, and not that
it is false.

### From triples to runs

A function that needs to know nothing at its beginning can be called anywhere
(`Conforms.moves`).  This is the case for all functions of the code but the bulk erase, which
has its write enable in its caller.  A run of such functions keeps to the rules whatever they
return, with nothing to be carried from one to the next.
-/

open Imperative Imperative.Prog NorFlash

namespace Kiflash

variable {p : NorParams}

/-- The frame may be sent to the flash in this state.  The three fields are the rules of the
data sheet that the functions of the source keep by waiting, by a write enable, and by
entering the four-byte mode. -/
structure Proper (before : Nor p) (frame : List UInt8) : Prop where
  idle : ∀ cmd ∈ frame.head?, cmd ≠ commandStatusregRead → before.wip = 0
  enabled : ∀ cmd ∈ frame.head?, cmd ∈ writeOps → before.wel = true
  fourByte : ∀ cmd ∈ frame.head?, cmd = commandSectorErase ∨ cmd = commandDieErase →
    frame.length = 5 → before.fourByte = true

/-- The transfers among the events are proper.  The events of a run are compared with this set
by `Emits`. -/
def proper : Set (Event (Nor p)) :=
  {e | ∀ before frame status, e = .transfer before frame status → Proper before frame}

/-- What is known of the flash between two commands: that it is idle, that the write
enable latch is set, that it is in 4-byte address mode. -/
structure Knows (idle enabled fourByte : Bool) (d : Nor p) : Prop where
  wip : idle = true → d.wip = 0
  wel : enabled = true → d.wel = true
  mode : fourByte = true → d.fourByte = true

section Knowledge

variable {idle enabled fourByte : Bool} {d : Nor p} {frame : List UInt8}

/-- Nothing need be known. -/
theorem knows_nothing (d : Nor p) : Knows false false false d :=
  ⟨fun h => (nomatch h), fun h => (nomatch h), fun h => (nomatch h)⟩

/-- What is known may be forgotten. -/
theorem Knows.forget_idle (h : Knows idle enabled fourByte d) : Knows false enabled fourByte d :=
  ⟨fun h => (nomatch h), h.wel, h.mode⟩

theorem Knows.forget_enabled (h : Knows idle enabled fourByte d) : Knows idle false fourByte d :=
  ⟨h.wip, fun h => (nomatch h), h.mode⟩

/-- Counting the transfer changes nothing that is known. -/
theorem Knows.tick (h : Knows idle enabled fourByte d) : Knows idle enabled fourByte d.tick :=
  ⟨h.wip, h.wel, h.mode⟩

/-- With everything known, every frame may be sent. -/
theorem Knows.proper (h : Knows true true true d) (frame : List UInt8) : Proper d frame :=
  ⟨fun _ _ _ => h.wip rfl, fun _ _ _ => h.wel rfl, fun _ _ _ _ => h.mode rfl⟩

/-- Frames that the address mode makes no difference to. -/
theorem Knows.proper_of_enabled (h : Knows true true fourByte d)
    (hcmd : ∀ cmd ∈ frame.head?, cmd ≠ commandSectorErase ∧ cmd ≠ commandDieErase) :
    Proper d frame := by
  refine ⟨fun _ _ _ => h.wip rfl, fun _ _ _ => h.wel rfl, fun cmd hmem hor _ => ?_⟩
  rcases hor with rfl | rfl
  · exact absurd rfl (hcmd _ hmem).1
  · exact absurd rfl (hcmd _ hmem).2

/-- Frames that the write enable latch makes no difference to. -/
theorem Knows.proper_of_idle (h : Knows true enabled fourByte d)
    (hcmd : ∀ cmd ∈ frame.head?, cmd ∉ writeOps) : Proper d frame := by
  refine ⟨fun _ _ _ => h.wip rfl, fun cmd hmem hop => absurd hop (hcmd cmd hmem),
    fun cmd hmem hor _ => absurd ?_ (hcmd cmd hmem)⟩
  rcases hor with rfl | rfl <;> simp [writeOps]

/-- A status read may always be sent. -/
theorem proper_statusRead (d : Nor p) (args : List UInt8) :
    Proper d (commandStatusregRead :: args) := by
  refine ⟨?_, ?_, ?_⟩ <;> rintro _ ⟨⟩
  · exact fun h => absurd rfl h
  · exact fun h => by simp [writeOps, commandStatusregRead, command4bytePageProgram,
      commandSectorErase, commandDieErase, commandBulkErase, commandWriteStatusRegister] at h
  · rintro (h | h) <;> exact absurd h (by decide)

/-! ## What the commands make known -/

/-- A status read takes nothing away. -/
theorem Knows.obey_statusRead (h : Knows idle enabled fourByte d) (args : List UInt8) :
    Knows idle enabled fourByte (d.obey commandStatusregRead args) := by
  rw [Nor.obey_statusRead]
  exact ⟨fun hidle => by simp [h.wip hidle], h.wel, h.mode⟩

/-- An idle flash sets its latch. -/
theorem Knows.obey_writeEnable (h : Knows true enabled fourByte d) (args : List UInt8) :
    Knows true true fourByte (d.obey commandWriteEnable args) := by
  rw [Nor.obey_writeEnable (h.wip rfl)]
  exact ⟨h.wip, fun _ => rfl, h.mode⟩

/-- A mode command behind a write enable is obeyed.  It may clear the latch. -/
theorem Knows.obey_enter4byte (h : Knows true true fourByte d) (args : List UInt8) :
    Knows true false true (d.obey commandEnter4byteAddressMode args) := by
  rw [Nor.obey_mode (.inl rfl) (h.wip rfl) (h.wel rfl)]
  exact ⟨h.wip, fun h => (nomatch h), fun _ => by simp⟩

/-- The same in the other direction. -/
theorem Knows.obey_exit4byte (h : Knows true true fourByte d) (args : List UInt8) :
    Knows true false false (d.obey commandExit4byteAddressMode args) := by
  rw [Nor.obey_mode (.inr rfl) (h.wip rfl) (h.wel rfl)]
  exact ⟨h.wip, fun h => (nomatch h), fun h => (nomatch h)⟩

/-- The other housekeeping commands do nothing to the flash.  They are answered or ignored,
and neither latch nor mode changes. -/
theorem Knows.obey_other {cmd : UInt8} (hcmd : cmd ∈ [commandReadFlagStatus,
      commandClearFlagStatus, commandReadExtendedAddress, commandReadId, commandEnterQuadMode])
    (h : Knows true enabled fourByte d) (args : List UInt8) :
    Knows true enabled fourByte (d.obey cmd args) := by
  have hother : cmd ≠ commandStatusregRead ∧ cmd ≠ commandWriteEnable ∧
      ¬ (cmd = commandEnter4byteAddressMode ∨ cmd = commandExit4byteAddressMode) ∧
      writeCommand d.fourByte (cmd :: args) = none := by
    simp only [List.mem_cons, List.not_mem_nil, or_false] at hcmd
    rcases hcmd with rfl | rfl | rfl | rfl | rfl <;>
      exact ⟨by decide, by decide, by decide, rfl⟩
  obtain ⟨hstatus, henable, hmode, hwrite⟩ := hother
  rw [Nor.obey, if_neg hstatus, if_neg (not_not.mpr (h.wip rfl)), if_neg henable, if_neg hmode,
    hwrite]
  exact h

end Knowledge

/-! ## Conforming functions -/

/-- From `P` on, `m` sends proper frames only, and `Q` holds after its success. -/
def Conforms (P : Nor p → Prop) (m : Prog (World (Nor p)) Xst) (Q : Nor p → Prop) : Prop :=
  ∀ w, P w.bus → wp m (fun status w' => Emits proper w w' ∧ (status = .success → Q w'.bus))
    (fun _ w' => Emits proper w w') w

section Conforms

variable {P P' Q Q' R : Nor p → Prop} {m k : Prog (World (Nor p)) Xst}

/-- Two steps: the second begins with what the success of the first has made known. -/
theorem Conforms.check (hm : Conforms P m Q) (hk : Conforms Q k R) : Conforms P (check m k) R := by
  intro w h
  refine wp_check.mpr (wp_mono (hm w h) (fun status w₁ h₁ => ⟨fun hok => ?_, fun _ => ?_⟩)
    fun _ _ h => h)
  · refine wp_mono (hk w₁ (h₁.2 hok)) (fun status w₂ h₂ => ?_) fun _ _ h₂ => trans_of _ h₁.1 h₂
    exact ⟨trans_of _ h₁.1 h₂.1, h₂.2⟩
  · exact ⟨h₁.1, fun hok => (nomatch hok)⟩

/-- A function that needs to know nothing keeps to the rules wherever it is called. -/
theorem Conforms.moves (h : Conforms (Knows false false false) m Q) : Moves (Emits proper) m :=
  fun w => wp_state_iff.mp (wp_mono (h w (knows_nothing _)) (fun _ _ h => h.1) fun _ _ h => h)

/-- What holds after a success. -/
theorem Conforms.of_success {w w' : World (Nor p)} (h : Conforms P m Q) (hw : P w.bus)
    (hm : m w = (.ret .success, w')) : Q w'.bus :=
  ((wp_of_ret hm).mp (h w hw)).2 rfl

end Conforms

section Commands

variable {env : Env} {idle enabled fourByte : Bool} {w : World (Nor p)}

/-- A proper frame on its way. -/
theorem command_proper {recv : Bool} {n : ℕ} {inner : Prog (World (Nor p)) Xst}
    (h : Proper w.bus (bytesOf w.writeBuffer n)) (hinner : Moves (Emits proper) inner) :
    wp (command env recv n inner) (fun _ w' => Emits proper w w') (fun _ w' => Emits proper w w')
      w := by
  have sent : ∀ {status} {w' : World (Nor p)},
      w'.events = w.events ++ [.transfer w.bus (bytesOf w.writeBuffer n) status] →
      Emits proper w w' := fun heq => .of_mem heq fun _ _ _ heq => by cases heq; exact h
  refine (wp_command env).mpr (wp_xspiTransfer (fun _ => .of_eq rfl) (fun _ _ => sent rfl)
    (fun _ _ _ _ _ => sent rfl) fun status stored bus _ _ => ⟨fun _ => ?_, fun _ => sent rfl⟩)
  refine wp_mono (hinner.wp _) (fun status w₂ h₂ => ?_) fun _ w₂ h₂ => trans_of _ (sent rfl) h₂
  have done : Emits proper w w₂ := trans_of _ (sent rfl) h₂
  exact ⟨fun _ _ => done, fun _ _ => done, fun _ => done⟩

/-- A proper frame without anything behind it: its success is the flash's doing.  The error
check behind the transfer can fail on its own, and then nothing is said of the flash. -/
theorem command_conforms {recv : Bool} {n : ℕ} (h : Proper w.bus (bytesOf w.writeBuffer n)) :
    wp (command env recv n (pure .success))
      (fun status w' => Emits proper w w' ∧ (status = .success →
        w'.bus = (w.bus.execute (bytesOf w.writeBuffer n)).tick ∧
        w'.readBuffer = if recv then overlay w.readBuffer 0 (w.bus.answer (bytesOf w.writeBuffer n))
          else w.readBuffer))
      (fun _ w' => Emits proper w w') w := by
  have emits : wp (command env recv n (pure .success)) (fun _ w' => Emits proper w w')
      (fun _ w' => Emits proper w w') w := command_proper h (moves_pure Xst.success)
  rcases hrun : command env recv n (pure .success) w with ⟨status | why, w'⟩
  · rw [wp_of_ret hrun] at emits
    refine (wp_of_ret hrun).mpr ⟨emits, fun hok => ?_⟩
    subst hok
    obtain ⟨w₁, _, hx, ⟨⟩, rfl⟩ := command_eq_success env hrun
    obtain ⟨stored, bus, htransfer, rfl⟩ := xspiTransfer_eq_ret hx
    obtain ⟨-, -, rfl, rfl⟩ := Nor.transfer_success htransfer
    refine ⟨rfl, ?_⟩
    cases recv <;> rfl
  · exact (wp_of_stop hrun).mpr ((wp_of_stop hrun).mp emits)

/-- A frame of known first byte.  This is the rule by which each function with one command is
checked: what its frame needs, and what it makes of the flash. -/
theorem send_conforms {P Q : Nor p → Prop} {cmd : UInt8} {args : List UInt8} {recv : Bool} {n : ℕ}
    (hproper : ∀ d stale, P d → Proper d ((cmd :: args ++ stale).take n))
    (hQ : ∀ d rest, P d → Q (d.obey cmd rest).tick) (hn : 0 < n) :
    Conforms P (fillWriteBuffer 0 (cmd :: args) >>= fun _ =>
      command env recv n (pure .success)) Q := by
  intro w hw
  refine wp_bind.mpr (wp_fillWriteBuffer (fun _ => ?_) fun _ => .of_eq rfl)
  set w₁ : World (Nor p) := { w with writeBuffer := overlay w.writeBuffer 0 (cmd :: args) } with hw₁
  have hframe : ∃ stale, bytesOf w₁.writeBuffer n = (cmd :: args ++ stale).take n :=
    ⟨_, bytesOf_overlay_take ..⟩
  obtain ⟨stale, hframe⟩ := hframe
  have hsent : Proper w₁.bus (bytesOf w₁.writeBuffer n) := by
    rw [hframe]
    exact hproper _ _ hw
  refine wp_mono (command_conforms hsent) (fun status w₂ h₂ => ⟨h₂.1, fun hok => ?_⟩) fun _ _ h => h
  rw [(h₂.2 hok).1, hframe]
  obtain ⟨n, rfl⟩ := Nat.exists_eq_succ_of_ne_zero hn.ne'
  exact hQ _ _ hw

/-! ## The functions that send a frame -/

/-- The status read may be sent at any time. -/
theorem spiFlashGetStatus_conforms :
    Conforms (Knows idle enabled fourByte) (spiFlashGetStatus (σ := Nor p) env)
      (Knows idle enabled fourByte) :=
  send_conforms (fun d _ _ => proper_statusRead d _) (fun _ _ h => (h.obey_statusRead _).tick)
    (by decide)

/-- The ready bit of the status register. -/
theorem wip_of_statusByte {d : Nor p} (h : d.statusByte &&& flashSrIsReadyMask = 0) : d.wip = 0 := by
  by_contra hwip
  rw [Nor.statusByte, if_neg hwip] at h
  cases hwel : d.wel <;> rw [hwel] at h <;> exact absurd h (by decide)

/-- What a successful status read delivers.  The busy time goes down by one, as the device
takes its time in status reads. -/
theorem spiFlashGetStatus_success {w' : World (Nor p)}
    (h : spiFlashGetStatus env w = (.ret .success, w')) :
    w'.bus = ({ w.bus with wip := w.bus.wip - 1 } : Nor p).tick ∧
      w'.readBuffer 1 = w.bus.statusByte := by
  obtain ⟨_, _, hfill, h⟩ := bind_eq_ret.mp h
  rw [fillWriteBuffer_eq (by decide)] at hfill
  cases hfill
  have frame : bytesOf (overlay w.writeBuffer 0 [commandStatusregRead]) statusReadBytes =
      [commandStatusregRead, w.writeBuffer 1] := bytesOf_overlay_zero _ [commandStatusregRead] 1
  set w₁ : World (Nor p) := { w with writeBuffer := overlay w.writeBuffer 0 [commandStatusregRead] }
  have hproper : Proper w₁.bus (bytesOf w₁.writeBuffer statusReadBytes) := by
    rw [frame]
    exact proper_statusRead _ _
  obtain ⟨-, hsuccess⟩ := (wp_of_ret h).mp (command_conforms hproper)
  obtain ⟨hbus, hbuffer⟩ := hsuccess rfl
  rw [frame] at hbus hbuffer
  refine ⟨?_, ?_⟩
  · rw [hbus, Nor.execute, Nor.obey_statusRead]
  · rw [hbuffer]
    rfl

/-- A round of the polling loop, and what its end says.  It goes on without having learnt
anything, or stops with a flash that is ready. -/
theorem waitRound_conforms (h : Knows false enabled fourByte w.bus) :
    wp (waitRound env)
      (fun r w' => Emits proper w w' ∧ (r = .inl () → Knows false enabled fourByte w'.bus) ∧
        (r = .inr .success → Knows true enabled fourByte w'.bus))
      (fun _ w' => Emits proper w w') w := by
  have hread : wp (spiFlashGetStatus env)
      (fun status w' => Emits proper w w' ∧
        (status = .success → Knows false enabled fourByte w'.bus))
      (fun _ w' => Emits proper w w') w := spiFlashGetStatus_conforms w h
  rcases hrun : spiFlashGetStatus env w with ⟨status | why, w₁⟩
  · refine wp_bind.mpr ((wp_of_ret hrun).mpr ?_)
    obtain ⟨emits, hknows⟩ := (wp_of_ret hrun).mp hread
    by_cases hs : status = .success
    · subst hs
      obtain ⟨hbus, hbyte⟩ := spiFlashGetStatus_success hrun
      rw [if_pos rfl, wp_bind, wp_gets, hbyte]
      refine wp_ite.mpr ⟨fun hready => ⟨emits, fun h => (nomatch h), fun _ => ?_⟩,
        fun _ => ⟨emits, fun _ => hknows rfl, fun h => (nomatch h)⟩⟩
      have hwip := wip_of_statusByte hready
      exact ⟨fun _ => by rw [hbus]; simp [hwip], (hknows rfl).wel, (hknows rfl).mode⟩
    · rw [if_neg hs]
      exact ⟨emits, fun h => (nomatch h), fun h => (nomatch h)⟩
  · exact wp_bind.mpr ((wp_of_stop hrun).mpr ((wp_of_stop hrun).mp hread))

/-- **Polling.**  A successful wait leaves the flash idle and touches nothing else.  The
invariant of the loop knows nothing of whether the flash is busy; the last round finds that it
is not. -/
theorem spiFlashWaitForFlashReady_conforms :
    Conforms (Knows idle enabled fourByte) (spiFlashWaitForFlashReady (σ := Nor p) env)
      (Knows true enabled fourByte) := by
  intro w h
  refine wp_loop (fun _ _ w' => Emits proper w w' ∧ Knows false enabled fourByte w'.bus)
    (fun n _ w₁ inv => ?_) (fun _ _ inv => inv.1) _ _ w ⟨refl_of _ w, h.forget_idle⟩
  refine wp_mono (waitRound_conforms inv.2) (fun r w₂ h₂ => ?_) fun _ _ h => trans_of _ inv.1 h
  have emits := trans_of _ inv.1 h₂.1
  cases r with
  | inl => exact ⟨emits, h₂.2.1 rfl⟩
  | inr status => exact ⟨emits, fun hok => h₂.2.2 (congrArg Sum.inr hok)⟩

/-- A housekeeping command that the flash answers when it is idle. -/
theorem sendIdle_conforms {Q : Nor p → Prop} {cmd : UInt8} {args : List UInt8} {recv : Bool} {n : ℕ}
    (hcmd : cmd ∉ writeOps) (hn : 0 < n)
    (hQ : ∀ (d : Nor p) rest, Knows true enabled fourByte d → Q (d.obey cmd rest).tick) :
    Conforms (Knows true enabled fourByte) (fillWriteBuffer 0 (cmd :: args) >>= fun _ =>
      command (σ := Nor p) env recv n (pure .success)) Q := by
  refine send_conforms (fun d stale h => h.proper_of_idle ?_) hQ hn
  obtain ⟨n, rfl⟩ := Nat.exists_eq_succ_of_ne_zero hn.ne'
  rintro _ ⟨⟩
  exact hcmd

/-- Behind a write enable the flash is idle, and its latch is set. -/
theorem spiFlashWriteEnable_conforms :
    Conforms (Knows idle enabled fourByte) (spiFlashWriteEnable (σ := Nor p) env)
      (Knows true true fourByte) :=
  spiFlashWaitForFlashReady_conforms.check <|
    sendIdle_conforms (by simp [writeOps]; decide) (by decide) fun _ _ h => (h.obey_writeEnable _).tick

/-- A one-byte command behind a write enable. -/
theorem enabledCommand_conforms {Q : Nor p → Prop} {cmd : UInt8} (hcmd : cmd ∉ writeOps)
    (hQ : ∀ (d : Nor p) rest, Knows true true fourByte d → Q (d.obey cmd rest).tick) :
    Conforms (Knows idle enabled fourByte) (enabledCommand (σ := Nor p) env cmd) Q :=
  spiFlashWriteEnable_conforms.check <| spiFlashWaitForFlashReady_conforms.check <|
    sendIdle_conforms hcmd (by decide) hQ

/-- Behind the mode command, the mode is known. -/
theorem spiFlash4bytemodeEnable_conforms :
    Conforms (Knows idle enabled fourByte) (spiFlash4bytemodeEnable (σ := Nor p) env)
      (Knows true false true) :=
  enabledCommand_conforms (by simp [writeOps]; decide) fun _ _ h => (h.obey_enter4byte _).tick

theorem spiFlash4byteexit_conforms :
    Conforms (Knows idle enabled fourByte) (spiFlash4byteexit (σ := Nor p) env)
      (Knows true false false) :=
  enabledCommand_conforms (by simp [writeOps]; decide) fun _ _ h => (h.obey_exit4byte _).tick

/-- The exit command is obeyed, whatever mode the flash was in. -/
theorem spiFlash4byteexit_mode :
    Conforms (Knows false false false) (spiFlash4byteexit env) fun d : Nor p => d.fourByte = false :=
  enabledCommand_conforms (by simp [writeOps]; decide) fun d rest h => by
    rw [Nor.obey_mode (.inr rfl) (h.wip rfl) (h.wel rfl)]
    rfl

/-- A register read behind a write enable. -/
theorem enabledRegisterRead_conforms {cmd : UInt8}
    (hcmd : cmd = commandReadExtendedAddress ∨ cmd = commandReadFlagStatus) :
    Conforms (Knows idle enabled fourByte) (enabledRegisterRead (σ := Nor p) env cmd)
      (Knows true true fourByte) := by
  have hother : cmd ∉ writeOps := by rcases hcmd with rfl | rfl <;> simp [writeOps] <;> decide
  refine spiFlashWriteEnable_conforms.check <| spiFlashWaitForFlashReady_conforms.check <|
    sendIdle_conforms hother (by decide) fun _ _ h => (h.obey_other ?_ _).tick
  rcases hcmd with rfl | rfl <;> simp

theorem spiFlashClrflagstatus_conforms :
    Conforms (Knows idle enabled fourByte) (spiFlashClrflagstatus (σ := Nor p) env)
      (Knows true enabled fourByte) :=
  spiFlashWaitForFlashReady_conforms.check <|
    sendIdle_conforms (by simp [writeOps]; decide) (by decide) fun _ _ h => (h.obey_other (by simp) _).tick

/-- Whatever the two reads and the clear return. -/
theorem getStatus_moves : Moves (Emits proper) (getStatus (σ := Nor p) env) :=
  spiFlashGetStatus_conforms.moves.bind fun _ =>
    (enabledRegisterRead_conforms (.inr rfl)).moves.bind fun _ =>
    spiFlashClrflagstatus_conforms.moves.bind fun _ => moves_pure _

/-- A frame of any kind, sent with everything known. -/
theorem sendKnown_conforms {bs : List UInt8} {recv : Bool} {n : ℕ} {inner : Prog (World (Nor p)) Xst}
    (hinner : Moves (Emits proper) inner) :
    Conforms (Knows true true true) (fillWriteBuffer 0 bs >>= fun _ => command env recv n inner)
      (Knows false false false) := by
  intro w h
  refine wp_bind.mpr (wp_fillWriteBuffer (fun _ => ?_) fun _ => .of_eq rfl)
  refine wp_mono (command_proper (Knows.proper h _) hinner) (fun _ w₁ h₁ => ?_) fun _ _ h => h
  exact ⟨h₁, fun _ => knows_nothing _⟩

/-- The mode, the latch and the wait in front of a frame. -/
theorem enabled4byte_conforms {k : Prog (World (Nor p)) Xst} {Q : Nor p → Prop}
    (hk : Conforms (Knows true true true) k Q) :
    Conforms (Knows idle enabled fourByte)
      (check (spiFlash4bytemodeEnable env) <| check (spiFlashWriteEnable env) <|
        check (spiFlashWaitForFlashReady env) k) Q :=
  spiFlash4bytemodeEnable_conforms.check <| spiFlashWriteEnable_conforms.check <|
    spiFlashWaitForFlashReady_conforms.check hk

/-- A read enters the mode, and leaves it. -/
theorem spiFlashRead_conforms {addr byteCount : UInt32} {readCmd : UInt8} :
    Conforms (Knows idle enabled fourByte) (spiFlashRead (σ := Nor p) env addr byteCount readCmd)
      (Knows true false false) := by
  rw [spiFlashRead_eq]
  exact enabled4byte_conforms ((sendKnown_conforms (moves_pure _)).check spiFlash4byteexit_conforms)

/-- A page program finds everything known at its frame. -/
theorem spiFlashWriteFile_conforms {addr byteCount : UInt32} {writeCmd : UInt8}
    {pageBuffer : ℕ → UInt8} :
    Conforms (Knows idle enabled fourByte)
      (spiFlashWriteFile (σ := Nor p) env addr byteCount writeCmd pageBuffer)
      (Knows true false false) := by
  rw [spiFlashWriteFile_eq]
  refine enabled4byte_conforms (Conforms.check (Q := Knows false false false) (fun w h => ?_)
    spiFlash4byteexit_conforms)
  refine wp_bind.mpr (wp_fillWriteBuffer (fun _ => wp_bind.mpr (wp_fillWriteBuffer (fun _ => ?_)
    fun _ => .of_eq rfl)) fun _ => .of_eq rfl)
  refine wp_mono (command_proper (Knows.proper h _) (moves_pure _)) (fun _ w₁ h₁ => ?_)
    fun _ _ h => h
  exact ⟨h₁, fun _ => knows_nothing _⟩

/-- The erase frame and the status reads behind it, in 4-byte address mode. -/
theorem eraseCommand_conforms {cmd : UInt8} {addr : UInt32} :
    Conforms (Knows idle enabled true) (eraseCommand (σ := Nor p) env cmd addr)
      (Knows false false false) :=
  spiFlashWriteEnable_conforms.check <| spiFlashWaitForFlashReady_conforms.check <|
    sendKnown_conforms getStatus_moves

/-- A sector erase stays in the mode that its frame needs. -/
theorem spiFlashSectorErase_conforms {addr : UInt32} :
    Conforms (Knows idle enabled fourByte) (spiFlashSectorErase (σ := Nor p) env addr)
      (Knows false false false) :=
  spiFlash4bytemodeEnable_conforms.check eraseCommand_conforms

/-- The die erase has a register read in front of its frame, which takes nothing away. -/
theorem spiFlashDieErase_conforms {uscDieNr : UInt32} :
    Conforms (Knows idle enabled fourByte) (spiFlashDieErase (σ := Nor p) env uscDieNr)
      (Knows false false false) :=
  spiFlash4bytemodeEnable_conforms.check <|
    (enabledRegisterRead_conforms (.inl rfl)).check eraseCommand_conforms

/-- A frame that the address mode makes no difference to, behind a write enable. -/
theorem sendEnabled_conforms {cmd : UInt8} {args : List UInt8} {recv : Bool} {n : ℕ}
    (hcmd : cmd ≠ commandSectorErase ∧ cmd ≠ commandDieErase) (hn : 0 < n) :
    Conforms (Knows true true fourByte) (fillWriteBuffer 0 (cmd :: args) >>= fun _ =>
      command (σ := Nor p) env recv n (pure .success)) (Knows false false false) := by
  refine send_conforms (fun d stale h => h.proper_of_enabled ?_) (fun _ _ _ => knows_nothing _) hn
  obtain ⟨n, rfl⟩ := Nat.exists_eq_succ_of_ne_zero hn.ne'
  rintro _ ⟨⟩
  exact hcmd

/-- The bulk erase keeps to the rules behind a write enable only. -/
theorem spiFlashBulkErase_conforms :
    Conforms (Knows idle true fourByte) (spiFlashBulkErase (σ := Nor p) env)
      (Knows false false false) :=
  spiFlashWaitForFlashReady_conforms.check (sendEnabled_conforms (by decide) (by decide))

/-- The quad enable writes the status register, behind a write enable of its own.  The command
uses the latch up, so behind it a writing command would not be proper. -/
theorem spiFlashQuadEnable_conforms :
    Conforms (Knows idle enabled fourByte) (spiFlashQuadEnable (σ := Nor p) env)
      (Knows true false false) := by
  have quad : Conforms (Knows true false false) (fillWriteBuffer 0 [commandEnterQuadMode] >>= fun _ =>
      command (σ := Nor p) env true statusReadBytes (pure .success)) (Knows true false false) :=
    sendIdle_conforms (by simp [writeOps]; decide) (by decide) fun _ _ h => (h.obey_other (by simp) _).tick
  have write : Conforms (Knows true true fourByte)
      (fillWriteBuffer 0 [commandWriteStatusRegister, 0x01, 0x01] >>= fun _ =>
        command (σ := Nor p) env false 3 (pure .success)) (Knows false false false) :=
    sendEnabled_conforms (by decide) (by decide)
  simp only [spiFlashQuadEnable, bind_check]
  exact spiFlashWriteEnable_conforms.check <| spiFlashWaitForFlashReady_conforms.check <|
    write.check <| spiFlashWaitForFlashReady_conforms.check quad

theorem spiFlashReadID_conforms :
    Conforms (Knows idle enabled fourByte) (spiFlashReadID (σ := Nor p) env)
      (Knows true enabled fourByte) :=
  spiFlashWaitForFlashReady_conforms.check <|
    sendIdle_conforms (by simp [writeOps]; decide) (by decide) fun _ _ h => (h.obey_other (by simp) _).tick

end Commands

end Kiflash
