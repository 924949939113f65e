import Kiflash.Imperative.Journal
import Kiflash.Operations

/-!
# Functions that check every status

Nearly every function of the flash code returns a failure as soon as one of its calls does.
`Heedful` says so of the transfers: the first one that fails is the last one that matters, as
nothing is erased or programmed behind it and the function fails.

* `Event.Failed`, `Event.ChangesFlash`, `transferJournal` — which entries of the record are
  failures, and which would do harm behind one.
* `Heedful` — the idiom, and its rules for the parts of a program.
* one `Heedful` theorem for each function that follows it.
* `Blames` — the way back, from the failure of a function to one of its transfers.

### The rules do the work

The functions are sequences of checked steps, and the rules of `Kiflash.Imperative.Journal`
follow them: a checked step, a loop of checked steps, a part without transfers.  The proof for
a function is therefore its text once more, with the rule for each line, and a function that
dropped a status would get stuck at that line.  The two that do so, `GetStatus` and
`DownloadSerialDataToQSPIFlash`, are not in this module.

### Excuses

The predicate `excused` is the set of the states behind which a failure is allowed to be
dropped.  For the functions of this module it is arbitrary, so that they heed their failures
with no excuse at all.  It has a use where one of the two other functions is called on the
way.
-/

open Imperative Imperative.Prog

namespace Kiflash

/-! ## Failures and writes -/

section Definitions

variable {σ : Type}

/-- A call of `XSpi_Transfer` that returned another status than `XST_SUCCESS`.  A transfer
that is still being polled when the run ends has none. -/
def Event.Failed : Event σ → Prop
  | .transfer _ _ (some status) => status ≠ .success
  | _ => False

instance : DecidablePred (Event.Failed (σ := σ))
  | .transfer _ _ (some status) => inferInstanceAs (Decidable (status ≠ .success))
  | .transfer _ _ none => .isFalse id
  | .percentage _ => .isFalse id
  | .pciWrite _ _ _ => .isFalse id
  | .verifyPassed => .isFalse id
  | .label _ => .isFalse id
  | .data _ => .isFalse id

/-- The commands that change what the flash holds.  The write of the status register is not
one of them. -/
def writingCommands : List UInt8 :=
  [commandSectorErase, commandDieErase, commandBulkErase, command4bytePageProgram]

/-- A call of `XSpi_Transfer` with an erase or a page program.  It counts whatever its status:
a transfer that fails may have reached the flash. -/
def Event.ChangesFlash : Event σ → Prop
  | .transfer _ frame _ => ∃ op ∈ frame.head?, op ∈ writingCommands
  | _ => False

instance : DecidablePred (Event.ChangesFlash (σ := σ))
  | .transfer _ frame _ => inferInstanceAs (Decidable (∃ op ∈ frame.head?, op ∈ writingCommands))
  | .percentage _ => .isFalse id
  | .pciWrite _ _ _ => .isFalse id
  | .verifyPassed => .isFalse id
  | .label _ => .isFalse id
  | .data _ => .isFalse id

/-- The record of the transfers: which of them have failed, and which do harm behind a
failure. -/
def transferJournal : Journal (World σ) (Event σ) where
  entries := World.events
  failed := {e | e.Failed}
  harmful := {e | e.ChangesFlash}

end Definitions

/-! ## The idiom -/

/-- The program heeds its failures wherever it is run from.  The rules of the library build
this along the structure of a function. -/
def Heedful {σ : Type} (excused : World σ → Prop) (m : Prog (World σ) Xst) : Prop :=
  ∀ w, transferJournal.HeedsFrom excused m w

section Heedful

variable {σ : Type} {env : Env} {excused : World σ → Prop}

/-- What is no transfer does not fail. -/
theorem Emits.harmless {w w' : World σ} (h : Emits unsent w w') :
    transferJournal.Appends transferJournal.harmless w w' := by
  obtain ⟨es, hes, hunsent⟩ := h
  refine ⟨es, hes, fun e he => ?_⟩
  obtain ⟨_, rfl⟩ | rfl | ⟨_, rfl⟩ | ⟨_, rfl⟩ := hunsent e he
  all_goals exact ⟨id, id⟩

namespace Heedful

/-- A status that is returned at once. -/
theorem pure (status : Xst) : Heedful excused (Pure.pure status) := fun _ => .pure status

/-- A silent step in front of a program. -/
theorem bind {α : Type} {m : Prog (World σ) α} {f : α → Prog (World σ) Xst}
    (hm : Moves (Emits unsent) m) (hf : ∀ a, Heedful excused (f a)) : Heedful excused (m >>= f) :=
  fun w => .bind (hm w).harmless fun a w₁ _ => hf a w₁

/-- A checked step: its failure is returned before the rest begins. -/
theorem check {m k : Prog (World σ) Xst} (hm : Heedful excused m) (hk : Heedful excused k) :
    Heedful excused (check m k) := fun w => (hm w).check fun w₁ _ => hk w₁

/-- A choice between two programs. -/
theorem ite {c : Prop} [Decidable c] {m k : Prog (World σ) Xst} (hm : Heedful excused m)
    (hk : Heedful excused k) : Heedful excused (if c then m else k) := fun w => (hm w).ite (hk w)

/-- A loop of checked steps. -/
theorem checkLoop {ι : Type} {body : ι → Prog (World σ) Xst} {next : ι → ι}
    (h : ∀ i, Heedful excused (body i)) (n : ℕ) (i : ι) : Heedful excused (checkLoop body next n i) :=
  fun _ => .checkLoop fun v _ => h v.1 v.2

/-- A part that records no transfer. -/
theorem silent {m : Prog (World σ) Xst} (hm : Moves (Emits unsent) m) : Heedful excused m :=
  fun w => .of_appends (hm w).harmless

end Heedful

/-- Building a frame sends nothing. -/
theorem fillWriteBuffer_unsent (i : ℕ) (bs : List UInt8) :
    Moves (Emits unsent) (fillWriteBuffer (σ := σ) i bs) := fun _ =>
  wp_state_iff.mp (wp_fillWriteBuffer (fun _ => .of_eq rfl) fun _ => .of_eq rfl)

/-- A store that is not recorded. -/
theorem modify_unsent {f : World σ → World σ} (h : ∀ w, (f w).events = w.events) :
    Moves (Emits unsent) (Prog.modify f) := moves_modify fun w => .of_eq (h w)

theorem setPercentage_unsent (value : UInt32) :
    Moves (Emits unsent) (setPercentage (σ := σ) env value) :=
  Moves.ite (moves_modify fun _ => .of_mem rfl (.inl ⟨value, rfl⟩)) (moves_pure _)

theorem mark_unsent (call : ProgramCall) (value : UInt32) :
    Moves (Emits unsent) (call.mark (σ := σ) env value) := by
  cases call with
  | user => exact setPercentage_unsent value
  | golden | timer => exact moves_pure _

theorem reportProgress_unsent (base : ℚ) (totalPage : UInt32) (it : PageLoop) :
    Moves (Emits unsent) (reportProgress (σ := σ) env base totalPage it) :=
  (setPercentage_unsent _).ite (moves_pure _)

theorem readPage_unsent (file : File) (startAddr : UInt32) :
    Moves (Emits unsent) (readPage (σ := σ) env file startAddr) :=
  Moves.bind (fun _ => .of_eq rfl) fun _ => moves_pure _

theorem callDriver_unsent (call : σ → Xst × σ) : Moves (Emits unsent) (callDriver call) :=
  fun _ => .of_eq rfl

/-- What the command functions do with the status of their transfer and of `inner`. -/
theorem commandEnd_unsent (status : Xst) : Moves (Emits unsent) (do
      setTransferInProgress (σ := σ) false
      if status = .success then do
        awaitTransfer
        errorCheck
      else Pure.pure .failure) := by
  refine Moves.bind (modify_unsent fun _ => rfl) fun _ => Moves.ite ?_ (moves_pure _)
  refine Moves.bind ((moves_gets _).bind fun _ => (moves_halt _).ite (moves_pure _)) fun _ => ?_
  unfold errorCheck
  refine (moves_gets _).bind fun n => Moves.ite (moves_pure _) ?_
  exact Moves.bind (modify_unsent fun _ => rfl) fun _ => moves_pure _

variable [XSpiDriver σ]

/-- One transfer is the last one when it fails.  It makes one entry, and its status is that of
the entry, so there is nothing behind a failure. -/
theorem xspiTransfer_heedful (recv : Bool) (n : ℕ) :
    Heedful excused (xspiTransfer (σ := σ) env recv n) := by
  intro w
  have single : ∀ {e e' : Event σ} {pre post}, [e] = pre ++ e' :: post → e' = e ∧ post = [] := by
    intro e e' pre post h
    cases pre with
    | nil => exact ⟨(List.cons.inj h).1.symm, (List.cons.inj h).2.symm⟩
    | cons _ pre => exact absurd (List.cons.inj h).2 (by simp)
  have hwp : wp (xspiTransfer (σ := σ) env recv n)
      (fun status w' => transferJournal.Heeds excused w (.ret status) w')
      (fun why w' => transferJournal.Heeds excused w (.stop why : Outcome Xst) w') w := by
    refine wp_xspiTransfer (fun _ => .of_appends (Emits.of_eq rfl).harmless) (fun bus hx => ?_)
      (fun status stored bus hx _ => ?_) (fun status stored bus hx _ => ?_)
    · refine ⟨_, rfl, fun pre e post hsplit hfailed => ?_⟩
      obtain ⟨rfl, rfl⟩ := single hsplit
      exact hfailed.elim
    · refine ⟨_, rfl, fun pre e post hsplit hfailed => .inl ⟨.inr rfl, ?_⟩⟩
      obtain ⟨rfl, rfl⟩ := single hsplit
      simp
    · refine ⟨_, rfl, fun pre e post hsplit hfailed => .inl ?_⟩
      obtain ⟨rfl, rfl⟩ := single hsplit
      exact ⟨givesUp_of_ne hfailed, by simp⟩
  rcases hrun : xspiTransfer env recv n w with ⟨status | why, w'⟩
  · rw [Journal.HeedsFrom, hrun]
    exact (wp_of_ret hrun).mp hwp
  · rw [Journal.HeedsFrom, hrun]
    exact (wp_of_stop hrun).mp hwp

/-- A command: its transfer is the last thing that it does on the bus. -/
theorem command_heedful (recv : Bool) (n : ℕ) :
    Heedful excused (command (σ := σ) env recv n (Pure.pure .success)) :=
  .bind (modify_unsent fun _ => rfl) fun _ => .check (xspiTransfer_heedful recv n) <|
    .bind (moves_pure _) fun status => .silent (commandEnd_unsent status)

/-- A frame that is built and sent. -/
theorem send_heedful (i : ℕ) (bs : List UInt8) (recv : Bool) (n : ℕ) :
    Heedful excused (fillWriteBuffer i bs >>= fun _ =>
      command (σ := σ) env recv n (Pure.pure .success)) :=
  .bind (fillWriteBuffer_unsent i bs) fun _ => command_heedful recv n

/-- One more round of the wait loop: a checked status read, and then the decision. -/
theorem waitLoop_succ (n : ℕ) :
    loop (fun _ : Unit => waitRound (σ := σ) env) (n + 1) () =
      Prog.check (spiFlashGetStatus env) (gets (fun w => w.readBuffer 1) >>= fun statusReg =>
        if statusReg &&& flashSrIsReadyMask = 0 then Pure.pure .success
        else loop (fun _ : Unit => waitRound env) n ()) := by
  rw [loop, waitRound, bind_bind]
  refine congrArg _ (funext fun status => ?_)
  by_cases hs : status = .success
  · rw [if_pos hs, if_pos (show status = StatusCode.ok from hs), bind_bind]
    refine congrArg (gets _ >>= ·) (funext fun statusReg => ?_)
    split_ifs <;> rfl
  · rw [if_neg hs, if_neg (show ¬ status = StatusCode.ok from hs)]
    rfl

/-- The polling loop.  Each round is a checked read, and the induction is on the rounds. -/
theorem spiFlashWaitForFlashReady_heedful :
    Heedful excused (spiFlashWaitForFlashReady (σ := σ) env) := by
  unfold spiFlashWaitForFlashReady
  generalize env.rounds = n
  induction n with
  | zero => exact .silent (moves_halt _)
  | succ n ih =>
      rw [waitLoop_succ]
      exact .check (send_heedful _ _ _ _) (.bind (moves_gets _) fun _ => (Heedful.pure _).ite ih)

theorem spiFlashWriteEnable_heedful : Heedful excused (spiFlashWriteEnable (σ := σ) env) :=
  .check spiFlashWaitForFlashReady_heedful (send_heedful _ _ _ _)

theorem enabledCommand_heedful (cmd : UInt8) : Heedful excused (enabledCommand (σ := σ) env cmd) :=
  .check spiFlashWriteEnable_heedful (.check spiFlashWaitForFlashReady_heedful (send_heedful _ _ _ _))

theorem enabledRegisterRead_heedful (cmd : UInt8) :
    Heedful excused (enabledRegisterRead (σ := σ) env cmd) :=
  .check spiFlashWriteEnable_heedful (.check spiFlashWaitForFlashReady_heedful (send_heedful _ _ _ _))

/-- The quad enable checks all of its steps. -/
theorem spiFlashQuadEnable_heedful : Heedful excused (spiFlashQuadEnable (σ := σ) env) := by
  simp only [spiFlashQuadEnable, bind_check]
  exact .check spiFlashWriteEnable_heedful <| .check spiFlashWaitForFlashReady_heedful <|
    .check (send_heedful _ _ _ _) <| .check spiFlashWaitForFlashReady_heedful (send_heedful _ _ _ _)

/-- A page program checks the mode commands around it as well. -/
theorem spiFlashWriteFile_heedful (addr byteCount : UInt32) (writeCmd : UInt8)
    (pageBuffer : ℕ → UInt8) :
    Heedful excused (spiFlashWriteFile (σ := σ) env addr byteCount writeCmd pageBuffer) := by
  rw [spiFlashWriteFile_eq]
  exact .check (enabledCommand_heedful _) <| .check spiFlashWriteEnable_heedful <|
    .check spiFlashWaitForFlashReady_heedful <| .check (.bind (fillWriteBuffer_unsent _ _) fun _ =>
      send_heedful _ _ _ _) (enabledCommand_heedful _)

theorem spiFlashRead_heedful (addr byteCount : UInt32) (readCmd : UInt8) :
    Heedful excused (spiFlashRead (σ := σ) env addr byteCount readCmd) := by
  rw [spiFlashRead_eq]
  exact .check (enabledCommand_heedful _) <| .check spiFlashWriteEnable_heedful <|
    .check spiFlashWaitForFlashReady_heedful <| .check (send_heedful _ _ _ _) (enabledCommand_heedful _)

/-- The startup: its driver calls are no transfers, and its only transfers are those of the
write enable. -/
theorem ensureInit_heedful : Heedful excused (ensureInit (σ := σ) env) := by
  refine .bind (moves_gets _) fun _ => (Heedful.pure _).ite (.check ?_ ?_)
  · rw [systemInitStartup]
    split
    · exact .pure _
    · exact .bind (modify_unsent fun _ => rfl) fun _ => .check (.silent (callDriver_unsent _)) <|
        .check (.silent (callDriver_unsent _)) <| .check (.silent (callDriver_unsent _)) <|
        .bind (callDriver_unsent _) fun _ => .check spiFlashWriteEnable_heedful (.pure _)
  · exact .bind (modify_unsent fun _ => rfl) fun _ => .pure _

theorem programPage_heedful (baseStartAddr : UInt32) (file : File) (startAddr : UInt32) :
    Heedful excused (programPage (σ := σ) env baseStartAddr file startAddr) :=
  .bind (readPage_unsent _ _) fun _ => .check spiFlashWriteEnable_heedful
    (spiFlashWriteFile_heedful _ _ _ _)

theorem verifyPage_heedful (baseStartAddr : UInt32) (file : File) (startAddr : UInt32) :
    Heedful excused (verifyPage (σ := σ) env baseStartAddr file startAddr) :=
  .bind (readPage_unsent _ _) fun _ => .check spiFlashWriteEnable_heedful <|
    .bind (modify_unsent fun _ => rfl) fun _ => .check (spiFlashRead_heedful _ _ _) <|
    .bind (moves_gets _) fun _ => (Heedful.pure _).ite (.pure _)

/-- An image function heeds its failures if its pages do. -/
theorem imageFile_heedful {filename : String} {report : UInt32 → PageLoop → Prog (World σ) Unit}
    {page : File → UInt32 → Prog (World σ) Xst} {finish : Prog (World σ) Unit}
    (hreport : ∀ totalPage it, Moves (Emits unsent) (report totalPage it))
    (hpage : ∀ file startAddr, Heedful excused (page file startAddr))
    (hfinish : Moves (Emits unsent) finish) :
    Heedful excused (imageFile env filename report page finish) := by
  refine .bind (fun _ => .of_eq rfl) fun fp => ?_
  cases fp with
  | none => exact .pure _
  | some file =>
      exact .check ensureInit_heedful <| .check (.silent (callDriver_unsent _)) <|
        .bind (callDriver_unsent _) fun _ => .check spiFlashWriteEnable_heedful <|
        .check (.checkLoop (fun _ => .bind (hreport _ _) fun _ => hpage _ _) _ _) <|
        .bind hfinish fun _ => .bind (modify_unsent fun _ => rfl) fun _ => .pure _

theorem qspiProgramBin_heedful : Heedful excused (qspiProgramBin (σ := σ) env) :=
  .bind (moves_gets _) fun _ => imageFile_heedful (reportProgress_unsent _)
    (programPage_heedful _) (moves_pure _)

theorem qspiVerifyBin_heedful : Heedful excused (qspiVerifyBin (σ := σ) env) :=
  .bind (moves_gets _) fun _ => imageFile_heedful (reportProgress_unsent _)
    (verifyPage_heedful _) (moves_modify fun _ => .of_mem rfl (.inr (.inl rfl)))

end Heedful

/-! ## The way back

A command function that returns `XST_FAILURE` has had a failing transfer, as long as `ErrorCount`
is zero: nothing in polled mode raises it, but `errorCheck` would report an old error.  The
functions that drop a status are not here. -/

section Blames

variable {σ : Type} [XSpiDriver σ] {env : Env}

/-- There is no old error to report.  In the polled mode nothing counts one. -/
def ErrorFree (w : World σ) : Prop := w.errorCount = 0

/-- Every failure of the function is one of its transfers.  This is the converse of heeding
them. -/
abbrev Blames (m : Prog (World σ) Xst) : Prop := transferJournal.Blames ErrorFree m

/-- A command fails with its transfer: there is no old error, and its own is counted by
nobody. -/
theorem command_blames (recv : Bool) (n : ℕ) :
    Blames (command (σ := σ) env recv n (pure .success)) := by
  intro w hw
  refine (wp_command env).mpr (wp_xspiTransfer (fun _ => trivial) (fun _ _ => trivial)
    (fun _ _ _ _ _ => trivial) fun status stored bus _ _ => ⟨fun hok => ?_, fun hne => ?_⟩)
  · refine wp_pure.mpr ⟨fun _ _ => ⟨hw, [.transfer _ _ _], rfl, fun hno => absurd rfl hno⟩,
      fun _ herror => absurd hw herror, fun hno => absurd rfl hno⟩
  · exact ⟨hw, [.transfer _ _ _], rfl, fun _ => ⟨_, List.mem_singleton_self _, hne⟩⟩

theorem send_blames (i : ℕ) (bs : List UInt8) (recv : Bool) (n : ℕ) :
    Blames (fillWriteBuffer i bs >>= fun _ => command (σ := σ) env recv n (pure .success)) := by
  refine .bind (fun w hw => ?_) fun _ => command_blames recv n
  exact wp_fillWriteBuffer (fun _ => ⟨hw, [], by simp [transferJournal], by simp⟩) fun _ => trivial

/-- The wait fails with one of its reads.  A flash that stays busy makes it spin and not fail.
The induction is on the rounds that are followed. -/
theorem spiFlashWaitForFlashReady_blames : Blames (spiFlashWaitForFlashReady (σ := σ) env) := by
  unfold spiFlashWaitForFlashReady
  generalize env.rounds = n
  induction n with
  | zero => exact fun _ _ => trivial
  | succ n ih =>
      rw [waitLoop_succ]
      refine .check (send_blames _ _ _ _) (.bind (fun w hw => ?_) fun statusReg => ?_)
      · exact wp_gets.mpr ⟨hw, [], by simp, by simp⟩
      · split
        · exact .pure_ok
        · exact ih

theorem spiFlashWriteEnable_blames : Blames (spiFlashWriteEnable (σ := σ) env) :=
  .check spiFlashWaitForFlashReady_blames (send_blames _ _ _ _)

theorem enabledCommand_blames (cmd : UInt8) : Blames (enabledCommand (σ := σ) env cmd) :=
  .check spiFlashWriteEnable_blames <| .check spiFlashWaitForFlashReady_blames (send_blames _ _ _ _)

theorem enabledRegisterRead_blames (cmd : UInt8) :
    Blames (enabledRegisterRead (σ := σ) env cmd) :=
  .check spiFlashWriteEnable_blames <| .check spiFlashWaitForFlashReady_blames (send_blames _ _ _ _)

theorem spiFlashClrflagstatus_blames : Blames (spiFlashClrflagstatus (σ := σ) env) :=
  .check spiFlashWaitForFlashReady_blames (send_blames _ _ _ _)

theorem spiFlashQuadEnable_blames : Blames (spiFlashQuadEnable (σ := σ) env) := by
  simp only [spiFlashQuadEnable, bind_check]
  exact .check spiFlashWriteEnable_blames <| .check spiFlashWaitForFlashReady_blames <|
    .check (send_blames _ _ _ _) <| .check spiFlashWaitForFlashReady_blames (send_blames _ _ _ _)

end Blames

end Kiflash
