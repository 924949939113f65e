import Kiflash.Refusals

/-!
# Where a status is dropped

Of the functions that erase and program, all but two check the status of every transfer.
`DownloadSerialDataToQSPIFlash` drops what `qspi_program_flash` returns.  `GetStatus`, which follows
the command of every erase, returns the status of its status register read, and drops those of the
flag status read and of the clear that it makes behind it.

* `FailsIn` — a step makes a transfer that fails.
* `WritingCall.statusCalls` — the states in which a call comes to `GetStatus`, each with what the
  call does next.
* `StatusKept` — of one call of `GetStatus`: which of its transfers may fail, and when.
* `statusKept_iff` — the same by what `GetStatus` returns.

### Where the condition looks

`StatusKept` is about transfers that fail, step by step, and not about what the call returns.  The
states of `statusCalls` are reached by the steps in front of the dropped statuses.  A call for which
the list is empty has no condition to meet, and neither has one whose flag status reads and clears
go well: nothing is asked of its other transfers.

A dropped failure does not show where the call comes to fail at one of its next steps, before
anything else is erased or programmed.  `Following` says which steps these are: the part of the next
function up to its next erase or page program, as `Openings` has it.

Two things besides a status can end a step.  The driver may store more bytes than `ReadBuffer` has:
the run then means nothing, and counts as reported.  And a polling loop may go on for ever: a call
that does not return has not reported anything.
-/

open Imperative Imperative.Prog

namespace Kiflash

/-! ## The calls -/

section Calls

variable {σ : Type} [XSpiDriver σ] (env : Env)

/-- A call of one of the functions that erase or program.  Programming calls are those of the
menu and of the library. -/
inductive WritingCall where
  | eraseSectorFlash (ofsetAddr sectCount : UInt32)
  | dieErase (uscDieNr : UInt32)
  | flashEraseMain (ofsetAddr dieCount : UInt32)
  | program (call : ProgramCall)
  | download (startDie : UInt32)

/-- What the call runs.  Each is the function of the source, with the arguments of the
call. -/
def WritingCall.run : WritingCall → Prog (World σ) Xst
  | eraseSectorFlash ofsetAddr sectCount => qspiEraseSectorFlash env ofsetAddr sectCount
  | dieErase uscDieNr => spiFlashDieErase env uscDieNr
  | flashEraseMain ofsetAddr dieCount => qspiFlashEraseMain env ofsetAddr dieCount
  | program call => call.run env
  | download startDie => downloadSerialDataToQSPIFlash env startDie

/-- An erase up to its call of `GetStatus`, behind the mode command.  Its transfers are all
checked. -/
def eraseSent (cmd : UInt8) (addr : UInt32) : Prog (World σ) Xst :=
  check (spiFlashWriteEnable env) <|
  check (spiFlashWaitForFlashReady env) do
    fillWriteBuffer 0 (cmd :: addrBytes addr)
    setTransferInProgress true
    xspiTransfer env false (sectorEraseBytes + 1)

/-- `SpiFlashSectorErase` up to its call of `GetStatus`. -/
def sectorEraseSent (addr : UInt32) : Prog (World σ) Xst :=
  check (spiFlash4bytemodeEnable env) (eraseSent env commandSectorErase addr)

/-- `SpiFlashDieErase` up to its call of `GetStatus`. -/
def dieEraseSent (uscDieNr : UInt32) : Prog (World σ) Xst :=
  check (spiFlash4bytemodeEnable env) <|
  check (spiReadExtendedAddressRegister env) (eraseSent env commandDieErase (uscDieNr <<< 26))

/-- The two functions from their call of `GetStatus` on.  The flag of the transfer is cleared
behind the call, and the wait for it is over at once. -/
def eraseTail : Prog (World σ) Xst := do
  let status ← getStatus env
  setTransferInProgress false
  if status = .success then do
    awaitTransfer
    errorCheck
  else pure .failure

/-- The state in which `GetStatus` is called behind `sent`, if it comes to that.  It is a list
of at most one state. -/
def statusCall (sent : Prog (World σ) Xst) (w : World σ) : List (World σ) :=
  match sent w with
  | (.ret .success, w₁) => [w₁]
  | _ => []

/-- The two steps of `GetStatus` whose statuses are dropped: the flag status read and the
clear, each with the polls and the enable in front of it. -/
def flagSteps : Prog (World σ) Unit := do
  let _ ← spiFlashReadflagstatus env
  let _ ← spiFlashClrflagstatus env
  pure ()

/-- What a call does behind an erase, before it erases or programs anything else. -/
inductive Following where
  /-- It returns. -/
  | nothing
  /-- It goes on to the next sector. -/
  | sector
  /-- It enters the quad mode, and returns. -/
  | quadEnable
  /-- It opens the image file. -/
  | image (call : ProgramCall)

/-- The call comes to fail at these steps: one of their transfers fails, or stores past the
end of `ReadBuffer`.  In front of an image there are other reasons as well: there is no file,
or the driver turns a call down that is no transfer; and an image without pages may fail its
verification, for one of the same reasons or because a page differs
(`ProgramCall.Unverified`). -/
def Following.Stops : Following → World σ → Prop
  | nothing, _ => False
  | sector, w => FailsIn (writeReady env) w ∨ (writeReady env w).1 = .stop .wild
  | quadEnable, w => FailsIn (spiFlashQuadEnable env) w ∨ (spiFlashQuadEnable env w).1 = .stop .wild
  | image call, w => FailsIn (call.opening env) w ∨ (call.opening env w).1 = .stop .wild ∨
    call.Refused env w ∨ call.Unverified env w

/-- Where a transfer of the call of `GetStatus` fails, the two unchecked steps come to an end, and
the failing one is the status register read, whose status is returned; or the call comes to fail at
its next steps. -/
def StatusKept (following : Following) (w₁ : World σ) : Prop :=
  ∀ status w₂, spiFlashGetStatusPrint env w₁ = (.ret status, w₂) →
    FailsIn (spiFlashGetStatusPrint env) w₁ ∨ FailsIn (flagSteps env) w₂ →
      (flagSteps env w₂).1 = .stop .wild ∨ ∃ w₃, flagSteps env w₂ = (.ret (), w₃) ∧
        (FailsIn (spiFlashGetStatusPrint env) w₁ ∨
          following.Stops env { w₃ with transferInProgress := false })

/-- The states in which a loop over sectors comes to `GetStatus`, in their order; `last` is
what follows the last sector.  A sector that fails ends the list, as it ends the loop. -/
def sectorCalls (last : Following) : ℕ → UInt32 → World σ → List (World σ × Following)
  | 0, _, _ => []
  | n + 1, addr, w =>
    (statusCall (sectorEraseSent env addr) w).map (fun w₁ => (w₁, if n = 0 then last else .sector)) ++
      match spiFlashSectorErase env addr w with
      | (.ret .success, w₁) => sectorCalls last n (addr + bytePerSector) w₁
      | _ => []

/-- The same of `qspi_erase_sector_flash`, which refuses more sectors than the flash has. -/
def sectorStatusCalls (last : Following) (ofsetAddr sectCount : UInt32) (w : World σ) :
    List (World σ × Following) :=
  if sectCount < numbSectors ∨ sectCount = numbSectors then
    sectorCalls env last sectCount.toNat ofsetAddr w
  else []

/-- The states in which the call comes to `GetStatus`; downloads do not erase. -/
def WritingCall.statusCalls : WritingCall → World σ → List (World σ × Following)
  | eraseSectorFlash ofsetAddr sectCount, w => sectorStatusCalls env .nothing ofsetAddr sectCount w
  | dieErase uscDieNr, w => (statusCall (dieEraseSent env uscDieNr) w).map fun w₁ => (w₁, .nothing)
  | flashEraseMain _ dieCount, w =>
    (statusCall (dieEraseSent env dieCount) w).map fun w₁ => (w₁, .quadEnable)
  | program call, w =>
    if call.erase ≠ 0 then
      let w₁ := (call.mark env 1 w).2
      let eraseFrom := call.eraseFrom w₁.flashData
      sectorStatusCalls env (.image call) eraseFrom (sectorsToErase w₁.flashData eraseFrom) w₁
    else []
  | download _, _ => []

/-- Where the call drops a status, nothing fails, or the call comes to fail nonetheless.  A
download drops the only status it has: none of its transfers may fail. -/
def WritingCall.Spared (call : WritingCall) (w : World σ) : Prop :=
  match call with
  | download startDie =>
    FailsIn (qspiProgramFlash env startDie) w → (qspiProgramFlash env startDie w).1 = .stop .wild
  | call => ∀ v ∈ call.statusCalls env w, StatusKept env v.2 v.1

end Calls

/-! ## One call of `GetStatus` -/

section GetStatus

variable {σ : Type} {env : Env} [XSpiDriver σ] {w w₁ w₂ w₃ : World σ}

/-- The failures of the call of `GetStatus` make it fail.  It is a step on the way to
`StatusKept`, which names the transfers, and `statusKept_iff` connects the two. -/
def StatusReported (env : Env) (w₁ : World σ) : Prop :=
  FailsIn (getStatus env) w₁ → GivesUp (getStatus env w₁).1

/-- `GetStatus` is its first read and the two unchecked steps. -/
theorem getStatus_eq : getStatus (σ := σ) env =
    spiFlashGetStatusPrint env >>= fun status => flagSteps env >>= fun _ => pure status := by
  simp only [getStatus, flagSteps, bind_bind]
  rfl

section Runs

variable {status : Xst} (hprint : spiFlashGetStatusPrint env w₁ = (.ret status, w₂))
include hprint

/-- It returns the status of the first read. -/
theorem getStatus_of_ret (hflag : flagSteps env w₂ = (.ret (), w₃)) :
    getStatus env w₁ = (.ret status, w₃) := by
  rw [getStatus_eq, bind_of_ret hprint, bind_of_ret hflag]
  rfl

/-- Where the unchecked steps do not end, it does not return. -/
theorem getStatus_of_stop {why : Stop} (hflag : flagSteps env w₂ = (.stop why, w₃)) :
    getStatus env w₁ = (.stop why, w₃) := by
  rw [getStatus_eq, bind_of_ret hprint, bind_of_stop hflag]

/-- The transfers of the call of `GetStatus` are those of its steps.  Its record is theirs,
one behind the other. -/
theorem failsIn_getStatus_iff : FailsIn (getStatus env) w₁ ↔
    FailsIn (spiFlashGetStatusPrint env) w₁ ∨ FailsIn (flagSteps env) w₂ := by
  have hsame : (getStatus env w₁).2 = (flagSteps env w₂).2 := by
    rcases hflag : flagSteps env w₂ with ⟨_ | why, w₃⟩
    · rw [getStatus_of_ret hprint hflag]
    · rw [getStatus_of_stop hprint hflag]
  have hfirst : Emits Set.univ w₁ w₂ :=
    ((send_heedful 0 [commandStatusregRead] true statusReadBytes).emits).of_eq hprint
  have hrest : Emits Set.univ w₂ (flagSteps env w₂).2 :=
    Moves.bind (Heedful.emits (enabledRegisterRead_heedful _)) (fun _ => Moves.bind
      (Heedful.emits <| .check spiFlashWaitForFlashReady_heedful (send_heedful _ _ _ _))
      fun _ => moves_pure _) w₂
  obtain ⟨es, hes, -⟩ := hrest
  rw [FailsIn, hsame, newEvents_append hfirst.grows hes, FailsIn, FailsIn, newEvents_of_eq hes,
    hprint]
  simp only [List.mem_append, or_and_right, exists_or]

/-- The status register read fails with its transfer.  It is one command without a wait, and
no old error can make it fail. -/
theorem failsIn_print_iff (hfree : ErrorFree w₁) :
    FailsIn (spiFlashGetStatusPrint env) w₁ ↔ status ≠ .success := by
  have hgives : GivesUp (spiFlashGetStatusPrint env w₁).1 ↔
      FailsIn (spiFlashGetStatusPrint env) w₁ ∨
        (spiFlashGetStatusPrint env w₁).1 = .stop .wild :=
    givesUp_iff_failsIn (send_heedful _ _ _ _) (send_blames _ _ _ _ w₁ hfree)
  rw [hprint] at hgives
  have hnot : (Outcome.ret status : Outcome Xst) ≠ .stop .wild := nofun
  rw [or_iff_left hnot] at hgives
  refine hgives.symm.trans ⟨?_, givesUp_of_ne⟩
  rintro (⟨status', hstatus, hne⟩ | hwild)
  · obtain rfl := Outcome.ret.inj hstatus
    exact hne
  · exact absurd hwild hnot

end Runs

/-- `GetStatus` finds no old error, and leaves none. -/
theorem getStatus_errorFree {status : Xst} (hfree : ErrorFree w₁)
    (hrun : getStatus env w₁ = (.ret status, w₂)) : ErrorFree w₂ := by
  have hwp : wp (getStatus env) (fun _ w' => ErrorFree w') (fun _ _ => True) w₁ := by
    refine wp_bind.mpr (wp_mono (send_blames _ _ _ _ w₁ hfree) (fun _ w₂ h₂ => ?_) fun _ _ => id)
    refine wp_bind.mpr (wp_mono (enabledRegisterRead_blames _ w₂ h₂.1) (fun _ w₃ h₃ => ?_)
      fun _ _ => id)
    exact wp_bind.mpr (wp_mono (spiFlashClrflagstatus_blames w₃ h₃.1) (fun _ _ h => h.1)
      fun _ _ => id)
  exact (wp_of_ret hrun).mp hwp

/-- The condition on one call of `GetStatus`, by what the call returns.  What is left of a
call behind `GetStatus` is only reached where it returns success, and there the two sides ask
the same of the next steps. -/
theorem statusKept_iff (hfree : ErrorFree w₁) {following : Following} :
    StatusKept env following w₁ ↔ StatusReported env w₁ ∨ ∃ w₂,
      getStatus env w₁ = (.ret .success, w₂) ∧
        following.Stops env { w₂ with transferInProgress := false } := by
  -- the cases are the ways through `GetStatus`: the read returns or stops, and so do the two
  -- steps
  rcases hprint : spiFlashGetStatusPrint env w₁ with ⟨status | why, w₂⟩
  · have hread := failsIn_print_iff hprint hfree
    have hfails := failsIn_getStatus_iff hprint
    have hkept : StatusKept env following w₁ ↔
        (FailsIn (getStatus env) w₁ → (flagSteps env w₂).1 = .stop .wild ∨ ∃ w₃,
          flagSteps env w₂ = (.ret (), w₃) ∧ (FailsIn (spiFlashGetStatusPrint env) w₁ ∨
            following.Stops env { w₃ with transferInProgress := false })) := by
      rw [hfails]
      refine ⟨fun h => h status w₂ hprint, fun h status' w₂' hprint' => ?_⟩
      cases hprint.symm.trans hprint'
      exact h
    rw [hkept]
    rcases hflag : flagSteps env w₂ with ⟨_ | why, w₃⟩
    · have hrun := getStatus_of_ret hprint hflag
      rw [StatusReported, hrun]
      by_cases hstatus : status = .success
      · -- the failure is in the two unchecked steps, and only the next steps can tell of it
        have hgood : ¬ GivesUp (.ret status : Outcome Xst) := hstatus ▸ not_givesUp_ok
        have hsent : ¬ FailsIn (spiFlashGetStatusPrint env) w₁ := fun h => hread.mp h hstatus
        rw [hstatus]
        constructor
        · intro h
          by_cases hfailed : FailsIn (getStatus env) w₁
          · obtain hwild | ⟨_, hret, hsent' | hstops⟩ := h hfailed
            · exact nomatch hwild
            · exact absurd hsent' hsent
            · cases hret
              exact .inr ⟨w₃, rfl, hstops⟩
          · exact .inl fun h => absurd h hfailed
        · rintro (h | ⟨_, hret, hstops⟩) hfailed
          · exact absurd (hstatus ▸ h hfailed) hgood
          · cases hret
            exact .inr ⟨w₃, rfl, .inr hstops⟩
      · exact iff_of_true (fun _ => .inr ⟨w₃, rfl, .inl (hread.mpr hstatus)⟩)
          (.inl fun _ => givesUp_of_ne hstatus)
    -- the two steps stop: past the end of `ReadBuffer`, or for ever
    · have hrun := getStatus_of_stop hprint hflag
      rw [StatusReported, hrun]
      constructor
      · refine fun h => .inl fun hfailed => ?_
        obtain hwild | ⟨_, hret, -⟩ := h hfailed
        · exact .inr (congrArg Outcome.stop (Outcome.stop.inj hwild))
        · exact nomatch hret
      · rintro (h | ⟨_, hret, -⟩) hfailed
        · obtain ⟨_, hret, -⟩ | hwild := h hfailed
          · exact nomatch hret
          · exact .inl (congrArg Outcome.stop (Outcome.stop.inj hwild))
        · exact nomatch hret
  · -- the status register read does not return: it has heeded its failures
    have hrun : getStatus env w₁ = (.stop why, w₂) := by
      rw [getStatus_eq, bind_of_stop hprint]
    refine iff_of_true (fun status w hret => nomatch hprint.symm.trans hret) (.inl fun hfailed => ?_)
    have hsent : FailsIn (spiFlashGetStatusPrint env) w₁ := by
      rwa [FailsIn, hrun, ← congrArg Prod.snd hprint] at hfailed
    have hgives := (givesUp_iff_failsIn (send_heedful 0 [commandStatusregRead] true statusReadBytes)
      (send_blames _ _ _ _ w₁ hfree)).mpr (.inl hsent)
    rw [hrun]
    exact congrArg Prod.fst hprint ▸ hgives

end GetStatus

end Kiflash
