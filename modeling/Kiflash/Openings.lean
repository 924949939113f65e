import Kiflash.Heedful

/-!
# Up to the next erase or page program

`GetStatus` drops two statuses behind an erase.  What becomes of such a failure depends on
what the call does next: it does no harm if the call comes to fail before it erases or
programs anything else.  This module says what the calls do up to that point, one definition
for each place where an erase can stand.

* `writeReady` — the steps in front of a sector erase or a page program.
* `ProgramCall.opening` — a programming call behind its erase, up to its first page program.
* `opens_sectors`, `opens_image` — the rest of the call stops short exactly where these steps
  give up.

The openings are literal prefixes of the source's functions.  They are programs of their own
so that a condition on them is a condition on the transfers that they make, and not on what
the call returns in the end.

### Opening and rest

`Opens m k` of `Kiflash.Imperative.Journal` connects the two: `k` stops short, which is to
fail without doing harm, if and only if its opening `m` gives up.  One half is that a function
whose opening gives up returns that failure and does nothing more.  The other is that a run
which gets past its opening sends an erase or a page program at once, so that it has done harm
whatever it returns in the end.  For the second half it does not matter what follows the
command; the proofs ask of the rest only that the record grows.

### From giving up to a transfer

A step gives up if it returns a failure, or if its run has lost its meaning at an access
outside of the arrays (`Stop.wild`).  `givesUp_iff_failsIn` says of a function that heeds its
failures and blames its transfers what this means: one of its transfers has failed, or has
stored past the end of `ReadBuffer`.
-/

open Imperative Imperative.Prog

namespace Kiflash

/-! ## The openings -/

section Definitions

variable {σ : Type}

/-- A transfer that the step makes, run from this state, fails.  What the step makes of the
failure has no part in this. -/
def FailsIn {α : Type} (m : Prog (World σ) α) (w : World σ) : Prop :=
  ∃ e ∈ newEvents w (m w).2, e.Failed

variable [XSpiDriver σ] (env : Env)

/-- The steps of `SpiFlashSectorErase` and of `SpiFlashWrite_File` in front of their command.
Each of them is checked in both. -/
def writeReady : Prog (World σ) Xst :=
  check (spiFlash4bytemodeEnable env) <|
  check (spiFlashWriteEnable env) (spiFlashWaitForFlashReady env)

/-- The first round of `qspi_program_bin` up to its page program.  All of it comes before
anything is changed. -/
def firstPageReady (file : File) : Prog (World σ) Xst := do
  reportProgress env 20 (pageCount file.ftell) ⟨pageCount file.ftell, 0, 0⟩
  let _ ← readPage env file 0
  check (spiFlashWriteEnable env) (writeReady env)

/-- A programming call behind `qspi_program_bin`.  It sends no erase and no page program any
more. -/
def ProgramCall.verifyStage (call : ProgramCall) : Prog (World σ) Xst := do
  call.mark env 60
  check (qspiVerifyBin env) do
    call.mark env 100
    pure .success

/-- A programming call behind its erase: everything in it is checked. -/
def ProgramCall.afterErase (call : ProgramCall) : Prog (World σ) Xst := do
  call.mark env 20
  check (qspiProgramBin env) (call.verifyStage env)

/-- What `qspi_program_bin` and `qspi_verify_bin` do between the opening of their file and its
pages.  The driver calls in it are no transfers. -/
def imageFront (pages : Prog (World σ) Xst) : Prog (World σ) Xst :=
  check (ensureInit env) <|
  check (callDriver (XSpiDriver.xspiSetSlaveSelect spiSelect)) do
    let _ ← callDriver XSpiDriver.xspiStart
    check (spiFlashWriteEnable env) pages

/-- A programming call from behind `qspi_erase_sector_flash` to its first page program.  The
percentage is stored twice.  `unpaged` is what follows for an image that has no pages, and so no
page program. -/
def ProgramCall.openingTo (call : ProgramCall) (unpaged : Prog (World σ) Xst) :
    Prog (World σ) Xst := do
  call.mark env 20
  call.mark env 20
  let data ← gets fun w => w.flashData
  let fp ← fopen env data.pathname
  match fp with
  | none => pure .failure
  | some file =>
    imageFront env (if pageCount file.ftell = 0 then unpaged else firstPageReady env file)

/-- The opening up to the first page program, or up to the verification of an image without pages. -/
def ProgramCall.opening (call : ProgramCall) : Prog (World σ) Xst :=
  call.openingTo env (pure .success)

/-- What is left of a call whose image has no pages: the file is closed, and the verification
opens it again. -/
def ProgramCall.closing (call : ProgramCall) : Prog (World σ) Xst := do
  fclose
  call.verifyStage env

end Definitions

/-! ## Steps that change nothing -/

section Keeping

variable {σ : Type} {env : Env} {w w' : World σ}

/-- The events that leave alone what the flash holds.  Reads are among them, and so are the
events that are no transfers. -/
def keeping : Set (Event σ) := {e | ¬ e.ChangesFlash}

/-- The frames of the commands that neither erase nor program. -/
def keepingFrames : Set (List UInt8) := framesOf {op | op ∉ writingCommands}

/-- Frames that do not begin with a writing command are kept apart from the others by their
first byte. -/
theorem admits_keeping : Admits keepingFrames (keeping : Set (Event σ)) := by
  rintro before frame status hframe ⟨op, hop, hwriting⟩
  exact hframe op hop hwriting

/-- The bookkeeping neither erases nor programs. -/
theorem housekeeping_subset_keepingFrames : housekeeping ⊆ keepingFrames := by
  refine framesOf_mono ?_
  rintro cmd (rfl | rfl | rfl | rfl | rfl | rfl | rfl | rfl | rfl | rfl)
  all_goals
    change _ ∉ writingCommands
    decide

/-- And neither does what sends no frame. -/
theorem unsent_subset_keeping : (unsent : Set (Event σ)) ⊆ keeping := by
  rintro e (⟨_, rfl⟩ | rfl | ⟨_, rfl⟩ | ⟨_, rfl⟩)
  all_goals exact id

theorem Emits.keeping_of_unsent (h : Emits unsent w w') : Emits keeping w w' :=
  h.mono unsent_subset_keeping

theorem Emits.univ {E : Set (Event σ)} (h : Emits E w w') : Emits Set.univ w w' :=
  h.mono (Set.subset_univ _)

/-- A run that heeds its failures is a run: its record grows. -/
theorem HeedsFrom.emits {excused : World σ → Prop} {m : Prog (World σ) Xst}
    (h : transferJournal.HeedsFrom excused m w) : Emits Set.univ w (m w).2 := by
  obtain ⟨es, hes, -⟩ := h
  exact ⟨es, hes, fun _ _ => trivial⟩

/-- A function that heeds its failures keeps a record of what it does. -/
theorem Heedful.emits {m : Prog (World σ) Xst} (h : Heedful (fun _ => True) m) :
    Moves (Emits Set.univ) m := fun w => HeedsFrom.emits (h w)

/-- A function that checks every status gives up exactly where one of its transfers fails, or stores
too much. -/
theorem givesUp_iff_failsIn {m : Prog (World σ) Xst} (hheeds : Heedful (fun _ => False) m)
    (hblames : transferJournal.BlamesFrom ErrorFree m w) :
    GivesUp (m w).1 ↔ FailsIn m w ∨ (m w).1 = .stop .wild := by
  refine (Journal.givesUp_iff (hheeds w) hblames).trans (or_congr_left ?_)
  obtain ⟨es, hes, -⟩ := HeedsFrom.emits (hheeds w)
  rw [FailsIn, newEvents_of_eq hes]
  constructor
  · rintro ⟨es', hes', hfailed⟩
    obtain rfl : es = es' := List.append_cancel_left (hes.symm.trans hes')
    exact hfailed
  · exact fun hfailed => ⟨es, hes, hfailed⟩

theorem mark_keeping (call : ProgramCall) (value : UInt32) :
    Moves (Emits keeping) (call.mark (σ := σ) env value) :=
  (mark_unsent call value).mono fun _ _ => Emits.keeping_of_unsent

variable [XSpiDriver σ]

theorem Talks.keeping {A : Set (List UInt8)} (hA : A ⊆ keepingFrames) (h : Talks A w w') :
    Emits keeping w w' :=
  (h.mono hA).emits admits_keeping

theorem statusFrames_subset_keepingFrames : statusFrames ⊆ keepingFrames :=
  statusFrames_subset.trans housekeeping_subset_keepingFrames

theorem spiFlashWriteEnable_keeping : Moves (Emits keeping) (spiFlashWriteEnable (σ := σ) env) :=
  (spiFlashWriteEnable_talks subset_rfl).mono fun _ _ => Talks.keeping statusFrames_subset_keepingFrames

/-- The steps in front of a command leave the flash alone. -/
theorem writeReady_keeping : Moves (Emits keeping) (writeReady (σ := σ) env) := by
  have htalks : Moves (Talks housekeeping) (writeReady (σ := σ) env) :=
    (spiFlash4bytemodeEnable_talks subset_rfl).check <|
      (spiFlashWriteEnable_talks statusFrames_subset).check <|
      spiFlashWaitForFlashReady_talks statusFrames_subset
  exact htalks.mono fun _ _ => Talks.keeping housekeeping_subset_keepingFrames

/-- The verification leaves the flash alone.  This is what makes an image without pages
harmless. -/
theorem verifyStage_keeping (call : ProgramCall) :
    Moves (Emits keeping) (call.verifyStage (σ := σ) env) := by
  have hread : Says keepingFrames command4byteQuadOutputFastRead :=
    says_framesOf (by decide : command4byteQuadOutputFastRead ∉ writingCommands)
  refine (mark_keeping call 60).bind fun _ => Moves.check (fun w => ?_) <|
    (mark_keeping call 100).bind fun _ => moves_pure _
  exact (qspiVerifyBin_reports housekeeping_subset_keepingFrames admits_keeping hread
    (fun _ _ _ _ _ _ => id) id).emits

end Keeping

/-! ## Erases and page programs -/

section Harm

variable {σ : Type} [XSpiDriver σ] {env : Env} {w w' : World σ}

/-- The transfer of a frame that begins with a writing command changes the flash, whatever its
status.  A transfer that fails may have reached the flash all the same. -/
theorem xspiTransfer_changes {recv : Bool} {n : ℕ} (hpos : 0 < n) (hfits : n ≤ bufferSize)
    (hwriting : w.writeBuffer 0 ∈ writingCommands) :
    ∃ e, e.ChangesFlash ∧ (xspiTransfer env recv n w).2.events = w.events ++ [e] := by
  have hhead : (bytesOf w.writeBuffer n).head? = some (w.writeBuffer 0) := by
    rw [List.head?_eq_getElem?, bytesOf_getElem?, if_pos hpos]
  have hchanges : ∀ status, Event.ChangesFlash (.transfer w.bus (bytesOf w.writeBuffer n) status) :=
    fun _ => ⟨_, hhead, hwriting⟩
  let Changed (w' : World σ) : Prop := ∃ e : Event σ, e.ChangesFlash ∧ w'.events = w.events ++ [e]
  have hwp : wp (xspiTransfer env recv n) (fun _ => Changed) (fun _ => Changed) w :=
    wp_xspiTransfer (fun h => absurd hfits (Nat.not_le.mpr h))
      (fun _ _ => ⟨_, hchanges none, rfl⟩) (fun status _ _ _ _ => ⟨_, hchanges (some status), rfl⟩)
      fun status _ _ _ _ => ⟨_, hchanges (some status), rfl⟩
  exact wp_state_iff.mp hwp

omit [XSpiDriver σ] in
/-- A run that goes on behind such a transfer has changed the flash. -/
theorem not_keeping_of_changes {e : Event σ} (hchanges : e.ChangesFlash)
    (hevents : w'.events = w.events ++ [e]) {w'' : World σ} (hgrows : Emits Set.univ w' w'') :
    ¬ Emits keeping w w'' := by
  rintro ⟨es, hes, hkeeping⟩
  obtain ⟨es', hes', -⟩ := hgrows
  have hsplit : es = e :: es' := by
    rw [hes', hevents, List.append_assoc] at hes
    exact (List.append_cancel_left hes).symm
  exact hkeeping e (by rw [hsplit]; exact List.mem_cons_self) hchanges

/-- A command whose frame is one of them, and what is made of its status.  Behind the transfer
nothing is taken off the record, so the event stays on it. -/
theorem command_changes {recv : Bool} {n : ℕ} {inner : Prog (World σ) Xst}
    {f : Xst → Prog (World σ) Xst} (hinner : Moves (Emits Set.univ) inner)
    (hf : ∀ status, Moves (Emits Set.univ) (f status)) (hpos : 0 < n) (hfits : n ≤ bufferSize)
    (hwriting : w.writeBuffer 0 ∈ writingCommands) :
    ¬ Emits keeping w ((command env recv n inner >>= f) w).2 := by
  have htail : ∀ status : Xst, Moves (Emits Set.univ) ((if status = StatusCode.ok then do
      let status ← inner
      setTransferInProgress (σ := σ) false
      if status = Xst.success then do
        awaitTransfer
        errorCheck
      else pure .failure
    else pure StatusCode.fail) >>= f) := by
    refine fun status => Moves.bind (Moves.ite (hinner.bind fun status => ?_) (moves_pure _)) hf
    exact (commandEnd_unsent status).mono fun _ _ => Emits.univ
  -- the frame is on record once it is sent, whatever becomes of it and of the rest
  obtain ⟨e, hchanges, hevents⟩ : ∃ e, e.ChangesFlash ∧
      (xspiTransfer env recv n { w with transferInProgress := true }).2.events = w.events ++ [e] :=
    xspiTransfer_changes (w := { w with transferInProgress := true }) hpos hfits hwriting
  have hrun : (command env recv n inner >>= f) w =
      (xspiTransfer env recv n >>= fun status => (if status = StatusCode.ok then do
        let status ← inner
        setTransferInProgress (σ := σ) false
        if status = Xst.success then do
          awaitTransfer
          errorCheck
        else pure .failure
      else pure StatusCode.fail) >>= f) { w with transferInProgress := true } := by
    rw [command, bind_bind]
    refine (bind_of_ret rfl).trans ?_
    rw [check, bind_bind]
  rw [hrun]
  exact not_keeping_of_changes hchanges hevents (Moves.bind_left htail _)

/-- The steps in front of an erase or a page program are its opening. -/
theorem opens_writeReady {f : Xst → Prog (World σ) Xst} (hmoves : Moves (Emits Set.univ) (f .success))
    (hchanges : ∀ w, ¬ Emits keeping w (f .success w).2)
    (hno : ∀ status, status ≠ .success → ∀ w, transferJournal.StopsShort (f status) w) :
    transferJournal.Opens (writeReady env) (writeReady env >>= f) :=
  .seq writeReady_keeping (.of_harm hmoves hchanges) hno

/-- The opening of a checked command. -/
theorem opens_check_writeReady {send : Prog (World σ) Xst} (hmoves : Moves (Emits Set.univ) send)
    (hchanges : ∀ w, ¬ Emits keeping w (send w).2) :
    transferJournal.Opens (writeReady env) (check (writeReady env) send) := by
  refine opens_writeReady hmoves hchanges fun status hne w => ?_
  rw [if_neg (show ¬ status = StatusCode.ok from hne)]
  exact .pure StatusCode.fail_ne_ok

/-- The command of `SpiFlashSectorErase`, with the call of `GetStatus`.  It is what the steps
of `writeReady` lead to. -/
def sectorEraseFrame (env : Env) (addr : UInt32) : Prog (World σ) Xst := do
  fillWriteBuffer 0 (commandSectorErase :: addrBytes addr)
  command env false (sectorEraseBytes + 1) (getStatus env)

/-- `SpiFlashSectorErase` is its opening and its command. -/
theorem spiFlashSectorErase_eq_ready (addr : UInt32) :
    spiFlashSectorErase (σ := σ) env addr = check (writeReady env) (sectorEraseFrame env addr) := by
  simp only [spiFlashSectorErase, eraseCommand, writeReady, check_assoc]
  rfl

theorem getStatus_grows : Moves (Emits Set.univ) (getStatus (σ := σ) env) :=
  (getStatus_talks subset_rfl).mono fun _ _ => Talks.emits transfers_univ.admits

theorem spiFlashSectorErase_grows (addr : UInt32) :
    Moves (Emits Set.univ) (spiFlashSectorErase (σ := σ) env addr) :=
  (spiFlashSectorErase_talks (Set.subset_univ _) trivial).mono fun _ _ =>
    Talks.emits transfers_univ.admits

theorem sectorEraseFrame_grows (addr : UInt32) :
    Moves (Emits Set.univ) (sectorEraseFrame (σ := σ) env addr) := by
  have htalks : Moves (Talks Set.univ) (sectorEraseFrame (σ := σ) env addr) :=
    send_talks (fun _ => trivial) (getStatus_talks (Set.subset_univ _))
  exact htalks.mono fun _ _ => Talks.emits transfers_univ.admits

/-- Past its opening, a sector erase has changed the flash, whatever it returns. -/
theorem sectorEraseFrame_changes {f : Xst → Prog (World σ) Xst}
    (hf : ∀ status, Moves (Emits Set.univ) (f status)) (addr : UInt32) (w : World σ) :
    ¬ Emits keeping w ((sectorEraseFrame env addr >>= f) w).2 := by
  have hfill : fillWriteBuffer 0 (commandSectorErase :: addrBytes addr) w = (.ret (),
      { w with writeBuffer := overlay w.writeBuffer 0 (commandSectorErase :: addrBytes addr) }) :=
    fillWriteBuffer_eq (by rw [List.length_cons, addrBytes_length]; decide)
  have hhead : overlay w.writeBuffer 0 (commandSectorErase :: addrBytes addr) 0 ∈ writingCommands :=
    List.mem_cons_self
  rw [sectorEraseFrame, bind_bind, bind_of_ret hfill]
  exact command_changes getStatus_grows hf (by decide) (by decide) hhead

/-- **What is left of an erase.**  With a sector to come, the rest of a call stops short exactly
where the steps in front of the next erase command give up. -/
theorem opens_sectors {g : Xst → Prog (World σ) Xst}
    (hg : ∀ status, Moves (Emits Set.univ) (g status))
    (hno : ∀ w, transferJournal.StopsShort (g .failure) w) (n : ℕ) (addr : UInt32) :
    transferJournal.Opens (writeReady env)
      (checkLoop (spiFlashSectorErase env) (· + bytePerSector) (n + 1) addr >>= g) := by
  have hrest : ∀ status : Xst, Moves (Emits Set.univ) ((if status = StatusCode.ok then
      checkLoop (spiFlashSectorErase (σ := σ) env) (· + bytePerSector) n (addr + bytePerSector)
      else pure StatusCode.fail) >>= g) := fun status =>
    (Moves.ite (Moves.checkLoop spiFlashSectorErase_grows n _) (moves_pure _)).bind hg
  rw [checkLoop, check, spiFlashSectorErase_eq_ready, bind_bind, check, bind_bind]
  refine opens_writeReady ?_ ?_ fun status hne w => ?_
  · exact (sectorEraseFrame_grows addr).bind hrest
  · exact sectorEraseFrame_changes hrest addr
  · rw [if_neg (show ¬ status = StatusCode.ok from hne)]
    exact hno w

/-! ## The first page -/

/-- The frame of a page program, and what is made of its status.  The address and the data
make no difference, only the first byte does. -/
theorem pageFrame_changes {f : Xst → Prog (World σ) Xst}
    (hf : ∀ status, Moves (Emits Set.univ) (f status)) (addr : UInt32) (pageBuffer : ℕ → UInt8)
    (w : World σ) :
    ¬ Emits keeping w (((fillWriteBuffer 0 (command4bytePageProgram :: addrBytes addr) >>= fun _ =>
      fillWriteBuffer 5 (bytesOf pageBuffer ((pageSize + readWriteExtraBytes + 1).toNat - 5)) >>=
        fun _ => command env false (pageSize + readWriteExtraBytes + 1).toNat (pure .success)) >>= f)
      w).2 := by
  have hsize : (pageSize + readWriteExtraBytes + 1).toNat = 261 := by decide
  rw [hsize]
  have hhead : fillWriteBuffer 0 (command4bytePageProgram :: addrBytes addr) w = (.ret (),
      { w with writeBuffer := overlay w.writeBuffer 0 (command4bytePageProgram :: addrBytes addr) }) :=
    fillWriteBuffer_eq (by rw [List.length_cons, addrBytes_length]; decide)
  have hpage : ∀ w' : World σ, fillWriteBuffer 5 (bytesOf pageBuffer (261 - 5)) w' = (.ret (),
      { w' with writeBuffer := overlay w'.writeBuffer 5 (bytesOf pageBuffer (261 - 5)) }) := fun w' =>
    fillWriteBuffer_eq (by rw [bytesOf_length]; decide)
  have hfirst : overlay (overlay w.writeBuffer 0 (command4bytePageProgram :: addrBytes addr)) 5
      (bytesOf pageBuffer (261 - 5)) 0 ∈ writingCommands := by
    have hcmd : command4bytePageProgram ∈ writingCommands := by decide
    exact hcmd
  rw [bind_bind, bind_of_ret hhead, bind_bind, bind_of_ret (hpage _)]
  exact command_changes (moves_pure _) hf (by decide) (by decide) hfirst

/-- A round of `qspi_program_bin` up to its page program.  What is behind the page program has
no part in whether the opening gives up. -/
theorem opens_programPage {k : Prog (World σ) Xst} (hk : Moves (Emits Set.univ) k)
    (baseStartAddr : UInt32) (file : File) :
    transferJournal.Opens
      (readPage env file 0 >>= fun _ => check (spiFlashWriteEnable env) (writeReady env))
      (check (programPage env baseStartAddr file 0) k) := by
  have hread : Moves (Emits keeping) (readPage (σ := σ) env file 0) :=
    (readPage_unsent file 0).mono fun _ _ => Emits.keeping_of_unsent
  have hrest : Moves (Emits Set.univ) (check (spiFlash4byteexit (σ := σ) env) k) :=
    ((spiFlash4byteexit_talks (Set.subset_univ _)).mono fun _ _ =>
      Talks.emits transfers_univ.admits).check hk
  have hframe : ∀ buffer, Moves (Emits Set.univ) (fillWriteBuffer (σ := σ) 0
      (command4bytePageProgram :: addrBytes (0 + baseStartAddr)) >>= fun _ =>
      fillWriteBuffer 5 (bytesOf buffer ((pageSize + readWriteExtraBytes + 1).toNat - 5)) >>= fun _ =>
        command env false (pageSize + readWriteExtraBytes + 1).toNat (pure .success)) := fun _ =>
    Heedful.emits <| .bind (fillWriteBuffer_unsent _ _) fun _ => send_heedful _ _ _ _
  rw [programPage, ← bind_check]
  refine .bind hread fun buffer => ?_
  rw [check_assoc]
  refine .check spiFlashWriteEnable_keeping ?_
  rw [spiFlashWriteFile_eq]
  have hready : ∀ X : Prog (World σ) Xst, (check (spiFlash4bytemodeEnable env) <|
      check (spiFlashWriteEnable env) <| check (spiFlashWaitForFlashReady env) X) =
      check (writeReady env) X := fun X => by simp only [writeReady, check_assoc]
  simp only [check_assoc]
  rw [hready]
  exact opens_check_writeReady ((hframe buffer).check hrest)
    (pageFrame_changes (fun _ => hrest.ite (moves_pure _)) _ buffer)

/-- **What is left of a programming call.**  Behind its erase it stops short exactly where the
steps up to its first page program give up.

The image decides how far these steps go: without a file there are none, and a file without
pages has the whole verification in their place. -/
theorem opens_image (call : ProgramCall) :
    transferJournal.Opens (call.openingTo env (call.closing env))
      (call.mark (σ := σ) env 20 >>= fun _ => call.afterErase env) := by
  unfold ProgramCall.openingTo ProgramCall.afterErase
  have hstage : Moves (Emits Set.univ) (call.verifyStage (σ := σ) env) :=
    (verifyStage_keeping call).mono fun _ _ => Emits.univ
  have hmark : ∀ w, Emits keeping w (call.mark (σ := σ) env 20 w).2 := mark_keeping call 20
  refine .bind hmark fun _ => .bind hmark fun _ => ?_
  rw [qspiProgramBin, ← bind_check]
  refine .bind (moves_gets (r := Emits keeping) _) fun data => ?_
  rw [imageFile, ← bind_check]
  refine .bind (m := fopen env data.pathname) (fun w => Emits.of_eq rfl) fun fp => ?_
  cases fp with
  | none => exact .pure Xst.failure
  | some file =>
      -- the parts in front of the pages change nothing in the flash, and belong to the
      -- opening
      have hcall : ∀ call : σ → Xst × σ, Moves (Emits keeping) (callDriver call) := fun call =>
        (callDriver_unsent call).mono fun _ _ => Emits.keeping_of_unsent
      have hinit : Moves (Emits keeping) (ensureInit (σ := σ) env) :=
        (ensureInit_talks subset_rfl).mono fun _ _ => Talks.keeping statusFrames_subset_keepingFrames
      unfold imageFront
      rw [check_assoc]
      refine .check hinit ?_
      rw [check_assoc]
      refine .check (hcall (XSpiDriver.xspiSetSlaveSelect spiSelect)) ?_
      rw [← bind_check]
      refine .bind (hcall XSpiDriver.xspiStart) fun _ => ?_
      rw [check_assoc]
      refine .check spiFlashWriteEnable_keeping ?_
      rw [check_assoc]
      change transferJournal.Opens _ (check _ (call.closing env))
      have hclosed : Moves (Emits keeping) (call.closing (σ := σ) env) :=
        Moves.bind (m := fclose) (fun _ => Emits.of_eq rfl) fun _ => verifyStage_keeping call
      by_cases hpages : pageCount file.ftell = 0
      · -- no page: the loop has no round, and the verification follows
        rw [if_pos hpages, pageLoop, hpages]
        exact .of_harmless hclosed
      · obtain ⟨n, hn⟩ : ∃ n, (pageCount file.ftell).toNat = n + 1 :=
          Nat.exists_eq_succ_of_ne_zero fun h => hpages (UInt32.toNat_inj.mp h)
        rw [if_neg hpages, pageLoop, hn, checkLoop, check_assoc, ← bind_check, firstPageReady]
        -- a page: its opening ends at the page program, and the other rounds do not matter
        have hreport : Moves (Emits keeping) (reportProgress (σ := σ) env 20 (pageCount file.ftell)
            ⟨pageCount file.ftell, 0, 0⟩) :=
          (reportProgress_unsent 20 _ _).mono fun _ _ => Emits.keeping_of_unsent
        refine .bind hreport fun _ => opens_programPage ?_ data.baseAddr file
        refine Moves.check (Moves.checkLoop (fun it => ?_) _ _) (hclosed.mono fun _ _ => Emits.univ)
        exact Heedful.emits <| .bind (reportProgress_unsent _ _ _) fun _ => programPage_heedful _ _ _

end Harm

end Kiflash
