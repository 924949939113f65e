import Kiflash.Stages

/-!
# Operations and their runs

`Operation` is a call of any of the functions above the command functions, or of a command
function itself; a run is a finite sequence of operations, each called whatever the one before
it returned.

* `Operation`, `Operation.run`, `runAll` — the calls and their runs.
* `LibraryCall` — the three calls that a client of the library makes.
* `Carries`, `Carries.runAll` — what every run carries, from what its parts carry.
* `Tracks` — the record of the stores to `FlashData.percentage` gives its value at every
  moment.

### Why runs, and why of any operations

What a single function does to the flash depends on what the calls before it have left: the
address mode, the erase latch, the selected slave, the flag of the startup.  A statement that
fixes these at the beginning of a function is a lemma; a property of the code is one of all
sequences of calls.  The operations are listed with arbitrary arguments, and the assignments
to `FlashData` that the menu and the library make between two calls are operations too, so
that no caller has to be modelled for a statement about every caller.

### The rule for runs

A relation that is reflexive and transitive is carried by every run as soon as it is carried
by the parts that the operations are made of.  `Carries` is the list of these parts: the
command functions, the startup, the register writes outside the SPI core, and everything that
reaches neither the bus nor the initialisation.  What a function does between these parts (its
loops, its early returns, its files) is dealt with here once, in `Carries.run`.

An instance of the rule has about fifteen small obligations.  Those who ask of every frame
only that it is a frame have fewer: `Carries.of_talks` reduces the list to one statement about
`Talks`.
-/

open Imperative Imperative.Prog

namespace Kiflash

/-! ## Operations -/

/-- A call of a function that talks to the flash, or an assignment to `FlashData` between two
such calls.  The constructors carry the arguments of the C functions; a `pageBuffer` or `data`
is the memory that the pointer argument points to. -/
inductive Operation where
  | spiFlashRead (addr byteCount : UInt32) (readCmd : UInt8)
  | spiFlashWriteFile (addr byteCount : UInt32) (writeCmd : UInt8) (pageBuffer : ℕ → UInt8)
  | spiFlashSectorErase (addr : UInt32)
  | spiFlashDieErase (uscDieNr : UInt32)
  | spiFlashQuadEnable
  | spiFlashReadID
  | spiFlashReadflagstatus
  | spiFlashClrflagstatus
  | qspiEaseEntireFlash
  | qspiEraseSectorFlash (ofsetAddr sectCount : UInt32)
  | qspiFlashGeo
  | qspiFlashEraseMain (ofsetAddr dieCount : UInt32)
  | qspiWriteFlash (addr : UInt32) (data : ℕ → UInt8)
  | qspiReadFlash (startAddr noByteToRead : UInt32)
  | spiBlankCheck (startAddr noByteToRead : UInt32)
  | qspiProgramBin
  | qspiVerifyBin
  | downloadSerialDataToQSPIFlash (startDie : UInt32)
  | qspiVerifyFlash (startDie : UInt32)
  | program (call : ProgramCall)
  | kiflashInit
  | kiflashIcap (die : UInt32)
  | kiflashProgramUser
  | reimageWholeFlash
  | assign (data : FlashData)

/-- What the operation runs.  An assignment returns success, as nothing depends on what it
returns.  The match is the place where a new function of the source joins all results on
runs. -/
def Operation.run {σ : Type} [XSpiDriver σ] (env : Env) : Operation → Prog (World σ) Xst
  | spiFlashRead addr byteCount readCmd => Kiflash.spiFlashRead env addr byteCount readCmd
  | spiFlashWriteFile addr byteCount writeCmd pageBuffer =>
    Kiflash.spiFlashWriteFile env addr byteCount writeCmd pageBuffer
  | spiFlashSectorErase addr => Kiflash.spiFlashSectorErase env addr
  | spiFlashDieErase uscDieNr => Kiflash.spiFlashDieErase env uscDieNr
  | spiFlashQuadEnable => Kiflash.spiFlashQuadEnable env
  | spiFlashReadID => Kiflash.spiFlashReadID env
  | spiFlashReadflagstatus => Kiflash.spiFlashReadflagstatus env
  | spiFlashClrflagstatus => Kiflash.spiFlashClrflagstatus env
  | qspiEaseEntireFlash => Kiflash.qspiEaseEntireFlash env
  | qspiEraseSectorFlash ofsetAddr sectCount => Kiflash.qspiEraseSectorFlash env ofsetAddr sectCount
  | qspiFlashGeo => Kiflash.qspiFlashGeo env
  | qspiFlashEraseMain ofsetAddr dieCount => Kiflash.qspiFlashEraseMain env ofsetAddr dieCount
  | qspiWriteFlash addr data => Kiflash.qspiWriteFlash env addr data
  | qspiReadFlash startAddr noByteToRead => Kiflash.qspiReadFlash env startAddr noByteToRead
  | spiBlankCheck startAddr noByteToRead => Kiflash.spiBlankCheck env startAddr noByteToRead
  | qspiProgramBin => Kiflash.qspiProgramBin env
  | qspiVerifyBin => Kiflash.qspiVerifyBin env
  | downloadSerialDataToQSPIFlash startDie => Kiflash.downloadSerialDataToQSPIFlash env startDie
  | qspiVerifyFlash startDie => Kiflash.qspiVerifyFlash env startDie
  | program call => call.run env
  | kiflashInit => Kiflash.kiflashInit env
  | kiflashIcap die => Kiflash.kiflashIcap env die
  | kiflashProgramUser => Kiflash.kiflashProgramUser env
  | reimageWholeFlash => Kiflash.reimageWholeFlash env
  | assign data => do
    Prog.modify fun w => { w with flashData := data }
    pure .success

/-- A sequence of operations; what they return makes no difference to it.  A caller that stops
at a failure makes a shorter sequence. -/
def runAll {σ : Type} [XSpiDriver σ] (env : Env) : List Operation → Prog (World σ) Unit
  | [] => pure ()
  | operation :: operations => do
    let _ ← operation.run env
    runAll env operations

/-- The calls by which a client of the library changes its state.  `kiflash_getprogress` only
reads the percentage. -/
inductive LibraryCall where
  | init
  | programUser
  | icap (die : UInt32)
  deriving DecidableEq, Repr

/-- The call as an operation.  So a result on runs of operations is one on runs of the
library. -/
def LibraryCall.operation : LibraryCall → Operation
  | init => .kiflashInit
  | programUser => .kiflashProgramUser
  | icap die => .kiflashIcap die

/-- What the call runs.  It is the run of the operation, not a second definition. -/
def LibraryCall.run {σ : Type} [XSpiDriver σ] (env : Env) (call : LibraryCall) : Prog (World σ) Xst :=
  call.operation.run env

/-! ## What every run carries -/

/-- The events of a run that neither sends a frame nor writes outside the SPI core: reports,
and what the menu prints. -/
def unsent {σ : Type} : Set (Event σ) :=
  {e | (∃ value, e = .percentage value) ∨ e = .verifyPassed ∨ (∃ address, e = .label address) ∨
    ∃ value, e = .data value}

/-- `FlashData.percentage` behind these events, from what it was before them: the last store
counts. -/
def percentageAfter {σ : Type} (percentage : UInt32) : List (Event σ) → UInt32
  | [] => percentage
  | .percentage value :: es => percentageAfter value es
  | _ :: es => percentageAfter percentage es

/-- The events of the run tell what became of the percentage.  A statement about the
percentage is through this one about the record. -/
def Tracks {σ : Type} (w w' : World σ) : Prop :=
  ∃ es, w'.events = w.events ++ es ∧
    w'.flashData.percentage = percentageAfter w.flashData.percentage es

/-- The parts that operations are made of move along `r`.  The field `silent` stands for all
the code between them: the stores, the library calls and the prints, which do not reach the
bus. -/
structure Carries {σ : Type} [XSpiDriver σ] (env : Env) (r : World σ → World σ → Prop) : Prop where
  silent : ∀ {w w'}, w'.bus = w.bus → w'.qspiInitFlag = w.qspiInitFlag → Emits unsent w w' →
    Tracks w w' → r w w'
  pciWriteReg : ∀ address data, Moves r (pciWriteReg address data)
  ensureInit : Moves r (ensureInit env)
  setSlaveSelect : Moves r (callDriver (XSpiDriver.xspiSetSlaveSelect spiSelect))
  start : Moves r (callDriver XSpiDriver.xspiStart)
  spiFlashWriteEnable : Moves r (spiFlashWriteEnable env)
  spiFlashReadflagstatus : Moves r (spiFlashReadflagstatus env)
  spiFlashClrflagstatus : Moves r (spiFlashClrflagstatus env)
  spiFlashReadID : Moves r (spiFlashReadID env)
  spiFlashQuadEnable : Moves r (spiFlashQuadEnable env)
  spiFlashBulkErase : Moves r (check (Kiflash.spiFlashWriteEnable env) (spiFlashBulkErase env))
  spiFlashRead : ∀ addr byteCount readCmd, Moves r (spiFlashRead env addr byteCount readCmd)
  spiFlashWriteFile : ∀ addr byteCount writeCmd pageBuffer,
    Moves r (spiFlashWriteFile env addr byteCount writeCmd pageBuffer)
  spiFlashSectorErase : ∀ addr, Moves r (spiFlashSectorErase env addr)
  spiFlashDieErase : ∀ uscDieNr, Moves r (spiFlashDieErase env uscDieNr)

/-- A preorder that holds of whatever flash commands can do is carried by the operations.  The
driver calls and the commands are covered by the one hypothesis on `Talks`. -/
theorem Carries.of_talks {σ : Type} [XSpiDriver σ] {env : Env} {r : World σ → World σ → Prop}
    [IsPreorder (World σ) r]
    (silent : ∀ {w w'}, w'.bus = w.bus → w'.qspiInitFlag = w.qspiInitFlag → Emits unsent w w' →
      Tracks w w' → r w w')
    (write : ∀ address data, Moves r (Kiflash.pciWriteReg address data))
    (talks : ∀ w w', Talks Set.univ w w' → r w w') : Carries env r where
  silent := silent
  pciWriteReg := write
  ensureInit := (ensureInit_talks (Set.subset_univ _)).mono talks
  setSlaveSelect := (callDriver_talks (.setSlaveSelect _)).mono talks
  start := (callDriver_talks .start).mono talks
  spiFlashWriteEnable := (spiFlashWriteEnable_talks (Set.subset_univ _)).mono talks
  spiFlashReadflagstatus := (spiFlashReadflagstatus_talks (Set.subset_univ _)).mono talks
  spiFlashClrflagstatus := (spiFlashClrflagstatus_talks (Set.subset_univ _)).mono talks
  spiFlashReadID := (spiFlashReadID_talks (Set.subset_univ _)).mono talks
  spiFlashQuadEnable := (spiFlashQuadEnable_talks (Set.subset_univ _)).mono talks
  spiFlashBulkErase := ((spiFlashWriteEnable_talks (Set.subset_univ _)).mono talks).check
    ((spiFlashBulkErase_talks (Set.subset_univ _) (says_univ _)).mono talks)
  spiFlashRead _ _ _ := (spiFlashRead_talks (Set.subset_univ _) (says_univ _)).mono talks
  spiFlashWriteFile _ _ _ _ := (spiFlashWriteFile_talks (Set.subset_univ _) trivial).mono talks
  spiFlashSectorErase _ := (spiFlashSectorErase_talks (Set.subset_univ _) trivial).mono talks
  spiFlashDieErase _ := (spiFlashDieErase_talks (Set.subset_univ _) trivial).mono talks

section Tracks

variable {σ : Type} {w w' : World σ}

/-- The percentage behind two stretches of the record. -/
theorem percentageAfter_append (percentage : UInt32) (es es' : List (Event σ)) :
    percentageAfter percentage (es ++ es') = percentageAfter (percentageAfter percentage es) es' := by
  fun_induction percentageAfter percentage es with
  | case1 => rfl
  | case2 => simpa [percentageAfter]
  | case3 => simpa [percentageAfter]

/-- Events that are not stores to the percentage leave it as it was. -/
theorem percentageAfter_of_forall_ne {percentage : UInt32} {es : List (Event σ)}
    (h : ∀ e ∈ es, ∀ value, e ≠ .percentage value) : percentageAfter percentage es = percentage := by
  fun_induction percentageAfter percentage es with
  | case1 => rfl
  | case2 _ value => exact absurd rfl (h _ List.mem_cons_self value)
  | case3 _ _ _ _ ih => exact ih fun e he => h e (List.mem_cons_of_mem _ he)

instance : IsPreorder (World σ) Tracks where
  refl w := ⟨[], by simp, rfl⟩
  trans w₁ w₂ w₃ h h' := by
    obtain ⟨es, hes, hpercentage⟩ := h
    obtain ⟨es', hes', hpercentage'⟩ := h'
    refine ⟨es ++ es', by rw [hes', hes, List.append_assoc], ?_⟩
    rw [hpercentage', hpercentage, percentageAfter_append]

/-- Where neither the record nor the percentage changes, there is nothing to follow. -/
theorem Tracks.of_eq (events : w'.events = w.events)
    (percentage : w'.flashData.percentage = w.flashData.percentage) : Tracks w w' :=
  ⟨[], by simp [events], percentage⟩

/-- Events other than stores to the percentage. -/
theorem Tracks.of_forall_ne {es : List (Event σ)} (events : w'.events = w.events ++ es)
    (h : ∀ e ∈ es, ∀ value, e ≠ .percentage value)
    (percentage : w'.flashData.percentage = w.flashData.percentage) : Tracks w w' :=
  ⟨es, events, by rw [percentageAfter_of_forall_ne h, percentage]⟩

/-- Flash commands store nothing to the percentage, and record only transfers. -/
theorem Talks.tracks [XSpiDriver σ] {A : Set (List UInt8)} (h : Talks A w w') : Tracks w w' := by
  obtain ⟨es, hes, hspeaks⟩ := h.events
  refine .of_forall_ne hes (fun e he value => ?_) (by rw [h.flashData])
  rintro rfl
  exact hspeaks _ he

end Tracks

section Carries

variable {σ : Type} [XSpiDriver σ] {env : Env} {r : World σ → World σ → Prop}
variable [IsPreorder (World σ) r] (carries : Carries env r)

omit [XSpiDriver σ] in
/-- The labels and the bytes that `qspi_read_flash` prints for a page are not frames.  The
induction is on the indexes of the page. -/
theorem dumpLine_unsent {readBuffer : ℕ → UInt8} {startAddr : UInt32} (indexes : List ℕ)
    (cntLine : ℕ) :
    ∀ e ∈ (dumpLine (σ := σ) readBuffer startAddr indexes cntLine).1,
      e ∈ unsent ∧ ∀ value, e ≠ .percentage value := by
  have data : ∀ value, (.data value : Event σ) ∈ unsent ∧
      ∀ percentage, (.data value : Event σ) ≠ .percentage percentage :=
    fun value => ⟨.inr (.inr (.inr ⟨value, rfl⟩)), fun _ h => nomatch h⟩
  have label : ∀ address, (.label address : Event σ) ∈ unsent ∧
      ∀ percentage, (.label address : Event σ) ≠ .percentage percentage :=
    fun address => ⟨.inr (.inr (.inl ⟨address, rfl⟩)), fun _ h => nomatch h⟩
  induction indexes generalizing cntLine with
  | nil => intro e he; cases he
  | cons index indexes ih =>
      intro e he
      rw [dumpLine] at he
      split at he
      · rcases List.mem_cons.mp he with rfl | he
        · exact data _
        · rcases List.mem_cons.mp he with rfl | he
          · exact label _
          · exact ih _ e he
      · rcases List.mem_cons.mp he with rfl | he
        · exact data _
        · exact ih _ e he

namespace Carries

include carries

omit [IsPreorder (World σ) r] in
/-- A change of what is neither on the bus nor recorded. -/
theorem modify {f : World σ → World σ}
    (h : ∀ w, (f w).bus = w.bus ∧ (f w).qspiInitFlag = w.qspiInitFlag ∧ (f w).events = w.events ∧
      (f w).flashData.percentage = w.flashData.percentage) : Moves r (Prog.modify f) := by
  refine moves_modify fun w => ?_
  obtain ⟨bus, qspiInitFlag, events, percentage⟩ := h w
  exact carries.silent bus qspiInitFlag (.of_eq events) (.of_eq events percentage)

/-- A store to the percentage, in a relation that holds along every silent run. -/
theorem setPercentage {value : UInt32} : Moves r (setPercentage (σ := σ) env value) :=
  Moves.ite (moves_modify fun _ => carries.silent rfl rfl (.of_mem rfl (.inl ⟨value, rfl⟩))
    ⟨[.percentage value], rfl, rfl⟩) (moves_pure _)

omit [IsPreorder (World σ) r] in
theorem emit {e : Event σ} (he : e ∈ unsent) (hne : ∀ value, e ≠ .percentage value) :
    Moves r (emit e) :=
  moves_modify fun _ => carries.silent rfl rfl (.of_mem rfl he)
    (.of_forall_ne rfl (by simpa using hne) rfl)

omit [IsPreorder (World σ) r] in
theorem pcimemInit : Moves r (pcimemInit (σ := σ) env) := by
  intro w
  unfold Kiflash.pcimemInit
  split <;> exact carries.silent rfl rfl (.of_eq rfl) (.of_eq rfl rfl)

/-! ### Functions built of commands -/

theorem qspiEaseEntireFlash : Moves r (qspiEaseEntireFlash (σ := σ) env) :=
  carries.ensureInit.check carries.spiFlashBulkErase

theorem qspiEraseSectorFlash {ofsetAddr sectCount : UInt32} :
    Moves r (qspiEraseSectorFlash (σ := σ) env ofsetAddr sectCount) :=
  Moves.ite (Moves.checkLoop carries.spiFlashSectorErase _ _) (moves_pure _)

theorem qspiFlashGeo : Moves r (qspiFlashGeo (σ := σ) env) :=
  carries.ensureInit.check <| carries.spiFlashReadID.check <|
    carries.spiFlashReadflagstatus.bind fun _ => carries.spiFlashClrflagstatus.bind fun _ =>
    carries.spiFlashQuadEnable.check (moves_pure _)

theorem qspiFlashEraseMain (ofsetAddr dieCount : UInt32) :
    Moves r (qspiFlashEraseMain (σ := σ) env ofsetAddr dieCount) :=
  (carries.spiFlashDieErase _).check <| carries.spiFlashQuadEnable.check (moves_pure _)

theorem qspiWriteFlash {addr : UInt32} {data : ℕ → UInt8} :
    Moves r (qspiWriteFlash (σ := σ) env addr data) :=
  (carries.spiFlashWriteFile _ _ _ _).check (moves_pure _)

omit [IsPreorder (World σ) r] in
theorem clearReadBuffer : Moves r (clearReadBuffer (σ := σ)) :=
  carries.modify fun _ => ⟨rfl, rfl, rfl, rfl⟩

theorem blankCheckPage {startOffsetAddr : UInt32} :
    Moves r (blankCheckPage (σ := σ) env startOffsetAddr) :=
  carries.spiFlashWriteEnable.bind fun _ => carries.clearReadBuffer.bind fun _ =>
    (carries.spiFlashRead _ _ _).check <| (moves_gets _).bind fun _ =>
    (moves_pure _).ite (moves_pure _)

/-- The loop of `Spi_Blank_Check` over its pages. -/
theorem spiBlankCheck {startAddr noByteToRead : UInt32} :
    Moves r (spiBlankCheck (σ := σ) env startAddr noByteToRead) :=
  carries.ensureInit.bind fun _ => Moves.checkLoop (fun _ => carries.blankCheckPage) _ _

/-- The loop of `qspi_read_flash`, by the number of pages left. -/
theorem dumpPages (noOfPage : ℕ) (startAddr : UInt32) (cntLine : ℕ) :
    Moves r (dumpPages (σ := σ) env noOfPage startAddr cntLine) := by
  induction noOfPage generalizing startAddr cntLine with
  | zero => exact moves_pure _
  | succ n ih =>
      refine carries.spiFlashWriteEnable.check <| carries.clearReadBuffer.bind fun _ =>
        (carries.spiFlashRead _ _ _).check <| (moves_gets _).bind fun _ =>
        Moves.bind (moves_modify fun w => ?_) fun _ => ih _ _
      exact carries.silent rfl rfl ⟨_, rfl, fun e he => (dumpLine_unsent _ _ e he).1⟩
        (.of_forall_ne rfl (fun e he => (dumpLine_unsent _ _ e he).2) rfl)

theorem qspiReadFlash {startAddr noByteToRead : UInt32} :
    Moves r (qspiReadFlash (σ := σ) env startAddr noByteToRead) :=
  carries.ensureInit.check <|
    ((carries.emit (.inr (.inr (.inl ⟨startAddr, rfl⟩))) fun _ h => nomatch h).bind fun _ =>
      carries.dumpPages _ _ _).ite (moves_pure _)

/-! ### Image files -/

omit [IsPreorder (World σ) r] in
theorem mallocPage : Moves r (mallocPage (σ := σ) env) :=
  fun _ => carries.silent rfl rfl (.of_eq rfl) (.of_eq rfl rfl)

theorem programPage {baseStartAddr startAddr : UInt32} {file : File} :
    Moves r (programPage (σ := σ) env baseStartAddr file startAddr) :=
  (carries.mallocPage.bind fun _ => moves_pure _).bind fun _ =>
    carries.spiFlashWriteEnable.check (carries.spiFlashWriteFile _ _ _ _)

theorem verifyPage {baseStartAddr startAddr : UInt32} {file : File} :
    Moves r (verifyPage (σ := σ) env baseStartAddr file startAddr) :=
  (carries.mallocPage.bind fun _ => moves_pure _).bind fun _ => carries.spiFlashWriteEnable.check <|
    carries.clearReadBuffer.bind fun _ => (carries.spiFlashRead _ _ _).check <|
    (moves_gets _).bind fun _ => (moves_pure _).ite (moves_pure _)

theorem reportProgress {base : ℚ} {totalPage : UInt32} {it : PageLoop} :
    Moves r (reportProgress (σ := σ) env base totalPage it) :=
  carries.setPercentage.ite (moves_pure _)

/-- What the page function and the reports of an image function carry, the whole function
carries: the opening of the file, the erase bookkeeping in front of the loop and the `fclose`
behind it are silent or commands. -/
theorem imageFile {filename : String} {report : UInt32 → PageLoop → Prog (World σ) Unit}
    {page : File → UInt32 → Prog (World σ) Xst} {finish : Prog (World σ) Unit}
    (hreport : ∀ totalPage it, Moves r (report totalPage it))
    (hpage : ∀ file startAddr, Moves r (page file startAddr)) (hfinish : Moves r finish) :
    Moves r (imageFile env filename report page finish) := by
  refine Moves.bind (fun _ => carries.silent rfl rfl (.of_eq rfl) (.of_eq rfl rfl))
    fun fp => ?_
  cases fp with
  | none => exact moves_pure _
  | some file =>
      exact carries.ensureInit.check <| carries.setSlaveSelect.check <| carries.start.bind fun _ =>
        carries.spiFlashWriteEnable.check <|
        (Moves.checkLoop (fun _ => (hreport _ _).bind fun _ => hpage _ _) _ _).check <|
        hfinish.bind fun _ => Moves.bind (carries.modify fun _ => ⟨rfl, rfl, rfl, rfl⟩) fun _ =>
        moves_pure _

theorem qspiProgramBin : Moves r (qspiProgramBin (σ := σ) env) :=
  (moves_gets _).bind fun _ => carries.imageFile (fun _ _ => carries.reportProgress)
    (fun _ _ => carries.programPage) (moves_pure _)

theorem qspiVerifyBin : Moves r (qspiVerifyBin (σ := σ) env) :=
  (moves_gets _).bind fun _ => carries.imageFile (fun _ _ => carries.reportProgress)
    (fun _ _ => carries.verifyPage) (carries.emit (.inr (.inl rfl)) fun _ h => nomatch h)

theorem qspiProgramFlash {startDie : UInt32} : Moves r (qspiProgramFlash (σ := σ) env startDie) :=
  carries.imageFile (fun _ _ => moves_pure _) (fun _ _ => carries.programPage) (moves_pure _)

theorem qspiVerifyFlash {startDie : UInt32} : Moves r (qspiVerifyFlash (σ := σ) env startDie) :=
  carries.imageFile (fun _ _ => moves_pure _) (fun _ _ => carries.verifyPage) (moves_pure _)

/-- A programming call, by its stages.  The stages are its erase, the programming and the
verification, with the percentages in between. -/
theorem program (call : ProgramCall) : Moves r (call.run (σ := σ) env) := by
  have mark : ∀ value, Moves r (call.mark (σ := σ) env value) := by
    intro value
    cases call with
    | user => exact carries.setPercentage
    | golden | timer => exact moves_pure _
  have erase : Moves r (eraseStage (σ := σ) env (call.mark env) call.eraseFrom call.erase) :=
    Moves.ite ((moves_gets _).bind fun _ => carries.qspiEraseSectorFlash.bind fun _ =>
      (mark _).bind fun _ => moves_pure _) (moves_pure _)
  rw [call.run_eq]
  exact (mark _).bind fun _ => erase.check <| (mark _).bind fun _ =>
    carries.qspiProgramBin.check <| (mark _).bind fun _ => carries.qspiVerifyBin.check <|
    (mark _).bind fun _ => moves_pure _

/-! ### The entry points -/

/-- The reboot: its register writes, one after the other. -/
theorem icap {die : UInt32} : Moves r (icap (σ := σ) die) := by
  have words : ∀ ws, Moves r (icapWords (σ := σ) ws) := by
    intro ws
    induction ws with
    | nil => exact moves_pure _
    | cons word ws ih => exact (carries.pciWriteReg _ _).bind fun _ => ih
  exact (words _).bind fun _ => (carries.pciWriteReg _ _).bind fun _ => moves_pure _

theorem kiflashInit : Moves r (kiflashInit (σ := σ) env) :=
  Moves.bind (carries.modify fun _ => ⟨rfl, rfl, rfl, rfl⟩) fun _ => carries.setPercentage.bind fun _ =>
    carries.pcimemInit.bind fun _ => carries.ensureInit.check (moves_pure _)

theorem kiflashIcap {die : UInt32} : Moves r (kiflashIcap (σ := σ) env die) :=
  (moves_gets _).bind fun _ => Moves.ite (Moves.bind (moves_pure _) fun _ => carries.icap)
    (carries.kiflashInit.bind fun _ => carries.icap)

omit [IsPreorder (World σ) r] in
theorem selectRegion {region : Region} : Moves r (selectRegion (σ := σ) region) :=
  carries.modify fun _ => ⟨rfl, rfl, rfl, rfl⟩

theorem kiflashProgramUser : Moves r (kiflashProgramUser (σ := σ) env) :=
  carries.kiflashInit.bind fun _ => carries.selectRegion.bind fun _ =>
    carries.setPercentage.bind fun _ => (carries.program (.user 1)).check <|
    carries.icap.bind fun _ => carries.setPercentage.bind fun _ => moves_pure _

theorem reimageWholeFlash : Moves r (reimageWholeFlash (σ := σ) env) :=
  (carries.spiFlashDieErase _).check <| (carries.spiFlashDieErase _).check <|
    (carries.spiFlashDieErase _).check <| (carries.spiFlashDieErase _).check <|
    carries.selectRegion.bind fun _ => (carries.program (.timer 1 1)).check <|
    carries.selectRegion.bind fun _ => (carries.program (.timer 2 1)).check <|
    carries.selectRegion.bind fun _ => (carries.program (.golden 0)).check <|
    carries.selectRegion.bind fun _ => (carries.program (.user 0)).check carries.icap

variable (hassign : ∀ data w, r w { w with flashData := data })
include hassign

/-- One operation, by the case of the call.  An operation is made of the parts that `Carries`
names, so each case is put together from its fields. -/
theorem run (operation : Operation) : Moves r (operation.run (σ := σ) env) := by
  cases operation with
  | spiFlashRead => exact carries.spiFlashRead _ _ _
  | spiFlashWriteFile => exact carries.spiFlashWriteFile _ _ _ _
  | spiFlashSectorErase => exact carries.spiFlashSectorErase _
  | spiFlashDieErase => exact carries.spiFlashDieErase _
  | spiFlashQuadEnable => exact carries.spiFlashQuadEnable
  | spiFlashReadID => exact carries.spiFlashReadID
  | spiFlashReadflagstatus => exact carries.spiFlashReadflagstatus
  | spiFlashClrflagstatus => exact carries.spiFlashClrflagstatus
  | qspiEaseEntireFlash => exact carries.qspiEaseEntireFlash
  | qspiEraseSectorFlash => exact carries.qspiEraseSectorFlash
  | qspiFlashGeo => exact carries.qspiFlashGeo
  | qspiFlashEraseMain ofsetAddr dieCount => exact carries.qspiFlashEraseMain ofsetAddr dieCount
  | qspiWriteFlash => exact carries.qspiWriteFlash
  | qspiReadFlash => exact carries.qspiReadFlash
  | spiBlankCheck => exact carries.spiBlankCheck
  | qspiProgramBin => exact carries.qspiProgramBin
  | qspiVerifyBin => exact carries.qspiVerifyBin
  | downloadSerialDataToQSPIFlash => exact carries.qspiProgramFlash.bind fun _ => moves_pure _
  | qspiVerifyFlash => exact carries.qspiVerifyFlash
  | program call => exact carries.program call
  | kiflashInit => exact carries.kiflashInit
  | kiflashIcap => exact carries.kiflashIcap
  | kiflashProgramUser => exact carries.kiflashProgramUser
  | reimageWholeFlash => exact carries.reimageWholeFlash
  | assign => exact Moves.bind (moves_modify (hassign _)) fun _ => moves_pure _

/-- **A run carries what its operations carry.**  The induction is on the sequence; an
operation that stops the program ends it early.  The relation is reflexive and transitive, so
a run of no operations and a run that stops carry it as well. -/
theorem runAll (operations : List Operation) : Moves r (runAll (σ := σ) env operations) := by
  induction operations with
  | nil => exact moves_pure _
  | cons operation operations ih => exact (carries.run hassign operation).bind fun _ => ih

end Carries

end Carries

end Kiflash
