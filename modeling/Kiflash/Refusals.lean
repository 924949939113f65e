import Kiflash.Files
import Kiflash.Mirroring
import Kiflash.Openings

/-!
# Why a programming call gives up in front of its first page

Between its erase and its first page program a programming call opens the image, starts the
driver if nobody has, and enables writes.  This module says when that fails: besides the
transfers there are the file, which may be missing, and the calls of the driver that are no
transfers.

* `DriverRefuses` — the startup or the selection of the slave is turned down.
* `ProgramCall.Refused` — this, or no image.
* `ProgramCall.Unverified` — an image without pages, whose verification fails.
* `closing_givesUp_iff` — when such a verification fails.
* `openingTo_closing_givesUp_iff` — the steps give up where one of their transfers fails, or
  for one of these reasons.

### Why the reasons are kept apart from the transfers

A driver that does not accept its configuration, or a file that is not there, makes the call
fail as much as a failing transfer does, but there is no status of a transfer in it.  Both are
conditions on the state in front of the step: on the answer of the file system to the next
`fopen`, on the flag, and on what the driver's functions return from the state of the bus.

### An image without pages

This is the one case in which the call gets past these steps without a page program.  What is
left of it then is its verification, which neither erases nor programs.  The verification
opens the file once more, and the file system may give it another one this time, with pages to
compare.  So there is a third reason: a page that was read is not the one of the file.
`VerifyDiffers` goes through the rounds of the page loop that take place, and applies the
comparison of the source to what the reads in front of it have left in `ReadBuffer`.

### How the reasons are shown to be all

A function whose failures all come from transfers has the property `BlamesFrom` of
`Kiflash.Imperative.Journal`.  The functions here have it from the states in which the driver
does not refuse, and a round of the verification from those in which its page does not differ.
The loop has it if its rounds have, and with the other direction, that no transfer fails
unnoticed, this gives the equivalences.
-/

open Imperative Imperative.Prog

namespace Kiflash

/-! ## The reasons -/

section Definitions

variable {σ : Type} [XSpiDriver σ] (env : Env)

/-- The driver turns down the startup, or the selection of the slave.  A startup is only tried
where `qspi_init_flag` is clear. -/
def DriverRefuses (w : World σ) : Prop :=
  w.qspiInitFlag = false ∧ (∀ configPtr, xspiLookupConfig spiDeviceId = some configPtr →
      (bootCalls configPtr w.bus).1 ≠ .success) ∨
    ∃ w₁, ensureInit env w = (.ret .success, w₁) ∧
      (XSpiDriver.xspiSetSlaveSelect spiSelect w₁.bus).1 ≠ .success

/-- The state in which a programming call opens its image.  The stores to the percentage are
all that lies between. -/
def ProgramCall.marked (call : ProgramCall) (w : World σ) : World σ :=
  (call.mark env 20 (call.mark env 20 w).2).2

/-- What keeps a call from its first page program besides a transfer: its image is missing, or the
driver refuses. -/
def ProgramCall.Refused (call : ProgramCall) (w : World σ) : Prop :=
  ∀ file, env.fopen w.fopens w.flashData.pathname = some file →
    DriverRefuses env ((call.marked env w).opened (some file))

/-- What keeps `qspi_verify_bin` from its pages besides a transfer: its image is missing, or
the driver refuses.  The state is the one in which it opens its file. -/
def VerifyRefused (w : World σ) : Prop :=
  ∀ file, env.fopen w.fopens w.flashData.pathname = some file →
    DriverRefuses env (w.opened (some file))

/-- A round of `qspi_verify_bin` up to its comparison: the report, the page of the file, and
the read of the page from the flash. -/
def verifyRead (baseStartAddr : UInt32) (file : File) (it : PageLoop) : Prog (World σ) Xst := do
  reportProgress env 60 (pageCount file.ftell) it
  let _ ← readPage env file it.startAddr
  check (spiFlashWriteEnable env) do
    clearReadBuffer
    spiFlashRead env (baseStartAddr + it.startAddr) pageSize command4byteQuadOutputFastRead

/-- The round that begins in this state reads its page, and the page is not that of the file.
The comparison is `isEqual`, with the buffer that the round has filled. -/
def PageDiffers (baseStartAddr : UInt32) (file : File) (it : PageLoop) (w : World σ) : Prop :=
  ∃ w₁, verifyRead env baseStartAddr file it w = (.ret .success, w₁) ∧
    isEqual w₁.readBuffer (fread file it.startAddr (env.malloc w.mallocs)) = false

/-- A page that `qspi_verify_bin` comes to is not that of the file.  It comes to a page if the
driver has let it through and all pages in front of it were read and equal. -/
def VerifyDiffers (w : World σ) : Prop :=
  ∃ file w₁, env.fopen w.fopens w.flashData.pathname = some file ∧
    ImageFunction.setup env (w.opened (some file)) = (.ret .success, w₁) ∧
    ∃ v ∈ checkVisits (ImageFunction.verifyBin.round env w.flashData.baseAddr file)
        (PageLoop.next (pageCount file.ftell)) (pageCount file.ftell).toNat
        ⟨pageCount file.ftell, 0, 0⟩ w₁,
      PageDiffers env w.flashData.baseAddr file v.1 v.2

/-- The state in which the verification of an image without pages opens its file.  Between the
two only the percentage may have been stored. -/
def ProgramCall.closed (call : ProgramCall) (w : World σ) : World σ :=
  (call.mark env 60 (fclose w).2).2

/-- An image without pages, and a verification whose transfers fail, that is kept from its
pages, or that finds one which differs. -/
def ProgramCall.Unverified (call : ProgramCall) (w : World σ) : Prop :=
  ∃ file w₁, env.fopen w.fopens w.flashData.pathname = some file ∧ pageCount file.ftell = 0 ∧
    call.opening env w = (.ret .success, w₁) ∧
    (FailsIn (call.closing env) w₁ ∨ (call.closing env w₁).1 = .stop .wild ∨
      VerifyRefused env (call.closed env w₁) ∨ VerifyDiffers env (call.closed env w₁))

end Definitions

/-! ## The front of an image file -/

section Front

variable {σ : Type} [XSpiDriver σ] {env : Env} {excused : World σ → Prop} {w : World σ}

omit [XSpiDriver σ] in
/-- A driver call that succeeds has nothing to be blamed for. -/
theorem callDriver_blamesFrom {call : σ → Xst × σ} (hfree : ErrorFree w)
    (h : (call w.bus).1 = .success) : transferJournal.BlamesFrom ErrorFree (callDriver call) w :=
  ⟨hfree, [], (List.append_nil _).symm, fun hne => absurd h hne⟩

/-- A startup that the driver does not turn down fails with a transfer, if it fails.  The only
step of it that is a transfer is the write enable at its end. -/
theorem ensureInit_blamesFrom (hfree : ErrorFree w)
    (h : ¬ (w.qspiInitFlag = false ∧ ∀ configPtr, xspiLookupConfig spiDeviceId = some configPtr →
      (bootCalls configPtr w.bus).1 ≠ .success)) :
    transferJournal.BlamesFrom ErrorFree (ensureInit env) w := by
  by_cases hflag : w.qspiInitFlag = true
  · exact (wp_of_ret (ensureInit_of_flag env hflag)).mpr
      ⟨hfree, [], (List.append_nil _).symm, fun hne => absurd rfl hne⟩
  · obtain ⟨configPtr, hconfig, hboot⟩ : ∃ configPtr, xspiLookupConfig spiDeviceId = some configPtr ∧
        (bootCalls configPtr w.bus).1 = .success := by
      by_contra hno
      exact h ⟨Bool.eq_false_of_not_eq_true hflag, fun configPtr hconfig hboot =>
        hno ⟨configPtr, hconfig, hboot⟩⟩
    rw [Journal.BlamesFrom, wp, ensureInit_of_not_flag env hflag, systemInitStartup_eq, hconfig]
    exact ((callDriver_blamesFrom hfree hboot).check fun w₁ _ h₁ =>
      spiFlashWriteEnable_blames.check .pure_ok w₁ h₁).check fun w₁ _ h₁ =>
        .bind ⟨h₁, [], (List.append_nil _).symm, fun _ he => absurd he List.not_mem_nil⟩
          fun _ w₂ _ h₂ => .pure_ok h₂

/-- The front is what both image functions begin with, and the pages. -/
theorem imageFront_eq (pages : Prog (World σ) Xst) :
    imageFront env pages = check (ImageFunction.setup env) pages := by
  rw [ImageFunction.setup, check_assoc, check_assoc, ← bind_check]
  rfl

/-- The front heeds its failures if the pages do. -/
theorem imageFront_heedful {pages : Prog (World σ) Xst} (hpages : Heedful excused pages) :
    Heedful excused (imageFront env pages) :=
  .check ensureInit_heedful <| .check (.silent (callDriver_unsent _)) <|
    .bind (callDriver_unsent _) fun _ => .check spiFlashWriteEnable_heedful hpages

/-- Where the driver does not refuse, a front that fails has had a failing transfer.  The two
calls of the driver in it are those that `DriverRefuses` is about. -/
theorem setup_blamesFrom (hfree : ErrorFree w) (h : ¬ DriverRefuses env w) :
    transferJournal.BlamesFrom ErrorFree (ImageFunction.setup env) w := by
  obtain ⟨hboot, hselect⟩ := not_or.mp h
  refine (ensureInit_blamesFrom hfree hboot).check fun w₁ hrun hfree₁ => ?_
  refine (callDriver_blamesFrom hfree₁ ?_).check fun w₂ _ hfree₂ => ?_
  · by_contra hne
    exact hselect ⟨w₁, hrun, hne⟩
  · exact .bind ⟨hfree₂, [], (List.append_nil _).symm, fun _ he => absurd he List.not_mem_nil⟩
      fun _ w₃ _ hfree₃ => spiFlashWriteEnable_blames w₃ hfree₃

/-- The same with pages behind it. -/
theorem imageFront_blamesFrom {pages : Prog (World σ) Xst} (hfree : ErrorFree w)
    (h : ¬ DriverRefuses env w) (hpages : Blames pages) :
    transferJournal.BlamesFrom ErrorFree (imageFront env pages) w := by
  rw [imageFront_eq]
  exact (setup_blamesFrom hfree h).check fun w₁ _ hfree₁ => hpages w₁ hfree₁

/-- The pages in two parts. -/
theorem imageFront_check (pages k : Prog (World σ) Xst) :
    check (imageFront env pages) k = imageFront env (check pages k) := by
  rw [imageFront_eq, imageFront_eq, check_assoc]

/-- A driver that refuses ends the call in front of the pages.  It is refused by the startup
or by the slave select, and both are checked. -/
theorem setup_givesUp (h : DriverRefuses env w) : GivesUp (ImageFunction.setup env w).1 := by
  rcases h with ⟨hflag, hboot⟩ | ⟨w₁, hrun, hselect⟩
  · have hconfig : xspiLookupConfig spiDeviceId = xspiConfigTable.head? := by decide
    have hno : ¬ w.qspiInitFlag = true := by
      rw [hflag]
      exact Bool.false_ne_true
    refine givesUp_check_iff.mpr (.inl ?_)
    rw [ensureInit_of_not_flag env hno, systemInitStartup_eq, hconfig]
    exact givesUp_check_iff.mpr <| .inl <| givesUp_check_iff.mpr <| .inl <|
      givesUp_of_ne (hboot _ hconfig)
  · exact givesUp_check_iff.mpr <| .inr ⟨w₁, hrun, givesUp_check_iff.mpr (.inl (givesUp_of_ne hselect))⟩

/-- A driver that refuses ends the call, whatever the pages are. -/
theorem imageFront_givesUp (h : DriverRefuses env w) (pages : Prog (World σ) Xst) :
    GivesUp (imageFront env pages w).1 := by
  rw [imageFront_eq]
  exact givesUp_check_iff.mpr (.inl (setup_givesUp h))

omit [XSpiDriver σ] in
/-- A step without transfers, in front of others. -/
theorem silent_blamesFrom {α : Type} {m : Prog (World σ) α} {f : α → Prog (World σ) Xst}
    (hkeeps : Moves (Keeps ErrorFree) m) (hm : Moves (Emits unsent) m) (hfree : ErrorFree w)
    (hf : ∀ a w', m w = (.ret a, w') → ErrorFree w' →
      transferJournal.BlamesFrom ErrorFree (f a) w') :
    transferJournal.BlamesFrom ErrorFree (m >>= f) w :=
  .bind (wp_mono (wp_and (hkeeps.wp w) (hm.wp w)) (fun _ _ h => ⟨h.1 hfree, h.2.univ⟩)
    fun _ _ _ => trivial) hf

omit [XSpiDriver σ] in
/-- The same for programs that blame their transfers from every state. -/
theorem silent_blames {α : Type} {m : Prog (World σ) α} {f : α → Prog (World σ) Xst}
    (hkeeps : Moves (Keeps ErrorFree) m) (hm : Moves (Emits unsent) m) (hf : ∀ a, Blames (f a)) :
    Blames (m >>= f) :=
  fun _ hfree => silent_blamesFrom hkeeps hm hfree fun a w' _ => hf a w'

omit [XSpiDriver σ] in
/-- The report of a round leaves the error count alone. -/
theorem reportProgress_errorFree (base : ℚ) (totalPage : UInt32) (it : PageLoop) :
    Moves (Keeps ErrorFree) (reportProgress (σ := σ) env base totalPage it) :=
  ((moves_modify fun _ => id).ite (moves_pure _)).ite (moves_pure _)

omit [XSpiDriver σ] in
/-- So does the buffer of a page. -/
theorem readPage_errorFree (file : File) (startAddr : UInt32) :
    Moves (Keeps ErrorFree) (readPage (σ := σ) env file startAddr) :=
  Moves.bind (fun _ => id) fun _ => moves_pure _

/-- The first round up to its page program fails with a transfer. -/
theorem firstPageReady_blames (file : File) : Blames (firstPageReady (σ := σ) env file) := by
  refine silent_blames (reportProgress_errorFree _ _ _) (reportProgress_unsent _ _ _) fun _ =>
    silent_blames (readPage_errorFree _ _) (readPage_unsent _ _) fun _ =>
    spiFlashWriteEnable_blames.check ?_
  exact (enabledCommand_blames _).check (spiFlashWriteEnable_blames.check spiFlashWaitForFlashReady_blames)

theorem firstPageReady_heedful (file : File) :
    Heedful excused (firstPageReady (σ := σ) env file) :=
  .bind (reportProgress_unsent _ _ _) fun _ => .bind (readPage_unsent _ _) fun _ =>
    .check spiFlashWriteEnable_heedful <| .check (enabledCommand_heedful _) <|
    .check spiFlashWriteEnable_heedful spiFlashWaitForFlashReady_heedful

end Front

/-! ## The verification of an image without pages -/

section Verification

variable {σ : Type} [XSpiDriver σ] {env : Env} {excused : World σ → Prop} {w : World σ}
variable {baseStartAddr : UInt32} {file : File} {it : PageLoop}

/-- A round of the verification reads its page, and compares it with what the file had put into
the buffer. -/
theorem verifyRound_eq (w : World σ) :
    ImageFunction.verifyBin.round env baseStartAddr file it w =
      check (verifyRead env baseStartAddr file it) (do
        let readBuffer ← gets fun w => w.readBuffer
        if isEqual readBuffer (fread file it.startAddr (env.malloc w.mallocs)) then pure .success
        else pure .failure) w := by
  obtain ⟨percentage, events, hreport⟩ := reportProgress_eq env 60 (pageCount file.ftell) it w
  change (reportProgress env 60 (pageCount file.ftell) it >>= fun _ =>
    verifyPage env baseStartAddr file it.startAddr) w = _
  unfold verifyRead verifyPage
  rw [← bind_check, bind_of_ret hreport, bind_of_ret hreport, ← bind_check]
  change check _ _ _ = check _ _ _
  rw [check_assoc, ← bind_check]

/-- The steps in front of the comparison fail with a transfer. -/
theorem verifyRead_blames : Blames (verifyRead (σ := σ) env baseStartAddr file it) := by
  refine silent_blames (reportProgress_errorFree _ _ _) (reportProgress_unsent _ _ _) fun _ =>
    silent_blames (readPage_errorFree _ _) (readPage_unsent _ _) fun _ =>
    spiFlashWriteEnable_blames.check ?_
  refine silent_blames (moves_modify fun _ => id) (modify_unsent fun _ => rfl) fun _ => ?_
  rw [spiFlashRead_eq]
  exact (enabledCommand_blames _).check <| spiFlashWriteEnable_blames.check <|
    spiFlashWaitForFlashReady_blames.check <| .check (send_blames _ _ _ _) (enabledCommand_blames _)

/-- A page that is not the one of the file makes the round give up. -/
theorem PageDiffers.givesUp (h : PageDiffers env baseStartAddr file it w) :
    GivesUp (ImageFunction.verifyBin.round env baseStartAddr file it w).1 := by
  obtain ⟨w₁, hread, hdiffers⟩ := h
  rw [verifyRound_eq]
  refine givesUp_check_iff.mpr (.inr ⟨w₁, hread, ?_⟩)
  change GivesUp ((if isEqual w₁.readBuffer _ then pure Xst.success else pure .failure :
    Prog (World σ) Xst) w₁).1
  rw [hdiffers]
  exact givesUp_of_ne (by decide)

/-- Otherwise a round that fails has had a failing transfer. -/
theorem verifyRound_blamesFrom (hfree : ErrorFree w)
    (h : ¬ PageDiffers env baseStartAddr file it w) :
    transferJournal.BlamesFrom ErrorFree (ImageFunction.verifyBin.round env baseStartAddr file it)
      w := by
  rw [Journal.BlamesFrom, wp, verifyRound_eq]
  refine Journal.BlamesFrom.check (verifyRead_blames w hfree) fun w₁ hread hfree₁ => ?_
  have hequal : isEqual w₁.readBuffer (fread file it.startAddr (env.malloc w.mallocs)) = true := by
    by_contra hno
    exact h ⟨w₁, hread, Bool.eq_false_of_not_eq_true hno⟩
  refine silent_blamesFrom (moves_gets _) (moves_gets _) hfree₁ fun readBuffer w₂ hgets hfree₂ => ?_
  cases hgets
  rw [if_pos hequal]
  exact .pure_ok hfree₂

/-- What keeps `qspi_verify_bin` from its pages, and what it finds wrong with them, make it
give up.  The page that differs is found by the code's own comparison, in the round that reads
it. -/
theorem qspiVerifyBin_givesUp (h : VerifyRefused env w ∨ VerifyDiffers env w) :
    GivesUp (qspiVerifyBin env w).1 := by
  change GivesUp (ImageFunction.verifyBin.run env w).1
  rcases hopen : env.fopen w.fopens w.flashData.pathname with _ | file
  · rw [ImageFunction.run_of_none hopen]
    exact givesUp_of_ne (by decide)
  · rw [ImageFunction.run_of_some hopen]
    refine givesUp_check_iff.mpr (.inl ?_)
    rcases h with hrefused | ⟨_, w₁, hfile, hsetup, v, hv, hdiffers⟩
    · exact givesUp_check_iff.mpr (.inl (setup_givesUp (hrefused file hopen)))
    · cases hopen.symm.trans hfile
      exact givesUp_check_iff.mpr (.inr ⟨w₁, hsetup, givesUp_checkLoop hv hdiffers.givesUp⟩)

/-- Nothing else does but a transfer.  The cases are those in which the call could give up;
without the two of them, only its transfers are left. -/
theorem qspiVerifyBin_blamesFrom (hfree : ErrorFree w) (hrefused : ¬ VerifyRefused env w)
    (hdiffers : ¬ VerifyDiffers env w) :
    transferJournal.BlamesFrom ErrorFree (qspiVerifyBin env) w := by
  simp only [VerifyRefused, not_forall] at hrefused
  obtain ⟨file, hopen, hno⟩ := hrefused
  have hrun : ImageFunction.verifyBin.run env w = _ := ImageFunction.run_of_some hopen
  have hverify : qspiVerifyBin env w = _ := hrun
  have hfree₁ : ErrorFree (w.opened (some file)) := hfree
  have hbody : transferJournal.BlamesFrom ErrorFree
      (ImageFunction.verifyBin.body env w.flashData.baseAddr file) (w.opened (some file)) :=
    (setup_blamesFrom hfree₁ hno).check fun w₁ hsetup hfree₂ =>
      .checkLoop hfree₂ fun v hv hfree₃ => verifyRound_blamesFrom hfree₃ fun h =>
        hdiffers ⟨file, w₁, hopen, hsetup, v, hv, h⟩
  rw [Journal.BlamesFrom, wp, hverify]
  exact hbody.check fun w₁ _ hfree₂ =>
    silent_blamesFrom (moves_modify fun _ => id)
      (moves_modify fun _ => .of_mem rfl (.inr (.inl rfl))) hfree₂ fun _ w₂ _ hfree₃ =>
    silent_blamesFrom (moves_modify fun _ => id) (modify_unsent fun _ => rfl) hfree₃ fun _ _ _ =>
    .pure_ok

omit [XSpiDriver σ] in
/-- A store to the percentage leaves the error count alone. -/
theorem mark_errorFree (call : ProgramCall) (value : UInt32) :
    Moves (Keeps ErrorFree) (call.mark (σ := σ) env value) := by
  intro w hfree
  obtain ⟨percentage, events, hmark⟩ := mark_eq env call value w
  rw [hmark]
  exact hfree

/-- What is left of such a call is its verification. -/
theorem closing_eq (call : ProgramCall) (w : World σ) :
    call.closing env w = check (qspiVerifyBin env) (do
      call.mark env 100
      pure .success) (call.closed env w) := by
  obtain ⟨percentage, events, hmark⟩ := mark_eq env call 60 (fclose w).2
  rw [ProgramCall.closed, hmark]
  exact bind_of_ret hmark

/-- The verification checks every status, -/
theorem closing_heedful (call : ProgramCall) : Heedful excused (call.closing (σ := σ) env) :=
  .bind (modify_unsent fun _ => rfl) fun _ => .bind (mark_unsent _ _) fun _ =>
    .check qspiVerifyBin_heedful <| .bind (mark_unsent _ _) fun _ => .pure _

/-- and what it returns has a transfer behind it, where nothing is wrong with the image. -/
theorem closing_blamesFrom {call : ProgramCall} (hfree : ErrorFree w)
    (hrefused : ¬ VerifyRefused env (call.closed env w))
    (hdiffers : ¬ VerifyDiffers env (call.closed env w)) :
    transferJournal.BlamesFrom ErrorFree (call.closing env) w := by
  refine silent_blamesFrom (moves_modify fun _ => id) (modify_unsent fun _ => rfl) hfree ?_
  intro _ w₁ hclose hfree₁
  refine silent_blamesFrom (mark_errorFree call 60) (mark_unsent call 60) hfree₁ ?_
  intro _ w₂ hmark hfree₂
  obtain rfl : call.closed env w = w₂ := by
    rw [ProgramCall.closed, hclose]
    exact congrArg Prod.snd hmark
  exact (qspiVerifyBin_blamesFrom hfree₂ hrefused hdiffers).check fun w₃ _ hfree₃ =>
    silent_blamesFrom (mark_errorFree call 100) (mark_unsent call 100) hfree₃ fun _ _ _ => .pure_ok

/-- **Why the verification of an image without pages fails**: one of its transfers does, or
something keeps it from its pages, or a page differs.  In the last two cases it fails whatever
its transfers do. -/
theorem closing_givesUp_iff {call : ProgramCall} (hfree : ErrorFree w) :
    GivesUp (call.closing env w).1 ↔ FailsIn (call.closing env) w ∨
      (call.closing env w).1 = .stop .wild ∨ VerifyRefused env (call.closed env w) ∨
        VerifyDiffers env (call.closed env w) := by
  by_cases hstops : VerifyRefused env (call.closed env w) ∨ VerifyDiffers env (call.closed env w)
  · refine iff_of_true ?_ (.inr (.inr hstops))
    rw [closing_eq]
    exact givesUp_check_iff.mpr (.inl (qspiVerifyBin_givesUp hstops))
  · obtain ⟨hrefused, hdiffers⟩ := not_or.mp hstops
    rw [givesUp_iff_failsIn (closing_heedful call) (closing_blamesFrom hfree hrefused hdiffers),
      or_iff_left hstops]

end Verification

/-! ## The opening of a programming call -/

section Opening

variable {σ : Type} [XSpiDriver σ] {env : Env} {call : ProgramCall} {w : World σ}

omit [XSpiDriver σ] in
/-- The stores to the percentage change nothing else, and are recorded without a frame. -/
theorem marked_eq (env : Env) (call : ProgramCall) (w : World σ) : ∃ percentage events,
    call.marked env w = { w with flashData := { w.flashData with percentage }, events } ∧
      Emits unsent w (call.marked env w) := by
  have hemits : Emits unsent w (call.marked env w) :=
    trans_of _ (mark_unsent call 20 w) (mark_unsent call 20 _)
  obtain ⟨percentage, events, hfirst⟩ := mark_eq env call 20 w
  obtain ⟨percentage', events', hsecond⟩ := mark_eq env call 20 (call.mark env 20 w).2
  refine ⟨percentage', events', ?_, hemits⟩
  rw [ProgramCall.marked, hsecond, hfirst]

/-- The opening, by the answer to `fopen`. -/
theorem openingTo_eq (env : Env) (call : ProgramCall) (w : World σ) (unpaged : Prog (World σ) Xst) :
    call.openingTo env unpaged w = (match env.fopen w.fopens w.flashData.pathname with
      | none => (pure .failure : Prog (World σ) Xst)
      | some file =>
        imageFront env (if pageCount file.ftell = 0 then unpaged else firstPageReady env file))
      ((call.marked env w).opened (env.fopen w.fopens w.flashData.pathname)) := by
  obtain ⟨percentage, events, hmarked, -⟩ := marked_eq env call w
  obtain ⟨_, _, hfirst⟩ := mark_eq env call 20 w
  obtain ⟨_, _, hsecond⟩ := mark_eq env call 20 (call.mark env 20 w).2
  have hfirst' : call.mark env 20 w = (.ret (), (call.mark env 20 w).2) := by rw [hfirst]
  have hsecond' : call.mark env 20 (call.mark env 20 w).2 = (.ret (), call.marked env w) := by
    rw [ProgramCall.marked, hsecond]
  rw [ProgramCall.openingTo, bind_of_ret hfirst', bind_of_ret hsecond', hmarked]
  rfl

omit [XSpiDriver σ] in
/-- Steps without transfers in front do not change which ones fail.  The new events of the two
runs are then the same, but for some that are no transfers. -/
theorem failsIn_behind {m k : Prog (World σ) Xst} {w₁ : World σ} (hbefore : Emits unsent w w₁)
    (hrun : m w = k w₁) (hgrows : Emits Set.univ w₁ (k w₁).2) : FailsIn m w ↔ FailsIn k w₁ := by
  obtain ⟨es, hes, -⟩ := hgrows
  rw [FailsIn, hrun, newEvents_append hbefore.grows hes, FailsIn, newEvents_of_eq hes]
  constructor
  · rintro ⟨e, he, hfailed⟩
    rcases List.mem_append.mp he with he | he
    · obtain ⟨es', hes', hharmless⟩ := hbefore.harmless
      have hes' : w₁.events = w.events ++ es' := hes'
      rw [newEvents_of_eq hes'] at he
      exact absurd hfailed (hharmless e he).1
    · exact ⟨e, he, hfailed⟩
  · rintro ⟨e, he, hfailed⟩
    exact ⟨e, List.mem_append_right _ he, hfailed⟩

/-- **Why a call gives up in front of its first page.**  The cases are those of the image:
there is none, it has no pages, or it has.  Where the driver refuses the startup or the slave
select, the file makes no difference; where it does not, the reasons are failing transfers,
and without pages also those of the verification. -/
theorem openingTo_closing_givesUp_iff (hfree : ErrorFree w) :
    GivesUp (call.openingTo env (call.closing env) w).1 ↔
      FailsIn (call.opening env) w ∨ (call.opening env w).1 = .stop .wild ∨
        call.Refused env w ∨ call.Unverified env w := by
  rcases hopen : env.fopen w.fopens w.flashData.pathname with _ | file
  · have hrefused : call.Refused env w := fun file hfile => nomatch hopen.symm.trans hfile
    refine iff_of_true ?_ (.inr (.inr (.inl hrefused)))
    rw [openingTo_eq, hopen]
    exact givesUp_of_ne (by decide)
  set w₁ := (call.marked env w).opened (some file) with hw₁
  -- the two programs of the statement differ in what they do without pages, and only there
  have hrun : ∀ unpaged, call.openingTo env unpaged w = imageFront env
      (if pageCount file.ftell = 0 then unpaged else firstPageReady env file) w₁ := by
    intro unpaged
    rw [openingTo_eq, hopen]
  by_cases hrefused : call.Refused env w
  · refine iff_of_true ?_ (.inr (.inr (.inl hrefused)))
    rw [hrun]
    exact imageFront_givesUp (hrefused file hopen) _
  have hno : ¬ DriverRefuses env w₁ := by
    intro h
    refine hrefused fun file' hfile => ?_
    cases hopen.symm.trans hfile
    exact h
  obtain ⟨_, _, hmarked, hunsent⟩ := marked_eq env call w
  have hfree₁ : ErrorFree w₁ := by
    rw [hw₁, hmarked]
    exact hfree
  have hunsent₁ : Emits unsent w w₁ := trans_of _ hunsent (Emits.of_eq rfl)
  have hgives : GivesUp (call.opening env w).1 ↔
      FailsIn (call.opening env) w ∨ (call.opening env w).1 = .stop .wild := by
    have hpages : Blames (if pageCount file.ftell = 0 then pure .success
        else firstPageReady (σ := σ) env file) := by
      split
      · exact .pure_ok
      · exact firstPageReady_blames file
    have hheeds : ∀ {excused : World σ → Prop}, Heedful excused (imageFront (σ := σ) env
        (if pageCount file.ftell = 0 then pure .success else firstPageReady env file)) :=
      imageFront_heedful ((Heedful.pure _).ite (firstPageReady_heedful file))
    have hopening : call.opening env w = imageFront env
        (if pageCount file.ftell = 0 then pure .success else firstPageReady env file) w₁ :=
      hrun (pure .success)
    rw [failsIn_behind hunsent₁ hopening (hheeds.emits w₁), hopening]
    exact givesUp_iff_failsIn hheeds (imageFront_blamesFrom hfree₁ hno hpages)
  -- from here on the driver does not refuse, and the opening heeds and blames its transfers
  rw [← or_assoc, ← hgives, or_iff_right hrefused]
  by_cases hpages : pageCount file.ftell = 0
  · -- no page: the verification is the rest
    have hwhole : call.openingTo env (call.closing env) w =
        check (imageFront env (pure .success)) (call.closing env) w₁ := by
      rw [hrun, if_pos hpages, imageFront_check]
      rfl
    have hopening : call.opening env w = imageFront env (pure .success) w₁ := by
      have hopening := hrun (pure .success)
      rwa [if_pos hpages] at hopening
    rw [hwhole, givesUp_check_iff, ← hopening]
    have hfree₂ : ∀ {w₂}, call.opening env w = (.ret .success, w₂) → ErrorFree w₂ := by
      intro w₂ hret
      exact ((wp_of_ret (hopening.symm.trans hret)).mp
        (imageFront_blamesFrom hfree₁ hno .pure_ok)).1
    refine or_congr_right ⟨fun ⟨w₂, hret, hcloses⟩ => ?_, ?_⟩
    · exact ⟨file, w₂, hopen, hpages, hret, (closing_givesUp_iff (hfree₂ hret)).mp hcloses⟩
    · rintro ⟨_, w₂, -, -, hret, hcloses⟩
      exact ⟨w₂, hret, (closing_givesUp_iff (hfree₂ hret)).mpr hcloses⟩
  · have hsame : call.openingTo env (call.closing env) w = call.opening env w := by
      rw [ProgramCall.opening, hrun, hrun, if_neg hpages, if_neg hpages]
    rw [hsame]
    refine (or_iff_left ?_).symm
    rintro ⟨file', _, hfile, hzero, -⟩
    cases hopen.symm.trans hfile
    exact hpages hzero

end Opening

end Kiflash
