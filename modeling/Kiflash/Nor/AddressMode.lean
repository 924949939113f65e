import Kiflash.Files
import Kiflash.Imperative.Steps
import Kiflash.Nor.Conformance
import Kiflash.Nor.Programming

/-!
# The address mode

Reads and page programs enter the 4-byte address mode and leave it again.  The two erase
functions enter it and do not leave it, so the mode in which a run ends is a matter of the
function that came last.  `kiflash_program_user` begins with an erase, and it is the pages of
the image that bring the flash back.

* `modeless` — the frames that leave the mode as it is.
* one `_mode` theorem for each function: the mode behind a success, from the one before.
* `InThreeByteMode` — the mode behind a successful operation of a run.
* `address_mode_iff` — when it is the 3-byte mode.

### Only successes

A call that fails may stop between the command that enters the mode and the one that leaves
it, and the mode is then whatever it was at that point.  The statements are about calls that
return `XST_SUCCESS`, in which every mode command has been sent and accepted.

### Why the image matters

The last page that is programmed or verified leaves the flash in 3-byte mode, and so does the
last one of the verification.  With a page count of zero neither loop has a round, and the
mode is the one that the erase has left; the reboot words behind it then find the 4-byte mode.
The two image functions open the file each for itself, so that there are two answers of the
host to be looked at.
-/

open Imperative Imperative.Prog

namespace Kiflash

/-! ## Frames without a mode command -/

/-- The frames of all commands but the two that switch the address mode.  A run of these
leaves the mode as it is. -/
def modeless : Set (List UInt8) :=
  framesOf {cmd | cmd ≠ commandEnter4byteAddressMode ∧ cmd ≠ commandExit4byteAddressMode}

/-- Polling and enabling do not switch the mode. -/
theorem statusFrames_subset_modeless : statusFrames ⊆ modeless := by
  refine framesOf_mono ?_
  rintro cmd (rfl | rfl | rfl | rfl) <;> decide

section Mode

variable {p : NorParams} {env : Env} {w w' : World (Nor p)}

/-- A frame that is executed switches the mode only if it is one of the two. -/
theorem Nor.execute_fourByte (d : Nor p) {frame : List UInt8} (h : frame ∈ modeless) :
    (d.execute frame).fourByte = d.fourByte := by
  cases frame with
  | nil => rfl
  | cons cmd args =>
      have hmode : ¬ (cmd = commandEnter4byteAddressMode ∨ cmd = commandExit4byteAddressMode) :=
        not_or.mpr (h cmd rfl)
      rw [execute, obey, if_neg hmode]
      cases writeCommand d.fourByte (cmd :: args) <;> split_ifs <;> rfl

/-- The same of a run of driver calls.  The induction is on the calls, none of which sends one
of the two mode commands. -/
theorem Nor.fourByte_of_busSteps {d d' : Nor p}
    (h : Relation.ReflTransGen (BusStep modeless) d d') : d'.fourByte = d.fourByte := by
  induction h with
  | refl => rfl
  | @tail b _ _ hstep ih =>
      rw [← ih]
      cases hstep with
      | transfer rounds frame recv _ hframe =>
          change (b.transfer frame recv).2.fourByte = b.fourByte
          rcases transfer_cases frame recv b with heq | heq | heq <;> rw [heq]
          · rfl
          · exact b.execute_fourByte hframe
      | pciInitialize | setOptions | setSlaveSelect | cfgInitialize => rfl
      | start =>
          change b.start.2.fourByte = b.fourByte
          unfold start
          split_ifs <;> rfl

theorem Talks.fourByte_eq (h : Talks modeless w w') : w'.bus.fourByte = w.bus.fourByte :=
  Nor.fourByte_of_busSteps h.bus

/-! ## The functions that switch the mode -/

/-- A read ends with the command that leaves the mode. -/
theorem spiFlashRead_mode {addr byteCount : UInt32} {readCmd : UInt8}
    (h : spiFlashRead env addr byteCount readCmd w = (.ret .success, w')) :
    w'.bus.fourByte = false := by
  rw [spiFlashRead_eq] at h
  obtain ⟨_, -, h⟩ := check_eq_ok.mp h
  obtain ⟨_, -, h⟩ := check_eq_ok.mp h
  obtain ⟨_, -, h⟩ := check_eq_ok.mp h
  obtain ⟨_, -, hexit⟩ := check_eq_ok.mp h
  exact spiFlash4byteexit_mode.of_success (knows_nothing _) hexit

/-- And so does a page program. -/
theorem spiFlashWriteFile_mode {addr byteCount : UInt32} {writeCmd : UInt8}
    {pageBuffer : ℕ → UInt8}
    (h : spiFlashWriteFile env addr byteCount writeCmd pageBuffer w = (.ret .success, w')) :
    w'.bus.fourByte = false := by
  rw [spiFlashWriteFile_eq] at h
  obtain ⟨_, -, h⟩ := check_eq_ok.mp h
  obtain ⟨_, -, h⟩ := check_eq_ok.mp h
  obtain ⟨_, -, h⟩ := check_eq_ok.mp h
  obtain ⟨_, -, hexit⟩ := check_eq_ok.mp h
  exact spiFlash4byteexit_mode.of_success (knows_nothing _) hexit

/-- Nothing that follows an erase frame leaves the mode. -/
theorem eraseCommand_mode {cmd : UInt8} {addr : UInt32}
    (hcmd : cmd ≠ commandEnter4byteAddressMode ∧ cmd ≠ commandExit4byteAddressMode)
    (h : eraseCommand env cmd addr w = (.ret .success, w')) :
    w'.bus.fourByte = w.bus.fourByte := by
  refine Talks.fourByte_eq ((eraseCommand_talks statusFrames_subset_modeless ?_).of_eq h)
  rintro _ ⟨⟩
  exact hcmd

/-- A sector erase begins with the command that enters it. -/
theorem spiFlashSectorErase_mode {addr : UInt32}
    (h : spiFlashSectorErase env addr w = (.ret .success, w')) : w'.bus.fourByte = true := by
  obtain ⟨w₁, hmode, herase⟩ := check_eq_ok.mp h
  rw [eraseCommand_mode (by decide) herase]
  exact (spiFlash4bytemodeEnable_conforms.of_success (knows_nothing _) hmode).mode rfl

theorem spiFlashDieErase_mode {uscDieNr : UInt32}
    (h : spiFlashDieErase env uscDieNr w = (.ret .success, w')) : w'.bus.fourByte = true := by
  obtain ⟨w₁, hmode, h⟩ := check_eq_ok.mp h
  obtain ⟨w₂, hread, herase⟩ := check_eq_ok.mp h
  rw [eraseCommand_mode (by decide) herase, (knows_before_dieErase hmode hread).mode rfl]

/-- After the first sector the flash is in 4-byte mode, and stays in it.  The induction is on
the sectors; with none the mode is left as it was. -/
theorem qspiEraseSectorFlash_mode {ofsetAddr sectCount : UInt32}
    (h : qspiEraseSectorFlash env ofsetAddr sectCount w = (.ret .success, w')) :
    w'.bus.fourByte = (w.bus.fourByte || decide (sectCount ≠ 0)) := by
  have hloop : ∀ n addr {w w' : World (Nor p)},
      checkLoop (spiFlashSectorErase env) (· + bytePerSector) n addr w = (.ret .success, w') →
      w'.bus.fourByte = (w.bus.fourByte || decide (n ≠ 0)) := by
    intro n
    induction n with
    | zero =>
        rintro addr w w' ⟨⟩
        simp
    | succ n ih =>
        intro addr w w' h
        obtain ⟨w₁, hfirst, hrest⟩ := check_eq_ok.mp h
        rw [ih _ hrest, spiFlashSectorErase_mode hfirst]
        simp
  unfold qspiEraseSectorFlash at h
  split_ifs at h
  · rw [hloop _ _ h]
    simp [← UInt32.toNat_inj]
  · cases h

/-! ## Image files -/

/-- An image function whose pages leave the flash in 3-byte mode.  With a page, the last one
decides; without, the mode is the one that was found. -/
theorem imageFile_mode {filename : String} {base : ℚ} {page : File → UInt32 → Prog (World (Nor p)) Xst}
    {finish : Prog (World (Nor p)) Unit}
    (hpage : ∀ file startAddr {w w' : World (Nor p)}, page file startAddr w = (.ret .success, w') →
      w'.bus.fourByte = false)
    (hfinish : ∀ w, wp finish (fun _ w' => w'.bus = w.bus) (fun _ _ => True) w)
    (h : imageFile env filename (reportProgress env base) page finish w = (.ret .success, w')) :
    ∃ file, env.fopen w.fopens filename = some file ∧
      w'.bus.fourByte = (w.bus.fourByte && decide (pageCount file.ftell = 0)) := by
  have hwp : wp (imageFile env filename (reportProgress env base) page finish)
      (fun status w' => status = .success → ∃ file, env.fopen w.fopens filename = some file ∧
        w'.bus.fourByte = (w.bus.fourByte && decide (pageCount file.ftell = 0)))
      (fun _ _ => True) w := by
    refine wp_imageFile (fun _ h => nomatch h)
      (fun _ _ _ _ => ⟨fun h => (nomatch h), fun _ => trivial⟩) fun file w₁ hfile h₁ => ?_
    have hbefore : w₁.bus.fourByte = w.bus.fourByte :=
      (h₁.mono statusFrames_subset_modeless).fourByte_eq
    set total := (pageCount file.ftell).toNat with htotal
    -- the first page switches to 3-byte mode
    refine wp_pageLoop (fun n w₂ => n ≤ total ∧
        w₂.bus.fourByte = (w.bus.fourByte && decide (total = n)))
      ⟨le_rfl, by rw [hbefore, decide_eq_true htotal, Bool.and_true]⟩ (fun n it w₂ _ inv => ?_)
      fun w₂ inv => ?_
    · obtain ⟨percentage, events, hreport⟩ :=
        reportProgress_eq env base (pageCount file.ftell) it w₂
      refine (wp_of_ret hreport).mpr ?_
      rcases hrun : page file (UInt32.ofNat (256 * (total - (n + 1))))
        { w₂ with flashData := { w₂.flashData with percentage }, events } with ⟨status | why, w₃⟩
      · refine (wp_of_ret hrun).mpr ⟨fun hok => ⟨by omega, ?_⟩,
          fun _ => ⟨fun h => (nomatch h), fun _ h => nomatch h⟩⟩
        subst hok
        have hlt : total ≠ n := by omega
        rw [hpage _ _ hrun, decide_eq_false hlt, Bool.and_false]
      · exact (wp_of_stop hrun).mpr trivial
    · refine ⟨fun _ => wp_mono (hfinish w₂) (fun _ w₃ hbus _ => ⟨file, hfile, ?_⟩) fun _ _ h => h,
        fun hno => absurd rfl hno⟩
      have hzero : total = 0 ↔ pageCount file.ftell = 0 := by
        rw [htotal, ← UInt32.toNat_inj]
        rfl
      rw [← decide_eq_decide.mpr hzero, ← inv.2, ← hbus]
  exact (wp_of_ret h).mp hwp rfl

/-- `qspi_program_bin`: if the file has a page, the flash is in 3-byte mode. -/
theorem qspiProgramBin_mode (h : qspiProgramBin env w = (.ret .success, w')) :
    ∃ file, env.fopen w.fopens w.flashData.pathname = some file ∧
      w'.bus.fourByte = (w.bus.fourByte && decide (pageCount file.ftell = 0)) := by
  obtain ⟨_, _, ⟨⟩, h⟩ := bind_eq_ret.mp h
  refine imageFile_mode (fun file startAddr w w' hpage => ?_) (fun _ => wp_pure.mpr rfl) h
  obtain ⟨_, _, ⟨⟩, hpage⟩ := bind_eq_ret.mp hpage
  obtain ⟨_, -, hwrite⟩ := check_eq_ok.mp hpage
  exact spiFlashWriteFile_mode hwrite

/-- And the same for `qspi_verify_bin`.  A page read leaves the four-byte mode behind itself,
as a page program does. -/
theorem qspiVerifyBin_mode (h : qspiVerifyBin env w = (.ret .success, w')) :
    ∃ file, env.fopen w.fopens w.flashData.pathname = some file ∧
      w'.bus.fourByte = (w.bus.fourByte && decide (pageCount file.ftell = 0)) := by
  obtain ⟨_, _, ⟨⟩, h⟩ := bind_eq_ret.mp h
  have hfinish : ∀ w : World (Nor p), wp (emit .verifyPassed) (fun _ w' => w'.bus = w.bus)
      (fun _ _ => True) w := fun w => wp_modify.mpr rfl
  refine imageFile_mode (fun file startAddr w w' hpage => ?_) hfinish h
  obtain ⟨_, _, ⟨⟩, hpage⟩ := bind_eq_ret.mp hpage
  obtain ⟨_, -, hpage⟩ := check_eq_ok.mp hpage
  obtain ⟨_, _, ⟨⟩, hpage⟩ := bind_eq_ret.mp hpage
  obtain ⟨w₁, hread, hpage⟩ := check_eq_ok.mp hpage
  obtain ⟨_, _, ⟨⟩, hpage⟩ := bind_eq_ret.mp hpage
  split_ifs at hpage
  · cases hpage
    exact spiFlashRead_mode hread
  · cases hpage

/-! ## `kiflash_program_user` -/

theorem mark_mode {call : ProgramCall} {value : UInt32} (h : call.mark env value w = (.ret (), w')) :
    w'.bus.fourByte = w.bus.fourByte ∧ w'.flashData.pathname = w.flashData.pathname := by
  obtain ⟨hbus, -, hdata⟩ := mark_frame h
  rw [hbus, hdata]
  exact ⟨rfl, rfl⟩

/-- Behind a successful `program_user` that erases sectors, the flash is in 4-byte mode
exactly if the image file had no pages, neither time that it was opened. -/
theorem programUser_mode (hsectors : sectorsToErase w.flashData 0x08000000 ≠ 0)
    (h : programUser env 1 w = (.ret .success, w')) :
    ∃ file₁ file₂, env.fopen w.fopens w.flashData.pathname = some file₁ ∧
      env.fopen (w.fopens + 1) w.flashData.pathname = some file₂ ∧
      w'.bus.fourByte =
        (decide (pageCount file₁.ftell = 0) && decide (pageCount file₂.ftell = 0)) := by
  obtain ⟨wa, wb, wc, wd, we, wf, hmark₁, herase, hmark₂, hprogram, hmark₃, hverify, hmark₄⟩ :=
    (ProgramCall.user 1).run_stages h
  obtain ⟨-, hpath₁⟩ := mark_mode hmark₁
  obtain ⟨hmode₂, hpath₂⟩ := mark_mode hmark₂
  obtain ⟨hmode₃, hpath₃⟩ := mark_mode hmark₃
  obtain ⟨hmode₄, -⟩ := mark_mode hmark₄
  have hdata : wa.flashData = { w.flashData with percentage := wa.flashData.percentage } :=
    (mark_frame hmark₁).2.2
  have hpath : wc.flashData.pathname = w.flashData.pathname := by
    rw [hpath₂, (eraseStage_frame herase).2]
    exact hpath₁
  have hfopens : wc.fopens = w.fopens := by
    rw [(mark_files.of_eq hmark₂).fopens, (eraseStage_files.of_eq herase).fopens,
      (mark_files.of_eq hmark₁).fopens]
  -- the erase
  obtain ⟨w₁, hsectorErase, hmark⟩ := eraseStage_success (by decide) herase
  have herased : wb.bus.fourByte = true := by
    rw [(mark_mode hmark).1, qspiEraseSectorFlash_mode hsectorErase, hdata]
    exact Bool.or_eq_true_iff.mpr (.inr (decide_eq_true hsectors))
  -- the two image functions
  obtain ⟨file₁, hopen₁, hmode₁⟩ := qspiProgramBin_mode hprogram
  obtain ⟨file₂, hopen₂, hverified⟩ := qspiVerifyBin_mode hverify
  have hrun : ImageFunction.programBin.run env wc = (.ret .success, wd) := hprogram
  have hfopens' : we.fopens = w.fopens + 1 := by
    rw [(mark_files.of_eq hmark₃).fopens, (ImageFunction.run_files hrun).1, hfopens]
  have hpath₄ : wd.flashData.pathname = wc.flashData.pathname :=
    (qspiProgramBin_moves.of_eq hprogram).target.2.2.2
  refine ⟨file₁, file₂, ?_, ?_, ?_⟩
  · rw [← hpath, ← hfopens, hopen₁]
  · rw [← hpath, ← hpath₄, ← hpath₃, ← hfopens', hopen₂]
  · rw [hmode₄, hverified, hmode₃, hmode₁, hmode₂, herased, Bool.true_and]

/-- The events of a run whose writes outside the SPI core find the flash in this mode.  The
only such writes are those of `icap`. -/
def pciWritesAt (p : NorParams) (mode : Bool) : Set (Event (Nor p)) :=
  {e | ∀ before address data, e = .pciWrite before address data → before.fourByte = mode}

theorem noPciWrite_subset_pciWritesAt {mode : Bool} : noPciWrite ⊆ pciWritesAt p mode :=
  fun _ he before address data h => absurd h (he before address data)

/-- **The mode that the reboot words find.**  A successful `kiflash_program_user` writes them,
and each of them finds the flash in the same mode.  It is the four-byte mode exactly if
neither the programming nor the verification has a page, as each page read and each page
program leaves the mode that the erase has entered. -/
theorem kiflashProgramUser_mode (h : kiflashProgramUser env w = (.ret .success, w')) :
    ∃ file₁ file₂ mode, env.fopen w.fopens userImagePath = some file₁ ∧
      env.fopen (w.fopens + 1) userImagePath = some file₂ ∧
      mode = (decide (pageCount file₁.ftell = 0) && decide (pageCount file₂.ftell = 0)) ∧
      Emits (pciWritesAt p mode) w w' ∧
      ∃ before address data, .pciWrite before address data ∈ newEvents w w' := by
  obtain ⟨status, wa, wb, wc, wd, hinit, hzero, hprogram, hicap, hlast⟩ := kiflashProgramUser_stages h
  obtain ⟨-, hemits₁, hpath⟩ := (wp_of_ret hinit).mp
    (kiflashInit_reports transfers_noPciWrite.admits (percentage_noPciWrite 0) w)
  have hzero' : Reports Set.univ noPciWrite { wa with flashData := wa.flashData.select .user } wb :=
    (setPercentage_reports (percentage_noPciWrite 0)).of_eq hzero
  have hprogram' : Reports Set.univ noPciWrite wb (programUser env 1 wb).2 :=
    (ProgramCall.user 1).run_reports (Set.subset_univ _) transfers_noPciWrite.admits
      (fun _ _ _ => trivial) (fun _ _ _ _ _ _ => trivial) (says_univ _) percentage_noPciWrite
      verifyPassed_noPciWrite
  rw [hprogram] at hprogram'
  have hlast' : Reports Set.univ noPciWrite wd w' :=
    (setPercentage_reports (percentage_noPciWrite 100)).of_eq hlast
  -- the file and the sectors
  have hname : wb.flashData.pathname = userImagePath := by
    rw [hzero'.target.2.2.2, FlashData.pathname, FlashData.select, hpath, userImagePath]
  have hfopens : wb.fopens = w.fopens := by
    rw [(setPercentage_files.of_eq hzero).fopens]
    exact (kiflashInit_files.of_eq hinit).fopens
  have hsectors : sectorsToErase wb.flashData 0x08000000 ≠ 0 := by
    have hend : wb.flashData.eraseEndAddr = Region.user.eraseEndAddr := hzero'.target.2.2.1
    rw [sectorsToErase, hend]
    decide
  obtain ⟨file₁, file₂, hopen₁, hopen₂, hmode⟩ := programUser_mode hsectors hprogram
  rw [hname, hfopens] at hopen₁ hopen₂
  refine ⟨file₁, file₂, _, hopen₁, hopen₂, rfl, ?_, ?_⟩
  · obtain ⟨_, hicap', -, hwrites⟩ := icap_reports (I := fun d : Nor p => d.fourByte = _)
      (fun _ _ _ h => h) 0 hmode
    obtain rfl : wd = _ := congrArg Prod.snd (hicap.symm.trans hicap')
    have hbefore := trans_of (Emits noPciWrite) hemits₁ (trans_of _ hzero'.emits hprogram'.emits)
    refine trans_of _ (hbefore.mono noPciWrite_subset_pciWritesAt) (trans_of _ (hwrites.mono ?_)
      (hlast'.emits.mono noPciWrite_subset_pciWritesAt))
    rintro _ ⟨before, address, data, rfl, hbus⟩ _ _ _ ⟨⟩
    exact hbus
  · obtain ⟨bus, events, hicap'⟩ := icap_eq 0 wc
    obtain rfl : wd = _ := congrArg Prod.snd (hicap.symm.trans hicap')
    obtain ⟨es, hes, -⟩ := trans_of (Emits noPciWrite) hemits₁ (trans_of _ hzero'.emits hprogram'.emits)
    obtain ⟨es', hes', -⟩ := hlast'.emits
    refine ⟨wc.bus, icapBaseAddr + icapWriteFifo, 0xFFFFFFFF, ?_⟩
    rw [newEvents, hes', hes, List.append_assoc, List.append_assoc, List.drop_left]
    simp

/-! ## Runs of operations -/

/-- The flash is in 3-byte mode behind a read, a page program or an erase, and at every
reboot word of `kiflash_program_user`. -/
def InThreeByteMode (step : Returned (World (Nor p)) Operation Xst) : Prop :=
  match step.call with
  | .spiFlashRead .. | .spiFlashWriteFile .. | .spiFlashSectorErase _ | .qspiEraseSectorFlash ..
  | .spiFlashDieErase _ => step.after.bus.fourByte = false
  | .kiflashProgramUser => ∀ before address data,
    .pciWrite before address data ∈ newEvents step.before step.after → before.fourByte = false
  | _ => True

/-- No erase is involved, or the one that is erases no sector from 3-byte mode, or the pages
of an image file come after it. -/
def LeavesFourByteMode (env : Env) (step : Returned (World (Nor p)) Operation Xst) : Prop :=
  match step.call with
  | .spiFlashSectorErase _ | .spiFlashDieErase _ => False
  | .qspiEraseSectorFlash _ sectCount => sectCount = 0 ∧ step.before.bus.fourByte = false
  | .kiflashProgramUser => ∃ i ∈ [step.before.fopens, step.before.fopens + 1],
    ∃ file, env.fopen i userImagePath = some file ∧ pageCount file.ftell ≠ 0
  | _ => True

/-- **The address mode behind the successful operations of a run**, from any state of the host
and the flash on, whatever the device decides.

The condition is on the call, its arguments, the mode before it and the files of the host.  An
erase enters the 4-byte mode and does not leave it.  Reads and page programs do leave it, so
that `kiflash_program_user` is back in the 3-byte mode at its reboot words if one of its two
openings of the file has found pages.  The mode behind a call that fails is not spoken of: it
depends on where the call has failed. -/
theorem address_mode_iff {operations : List Operation} {step : Returned (World (Nor p)) Operation Xst}
    (h : step ∈ steps (Operation.run env) operations w) (hok : step.value = .success) :
    InThreeByteMode step ↔ LeavesFourByteMode env step := by
  have hrun := run_of_mem_steps h
  obtain ⟨operation, before, status, after⟩ := step
  obtain rfl : status = .success := hok
  cases operation with
  | spiFlashRead => exact iff_of_true (spiFlashRead_mode hrun) trivial
  | spiFlashWriteFile => exact iff_of_true (spiFlashWriteFile_mode hrun) trivial
  | spiFlashSectorErase =>
      refine iff_of_false (fun hmode => ?_) id
      exact absurd ((spiFlashSectorErase_mode hrun).symm.trans hmode) (by decide)
  | spiFlashDieErase =>
      refine iff_of_false (fun hmode => ?_) id
      exact absurd ((spiFlashDieErase_mode hrun).symm.trans hmode) (by decide)
  | qspiEraseSectorFlash ofsetAddr sectCount =>
      change after.bus.fourByte = false ↔ sectCount = 0 ∧ before.bus.fourByte = false
      rw [qspiEraseSectorFlash_mode hrun, Bool.or_eq_false_iff, decide_eq_false_iff_not, not_not,
        and_comm]
  | kiflashProgramUser =>
      obtain ⟨file₁, file₂, mode, hopen₁, hopen₂, hmode, hwrites, bus, address, data, hmem⟩ :=
        kiflashProgramUser_mode hrun
      have hiff : mode = false ↔ pageCount file₁.ftell ≠ 0 ∨ pageCount file₂.ftell ≠ 0 := by
        rw [hmode, Bool.and_eq_false_iff, decide_eq_false_iff_not, decide_eq_false_iff_not]
      have hevents : InThreeByteMode ⟨.kiflashProgramUser, before, .success, after⟩ ↔ mode = false := by
        refine ⟨fun hall => ?_, fun hmode before address data he => ?_⟩
        · rw [← hwrites.mem_newEvents hmem _ _ _ rfl]
          exact hall _ _ _ hmem
        · rw [← hmode]
          exact hwrites.mem_newEvents he _ _ _ rfl
      rw [hevents, hiff]
      simp [LeavesFourByteMode, hopen₁, hopen₂]
  | _ => exact iff_of_true trivial trivial

end Mode

/-- A read of the first page.  It enters the four-byte mode and leaves it again. -/
theorem address_mode_read : ∃ w', spiFlashRead (Env.plain none 0) 0 pageSize
      command4byteQuadOutputFastRead (World.selected .user fun _ => 0xFF) = (.ret .success, w') ∧
    w'.bus.fourByte = false := by
  have serves : Serves (Nor.Answering 1) (spiFlashRead (Env.plain none 0) 0 pageSize
      command4byteQuadOutputFastRead) :=
    spiFlashRead_serves (Nor.responsive NorParams.swift_faultFree (swift_busy none 0))
  obtain ⟨w', hrun, -⟩ := serves.exists_ret (selected_ready .user fun _ => 0xFF)
  have hrun' : Operation.run (Env.plain none 0) (.spiFlashRead 0 pageSize
      command4byteQuadOutputFastRead) (World.selected .user fun _ => 0xFF) = (.ret .success, w') := hrun
  have hsteps : steps (Operation.run (Env.plain none 0)) [.spiFlashRead 0 pageSize
      command4byteQuadOutputFastRead] (World.selected .user fun _ => 0xFF) = [⟨_, _, _, w'⟩] :=
    steps_cons_of_ret hrun'
  have hmem := hsteps ▸ List.mem_singleton_self _
  exact ⟨w', hrun, (address_mode_iff hmem rfl).mpr trivial⟩

/-- The three functions that erase leave an idle flash, in 3-byte mode before, in 4-byte mode. -/
theorem address_mode_counterexample :
    (Nor.idle .swift fun _ => 0).fourByte = false ∧
    ((spiFlashSectorErase (Env.plain none 0) 0 (World.selected .user fun _ => 0)).1 = .ret .success ∧
      (spiFlashSectorErase (Env.plain none 0) 0
        (World.selected .user fun _ => 0)).2.bus.fourByte = true) ∧
    ((qspiEraseSectorFlash (Env.plain none 0) 0 1 (World.selected .user fun _ => 0)).1 =
        .ret .success ∧
      (qspiEraseSectorFlash (Env.plain none 0) 0 1
        (World.selected .user fun _ => 0)).2.bus.fourByte = true) ∧
    ((spiFlashDieErase (Env.plain none 0) 0 (World.selected .user fun _ => 0)).1 = .ret .success ∧
      (spiFlashDieErase (Env.plain none 0) 0
        (World.selected .user fun _ => 0)).2.bus.fourByte = true) := by
  decide +kernel

end Kiflash
