import Kiflash.Verify

/-!
# Image files

`qspi_program_bin` and `qspi_verify_bin` open one file each, and close it behind the last
page.  Everything else leaves the files alone: `SameFiles` holds of it, whatever its outcome.

* `ImageFunction` — the two functions, by what their common part `imageFile` leaves open.
* `ImageFunction.body` — the part of a call between `fopen` and what follows the last page.
* `ImageFunction.run_files` — the file is left open exactly if that part fails.

The body of an image function has several ways out between the `fopen` and the `fclose`: the
startup, the selection of the slave, the write enable, and in each round the enable, the
transfer of the page and, in the verification, the comparison.  All of them are returns of a
failure.  So the functions are cut at these two calls, and what is in between is one program
whose status decides whether the file is closed.
-/

open Imperative Imperative.Prog

namespace Kiflash

/-- The two functions, `qspi_program_bin` and `qspi_verify_bin`.  They have the same text up
to what happens to a page. -/
inductive ImageFunction where
  | programBin
  | verifyBin
  deriving DecidableEq, Repr

/-- The run opens no image file and closes none.  Everything behind the driver's interface is
of this kind. -/
structure SameFiles {σ : Type} (w w' : World σ) : Prop where
  fopens : w'.fopens = w.fopens
  streams : w'.streams = w.streams

section Files

variable {σ : Type} {env : Env} {w w' : World σ}

instance : IsPreorder (World σ) SameFiles where
  refl _ := ⟨rfl, rfl⟩
  trans _ _ _ h h' := ⟨h'.fopens.trans h.fopens, h'.streams.trans h.streams⟩

/-- A store to the percentage. -/
theorem setPercentage_files {value : UInt32} : Moves SameFiles (setPercentage (σ := σ) env value) :=
  Moves.ite (moves_modify fun _ => ⟨rfl, rfl⟩) (moves_pure _)

theorem mark_files {call : ProgramCall} {value : UInt32} :
    Moves SameFiles (call.mark (σ := σ) env value) := by
  cases call with
  | user => exact setPercentage_files
  | golden | timer => exact moves_pure _

theorem reportProgress_files {base : ℚ} {totalPage : UInt32} {it : PageLoop} :
    Moves SameFiles (reportProgress (σ := σ) env base totalPage it) :=
  setPercentage_files.ite (moves_pure _)

theorem readPage_files {file : File} {startAddr : UInt32} :
    Moves SameFiles (readPage (σ := σ) env file startAddr) :=
  Moves.bind (fun _ => ⟨rfl, rfl⟩) fun _ => moves_pure _

variable [XSpiDriver σ]

/-- Flash commands have nothing to do with files. -/
theorem Talks.files {A : Set (List UInt8)} (h : Talks A w w') : SameFiles w w' :=
  ⟨h.fopens, h.streams⟩

/-- A page is read from a file that is open. -/
theorem programPage_files {baseAddr startAddr : UInt32} {file : File} :
    Moves SameFiles (programPage (σ := σ) env baseAddr file startAddr) :=
  readPage_files.bind fun _ =>
    ((spiFlashWriteEnable_talks (Set.subset_univ _)).mono fun _ _ => Talks.files).check <|
    (spiFlashWriteFile_talks (Set.subset_univ _) trivial).mono fun _ _ => Talks.files

theorem verifyPage_files {baseAddr startAddr : UInt32} {file : File} :
    Moves SameFiles (verifyPage (σ := σ) env baseAddr file startAddr) :=
  readPage_files.bind fun _ =>
    ((spiFlashWriteEnable_talks (Set.subset_univ _)).mono fun _ _ => Talks.files).check <|
    Moves.bind (moves_modify fun _ => ⟨rfl, rfl⟩) fun _ =>
    ((spiFlashRead_talks (Set.subset_univ _) (says_univ _)).mono fun _ _ => Talks.files).check <|
    (moves_gets _).bind fun _ => (moves_pure _).ite (moves_pure _)

/-- The erase stage opens no file. -/
theorem eraseStage_files {call : ProgramCall} :
    Moves SameFiles (eraseStage (σ := σ) env (call.mark env) call.eraseFrom call.erase) :=
  Moves.ite ((moves_gets _).bind fun _ =>
    ((qspiEraseSectorFlash_talks (Set.subset_univ _) fun _ _ => trivial).mono
      fun _ _ => Talks.files).bind fun _ => mark_files.bind fun _ => moves_pure _) (moves_pure _)

omit [XSpiDriver σ] in
/-- The chassis device is no image file. -/
theorem pcimemInit_files : Moves SameFiles (pcimemInit (σ := σ) env) := by
  intro w
  unfold pcimemInit
  split_ifs <;> exact ⟨rfl, rfl⟩

/-- `kiflash_init` opens the device only. -/
theorem kiflashInit_files : Moves SameFiles (kiflashInit (σ := σ) env) :=
  Moves.bind (moves_modify fun _ => ⟨rfl, rfl⟩) fun _ => setPercentage_files.bind fun _ =>
    pcimemInit_files.bind fun _ =>
    ((ensureInit_talks (Set.subset_univ _)).mono fun _ _ => Talks.files).check (moves_pure _)

/-- The reboot words have nothing to do with files. -/
theorem icap_files (die : UInt32) : Moves SameFiles (icap (σ := σ) die) := by
  intro w
  obtain ⟨bus, events, heq⟩ := icap_eq die w
  rw [heq]
  exact ⟨rfl, rfl⟩

end Files

section ImageFunction

variable {σ : Type} [XSpiDriver σ] (env : Env)

namespace ImageFunction

/-- What a call runs: the function of the source itself.  The definitions below are its
parts. -/
def run : ImageFunction → Prog (World σ) Xst
  | programBin => qspiProgramBin env
  | verifyBin => qspiVerifyBin env

/-- The percentage that its progress report begins with.  Programming reports from 20 on,
verification from 60 on. -/
def base : ImageFunction → ℚ
  | programBin => 20
  | verifyBin => 60

/-- What it does with a page, after the progress report of the round. -/
def page : ImageFunction → UInt32 → File → UInt32 → Prog (World σ) Xst
  | programBin => programPage env
  | verifyBin => verifyPage env

/-- What it does after the last page and before it closes the file.  Only the verification
says that it has passed. -/
def finish : ImageFunction → Prog (World σ) Unit
  | programBin => pure ()
  | verifyBin => emit .verifyPassed

/-- The part of a call between `fopen` and the page loop.  Each of its checks returns without
closing the file. -/
def setup : Prog (World σ) Xst :=
  check (ensureInit env) <|
  check (callDriver (XSpiDriver.xspiSetSlaveSelect spiSelect)) do
    let _ ← callDriver XSpiDriver.xspiStart
    spiFlashWriteEnable env

/-- The body of the page loop over `file`: the progress report, and the work on the page. -/
def round (function : ImageFunction) (baseAddr : UInt32) (file : File) (it : PageLoop) :
    Prog (World σ) Xst := do
  reportProgress env function.base (pageCount file.ftell) it
  function.page env baseAddr file it.startAddr

/-- The part of a call between `fopen` and what follows the last page.  A failure anywhere in
it leaves the function with the stream open. -/
def body (function : ImageFunction) (baseAddr : UInt32) (file : File) : Prog (World σ) Xst :=
  check (setup env) <|
    checkLoop (function.round env baseAddr file) (PageLoop.next (pageCount file.ftell))
      (pageCount file.ftell).toNat ⟨pageCount file.ftell, 0, 0⟩

/-- A call from `w` finds its file and returns before it closes it.  The condition is on the
part of the call behind `fopen`, where the source has its early returns. -/
def ReturnsEarly (function : ImageFunction) (w : World σ) : Prop :=
  ∃ file status w', env.fopen w.fopens w.flashData.pathname = some file ∧
    function.body env w.flashData.baseAddr file (w.opened (some file)) = (.ret status, w') ∧
    status ≠ .success

variable {env} {function : ImageFunction} {w w' : World σ} {file : File} {status : Xst}

/-- Both image functions are one, with their own pages and end. -/
theorem run_eq (function : ImageFunction) (w : World σ) :
    function.run env w = imageFile env w.flashData.pathname (reportProgress env function.base)
      (function.page env w.flashData.baseAddr) function.finish w := by
  cases function <;> rfl

/-- A call that finds no file returns at once. -/
theorem run_of_none (hopen : env.fopen w.fopens w.flashData.pathname = none) :
    function.run env w = (.ret .failure, w.opened none) := by
  have hfile : fopen env w.flashData.pathname w = (.ret none, w.opened none) := by rw [fopen, hopen]
  rw [run_eq, imageFile, bind_of_ret hfile]
  rfl

/-- A call that finds its file. -/
theorem run_of_some (hopen : env.fopen w.fopens w.flashData.pathname = some file) :
    function.run env w = check (function.body env w.flashData.baseAddr file)
      (function.finish >>= fun _ => fclose >>= fun _ => pure .success) (w.opened (some file)) := by
  have hfile : fopen env w.flashData.pathname w = (.ret (some file), w.opened (some file)) := by
    rw [fopen, hopen]
  rw [run_eq, imageFile, bind_of_ret hfile, body, setup, check_assoc, check_assoc, check_assoc,
    ← bind_check]
  rfl

/-- Between `fopen` and `fclose` no other file is opened.  The setup and the page loop talk to
the driver, and read from the stream that is open. -/
theorem body_files {baseAddr : UInt32} {file : File} :
    Moves SameFiles (function.body (σ := σ) env baseAddr file) := by
  have init : Moves SameFiles (ensureInit (σ := σ) env) :=
    (ensureInit_talks (Set.subset_univ _)).mono fun _ _ => Talks.files
  have enable : Moves SameFiles (spiFlashWriteEnable (σ := σ) env) :=
    (spiFlashWriteEnable_talks (Set.subset_univ _)).mono fun _ _ => Talks.files
  have driver : ∀ call, Moves SameFiles (callDriver (σ := σ) call) := fun _ _ => ⟨rfl, rfl⟩
  have page : ∀ startAddr, Moves SameFiles (function.page (σ := σ) env baseAddr file startAddr) := by
    intro startAddr
    cases function with
    | programBin => exact programPage_files
    | verifyBin => exact verifyPage_files
  exact (init.check <| (driver _).check <| (driver _).bind fun _ => enable).check <|
    Moves.checkLoop (fun _ => reportProgress_files.bind fun _ => page _) _ _

omit [XSpiDriver σ] in
/-- What follows the last page closes the file. -/
theorem finish_eq (function : ImageFunction) (w : World σ) :
    ∃ w', (function.finish >>= fun _ => fclose >>= fun _ => pure Xst.success) w =
        (.ret .success, w') ∧ w'.fopens = w.fopens ∧ w'.streams = w.streams - 1 := by
  cases function with
  | programBin => exact ⟨_, rfl, rfl, rfl⟩
  | verifyBin => exact ⟨_, rfl, rfl, rfl⟩

/-- **An image function and its file.**  A call that returns has called `fopen` once, and has
closed the file that it found unless it returned early.  The part between `fopen` and `fclose`
opens and closes nothing, so the count of streams depends on which of the two ends was
reached. -/
theorem run_files (h : function.run env w = (.ret status, w')) :
    w'.fopens = w.fopens + 1 ∧ (function.ReturnsEarly env w → w'.streams = w.streams + 1) ∧
      (¬ function.ReturnsEarly env w → w'.streams = w.streams) := by
  rcases hopen : env.fopen w.fopens w.flashData.pathname with _ | file
  · rw [run_of_none hopen] at h
    cases h
    refine ⟨rfl, ?_, fun _ => rfl⟩
    rintro ⟨file, _, _, hfile, -⟩
    exact nomatch hopen.symm.trans hfile
  · rw [run_of_some hopen] at h
    obtain ⟨status₁, w₁, hbody, -⟩ := bind_eq_ret.mp h
    have hfiles := body_files.of_eq hbody
    have opened : w₁.fopens = w.fopens + 1 ∧ w₁.streams = w.streams + 1 :=
      ⟨hfiles.fopens, hfiles.streams⟩
    -- the file is closed behind the last page, and not where the body returns a failure
    by_cases hok : status₁ = .success
    · subst hok
      obtain ⟨w₂, hfinish, hfopens, hstreams⟩ := function.finish_eq w₁
      rw [check_of_ok hbody, hfinish] at h
      cases h
      refine ⟨hfopens.trans opened.1, ?_, fun _ => by rw [hstreams, opened.2, Nat.add_sub_cancel]⟩
      rintro ⟨file', status, w', hfile, hearly, hne⟩
      obtain rfl := Option.some.inj (hopen.symm.trans hfile)
      cases hbody.symm.trans hearly
      exact absurd rfl hne
    · rw [check_of_ne hbody hok] at h
      cases h
      refine ⟨opened.1, fun _ => opened.2, fun hearly => absurd ?_ hearly⟩
      exact ⟨file, status₁, w', hopen, hbody, hok⟩

/-- A call that succeeds has closed its file. -/
theorem not_returnsEarly (h : function.run env w = (.ret .success, w')) :
    ¬ function.ReturnsEarly env w := by
  rintro ⟨file, status, w₁, hopen, hbody, hne⟩
  rw [run_of_some hopen, check_of_ne hbody hne] at h
  cases h

end ImageFunction

end ImageFunction

end Kiflash
