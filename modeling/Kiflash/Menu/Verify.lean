import Kiflash.Menu.Typed

/-!
# The verify option of the menu

Option 14 selects the region of an image, verifies it, leaves the result in the `Status` that
all options share, and reports a failure.  For the second timer image the call of
`qspi_verify_bin` is missing: what is tested there is the `Status` of some earlier option.

* `Verified` — what the option should leave behind.
* `verifyAndReport_verified` — a branch with its call does, on a flash whose page reads are
  exact.
* `verifyBin_verified_iff` — the four branches.

### Three branches are one

The first three branches differ in the region and in their message, and `verifyBin_eq` writes
all four in terms of one definition.  The difference that is left, the missing call, is then a
case of its own: its status and its report are functions of the state before it, and comparing
them with the contents of the flash gives the condition.

`Verified` has two halves since a status of success and a missing message are different things
to the user.  A branch that verifies may fail on a flash that holds the file, when a transfer
fails; it then reports that, and nothing wrong has been said about the flash.
-/

open Imperative Imperative.Prog

namespace Kiflash.Cmd

/-- The region of the image that a number stands for, and the message about its failure.  A
number that stands for no image has neither. -/
def imageOf (kind : UInt32) : Option (Region × String) :=
  if kind = 1 then some (.golden, "verify_golden failed at verify\n")
  else if kind = 2 then some (.user, "verify_user failed at verify\n")
  else if kind = 3 then some (.timer1, "verify_timer1 failed at verify\n")
  else if kind = 4 then some (.timer2, "verify_timer2 failed at verify\n")
  else none

section Verified

variable {σ : Type}

/-- What has been added to the log.  The log only grows, so this is all that happened in
between. -/
def newLog (c c' : Console σ) : List MenuEvent := c'.log.drop c.log.length

/-- `Status` is success only if the flash holds the file, and a failure is reported if it
does not. -/
structure Verified (flash : UInt32 → UInt8) (image : Region × String) (file : File)
    (c c' : Console σ) : Prop where
  holds : c'.status = .success → Holds flash image.1.baseAddr file
  reports : ¬ Holds flash image.1.baseAddr file → .report image.2 ∈ newLog c c'

variable [XSpiDriver σ] {host : Host σ}

/-- A branch of the option with its call of `qspi_verify_bin`.  Three of the four branches of
the source are this, with their own values. -/
def verifyAndReport (host : Host σ) (image : Region × String) : Prog (Console σ) Unit := do
  call (selectRegion image.1)
  assign (qspiVerifyBin host.env)
  reportFailure image.2

/-- A number stands for an image exactly if the option takes it; the last one has no
verification. -/
theorem verifyBin_eq {kind : UInt32} {image : Region × String} (h : imageOf kind = some image) :
    verifyBin host kind = execute (.verify kind)
      (if kind = 4 then call (selectRegion image.1) >>= fun _ => reportFailure image.2
        else verifyAndReport host image) := by
  simp only [imageOf] at h
  split_ifs at h with h₁ h₂ h₃ h₄ <;> cases h
  · subst h₁; rfl
  · subst h₂; rfl
  · subst h₃; rfl
  · subst h₄; rfl

/-- The world in which the verification of an image begins: the four assignments have been
made, and nothing has been sent. -/
def Console.selected (c : Console σ) (image : Region × String) : World σ :=
  { c.world with flashData := c.world.flashData.select image.1 }

omit [XSpiDriver σ] in
/-- The branch without its call always returns, and tests the status that it found. -/
theorem selectAndReport_eq (image : Region × String) (c : Console σ) :
    (call (selectRegion image.1) >>= fun _ => reportFailure image.2) c =
      (.ret (),
        { c with
          world := c.selected image
          log := c.log ++ if c.status = .success then [] else [.report image.2] }) := by
  by_cases hok : c.status = .success
  · rw [if_pos hok, List.append_nil]
    show reportFailure image.2 { c with world := c.selected image } = _
    simp [reportFailure, gets, bind, andThen, pure, hok]
  · rw [if_neg hok]
    show reportFailure image.2 { c with world := c.selected image } = _
    simp [reportFailure, record, gets, Prog.modify, bind, andThen, hok]

section Call

variable {content : σ → UInt32 → UInt8} (hx : ExactReads host.env content)
variable {image : Region × String} {file : File} {c c' : Console σ}
include hx

/-- The verification changes nothing in the flash, whatever comes of it. -/
theorem qspiVerifyBin_content (w : World σ) :
    content (qspiVerifyBin host.env w).2.bus = content w.bus :=
  hx.quiet.run (qspiVerifyBin_reports (E := Set.univ) housekeeping_subset transfers_univ.admits says_read
    (fun _ _ _ _ _ _ => trivial) trivial).bus

/-- **A branch with its call verifies.**  A success means that the pages have been compared,
and on a flash that does not hold the file there is none.  The message comes from the status
of this very call, which is why the two fields of `Verified` hold together. -/
theorem verifyAndReport_verified (hreg : file.Regular) (hlen : file.contents.length < 2 ^ 32)
    (hfile : host.env.fopen c.world.fopens (c.selected image).flashData.pathname = some file)
    (h : verifyAndReport host image c = (.ret (), c')) :
    Verified (content c.world.bus) image file c c' := by
  have hwp : wp (verifyAndReport host image)
      (fun _ c' => Verified (content c.world.bus) image file c c') (fun _ _ => True) c := by
    refine wp_bind.mpr (wp_call.mpr (wp_modify.mpr (wp_bind.mpr (wp_assign.mpr ?_))))
    have hsame := qspiVerifyBin_content hx (c.selected image)
    rcases hrun : qspiVerifyBin host.env (c.selected image) with ⟨status | why, w'⟩
    · rw [hrun] at hsame
      -- a success has compared every byte of the file
      have hholds : status = .success → Holds (content c.world.bus) image.1.baseAddr file := by
        rintro rfl
        obtain ⟨file', hfile', -, hpages⟩ := qspiVerifyBin_matches hx hrun
        cases hfile.symm.trans hfile'
        have hflash := hpages.holds hreg hlen
        rw [hsame] at hflash
        exact hflash
      refine (wp_of_ret hrun).mpr (wp_reportFailure.mpr ⟨fun hok => ?_, fun hno => ?_⟩)
      · exact ⟨hholds, fun hnot => absurd (hholds hok) hnot⟩
      · refine ⟨fun hok => absurd hok hno, fun _ => ?_⟩
        show .report image.2 ∈ (c.log ++ [MenuEvent.report image.2]).drop c.log.length
        rw [List.drop_left]
        exact List.mem_singleton_self _
    · exact (wp_of_stop hrun).mpr trivial
  exact (wp_of_ret h).mp hwp

/-- On a bus that answers, a branch with its call returns. -/
theorem verifyAndReport_returns {Up : σ → Prop} {polls : σ → ℕ}
    (hr : Responsive host.env.rounds Up polls) (hup : Ready Up c.world)
    (hflag : c.world.qspiInitFlag = true)
    (hfile : host.env.fopen c.world.fopens (c.selected image).flashData.pathname = some file) :
    ∃ c', verifyAndReport host image c = (.ret (), c') := by
  have hwp : wp (verifyAndReport host image) (fun _ _ => True) (fun _ _ => False) c := by
    refine wp_bind.mpr (wp_call.mpr (wp_modify.mpr (wp_bind.mpr (wp_assign.mpr ?_))))
    refine wp_mono (qspiVerifyBin_ready hr hx (w := c.selected image) ⟨hup.bus, hup.errorCount⟩
      hflag hfile) (fun status w' _ => ?_) fun _ _ h => h
    exact wp_reportFailure.mpr ⟨fun _ => trivial, fun _ => trivial⟩
  obtain ⟨_, c', hrun, -⟩ := exists_ret_of_wp hwp
  exact ⟨c', hrun⟩

omit [XSpiDriver σ] hx in
/-- The entry about the command itself is no message. -/
theorem Verified.execute (command : Command) {flash : UInt32 → UInt8}
    (h : Verified flash image file (record (.command command) c).2 c') :
    Verified flash image file c c' := by
  refine ⟨h.holds, fun hnot => List.mem_of_mem_drop (i := 1) ?_⟩
  have hlen : (record (.command command) c).2.log.length = c.log.length + 1 :=
    List.length_append
  have hnew := h.reports hnot
  rwa [newLog, hlen, ← List.drop_drop] at hnew

/-- **The verify option verifies, except for the second timer image.**  There it is right only
if the status before was a failure or the flash happens to hold the file.

The first half says that the option returns, so that the second is about something.  In the
branch of the second timer image the call of the verification is missing: the status that is
tested is the one that an earlier option has left.  The other branches call the verification,
and a success of it means that the flash holds the file. -/
theorem verifyBin_verified_iff {kind : UInt32} (hkind : imageOf kind = some image)
    (hreg : file.Regular) (hlen : file.contents.length < 2 ^ 32)
    (hfile : host.env.fopen c.world.fopens (c.selected image).flashData.pathname = some file) :
    (∀ Up polls, Responsive host.env.rounds Up polls → Ready Up c.world →
      c.world.qspiInitFlag = true → ∃ c', verifyBin host kind c = (.ret (), c')) ∧
    ∀ c', verifyBin host kind c = (.ret (), c') →
      (Verified (content c.world.bus) image file c c' ↔
        kind ≠ 4 ∨ c.status ≠ .success ∨ Holds (content c.world.bus) image.1.baseAddr file) := by
  rw [verifyBin_eq hkind]
  set c₁ : Console σ := { c with log := c.log ++ [.command (.verify kind)] } with hc₁
  show (∀ Up polls, _ → _ → _ → ∃ c', (if kind = 4 then _ else _ : Prog (Console σ) Unit) c₁ = _) ∧
    ∀ c', (if kind = 4 then _ else _ : Prog (Console σ) Unit) c₁ = _ → _
  -- the branch without its call, and the three with it
  by_cases hfour : kind = 4
  · rw [if_pos hfour, selectAndReport_eq]
    refine ⟨fun Up polls _ _ _ => ⟨_, rfl⟩, fun c' h => ?_⟩
    cases h
    by_cases hok : c.status = .success
    · -- nothing was read: only what the flash happens to hold makes it right
      refine ⟨fun hv => .inr (.inr (hv.holds hok)), fun hright => ?_⟩
      have hholds := (hright.resolve_left (not_not.mpr hfour)).resolve_left (not_not.mpr hok)
      exact ⟨fun _ => hholds, fun hnot => absurd hholds hnot⟩
    · refine iff_of_true (Verified.execute (.verify kind) ?_) (.inr (.inl hok))
      refine ⟨fun hok' => absurd hok' hok, fun _ => ?_⟩
      show .report image.2 ∈ (c₁.log ++ if c.status = .success then [] else
        [MenuEvent.report image.2]).drop c₁.log.length
      rw [if_neg hok, List.drop_left]
      exact List.mem_singleton_self _
  · rw [if_neg hfour]
    refine ⟨fun Up polls hr hup hflag => ?_, fun c' h => iff_of_true ?_ (.inl hfour)⟩
    · exact verifyAndReport_returns hx (c := c₁) hr hup hflag hfile
    · exact Verified.execute _ (verifyAndReport_verified hx (c := c₁) hreg hlen hfile h)

end Call

end Verified

/-- The process that has got to the menu, with the user image selected, in front of a blank
flash. -/
def blankConsole : Console BlankFlash := ⟨blankWorld, .success, [], []⟩

/-- The user image, which a blank flash holds. -/
theorem verifyBin_verified_user :
    ∃ c', verifyBin blankHost 2 blankConsole = (.ret (), c') ∧
      Verified (blankContent .blank) (.user, "verify_user failed at verify\n") blankFile
        blankConsole c' := by
  have hx : ExactReads blankHost.env blankContent := blank_laws.exactReads blankEnv
  have hkind : imageOf 2 = some (.user, "verify_user failed at verify\n") := rfl
  have hboth := verifyBin_verified_iff hx (c := blankConsole) hkind blankFile_regular
    blankFile_length rfl
  obtain ⟨c', hrun⟩ := hboth.1 _ _ (blank_responsive Nat.one_pos) ⟨trivial, rfl⟩ rfl
  exact ⟨c', hrun, (hboth.2 c' hrun).mpr (.inl (by decide))⟩

/-- A host on which every file is a single zero, which a blank flash does not hold. -/
def zeroHost : Host BlankFlash where
  env := .plain (some ⟨1, [0]⟩) 0xFF
  getcwd := some "/root"
  pciSweep _ := pure .success

/-- The second timer image, where the file is a zero and the flash blank: the option leaves
success behind and reports nothing. -/
theorem verifyBin_verified_counterexample :
    ∃ c', verifyBin zeroHost 4 blankConsole = (.ret (), c') ∧ c'.status = .success ∧
      newLog blankConsole c' = [.command (.verify 4)] ∧
      ¬ Verified (blankContent .blank) (.timer2, "verify_timer2 failed at verify\n") ⟨1, [0]⟩
        blankConsole c' := by
  refine ⟨_, rfl, rfl, rfl, fun hv => ?_⟩
  have hholds := hv.holds rfl 0 (Nat.succ_pos 0)
  exact absurd hholds (by decide)

end Kiflash.Cmd
