import Kiflash.Blank
import Kiflash.Files
import Kiflash.Imperative.Steps
import Kiflash.Operations

/-!
# Descriptors that stay open

`kiflash_init` opens the chassis PCI device whenever it is called, and nothing closes it.  An
image function that fails behind its `fopen` returns without `fclose`.  So a process that goes
on calling the library keeps its descriptors within bounds exactly if it initialises once and
no image function fails.

* `ImageFunction.before` — the part of `kiflash_program_user` in front of an image function.
* `LibraryCall.OpensDevice`, `LibraryCall.LeavesStream` — the calls that leave one more
  descriptor behind.
* `LibraryCall.run_descriptors` — what one call adds.
* `descriptors_iff` — what a process does to its descriptors.

### How the condition is stated

Both ways to lose a descriptor are decided before the descriptor is lost.  Whether a call
opens the device depends on the call and on `qspi_init_flag`.  Whether an image function
returns early depends on what happens between `fopen` and the last page, and `LeavesStream`
says that the call gets to an image function, in the state that the steps in front of it have
left, whose part behind `fopen` fails.  An image that cannot be opened leaves no stream, and
neither does a failure in the erase stage.

### Why the descriptor of the device counts up to one

The process needs the device, so one descriptor is within bounds.  The calls share it:
`kiflash_program_user` initialises by itself, and a client that has called `kiflash_init`
before opens the device twice.
-/

open Imperative Imperative.Prog

namespace Kiflash

section Definitions

variable {σ : Type} [XSpiDriver σ] (env : Env)

/-- `kiflash_program_user` up to its call of `qspi_program_bin`.  The status of `kiflash_init`
is dropped there. -/
def beforeProgramBin : Prog (World σ) Xst := do
  let _ ← kiflashInit env
  selectRegion .user
  setPercentage env 0
  setPercentage env 1
  check (eraseStage env (setPercentage env) (ProgramCall.user 1).eraseFrom 1) do
    setPercentage env 20
    pure .success

/-- `kiflash_program_user` up to its call of the image function.  The state that this leads to
decides whether the function leaves its stream open. -/
def ImageFunction.before : ImageFunction → Prog (World σ) Xst
  | programBin => beforeProgramBin env
  | verifyBin => check (beforeProgramBin env) <| check (qspiProgramBin env) do
    setPercentage env 60
    pure .success

/-- The call runs `kiflash_init`.  `kiflash_icap` does so in a process that has not been
initialised. -/
def LibraryCall.OpensDevice (w : World σ) : LibraryCall → Prop
  | init | programUser => True
  | icap _ => w.qspiInitFlag = false

/-- The call gets to an image function that returns early.  The programming comes first, and
the verification behind a programming that succeeded. -/
def LibraryCall.LeavesStream (w : World σ) : LibraryCall → Prop
  | programUser => ∃ (function : ImageFunction) (w₁ : World σ),
    function.before env w = (.ret .success, w₁) ∧ function.ReturnsEarly env w₁
  | init | icap _ => False

end Definitions

section Descriptors

variable {σ : Type} [XSpiDriver σ] {env : Env} {w w' : World σ} {status : Xst}

/-! ## The device -/

/-- `kiflash_init` opens the device, initialised or not. -/
theorem kiflashInit_pciFds (h : kiflashInit env w = (.ret status, w')) :
    w'.pciFds = w.pciFds + 1 := by
  have hwp : wp (kiflashInit env) (fun _ w' => w'.pciFds = w.pciFds + 1) (fun _ _ => True) w := by
    refine wp_kiflashInit (fun _ => trivial) fun _ => ?_
    refine wp_mono ((ensureInit_talks (Set.subset_univ _)).wp _) (fun _ w₁ h₁ => ?_)
      fun _ _ _ => trivial
    exact ⟨fun _ => h₁.pciFds, fun _ => h₁.pciFds⟩
  exact (wp_of_ret h).mp hwp

/-- The reboot opens nothing. -/
theorem icap_pciFds (die : UInt32) (w : World σ) : (icap die w).2.pciFds = w.pciFds := by
  obtain ⟨bus, events, heq⟩ := icap_eq die w
  rw [heq]

/-- `kiflash_program_user` opens the device once.  It is the one in its call of
`kiflash_init`, and nothing else of it has to do with the chassis device. -/
theorem kiflashProgramUser_pciFds (h : kiflashProgramUser env w = (.ret status, w')) :
    w'.pciFds = w.pciFds + 1 := by
  have store : ∀ {value} {w w₁ : World σ}, setPercentage env value w = (.ret (), w₁) →
      w₁.pciFds = w.pciFds := fun h => (setPercentage_moves.of_eq h).pciFds
  obtain ⟨_, w₁, hinit, h⟩ := bind_eq_ret.mp h
  obtain ⟨_, _, ⟨⟩, h⟩ := bind_eq_ret.mp h
  obtain ⟨_, w₂, hzero, h⟩ := bind_eq_ret.mp h
  have hprogram : Reports Set.univ Set.univ w₂ (programUser env 1 w₂).2 :=
    (ProgramCall.user 1).run_moves w₂
  have hopened := kiflashInit_pciFds hinit
  have hfds : w₂.pciFds = w.pciFds + 1 := (store hzero).trans hopened
  rcases check_eq_ret.mp h with ⟨w₃, hrun, h⟩ | ⟨_, hrun, -, -⟩ <;> rw [hrun] at hprogram
  · obtain ⟨_, w₄, hicap, h⟩ := bind_eq_ret.mp h
    obtain ⟨_, w₅, hlast, ⟨⟩⟩ := bind_eq_ret.mp h
    have hreboot := icap_pciFds 0 w₃
    rw [hicap] at hreboot
    rw [store hlast, hreboot, hprogram.pciFds, hfds]
  · rw [hprogram.pciFds, hfds]

/-- `kiflash_program_user` around its two image functions. -/
theorem kiflashProgramUser_eq : kiflashProgramUser (σ := σ) env =
    check (beforeProgramBin env) (check (qspiProgramBin env) do
      setPercentage env 60
      check (qspiVerifyBin env) do
        setPercentage env 100
        let _ ← icap 0
        setPercentage env 100
        pure .success) := by
  have success : ∀ k : Prog (World σ) Xst, check (pure .success) k = k := check_pure_ok
  simp only [kiflashProgramUser, programUser, eraseProgramVerify, beforeProgramBin, ← bind_check,
    check_assoc, success]
  rfl

/-! ## The files -/

/-- In front of the image functions, no file is opened or closed. -/
theorem beforeProgramBin_files : Moves SameFiles (beforeProgramBin (σ := σ) env) :=
  kiflashInit_files.bind fun _ => Moves.bind (moves_modify fun _ => ⟨rfl, rfl⟩) fun _ =>
    setPercentage_files.bind fun _ => setPercentage_files.bind fun _ =>
    (eraseStage_files : Moves SameFiles (eraseStage env ((ProgramCall.user 1).mark env) _ _)).check <|
    setPercentage_files.bind fun _ => moves_pure _

/-- A run that does not get to `qspi_program_bin`. -/
theorem not_leavesStream_of_before (hbefore : beforeProgramBin env w = (.ret status, w'))
    (hne : status ≠ .success) : ¬ LibraryCall.programUser.LeavesStream env w := by
  rintro ⟨function, w₁, hfunction, -⟩
  cases function with
  | programBin =>
      cases hbefore.symm.trans hfunction
      exact hne rfl
  | verifyBin =>
      obtain ⟨w₂, hprogram, -⟩ := check_eq_ok.mp hfunction
      cases hbefore.symm.trans hprogram
      exact hne rfl

/-- A run that gets to `qspi_program_bin` and no further.  Whether a stream is left is then
decided by this function alone. -/
theorem leavesStream_iff_programBin {w₁ : World σ}
    (hbefore : beforeProgramBin env w = (.ret .success, w₁))
    (hprogram : qspiProgramBin env w₁ = (.ret status, w')) (hne : status ≠ .success) :
    LibraryCall.programUser.LeavesStream env w ↔ ImageFunction.programBin.ReturnsEarly env w₁ := by
  refine ⟨?_, fun hearly => ⟨.programBin, w₁, hbefore, hearly⟩⟩
  rintro ⟨function, w₂, hfunction, hearly⟩
  cases function with
  | programBin =>
      cases hbefore.symm.trans hfunction
      exact hearly
  | verifyBin =>
      obtain ⟨_, hbefore', hfunction⟩ := check_eq_ok.mp hfunction
      cases hbefore.symm.trans hbefore'
      obtain ⟨_, hprogram', -⟩ := check_eq_ok.mp hfunction
      cases hprogram.symm.trans hprogram'
      exact absurd rfl hne

/-- A run that gets to `qspi_verify_bin`. -/
theorem leavesStream_iff_verifyBin {w₁ w₂ : World σ}
    (hbefore : beforeProgramBin env w = (.ret .success, w₁))
    (hclosed : ¬ ImageFunction.programBin.ReturnsEarly env w₁)
    (hreach : ImageFunction.verifyBin.before env w = (.ret .success, w₂)) :
    LibraryCall.programUser.LeavesStream env w ↔ ImageFunction.verifyBin.ReturnsEarly env w₂ := by
  refine ⟨?_, fun hearly => ⟨.verifyBin, w₂, hreach, hearly⟩⟩
  rintro ⟨function, w₃, hfunction, hearly⟩
  cases function with
  | programBin =>
      cases hbefore.symm.trans hfunction
      exact absurd hearly hclosed
  | verifyBin =>
      cases hreach.symm.trans hfunction
      exact hearly

/-- Behind the verification nothing touches the files. -/
theorem afterVerifyBin_streams
    (h : check (qspiVerifyBin env) (do
      setPercentage env 100
      let _ ← icap 0
      setPercentage env 100
      pure .success) w = (.ret status, w')) :
    ∃ status₁ w₁, ImageFunction.verifyBin.run env w = (.ret status₁, w₁) ∧
      w'.streams = w₁.streams := by
  rcases check_eq_ret.mp h with ⟨w₁, hverify, h⟩ | ⟨status₁, hverify, -, -⟩
  · obtain ⟨_, w₂, hmark, h⟩ := bind_eq_ret.mp h
    obtain ⟨_, w₃, hicap, h⟩ := bind_eq_ret.mp h
    obtain ⟨_, w₄, hlast, ⟨⟩⟩ := bind_eq_ret.mp h
    refine ⟨_, w₁, hverify, ?_⟩
    rw [(setPercentage_files.of_eq hlast).streams, ((icap_files 0).of_eq hicap).streams,
      (setPercentage_files.of_eq hmark).streams]
  · exact ⟨_, w', hverify, rfl⟩

/-- A call of `kiflash_program_user` leaves one file open, or none.  The cases are how far the
run gets: not to the programming, to it, or to the verification, which opens the file
again. -/
theorem kiflashProgramUser_streams (h : kiflashProgramUser env w = (.ret status, w')) :
    (LibraryCall.programUser.LeavesStream env w → w'.streams = w.streams + 1) ∧
      (¬ LibraryCall.programUser.LeavesStream env w → w'.streams = w.streams) := by
  rw [kiflashProgramUser_eq] at h
  rcases check_eq_ret.mp h with ⟨w₁, hbefore, h⟩ | ⟨status₁, hbefore, hne, -⟩
  · have hstreams₁ : w₁.streams = w.streams := (beforeProgramBin_files.of_eq hbefore).streams
    rcases check_eq_ret.mp h with ⟨w₂, hprogram, h⟩ | ⟨status₂, hprogram, hne, -⟩
    · have hrun₁ : ImageFunction.programBin.run env w₁ = (.ret .success, w₂) := hprogram
      have hclosed := ImageFunction.not_returnsEarly hrun₁
      have hstreams₂ := (ImageFunction.run_files hrun₁).2.2 hclosed
      obtain ⟨_, w₃, hmark, h⟩ := bind_eq_ret.mp h
      have hstreams₃ := (setPercentage_files.of_eq hmark).streams
      have hreach : ImageFunction.verifyBin.before env w = (.ret .success, w₃) :=
        check_eq_ok.mpr ⟨w₁, hbefore,
          check_eq_ok.mpr ⟨w₂, hprogram, bind_eq_ret.mpr ⟨_, w₃, hmark, rfl⟩⟩⟩
      obtain ⟨status₃, w₄, hverify, hstreams⟩ := afterVerifyBin_streams h
      obtain ⟨-, hopen, hclose⟩ := ImageFunction.run_files hverify
      rw [leavesStream_iff_verifyBin hbefore hclosed hreach, hstreams, ← hstreams₁, ← hstreams₂,
        ← hstreams₃]
      exact ⟨hopen, hclose⟩
    · have hrun₁ : ImageFunction.programBin.run env w₁ = (.ret status₂, w') := hprogram
      obtain ⟨-, hopen, hclose⟩ := ImageFunction.run_files hrun₁
      rw [leavesStream_iff_programBin hbefore hprogram hne, ← hstreams₁]
      exact ⟨hopen, hclose⟩
  · exact ⟨fun hleaves => absurd hleaves (not_leavesStream_of_before hbefore hne),
      fun _ => (beforeProgramBin_files.of_eq hbefore).streams⟩

/-! ## Runs of the library -/

/-- The one call of the run that opens the device comes first, and no image function fails.
It is a condition on a step, and on the state in front of it. -/
def LibraryCall.Tidy (env : Env) (call : LibraryCall) (w : World σ) : Prop :=
  (call.OpensDevice w → w.pciFds = 0) ∧ ¬ call.LeavesStream env w

/-- One call.  What it adds is decided by the two conditions on the state before it.  The
statement for a run follows by adding up. -/
theorem LibraryCall.run_descriptors {call : LibraryCall} (h : call.run env w = (.ret status, w')) :
    (call.OpensDevice w → w'.pciFds = w.pciFds + 1) ∧
      (¬ call.OpensDevice w → w'.pciFds = w.pciFds) ∧
      (call.LeavesStream env w → w'.streams = w.streams + 1) ∧
      (¬ call.LeavesStream env w → w'.streams = w.streams) := by
  cases call with
  | init =>
      have hfds := kiflashInit_pciFds h
      have hfiles := kiflashInit_files.of_eq h
      exact ⟨fun _ => hfds, fun hno => absurd trivial hno, fun hno => hno.elim, fun _ => hfiles.streams⟩
  | programUser =>
      obtain ⟨hopen, hclose⟩ := kiflashProgramUser_streams h
      exact ⟨fun _ => kiflashProgramUser_pciFds h, fun hno => absurd trivial hno, hopen, hclose⟩
  | icap die =>
      change kiflashIcap env die w = _ at h
      -- `icap` itself opens nothing; whether the device is opened is up to the flag
      have reboot : ∀ {w₁ : World σ}, Kiflash.icap die w₁ = (.ret status, w') →
          w'.pciFds = w₁.pciFds ∧ w'.streams = w₁.streams := by
        intro w₁ hicap
        have hfds := icap_pciFds die w₁
        rw [hicap] at hfds
        exact ⟨hfds, ((icap_files die).of_eq hicap).streams⟩
      cases hflag : w.qspiInitFlag with
      | true =>
          rw [kiflashIcap_of_flag die hflag] at h
          exact ⟨fun hopen => (nomatch hflag.symm.trans hopen), fun _ => (reboot h).1, fun hno => hno.elim,
            fun _ => (reboot h).2⟩
      | false =>
          rw [kiflashIcap_of_not_flag die hflag] at h
          obtain ⟨_, w₁, hinit, hicap⟩ := bind_eq_ret.mp h
          have hopened := kiflashInit_pciFds hinit
          have hfiles := kiflashInit_files.of_eq hinit
          exact ⟨fun _ => (reboot hicap).1.trans hopened, fun hno => absurd hflag hno,
            fun hno => hno.elim, fun _ => (reboot hicap).2.trans hfiles.streams⟩

/-- **Descriptors over the runs of a process.**  After each of its calls at most one
descriptor of the chassis PCI device and no image file is open, exactly if each call opens the
device only where it is not open yet, and none gets to an image function that returns early.

A descriptor is never given back, so a step that leaves one too many spoils every state behind
it, and the first such step is found from the first such state.  `Tidy` is on the state in
front of a call and on what the host offers it; the two kinds of leaks do not depend on each
other. -/
theorem descriptors_iff (env : Env) (calls : List LibraryCall) (bus : σ) :
    (∀ step ∈ steps (LibraryCall.run env) calls (World.fresh bus),
        step.after.pciFds ≤ 1 ∧ step.after.streams = 0) ↔
      ∀ step ∈ steps (LibraryCall.run env) calls (World.fresh bus), step.call.Tidy env step.before := by
  refine forall_steps_iff (P := fun w : World σ => w.pciFds ≤ 1 ∧ w.streams = 0)
    (C := LibraryCall.Tidy env) (fun call w status w' hw hrun => ?_) ⟨Nat.zero_le _, rfl⟩
  obtain ⟨hopens, hkeeps, hleaves, hcloses⟩ := LibraryCall.run_descriptors hrun
  obtain ⟨hfds, hstreams⟩ := hw
  refine and_congr ?_ ?_
  · by_cases hopen : call.OpensDevice w
    · rw [hopens hopen]
      exact ⟨fun hle _ => by omega, fun hzero => by rw [hzero hopen]⟩
    · rw [hkeeps hopen]
      exact iff_of_true hfds fun h => absurd h hopen
  · by_cases hleave : call.LeavesStream env w
    · rw [hleaves hleave]
      exact iff_of_false (by omega) (not_not.mpr hleave)
    · rw [hcloses hleave]
      exact iff_of_true hstreams hleave

end Descriptors

/-- Two calls of `kiflash_init` that both return success leave two descriptors. -/
theorem descriptors_counterexample :
    (steps (LibraryCall.run blankEnv) [.init, .init] (World.fresh BlankFlash.blank)).map
      (fun step => (step.value, step.after.pciFds)) = [(.success, 1), (.success, 2)] := by
  decide +kernel

end Kiflash
