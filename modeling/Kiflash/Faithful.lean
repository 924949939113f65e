import Kiflash.Blank

/-!
# Verified means faithful

A programming call that returns success leaves the image in the flash, byte for byte, whatever
the erase and program commands did on the way.  Nothing is assumed of those commands;
`FlashLaws` says what is assumed of the rest.  A flash on which they do nothing at all,
`BlankFlash`, satisfies it.

* `ProgramCall.holds_of_success` — a verified image is in the flash.
* `kiflashProgramUser_holding` — the FPGA is rebooted from the user image only.
* `verified_means_faithful` — both, for every call and every run.

The second half concerns `kiflash_program_user`: the words that reboot the FPGA are written
behind a successful `program_user`, so every one of them finds the whole user image in place.
It is a statement about each register write with the contents at that moment, and not about
the end of the run, since the writes come one after the other and the run may end between
them.

### The two hypotheses on the file

The file is the same at every `fopen`, is regular, and is shorter than 2³² bytes.  Without the
first the verification would compare with another file than the one that is meant; without the
others the code compares less than the file, as it counts its pages from `ftell` in 32 bits.
-/

open Imperative Imperative.Prog

namespace Kiflash

section Laws

variable {σ : Type} [XSpiDriver σ] {content : σ → UInt32 → UInt8} (laws : FlashLaws content)
include laws

/-! ## A programming call -/

/-- **A verified image is in the flash.**  The file is the answer of every `fopen`.  Only the
last stage is looked at: the verification has compared every page, and nothing behind it sends
a command. -/
theorem ProgramCall.holds_of_success {env : Env} {file : File} (hfile : file.Regular)
    (hlen : file.contents.length < 2 ^ 32) (call : ProgramCall) {w w' : World σ}
    (hopen : ∀ i f, env.fopen i w.flashData.pathname = some f → f = file)
    (h : call.run env w = (.ret .success, w')) :
    Holds (content w'.bus) w.flashData.baseAddr file := by
  obtain ⟨w₁, w₂, h₁, hverify, hbus, -⟩ := call.run_success h
  obtain ⟨hbase, -, -, hpath⟩ := h₁.target
  obtain ⟨f, hf, -, hpages⟩ := qspiVerifyBin_matches (laws.exactReads env) hverify
  rw [hpath] at hf
  obtain rfl := hopen _ _ hf
  rw [hbus, ← hbase]
  exact hpages.holds hfile hlen

/-! ## The reboot words -/

/-- The events of a run that writes outside the SPI core only with the image in place.  Such a
write is a word to the configuration port. -/
def pciWriteHolding (content : σ → UInt32 → UInt8) (baseAddr : UInt32) (file : File) :
    Set (Event σ) :=
  {e | ∀ before address data, e = .pciWrite before address data →
    Holds (content before) baseAddr file}

omit [XSpiDriver σ] laws in
/-- A run without such a write is one of them. -/
theorem noPciWrite_subset {baseAddr : UInt32} {file : File} :
    noPciWrite ⊆ pciWriteHolding content baseAddr file :=
  fun _ he before address data h => absurd h (he before address data)

/-- Writes outside the SPI core with the image in place. -/
theorem icap_holding {baseAddr : UInt32} {file : File} (die : UInt32) {w : World σ}
    (h : Holds (content w.bus) baseAddr file) :
    Emits (pciWriteHolding content baseAddr file) w (icap die w).2 := by
  obtain ⟨w', hrun, -, hemits⟩ := icap_reports
    (I := fun bus => Holds (content bus) baseAddr file)
    (fun address data bus h => by rwa [laws.pci]) die h
  rw [hrun]
  refine hemits.mono ?_
  rintro _ ⟨before, address, data, rfl, hholds⟩ _ _ _ ⟨⟩
  exact hholds

/-- **The FPGA is rebooted from the user image only.**  In a run of
`kiflash_program_user`, whatever its outcome, every write outside the SPI core
finds the whole user image in the flash. -/
theorem kiflashProgramUser_holding {env : Env} {file : File} (hfile : file.Regular)
    (hlen : file.contents.length < 2 ^ 32)
    (hopen : ∀ i f, env.fopen i userImagePath = some f → f = file) (w : World σ) :
    Emits (pciWriteHolding content Region.user.baseAddr file) w (kiflashProgramUser env w).2 := by
  have quiet : noPciWrite ⊆ pciWriteHolding content Region.user.baseAddr file :=
    noPciWrite_subset
  have hprogram : Moves (Reports Set.univ noPciWrite) (programUser (σ := σ) env 1) := fun _ =>
    (ProgramCall.user 1).run_reports (Set.subset_univ _) transfers_noPciWrite.admits
      (fun _ _ _ => trivial) (fun _ _ _ _ _ _ => trivial) (says_univ _) percentage_noPciWrite
      verifyPassed_noPciWrite
  refine wp_state_iff.mp (wp_kiflashProgramUser transfers_noPciWrite.admits (percentage_noPciWrite 0)
    (fun _ _ _ h => h.mono quiet) fun w₁ _ h₁ hpath hselected => ?_)
  rcases hrun : programUser env 1 w₁ with ⟨status | why, w₂⟩
  · have hdone := trans_of (Emits noPciWrite) h₁ (hprogram.of_eq hrun).emits
    refine (wp_of_ret hrun).mpr ⟨fun hok => ?_, fun _ => hdone.mono quiet⟩
    subst hok
    have hholds := ProgramCall.holds_of_success laws hfile hlen (.user 1)
      (by rw [hpath]; exact hopen) hrun
    have hbase : w₁.flashData.baseAddr = Region.user.baseAddr := by rw [hselected]; rfl
    rw [hbase] at hholds
    refine wp_mono (wp_state_iff.mpr (icap_holding laws 0 hholds))
      (fun _ w₃ h₃ => ?_) fun _ w₃ h₃ => trans_of _ (hdone.mono quiet) h₃
    have hlast : Emits noPciWrite w₃ (setPercentage env 100 w₃).2 :=
      (setPercentage_reports (A := Set.univ) (percentage_noPciWrite 100) w₃).emits
    exact trans_of _ (trans_of _ (hdone.mono quiet) h₃) (hlast.mono quiet)
  · have hdone := trans_of (Emits noPciWrite) h₁ (hprogram.of_eq hrun).emits
    exact (wp_of_stop hrun).mpr (hdone.mono quiet)

/-- **Verified means faithful.**  A programming call that returns success leaves the file in
the flash from `FlashData.baseAddr` on; and every write outside the SPI core in a run of
`kiflash_program_user` finds the user image there.

Nothing is asked of the bus but that it reads what is in its flash: it may fail, keep the code
waiting, or program something else.  `hfile` says that the contents are what `fread` delivers,
and `hlen` that an offset of 32 bits reaches every byte of them.  The host may open the file
as often as it likes, as long as it finds the same file each time. -/
theorem verified_means_faithful (env : Env) (file : File) (hfile : file.Regular)
    (hlen : file.contents.length < 2 ^ 32) :
    (∀ (call : ProgramCall) (w w' : World σ),
      (∀ i f, env.fopen i w.flashData.pathname = some f → f = file) →
      call.run env w = (.ret .success, w') →
      Holds (content w'.bus) w.flashData.baseAddr file) ∧
    (∀ w : World σ, (∀ i f, env.fopen i userImagePath = some f → f = file) →
      ∀ before address data,
        .pciWrite before address data ∈ newEvents w (kiflashProgramUser env w).2 →
        Holds (content before) Region.user.baseAddr file) := by
  refine ⟨fun call w w' hopen h => call.holds_of_success laws hfile hlen hopen h, ?_⟩
  intro w hopen before address data he
  exact (kiflashProgramUser_holding laws hfile hlen hopen w).mem_newEvents he _ _ _ rfl

end Laws

/-- On a blank flash both halves have something to say: `program_user` returns success,
and `kiflash_program_user` from a fresh process writes the reboot words. -/
theorem verified_means_faithful_blank :
    (∃ w', (ProgramCall.user 1).run blankEnv blankWorld = (.ret .success, w') ∧
      Holds (blankContent w'.bus) Region.user.baseAddr blankFile) ∧
    ∃ before address data, .pciWrite before address data ∈
        newEvents (World.fresh .blank) (kiflashProgramUser blankEnv (World.fresh .blank)).2 ∧
      Holds (blankContent before) Region.user.baseAddr blankFile := by
  have faithful := verified_means_faithful blank_laws blankEnv blankFile blankFile_regular
    blankFile_length
  have hopen : ∀ i name f, blankEnv.fopen i name = some f → f = blankFile :=
    fun _ _ _ h => (Option.some.inj h).symm
  have hopen_eq : ∀ i name, blankEnv.fopen i name = some blankFile := fun _ _ => rfl
  have hheap : ∀ n k, blankEnv.malloc n k = 0xFF := fun _ _ => rfl
  constructor
  · obtain ⟨w', hrun, -⟩ := programUser_blank (w := blankWorld) Nat.one_pos rfl rfl
      (fun i => hopen_eq i _) blankFile_bytes hheap rfl
    exact ⟨w', hrun, faithful.1 (.user 1) _ _ (fun i => hopen i _) hrun⟩
  · obtain ⟨w', hrun, -, -, before, address, data, hmem⟩ := kiflashProgramUser_blank
      (w := World.fresh .blank) Nat.one_pos rfl (fun i => hopen_eq i _) blankFile_bytes
      hheap rfl
    have hmem' : .pciWrite before address data ∈
        newEvents (World.fresh .blank) (kiflashProgramUser blankEnv (World.fresh .blank)).2 := by
      rw [hrun]
      exact hmem
    exact ⟨before, address, data, hmem', faithful.2 _ (fun i => hopen i _) _ _ _ hmem'⟩

end Kiflash
