import Kiflash.Nor.Programming

/-!
# Die numbers

The flash has four dies of `2 ^ 26` bytes.  Nothing checks a die number: it is shifted to an
address of 32 bits, and the flash drops the upper ones of these.  The first four numbers
select their die; every other number selects one of the four as well.

* `DieOperation` — the operations with a die number.
* `SelectsDie` — the number selects one die or nothing.
* `DieOperation.selectsDie_iff` — it does so up to 3, and for no other number.

The two directions are of different kinds.  For the first four numbers the frames of an
operation lie within the die, so nothing else can change on any device; the image of a die
must not be longer than a die for that.  For the other numbers it is enough to find one device
on which the operation succeeds, as a number that selects nothing would have to fail.  The
shift aliases the numbers modulo 64 to addresses, and these modulo 4 to dies.
-/

open Imperative Imperative.Prog NorFlash

namespace Kiflash

/-- The operations that take a die number.  All three turn it into an address by the same
shift. -/
inductive DieOperation where
  | flashEraseMain (ofsetAddr : UInt32)
  | dieErase
  | programFlash
  deriving DecidableEq, Repr

/-- The call with the die number `dieNr`. -/
def DieOperation.run {σ : Type} [XSpiDriver σ] (env : Env) (dieNr : UInt32) :
    DieOperation → Prog (World σ) Xst
  | flashEraseMain ofsetAddr => qspiFlashEraseMain env ofsetAddr dieNr
  | dieErase => spiFlashDieErase env dieNr
  | programFlash => qspiProgramFlash env dieNr

/-- The cells of the die number `n`.  For the four dies of the chip these are all its
cells. -/
def dieCells (n : ℕ) : Set ℕ := Set.Ico (n * 0x4000000) ((n + 1) * 0x4000000)

/-- The image of a die has no more bytes than a die.  Nothing in the source checks this. -/
def Env.FitsDie (env : Env) : Prop :=
  ∀ i file, env.fopen i dieImageName = some file → file.Regular ∧ file.contents.length ≤ 2 ^ 26

/-- A number of a die selects this die only, and any other number nothing, with a failure.
This is asked of every device and every host. -/
def DieOperation.SelectsDie (operation : DieOperation) (dieNr : UInt32) : Prop :=
  ∀ (p : NorParams) (env : Env) (w : World (Nor p)), env.FitsDie →
    (dieNr ≤ 3 → ∀ x ∉ dieCells dieNr.toNat, (operation.run env dieNr w).2.bus.mem x = w.bus.mem x) ∧
    (3 < dieNr → (∃ w', operation.run env dieNr w = (.ret .failure, w')) ∧
      (operation.run env dieNr w).2.bus.mem = w.bus.mem)

/-! ## The four dies -/

section Dies

variable {dieNr : UInt32}

/-- The first four numbers are shifted to the addresses of their dies. -/
theorem toNat_shift_die (h : dieNr ≤ 3) : (dieNr <<< 26).toNat = dieNr.toNat * 0x4000000 := by
  have hle : dieNr.toNat ≤ 3 := UInt32.le_iff_toNat_le.mp h
  rw [UInt32.toNat_shiftLeft, Nat.shiftLeft_eq]
  change dieNr.toNat * 0x4000000 % 2 ^ 32 = _
  omega

/-- The first four dies lie in the flash. -/
theorem die_lt (h : dieNr ≤ 3) : dieNr.toNat * 0x4000000 % flashSize = dieNr.toNat * 0x4000000 := by
  have hle : dieNr.toNat ≤ 3 := UInt32.le_iff_toNat_le.mp h
  rw [flashSize_eq]
  omega

/-- The erase frame of a die covers the die. -/
theorem dieErase_within (h : dieNr ≤ 3) :
    commandDieErase :: addrBytes (dieNr <<< 26) ∈ framesWithin (dieCells dieNr.toNat) := by
  intro x hx
  have hblock : InBlock 0x4000000 ((dieNr <<< 26).toNat % flashSize) x := footprint_dieErase _ hx
  rw [toNat_shift_die h, die_lt h, inBlock_iff_of_dvd (by decide) (Nat.dvd_mul_left _ _)]
    at hblock
  exact Set.mem_Ico.mpr (by omega)

/-- The pages of an image that fits.  The addresses count up from the beginning of the die,
and do not leave it. -/
theorem pages_within (h : dieNr ≤ 3) {file : File} (hfile : file.Regular)
    (hfits : file.contents.length ≤ 2 ^ 26) :
    PageFrames (framesWithin (dieCells dieNr.toNat)) (dieNr <<< 26) file := by
  intro j hj buffer x hx
  have hle : dieNr.toNat ≤ 3 := UInt32.le_iff_toNat_le.mp h
  have hcount := pageCount_toNat file.ftell
  rw [hfile] at hcount
  have hpage : pageAt (dieNr <<< 26) j = dieNr.toNat * 0x4000000 + 256 * j := by
    rw [← toNat_shift_die h]
    refine pageAt_of_lt ?_
    rw [toNat_shift_die h, flashSize_eq]
    omega
  have hblock : InBlock 256 (pageAt (dieNr <<< 26) j) x := footprint_program _ _ hx
  have hdvd : 256 ∣ dieNr.toNat * 0x4000000 + 256 * j := by omega
  rw [hpage, inBlock_iff_of_dvd (by decide) hdvd] at hblock
  have hj' : 256 * j + 256 ≤ 0x4000000 := by omega
  exact ⟨by omega, by omega⟩

variable {p : NorParams} {env : Env} {w : World (Nor p)}

/-- The operations talk to their die only.  The frames that name addresses are those of the
die, and all others change no cell. -/
theorem DieOperation.run_within (operation : DieOperation) (h : dieNr ≤ 3) (hfits : env.FitsDie) :
    Relation.ReflTransGen (BusStep (framesWithin (dieCells dieNr.toNat))) w.bus
      (operation.run env dieNr w).2.bus := by
  have hA : housekeeping ⊆ framesWithin (dieCells dieNr.toNat) :=
    Nor.housekeeping_subset_framesWithin
  have herase : Moves (Talks (framesWithin (dieCells dieNr.toNat)))
      (spiFlashDieErase (σ := Nor p) env dieNr) := spiFlashDieErase_talks hA (dieErase_within h)
  cases operation with
  | flashEraseMain ofsetAddr =>
      exact (herase.check ((spiFlashQuadEnable_talks hA).check (moves_pure _)) w).bus
  | dieErase => exact (herase w).bus
  | programFlash =>
      refine (qspiProgramFlash_reports hA transfers_univ.admits fun i file hopen => ?_).bus
      obtain ⟨hregular, hlength⟩ := hfits i file hopen
      exact pages_within h hregular hlength

/-! ## Every other number -/

/-- **On a bus that answers, an operation succeeds with any die number**, if the image of a
programming is there.  No function of the source looks at whether there is such a die. -/
theorem DieOperation.run_succeeds {σ : Type} [XSpiDriver σ] {Up : σ → Prop} {polls : σ → ℕ}
    {w : World σ} (hr : Responsive env.rounds Up polls) (operation : DieOperation) (dieNr : UInt32)
    (h : Ready Up w) (hflag : w.qspiInitFlag = true) {file : File}
    (hfile : env.fopen w.fopens dieImageName = some file) :
    ∃ w', operation.run env dieNr w = (.ret .success, w') := by
  cases operation with
  | flashEraseMain ofsetAddr =>
      have serves : Serves Up (qspiFlashEraseMain env ofsetAddr dieNr) := qspiFlashEraseMain_serves hr
      exact (serves.exists_ret h).imp fun _ h' => h'.1
  | dieErase =>
      have serves : Serves Up (spiFlashDieErase env dieNr) := spiFlashDieErase_serves hr
      exact (serves.exists_ret h).imp fun _ h' => h'.1
  | programFlash =>
      obtain ⟨_, w', hrun, rfl⟩ := exists_ret_of_wp (qspiProgramFlash_ready hr h hflag hfile)
      exact ⟨w', hrun⟩

/-- **Die numbers select one die or nothing exactly up to 3.**  For each of the three
operations on dies, and over all devices and states.

The address of a die is its number shifted left by 26 in 32 bits.  From 4 on the shift loses
the bits that matter, no operation looks at the number, and one of the first four dies is
taken where the operation should fail and change nothing. -/
theorem DieOperation.selectsDie_iff (operation : DieOperation) (dieNr : UInt32) :
    operation.SelectsDie dieNr ↔ dieNr ≤ 3 := by
  constructor
  · intro h
    by_contra hgt
    have hgt : 3 < dieNr := UInt32.not_le.mp hgt
    -- an idle flash without faults, and an empty image
    have hfits : (Env.plain (some ⟨0, []⟩) 0).FitsDie := by
      rintro i _ ⟨⟩
      exact ⟨rfl, by decide⟩
    obtain ⟨⟨w₁, hfail⟩, -⟩ := (h .swift _ (World.selected .golden fun _ => 0xFF) hfits).2 hgt
    obtain ⟨w₂, hsuccess⟩ := operation.run_succeeds
      (Nor.responsive NorParams.swift_faultFree (swift_busy (some ⟨0, []⟩) 0)) dieNr
      (selected_ready .golden fun _ => 0xFF) rfl rfl
    exact nomatch hfail.symm.trans hsuccess
  · intro hle p env w hfits
    refine ⟨fun _ x hx => Nor.mem_of_framesWithin hx (operation.run_within hle hfits), fun hgt => ?_⟩
    exact absurd hle (UInt32.not_le.mpr hgt)

/-- The die number 4 erases the golden die, and the call returns success.  The shift loses the
bit that would tell the two numbers apart. -/
theorem selectsDie_counterexample :
    (∃ w' : World (Nor .swift), spiFlashDieErase (Env.plain none 0) 4
        (World.fresh (Nor.idle .swift fun _ => 0)) = (.ret .success, w') ∧
      w'.bus.mem 0 = 0xFF) ∧
    ¬ DieOperation.dieErase.SelectsDie 4 := by
  have serves : Serves (Nor.Answering 1) (spiFlashDieErase (σ := Nor .swift) (Env.plain none 0) 4) :=
    spiFlashDieErase_serves (Nor.responsive NorParams.swift_faultFree (swift_busy none 0))
  obtain ⟨w', hrun, -⟩ := serves.exists_ret (w := World.fresh (Nor.idle .swift fun _ => 0))
    ⟨⟨rfl, Nat.one_pos⟩, rfl⟩
  have hcell : w'.bus.mem 0 = 0xFF := by
    rw [dieErase_mem NorParams.swift_faultFree.misfire hrun]
    exact erase_of_inBlock (by decide)
  refine ⟨⟨w', hrun, hcell⟩, fun h => ?_⟩
  have hfits : (Env.plain none 0).FitsDie := fun _ _ hopen => nomatch hopen
  have hsame : (DieOperation.dieErase.run (Env.plain none 0) 4
      (World.fresh (Nor.idle .swift fun _ => 0))).2.bus.mem = fun _ => 0 :=
    ((h .swift _ _ hfits).2 (by decide)).2
  rw [DieOperation.run, hrun] at hsame
  exact absurd (hcell.symm.trans (congrFun hsame 0)) (by decide)

end Dies

end Kiflash
