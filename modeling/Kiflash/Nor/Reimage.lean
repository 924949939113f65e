import Kiflash.Nor.Isolation
import Kiflash.NorFlash.Layers

/-!
# Re-imaging the whole flash

Menu option 0 erases the four dies and then runs four programming calls one after the other.
Each call verifies its own image and nothing compares the images with each other, so at the
end a cell holds what the last call that reached it left.  That is stated with layers: each
call lays one for its erase and one for the pages of its image.

* `eraseLayer`, `pageLayer` — the two layers of a call.
* `Programs.run_lays` — a successful call has laid them, the second one whatever the erase and
  program commands did on the way.
* `Laid` — the layers of a list of calls.
* `reimage_iff` — all four images are in place exactly when every byte of an image is what the
  last layer over its cell shows.

### What a success proves, and what it does not

A verification has compared the pages of its image, so the layer of the image is laid, on any
device.  Nothing has looked at the cells that were only erased.  Where a device may go wrong,
an erased cell is therefore not known, and the equivalence is about images none of whose bytes
depends on an erase: `ErasesAt` and `Settled` say where this is so.  On a device that does not
go wrong, nothing needs to be said about the lengths.

### Images that do not fit

An image may be longer than its region, or longer than the flash; its pages then lie over
another image, or over its own beginning.  The layers say what is seen in the end, and
`Compatible` asks of each byte of each image whether it is that.  Images that fit their
regions are compatible (`compatible_of_fits`).
-/

open Imperative Imperative.Prog NorFlash

namespace Kiflash

/-! ## The layers of a programming call -/

/-- The pages of an image from `baseAddr` on.  Pages that wrap around the end of the flash are
in it as well. -/
def pageLayer (baseAddr : UInt32) (pages : ℕ → ℕ → UInt8) (n : ℕ) : Layer ℕ UInt8 := fun x b =>
  ∃ j < n, ∃ k < 256, x = (baseAddr.toNat + 256 * j + k) % flashSize ∧ b = pages j k

/-- The image of a region, as the verification of a call compares it that begins after
`mallocs` page buffers. -/
def imageLayer (env : Env) (region : Region) (file : File) (mallocs : ℕ) : Layer ℕ UInt8 :=
  pageLayer region.baseAddr (verifiedPage env file mallocs) (pageCount file.ftell).toNat

/-- The cell `x` is on a page of the image, be it behind the image's last byte. -/
def OnPage (region : Region) (file : File) (x : ℕ) : Prop :=
  ∃ j < (pageCount file.ftell).toNat, ∃ k < 256,
    x = (region.baseAddr.toNat + 256 * j + k) % flashSize

/-- The layer of an image reaches its pages. -/
theorem imageLayer_covers {env : Env} {region : Region} {file : File} {mallocs x : ℕ} :
    (imageLayer env region file mallocs).Covers x ↔ OnPage region file x := by
  constructor
  · rintro ⟨b, j, hj, k, hk, hx, -⟩
    exact ⟨j, hj, k, hk, hx⟩
  · rintro ⟨j, hj, k, hk, hx⟩
    exact ⟨_, j, hj, k, hk, hx, rfl⟩

/-- The erase of a region, if the call asks for it.  Menu option 0 erases the whole flash
first, and asks for it in the timer calls only. -/
def eraseLayer (call : ProgramCall) (region : Region) : Layer ℕ UInt8 := fun x b =>
  call.erase ≠ 0 ∧ x ∈ region.cells ∧ b = 0xFF

/-- The erase of a call is known to have worked at `x`: no erase goes wrong on this
device, or there is none at `x`. -/
def ErasesAt (p : NorParams) (call : ProgramCall) (region : Region) (x : ℕ) : Prop :=
  (∀ n, p.misfire n = none) ∨ ¬ (eraseLayer call region).Covers x

section Call

variable {p : NorParams} {env : Env} {w w' : World (Nor p)} {call : ProgramCall} {region : Region}
variable {file : File} {x : ℕ}

/-- Outside the pages of a file, its page programs change nothing.  So the cell can be
followed through the programming of an image that is not over it. -/
theorem pageFrames_of_not_covered {baseAddr : UInt32} {pages : ℕ → ℕ → UInt8}
    (hbase : 256 ∣ baseAddr.toNat)
    (hx : ¬ (pageLayer baseAddr pages (pageCount file.ftell).toNat).Covers x) :
    PageFrames {frame | x ∉ footprint frame} baseAddr file := by
  intro j hj buffer hfoot
  have hsize := flashSize_eq
  have haddr : (UInt32.ofNat (256 * j) + baseAddr).toNat % flashSize =
      (baseAddr.toNat + 256 * j) % flashSize := by
    rw [UInt32.toNat_add, UInt32.toNat_ofNat', hsize]
    omega
  have hblock := footprint_program _ _ hfoot
  rw [Set.mem_ofPred_eq, haddr, inBlock_iff_of_dvd (by decide) (by rw [hsize]; omega)] at hblock
  refine hx ⟨_, j, hj, x - (baseAddr.toNat + 256 * j) % flashSize, by omega, ?_, rfl⟩
  rw [hsize] at hblock ⊢
  omega

/-- The bookkeeping spares every cell. -/
theorem housekeeping_subset_spares : housekeeping ⊆ {frame | x ∉ footprint frame} :=
  fun frame hframe =>
    not_mem_footprint (fun _ hcmd hop => Nor.writeOps_housekeeping hcmd hop) x frame hframe

/-- Around the pages of an image nothing moves while they are programmed. -/
theorem qspiProgramBin_spares (hbase : 256 ∣ w.flashData.baseAddr.toNat) {pages : ℕ → ℕ → UInt8}
    (hfile : ∀ i f, env.fopen i w.flashData.pathname = some f → f = file)
    (hx : ¬ (pageLayer w.flashData.baseAddr pages (pageCount file.ftell).toNat).Covers x) :
    (qspiProgramBin env w).2.bus.mem x = w.bus.mem x := by
  have reports : Reports {frame | x ∉ footprint frame} Set.univ w (qspiProgramBin env w).2 :=
    qspiProgramBin_reports housekeeping_subset_spares transfers_univ.admits
      (fun i f hf => hfile i f hf ▸ pageFrames_of_not_covered hbase hx) fun _ _ _ _ _ _ => trivial
  exact Nor.mem_of_busSteps (fun _ hframe => hframe) reports.bus

/-- The verification leaves the cells alone.  Its frames are those of page reads and
bookkeeping. -/
theorem qspiVerifyBin_mem : (qspiVerifyBin env w).2.bus.mem = w.bus.mem := by
  funext x
  have hread : Says {frame | x ∉ footprint frame} command4byteQuadOutputFastRead := by
    refine (says_framesOf (Set.mem_singleton _)).mono fun frame hframe => ?_
    refine not_mem_footprint ?_ x frame hframe
    rintro _ rfl hop
    exact absurd hop (by simp [writeOps]; decide)
  have reports : Reports {frame | x ∉ footprint frame} Set.univ w (qspiVerifyBin env w).2 :=
    qspiVerifyBin_reports housekeeping_subset_spares transfers_univ.admits hread
      (fun _ _ _ _ _ _ => trivial) trivial
  exact Nor.mem_of_busSteps (fun _ hframe => hframe) reports.bus

/-- A successful erase stage.  Without an argument there is no erase, and the layer reaches
nothing. -/
theorem Programs.eraseStage_lays (h : Programs call region)
    (hdata : w.flashData = w.flashData.select region)
    (hrun : eraseStage env (call.mark env) call.eraseFrom call.erase w = (.ret .success, w'))
    (hx : ErasesAt p call region x) : Lays (eraseLayer call region) x w.bus.mem w'.bus.mem := by
  by_cases he : call.erase = 0
  · rw [eraseStage, if_neg (not_not.mpr he)] at hrun
    cases hrun
    exact ⟨fun _ hb => absurd he hb.1, fun _ => rfl⟩
  obtain ⟨w₁, herase, hmark⟩ := eraseStage_success he hrun
  rw [(mark_frame hmark).1]
  rw [hdata, h.eraseFrom] at herase
  refine ⟨fun b hb => ?_, fun hno => ?_⟩
  · obtain ⟨-, hcell, rfl⟩ := hb
    have hp := hx.resolve_right fun hno => hno ⟨_, he, hcell, rfl⟩
    have hmem : w₁.bus.mem = erased call (w.flashData.select region) w.bus.mem := by
      rw [qspiEraseSectorFlash_mem hp herase, erased, if_neg he, h.eraseFrom]
    rw [hmem]
    exact h.erased_of_mem he hcell
  · have hcell : x ∉ region.cells := fun hcell => hno ⟨_, he, hcell, rfl⟩
    have hframes : SectorFrames (framesIn region) (w.flashData.select region) region.eraseStartAddr :=
      h.placed.sectorFrames
    exact mem_of_framesIn hcell
      ((qspiEraseSectorFlash_talks housekeeping_subset_framesIn hframes).of_eq herase).bus

/-- **A successful programming call lays its layers**: the pages of the image, and under them
the erase of the region.  The verification is what vouches for the pages, on whatever device;
the erase is only known where its commands are known to work. -/
theorem Programs.run_lays (h : Programs call region)
    (hdata : w.flashData = w.flashData.select region)
    (hfile : ∀ i f, env.fopen i w.flashData.pathname = some f → f = file)
    (hrun : call.run env w = (.ret .success, w')) :
    w'.mallocs = w.mallocs + 2 * (pageCount file.ftell).toNat ∧
      w'.flashData.path = w.flashData.path ∧
      ∃ m, (∀ x, ErasesAt p call region x → Lays (eraseLayer call region) x w.bus.mem m) ∧
        ∀ x, Lays (imageLayer env region file w.mallocs) x m w'.bus.mem := by
  obtain ⟨wa, wb, wc, wd, we, wf, hmark₁, herase, hmark₂, hprogram, hmark₃, hverify, hmark₄⟩ :=
    call.run_stages hrun
  obtain ⟨hbusa, hmallocsa, hdataa⟩ := mark_frame hmark₁
  obtain ⟨hbusc, hmallocsc, hdatac⟩ := mark_frame hmark₂
  obtain ⟨hbuse, hmallocse, hdatae⟩ := mark_frame hmark₃
  obtain ⟨hbusf, hmallocsf, hdataf⟩ := mark_frame hmark₄
  obtain ⟨hmallocsb, hdatab⟩ := eraseStage_frame herase
  have hdatad := (qspiProgramBin_moves.of_eq hprogram).flashData
  have hdatag := (qspiVerifyBin_moves.of_eq hverify).flashData
  -- the target of the call stays what the caller selected
  have hselected : wa.flashData = wa.flashData.select region := by
    rw [hdataa, hdata]
    rfl
  have hbasec : wc.flashData.baseAddr = region.baseAddr := by
    rw [hdatac, hdatab, hselected]
    rfl
  have hpathc : wc.flashData.pathname = w.flashData.pathname := by
    rw [hdatac, hdatab, hdataa]
    rfl
  have hbasee : we.flashData.baseAddr = region.baseAddr := by
    rw [hdatae, hdatad, ← hbasec]
  have hpathe : we.flashData.pathname = w.flashData.pathname := by
    rw [hdatae, hdatad, ← hpathc]
    rfl
  obtain ⟨f, hf, hmallocsd⟩ := qspiProgramBin_mallocs hprogram
  obtain rfl := hfile _ f (hpathc ▸ hf)
  obtain ⟨f', hf', hmallocsg, hmatch⟩ := qspiVerifyBin_matches (Nor.exactReads p env) hverify
  obtain rfl := hfile _ f' (hpathe ▸ hf')
  set total := (pageCount f'.ftell).toNat
  have hbefore : we.mallocs = w.mallocs + total := by
    rw [hmallocse, hmallocsd, hmallocsc, hmallocsb, hmallocsa]
  refine ⟨?_, ?_, wb.bus.mem, fun x hx => ?_, fun x => ⟨fun b hb => ?_, fun hno => ?_⟩⟩
  · rw [hmallocsf, hmallocsg, hbefore, Nat.two_mul, Nat.add_assoc]
  · rw [hdataf, hdatag, hdatae, hdatad, hdatac, hdatab, hdataa]
  · rw [← hbusa]
    exact h.eraseStage_lays hselected herase hx
  · obtain ⟨j, hj, k, hk, rfl, rfl⟩ := hb
    have hpage := hmatch j hj k hk
    rw [hbasee, hbefore, UInt32.add_assoc, ← UInt32.ofNat_add, Nor.content_add,
      ← Nat.add_assoc] at hpage
    rw [hbusf, hpage]
    rfl
  · have hprogrammed : (qspiProgramBin env wc).2.bus.mem x = wc.bus.mem x :=
      qspiProgramBin_spares (hbasec ▸ h.placed.base_dvd) (fun i f hf => hfile i f (hpathc ▸ hf))
        (by rw [hbasec]; exact hno)
    have hverified : (qspiVerifyBin env we).2.bus.mem = we.bus.mem := qspiVerifyBin_mem
    rw [hprogram] at hprogrammed
    rw [hverify] at hverified
    rw [hbusf, hverified, hbuse, hprogrammed, hbusc]

end Call

/-! ## One call after the other -/

/-- Select the regions and run the calls.  The first failure ends the sequence, as each call
is checked. -/
def programAll {σ : Type} [XSpiDriver σ] (env : Env) :
    List (ProgramCall × Region) → Prog (World σ) Xst → Prog (World σ) Xst
  | [], k => k
  | (call, region) :: plan, k => do
    selectRegion region
    check (call.run env) (programAll env plan k)

/-- The calls of menu option 0, in the order of the source.  The first two erase the regions
of the timers once more. -/
def reimagePlan : List (ProgramCall × Region) :=
  [(.timer 1 1, .timer1), (.timer 2 1, .timer2), (.golden 0, .golden), (.user 0, .user)]

theorem reimagePlan_programs {step : ProgramCall × Region} (h : step ∈ reimagePlan) :
    Programs step.1 step.2 := by
  simp only [reimagePlan, List.mem_cons, List.not_mem_nil, or_false] at h
  rcases h with rfl | rfl | rfl | rfl
  · exact .timer1 1 1
  · exact .timer2 2 1
  · exact .golden 0
  · exact .user 0

/-- Menu option 0 by its plan. -/
theorem reimageWholeFlash_eq {σ : Type} [XSpiDriver σ] (env : Env) :
    reimageWholeFlash (σ := σ) env =
      (check (spiFlashDieErase env 0) <| check (spiFlashDieErase env 1) <|
        check (spiFlashDieErase env 2) <| check (spiFlashDieErase env 3) <|
          programAll env reimagePlan (icap 0)) := rfl

/-- The layers of the calls, the first of which begins after `mallocs` page buffers.  Each
image takes two buffers for a page, one to program it and one to verify it. -/
def layersOf (env : Env) (images : Region → File) :
    List (ProgramCall × Region) → ℕ → List (Layer ℕ UInt8)
  | [], _ => []
  | (call, region) :: plan, mallocs =>
    eraseLayer call region :: imageLayer env region (images region) mallocs ::
      layersOf env images plan (mallocs + 2 * (pageCount (images region).ftell).toNat)

/-- The calls have laid their layers, the erases where they are known to have worked.  Where
an erase has gone wrong nothing is said of the cells. -/
inductive Laid (p : NorParams) (env : Env) (images : Region → File) :
    List (ProgramCall × Region) → ℕ → (ℕ → UInt8) → (ℕ → UInt8) → Prop
  | nil (mallocs : ℕ) (m : ℕ → UInt8) : Laid p env images [] mallocs m m
  | cons {call : ProgramCall} {region : Region} {plan : List (ProgramCall × Region)} {mallocs : ℕ}
      {m₁ m₂ m₃ m₄ : ℕ → UInt8}
      (erase : ∀ x, ErasesAt p call region x → Lays (eraseLayer call region) x m₁ m₂)
      (image : ∀ x, Lays (imageLayer env region (images region) mallocs) x m₂ m₃)
      (rest : Laid p env images plan
        (mallocs + 2 * (pageCount (images region).ftell).toNat) m₃ m₄) :
      Laid p env images ((call, region) :: plan) mallocs m₁ m₄

/-- The value at `x` is settled: it is on a page of an image, and the erases of the later
calls are known to have worked there. -/
def Settled (p : NorParams) (images : Region → File) (x : ℕ) :
    List (ProgramCall × Region) → Prop
  | [] => False
  | (_, region) :: plan => Settled p images x plan ∨
    (∀ step ∈ plan, ErasesAt p step.1 step.2 x) ∧ OnPage region (images region) x

section Plan

variable {p : NorParams} {env : Env} {images : Region → File} {plan : List (ProgramCall × Region)}
variable {mallocs : ℕ} {m m' : ℕ → UInt8} {x : ℕ} {b : UInt8}

/-- At a cell where all erases are known to have worked, all layers are laid. -/
theorem Laid.laysAll (h : Laid p env images plan mallocs m m')
    (hx : ∀ step ∈ plan, ErasesAt p step.1 step.2 x) :
    LaysAll x (layersOf env images plan mallocs) m m' := by
  induction h with
  | nil mallocs m => exact .nil m
  | cons erase image rest ih =>
      refine .cons (erase x (hx _ List.mem_cons_self)) (.cons (image x) (ih fun step hstep => ?_))
      exact hx step (List.mem_cons_of_mem _ hstep)

/-- A cell that is settled is reached. -/
theorem Settled.covered (h : Settled p images x plan) :
    Covered (layersOf env images plan mallocs) x := by
  induction plan generalizing mallocs with
  | nil => exact h.elim
  | cons step plan ih =>
      rw [layersOf, covered_cons, covered_cons]
      rcases h with h | ⟨-, hpage⟩
      · exact .inr (.inr (ih h))
      · exact .inr (.inl (imageLayer_covers.mpr hpage))

/-- Where it is settled, the value is that of the top layer.  The induction is on the plan;
each call lays two layers. -/
theorem Laid.top_iff (h : Laid p env images plan mallocs m m') (hx : Settled p images x plan) :
    top (layersOf env images plan mallocs) x b ↔ m' x = b := by
  induction h with
  | nil => exact hx.elim
  | @cons call region plan mallocs m₁ m₂ m₃ m₄ erase image rest ih =>
      rcases hx with hx | ⟨herases, hpage⟩
      · rw [layersOf, top_cons_of_covered (covered_cons.mpr (.inr hx.covered)),
          top_cons_of_covered hx.covered]
        exact ih hx
      · have hcovered : Covered (imageLayer env region (images region) mallocs ::
            layersOf env images plan
              (mallocs + 2 * (pageCount (images region).ftell).toNat)) x :=
          covered_cons.mpr (.inl (imageLayer_covers.mpr hpage))
        rw [layersOf, top_cons_of_covered hcovered]
        exact (LaysAll.cons (image x) (rest.laysAll herases)).top_iff hcovered

/-- **The calls one after the other.**  What follows them finds their layers laid.  The
induction is on the plan; a call that fails ends it, and nothing follows. -/
theorem programAll_emits {E : Set (Event (Nor p))} {k : Prog (World (Nor p)) Xst}
    (hE : noPciWrite ⊆ E) (hplan : ∀ step ∈ plan, Programs step.1 step.2) {w : World (Nor p)}
    (hfile : ∀ region i f,
      env.fopen i (w.flashData.path ++ "/" ++ region.imageName) = some f → f = images region)
    (hk : ∀ w', Laid p env images plan w.mallocs w.bus.mem w'.bus.mem → Emits E w' (k w').2) :
    Emits E w (programAll env plan k w).2 := by
  induction plan generalizing w with
  | nil => exact hk w (.nil _ _)
  | cons step plan ih =>
      obtain ⟨call, region⟩ := step
      have hprograms : Programs call region := hplan _ List.mem_cons_self
      change Emits E w (check (call.run env) (programAll env plan k)
        { w with flashData := w.flashData.select region }).2
      set w₁ : World (Nor p) := { w with flashData := w.flashData.select region } with hw₁
      have hstart : Emits E w w₁ := .of_eq rfl
      refine trans_of _ hstart (check_emits ?_ fun w₂ hrun => ?_)
      · have reports : Reports Set.univ noPciWrite w₁ (call.run env w₁).2 :=
          ProgramCall.run_reports (Set.subset_univ _) transfers_noPciWrite.admits
            (fun _ _ _ => trivial) (fun _ _ _ _ _ _ => trivial) (fun _ _ => trivial)
            percentage_noPciWrite verifyPassed_noPciWrite
        exact reports.emits.mono hE
      · obtain ⟨hmallocs, hpath, m, herase, himage⟩ :=
          hprograms.run_lays (w := w₁) rfl (fun i f hf => hfile region i f hf) hrun
        refine ih (fun step hstep => hplan step (List.mem_cons_of_mem _ hstep))
          (fun region' i f hf => hfile region' i f (by rw [← hf, hpath]; rfl)) fun w₃ hlaid => ?_
        refine hk w₃ (.cons herase himage ?_)
        rwa [hmallocs] at hlaid

end Plan

/-! ## The die erases -/

/-- The erase of the four dies, over the whole of the flash. -/
def diesLayer : Layer ℕ UInt8 := fun x b => x < flashSize ∧ b = 0xFF

/-- The cells of a die. -/
theorem inBlock_die {uscDieNr : UInt32} (h : uscDieNr.toNat < 4) {x : ℕ} :
    InBlock 0x4000000 ((uscDieNr <<< 26).toNat % flashSize) x ↔ x / 0x4000000 = uscDieNr.toNat := by
  have hshift : (uscDieNr <<< 26).toNat = uscDieNr.toNat * 2 ^ 26 % 2 ^ 32 := by
    rw [UInt32.toNat_shiftLeft, Nat.shiftLeft_eq]
    rfl
  have hsize := flashSize_eq
  rw [InBlock, hshift, hsize]
  omega

section Run

variable {p : NorParams} {env : Env} {images : Region → File} {w w' : World (Nor p)}

/-- The four die erases, where no erase goes wrong.  Each covers a fourth of the flash, so
every cell is in one of them. -/
theorem dies_lay (hp : ∀ n, p.misfire n = none) {w₁ w₂ w₃ w₄ : World (Nor p)}
    (h₁ : spiFlashDieErase env 0 w = (.ret .success, w₁))
    (h₂ : spiFlashDieErase env 1 w₁ = (.ret .success, w₂))
    (h₃ : spiFlashDieErase env 2 w₂ = (.ret .success, w₃))
    (h₄ : spiFlashDieErase env 3 w₃ = (.ret .success, w₄)) (x : ℕ) :
    Lays diesLayer x w.bus.mem w₄.bus.mem := by
  have hsize : flashSize = 4 * 0x4000000 := rfl
  have block : ∀ {uscDieNr : UInt32} {m : ℕ → UInt8}, uscDieNr.toNat < 4 →
      erase 0x4000000 ((uscDieNr <<< 26).toNat % flashSize) m x =
        if x / 0x4000000 = uscDieNr.toNat then 0xFF else m x :=
    fun h => if_congr (inBlock_die h) rfl rfl
  have hmem : w₄.bus.mem x = if x / 0x4000000 < 4 then 0xFF else w.bus.mem x := by
    rw [dieErase_mem hp h₄, block (by decide), dieErase_mem hp h₃, block (by decide),
      dieErase_mem hp h₂, block (by decide), dieErase_mem hp h₁, block (by decide)]
    simp only [UInt32.reduceToNat]
    split_ifs <;> first | rfl | omega
  refine ⟨fun b hb => ?_, fun hno => ?_⟩
  · obtain ⟨hlt, rfl⟩ := hb
    rw [hmem, if_pos (by omega)]
  · rw [hmem, if_neg fun hlt => hno ⟨0xFF, by omega, rfl⟩]

/-- **Menu option 0.**  Its `icap` call finds the layers of all four images laid.  It is the
last link of a chain of checks, so it is only reached when all the calls in front have
succeeded. -/
theorem reimageWholeFlash_emits {E : Set (Event (Nor p))} (hE : noPciWrite ⊆ E)
    (hfile : ∀ region i f,
      env.fopen i (w.flashData.path ++ "/" ++ region.imageName) = some f → f = images region)
    (hk : ∀ m w', ((∀ n, p.misfire n = none) → ∀ x, Lays diesLayer x w.bus.mem m) →
      Laid p env images reimagePlan w.mallocs m w'.bus.mem → Emits E w' (icap 0 w').2) :
    Emits E w (reimageWholeFlash env w).2 := by
  have talks : ∀ uscDieNr, Moves (Talks Set.univ) (spiFlashDieErase (σ := Nor p) env uscDieNr) :=
    fun _ => spiFlashDieErase_talks (Set.subset_univ _) trivial
  have die : ∀ uscDieNr w, Emits E w (spiFlashDieErase env uscDieNr w).2 :=
    fun uscDieNr w => ((talks uscDieNr w).emits transfers_noPciWrite.admits).mono hE
  rw [reimageWholeFlash_eq]
  refine check_emits (die 0 w) fun w₁ h₁ => check_emits (die 1 w₁) fun w₂ h₂ =>
    check_emits (die 2 w₂) fun w₃ h₃ => check_emits (die 3 w₃) fun w₄ h₄ => ?_
  have quiet : Talks Set.univ w w₄ := trans_of _ ((talks 0).of_eq h₁) <|
    trans_of _ ((talks 1).of_eq h₂) <| trans_of _ ((talks 2).of_eq h₃) ((talks 3).of_eq h₄)
  refine programAll_emits hE (fun _ => reimagePlan_programs) (fun region i f hf => ?_)
    fun w₅ hlaid => hk w₄.bus.mem w₅ (fun hp => dies_lay hp h₁ h₂ h₃ h₄) (quiet.mallocs ▸ hlaid)
  rw [quiet.flashData] at hf
  exact hfile region i f hf

/-! ## All four images -/

/-- Every byte of every image is what the last layer over its cell shows.  So no image is
damaged by the erase or the last page of another. -/
def Compatible (env : Env) (images : Region → File) (mallocs : ℕ) : Prop :=
  ∀ step ∈ reimagePlan, ∀ i (h : i < (images step.2).contents.length),
    top (diesLayer :: layersOf env images reimagePlan mallocs)
      ((step.2.baseAddr.toNat + i) % flashSize) (images step.2).contents[i]

/-- A byte of an image lies on a page of it. -/
theorem onPage_of_lt {region : Region} {file : File} (hfile : file.Regular)
    (hlen : file.contents.length < 2 ^ 32) {i : ℕ} (hi : i < file.contents.length) :
    OnPage region file ((region.baseAddr.toNat + i) % flashSize) := by
  have hcount := pageCount_toNat file.ftell
  rw [hfile] at hcount
  refine ⟨i / 256, by omega, i % 256, by omega, ?_⟩
  rw [Nat.add_assoc, Nat.div_add_mod]

/-- The bytes of images that are not too long are settled: each lies on a page of its
image, and the erase for the second timer image is not over the first. -/
theorem settled_of_length
    (hfiles : ∀ step ∈ reimagePlan, (images step.2).Regular ∧ (images step.2).contents.length < 2 ^ 32)
    (htimer1 : (images .timer1).contents.length ≤ 0x07FC0400) {step : ProgramCall × Region}
    (hstep : step ∈ reimagePlan) {i : ℕ} (hi : i < (images step.2).contents.length) :
    Settled p images ((step.2.baseAddr.toNat + i) % flashSize) reimagePlan := by
  have hpage : OnPage step.2 (images step.2) ((step.2.baseAddr.toNat + i) % flashSize) :=
    onPage_of_lt (hfiles _ hstep).1 (hfiles _ hstep).2 hi
  have noErase : ∀ {call region x}, call.erase = 0 → ErasesAt p call region x :=
    fun he => .inr fun ⟨_, hb⟩ => hb.1 he
  simp only [reimagePlan, List.mem_cons, List.not_mem_nil, or_false] at hstep
  -- a byte of each image, against the erases behind it: only the second timer's can reach it
  rcases hstep with rfl | rfl | rfl | rfl
  · refine .inr ⟨fun step hlater => ?_, hpage⟩
    simp only [List.mem_cons, List.not_mem_nil, or_false] at hlater
    rcases hlater with rfl | rfl | rfl
    · refine .inr fun ⟨_, hb⟩ => ?_
      have hcell := hb.2.1
      simp only [Region.cells, Region.timer2, Region.timer1, flashSize, UInt32.reduceToNat,
        Set.mem_Ico] at hcell
      simp only at hi
      omega
    · exact noErase rfl
    · exact noErase rfl
  · refine .inl (.inr ⟨fun step hlater => ?_, hpage⟩)
    simp only [List.mem_cons, List.not_mem_nil, or_false] at hlater
    rcases hlater with rfl | rfl <;> exact noErase rfl
  · refine .inl (.inl (.inr ⟨fun step hlater => ?_, hpage⟩))
    obtain rfl := List.mem_singleton.mp hlater
    exact noErase rfl
  · exact .inl (.inl (.inl (.inr ⟨fun step hlater => absurd hlater List.not_mem_nil, hpage⟩)))

/-- A cell that the layers of fitting images reach is in one of their regions.  Neither the
erase nor the pages of such an image leave the region. -/
theorem exists_region_of_covered {plan : List (ProgramCall × Region)} {mallocs x : ℕ}
    (hfits : ∀ step ∈ plan, Programs step.1 step.2 ∧ (images step.2).Regular ∧
      step.2.Fits (images step.2))
    (h : Covered (layersOf env images plan mallocs) x) : ∃ step ∈ plan, x ∈ step.2.cells := by
  induction plan generalizing mallocs with
  | nil => exact absurd h (by simp [layersOf, Covered])
  | cons step plan ih =>
      obtain ⟨hprograms, hregular, hfit⟩ := hfits step List.mem_cons_self
      rw [layersOf, covered_cons, covered_cons] at h
      rcases h with ⟨_, hb⟩ | hpage | h
      · exact ⟨step, List.mem_cons_self, hb.2.1⟩
      · obtain ⟨j, hj, k, hk, rfl⟩ := imageLayer_covers.mp hpage
        have hcell := hprograms.placed.page_mem_cells hregular hfit hj hk
        rw [Nat.mod_eq_of_lt (hcell.2.trans_le hprograms.placed.end_le)]
        exact ⟨step, List.mem_cons_self, hcell⟩
      · obtain ⟨later, hmem, hcell⟩ :=
          ih (fun step hstep => hfits step (List.mem_cons_of_mem _ hstep)) h
        exact ⟨later, List.mem_cons_of_mem _ hmem, hcell⟩

/-- Images that fit their regions show all their bytes.  The induction is on the plan: behind
the call of the image come only regions that are apart from it. -/
theorem top_layersOf_of_fits {plan : List (ProgramCall × Region)} {mallocs : ℕ}
    (hfits : ∀ step ∈ plan, Programs step.1 step.2 ∧ (images step.2).Regular ∧
      step.2.Fits (images step.2))
    (hapart : plan.Pairwise fun step later => ∀ x ∈ step.2.cells, x ∉ later.2.cells)
    {step : ProgramCall × Region} (hstep : step ∈ plan) {i : ℕ}
    (hi : i < (images step.2).contents.length) :
    top (layersOf env images plan mallocs) ((step.2.baseAddr.toNat + i) % flashSize)
      (images step.2).contents[i] := by
  induction plan generalizing mallocs with
  | nil => cases hstep
  | cons head plan ih =>
      have hrest := fun step hstep => hfits step (List.mem_cons_of_mem head hstep)
      rw [List.pairwise_cons] at hapart
      -- the image is that of the first call, and nothing later reaches its cell, or it is a
      -- later one
      rcases List.mem_cons.mp hstep with rfl | hstep
      · obtain ⟨hprograms, hregular, hfit⟩ := hfits step List.mem_cons_self
        have placed := hprograms.placed
        have hcount := placed.pageCount_eq hregular hfit
        have hlen := placed.length_lt hfit
        have hcell : step.2.baseAddr.toNat + i ∈ step.2.cells := by
          have hpage := placed.page_mem_cells hregular hfit (j := i / 256) (k := i % 256) (by omega)
            (by omega)
          rwa [Nat.add_assoc, Nat.div_add_mod] at hpage
        have hlater : ¬ Covered (layersOf env images plan
            (mallocs + 2 * (pageCount (images step.2).ftell).toNat))
            ((step.2.baseAddr.toNat + i) % flashSize) := by
          rw [Nat.mod_eq_of_lt (hcell.2.trans_le placed.end_le)]
          intro hcovered
          obtain ⟨later, hmem, hin⟩ := exists_region_of_covered hrest hcovered
          exact hapart.1 later hmem _ hcell hin
        have hpage : OnPage step.2 (images step.2) ((step.2.baseAddr.toNat + i) % flashSize) :=
          onPage_of_lt hregular hlen hi
        rw [layersOf, top_cons_of_covered (covered_cons.mpr (.inl (imageLayer_covers.mpr hpage))),
          top_cons_of_not_covered hlater]
        refine ⟨i / 256, by omega, i % 256, by omega, by rw [Nat.add_assoc, Nat.div_add_mod], ?_⟩
        rw [verifiedPage, filePage_of_lt (by omega) (by omega) (by rwa [Nat.div_add_mod])]
        simp only [Nat.div_add_mod]
      · have hshown : top (layersOf env images plan
            (mallocs + 2 * (pageCount (images head.2).ftell).toNat))
            ((step.2.baseAddr.toNat + i) % flashSize) (images step.2).contents[i] :=
          ih hrest hapart.2 hstep
        have hcovered := exists_top_iff.mp ⟨_, hshown⟩
        rw [layersOf, top_cons_of_covered (covered_cons.mpr (.inr hcovered)),
          top_cons_of_covered hcovered]
        exact hshown

/-- The four regions have no cell in common. -/
theorem reimagePlan_apart :
    reimagePlan.Pairwise fun step later => ∀ x ∈ step.2.cells, x ∉ later.2.cells := by
  simp only [reimagePlan, List.pairwise_cons, List.mem_cons, List.not_mem_nil, or_false,
    Region.cells, Region.timer1, Region.timer2, Region.golden, Region.user, UInt32.reduceToNat,
    Set.mem_Ico]
  refine ⟨?_, ?_, ?_, ?_, List.Pairwise.nil⟩ <;> rintro later (rfl | rfl | rfl) x hx <;>
    simp only [UInt32.reduceToNat] <;> omega

/-- **Images that fit are compatible.**  The regions are apart, so over each byte of an image
its own layer is the last one. -/
theorem compatible_of_fits (mallocs : ℕ)
    (hfits : ∀ step ∈ reimagePlan, (images step.2).Regular ∧ step.2.Fits (images step.2)) :
    Compatible env images mallocs := by
  intro step hstep i hi
  have hshown : top (layersOf env images reimagePlan mallocs)
      ((step.2.baseAddr.toNat + i) % flashSize) (images step.2).contents[i] :=
    top_layersOf_of_fits (fun step hstep => ⟨reimagePlan_programs hstep, hfits step hstep⟩)
      reimagePlan_apart hstep hi
  rw [top_cons_of_covered (exists_top_iff.mp ⟨_, hshown⟩)]
  exact hshown

/-- **Re-imaging the whole flash.**  When menu option 0 comes to its `icap` call, all four
images are in place exactly when every byte of every image is what the last layer over its
cell shows.  Either no erase or program command goes wrong on the device, or the images keep
to lengths at which none of their bytes depends on an erase.

The right side knows nothing of the device: it is computed from the images and the fresh
memory of the page buffers.  On any device the pages of an image are known to be there when
its call succeeds, since the call has compared them.  Cells that were only erased have been
looked at by nobody, and `hdevice` is about these. -/
theorem reimage_iff
    (hfile : ∀ region i f,
      env.fopen i (w.flashData.path ++ "/" ++ region.imageName) = some f → f = images region)
    (hregular : ∀ step ∈ reimagePlan, (images step.2).Regular)
    (hdevice : (∀ n, p.misfire n = none) ∨
      (∀ step ∈ reimagePlan, (images step.2).contents.length < 2 ^ 32) ∧
        (images .timer1).contents.length ≤ 0x07FC0400)
    {before : Nor p} {address data : UInt64}
    (hreached : .pciWrite before address data ∈ newEvents w (reimageWholeFlash env w).2) :
    (∀ step ∈ reimagePlan, Holds before.content step.2.baseAddr (images step.2)) ↔
      Compatible env images w.mallocs := by
  set AllHold : Nor p → Prop := fun d =>
    (∀ step ∈ reimagePlan, Holds d.content step.2.baseAddr (images step.2)) ↔
      Compatible env images w.mallocs
  have emits : Emits (noPciWrite ∪ pciWritesIn AllHold) w (reimageWholeFlash env w).2 := by
    refine reimageWholeFlash_emits Set.subset_union_left hfile fun m w' hdies hlaid => ?_
    have hall : AllHold w'.bus := by
      refine forall₂_congr fun step hstep => forall₂_congr fun i hi => ?_
      have hcell : (step.2.baseAddr.toNat + i) % flashSize < flashSize := Nat.mod_lt _ (by decide)
      rw [Nor.content_add]
      refine Iff.symm ?_
      -- without misfires every layer is laid; with them, those that the byte depends on are
      rcases hdevice with hp | ⟨hlen, htimer1⟩
      · have hcovered : Covered (diesLayer :: layersOf env images reimagePlan w.mallocs)
            ((step.2.baseAddr.toNat + i) % flashSize) :=
          covered_cons.mpr (.inl ⟨0xFF, hcell, rfl⟩)
        exact (LaysAll.cons (hdies hp _) (hlaid.laysAll fun _ _ => .inl hp)).top_iff hcovered
      · have hsettled : Settled p images ((step.2.baseAddr.toNat + i) % flashSize) reimagePlan :=
          settled_of_length (fun step hstep => ⟨hregular step hstep, hlen step hstep⟩) htimer1
            hstep hi
        rw [top_cons_of_covered hsettled.covered]
        exact hlaid.top_iff hsettled
    obtain ⟨w'', hicap, -, hemits⟩ := icap_reports (I := AllHold) (fun _ _ _ h => h) 0 hall
    rw [hicap]
    exact hemits.mono Set.subset_union_right
  rcases emits.mem_newEvents hreached with hno | ⟨before', address', data', heq, hall⟩
  · exact absurd rfl (hno before address data)
  · cases heq
    exact hall

end Run

/-! ## Images with one mark

Where all four names lead to the same file, a zero byte in front of erased ones, each
call leaves a zero cell at its base address. -/

/-- A zero in front of `n` erased bytes.  It shows where an image begins, and nothing else. -/
def markFile (n : ℕ) : File := ⟨UInt64.ofNat (n + 1), 0 :: List.replicate n 0xFF⟩

/-- Zeros at the addresses in `marks`, in an erased flash.  This is what the files with a mark
make of it. -/
def marked (marks : List ℕ) (x : ℕ) : UInt8 := if x ∈ marks then 0 else 0xFF

section Marks

variable {n : ℕ} {region : Region} {call : ProgramCall} {w : World (Nor .swift)} {marks : List ℕ}

/-- The file is as long as it says. -/
theorem markFile_regular (hn : n < 2 ^ 32) : (markFile n).Regular := by
  rw [File.Regular, markFile, UInt64.toNat_ofNat', List.length_cons, List.length_replicate]
  omega

theorem markFile_length : (markFile n).contents.length = n + 1 := by
  rw [markFile, List.length_cons, List.length_replicate]

theorem markFile_pageCount (hn : n < 2 ^ 32) :
    (pageCount (markFile n).ftell).toNat = (n + 256) / 256 := by
  have hcount := pageCount_toNat (markFile n).ftell
  rw [markFile_regular hn, markFile_length] at hcount
  omega

/-- The pages of the file over fresh memory that is erased.  Every byte but the first is
`0xFF`, be it from the file or from the memory behind it. -/
theorem markFile_page (hn : n < 2 ^ 32) {j k : ℕ} (hj : j < (n + 256) / 256) (hk : k < 256) :
    filePage (markFile n) (fun _ _ => 0xFF) j k = if 256 * j + k = 0 then 0 else 0xFF := by
  by_cases hlt : 256 * j + k < (markFile n).contents.length
  · rw [filePage_of_lt hk (by omega) hlt]
    rcases Nat.eq_zero_or_pos (256 * j + k) with hzero | hpos
    · simp only [hzero]
      rfl
    · rw [if_neg hpos.ne']
      obtain ⟨i, hi⟩ := Nat.exists_eq_succ_of_ne_zero hpos.ne'
      simp only [hi, markFile, List.getElem_cons_succ, List.getElem_replicate]
  · rw [filePage_of_le (by omega) (Nat.le_of_not_lt hlt), if_neg]
    rw [markFile_length] at hlt
    omega

/-- Programming the file leaves its mark.  All the other bytes of its pages are `0xFF`, which
change nothing. -/
theorem programmed_markFile (hn : n < 2 ^ 32) (hbase : 256 ∣ region.baseAddr.toNat)
    (hend : region.baseAddr.toNat + 256 * ((n + 256) / 256) ≤ flashSize) (m : ℕ → UInt8) (x : ℕ) :
    programmed region.baseAddr (markFile n) (fun _ _ => 0xFF) ((n + 256) / 256) m x =
      if x = region.baseAddr.toNat then 0 else m x := by
  have hconsecutive : programmed region.baseAddr (markFile n) (fun _ _ => 0xFF) ((n + 256) / 256) m =
      programPages 256 (fun j => region.baseAddr.toNat + 256 * j)
        (fun j => bytesOf (filePage (markFile n) (fun _ _ => 0xFF) j) 256) ((n + 256) / 256) m :=
    programPages_congr fun j hj => pageAt_of_lt (by omega)
  rw [hconsecutive]
  by_cases hin : ∃ j < (n + 256) / 256, InBlock 256 (region.baseAddr.toNat + 256 * j) x
  · obtain ⟨j, hj, hblock⟩ := hin
    have hdvd : 256 ∣ region.baseAddr.toNat + 256 * j := Nat.dvd_add hbase ⟨j, rfl⟩
    have hpos : 0 < 256 := by decide
    obtain ⟨hle, hlt⟩ := (inBlock_iff_of_dvd hpos hdvd).mp hblock
    obtain ⟨k, rfl⟩ := Nat.exists_eq_add_of_le hle
    have hk : k < 256 := by omega
    rw [programPages_of_unique hj fun i _ hij => not_inBlock_of_ne hpos hbase hblock hij,
      program_of_dvd hpos hdvd hk, bytesOf_getElem?, if_pos hk, Option.getD_some,
      markFile_page hn hj hk]
    -- the mark is the first byte, and all others are erased
    by_cases hzero : 256 * j + k = 0
    · rw [if_pos hzero, if_pos (by omega)]
      exact Cell.burn_cleared _
    · rw [if_neg hzero, if_neg (by omega)]
      exact Cell.burn_erased _
  · have hout : x ≠ region.baseAddr.toNat := by
      rintro rfl
      exact hin ⟨0, by omega, rfl⟩
    rw [if_neg hout]
    exact programPages_of_not_inBlock fun i hi hblock => hin ⟨i, hi, hblock⟩

/-- The marks outside the erase of a call outlive it. -/
theorem Programs.erased_marked (h : Programs call region) {data : FlashData} {m : ℕ → UInt8}
    (hmem : ∀ x < flashSize, m x = marked marks x)
    (hmarks : ∀ z ∈ marks, call.erase = 0 ∨ z ∉ region.cells) {x : ℕ} (hx : x < flashSize) :
    erased call (data.select region) m x = marked marks x := by
  by_cases he : call.erase = 0
  · rw [erased, if_pos he, hmem x hx]
  by_cases hcell : x ∈ region.cells
  · have hno : x ∉ marks := fun hz => ((hmarks x hz).resolve_left he) hcell
    rw [h.erased_of_mem he hcell, marked, if_neg hno]
  · rw [h.erased_of_not_mem hcell, hmem x hx]

/-- The pages of the file have the mark at `base` and none of the marks elsewhere.  So the
pages agree with what the flash is to hold there. -/
theorem markFile_page_marked {base : ℕ} (hn : n < 2 ^ 32)
    (hmarks : ∀ z ∈ marks, z < base ∨ base + 256 * ((n + 256) / 256) ≤ z) {j k : ℕ}
    (hj : j < (n + 256) / 256) (hk : k < 256) :
    filePage (markFile n) (fun _ _ => 0xFF) j k = marked (base :: marks) (base + (256 * j + k)) := by
  rw [markFile_page hn hj hk, marked]
  refine if_congr ?_ rfl rfl
  rw [List.mem_cons]
  constructor
  · intro hz
    exact .inl (by omega)
  · rintro (hz | hz)
    · omega
    · have hout := hmarks _ hz
      omega

/-- A call finds the marks of the calls before it outside its pages, and adds its own.  On a
device without faults it succeeds, and the four calls follow one after the other. -/
theorem Programs.run_marks (h : Programs call region) (hn : n < 2 ^ 32)
    (hend : region.baseAddr.toNat + 256 * ((n + 256) / 256) ≤ flashSize)
    (hready : Ready (Nor.Answering 1) w) (hflag : w.qspiInitFlag = true)
    (hdata : w.flashData = w.flashData.select region)
    (hmem : ∀ x < flashSize, w.bus.mem x = marked marks x)
    (hmarks : ∀ z ∈ marks, (call.erase = 0 ∨ z ∉ region.cells) ∧
      (z < region.baseAddr.toNat ∨ region.baseAddr.toNat + 256 * ((n + 256) / 256) ≤ z)) :
    ∃ w', call.run (.plain (some (markFile n)) 0xFF) w = (.ret .success, w') ∧
      Ready (Nor.Answering 1) w' ∧ w'.qspiInitFlag = true ∧
      ∀ x < flashSize, w'.bus.mem x = marked (region.baseAddr.toNat :: marks) x := by
  have hbase : w.flashData.baseAddr = region.baseAddr := by rw [hdata]; rfl
  obtain ⟨status, w', hrun, hready', hcontent, hpass⟩ :=
    call.run_healthy NorParams.swift_faultFree (swift_busy (some (markFile n)) 0xFF) hready hflag
      (fun _ => rfl) fun _ => h.sectors_le hdata
  rw [hbase, markFile_pageCount hn] at hcontent hpass
  have herased : ∀ x < flashSize, erased call w.flashData w.bus.mem x = marked marks x := by
    intro x hx
    rw [hdata]
    exact h.erased_marked hmem (fun z hz => (hmarks z hz).1) hx
  have hcells : ∀ x < flashSize, w'.bus.mem x = marked (region.baseAddr.toNat :: marks) x := by
    intro x hx
    rw [← w'.bus.content_ofNat hx, hcontent, toNat_ofNat_mod hx,
      show (fun j => (Env.plain (some (markFile n)) 0xFF).malloc (w.mallocs + j)) =
        fun _ _ => 0xFF from rfl,
      programmed_markFile hn h.placed.base_dvd hend, herased x hx, marked, marked]
    by_cases hz : x = region.baseAddr.toNat <;> simp [hz]
  -- the marks of the pages are where the verification looks for them
  have hok : status = .success := by
    refine hpass.mpr fun j hj k hk => ?_
    have hlt : region.baseAddr.toNat + (256 * j + k) < flashSize := by omega
    rw [UInt32.add_assoc, ← UInt32.ofNat_add, Nor.content_add, Nat.mod_eq_of_lt hlt, hcells _ hlt]
    exact (markFile_page_marked hn (fun z hz => (hmarks z hz).2) hj hk).symm
  subst hok
  refine ⟨w', hrun, hready', ?_, hcells⟩
  exact (call.run_moves.of_eq hrun).qspiInitFlag hflag

/-- An erased flash stays so.  The four of them at the beginning leave the bus ready. -/
theorem dieErase_marks (uscDieNr : UInt32) (hready : Ready (Nor.Answering 1) w)
    (hflag : w.qspiInitFlag = true) (hmem : ∀ x, w.bus.mem x = 0xFF) :
    ∃ w', spiFlashDieErase (.plain (some (markFile n)) 0xFF) uscDieNr w = (.ret .success, w') ∧
      Ready (Nor.Answering 1) w' ∧ w'.qspiInitFlag = true ∧ ∀ x, w'.bus.mem x = 0xFF := by
  have serves : Serves (Nor.Answering 1)
      (spiFlashDieErase (σ := Nor .swift) (.plain (some (markFile n)) 0xFF) uscDieNr) :=
    spiFlashDieErase_serves (Nor.responsive NorParams.swift_faultFree (swift_busy _ _))
  obtain ⟨w', hrun, hready'⟩ := serves.exists_ret hready
  have talks := (spiFlashDieErase_talks (Set.subset_univ _) trivial).of_eq hrun
  refine ⟨w', hrun, hready', talks.qspiInitFlag hflag, fun x => ?_⟩
  rw [dieErase_mem NorParams.swift_faultFree.misfire hrun, NorFlash.erase]
  split_ifs
  · rfl
  · exact hmem x

/-- Menu option 0 with such images, on an erased flash, comes to its `icap` call with four
marks in the flash.  Each call adds one, and finds the others where they were. -/
theorem reimage_marks (hn : n ≤ 1024) :
    ∃ before address data,
      .pciWrite before address data ∈ newEvents (World.selected .golden fun _ => 0xFF)
        (reimageWholeFlash (.plain (some (markFile n)) 0xFF)
          (World.selected .golden fun _ => 0xFF)).2 ∧
      ∀ x < flashSize, before.mem x = marked [0x08000000, 0, 0x0FFC0000, 0x07FFFC00] x := by
  have hn' : n < 2 ^ 32 := by omega
  have hpages : 256 * ((n + 256) / 256) ≤ 1280 := by omega
  have hsize := flashSize_eq
  set env := Env.plain (some (markFile n)) 0xFF
  set w := World.selected .golden fun _ => 0xFF
  -- the four dies
  obtain ⟨w₁, hdie₁, hready₁, hflag₁, hmem₁⟩ :=
    dieErase_marks (n := n) 0 (selected_ready .golden fun _ => 0xFF) rfl fun _ => rfl
  obtain ⟨w₂, hdie₂, hready₂, hflag₂, hmem₂⟩ := dieErase_marks (n := n) 1 hready₁ hflag₁ hmem₁
  obtain ⟨w₃, hdie₃, hready₃, hflag₃, hmem₃⟩ := dieErase_marks (n := n) 2 hready₂ hflag₂ hmem₂
  obtain ⟨w₄, hdie₄, hready₄, hflag₄, hmem₄⟩ := dieErase_marks (n := n) 3 hready₃ hflag₃ hmem₃
  -- then the four images, each with its marks over the ones before
  set select : Region → World (Nor .swift) → World (Nor .swift) := fun region w =>
    { w with flashData := w.flashData.select region }
  have unmarked : ∀ x < flashSize, (select .timer1 w₄).bus.mem x = marked [] x := fun x _ => hmem₄ x
  obtain ⟨w₅, hrun₅, hready₅, hflag₅, hmem₅⟩ := (Programs.timer1 1 1).run_marks
    (w := select .timer1 w₄) hn' (by simp only [Region.timer1, UInt32.reduceToNat]; omega)
    ⟨hready₄.bus, hready₄.errorCount⟩ hflag₄ rfl unmarked (by simp)
  obtain ⟨w₆, hrun₆, hready₆, hflag₆, hmem₆⟩ := (Programs.timer2 2 1).run_marks
    (w := select .timer2 w₅) hn' (by simp only [Region.timer2, UInt32.reduceToNat]; omega)
    ⟨hready₅.bus, hready₅.errorCount⟩ hflag₅ rfl hmem₅ (by
      simp [Region.timer1, Region.timer2, Region.cells])
  obtain ⟨w₇, hrun₇, hready₇, hflag₇, hmem₇⟩ := (Programs.golden 0).run_marks
    (w := select .golden w₆) hn' (by simp only [Region.golden, UInt32.reduceToNat]; omega)
    ⟨hready₆.bus, hready₆.errorCount⟩ hflag₆ rfl hmem₆ (by
      simp [Region.timer1, Region.timer2, Region.golden, ProgramCall.erase]; omega)
  obtain ⟨w₈, hrun₈, hready₈, hflag₈, hmem₈⟩ := (Programs.user 0).run_marks
    (w := select .user w₇) hn' (by simp only [Region.user, UInt32.reduceToNat]; omega)
    ⟨hready₇.bus, hready₇.errorCount⟩ hflag₇ rfl hmem₇ (by
      simp [Region.timer1, Region.timer2, Region.golden, Region.user, ProgramCall.erase]; omega)
  obtain ⟨bus, events, hicap⟩ := icap_eq 0 w₈
  have hrun : reimageWholeFlash env w = icap 0 w₈ := by
    rw [reimageWholeFlash_eq, check_of_ok hdie₁, check_of_ok hdie₂, check_of_ok hdie₃,
      check_of_ok hdie₄]
    exact (check_of_ok hrun₅).trans <| (check_of_ok hrun₆).trans <| (check_of_ok hrun₇).trans <|
      check_of_ok hrun₈
  refine ⟨w₈.bus, icapBaseAddr + icapWriteFifo, 0xFFFFFFFF, ?_, hmem₈⟩
  rw [hrun, hicap]
  exact List.mem_append_right _ List.mem_cons_self

end Marks

/-- Four images of one byte are in place in the end.  Their pages are apart, so none of them
is damaged by the next. -/
theorem reimage_one_byte :
    ∃ before address data,
      .pciWrite before address data ∈ newEvents (World.selected .golden fun _ => 0xFF)
        (reimageWholeFlash (.plain (some (markFile 0)) 0xFF)
          (World.selected .golden fun _ => 0xFF)).2 ∧
      ∀ step ∈ reimagePlan, Holds before.content step.2.baseAddr (markFile 0) := by
  obtain ⟨before, address, data, hreached, -⟩ := reimage_marks (n := 0) (by decide)
  refine ⟨before, address, data, hreached, ?_⟩
  have hfits : ∀ step ∈ reimagePlan, (markFile 0).Regular ∧ step.2.Fits (markFile 0) :=
    fun step hstep => ⟨markFile_regular (by decide), (reimagePlan_programs hstep).placed.base_lt⟩
  have hfile : ∀ (region : Region) i f, (Env.plain (some (markFile 0)) 0xFF).fopen i
      ((World.selected .golden fun _ => 0xFF).flashData.path ++ "/" ++ region.imageName) = some f →
      f = markFile 0 := by
    rintro region i f ⟨⟩
    rfl
  exact (reimage_iff hfile (fun step hstep => (hfits step hstep).1)
    (.inl NorParams.swift_faultFree.misfire) hreached).mpr (compatible_of_fits _ hfits)

/-- The user image is programmed over the end of a first timer image of 1025 bytes. -/
theorem reimage_counterexample :
    ∃ before address data,
      .pciWrite before address data ∈ newEvents (World.selected .golden fun _ => 0xFF)
        (reimageWholeFlash (.plain (some (markFile 1024)) 0xFF)
          (World.selected .golden fun _ => 0xFF)).2 ∧
      ¬ Holds before.content Region.timer1.baseAddr (markFile 1024) := by
  obtain ⟨before, address, data, hreached, hmem⟩ := reimage_marks (n := 1024) (by decide)
  refine ⟨before, address, data, hreached, fun hholds => ?_⟩
  have hbyte := hholds 1024 (by rw [markFile_length]; decide)
  rw [Nor.content_add, hmem _ (Nat.mod_lt _ (by decide))] at hbyte
  have herased : ∀ h : 1024 < (markFile 1024).contents.length, (markFile 1024).contents[1024] = 0xFF := by
    intro _
    simp only [markFile, List.getElem_cons_succ, List.getElem_replicate]
  rw [herased] at hbyte
  exact absurd hbyte (by decide)

end Kiflash
