import Kiflash.Nor.Programming

/-!
# What a programming call can reach

The erase of a programming call ends where `FlashData.eraseEndAddr` says.  The programming
ends where the file does: nothing compares its length with the region.  So a call stays in its
region exactly when the pages of the file do.

* `ProgramCall.StaysIn` — whatever the device, the host and the file, nothing outside changes.
* `Region.Contains` — the pages of a file of this length are in the region.
* `region_isolation_iff` — the two are the same, for the programming calls and for
  `kiflash_program_user`.

### Pages, not bytes

The code programs whole pages.  A file that ends inside the last page of its region is in the
region; one byte more, and the page behind it is programmed from its first cell on, with heap
memory after that byte.  The number of pages is computed in 32 bits, so a file of more than
`2 ^ 40` bytes may come out with few pages.

### Both directions

If the pages fit, every frame of the call has its footprint in the region, and no device can
change anything else.  If they do not, a file of zeros is programmed on a device without
faults, and the first cell behind the region becomes zero.  The flash is a ring for this:
behind the last region comes the first cell.
-/

open Imperative Imperative.Prog NorFlash

namespace Kiflash

/-- The number of pages that are programmed for a file of `length` bytes.  The modulus is the
one of the `int` that holds the number. -/
def pagesOf (length : ℕ) : ℕ := (length + 255) / 256 % 2 ^ 32

/-- Every file that `fopen` finds under this name has `length` bytes.  What is in them may
change from call to call. -/
def Env.Finds (env : Env) (pathname : String) (length : ℕ) : Prop :=
  ∀ i file, env.fopen i pathname = some file → file.Regular ∧ file.contents.length = length

/-- A host that always gives this file. -/
theorem finds_of_fopen {env : Env} {pathname : String} {file : File} (hfile : file.Regular)
    (hopen : ∀ i, env.fopen i pathname = some file) :
    env.Finds pathname file.contents.length := by
  intro i found hfound
  rw [hopen i, Option.some.injEq] at hfound
  exact hfound ▸ ⟨hfile, rfl⟩

/-- Whatever the device, the host and the contents of a file of `length` bytes, the call
changes nothing outside the region that is selected. -/
def ProgramCall.StaysIn (call : ProgramCall) (region : Region) (length : ℕ) : Prop :=
  ∀ (p : NorParams) (env : Env) (w : World (Nor p)),
    w.flashData = w.flashData.select region → env.Finds w.flashData.pathname length →
    ∀ x < flashSize, x ∉ region.cells → (call.run env w).2.bus.mem x = w.bus.mem x

/-- The same for `kiflash_program_user`, which selects the user region itself. -/
def KiflashProgramUserStays (length : ℕ) : Prop :=
  ∀ (p : NorParams) (env : Env) (w : World (Nor p)), env.Finds userImagePath length →
    ∀ x < flashSize, x ∉ Region.user.cells → (kiflashProgramUser env w).2.bus.mem x = w.bus.mem x

/-- The pages of a file of `length` bytes are in the region.  The count is the one of the
code, modulo `2 ^ 32`. -/
def Region.Contains (region : Region) (length : ℕ) : Prop :=
  region.baseAddr.toNat + 256 * pagesOf length ≤ region.eraseEndAddr.toNat

/-! ## Pages that stay in the region -/

/-- The frames that cannot change anything outside the region.  Reads and status commands are
all among them. -/
def framesIn (region : Region) : Set (List UInt8) := {frame | footprint frame ⊆ region.cells}

section Frames

variable {region : Region} {file : File} {data : FlashData} {call : ProgramCall} {length : ℕ}

/-- The bookkeeping changes nothing anywhere. -/
theorem housekeeping_subset_framesIn : housekeeping ⊆ framesIn region :=
  Nor.housekeeping_subset_framesWithin

/-- And neither does a read. -/
theorem says_read_framesIn : Says (framesIn region) command4byteQuadOutputFastRead :=
  Nor.says_read_framesWithin

/-- The sectors of a region are in it. -/
theorem Region.Placed.sectorFrames (placed : region.Placed) :
    SectorFrames (framesIn region) (data.select region) region.eraseStartAddr := by
  intro i hi x hx
  rw [placed.sectors] at hi
  exact placed.exists_sector_iff.mp ⟨i, hi, footprint_sectorErase _ hx⟩

/-- And so are the pages of a file that fits.  The last of them may be short in the file, but
is programmed whole, inside the region. -/
theorem Region.Placed.pageFrames (placed : region.Placed) (hfile : file.Regular)
    (hfits : region.Contains file.contents.length) :
    PageFrames (framesIn region) region.baseAddr file := by
  intro j hj buffer x hx
  have hcount := pageCount_toNat file.ftell
  rw [hfile] at hcount
  have hend := placed.end_le
  unfold Region.Contains pagesOf at hfits
  have hpage : pageAt region.baseAddr j = region.baseAddr.toNat + 256 * j :=
    pageAt_of_lt (by omega)
  have hblock : InBlock 256 (pageAt region.baseAddr j) x := footprint_program _ _ hx
  rw [hpage, inBlock_iff_of_dvd (by decide) (Nat.dvd_add placed.base_dvd ⟨j, rfl⟩)] at hblock
  have hle := placed.start_le
  exact Set.mem_Ico.mpr (by omega)

end Frames

section Stays

variable {p : NorParams} {env : Env} {w w' : World (Nor p)} {region : Region} {call : ProgramCall}
variable {length x : ℕ}

/-- Calls of the driver with such frames. -/
theorem mem_of_framesIn {d d' : Nor p} (hx : x ∉ region.cells)
    (h : Relation.ReflTransGen (BusStep (framesIn region)) d d') : d'.mem x = d.mem x :=
  Nor.mem_of_framesWithin hx h

/-- A programming call whose pages fit sends frames for its region only, whatever its
outcome. -/
theorem Programs.run_frames {σ : Type} [XSpiDriver σ] {w : World σ} (h : Programs call region)
    (hfits : region.Contains length)
    (hdata : w.flashData = w.flashData.select region)
    (hfile : env.Finds w.flashData.pathname length) :
    Reports (framesIn region) Set.univ w (call.run env w).2 := by
  refine call.run_reports housekeeping_subset_framesIn transfers_univ.admits (fun _ => ?_)
    (fun i file hopen => ?_) says_read_framesIn (fun _ => trivial) trivial
  · rw [hdata, h.eraseFrom]
    exact h.placed.sectorFrames
  · obtain ⟨hregular, hlength⟩ := hfile i file hopen
    rw [show w.flashData.baseAddr = region.baseAddr by rw [hdata]; rfl]
    exact h.placed.pageFrames hregular (hlength.symm ▸ hfits)

/-- So no device changes anything outside of it. -/
theorem Programs.staysIn (h : Programs call region) (hfits : region.Contains length) :
    call.StaysIn region length := fun _ _ _ hdata hfile _ _ hx =>
  mem_of_framesIn hx (h.run_frames hfits hdata hfile).bus

/-- What the calls of the driver keep with such frames, `kiflash_program_user` keeps.  The
writes of `icap` go past the flash, so they are a hypothesis of their own. -/
theorem kiflashProgramUser_keeps {σ : Type} [XSpiDriver σ] {w : World σ} {I : σ → Prop}
    (hstep : ∀ {d d'}, BusStep (framesIn .user) d d' → I d → I d')
    (hpci : ∀ address data d, I d → I (XSpiDriver.pciWriteReg address data d))
    (hfits : Region.user.Contains length) (hfile : env.Finds userImagePath length) (h : I w.bus) :
    I (kiflashProgramUser env w).2.bus := by
  have steps : ∀ {d d'}, Relation.ReflTransGen (BusStep (framesIn .user)) d d' → I d → I d' := by
    intro d d' hsteps hd
    induction hsteps with
    | refl => exact hd
    | tail _ hlast ih => exact hstep hlast ih
  -- the initialisation and the programming are steps on the bus, the reboot is not
  have talked : ∀ {w₁ : World σ}, Relation.ReflTransGen (BusStep housekeeping) w.bus w₁.bus →
      I w₁.bus := fun h₁ => steps (h₁.lift id fun _ _ => BusStep.mono housekeeping_subset_framesIn) h
  refine wp_state_iff.mp (wp_kiflashProgramUser transfers_univ.admits trivial
    (fun _ _ h₁ _ => talked h₁) fun w₁ h₁ _ hname hselected => ?_)
  have hprograms : Programs (.user 1) .user := .user 1
  have hrun₂ : I ((ProgramCall.user 1).run env w₁).2.bus :=
    steps (hprograms.run_frames hfits hselected (hname ▸ hfile)).bus (talked h₁)
  rcases hrun : programUser env 1 w₁ with ⟨status | why, w₂⟩
  · have h₂ : I w₂.bus := by rw [ProgramCall.run, hrun] at hrun₂; exact hrun₂
    refine (wp_of_ret hrun).mpr ⟨fun _ => ?_, fun _ => h₂⟩
    obtain ⟨w₃, hicap, h₃, -⟩ := icap_reports hpci 0 h₂
    obtain ⟨_, _, hlast⟩ := setPercentage_eq env 100 w₃
    refine (wp_of_ret hicap).mpr ?_
    rw [hlast]
    exact h₃
  · refine (wp_of_stop hrun).mpr ?_
    rw [ProgramCall.run, hrun] at hrun₂
    exact hrun₂

/-- `kiflash_program_user` touches the flash through `program_user` only. -/
theorem kiflashProgramUser_stays (hfits : Region.user.Contains length) :
    KiflashProgramUserStays length := by
  intro p env w hfile x _ hx
  refine kiflashProgramUser_keeps (I := fun d : Nor p => d.mem x = w.bus.mem x)
    (fun h hd => (mem_of_framesIn hx (.single h)).trans hd) (fun _ _ _ hd => hd) hfits hfile rfl

end Stays

/-! ## Pages that do not -/

/-- A file of zeros.  Every page of it shows on an erased flash. -/
def zeroFile (length : ℕ) : File := ⟨UInt64.ofNat length, List.replicate length 0⟩

theorem zeroFile_regular {length : ℕ} (h : length < 2 ^ 64) : (zeroFile length).Regular := by
  rw [File.Regular, zeroFile, UInt64.toNat_ofNat', List.length_replicate, Nat.mod_eq_of_lt h]

theorem zeroFile_found {length : ℕ} (h : length < 2 ^ 64) (pathname : String) :
    (Env.plain (some (zeroFile length)) 0).Finds pathname length := by
  rintro i file ⟨⟩
  exact ⟨zeroFile_regular h, List.length_replicate⟩

/-- The pages of a file of zeros. -/
theorem zeroFile_pageCount {length : ℕ} (h : length < 2 ^ 64) :
    (pageCount (zeroFile length).ftell).toNat = pagesOf length := by
  have hregular := zeroFile_regular h
  rw [File.Regular, zeroFile, List.length_replicate] at hregular
  rw [pageCount_toNat, zeroFile, hregular, pagesOf]

/-- The first cell behind a region, the flash taken as a ring.  An image that is too long
reaches it first. -/
def Region.behind (region : Region) : ℕ := region.eraseEndAddr.toNat % flashSize

section Spills

variable {region : Region} {call : ProgramCall} {length : ℕ}

/-- The first cell behind a region is not in it. -/
theorem Programs.behind_not_mem (h : Programs call region) : region.behind ∉ region.cells := by
  rw [Region.behind, Region.cells, Set.mem_Ico]
  cases h <;> decide

theorem Region.behind_lt (region : Region) : region.behind < flashSize := Nat.mod_lt _ (by decide)

/-- **Pages that do not fit.**  Zeros are programmed behind the region.  The first cell behind
it belongs to the page that comes next after the last one that fits, and a program command can
clear it whatever it held. -/
theorem Programs.run_spills (h : Programs call region) (hlen : length < 2 ^ 64)
    (hover : ¬ region.Contains length) {w : World (Nor .swift)} (hready : Ready (Nor.Answering 1) w)
    (hflag : w.qspiInitFlag = true) (hdata : w.flashData = w.flashData.select region) :
    ∃ status w', call.run (.plain (some (zeroFile length)) 0) w = (.ret status, w') ∧
      w'.bus.mem region.behind = 0 := by
  have placed := h.placed
  have hbase : w.flashData.baseAddr = region.baseAddr := by rw [hdata]; rfl
  obtain ⟨status, w', hrun, -, hcontent, -⟩ := call.run_healthy NorParams.swift_faultFree
    (swift_busy (some (zeroFile length)) 0) hready hflag (fun _ => rfl) fun _ => h.sectors_le hdata
  refine ⟨status, w', hrun, ?_⟩
  rw [← w'.bus.content_ofNat region.behind_lt, hcontent, toNat_ofNat_mod region.behind_lt, hbase,
    zeroFile_pageCount hlen]
  -- a file of zeros, and zeros behind its end: every cell that a page reaches is cleared
  have hzero : ∀ j k, filePage (zeroFile length) (fun _ _ => 0) j k = 0 :=
    filePage_forall (P := fun b => b = 0)
      (fun _ hb => List.eq_of_mem_replicate (List.mem_of_mem_take hb)) fun _ _ => rfl
  refine programPages_of_cleared (by decide) (fun j _ k hk => ?_)
    ⟨(region.eraseEndAddr.toNat - region.baseAddr.toNat) / 256, ?_, ?_⟩
  · rw [bytesOf_getElem?, if_pos hk]
    exact congrArg some (hzero j k)
  · have hle := placed.base_lt
    have hdvd := placed.base_dvd
    have hdvd' := placed.end_dvd
    unfold Region.Contains at hover
    omega
  · have hle := placed.base_lt
    have hdvd := placed.base_dvd
    have hdvd' := placed.end_dvd
    have hend := placed.end_le
    have hsize := flashSize_eq
    -- one page is at the first address behind the region
    have haddr : pageAt region.baseAddr
        ((region.eraseEndAddr.toNat - region.baseAddr.toNat) / 256) = region.behind := by
      rw [pageAt, Region.behind, UInt32.toNat_add, UInt32.toNat_ofNat', hsize]
      omega
    rw [haddr]
    rfl

/-- The same through `kiflash_program_user`.  The call selects its region itself, and is
otherwise a call of `program_user`. -/
theorem kiflashProgramUser_spills (hlen : length < 2 ^ 64) (hover : ¬ Region.user.Contains length) :
    (kiflashProgramUser (.plain (some (zeroFile length)) 0)
      (World.selected .user fun _ => 0xFF)).2.bus.mem Region.user.behind = 0 := by
  set env := Env.plain (some (zeroFile length)) 0
  set w := World.selected .user fun _ => 0xFF
  obtain ⟨p₀, es₀, hreset, -⟩ := w.reset_eq env
  have hinit : kiflashInit env w = _ := kiflashInit_of_flag rfl rfl
  rw [hreset] at hinit
  obtain ⟨w₁, hw₁, hinit⟩ : ∃ w₁, w₁ = { w with
      flashData := { w.flashData.initial with percentage := p₀ }
      events := w.events ++ es₀
      pciFds := w.pciFds + 1 } ∧ kiflashInit env w = (.ret .success, w₁) := ⟨_, rfl, hinit⟩
  set w₂ : World (Nor .swift) := { w₁ with flashData := w₁.flashData.select .user }
  obtain ⟨p₂, es₂, hmark⟩ := setPercentage_eq env 0 w₂
  set w₃ : World (Nor .swift) :=
    { w₂ with flashData := { w₂.flashData with percentage := p₂ }, events := es₂ }
  have hready : Ready (Nor.Answering 1) w₃ := by
    refine ⟨?_, ?_⟩
    · change Nor.Answering 1 w₁.bus
      rw [hw₁]
      exact (selected_ready .user fun _ => 0xFF).bus
    · change w₁.errorCount = 0
      rw [hw₁]
      rfl
  have hflag : w₃.qspiInitFlag = true := by
    change w₁.qspiInitFlag = true
    rw [hw₁]
    rfl
  obtain ⟨status, w₄, hrun, hzero⟩ := (Programs.user 1).run_spills hlen hover hready hflag rfl
  change programUser env 1 w₃ = _ at hrun
  -- the run up to the programming call
  have hhead : kiflashProgramUser env w =
      check (programUser env 1) (icap 0 >>= fun _ => setPercentage env 100 >>= fun _ =>
        pure .success) w₃ :=
    (bind_of_ret hinit).trans ((bind_of_ret rfl).trans (bind_of_ret hmark))
  rw [hhead]
  by_cases hok : status = .success
  -- behind a success comes `icap`, which leaves the flash alone
  · subst hok
    rw [check_of_ok hrun]
    obtain ⟨w₅, hicap, h₅, -⟩ := icap_reports
      (I := fun d : Nor .swift => d.mem Region.user.behind = 0) (fun _ _ _ h => h) 0 hzero
    obtain ⟨p₆, es₆, hlast⟩ := setPercentage_eq env 100 w₅
    rw [bind_of_ret hicap, bind_of_ret hlast]
    exact h₅
  · rw [check_of_ne hrun hok]
    exact hzero

/-- A programming call stays in its region exactly when the pages of its file do. -/
theorem Programs.staysIn_iff (h : Programs call region) (hlen : length < 2 ^ 64) :
    call.StaysIn region length ↔ region.Contains length := by
  refine ⟨fun hstays => ?_, h.staysIn⟩
  by_contra hover
  obtain ⟨status, w', hrun, hzero⟩ := h.run_spills (w := World.selected region fun _ => 0xFF)
    hlen hover (selected_ready _ _) rfl rfl
  have hsame := hstays _ _ (World.selected region fun _ => 0xFF) rfl (zeroFile_found hlen _) _
    region.behind_lt h.behind_not_mem
  rw [hrun] at hsame
  change w'.bus.mem region.behind = 0xFF at hsame
  exact absurd (hzero.symm.trans hsame) (by decide)

end Spills

/-- **Region isolation.**  A programming call leaves everything outside its region alone,
whatever the contents of its file and of the flash and whatever the device does, exactly when
the pages of the file fit in the region; and so does `kiflash_program_user`.

Both sides are about a length alone, and the contents, the host and the device are quantified
inside.  The erase keeps to the region by its own sector count, whatever the file is.  The
programming does not: the pages follow one another until the file ends, and the last one is
written whole. -/
theorem region_isolation_iff (length : ℕ) (hlen : length < 2 ^ 64) :
    (∀ call region, Programs call region →
      (call.StaysIn region length ↔ region.Contains length)) ∧
    (KiflashProgramUserStays length ↔ Region.user.Contains length) := by
  refine ⟨fun call region h => h.staysIn_iff hlen, fun hstays => ?_, kiflashProgramUser_stays⟩
  by_contra hover
  have hsame := hstays _ _ (World.selected .user fun _ => 0xFF) (zeroFile_found hlen _) _
    Region.user.behind_lt (Programs.user 1).behind_not_mem
  exact absurd ((kiflashProgramUser_spills hlen hover).symm.trans hsame) (by decide)

/-- The second timer region takes an image of its own size. -/
theorem region_isolation_timer2 : (ProgramCall.timer 2 1).StaysIn .timer2 0x40000 :=
  ((region_isolation_iff 0x40000 (by decide)).1 _ _ (.timer2 2 1)).mpr
    (by unfold Region.Contains; decide)

/-- A timer image of five pages is programmed over the first page of the user image. -/
theorem region_isolation_counterexample :
    0x08000000 ∉ Region.timer1.cells ∧
    (World.selected .timer1 fun _ => 0xFF).bus.mem 0x08000000 = 0xFF ∧
    ((ProgramCall.timer 1 1).run (.plain (some (zeroFile 1025)) 0)
      (World.selected .timer1 fun _ => 0xFF)).2.bus.mem 0x08000000 = 0 := by
  have hprograms : Programs (.timer 1 1) .timer1 := .timer1 1 1
  obtain ⟨status, w', hrun, hzero⟩ := hprograms.run_spills
    (w := World.selected .timer1 fun _ => 0xFF) (show 1025 < 2 ^ 64 by decide)
    (by unfold Region.Contains; decide)
    (selected_ready _ _) rfl rfl
  refine ⟨hprograms.behind_not_mem, rfl, ?_⟩
  rw [hrun]
  exact hzero

end Kiflash
