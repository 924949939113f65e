import Kiflash.Nor.Laws

/-!
# A programming call on a NOR flash without faults

`ProgramCall.run_healthy` gives the cells after a programming call and says when it returns
success.  For the four image regions, `Programs.run_healthy` brings both into closed form: the
pages of the file over an erased region, and success exactly when the two page buffers that
were filled from the end of the file agree in the bytes that the file does not reach.

* `erased`, `programmed` — the cells after the erase and after the programming.
* `Region.Placed` — what the four regions have in common.
* `Programs` — the programming functions with the regions that their callers select.

### In two steps

The first result is about any target: `FlashData` may hold any addresses, sectors and pages
may lie across each other and wrap around the end of the flash.  The cells are then given by
the runs of operations of `Kiflash.NorFlash.Contents`, one after the other at their addresses,
and these are executable.  The second result adds what is special about the four regions,
whole sectors in the flash that an image begins in at a page boundary.  The blocks are
consecutive there, and the runs have a closed form.

### Where the sectors are counted from

`program_user` erases from a constant and not from `eraseStartAddr`.  For the region that its
callers select the two are the same (`Programs.eraseFrom`).
-/

open Imperative Imperative.Prog NorFlash

namespace Kiflash

/-! ## Any target -/

section Cells

variable {p : NorParams} {env : Env} {w w' : World (Nor p)}

/-- Where the flash puts the sector number `i` from `ofsetAddr` on.  Both the 32 bits of the
address and the size of the flash wrap. -/
def sectorAt (ofsetAddr : UInt32) (i : ℕ) : ℕ :=
  (ofsetAddr + UInt32.ofNat (65536 * i)).toNat % flashSize

/-- Where the flash puts the page number `j` from `baseAddr` on, with the same two moduli. -/
def pageAt (baseAddr : UInt32) (j : ℕ) : ℕ :=
  (UInt32.ofNat (256 * j) + baseAddr).toNat % flashSize

/-- Pages do not wrap around before the end of the flash. -/
theorem pageAt_of_lt {baseAddr : UInt32} {j : ℕ} (h : baseAddr.toNat + 256 * j < flashSize) :
    pageAt baseAddr j = baseAddr.toNat + 256 * j := by
  have hsize := flashSize_eq
  rw [pageAt, UInt32.toNat_add, UInt32.toNat_ofNat', hsize]
  omega

/-- **A successful erase of sectors** erases them all.  The invariant of the loop has the
sectors left, the address of the next one, and the cells with the sectors so far erased. -/
theorem qspiEraseSectorFlash_mem (hp : ∀ n, p.misfire n = none) {ofsetAddr sectCount : UInt32}
    (h : qspiEraseSectorFlash env ofsetAddr sectCount w = (.ret .success, w')) :
    w'.bus.mem = eraseBlocks 0x10000 (sectorAt ofsetAddr) sectCount.toNat w.bus.mem := by
  unfold qspiEraseSectorFlash at h
  split_ifs at h with hcount
  · have hwp : wp (checkLoop (spiFlashSectorErase env) (· + bytePerSector) sectCount.toNat ofsetAddr)
        (fun status w' => status = .success →
          w'.bus.mem = eraseBlocks 0x10000 (sectorAt ofsetAddr) sectCount.toNat w.bus.mem)
        (fun _ _ => True) w := by
      -- the sectors left, the address of the next one, and the cells so far
      refine wp_checkLoop (fun n addr w' => n ≤ sectCount.toNat ∧
          addr = ofsetAddr + UInt32.ofNat (65536 * (sectCount.toNat - n)) ∧
          w'.bus.mem = eraseBlocks 0x10000 (sectorAt ofsetAddr) (sectCount.toNat - n) w.bus.mem)
        (fun n addr w₁ inv => ?_) (fun _ _ inv _ => inv.2.2) _ _ w ⟨le_rfl, by simp, by simp [eraseBlocks]⟩
      obtain ⟨hle, rfl, hmem⟩ := inv
      rcases hrun : spiFlashSectorErase env _ w₁ with ⟨status | why, w₂⟩
      · refine (wp_of_ret hrun).mpr ⟨fun hok => ?_, fun _ h => absurd h (by decide)⟩
        subst hok
        have hnext : sectCount.toNat - n = sectCount.toNat - (n + 1) + 1 := by omega
        refine ⟨by omega, ?_, ?_⟩
        · rw [hnext, Nat.mul_succ, UInt32.ofNat_add, ← UInt32.add_assoc]
          rfl
        · rw [sectorErase_mem hp hrun, hmem, hnext, eraseBlocks]
          rfl
      · exact (wp_of_stop hrun).mpr trivial
    exact (wp_of_ret h).mp hwp rfl
  · cases h

/-- The cells after the erase stage.  With the argument zero there is none. -/
def erased (call : ProgramCall) (data : FlashData) (m : ℕ → UInt8) : ℕ → UInt8 :=
  if call.erase = 0 then m
  else eraseBlocks 0x10000 (sectorAt (call.eraseFrom data))
    (sectorsToErase data (call.eraseFrom data)).toNat m

/-- The cells after `n` pages of the file are programmed over `m`, each from its own page
buffer.  The end of the last one is what `malloc` has returned. -/
def programmed (baseAddr : UInt32) (file : File) (heap : ℕ → ℕ → UInt8) (n : ℕ) (m : ℕ → UInt8) :
    ℕ → UInt8 :=
  programPages 256 (pageAt baseAddr) (fun j => bytesOf (filePage file heap j) 256) n m

/-- **A programming call without faults.**  The cells are those of the programmed
image, and the call returns success exactly when they match the pages that the
verification reads. -/
theorem ProgramCall.run_healthy (hp : p.FaultFree) (hbusy : ∀ n, p.busy n < env.rounds)
    (call : ProgramCall) {file : File} (h : Ready (Nor.Answering env.rounds) w)
    (hflag : w.qspiInitFlag = true) (hopen : ∀ i, env.fopen i w.flashData.pathname = some file)
    (hsectors : call.erase ≠ 0 →
      sectorsToErase w.flashData (call.eraseFrom w.flashData) ≤ numbSectors) :
    ∃ status w', call.run env w = (.ret status, w') ∧
      Ready (Nor.Answering env.rounds) w' ∧
      (∀ addr, w'.bus.content addr = programmed w.flashData.baseAddr file
        (fun j => env.malloc (w.mallocs + j)) (pageCount file.ftell).toNat
        (erased call w.flashData w.bus.mem) (addr.toNat % flashSize)) ∧
      (status = .success ↔ PagesMatch w'.bus.content w.flashData.baseAddr
        (filePage file fun j => env.malloc (w.mallocs + (pageCount file.ftell).toNat + j))
        (pageCount file.ftell).toNat) := by
  set start := erased call w.flashData w.bus.mem with hstart
  have run := call.run_ready (Nor.responsive hp hbusy) (Nor.exactReads p env)
    (fun d => d.mem = start)
    (fun j d => d.mem = programmed w.flashData.baseAddr file (fun j => env.malloc (w.mallocs + j)) j
      start) h hflag hopen hsectors
    (fun he => by rw [hstart, erased, if_pos he]) (fun he w₁ w₂ hbus hrun => ?_)
    (fun d d' hd hsteps => (Nor.mem_of_housekeeping hsteps).trans hd)
    fun j w₁ w₂ hj hmallocs hmem hpage => ?_
  · obtain ⟨status, w', hrun, hready, bus, hmem, hcontent, hpass⟩ := exists_ret_of_wp run
    refine ⟨status, w', hrun, hready, fun addr => ?_, ?_⟩
    · rw [hcontent, Nor.content, hmem]
    · rwa [hcontent]
  -- what the erase leaves, and what each page adds to it
  · rw [qspiEraseSectorFlash_mem hp.misfire hrun, hbus, hstart, erased, if_neg he]
  · rw [programPage_mem hp.misfire hpage, hmem, hmallocs]
    rfl

end Cells

/-! ## The four regions -/

/-- The calls of the programming functions and the region that their callers select.  The
timer number of the call has no part in it. -/
inductive Programs : ProgramCall → Region → Prop
  | golden (erase : UInt32) : Programs (.golden erase) .golden
  | user (erase : UInt32) : Programs (.user erase) .user
  | timer1 (timerid erase : UInt32) : Programs (.timer timerid erase) .timer1
  | timer2 (timerid erase : UInt32) : Programs (.timer timerid erase) .timer2

/-- A region of whole sectors in the flash, with a page boundary in it where the image begins.
All four regions are. -/
structure Region.Placed (region : Region) : Prop where
  base_dvd : 256 ∣ region.baseAddr.toNat
  start_dvd : 65536 ∣ region.eraseStartAddr.toNat
  end_dvd : 65536 ∣ region.eraseEndAddr.toNat
  start_le : region.eraseStartAddr.toNat ≤ region.baseAddr.toNat
  base_lt : region.baseAddr.toNat < region.eraseEndAddr.toNat
  end_le : region.eraseEndAddr.toNat ≤ flashSize

/-- The addresses of the region, from where its erase begins to where it ends. -/
def Region.cells (region : Region) : Set ℕ :=
  Set.Ico region.eraseStartAddr.toNat region.eraseEndAddr.toNat

section Regions

variable {call : ProgramCall} {region : Region} {data : FlashData} {m : ℕ → UInt8} {x : ℕ}

/-- All four regions are placed. -/
theorem Programs.placed (h : Programs call region) : region.Placed := by
  cases h <;> exact ⟨by decide, by decide, by decide, by decide, by decide, by decide⟩

/-- The erase begins where the region does, for `program_user` as well. -/
theorem Programs.eraseFrom (h : Programs call region) :
    call.eraseFrom (data.select region) = region.eraseStartAddr := by
  cases h <;> rfl

namespace Region.Placed

variable (placed : region.Placed)
include placed

/-- The number of sectors that is computed for a region. -/
theorem sectors : (sectorsToErase (data.select region) region.eraseStartAddr).toNat =
    (region.eraseEndAddr.toNat - region.eraseStartAddr.toNat) / 65536 := by
  have hle : region.eraseStartAddr ≤ region.eraseEndAddr :=
    UInt32.le_iff_toNat_le.mpr (placed.start_le.trans placed.base_lt.le)
  change ((region.eraseEndAddr - region.eraseStartAddr) / bytePerSector).toNat = _
  rw [UInt32.toNat_div, UInt32.toNat_sub_of_le _ _ hle]
  rfl

/-- It is accepted by the erase. -/
theorem sectors_le : sectorsToErase (data.select region) region.eraseStartAddr ≤ numbSectors := by
  have hend := placed.end_le
  rw [UInt32.le_iff_toNat_le, placed.sectors]
  have hsize := flashSize_eq
  have hnumb : numbSectors.toNat = 4096 := rfl
  omega

/-- The sectors of the region, one after the other. -/
theorem sectorAt_eq {i : ℕ}
    (hi : i < (region.eraseEndAddr.toNat - region.eraseStartAddr.toNat) / 65536) :
    sectorAt region.eraseStartAddr i = region.eraseStartAddr.toNat + 65536 * i := by
  have hend := placed.end_le
  have hsize := flashSize_eq
  rw [sectorAt, UInt32.toNat_add, UInt32.toNat_ofNat', hsize]
  omega

/-- The erased sectors are the region.  They lie one behind the other, and none of them wraps,
as the region is placed. -/
theorem exists_sector_iff :
    (∃ i < (region.eraseEndAddr.toNat - region.eraseStartAddr.toNat) / 65536,
      InBlock 0x10000 (sectorAt region.eraseStartAddr i) x) ↔ x ∈ region.cells := by
  have hstart := placed.start_dvd
  have hend := placed.end_dvd
  have hle := placed.start_le
  have hlt := placed.base_lt
  have hiff := exists_inBlock_iff (x := x)
    (n := (region.eraseEndAddr.toNat - region.eraseStartAddr.toNat) / 65536) (by decide) hstart
  have hsize : region.eraseStartAddr.toNat +
      65536 * ((region.eraseEndAddr.toNat - region.eraseStartAddr.toNat) / 65536) =
      region.eraseEndAddr.toNat := by
    rw [Nat.mul_div_cancel' (Nat.dvd_sub hend hstart)]
    omega
  rw [hsize] at hiff
  rw [Region.cells, Set.mem_Ico, ← hiff]
  refine exists_congr fun i => and_congr_right fun hi => ?_
  rw [placed.sectorAt_eq hi]

end Region.Placed

/-- The selected region has no more sectors than the device. -/
theorem Programs.sectors_le (h : Programs call region) (hdata : data = data.select region) :
    sectorsToErase data (call.eraseFrom data) ≤ numbSectors := by
  rw [hdata, h.eraseFrom]
  exact h.placed.sectors_le

/-- Behind the erase, the region is erased. -/
theorem Programs.erased_of_mem (h : Programs call region) (he : call.erase ≠ 0)
    (hx : x ∈ region.cells) : erased call (data.select region) m x = 0xFF := by
  rw [erased, if_neg he, h.eraseFrom, h.placed.sectors]
  exact eraseBlocks_of_inBlock (h.placed.exists_sector_iff.mpr hx)

/-- And nothing else is. -/
theorem Programs.erased_of_not_mem (h : Programs call region) (hx : x ∉ region.cells) :
    erased call (data.select region) m x = m x := by
  unfold erased
  split_ifs
  · rfl
  · rw [h.eraseFrom, h.placed.sectors]
    refine eraseBlocks_of_not_inBlock fun i hi hin => ?_
    exact hx (h.placed.exists_sector_iff.mp ⟨i, hi, hin⟩)

/-! ### Images that fit -/

/-- The image ends inside the region.  The source does not ask for it, so it is a hypothesis
of what is said of images. -/
def Region.Fits (region : Region) (file : File) : Prop :=
  region.baseAddr.toNat + file.contents.length ≤ region.eraseEndAddr.toNat

variable {file : File} {heap : ℕ → ℕ → UInt8}

namespace Region.Placed

variable (placed : region.Placed) (hfile : file.Regular) (hfits : region.Fits file)
include placed hfile hfits

omit hfile in
/-- An image that fits is shorter than `2 ^ 32` bytes. -/
theorem length_lt : file.contents.length < 2 ^ 32 := by
  have hend := placed.end_le
  have hsize := flashSize_eq
  unfold Region.Fits at hfits
  omega

/-- Its pages are counted right. -/
theorem pageCount_eq : (pageCount file.ftell).toNat = (file.contents.length + 255) / 256 := by
  have hlen := placed.length_lt hfits
  have hcount := pageCount_toNat file.ftell
  rw [hfile] at hcount
  omega

/-- The pages of an image that fits are cells of the region. -/
theorem page_mem_cells {j k : ℕ} (hj : j < (pageCount file.ftell).toNat) (hk : k < 256) :
    region.baseAddr.toNat + 256 * j + k ∈ region.cells := by
  have hbase := placed.base_dvd
  have hend := placed.end_dvd
  have hle := placed.start_le
  rw [placed.pageCount_eq hfile hfits] at hj
  unfold Region.Fits at hfits
  rw [Region.cells, Set.mem_Ico]
  omega

/-- And they lie one behind the other. -/
theorem pageAt_eq {j : ℕ} (hj : j < (pageCount file.ftell).toNat) :
    pageAt region.baseAddr j = region.baseAddr.toNat + 256 * j :=
  pageAt_of_lt ((placed.page_mem_cells hfile hfits hj (Nat.zero_lt_succ 255)).2.trans_le placed.end_le)

/-- The pages of an image that fits are consecutive blocks. -/
theorem programmed_eq : programmed region.baseAddr file heap (pageCount file.ftell).toNat m =
    programPages 256 (fun j => region.baseAddr.toNat + 256 * j)
      (fun j => bytesOf (filePage file heap j) 256) (pageCount file.ftell).toNat m :=
  programPages_congr fun _ hj => placed.pageAt_eq hfile hfits hj

/-- A cell of a page, programmed over an erased one. -/
theorem programmed_page {j k : ℕ} (hj : j < (pageCount file.ftell).toNat) (hk : k < 256)
    (herased : m (region.baseAddr.toNat + 256 * j + k) = 0xFF) :
    programmed region.baseAddr file heap (pageCount file.ftell).toNat m
      (region.baseAddr.toNat + 256 * j + k) = filePage file heap j k := by
  rw [placed.programmed_eq hfile hfits,
    programPages_consecutive (by decide) placed.base_dvd hj hk herased, bytesOf_getElem?, if_pos hk]
  rfl

/-- The cells that no page covers. -/
theorem programmed_of_not_covered
    (hx : x < region.baseAddr.toNat ∨
      region.baseAddr.toNat + 256 * (pageCount file.ftell).toNat ≤ x) :
    programmed region.baseAddr file heap (pageCount file.ftell).toNat m x = m x := by
  rw [placed.programmed_eq hfile hfits]
  refine programPages_of_not_inBlock fun i hi hin => ?_
  have hcover := (exists_inBlock_iff (by decide) placed.base_dvd).mp ⟨i, hi, hin⟩
  omega

end Region.Placed

end Regions

/-! ## Success on a device without faults -/

section Healthy

variable {p : NorParams} {env : Env} {w : World (Nor p)} {call : ProgramCall} {region : Region}
variable {file : File}

/-- The addresses of the flash are 32-bit numbers. -/
theorem toNat_ofNat_mod {x : ℕ} (hx : x < flashSize) :
    (UInt32.ofNat x).toNat % flashSize = x := by
  have hsize := flashSize_eq
  rw [UInt32.toNat_ofNat', hsize]
  omega

/-- A cell, by its 32-bit address. -/
theorem Nor.content_ofNat (d : Nor p) {x : ℕ} (hx : x < flashSize) :
    d.content (UInt32.ofNat x) = d.mem x := by
  rw [content, toNat_ofNat_mod hx]

/-- The page `j` of the file as `qspi_program_bin` programs it, in a call that begins
after `mallocs` page buffers. -/
def programmedPage (env : Env) (file : File) (mallocs : ℕ) : ℕ → ℕ → UInt8 :=
  filePage file fun j => env.malloc (mallocs + j)

/-- The page `j` of the file as `qspi_verify_bin` compares it.  Its buffers come behind those
of the programming. -/
def verifiedPage (env : Env) (file : File) (mallocs : ℕ) : ℕ → ℕ → UInt8 :=
  filePage file fun j => env.malloc (mallocs + (pageCount file.ftell).toNat + j)

/-- **Programming a region on a device without faults.**  The pages of the file stand
in an erased region, and the call returns success exactly when the verification
reads the same pages from the file. -/
theorem Programs.run_healthy (hp : p.FaultFree) (hbusy : ∀ n, p.busy n < env.rounds)
    (h : Programs call region) (he : call.erase ≠ 0) (hfile : file.Regular)
    (hfits : region.Fits file) (hready : Ready (Nor.Answering env.rounds) w)
    (hflag : w.qspiInitFlag = true) (hdata : w.flashData = w.flashData.select region)
    (hopen : ∀ i, env.fopen i w.flashData.pathname = some file) :
    ∃ status w', call.run env w = (.ret status, w') ∧
      (∀ j < (pageCount file.ftell).toNat, ∀ k < 256,
        w'.bus.mem (region.baseAddr.toNat + 256 * j + k) = programmedPage env file w.mallocs j k) ∧
      (∀ x ∈ region.cells, x < region.baseAddr.toNat ∨
        region.baseAddr.toNat + 256 * (pageCount file.ftell).toNat ≤ x → w'.bus.mem x = 0xFF) ∧
      (status = .success ↔ ∀ j < (pageCount file.ftell).toNat, ∀ k < 256,
        programmedPage env file w.mallocs j k = verifiedPage env file w.mallocs j k) := by
  have placed := h.placed
  have hend := placed.end_le
  have hbase : w.flashData.baseAddr = region.baseAddr := by rw [hdata]; rfl
  obtain ⟨status, w', hrun, -, hcontent, hpass⟩ :=
    call.run_healthy hp hbusy hready hflag hopen fun _ => h.sectors_le hdata
  rw [hbase] at hcontent hpass
  set total := (pageCount file.ftell).toNat with htotal
  have hcells : ∀ {x}, x ∈ region.cells → x < flashSize := fun hx => hx.2.trans_le hend
  -- the contents as a function of the contents before, cell by cell
  have hmem : ∀ x < flashSize, w'.bus.mem x = programmed region.baseAddr file
      (fun j => env.malloc (w.mallocs + j)) total
      (erased call (w.flashData.select region) w.bus.mem) x := by
    intro x hx
    rw [← w'.bus.content_ofNat hx, hcontent, toNat_ofNat_mod hx, ← hdata]
  -- a cell of a page was erased, and no other page reaches it
  have hpages : ∀ j < total, ∀ k < 256,
      w'.bus.mem (region.baseAddr.toNat + 256 * j + k) = programmedPage env file w.mallocs j k := by
    intro j hj k hk
    have hin := placed.page_mem_cells hfile hfits hj hk
    rw [hmem _ (hcells hin)]
    exact placed.programmed_page hfile hfits hj hk (h.erased_of_mem he hin)
  refine ⟨status, w', hrun, hpages, fun x hx hout => ?_, hpass.trans ?_⟩
  · rw [hmem x (hcells hx), placed.programmed_of_not_covered hfile hfits hout]
    exact h.erased_of_mem he hx
  · refine forall₂_congr fun j hj => forall₂_congr fun k hk => ?_
    have haddr : (region.baseAddr + UInt32.ofNat (256 * j) + UInt32.ofNat k) =
        UInt32.ofNat (region.baseAddr.toNat + 256 * j + k) := by
      rw [UInt32.ofNat_add, UInt32.ofNat_add, UInt32.ofNat_toNat]
    rw [haddr, w'.bus.content_ofNat (hcells (placed.page_mem_cells hfile hfits hj hk)),
      hpages j hj k hk]
    rfl

/-- A device that is never busy answers within any number of rounds. -/
theorem swift_busy (answer : Option File) (heap : UInt8) :
    ∀ n, NorParams.swift.busy n < (Env.plain answer heap).rounds := fun _ => Nat.one_pos

/-- An initialised process that has selected a region, before an idle flash.  The examples of
this module begin here. -/
def World.selected (region : Region) (mem : ℕ → UInt8) : World (Nor .swift) :=
  { World.fresh (Nor.idle .swift mem) with
    flashData := (⟨0, 0, 0, 0, imagePath, ""⟩ : FlashData).select region
    qspiInitFlag := true }

/-- It answers. -/
theorem selected_ready (region : Region) (mem : ℕ → UInt8) :
    Ready (Nor.Answering 1) (World.selected region mem) := ⟨⟨rfl, Nat.one_pos⟩, rfl⟩

end Healthy

end Kiflash
