import Kiflash.Stages

/-!
# What a successful verification says

`qspi_verify_bin` reads the flash page by page and compares every page with the file.  This
module says what its success means, for any driver whose page reads deliver the flash
(`ExactReads`).

* `spiFlashRead_success` — inside a successful page read: the poll before the read frame, the
  transfer of the frame, and the housekeeping after it, which leaves the page in `ReadBuffer`
  alone.
* `PagesMatch` — the flash holds the pages that the loop compares.
* `qspiVerifyBin_matches` — after a success, it does.
* `PagesMatch.holds` — pages over the whole file give its bytes.
* `FlashLaws.exactReads` — page reads are exact when the transfers of the read frame are, and
  nothing but erase and program commands changes the flash.

### The page that the comparison sees

A page read stores its answer into the shared `ReadBuffer`, and then polls the status register
and leaves the 4-byte mode with the same buffer.  That the page is still there afterwards is a
property of the lengths: those commands receive at most two bytes, and the page begins at
index 9.  `Hears n` says that a run leaves the buffer alone from index `n` on, and
`FullDuplex` is what it needs of the driver: a transfer stores no more bytes than it sends.

### What is compared is not the file

The buffer of a page is fresh heap memory over which `fread` lays the bytes that the file
still has.  So the last page ends with what the heap held (`filePage_of_le`), and a file of at
least 2³² bytes is read from wrapped offsets.  `PagesMatch` speaks about the buffers as they
are; `PagesMatch.holds` goes from there to the bytes of the file, and its two hypotheses are
that the file is shorter than 2³² bytes and that `ftell` tells its length.

### Assumptions on the flash

Success is reported by the code, so nothing is assumed of the erase and program commands:
whatever they did, the comparison has looked at the result.  What must be assumed is that
reads tell the truth (`FlashLaws.read`) and that reading, polling and switching modes leave
the contents alone (`FlashLaws.quiet`).
-/

open Imperative Imperative.Prog

namespace Kiflash

/-! ## The page in the receive buffer -/

/-- No transfer stores more bytes than it sends: SPI is full duplex. -/
def FullDuplex (σ : Type) [XSpiDriver σ] : Prop :=
  ∀ (rounds : ℕ) (frame : List UInt8) (recv : Bool) (bus : σ) status stored bus',
    XSpiDriver.xspiTransfer rounds frame recv bus = (some (status, stored), bus') →
    stored.length ≤ frame.length

/-- The receive buffer is the same from index `n` on.  Status reads touch only its first
bytes, so a page in it stays. -/
def Hears {σ : Type} (n : ℕ) (w w' : World σ) : Prop :=
  ∀ i, n ≤ i → w'.readBuffer i = w.readBuffer i

section ReadBuffer

variable {σ : Type} {env : Env}

instance (n : ℕ) : IsPreorder (World σ) (Hears n) where
  refl _ _ _ := rfl
  trans _ _ _ h h' i hi := (h' i hi).trans (h i hi)

variable [XSpiDriver σ] (hfd : FullDuplex σ)
include hfd

/-- A command that receives `n` bytes stores below index `n` only.  The driver stores from the
beginning of the buffer on, and no more than it has sent. -/
theorem command_hears {recv : Bool} {n m : ℕ} {inner : Prog (World σ) Xst} (hn : n ≤ m)
    (hinner : Moves (Hears m) inner) : Moves (Hears m) (command env recv n inner) := by
  have transfer : Moves (Hears m) (xspiTransfer (σ := σ) env recv n) := by
    intro w
    refine wp_state_iff.mp (wp_xspiTransfer (fun _ _ _ => rfl) (fun _ _ _ _ => rfl)
      (fun _ _ _ _ _ _ _ => rfl) fun status stored bus hx _ i hi => ?_)
    have hlen := hfd _ _ _ _ _ _ _ hx
    rw [bytesOf_length] at hlen
    cases recv with
    | false => rfl
    | true =>
        have hle : 0 + stored.length ≤ i := by omega
        exact overlay_of_le w.readBuffer hle
  refine Moves.bind (moves_modify fun _ _ _ => rfl) fun _ => transfer.check ?_
  refine hinner.bind fun status => Moves.bind (moves_modify fun _ _ _ => rfl) fun _ => ?_
  refine Moves.ite (Moves.bind ?_ fun _ => ?_) (moves_pure _)
  · exact (moves_gets _).bind fun _ => (moves_halt _).ite (moves_pure _)
  · exact (moves_gets _).bind fun _ => (moves_pure _).ite
      (Moves.bind (moves_modify fun _ _ _ => rfl) fun _ => moves_pure _)

theorem send_hears {bs : List UInt8} {recv : Bool} {n m : ℕ} (hn : n ≤ m) :
    Moves (Hears m) (fillWriteBuffer 0 bs >>= fun _ =>
      command (σ := σ) env recv n (pure .success)) := by
  refine Moves.bind (fun w => ?_) fun _ => command_hears hfd hn (moves_pure _)
  exact wp_state_iff.mp (wp_fillWriteBuffer (fun _ _ _ => rfl) fun _ _ _ => rfl)

/-- The poll receives two bytes a round. -/
theorem spiFlashWaitForFlashReady_hears :
    Moves (Hears 2) (spiFlashWaitForFlashReady (σ := σ) env) := by
  refine Moves.loop (fun _ => (send_hears hfd (by decide)).bind fun status => ?_) _ _
  exact ((moves_gets _).bind fun _ => (moves_pure _).ite (moves_pure _)).ite (moves_pure _)

theorem spiFlash4byteexit_hears : Moves (Hears 2) (spiFlash4byteexit (σ := σ) env) :=
  ((spiFlashWaitForFlashReady_hears hfd).check (send_hears hfd (by decide))).check <|
    (spiFlashWaitForFlashReady_hears hfd).check (send_hears hfd (by decide))

/-- Inside a successful page read.  The page arrives in the transfer in the middle; the
transfers behind it store only to the first two bytes. -/
theorem spiFlashRead_success {addr : UInt32} {w w' : World σ}
    (h : spiFlashRead env addr pageSize command4byteQuadOutputFastRead w = (.ret .success, w')) :
    ∃ w₀ w₁ stale stored bus,
      Talks housekeeping w w₀ ∧
      spiFlashWaitForFlashReady env w₀ = (.ret .success, w₁) ∧
      stale.length = 260 ∧
      XSpiDriver.xspiTransfer env.rounds
        (command4byteQuadOutputFastRead :: addrBytes addr ++ stale) true w₁.bus =
          (some (.success, stored), bus) ∧
      Relation.ReflTransGen (BusStep housekeeping) bus w'.bus ∧
      ∀ i, 2 ≤ i → w'.readBuffer i = overlay w₁.readBuffer 0 stored i := by
  rw [spiFlashRead_eq] at h
  obtain ⟨w₂, hmode, h⟩ := check_eq_ok.mp h
  obtain ⟨w₀, henable, h⟩ := check_eq_ok.mp h
  obtain ⟨w₁, hwait, h⟩ := check_eq_ok.mp h
  obtain ⟨w₃, hsend, hexit⟩ := check_eq_ok.mp h
  obtain ⟨_, _, hfill, hcommand⟩ := bind_eq_ret.mp hsend
  rw [fillWriteBuffer_eq (by simp [bufferSize])] at hfill
  cases hfill
  obtain ⟨w₄, _, hx, ⟨⟩, rfl⟩ := command_eq_success env hcommand
  obtain ⟨stored, bus, htransfer, rfl⟩ := xspiTransfer_eq_ret hx
  -- the frame is the command and its address, and what an earlier frame left in the buffer
  have frame : bytesOf (overlay w₁.writeBuffer 0 (command4byteQuadOutputFastRead :: addrBytes addr))
        265 = command4byteQuadOutputFastRead :: addrBytes addr ++
      bytesOf (fun j => w₁.writeBuffer (5 + j)) 260 :=
    bytesOf_overlay_zero _ (command4byteQuadOutputFastRead :: addrBytes addr) 260
  refine ⟨w₀, w₁, bytesOf (fun j => w₁.writeBuffer (5 + j)) 260, stored, bus, ?_, hwait,
    bytesOf_length _ _, ?_, ?_, ?_⟩
  · exact trans_of _ ((spiFlash4bytemodeEnable_talks subset_rfl).of_eq hmode)
      ((spiFlashWriteEnable_talks statusFrames_subset).of_eq henable)
  · rw [← frame]
    exact htransfer
  · exact ((spiFlash4byteexit_talks subset_rfl).of_eq hexit).bus
  · exact fun i hi => (spiFlash4byteexit_hears hfd).of_eq hexit i hi

end ReadBuffer

/-! ## Exact reads -/

/-- The frames the flash code sends that neither erase nor program: the page reads and the
bookkeeping. -/
def readingFrames : Set (List UInt8) :=
  framesOf (insert command4byteQuadOutputFastRead housekeepingCommands)

theorem housekeeping_subset : housekeeping ⊆ readingFrames := framesOf_mono (Set.subset_insert _ _)

theorem says_read : Says readingFrames command4byteQuadOutputFastRead :=
  says_framesOf (Set.mem_insert _ _)

/-- Commands that neither erase nor program leave `content` alone, and so do the driver calls
without a frame. -/
def Quiet {σ : Type} [XSpiDriver σ] (content : σ → UInt32 → UInt8) : Prop :=
  ∀ bus bus', BusStep readingFrames bus bus' → content bus' = content bus

/-- `content` is what successful page reads deliver, and reading does not change it.  A read
that fails may deliver anything. -/
structure ExactReads {σ : Type} [XSpiDriver σ] (env : Env) (content : σ → UInt32 → UInt8) :
    Prop where
  quiet : Quiet content
  read : ∀ {addr w w'},
    spiFlashRead env addr pageSize command4byteQuadOutputFastRead w = (.ret .success, w') →
    ∀ k < 256, w'.readBuffer (9 + k) = content w.bus (addr + UInt32.ofNat k)

section Quiet

variable {σ : Type} [XSpiDriver σ] {content : σ → UInt32 → UInt8} (hquiet : Quiet content)
include hquiet

/-- Any number of such calls. -/
theorem Quiet.run {bus bus' : σ} (h : Relation.ReflTransGen (BusStep readingFrames) bus bus') :
    content bus' = content bus := by
  induction h with
  | refl => rfl
  | tail _ hstep ih => exact (hquiet _ _ hstep).trans ih

/-- A run that only talks in reading commands. -/
theorem Quiet.talks {A : Set (List UInt8)} (hA : A ⊆ readingFrames) {w w' : World σ}
    (h : Talks A w w') : content w'.bus = content w.bus :=
  hquiet.run (h.bus.lift id fun _ _ => BusStep.mono hA)

end Quiet

/-- The page that a round compares: the file's bytes from `256 * j` on, over the heap
memory that `malloc` returned. -/
def filePage (file : File) (heap : ℕ → ℕ → UInt8) (j : ℕ) : ℕ → UInt8 :=
  fread file (UInt32.ofNat (256 * j)) (heap j)

/-- The first `n` pages from `baseAddr` on are `pages`.  The addresses are those that the code
computes, modulo 2³². -/
def PagesMatch (content : UInt32 → UInt8) (baseAddr : UInt32) (pages : ℕ → ℕ → UInt8) (n : ℕ) :
    Prop :=
  ∀ j < n, ∀ k < 256, content (baseAddr + UInt32.ofNat (256 * j) + UInt32.ofNat k) = pages j k

/-- One page more. -/
theorem PagesMatch.succ {content : UInt32 → UInt8} {baseAddr : UInt32}
    {pages : ℕ → ℕ → UInt8} {n : ℕ} (h : PagesMatch content baseAddr pages n)
    (hn : ∀ k < 256, content (baseAddr + UInt32.ofNat (256 * n) + UInt32.ofNat k) = pages n k) :
    PagesMatch content baseAddr pages (n + 1) := by
  intro j hj
  rcases Nat.lt_succ_iff_lt_or_eq.mp hj with hj | rfl
  · exact h j hj
  · exact hn

/-- The comparison of `qspi_verify_bin`, byte for byte: the page begins behind the nine bytes
that arrive during the command, the address and the dummy cycles. -/
theorem isEqual_iff {readBuffer buffer : ℕ → UInt8} :
    isEqual readBuffer buffer = true ↔ ∀ k < 256, readBuffer (9 + k) = buffer k := by
  simp only [isEqual, List.all_eq_true, List.mem_range'_1, decide_eq_true_eq]
  constructor
  · intro h k hk
    have := h (5 + k) ⟨by omega, by omega⟩
    rwa [show 5 + k + 4 = 9 + k by omega, show 5 + k - 5 = k by omega] at this
  · intro h i hi
    have := h (i - 5) (by omega)
    rwa [show 9 + (i - 5) = i + 4 by omega] at this

/-- The page at `addr` has been read into `ReadBuffer`, and the flash is as it was.  The page
begins at index nine, behind the command, its address and the dummy bytes. -/
structure PageRead {σ : Type} (content : σ → UInt32 → UInt8) (addr : UInt32) (w w' : World σ) :
    Prop where
  same : content w'.bus = content w.bus
  mallocs : w'.mallocs = w.mallocs
  page : ∀ k < 256, w'.readBuffer (9 + k) = content w.bus (addr + UInt32.ofNat k)

section Verify

variable {σ : Type} [XSpiDriver σ] {env : Env} {content : σ → UInt32 → UInt8}
variable (hx : ExactReads env content)
include hx

/-- A write enable and a page read into the cleared buffer. -/
theorem pageRead_of_success {addr : UInt32} {w w₁ w₂ : World σ}
    (henable : spiFlashWriteEnable env w = (.ret .success, w₁))
    (hread : spiFlashRead env addr pageSize command4byteQuadOutputFastRead
      { w₁ with readBuffer := overlay w₁.readBuffer 0 (List.replicate 260 0) } =
        (.ret .success, w₂)) : PageRead content addr w w₂ := by
  have enabled :=
    (spiFlashWriteEnable_talks (statusFrames_subset.trans housekeeping_subset)).of_eq henable
  have hasRead := (spiFlashRead_talks housekeeping_subset says_read).of_eq hread
  have hsame : content w₁.bus = content w.bus := hx.quiet.talks subset_rfl enabled
  refine ⟨(hx.quiet.talks subset_rfl hasRead).trans hsame,
    hasRead.mallocs.trans enabled.mallocs, fun k hk => ?_⟩
  rw [hx.read hread k hk, ← hsame]

/-- A page that passes is the page of the file.  The read has filled the buffer from the
flash, and the comparison has looked at each byte of the page. -/
theorem verifyPage_success {baseAddr startAddr : UInt32} {file : File} {w w' : World σ}
    (h : verifyPage env baseAddr file startAddr w = (.ret .success, w')) :
    content w'.bus = content w.bus ∧ w'.mallocs = w.mallocs + 1 ∧
      ∀ k < 256, content w.bus (baseAddr + startAddr + UInt32.ofNat k) =
        fread file startAddr (env.malloc w.mallocs) k := by
  obtain ⟨_, _, ⟨⟩, h⟩ := bind_eq_ret.mp h
  obtain ⟨w₁, henable, h⟩ := check_eq_ok.mp h
  obtain ⟨_, _, ⟨⟩, h⟩ := bind_eq_ret.mp h
  obtain ⟨w₂, hread, h⟩ := check_eq_ok.mp h
  obtain ⟨readBuffer, _, ⟨⟩, h⟩ := bind_eq_ret.mp h
  have hpage := pageRead_of_success hx henable hread
  by_cases heq : isEqual w₂.readBuffer (fread file startAddr (env.malloc w.mallocs)) = true
  · have hw : w₂ = w' := by simpa [heq, pure] using h
    subst hw
    exact ⟨hpage.same, hpage.mallocs, fun k hk =>
      (hpage.page k hk).symm.trans (isEqual_iff.mp heq k hk)⟩
  · simp [heq, pure] at h

/-- The state of the verification when `n` pages are left, in a run that entered the loop with
`mallocs` calls of `malloc` behind it and `flash` in the flash.  It is the invariant of the
page loop. -/
structure Verifying (content : σ → UInt32 → UInt8) (flash : UInt32 → UInt8) (mallocs : ℕ)
    (baseAddr : UInt32) (pages : ℕ → ℕ → UInt8) (total n : ℕ) (w : World σ) : Prop where
  le : n ≤ total
  content : content w.bus = flash
  mallocs : w.mallocs = mallocs + (total - n)
  pages : PagesMatch flash baseAddr pages (total - n)

/-- A successful page loop has compared every page.  A page that differs ends the loop with a
failure, so behind a success the invariant has come down to no pages left. -/
theorem verifyLoop_success {file : File} {baseAddr : UInt32} {base : ℚ} {w w' : World σ}
    (h : pageLoop (reportProgress env base) (verifyPage env baseAddr file) (pageCount file.ftell) w =
      (.ret .success, w')) :
    Verifying content (content w.bus) w.mallocs baseAddr
      (filePage file fun j => env.malloc (w.mallocs + j)) (pageCount file.ftell).toNat 0 w' := by
  set total := pageCount file.ftell
  set pages := filePage file fun j => env.malloc (w.mallocs + j) with hpages
  let Inv := Verifying content (content w.bus) w.mallocs baseAddr pages total.toNat
  have hwp : wp (pageLoop (reportProgress env base) (verifyPage env baseAddr file) total)
      (fun status w' => status = .success → Inv 0 w') (fun _ _ => True) w := by
    -- `n` rounds are left, and the pages in front of them have been compared
    refine wp_pageLoop Inv ⟨le_rfl, rfl, by simp, fun j hj => by omega⟩ (fun n it w₁ _ inv => ?_)
      fun _ inv _ => inv
    have hle := inv.le
    obtain ⟨percentage, events, hreport⟩ := reportProgress_eq env base total it w₁
    refine (wp_of_ret hreport).mpr ?_
    rcases hpage : verifyPage env baseAddr file (UInt32.ofNat (256 * (total.toNat - (n + 1))))
      { w₁ with flashData := { w₁.flashData with percentage }, events } with ⟨status | why, w₂⟩
    · refine (wp_of_ret hpage).mpr ⟨fun hok => ?_, fun _ h => nomatch h⟩
      subst hok
      obtain ⟨hcontent, hmallocs, heq⟩ := verifyPage_success hx hpage
      have hnext : total.toNat - n = total.toNat - (n + 1) + 1 := by omega
      have hmallocs₁ := inv.mallocs
      refine ⟨by omega, hcontent.trans inv.content, by simp only [hmallocs]; omega, ?_⟩
      rw [hnext]
      refine inv.pages.succ fun k hk => ?_
      rw [← inv.content, heq k hk, hpages, filePage]
      simp only [hmallocs₁]
    · exact (wp_of_stop hpage).mpr trivial
  exact (wp_of_ret h).mp hwp rfl

/-- After a successful verification the flash holds every page that was compared, and
there was one call of `malloc` for each page. -/
theorem qspiVerifyBin_matches {w w' : World σ} (h : qspiVerifyBin env w = (.ret .success, w')) :
    ∃ file, env.fopen w.fopens w.flashData.pathname = some file ∧
      w'.mallocs = w.mallocs + (pageCount file.ftell).toNat ∧
      PagesMatch (content w'.bus) w.flashData.baseAddr
        (filePage file fun j => env.malloc (w.mallocs + j)) (pageCount file.ftell).toNat := by
  have hwp : wp (qspiVerifyBin env)
      (fun status w' => status = .success →
        ∃ file, env.fopen w.fopens w.flashData.pathname = some file ∧
          w'.mallocs = w.mallocs + (pageCount file.ftell).toNat ∧
          PagesMatch (content w'.bus) w.flashData.baseAddr
            (filePage file fun j => env.malloc (w.mallocs + j)) (pageCount file.ftell).toNat)
      (fun _ _ => True) w := by
    refine wp_bind.mpr (wp_imageFile (fun _ h => nomatch h)
      (fun _ _ _ _ => ⟨fun h => (nomatch h), fun _ => trivial⟩) fun file w₁ hfile h₁ => ?_)
    rcases hloop : pageLoop (reportProgress env 60) (verifyPage env w.flashData.baseAddr file)
      (pageCount file.ftell) w₁ with ⟨status | why, w₂⟩
    · refine (wp_of_ret hloop).mpr ⟨fun hok _ => ?_, fun _ h => nomatch h⟩
      subst hok
      have verified := verifyLoop_success hx hloop
      rw [h₁.mallocs] at verified
      refine ⟨file, hfile, verified.mallocs, ?_⟩
      have hpages := verified.pages
      rw [← verified.content] at hpages
      exact hpages
    · exact (wp_of_stop hloop).mpr trivial
  exact (wp_of_ret h).mp hwp rfl

omit hx in
/-- A page that is programmed takes one page buffer. -/
theorem programPage_mallocs {baseAddr startAddr : UInt32} {file : File} {w w' : World σ}
    (h : programPage env baseAddr file startAddr w = (.ret .success, w')) :
    w'.mallocs = w.mallocs + 1 := by
  obtain ⟨_, _, ⟨⟩, h⟩ := bind_eq_ret.mp h
  obtain ⟨w₁, henable, hwrite⟩ := check_eq_ok.mp h
  have h₁ := (spiFlashWriteEnable_talks (Set.subset_univ _)).of_eq henable
  have h₂ := (spiFlashWriteFile_talks (Set.subset_univ _) trivial).of_eq hwrite
  exact h₂.mallocs.trans h₁.mallocs

omit hx in
/-- A successful programming takes one page buffer for each page.  The buffers of the
verification are therefore the next ones. -/
theorem qspiProgramBin_mallocs {w w' : World σ}
    (h : qspiProgramBin env w = (.ret .success, w')) :
    ∃ file, env.fopen w.fopens w.flashData.pathname = some file ∧
      w'.mallocs = w.mallocs + (pageCount file.ftell).toNat := by
  have hwp : wp (qspiProgramBin env)
      (fun status w' => status = .success →
        ∃ file, env.fopen w.fopens w.flashData.pathname = some file ∧
          w'.mallocs = w.mallocs + (pageCount file.ftell).toNat)
      (fun _ _ => True) w := by
    refine wp_bind.mpr (wp_imageFile (fun _ h => nomatch h)
      (fun _ _ _ _ => ⟨fun h => (nomatch h), fun _ => trivial⟩) fun file w₁ hfile h₁ => ?_)
    set total := (pageCount file.ftell).toNat with htotal
    refine wp_pageLoop (fun n w₂ => n ≤ total ∧ w₂.mallocs = w.mallocs + (total - n))
      ⟨le_rfl, by rw [h₁.mallocs, ← htotal, Nat.sub_self]; rfl⟩ (fun n it w₂ _ inv => ?_)
      fun w₂ inv => ?_
    · obtain ⟨hle, hmallocs⟩ := inv
      obtain ⟨percentage, events, hreport⟩ := reportProgress_eq env 20 (pageCount file.ftell) it w₂
      refine (wp_of_ret hreport).mpr ?_
      rcases hpage : programPage env w.flashData.baseAddr file (UInt32.ofNat (256 * (total - (n + 1))))
        { w₂ with flashData := { w₂.flashData with percentage }, events } with ⟨status | why, w₃⟩
      · refine (wp_of_ret hpage).mpr
          ⟨fun hok => ?_, fun _ => ⟨fun h => (nomatch h), fun _ h => (nomatch h)⟩⟩
        subst hok
        have htaken := programPage_mallocs hpage
        simp only [hmallocs] at htaken
        exact ⟨by omega, by omega⟩
      · exact (wp_of_stop hpage).mpr trivial
    · exact ⟨fun _ _ => ⟨file, hfile, inv.2⟩, fun hno => absurd rfl hno⟩
  exact (wp_of_ret h).mp hwp rfl

omit hx in
/-- Inside an erase stage that erases and goes well. -/
theorem eraseStage_success {call : ProgramCall} {w w' : World σ} (he : call.erase ≠ 0)
    (h : eraseStage env (call.mark env) call.eraseFrom call.erase w = (.ret .success, w')) :
    ∃ w₁, qspiEraseSectorFlash env (call.eraseFrom w.flashData)
        (sectorsToErase w.flashData (call.eraseFrom w.flashData)) w = (.ret .success, w₁) ∧
      call.mark env 20 w₁ = (.ret (), w') := by
  rw [eraseStage, if_pos he] at h
  obtain ⟨_, _, ⟨⟩, h⟩ := bind_eq_ret.mp h
  obtain ⟨status, w₁, herase, h⟩ := bind_eq_ret.mp h
  obtain ⟨_, _, hmark, ⟨⟩⟩ := bind_eq_ret.mp h
  exact ⟨w₁, herase, hmark⟩

omit hx in
/-- The erase stage takes no buffer, and leaves the target of the call alone. -/
theorem eraseStage_frame {call : ProgramCall} {w w' : World σ}
    (h : eraseStage env (call.mark env) call.eraseFrom call.erase w = (.ret .success, w')) :
    w'.mallocs = w.mallocs ∧
      w'.flashData = { w.flashData with percentage := w'.flashData.percentage } := by
  by_cases he : call.erase = 0
  · rw [eraseStage, if_neg (not_not.mpr he)] at h
    cases h
    exact ⟨rfl, rfl⟩
  · obtain ⟨w₁, herase, hmark⟩ := eraseStage_success he h
    have talks := (qspiEraseSectorFlash_talks (Set.subset_univ _) fun _ _ => trivial).of_eq herase
    obtain ⟨-, hmallocs, hdata⟩ := mark_frame hmark
    exact ⟨hmallocs.trans talks.mallocs, by rw [hdata, talks.flashData]⟩

omit hx in
/-- The stages of a successful programming call.  Each returned success, since the call
returns at the first that does not. -/
theorem ProgramCall.run_stages (call : ProgramCall) {w w' : World σ}
    (h : call.run env w = (.ret .success, w')) :
    ∃ wa wb wc wd we wf,
      call.mark env 1 w = (.ret (), wa) ∧
      eraseStage env (call.mark env) call.eraseFrom call.erase wa = (.ret .success, wb) ∧
      call.mark env 20 wb = (.ret (), wc) ∧
      qspiProgramBin env wc = (.ret .success, wd) ∧
      call.mark env 60 wd = (.ret (), we) ∧
      qspiVerifyBin env we = (.ret .success, wf) ∧
      call.mark env 100 wf = (.ret (), w') := by
  rw [call.run_eq] at h
  obtain ⟨_, wa, hmark₁, h⟩ := bind_eq_ret.mp h
  obtain ⟨wb, herase, h⟩ := check_eq_ok.mp h
  obtain ⟨_, wc, hmark₂, h⟩ := bind_eq_ret.mp h
  obtain ⟨wd, hprogram, h⟩ := check_eq_ok.mp h
  obtain ⟨_, we, hmark₃, h⟩ := bind_eq_ret.mp h
  obtain ⟨wf, hverify, h⟩ := check_eq_ok.mp h
  obtain ⟨_, _, hmark₄, ⟨⟩⟩ := bind_eq_ret.mp h
  exact ⟨wa, wb, wc, wd, we, wf, hmark₁, herase, hmark₂, hprogram, hmark₃, hverify, hmark₄⟩

omit hx in
/-- The stages of a successful `kiflash_program_user`.  The status of the initialisation is
the only one that is not looked at. -/
theorem kiflashProgramUser_stages {w w' : World σ}
    (h : kiflashProgramUser env w = (.ret .success, w')) :
    ∃ status wa wb wc wd, kiflashInit env w = (.ret status, wa) ∧
      setPercentage env 0 { wa with flashData := wa.flashData.select .user } = (.ret (), wb) ∧
      programUser env 1 wb = (.ret .success, wc) ∧
      icap 0 wc = (.ret .success, wd) ∧
      setPercentage env 100 wd = (.ret (), w') := by
  obtain ⟨status, wa, hinit, h⟩ := bind_eq_ret.mp h
  obtain ⟨_, _, ⟨⟩, h⟩ := bind_eq_ret.mp h
  obtain ⟨_, wb, hzero, h⟩ := bind_eq_ret.mp h
  obtain ⟨wc, hprogram, h⟩ := check_eq_ok.mp h
  obtain ⟨reboot, wd, hicap, h⟩ := bind_eq_ret.mp h
  obtain ⟨_, _, hlast, ⟨⟩⟩ := bind_eq_ret.mp h
  obtain ⟨bus, events, hicap'⟩ := icap_eq 0 wc
  obtain rfl : reboot = .success :=
    Outcome.ret.inj (congrArg Prod.fst (hicap.symm.trans hicap'))
  exact ⟨status, wa, wb, wc, wd, hinit, hzero, hprogram, hicap, hlast⟩

omit hx in
/-- Inside a successful programming call: what precedes the verification changes of
`FlashData` only the percentage, and nothing touches the bus after it. -/
theorem ProgramCall.run_success (call : ProgramCall) {w w' : World σ}
    (h : call.run env w = (.ret .success, w')) :
    ∃ w₁ w₂, Reports Set.univ Set.univ w w₁ ∧ qspiVerifyBin env w₁ = (.ret .success, w₂) ∧
      w'.bus = w₂.bus ∧ w'.mallocs = w₂.mallocs := by
  obtain ⟨wa, wb, wc, wd, w₁, w₂, hmark₁, herase, hmark₂, hprogram, hmark₃, hverify, hmark₄⟩ :=
    call.run_stages h
  refine ⟨w₁, w₂, ?_, hverify, ?_⟩
  · exact trans_of _ (mark_moves.of_eq hmark₁) <| trans_of _ (eraseStage_moves.of_eq herase) <|
      trans_of _ (mark_moves.of_eq hmark₂) <| trans_of _ (qspiProgramBin_moves.of_eq hprogram)
        (mark_moves.of_eq hmark₃)
  · exact ⟨(mark_frame hmark₄).1, (mark_frame hmark₄).2.1⟩

end Verify

/-! ## Pages and bytes -/

/-- Byte for byte, the flash holds the file at `baseAddr`.  Nothing is said of what is behind
the end of the file. -/
def Holds (content : UInt32 → UInt8) (baseAddr : UInt32) (file : File) : Prop :=
  ∀ i (h : i < file.contents.length), content (baseAddr + UInt32.ofNat i) = file.contents[i]

/-- Where the file has a byte, the page has it. -/
theorem filePage_of_lt {file : File} {heap : ℕ → ℕ → UInt8} {j k : ℕ} (hk : k < 256)
    (hj : 256 * j < 2 ^ 32) (h : 256 * j + k < file.contents.length) :
    filePage file heap j k = file.contents[256 * j + k] := by
  have haddr : (UInt32.ofNat (256 * j)).toNat = 256 * j := by
    rw [UInt32.toNat_ofNat', Nat.mod_eq_of_lt hj]
  rw [filePage, fread, haddr, overlay, if_pos (Nat.zero_le _), Nat.sub_zero, List.getElem?_take_of_lt hk,
    List.getElem?_drop, List.getElem?_eq_getElem h, Option.getD_some]

/-- Past the end of the file, the page has what the heap had. -/
theorem filePage_of_le {file : File} {heap : ℕ → ℕ → UInt8} {j k : ℕ} (hj : 256 * j < 2 ^ 32)
    (h : file.contents.length ≤ 256 * j + k) : filePage file heap j k = heap j k := by
  have haddr : (UInt32.ofNat (256 * j)).toNat = 256 * j := by
    rw [UInt32.toNat_ofNat', Nat.mod_eq_of_lt hj]
  rw [filePage, fread, haddr]
  refine overlay_of_le _ ?_
  rw [List.length_take, List.length_drop]
  omega

/-- The bytes of a page are heap memory, and bytes of the file that a 32-bit offset
reaches. -/
theorem filePage_forall {file : File} {heap : ℕ → ℕ → UInt8} {P : UInt8 → Prop}
    (hfile : ∀ b ∈ file.contents.take (2 ^ 32), P b) (hheap : ∀ n k, P (heap n k)) (j k : ℕ) :
    P (filePage file heap j k) := by
  have hoffset : (UInt32.ofNat (256 * j)).toNat + 256 ≤ 2 ^ 32 := by
    rw [UInt32.toNat_ofNat']
    omega
  rw [filePage, fread, overlay, if_pos (Nat.zero_le _), List.take_drop]
  rcases hb : ((file.contents.take ((UInt32.ofNat (256 * j)).toNat + 256)).drop
    (UInt32.ofNat (256 * j)).toNat)[k - 0]? with _ | b
  · exact hheap _ _
  · have hmem := List.mem_of_mem_drop (List.mem_of_getElem? hb)
    exact hfile b (List.take_subset_take_left _ hoffset hmem)

/-- Pages over the whole file give its bytes: the byte with index `i` lies in the page
`i / 256`, and the page has the file's byte there. -/
theorem PagesMatch.holds {content : UInt32 → UInt8} {baseAddr : UInt32} {file : File}
    {heap : ℕ → ℕ → UInt8} (hfile : file.Regular) (hlen : file.contents.length < 2 ^ 32)
    (h : PagesMatch content baseAddr (filePage file heap) (pageCount file.ftell).toNat) :
    Holds content baseAddr file := by
  intro i hi
  have hcount := pageCount_toNat file.ftell
  rw [hfile] at hcount
  have hj : i / 256 < (pageCount file.ftell).toNat := by omega
  have hk : i % 256 < 256 := Nat.mod_lt _ (by decide)
  have hsplit : 256 * (i / 256) + i % 256 = i := Nat.div_add_mod i 256
  have hpage := h _ hj _ hk
  rw [UInt32.add_assoc, ← UInt32.ofNat_add, hsplit,
    filePage_of_lt hk (by omega) (by rw [hsplit]; exact hi)] at hpage
  simpa only [hsplit] using hpage

/-! ## Laws of a flash behind the driver -/

/-- What is assumed of the bus, with `content` the bytes of the flash by their 32-bit address.
The erase and the program commands do not occur: they may do what they like. -/
structure FlashLaws {σ : Type} [XSpiDriver σ] (content : σ → UInt32 → UInt8) : Prop where
  /-- A page read reported as successful delivers nine bytes and then the page. -/
  read : ∀ {rounds addr stale bus stored bus'}, stale.length = 260 →
    XSpiDriver.xspiTransfer rounds (command4byteQuadOutputFastRead :: addrBytes addr ++ stale)
      true bus = (some (.success, stored), bus') →
    ∃ lead, lead.length = 9 ∧
      stored = lead ++ (List.range 256).map fun k => content bus (addr + UInt32.ofNat k)
  /-- The other commands do not change the flash. -/
  quiet : Quiet content
  /-- A register write outside the SPI core does not change the flash. -/
  pci : ∀ address data bus, content (XSpiDriver.pciWriteReg address data bus) = content bus
  /-- A transfer stores no more bytes than it sends. -/
  fullDuplex : FullDuplex σ

/-- Under the laws, page reads are exact: between the transfer of the page and the end of
`SpiFlashRead` nothing stores into it. -/
theorem FlashLaws.exactReads {σ : Type} [XSpiDriver σ] {content : σ → UInt32 → UInt8}
    (laws : FlashLaws content) (env : Env) : ExactReads env content where
  quiet := laws.quiet
  read := by
    intro addr w w' h k hk
    obtain ⟨w₀, w₁, stale, stored, bus, h₀, hwait, hstale, htransfer, -, hbuffer⟩ :=
      spiFlashRead_success laws.fullDuplex h
    have hbefore : content w₁.bus = content w.bus := laws.quiet.talks housekeeping_subset
      (trans_of _ h₀ ((spiFlashWaitForFlashReady_talks statusFrames_subset).of_eq hwait))
    obtain ⟨lead, hlead, rfl⟩ := laws.read hstale htransfer
    rw [hbuffer _ (by omega), ← hbefore, overlay, if_pos (Nat.zero_le _), Nat.sub_zero,
      List.getElem?_append_right (by omega), hlead, Nat.add_sub_cancel_left]
    simp [hk]

end Kiflash
