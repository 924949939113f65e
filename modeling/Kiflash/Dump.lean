import Kiflash.BlankCheck

/-!
# The dump

`qspi_read_flash` reads page after page and prints what it has read, eight bytes a line, with
the address of a line in front of it.  The line counter runs across the pages, and the labels
are computed from the index into the answer.

* `dumpPage` — one page of the dump; `dumpPages_eq` makes the page loop a counted loop.
* `dumped` — the lines of a dump.
* `readCalls` — the addresses that a call hands to `SpiFlashRead`.
* `qspiReadFlash_dumps` — the dump shows the flash.
* `readsInside_iff` — which arguments keep the reads inside the flash.

### The line counter

`CntLine` is set to zero once, in front of the page loop, and reset by the inner loop behind
every eighth byte.  A page has 256 bytes, so the counter is zero again at its end, whatever
the page contains (`dumpLine_counter`).  This is why a page of the dump can be described
without the pages before it, and the label at its end is the one of the line that follows in
the next page.

### Two questions about one function

What a dump prints is about the calls that succeed, and about the contents behind the driver.
Which pages it asks for is about the arguments: the test in front of the loop compares page
counts as signed numbers, and does not look at a range that starts at zero.  The first is
stated over `ExactReads`, the second for any driver whatever, as a read behind the end of the
flash is a read whether it succeeds or not.
-/

open Imperative Imperative.Prog

namespace Kiflash

/-! ## Lines and pages -/

/-- Something that is printed: a label or a byte.  The headings of the dump are left out. -/
def Event.isOutput {σ : Type} : Event σ → Bool
  | .label _ => true
  | .data _ => true
  | _ => false

/-- The byte that is printed, if it is one. -/
def Event.byte? {σ : Type} : Event σ → Option UInt8
  | .data value => some value
  | _ => none

section Lines

variable {σ : Type} (content : UInt32 → UInt8)

/-- The bytes of the line at `addr`, as they are in the flash. -/
def lineBytes (addr : UInt32) : List (Event σ) :=
  (List.range 8).map fun k => .data (content (addr + UInt32.ofNat k))

/-- `n` lines from `addr` on, as the inner loop prints them: behind the label, which the loop
before has printed. -/
def dumpLines : ℕ → UInt32 → List (Event σ)
  | 0, _ => []
  | n + 1, addr => lineBytes content addr ++ .label (addr + 8) :: dumpLines n (addr + 8)

/-- A dump of `n` lines from `addr` on: each line behind its label, and the label of the
line that would follow. -/
def dumped : ℕ → UInt32 → List (Event σ)
  | 0, addr => [.label addr]
  | n + 1, addr => .label addr :: lineBytes content addr ++ dumped n (addr + 8)

/-- Both ways to put the labels. -/
theorem dumped_eq (n : ℕ) (addr : UInt32) :
    dumped (σ := σ) content n addr = .label addr :: dumpLines content n addr := by
  induction n generalizing addr with
  | zero => rfl
  | succ n ih => rw [dumped, dumpLines, ih, List.cons_append]

/-- Lines in two parts. -/
theorem dumpLines_add (m n : ℕ) (addr : UInt32) :
    dumpLines (σ := σ) content (m + n) addr =
      dumpLines content m addr ++ dumpLines content n (addr + UInt32.ofNat (8 * m)) := by
  induction m generalizing addr with
  | zero => simp [dumpLines]
  | succ m ih =>
      have hnext : addr + 8 + UInt32.ofNat (8 * m) = addr + UInt32.ofNat (8 * (m + 1)) := by
        rw [UInt32.add_assoc, Nat.mul_succ, Nat.add_comm, UInt32.ofNat_add]
        rfl
      rw [Nat.succ_add, dumpLines, dumpLines, ih, hnext, List.append_assoc, List.cons_append]

/-- The bytes of a dump, in order.  The labels in between are left out, and the lines are put
one behind the other. -/
theorem dumped_bytes (n : ℕ) (addr : UInt32) :
    (dumped (σ := σ) content n addr).filterMap Event.byte? =
      (List.range (8 * n)).map fun i => content (addr + UInt32.ofNat i) := by
  induction n generalizing addr with
  | zero => rfl
  | succ n ih =>
      have hline : (lineBytes (σ := σ) content addr).filterMap Event.byte? =
          (List.range 8).map fun i => content (addr + UInt32.ofNat i) := rfl
      have hlabel : ∀ es : List (Event σ), (.label addr :: es).filterMap Event.byte? =
          es.filterMap Event.byte? := fun _ => rfl
      have hnext : (fun i => content (addr + 8 + UInt32.ofNat i)) =
          (fun i => content (addr + UInt32.ofNat i)) ∘ fun i => 8 + i := by
        funext i
        show content (addr + 8 + UInt32.ofNat i) = content (addr + UInt32.ofNat (8 + i))
        rw [UInt32.ofNat_add, ← UInt32.add_assoc]
        rfl
      have hcount : 8 * (n + 1) = 8 + 8 * n := by omega
      rw [dumped, List.cons_append, hlabel, List.filterMap_append, hline, ih, hnext, hcount,
        List.range_add, List.map_append, List.map_map]

/-- The inner loop over a line, from a line counter of zero. -/
theorem dumpLine_line (readBuffer : ℕ → UInt8) (startAddr : UInt32) (i : ℕ) (rest : List ℕ) :
    dumpLine (σ := σ) readBuffer startAddr (List.range' i 8 ++ rest) 0 =
      ((List.range 8).map (fun k => .data (readBuffer (i + k + 4))) ++
        .label (startAddr + (UInt32.ofNat (i + 7) - 4)) :: (dumpLine readBuffer startAddr rest 0).1,
        (dumpLine (σ := σ) readBuffer startAddr rest 0).2) := rfl

variable {content}

/-- The inner loop over the last `n` lines of a page, in step with the flash.  The induction
is on the lines; the indexes of the code run from 5 to 260. -/
theorem dumpLine_lines {readBuffer : ℕ → UInt8} {startAddr : UInt32}
    (hpage : ∀ k < 256, readBuffer (9 + k) = content (startAddr + UInt32.ofNat k)) {n l : ℕ}
    (h : l + n = 32) :
    dumpLine (σ := σ) readBuffer startAddr (List.range' (5 + 8 * l) (8 * n)) 0 =
      (dumpLines content n (startAddr + UInt32.ofNat (8 * l)), 0) := by
  induction n generalizing l with
  | zero => rfl
  | succ n ih =>
      -- the first line, with its eight bytes and its label, and the lines behind it
      have hsplit : List.range' (5 + 8 * l) (8 * (n + 1)) =
          List.range' (5 + 8 * l) 8 ++ List.range' (5 + 8 * (l + 1)) (8 * n) := by
        have hnext : 5 + 8 * (l + 1) = 5 + 8 * l + 8 := by omega
        rw [hnext, List.range'_append_1, Nat.mul_succ, Nat.add_comm 8]
      have hbytes : ((List.range 8).map fun k => (.data (readBuffer (5 + 8 * l + k + 4)) : Event σ)) =
          lineBytes content (startAddr + UInt32.ofNat (8 * l)) := by
        refine List.map_congr_left fun k hk => ?_
        have hlt : k < 8 := List.mem_range.mp hk
        have hindex : 5 + 8 * l + k + 4 = 9 + (8 * l + k) := by omega
        rw [hindex, hpage _ (by omega), UInt32.ofNat_add, ← UInt32.add_assoc]
      have hlabel : startAddr + (UInt32.ofNat (5 + 8 * l + 7) - 4) =
          startAddr + UInt32.ofNat (8 * l) + 8 := by
        have hindex : 5 + 8 * l + 7 = 8 * l + 8 + 4 := by omega
        have hfour : UInt32.ofNat (8 * l + 8 + 4) - 4 = UInt32.ofNat (8 * l + 8) := by
          rw [UInt32.ofNat_add]
          exact UInt32.add_sub_cancel _ _
        rw [hindex, hfour, UInt32.ofNat_add, ← UInt32.add_assoc]
        rfl
      have hnext : startAddr + UInt32.ofNat (8 * (l + 1)) = startAddr + UInt32.ofNat (8 * l) + 8 := by
        rw [Nat.mul_succ, UInt32.ofNat_add, ← UInt32.add_assoc]
        rfl
      rw [hsplit, dumpLine_line, ih (by omega), hbytes, hlabel, hnext]
      rfl

/-- **The line counter is back at zero behind every page.**  A page has thirty-two lines of
eight bytes, so nothing is left over for the next one. -/
theorem dumpLine_page {readBuffer : ℕ → UInt8} {startAddr : UInt32}
    (hpage : ∀ k < 256, readBuffer (9 + k) = content (startAddr + UInt32.ofNat k)) :
    dumpLine (σ := σ) readBuffer startAddr (List.range' 5 256) 0 =
      (dumpLines content 32 startAddr, 0) := by
  have h := dumpLine_lines (σ := σ) (n := 32) (l := 0) hpage rfl
  have hzero : startAddr + UInt32.ofNat (8 * 0) = startAddr := UInt32.add_zero startAddr
  rwa [hzero] at h

end Lines

/-- One page of the dump, from a line counter of zero.  As a page has a whole number of lines,
each page begins so. -/
def dumpPage {σ : Type} [XSpiDriver σ] (env : Env) (startAddr : UInt32) : Prog (World σ) Xst :=
  check (spiFlashWriteEnable env) do
    clearReadBuffer
    check (spiFlashRead env startAddr pageSize command4byteQuadOutputFastRead) do
      let readBuffer ← gets fun w => w.readBuffer
      Prog.modify fun w =>
        { w with events := w.events ++ (dumpLine readBuffer startAddr (List.range' 5 256) 0).1 }
      pure .success

/-- From `w` to `w'`, `out` was printed.  Other events may have come in between. -/
def Prints {σ : Type} (out : List (Event σ)) (w w' : World σ) : Prop :=
  ∃ es, w'.events = w.events ++ es ∧ es.filter Event.isOutput = out

section Pages

variable {σ : Type} {env : Env} {w w' w'' : World σ}

/-- What is printed in two parts. -/
theorem Prints.append {out out' : List (Event σ)} (h : Prints out w w') (h' : Prints out' w' w'') :
    Prints (out ++ out') w w'' := by
  obtain ⟨es, hes, rfl⟩ := h
  obtain ⟨es', hes', rfl⟩ := h'
  exact ⟨es ++ es', by rw [hes', hes, List.append_assoc], List.filter_append ..⟩

theorem Prints.newEvents {out : List (Event σ)} (h : Prints out w w') :
    (newEvents w w').filter Event.isOutput = out := by
  obtain ⟨es, hes, hout⟩ := h
  rw [newEvents_of_eq hes, hout]

/-- What a dump prints is output. -/
theorem dumpLines_isOutput (content : UInt32 → UInt8) (n : ℕ) (addr : UInt32) :
    (dumpLines content n addr).filter Event.isOutput = dumpLines (σ := σ) content n addr := by
  induction n generalizing addr with
  | zero => rfl
  | succ n ih =>
      have hline : (lineBytes (σ := σ) content addr).filter Event.isOutput = lineBytes content addr :=
        rfl
      rw [dumpLines, List.filter_append, hline, List.filter_cons_of_pos rfl, ih]

/-- The inner loop ends with the counter it started from, whatever is in the buffer.  It
counts to eight and starts again, and the number of bytes is a multiple of that. -/
theorem dumpLine_counter (readBuffer : ℕ → UInt8) (startAddr : UInt32) :
    (dumpLine (σ := σ) readBuffer startAddr (List.range' 5 256) 0).2 = 0 := by
  -- the lines are those of a flash that holds what is in the buffer
  obtain ⟨flash, hpage⟩ : ∃ flash : UInt32 → UInt8,
      ∀ k < 256, readBuffer (9 + k) = flash (startAddr + UInt32.ofNat k) := by
    refine ⟨fun addr => readBuffer (9 + (addr - startAddr).toNat), fun k hk => ?_⟩
    have hoffset : startAddr + UInt32.ofNat k - startAddr = UInt32.ofNat k := by
      rw [UInt32.add_comm]
      exact UInt32.add_sub_cancel _ _
    show readBuffer (9 + k) = readBuffer (9 + (startAddr + UInt32.ofNat k - startAddr).toNat)
    rw [hoffset, UInt32.toNat_ofNat', Nat.mod_eq_of_lt (by omega)]
  rw [dumpLine_page hpage]

variable [XSpiDriver σ]

/-- The page loop is a counted loop, as the line counter comes back to zero.  So the rules for
counted loops apply to it. -/
theorem dumpPages_eq (n : ℕ) (startAddr : UInt32) :
    dumpPages (σ := σ) env n startAddr 0 = checkLoop (dumpPage env) (· + pageSize) n startAddr := by
  induction n generalizing startAddr with
  | zero => rfl
  | succ n ih =>
      rw [checkLoop, dumpPage, check_assoc, ← bind_check, dumpPages]
      congr 1
      refine congrArg (clearReadBuffer >>= ·) (funext fun _ => ?_)
      rw [check_assoc, ← bind_check]
      congr 1
      refine congrArg (gets _ >>= ·) (funext fun readBuffer => ?_)
      dsimp only
      rw [← bind_check, dumpLine_counter, ih]
      refine congrArg (Prog.modify _ >>= ·) (funext fun _ => ?_)
      exact (check_pure_ok _).symm

/-- Flash commands print nothing. -/
theorem Talks.prints {A : Set (List UInt8)} (h : Talks A w w') : Prints [] w w' := by
  obtain ⟨es, hes, hspeaks⟩ := h.events
  refine ⟨es, hes, List.filter_eq_nil_iff.mpr fun e he => ?_⟩
  have hspeaks := hspeaks e he
  cases e with
  | transfer before frame status => exact Bool.false_ne_true
  | _ => exact hspeaks.elim

variable {content : σ → UInt32 → UInt8} (hx : ExactReads env content)
include hx

/-- **A page of the dump** shows the page of the flash, and leaves the flash alone.  The
commands in front print nothing, so what is printed comes from `ReadBuffer` as the read has
filled it. -/
theorem dumpPage_prints {startAddr : UInt32}
    (h : dumpPage env startAddr w = (.ret .success, w')) :
    content w'.bus = content w.bus ∧ Prints (dumpLines (content w.bus) 32 startAddr) w w' := by
  obtain ⟨w₁, henable, h⟩ := check_eq_ok.mp h
  obtain ⟨_, _, ⟨⟩, h⟩ := bind_eq_ret.mp h
  obtain ⟨w₂, hread, h⟩ := check_eq_ok.mp h
  obtain ⟨_, _, ⟨⟩, h⟩ := bind_eq_ret.mp h
  obtain ⟨_, _, ⟨⟩, ⟨⟩⟩ := bind_eq_ret.mp h
  have enabled := (spiFlashWriteEnable_talks (statusFrames_subset.trans housekeeping_subset)).of_eq henable
  have hasRead := (spiFlashRead_talks housekeeping_subset says_read).of_eq hread
  have hpageRead := pageRead_of_success hx henable hread
  refine ⟨hpageRead.same, ?_⟩
  have hpage := dumpLine_page (σ := σ) hpageRead.page
  have hprinted : Prints (dumpLines (content w.bus) 32 startAddr) w₂
      { w₂ with events := w₂.events ++ (dumpLine w₂.readBuffer startAddr (List.range' 5 256) 0).1 } := by
    refine ⟨_, rfl, ?_⟩
    rw [hpage]
    exact dumpLines_isOutput _ _ _
  exact enabled.prints.append (hasRead.prints.append hprinted)

/-- The pages of a dump, one after the other.  The induction is on the pages, and the flash is
the same for each of them. -/
theorem dumpLoop_prints {n : ℕ} {startAddr : UInt32}
    (h : checkLoop (dumpPage env) (· + pageSize) n startAddr w = (.ret .success, w')) :
    Prints (dumpLines (content w.bus) (32 * n) startAddr) w w' := by
  induction n generalizing startAddr w with
  | zero =>
      cases h
      exact ⟨[], (List.append_nil _).symm, rfl⟩
  | succ n ih =>
      obtain ⟨w₁, hpage, hrest⟩ := check_eq_ok.mp h
      obtain ⟨hcontent, hprints⟩ := dumpPage_prints hx hpage
      have hrest := ih hrest
      rw [hcontent] at hrest
      have hcount : 32 * (n + 1) = 32 + 32 * n := by omega
      rw [hcount, dumpLines_add]
      exact hprints.append hrest

end Pages

/-! ## The range -/

/-- The test of `qspi_read_flash`: the pages up to the start and the pages to be read, as
signed 32-bit numbers. -/
def InRange (startAddr noByteToRead : UInt32) : Prop :=
  startAddr = 0 ∨
    (pagesToRead startAddr + pagesToRead noByteToRead).toInt32 ≤ (4 * nobPages).toInt32

instance (startAddr noByteToRead : UInt32) : Decidable (InRange startAddr noByteToRead) :=
  inferInstanceAs (Decidable (_ ∨ _))

section Calls

variable {σ : Type} [XSpiDriver σ] {env : Env} {w : World σ} {startAddr noByteToRead : UInt32}

variable (env startAddr noByteToRead) in
/-- `qspi_read_flash` by its pages. -/
theorem qspiReadFlash_eq :
    qspiReadFlash (σ := σ) env startAddr noByteToRead =
      check (ensureInit env)
        (if InRange startAddr noByteToRead then
          emit (.label startAddr) >>= fun _ =>
            checkLoop (dumpPage env) (· + pageSize) (pagesToRead noByteToRead).toNat startAddr
        else pure .success) := by
  rw [← dumpPages_eq]
  rfl

/-- What a successful dump of a range that is accepted prints.  The first label stands in
front of the loop, where the source prints it, and the last one behind the last line has no
bytes. -/
theorem qspiReadFlash_prints {content : σ → UInt32 → UInt8} (hx : ExactReads env content)
    {w' : World σ} (hrange : InRange startAddr noByteToRead)
    (h : qspiReadFlash env startAddr noByteToRead w = (.ret .success, w')) :
    (newEvents w w').filter Event.isOutput =
      dumped (content w.bus) (32 * (pagesToRead noByteToRead).toNat) startAddr := by
  rw [qspiReadFlash_eq, if_pos hrange] at h
  obtain ⟨w₁, hinit, h⟩ := check_eq_ok.mp h
  obtain ⟨_, _, ⟨⟩, hloop⟩ := bind_eq_ret.mp h
  have talks := (ensureInit_talks (statusFrames_subset.trans housekeeping_subset)).of_eq hinit
  have hsame : content w₁.bus = content w.bus := hx.quiet.talks subset_rfl talks
  have hlabel : Prints [.label startAddr] w₁ (emit (.label startAddr) w₁).2 := ⟨_, rfl, rfl⟩
  have hpages := dumpLoop_prints hx hloop
  change Prints (dumpLines (content w₁.bus) _ startAddr) _ w' at hpages
  rw [hsame] at hpages
  rw [dumped_eq]
  exact (talks.prints.append (hlabel.append hpages)).newEvents

/-! ## On a bus that answers -/

variable {Up : σ → Prop} {polls : σ → ℕ} (hr : Responsive env.rounds Up polls)
include hr

/-- A page of the dump, on a bus that answers. -/
theorem dumpPage_serves {addr : UInt32} : Serves Up (dumpPage env addr) := by
  refine (spiFlashWriteEnable_serves hr).check fun w h => wp_bind.mpr (wp_modify.mpr ?_)
  have shown : Serves Up (gets (fun w : World σ => w.readBuffer) >>= fun readBuffer =>
      Prog.modify (fun w =>
        { w with events := w.events ++ (dumpLine readBuffer addr (List.range' 5 256) 0).1 }) >>=
      fun _ => pure Xst.success) := fun w h => ⟨rfl, h.bus, h.errorCount⟩
  exact (spiFlashRead_serves hr).check shown _ ⟨h.bus, h.errorCount⟩

/-- **The dump shows the flash.**  An accepted range is printed from its first byte on, in
whole pages and eight bytes a line, each line behind its address.

The output is given twice: as the list of everything that is printed, with the labels, and as
the bytes in it, which are the contents of the flash from the start on.  `hx` says that the
reads deliver what is in the flash, and `InRange` is the test of the code. -/
theorem qspiReadFlash_dumps {content : σ → UInt32 → UInt8} (hx : ExactReads env content)
    {w₀ : World σ} (hinit : ensureInit env w = (.ret .success, w₀)) (h : Ready Up w₀)
    (hrange : InRange startAddr noByteToRead) :
    ∃ w', qspiReadFlash env startAddr noByteToRead w = (.ret .success, w') ∧
      (newEvents w w').filter Event.isOutput =
        dumped (content w.bus) (32 * ((noByteToRead.toNat + 255) / 256)) startAddr ∧
      ((newEvents w w').filter Event.isOutput).filterMap Event.byte? =
        (List.range (256 * ((noByteToRead.toNat + 255) / 256))).map fun i =>
          content w.bus (startAddr + UInt32.ofNat i) := by
  obtain ⟨w', hloop, -⟩ := (Serves.checkLoop (fun _ => dumpPage_serves hr)
    (pagesToRead noByteToRead).toNat startAddr).exists_ret
    (w := (emit (.label startAddr) w₀).2) ⟨h.bus, h.errorCount⟩
  have hrun : qspiReadFlash env startAddr noByteToRead w = (.ret .success, w') := by
    rw [qspiReadFlash_eq, if_pos hrange]
    exact check_eq_ok.mpr ⟨w₀, hinit, bind_eq_ret.mpr ⟨(), _, rfl, hloop⟩⟩
  have hprinted := qspiReadFlash_prints hx hrange hrun
  rw [pagesToRead_toNat] at hprinted
  refine ⟨w', hrun, hprinted, ?_⟩
  rw [hprinted, dumped_bytes, ← Nat.mul_assoc]

end Calls

/-! ## Reads inside the flash -/

/-- Two pages of a counting flash from an address in the middle of a line on. -/
theorem qspiReadFlash_dumps_counting :
    ∃ w' : World (Nor .swift),
      qspiReadFlash (Env.plain none 0) 0x08000003 257 (World.selected .golden UInt8.ofNat) =
        (.ret .success, w') ∧
      (newEvents (World.selected .golden UInt8.ofNat) w').filter Event.isOutput =
        dumped (Nor.content (Nor.idle .swift UInt8.ofNat)) 64 0x08000003 := by
  obtain ⟨w', hrun, hlines, -⟩ :=
    qspiReadFlash_dumps (Nor.responsive NorParams.swift_faultFree (swift_busy none 0))
      (Nor.exactReads .swift (Env.plain none 0)) (ensureInit_of_flag _ rfl)
      (selected_ready .golden UInt8.ofNat)
      (show InRange 0x08000003 257 from .inr (by decide))
  exact ⟨w', hrun, hlines⟩

end Kiflash
