import Kiflash.Nor.Programming

/-!
# Writing a page and reading it back

`SpiFlashWrite_File` and `SpiFlashRead` share `WriteBuffer` and `ReadBuffer` with every
command that they nest.  On a NOR flash, a page written to an erased page and read back is the
page that was given.

* `decode` — what a flash takes from a frame with an address.
* `RoundTrip` — what the two calls leave, in the record, in `ReadBuffer` and in the flash.
* `writePage_roundTrip` — the round trip.
* `qspiWriteFlash_lands_iff` — when the spot write of the menu lands where it says.

### A page, and less than a page

The image functions write whole pages to page boundaries.  The spot write of the menu sends
eight bytes to any address, and a NOR flash does not go on to the next page: what runs over
the end goes on at the beginning of the same page.  It burns its data over what it finds, so
the write may all the same do no harm, namely if the data that runs over has no zero where
there is a one, neither at the place that it was meant for nor at the one where it goes.
-/

open Imperative Imperative.Prog NorFlash

namespace Kiflash

/-- A frame with an address in it: its command byte, its address, the bytes behind.  A frame
that is too short for four address bytes has none. -/
def decode : List UInt8 → Option (UInt8 × ℕ × List UInt8)
  | [] => none
  | cmd :: args =>
    if 4 ≤ args.length then some (cmd, address (args.take 4), args.drop 4) else none

/-- The flash takes from a write frame what it was built from. -/
theorem decode_writeFrame (writeCmd : UInt8) (addr byteCount : UInt32) (page : ℕ → UInt8) :
    decode (writeFrame writeCmd addr byteCount page) =
      some (writeCmd, addr.toNat, bytesOf page byteCount.toNat) := by
  have hlen : 4 ≤ (addrBytes addr ++ bytesOf page byteCount.toNat).length := by
    rw [List.length_append, addrBytes_length]
    exact Nat.le_add_right 4 _
  rw [writeFrame, List.cons_append, decode, if_pos hlen, List.take_left' (addrBytes_length addr),
    List.drop_left' (addrBytes_length addr), address_addrBytes]

section RoundTrip

variable {p : NorParams} {env : Env} {w w₁ w₂ : World (Nor p)}

/-- The write of a page, as the code that programs an image does it. -/
def writePage (env : Env) (addr : UInt32) (page : ℕ → UInt8) : Prog (World (Nor p)) Xst :=
  spiFlashWriteFile env addr pageSize command4bytePageProgram page

/-- The read of a page, as the code that verifies an image does it, with the same read
command. -/
def readBack (env : Env) (addr : UInt32) : Prog (World (Nor p)) Xst :=
  spiFlashRead env addr pageSize command4byteQuadOutputFastRead

/-- From `w` to `w'`, `page` was written to the page at `addr` and read back.  The fields
follow the page from the page buffer over the wires to the cells, and back to `ReadBuffer`. -/
structure RoundTrip (addr : UInt32) (page : ℕ → UInt8) (w w' : World (Nor p)) : Prop where
  /-- One frame programs the page, and the other frames neither erase nor program. -/
  frame : ∃ before frame es es',
    newEvents w w' = es ++ .transfer before frame (some .success) :: es' ∧
      decode frame = some (command4bytePageProgram, addr.toNat, bytesOf page 256) ∧
      ∀ e ∈ es ++ es', e.Speaks readingFrames
  received : ∀ i < 256, w'.readBuffer (9 + i) = page i
  others : ∀ x, ¬ InBlock 256 (addr.toNat % flashSize) x → w'.bus.mem x = w.bus.mem x

/-- The cells of a page that begins at an aligned address. -/
theorem page_cell {addr : UInt32} (haddr : 256 ∣ addr.toNat) {k : ℕ} (hk : k < 256) :
    (addr.toNat + k) % flashSize = addr.toNat % flashSize + k := by
  rw [flashSize_eq]
  omega

/-- Dropping the upper address bits keeps a page boundary. -/
theorem page_dvd {addr : UInt32} (haddr : 256 ∣ addr.toNat) : 256 ∣ addr.toNat % flashSize :=
  (Nat.dvd_mod_iff (by decide)).mpr haddr

/-- A read after a write, in the record.  The one frame that programs is that of the write,
and all others are on the list of reads and bookkeeping. -/
theorem roundTrip_frame {addr : UInt32} {page : ℕ → UInt8}
    (hwrite : writePage env addr page w = (.ret .success, w₁))
    (hread : readBack env addr w₁ = (.ret .success, w₂)) :
    ∃ before frame es es',
      newEvents w w₂ = es ++ .transfer before frame (some .success) :: es' ∧
        decode frame = some (command4bytePageProgram, addr.toNat, bytesOf page 256) ∧
        ∀ e ∈ es ++ es', e.Speaks readingFrames := by
  obtain ⟨before, es, es', hes, hspeaks⟩ := spiFlashWriteFile_frame (by decide) hwrite
  obtain ⟨es'', hes'', hspeaks''⟩ := ((spiFlashRead_talks housekeeping_subset says_read).of_eq hread).events
  have widen : ∀ e : Event (Nor p), e.Speaks housekeeping → e.Speaks readingFrames := by
    intro e he
    cases e with
    | transfer before frame status => exact housekeeping_subset he
    | _ => exact he.elim
  refine ⟨before, _, es, es' ++ es'', newEvents_of_eq ?_, decode_writeFrame _ addr pageSize page,
    fun e he => ?_⟩
  · rw [hes'', hes]
    simp only [List.append_assoc, List.cons_append]
  · rw [← List.append_assoc] at he
    rcases List.mem_append.mp he with he | he
    · exact widen e (hspeaks e he)
    · exact hspeaks'' e he

/-- **A page written to an erased page and read back.**  The two calls never leave the
buffers; where both succeed, one frame has programmed the page, the receive buffer holds it
behind nine bytes, and no other page has changed.

The address is any multiple of 256, and takes four bytes in the frame.  That the accesses stay
inside the buffers is said of all runs, also of those that fail. -/
theorem writePage_roundTrip (hp : ∀ n, p.misfire n = none) {addr : UInt32}
    (haddr : 256 ∣ addr.toNat) (page : ℕ → UInt8) :
    Avoids .wild (writePage (p := p) env addr page) ∧
      Avoids .wild (readBack (p := p) env addr) ∧
      ∀ w w₁ w₂ : World (Nor p), (∀ k < 256, w.bus.mem (addr.toNat % flashSize + k) = 0xFF) →
        writePage env addr page w = (.ret .success, w₁) →
        readBack env addr w₁ = (.ret .success, w₂) → RoundTrip addr page w w₂ := by
  refine ⟨spiFlashWriteFile_inBounds Nor.fullDuplex (by decide),
    spiFlashRead_inBounds Nor.fullDuplex (by decide), fun w w₁ w₂ herased hwrite hread => ?_⟩
  rw [writePage] at hwrite
  have hmem := spiFlashWriteFile_mem hp (by decide) (by decide) hwrite
  have hsize : pageSize.toNat = 256 := by decide
  rw [hsize] at hmem
  have hsame : w₂.bus.mem = w₁.bus.mem := by
    funext x
    exact Nor.mem_of_busSteps (Nor.not_mem_footprint_reading x)
      ((spiFlashRead_talks housekeeping_subset says_read).of_eq hread).bus
  refine ⟨roundTrip_frame hwrite hread, fun i hi => ?_, fun x hx => ?_⟩
  · have hcell : w₂.readBuffer (9 + i) = w₁.bus.content (addr + UInt32.ofNat i) :=
      (Nor.exactReads p env).read hread i hi
    rw [hcell, Nor.content_add, page_cell haddr hi, hmem,
      program_of_dvd (by decide) (page_dvd haddr) hi, herased i hi, bytesOf_getElem?, if_pos hi,
      Option.getD_some]
    exact Cell.erased_burn _
  · rw [hsame, hmem, program_of_not_inBlock hx]

/-- Counting bytes in the second page of the user region, on a fresh flash.  The general
result is applied, with the cells of that page erased. -/
theorem writePage_roundTrip_counting :
    ∃ w₁ w₂ : World (Nor .swift),
      writePage (Env.plain none 0) 0x08000100 UInt8.ofNat
        (World.fresh (Nor.idle .swift fun _ => 0xFF)) = (.ret .success, w₁) ∧
      readBack (Env.plain none 0) 0x08000100 w₁ = (.ret .success, w₂) ∧
      RoundTrip 0x08000100 UInt8.ofNat (World.fresh (Nor.idle .swift fun _ => 0xFF)) w₂ := by
  have hresponsive := Nor.responsive NorParams.swift_faultFree (swift_busy none 0)
  have write : Serves (Nor.Answering 1)
      (writePage (p := .swift) (Env.plain none 0) 0x08000100 UInt8.ofNat) :=
    spiFlashWriteFile_serves hresponsive (by decide)
  have read : Serves (Nor.Answering 1)
      (readBack (p := .swift) (Env.plain none 0) 0x08000100) := spiFlashRead_serves hresponsive
  obtain ⟨w₁, hwrite, h₁⟩ := write.exists_ret
    (w := World.fresh (Nor.idle .swift fun _ => 0xFF)) ⟨⟨rfl, Nat.one_pos⟩, rfl⟩
  obtain ⟨w₂, hread, -⟩ := read.exists_ret h₁
  exact ⟨w₁, w₂, hwrite, hread, (writePage_roundTrip NorParams.swift_faultFree.misfire (by decide)
    UInt8.ofNat).2.2 _ _ _ (fun _ _ => rfl) hwrite hread⟩

end RoundTrip

/-! ## The spot write -/

section SpotWrite

/-- Eight bytes of `data` are programmed from `addr` on, and no other cell has changed.
Programming is what a NOR flash does: it clears bits. -/
structure Lands (addr : ℕ) (data : ℕ → UInt8) (m m' : ℕ → UInt8) : Prop where
  written : ∀ i < 8, m' (addr + i) = m (addr + i) &&& data i
  others : ∀ x, (∀ i < 8, x ≠ addr + i) → m' x = m x

/-- A byte of `data` that runs over the end of the page clears no bit: not of the cell it
is meant for, and not of the cell at the beginning of the page where it goes. -/
def SpillsNothing (addr : ℕ) (data : ℕ → UInt8) (m : ℕ → UInt8) : Prop :=
  ∀ i < 8, 256 ≤ addr % 256 + i →
    m (addr + i) &&& data i = m (addr + i) ∧
      m (addr + i - 256) &&& data i = m (addr + i - 256)

variable {addr : ℕ} {data m : ℕ → UInt8}

/-- The ninth byte of the data and those behind it are not there. -/
theorem burn_behind {k : ℕ} (hk : 8 ≤ k) (b : UInt8) :
    Cell.burn b ((bytesOf data 8)[k]?.getD Cell.erased) = b := by
  rw [bytesOf_getElem?, if_neg (Nat.not_lt.mpr hk)]
  exact Cell.burn_erased b

/-- A byte of the data is burnt over its cell. -/
theorem burn_data {k : ℕ} (hk : k < 8) (b : UInt8) :
    Cell.burn b ((bytesOf data 8)[k]?.getD Cell.erased) = b &&& data k := by
  rw [bytesOf_getElem?, if_pos hk]
  rfl

/-- Past the end of the page there is another page. -/
theorem not_inBlock_past {i : ℕ} (h : 256 ≤ addr % 256 + i) : ¬ InBlock 256 addr (addr + i) := by
  rw [InBlock]
  omega

/-- The first bytes of a write that lands, and the cells it has to leave alone.  A byte lands
if the cell was erased or held it already; a byte that wraps must not change the cell that it
meets. -/
theorem program_lands_iff :
    Lands addr data m (program 256 addr (bytesOf data 8) m) ↔ SpillsNothing addr data m := by
  constructor
  · intro h i hi hpast
    constructor
    · rw [← h.written i hi, program_of_not_inBlock (not_inBlock_past hpast)]
    · rw [← burn_data hi, ← program_of_wrap (by omega) hpast]
      exact h.others _ fun j hj => by omega
  · intro h
    refine ⟨fun i hi => ?_, fun x hx => ?_⟩
    · by_cases hpast : 256 ≤ addr % 256 + i
      · rw [program_of_not_inBlock (not_inBlock_past hpast), (h i hi hpast).1]
      · rw [program_of_lt (Nat.not_le.mp hpast), burn_data hi]
    · by_cases hin : InBlock 256 addr x
      · obtain ⟨k, hk, ⟨rfl, hlt⟩ | ⟨hxk, hpast⟩⟩ := exists_place (by decide) hin
        · -- behind the data, in the rest of the page
          have hle : 8 ≤ k := Nat.not_lt.mp fun hlt => hx k hlt rfl
          rw [program_of_lt hlt, burn_behind hle]
        · -- at the beginning of the page
          have hplace : x = addr + k - 256 := Nat.eq_sub_of_add_eq hxk
          rw [hplace, program_of_wrap hk hpast]
          by_cases hlt : k < 8
          · rw [burn_data hlt, (h k hlt hpast).2]
          · rw [burn_behind (Nat.not_lt.mp hlt)]
      · exact program_of_not_inBlock hin

end SpotWrite

section SpotWriteCommand

variable {p : NorParams} {env : Env} {w w' : World (Nor p)}

/-- **A successful spot write** lands where it says exactly if what it spills over the end of
the page changes nothing.

Eight bytes are sent in one page program, wherever the address is.  A flash goes on at the
start of the page when it comes to its end, so that a byte behind it is programmed there.
`SpillsNothing` asks of such a byte that it would clear no bit, neither of the cell it is
meant for nor of the cell where it goes. -/
theorem qspiWriteFlash_lands_iff (hp : ∀ n, p.misfire n = none) {addr : UInt32}
    {data : ℕ → UInt8} (haddr : addr.toNat + 8 ≤ flashSize)
    (h : qspiWriteFlash env addr data w = (.ret .success, w')) :
    Lands addr.toNat data w.bus.mem w'.bus.mem ↔ SpillsNothing addr.toNat data w.bus.mem := by
  obtain ⟨w₁, hwrite, ⟨⟩⟩ := check_eq_ok.mp h
  have hmem := spiFlashWriteFile_mem hp (by decide) (by decide) hwrite
  have hsize : (8 : UInt32).toNat = 8 := rfl
  rw [hsize, Nat.mod_eq_of_lt (by omega)] at hmem
  rw [hmem]
  exact program_lands_iff

/-- On an idle flash without faults a spot write succeeds. -/
theorem qspiWriteFlash_swift (mem : ℕ → UInt8) (addr : UInt32) (data : ℕ → UInt8) :
    ∃ w' : World (Nor .swift), qspiWriteFlash (Env.plain none 0) addr data
      (World.fresh (Nor.idle .swift mem)) = (.ret .success, w') := by
  have serves : Serves (Nor.Answering 1) (qspiWriteFlash (σ := Nor .swift) (Env.plain none 0) addr data) :=
    Serves.check (spiFlashWriteFile_serves
      (Nor.responsive NorParams.swift_faultFree (swift_busy none 0)) (by decide)) serves_success
  obtain ⟨w', hrun, -⟩ := serves.exists_ret (w := World.fresh (Nor.idle .swift mem))
    ⟨⟨rfl, Nat.one_pos⟩, rfl⟩
  exact ⟨w', hrun⟩

/-- Eight bytes `0, 1, …, 7` inside the first page of an erased flash. -/
theorem qspiWriteFlash_lands_inside :
    ∃ w' : World (Nor .swift), qspiWriteFlash (Env.plain none 0) 248 UInt8.ofNat
        (World.fresh (Nor.idle .swift fun _ => 0xFF)) = (.ret .success, w') ∧
      Lands 248 UInt8.ofNat (fun _ => 0xFF) w'.bus.mem := by
  obtain ⟨w', hrun⟩ := qspiWriteFlash_swift (fun _ => 0xFF) 248 UInt8.ofNat
  refine ⟨w', hrun, (qspiWriteFlash_lands_iff NorParams.swift_faultFree.misfire (by decide) hrun).mpr ?_⟩
  intro i hi hpast
  have hmod : (248 : UInt32).toNat % 256 = 248 := rfl
  omega

/-- The same bytes at 252: the last four are programmed to the beginning of the page.  The
bytes behind the page are as they were. -/
theorem qspiWriteFlash_lands_counterexample :
    ∃ w' : World (Nor .swift), qspiWriteFlash (Env.plain none 0) 252 UInt8.ofNat
        (World.fresh (Nor.idle .swift fun _ => 0xFF)) = (.ret .success, w') ∧
      w'.bus.mem 0 = 4 ∧ w'.bus.mem 256 = 0xFF ∧
      ¬ Lands 252 UInt8.ofNat (fun _ => 0xFF) w'.bus.mem := by
  obtain ⟨w', hrun⟩ := qspiWriteFlash_swift (fun _ => 0xFF) 252 UInt8.ofNat
  obtain ⟨w₁, hwrite, ⟨⟩⟩ := check_eq_ok.mp hrun
  have hmem := spiFlashWriteFile_mem NorParams.swift_faultFree.misfire (by decide) (by decide) hwrite
  refine ⟨w', hrun, ?_, ?_, fun h => ?_⟩
  · rw [hmem]
    decide
  · rw [hmem]
    decide
  · have hcell := h.others 0 fun i _ => by omega
    rw [hmem] at hcell
    exact absurd hcell (by decide)

end SpotWriteCommand

end Kiflash
