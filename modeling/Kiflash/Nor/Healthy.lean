import Kiflash.Nor.Programming

/-!
# Programming on a device without faults

On a device without faults a programming call should succeed and leave the image in an erased
region.  It does, except for the last page of a file that is not a whole number of pages:
`fread` fills the page buffer up to the end of the file, and the rest of the page is what
`malloc` returned.  `qspi_program_bin` programs those bytes, and `qspi_verify_bin` compares
them with those of another buffer.

* `Region.image` — the cells that the region should hold.
* `TailsErased` — the fresh memory behind the end of the file is erased in both buffers.
* `healthy_programming_iff` — when the call does what it should.

The call makes one call of `malloc` for each page that is programmed and one for each page
that is verified, in this order, so the two buffers of the last page are known by their
numbers.  Both must be erased there: the first for the cells behind the image, and the second
because the verification would fail otherwise.  Nothing promises this of `malloc`, and the
host may answer as it likes.
-/

open Imperative Imperative.Prog NorFlash

namespace Kiflash

/-- The cells that a region should hold: the file from the base address on, and erased cells
around it. -/
def Region.image (region : Region) (file : File) (x : ℕ) : UInt8 :=
  if region.baseAddr.toNat ≤ x then file.contents[x - region.baseAddr.toNat]?.getD 0xFF else 0xFF

/-- In both page buffers that take the end of the file, the memory that the file does
not reach happens to be erased. -/
def TailsErased (env : Env) (file : File) (mallocs : ℕ) : Prop :=
  ∀ k < 256, file.contents.length % 256 ≤ k →
    env.malloc (mallocs + file.contents.length / 256) k = 0xFF ∧
      env.malloc (mallocs + (pageCount file.ftell).toNat + file.contents.length / 256) k = 0xFF

section Pages

variable {file : File} (env : Env) (mallocs : ℕ) {j k : ℕ} (hlen : file.contents.length < 2 ^ 32)
include hlen

/-- A page cell that the file reaches. -/
theorem page_of_lt (hk : k < 256) (h : 256 * j + k < file.contents.length) :
    programmedPage env file mallocs j k = file.contents[256 * j + k] ∧
      verifiedPage env file mallocs j k = file.contents[256 * j + k] :=
  ⟨filePage_of_lt hk (by omega) h, filePage_of_lt hk (by omega) h⟩

/-- A page cell that the file does not reach is in the last page. -/
theorem page_of_le (hcount : (pageCount file.ftell).toNat = (file.contents.length + 255) / 256)
    (hj : j < (pageCount file.ftell).toNat) (hk : k < 256)
    (h : file.contents.length ≤ 256 * j + k) :
    file.contents.length % 256 ≠ 0 ∧ file.contents.length % 256 ≤ k ∧
      programmedPage env file mallocs j k =
        env.malloc (mallocs + file.contents.length / 256) k ∧
      verifiedPage env file mallocs j k =
        env.malloc (mallocs + (pageCount file.ftell).toNat + file.contents.length / 256) k := by
  obtain rfl : j = file.contents.length / 256 := by omega
  exact ⟨by omega, by omega, filePage_of_le (by omega) h, filePage_of_le (by omega) h⟩

end Pages

section Healthy

variable {p : NorParams} {env : Env} {w : World (Nor p)} {call : ProgramCall} {region : Region}
variable {file : File}

/-- The image of a region at the cell `k` of page `j`. -/
theorem Region.image_page (region : Region) (file : File) (j k : ℕ) :
    region.image file (region.baseAddr.toNat + 256 * j + k) =
      file.contents[256 * j + k]?.getD 0xFF := by
  have hoffset : region.baseAddr.toNat + 256 * j + k - region.baseAddr.toNat = 256 * j + k := by
    omega
  rw [Region.image, if_pos (by omega), hoffset]

/-- **Programming on a device without faults.**  The call succeeds and leaves the image in an
erased region exactly when the file is a whole number of pages or the fresh memory behind its
end is erased in both page buffers.

The condition is on the bytes that `malloc` delivers for the last page, once in the
programming and once in the verification.  Only the bytes of the file are set in either
buffer, and all 256 are programmed and compared.  Apart from the device, the hypotheses are
what a caller sees to: the driver is initialised, an erase is asked for, the file is there,
and it fits in its region. -/
theorem healthy_programming_iff (hp : p.FaultFree) (hbusy : ∀ n, p.busy n < env.rounds)
    (h : Programs call region) (he : call.erase ≠ 0) (hfile : file.Regular)
    (hfits : region.Fits file) (hready : Ready (Nor.Answering env.rounds) w)
    (hflag : w.qspiInitFlag = true) (hdata : w.flashData = w.flashData.select region)
    (hopen : ∀ i, env.fopen i w.flashData.pathname = some file) :
    (∃ w', call.run env w = (.ret .success, w') ∧
        ∀ x ∈ region.cells, w'.bus.mem x = region.image file x) ↔
      file.contents.length % 256 = 0 ∨ TailsErased env file w.mallocs := by
  have placed := h.placed
  have hlen := placed.length_lt hfits
  have hcount := placed.pageCount_eq hfile hfits
  obtain ⟨status, w', hrun, hpages, hrest, hpass⟩ :=
    h.run_healthy hp hbusy he hfile hfits hready hflag hdata hopen
  constructor
  · rintro ⟨w'', hrun', hmem⟩
    obtain ⟨⟨⟩, rfl⟩ := Prod.mk.inj (hrun.symm.trans hrun')
    refine or_iff_not_imp_left.mpr fun htail k hk hle => ?_
    have hj : file.contents.length / 256 < (pageCount file.ftell).toNat := by omega
    obtain ⟨-, -, hprogrammed, hverified⟩ := page_of_le env w.mallocs hlen hcount hj hk (by omega)
    have hcell := hpages _ hj k hk
    rw [hmem _ (placed.page_mem_cells hfile hfits hj hk), region.image_page,
      List.getElem?_eq_none (by omega), Option.getD_none] at hcell
    rw [← hprogrammed, ← hverified, ← hpass.mp rfl _ hj k hk]
    exact ⟨hcell.symm, hcell.symm⟩
  · intro hcond
    -- both page buffers hold the file, with erased cells behind its end
    have hpage : ∀ j < (pageCount file.ftell).toNat, ∀ k < 256,
        programmedPage env file w.mallocs j k = file.contents[256 * j + k]?.getD 0xFF ∧
          verifiedPage env file w.mallocs j k = file.contents[256 * j + k]?.getD 0xFF := by
      intro j hj k hk
      by_cases hlt : 256 * j + k < file.contents.length
      · rw [List.getElem?_eq_getElem hlt, Option.getD_some]
        exact page_of_lt env w.mallocs hlen hk hlt
      · obtain ⟨hne, hle, hprogrammed, hverified⟩ :=
          page_of_le env w.mallocs hlen hcount hj hk (Nat.le_of_not_lt hlt)
        rw [List.getElem?_eq_none (Nat.le_of_not_lt hlt), Option.getD_none, hprogrammed, hverified]
        exact hcond.resolve_left hne k hk hle
    have hok : status = .success :=
      hpass.mpr fun j hj k hk => (hpage j hj k hk).1.trans (hpage j hj k hk).2.symm
    refine ⟨w', hok ▸ hrun, fun x hx => ?_⟩
    by_cases hbase : region.baseAddr.toNat ≤ x
    · by_cases hend : x < region.baseAddr.toNat + 256 * (pageCount file.ftell).toNat
      · obtain ⟨j, k, hj, hk, rfl⟩ : ∃ j k, j < (pageCount file.ftell).toNat ∧ k < 256 ∧
            x = region.baseAddr.toNat + 256 * j + k :=
          ⟨(x - region.baseAddr.toNat) / 256, (x - region.baseAddr.toNat) % 256, by omega,
            by omega, by omega⟩
        rw [hpages j hj k hk, region.image_page]
        exact (hpage j hj k hk).1
      · rw [hrest x hx (.inr (by omega)), Region.image, if_pos hbase,
          List.getElem?_eq_none (by omega), Option.getD_none]
    · rw [hrest x hx (.inl (by omega)), Region.image, if_neg hbase]

end Healthy

/-- A page of data programs as it should. -/
theorem healthy_programming_page :
    ∃ w', (ProgramCall.timer 2 1).run (.plain (some ⟨256, List.replicate 256 0x55⟩) 0)
        (World.selected .timer2 fun _ => 0) = (.ret .success, w') ∧
      ∀ x ∈ Region.timer2.cells,
        w'.bus.mem x = Region.timer2.image ⟨256, List.replicate 256 0x55⟩ x := by
  have hfile : File.Regular ⟨256, List.replicate 256 0x55⟩ := by
    rw [File.Regular, List.length_replicate]
    rfl
  have hfits : Region.timer2.Fits ⟨256, List.replicate 256 0x55⟩ := by
    rw [Region.Fits, List.length_replicate]
    decide
  refine (healthy_programming_iff NorParams.swift_faultFree (swift_busy _ _)
    (.timer2 2 1) (by decide) hfile hfits (selected_ready _ _) rfl rfl fun _ => rfl).mpr (.inl ?_)
  rw [List.length_replicate]

/-- A file of one byte leaves the flash behind it as `malloc` had it: not erased.  An image
should end in an erased page, and this one does not. -/
theorem healthy_programming_counterexample :
    ¬ ∃ w', (ProgramCall.timer 2 1).run (.plain (some ⟨1, [0x55]⟩) 0)
        (World.selected .timer2 fun _ => 0) = (.ret .success, w') ∧
      ∀ x ∈ Region.timer2.cells, w'.bus.mem x = Region.timer2.image ⟨1, [0x55]⟩ x := by
  rintro ⟨w'', hrun', hmem⟩
  have hfile : File.Regular ⟨1, [0x55]⟩ := by decide
  have hfits : Region.timer2.Fits ⟨1, [0x55]⟩ := by
    unfold Region.Fits
    decide
  have hprograms : Programs (.timer 2 1) .timer2 := .timer2 2 1
  have hcount : (pageCount (⟨1, [0x55]⟩ : File).ftell).toNat = 1 := by decide
  have hopen : ∀ i, (Env.plain (some ⟨1, [0x55]⟩) 0).fopen i
      (World.selected .timer2 fun _ => 0).flashData.pathname = some ⟨1, [0x55]⟩ := fun _ => rfl
  obtain ⟨status, w', hrun, hpages, -, -⟩ := hprograms.run_healthy NorParams.swift_faultFree
    (swift_busy _ _) (by decide) hfile hfits (selected_ready _ _) rfl rfl hopen
  obtain ⟨⟨⟩, rfl⟩ := Prod.mk.inj (hrun.symm.trans hrun')
  have hcell := hpages 0 (by rw [hcount]; decide) 1 (by decide)
  rw [hmem _ (hprograms.placed.page_mem_cells hfile hfits (by rw [hcount]; decide) (by decide)),
    Region.image_page] at hcell
  exact absurd hcell (by decide)

end Kiflash
