import Kiflash.Files
import Kiflash.Nor.Programming

/-!
# The pages that an image function goes through

`qspi_program_bin` and `qspi_verify_bin` compute the number of pages from a 64-bit size in
32-bit arithmetic, and the offset of a page in the file is a `u32`.  Both are right for files
of up to `2 ^ 32` bytes, and for longer ones at least one of them is not.

* `ImageFunction.processed` — the file offsets of the rounds of a call.
* `ImageFunction.processed_eq` — those of a successful call, as the code computes them.
* `page_count_iff` — when they are the pages of the file.

A success is what makes the rounds known: a call that fails stops at some page.  For a call
that succeeds the comparison is one of two lists, the offsets `256 * k` modulo `2 ^ 32` for
the pages that were counted, and the same without the modulus for the pages that there are.  A
size whose page count is a multiple of `2 ^ 32` has no rounds at all, and the call succeeds
all the same.
-/

open Imperative Imperative.Prog

namespace Kiflash

/-- The pages of a file of this size, the last of which may be short.  This is the number in
exact arithmetic. -/
def pageTotal (fileByteCount : UInt64) : ℕ := (fileByteCount.toNat + 255) / 256

section ImageFunction

variable {σ : Type} [XSpiDriver σ] (env : Env)

namespace ImageFunction

/-- The file offsets of the pages that a call from `w` processes: one for each round of its
page loop. -/
def processed (function : ImageFunction) (w : World σ) : List ℕ :=
  match env.fopen w.fopens w.flashData.pathname with
  | none => []
  | some file =>
    match setup env (w.opened (some file)) with
    | (.ret .success, w₁) =>
      (checkVisits (function.round env w.flashData.baseAddr file)
        (PageLoop.next (pageCount file.ftell)) (pageCount file.ftell).toNat
        ⟨pageCount file.ftell, 0, 0⟩ w₁).map fun visit => visit.1.startAddr.toNat
    | _ => []

variable {env} {function : ImageFunction} {w w' : World σ} {file : File}

/-- A successful call of either function: the setup and all rounds went well. -/
theorem run_success (hopen : env.fopen w.fopens w.flashData.pathname = some file)
    (h : function.run env w = (.ret .success, w')) :
    ∃ w₁ w₂, setup env (w.opened (some file)) = (.ret .success, w₁) ∧
      checkLoop (function.round env w.flashData.baseAddr file)
        (PageLoop.next (pageCount file.ftell)) (pageCount file.ftell).toNat
        ⟨pageCount file.ftell, 0, 0⟩ w₁ = (.ret .success, w₂) := by
  rw [run_of_some hopen] at h
  obtain ⟨w₂, hbody, -⟩ := check_eq_ok.mp h
  obtain ⟨w₁, hsetup, hloop⟩ := check_eq_ok.mp hbody
  exact ⟨w₁, w₂, hsetup, hloop⟩

/-- The rounds of a successful call.  Each round takes the next page, at an offset of 32 bits,
and a call that succeeds has gone through all of them. -/
theorem processed_eq (hopen : env.fopen w.fopens w.flashData.pathname = some file)
    (h : function.run env w = (.ret .success, w')) :
    function.processed env w =
      (List.range (pageCount file.ftell).toNat).map fun k => 256 * k % 2 ^ 32 := by
  obtain ⟨w₁, w₂, hsetup, hloop⟩ := run_success hopen h
  have hstart : ∀ n it, (List.iterate (PageLoop.next (pageCount file.ftell)) it n).map
      (fun it => it.startAddr.toNat) =
        (List.range n).map fun k => (it.startAddr.toNat + 256 * k) % 2 ^ 32 := by
    intro n it
    induction n generalizing it with
    | zero => rfl
    | succ n ih =>
        rw [List.iterate, List.map_cons, ih, List.range_succ_eq_map, List.map_cons, List.map_map]
        have hlt := it.startAddr.toNat_lt
        congr 1
        · omega
        · refine List.map_congr_left fun k _ => ?_
          change ((it.startAddr.toNat + 256) % 2 ^ 32 + 256 * k) % 2 ^ 32 =
            (it.startAddr.toNat + 256 * (k + 1)) % 2 ^ 32
          omega
  rw [processed, hopen]
  simp only [hsetup]
  have hrounds := congrArg (List.map fun it : PageLoop => it.startAddr.toNat)
    (map_fst_checkVisits hloop)
  rw [List.map_map, hstart] at hrounds
  simpa only [UInt32.toNat_zero, Nat.zero_add, Function.comp_def] using hrounds

end ImageFunction

variable {env} {function : ImageFunction} {w w' : World σ} {file : File}

/-- **The pages of a successful call.**  They are all pages of the file, each at its own
offset, exactly when the file has at most `2 ^ 32` bytes.

A longer file has a page at the offset `2 ^ 32` or behind it, and no `u32` is that.  The
length is what `ftell` reports, whatever the file holds, and the function is any of those that
go through a file by pages.  That the call succeeds is assumed, since one that fails may stop
at any page. -/
theorem page_count_iff (hopen : env.fopen w.fopens w.flashData.pathname = some file)
    (h : function.run env w = (.ret .success, w')) :
    function.processed env w = (List.range (pageTotal file.ftell)).map (256 * ·) ↔
      file.ftell.toNat ≤ 2 ^ 32 := by
  have hcount := pageCount_toNat file.ftell
  rw [ImageFunction.processed_eq hopen h]
  unfold pageTotal
  constructor
  · intro hall
    by_contra hlong
    have hlen := congrArg List.length hall
    rw [List.length_map, List.length_map, List.length_range, List.length_range] at hlen
    -- the first page behind `2 ^ 32` bytes is read from the beginning of the file
    have hpage := congrArg (·[2 ^ 24]?) hall
    have hlt : 2 ^ 24 < (file.ftell.toNat + 255) / 256 := by omega
    simp only [List.getElem?_map, List.getElem?_range (hlen ▸ hlt), List.getElem?_range hlt] at hpage
    exact absurd (Option.some.inj hpage) (by decide)
  · intro hshort
    have hsame : (pageCount file.ftell).toNat = (file.ftell.toNat + 255) / 256 := by omega
    rw [hsame]
    refine List.map_congr_left fun k hk => ?_
    have hlt := List.mem_range.mp hk
    omega

end ImageFunction

/-- A user image file of this size, as far as `ftell` says.  Nothing else of the file is
looked at here. -/
def sized (fileByteCount : UInt64) : Env := Env.plain (some ⟨fileByteCount, []⟩) 0

/-- Programming a file of any size returns success on a device without faults. -/
theorem programBin_success (fileByteCount : UInt64) :
    ∃ w', ImageFunction.programBin.run (sized fileByteCount)
      (World.selected .user fun _ => 0xFF) = (.ret .success, w') := by
  have hopen : (sized fileByteCount).fopen 0 userImagePath = some ⟨fileByteCount, []⟩ := rfl
  obtain ⟨status, w', hrun, rfl, -⟩ := exists_ret_of_wp <|
    qspiProgramBin_ready (Nor.responsive NorParams.swift_faultFree (swift_busy _ _))
      (fun _ _ => True) (selected_ready .user fun _ => 0xFF) rfl hopen (fun _ _ => trivial)
      fun _ _ _ _ _ _ _ => trivial
  exact ⟨w', hrun⟩

/-- Verifying a file without pages returns success. -/
theorem verifyBin_success {fileByteCount : UInt64} (hcount : (pageCount fileByteCount).toNat = 0) :
    ∃ w', ImageFunction.verifyBin.run (sized fileByteCount)
      (World.selected .user fun _ => 0xFF) = (.ret .success, w') := by
  have hopen : (sized fileByteCount).fopen 0 userImagePath = some ⟨fileByteCount, []⟩ := rfl
  obtain ⟨status, w', hrun, -, -, hpass, -⟩ := exists_ret_of_wp <|
    qspiVerifyBin_ready (Nor.responsive NorParams.swift_faultFree (swift_busy _ _))
      (Nor.exactReads .swift (sized fileByteCount)) (selected_ready .user fun _ => 0xFF) rfl hopen
  have hok : status = .success := hpass.mpr fun j hj => absurd hj (by simp [hcount])
  exact ⟨w', hok ▸ hrun⟩

/-- Three pages. -/
theorem page_count_three : ImageFunction.programBin.processed (sized 513)
    (World.selected .user fun _ => 0xFF) = [0, 256, 512] := by
  obtain ⟨w', hrun⟩ := programBin_success 513
  exact (page_count_iff rfl hrun).mpr (by decide)

/-- A size of `(uint64_t)-1` has `2 ^ 56` pages, and both functions return success without a
round.  The number of pages is cut down to an `int`, which is zero. -/
theorem page_count_counterexample :
    (∃ w', ImageFunction.programBin.run (sized 0xFFFFFFFFFFFFFFFF)
        (World.selected .user fun _ => 0xFF) = (.ret .success, w')) ∧
      ImageFunction.programBin.processed (sized 0xFFFFFFFFFFFFFFFF)
        (World.selected .user fun _ => 0xFF) = [] ∧
      (∃ w', ImageFunction.verifyBin.run (sized 0xFFFFFFFFFFFFFFFF)
        (World.selected .user fun _ => 0xFF) = (.ret .success, w')) ∧
      ImageFunction.verifyBin.processed (sized 0xFFFFFFFFFFFFFFFF)
        (World.selected .user fun _ => 0xFF) = [] ∧
      pageTotal 0xFFFFFFFFFFFFFFFF = 2 ^ 56 := by
  have hcount : (pageCount 0xFFFFFFFFFFFFFFFF).toNat = 0 := by decide +kernel
  obtain ⟨w₁, hprogram⟩ := programBin_success 0xFFFFFFFFFFFFFFFF
  obtain ⟨w₂, hverify⟩ := verifyBin_success hcount
  have none : ∀ {function : ImageFunction} {w'}, function.run (sized 0xFFFFFFFFFFFFFFFF)
      (World.selected .user fun _ => 0xFF) = (.ret .success, w') →
      function.processed (sized 0xFFFFFFFFFFFFFFFF) (World.selected .user fun _ => 0xFF) = [] := by
    intro function w' hrun
    have hopen : (sized 0xFFFFFFFFFFFFFFFF).fopen 0 userImagePath = some ⟨0xFFFFFFFFFFFFFFFF, []⟩ := rfl
    rw [ImageFunction.processed_eq hopen hrun, hcount, List.range_zero, List.map_nil]
  exact ⟨⟨w₁, hprogram⟩, none hprogram, ⟨w₂, hverify⟩, none hverify, by decide +kernel⟩

end Kiflash
