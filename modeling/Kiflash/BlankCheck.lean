import Kiflash.Nor.Programming

/-!
# What the blank check looks at

`Spi_Blank_Check` reads page after page and tests the bytes 10 to 261 of each answer.  The
page is in the bytes 9 to 264: the first byte and the last three of every page are not looked
at.

* `AllBlank` — the bytes of a range are all `0xFF`.
* `InWindow` — the offsets that the check looks at.
* `spiBlankCheck_ready` — the check returns success exactly if the window is blank.
* `blank_check_iff` — when this is the answer that was asked for.

The check is exact about what it looks at, so its outcome on a device that answers is the
predicate `WindowBlank` of the bytes before the call; everything else is a comparison of two
predicates on the contents.  It goes wrong in one direction only: a range that is blank
passes, and a range that passes may have other bytes at the offsets outside of the window.  A
byte count that is not a multiple of the page size is rounded up, and the bytes up to the end
of the last page count.
-/

open Imperative Imperative.Prog

namespace Kiflash

/-- The `n` bytes from `startAddr` on are `0xFF`.  This is what an erased range looks like. -/
def AllBlank (content : UInt32 → UInt8) (startAddr : UInt32) (n : ℕ) : Prop :=
  ∀ i < n, content (startAddr + UInt32.ofNat i) = 0xFF

/-- The check looks at the byte number `i` of the range.  The test is on the index into the
answer, which is 9 more than the one into the page. -/
def InWindow (i : ℕ) : Prop := 1 ≤ i % 256 ∧ i % 256 ≤ 252

instance (i : ℕ) : Decidable (InWindow i) := inferInstanceAs (Decidable (_ ∧ _))

/-- The bytes that the check looks at are `0xFF`.  Of each page these are all but the first
and the last three. -/
def WindowBlank (content : UInt32 → UInt8) (startAddr : UInt32) (n : ℕ) : Prop :=
  ∀ i < n, InWindow i → content (startAddr + UInt32.ofNat i) = 0xFF

/-- The bytes that it does not look at are.  This is what is missing when the check passes. -/
def RestBlank (content : UInt32 → UInt8) (startAddr : UInt32) (n : ℕ) : Prop :=
  ∀ i < n, ¬ InWindow i → content (startAddr + UInt32.ofNat i) = 0xFF

/-- The pages of the range, rounded up.  The code divides in 32 bits and adds one page if a
rest is left. -/
theorem pagesToRead_toNat (noByteToRead : UInt32) :
    (pagesToRead noByteToRead).toNat = (noByteToRead.toNat + 255) / 256 := by
  have hlt := noByteToRead.toNat_lt
  have hquot : (noByteToRead / pageSize).toNat = noByteToRead.toNat / 256 := UInt32.toNat_div _ _
  have hprod : (noByteToRead / pageSize * pageSize).toNat = noByteToRead.toNat / 256 * 256 := by
    rw [UInt32.toNat_mul, hquot]
    change noByteToRead.toNat / 256 * 256 % 2 ^ 32 = _
    omega
  have hle : noByteToRead / pageSize * pageSize ≤ noByteToRead := by
    rw [UInt32.le_iff_toNat_le, hprod]
    omega
  have hrest : (noByteToRead - noByteToRead / pageSize * pageSize).toNat = noByteToRead.toNat % 256 := by
    rw [UInt32.toNat_sub_of_le _ _ hle, hprod]
    omega
  have hzero : noByteToRead - noByteToRead / pageSize * pageSize = 0 ↔ noByteToRead.toNat % 256 = 0 := by
    rw [← UInt32.toNat_inj, hrest]
    rfl
  rw [pagesToRead]
  split_ifs with h
  · rw [ne_eq, hzero] at h
    rw [UInt32.toNat_add, hquot]
    change (noByteToRead.toNat / 256 + 1) % 2 ^ 32 = _
    omega
  · rw [ne_eq, not_not, hzero] at h
    rw [hquot]
    omega

/-- The test of a page, by the answer to its read.  The index of the test begins two places
behind that of the first byte, and ends three in front of the last. -/
theorem window_iff {readBuffer : ℕ → UInt8} :
    ((List.range' 4 252).all fun index => readBuffer (index + 6) = 0xFF) = true ↔
      ∀ k < 256, InWindow k → readBuffer (9 + k) = 0xFF := by
  simp only [List.all_eq_true, List.mem_range'_1, decide_eq_true_eq]
  constructor
  · rintro h k hk ⟨hlo, hhi⟩
    rw [Nat.mod_eq_of_lt hk] at hlo hhi
    have hbyte := h (k + 3) ⟨by omega, by omega⟩
    rwa [show k + 3 + 6 = 9 + k by omega] at hbyte
  · rintro h index ⟨hlo, hhi⟩
    have hmod : (index - 3) % 256 = index - 3 := Nat.mod_eq_of_lt (by omega)
    have hbyte := h (index - 3) (by omega) ⟨by omega, by omega⟩
    rwa [show 9 + (index - 3) = index + 6 by omega] at hbyte

/-- Page by page, or byte by byte. -/
theorem windowBlank_iff {content : UInt32 → UInt8} {startAddr : UInt32} {n : ℕ} :
    WindowBlank content startAddr (256 * n) ↔ ∀ j < n, ∀ k < 256, InWindow k →
      content (startAddr + UInt32.ofNat (256 * j) + UInt32.ofNat k) = 0xFF := by
  constructor
  · intro h j hj k hk hwindow
    have hbyte := h (256 * j + k) (by omega) (by rwa [InWindow, Nat.mul_add_mod])
    rwa [UInt32.ofNat_add, ← UInt32.add_assoc] at hbyte
  · intro h i hi hwindow
    have hbyte := h (i / 256) (by omega) (i % 256) (Nat.mod_lt _ (by decide))
      (by rwa [InWindow, Nat.mod_mod])
    rwa [UInt32.add_assoc, ← UInt32.ofNat_add, Nat.div_add_mod] at hbyte

/-- What is blank, is so inside the window and outside of it. -/
theorem allBlank_iff {content : UInt32 → UInt8} {startAddr : UInt32} {n : ℕ} :
    AllBlank content startAddr n ↔ WindowBlank content startAddr n ∧ RestBlank content startAddr n := by
  constructor
  · exact fun h => ⟨fun i hi _ => h i hi, fun i hi _ => h i hi⟩
  · rintro ⟨hwindow, hrest⟩ i hi
    by_cases hi' : InWindow i
    · exact hwindow i hi hi'
    · exact hrest i hi hi'

section BlankCheck

variable {σ : Type} [XSpiDriver σ] {Up : σ → Prop} {env : Env} {polls : σ → ℕ}
variable {content : σ → UInt32 → UInt8} {w : World σ}
variable (hr : Responsive env.rounds Up polls) (hx : ExactReads env content)
include hr hx

/-- A page passes exactly when its bytes in the window are blank.  The bus stays ready, so the
page behind it can be checked in the same way. -/
theorem blankCheckPage_ready (h : Ready Up w) (startAddr : UInt32) :
    wp (blankCheckPage env startAddr)
      (fun status w' => Ready Up w' ∧ content w'.bus = content w.bus ∧
        (status = .success ↔ ∀ k < 256, InWindow k →
          content w.bus (startAddr + UInt32.ofNat k) = 0xFF))
      (fun _ _ => False) w := by
  obtain ⟨w₁, henable, h₁⟩ := (spiFlashWriteEnable_serves hr).exists_ret h
  refine wp_bind.mpr ((wp_of_ret henable).mpr ?_)
  refine wp_pageRead_ready hr hx henable h₁ fun w₂ h₂ hread => ?_
  have hpage : (List.range' 4 252).all (fun index => w₂.readBuffer (index + 6) = 0xFF) = true ↔
      ∀ k < 256, InWindow k → content w.bus (startAddr + UInt32.ofNat k) = 0xFF := by
    rw [window_iff]
    refine forall₂_congr fun k hk => imp_congr_right fun _ => ?_
    rw [hread.page k hk]
  refine wp_bind.mpr (wp_gets.mpr (wp_ite.mpr ⟨fun hpass => ?_, fun hfail => ?_⟩))
  · exact ⟨h₂, hread.same, iff_of_true rfl (hpage.mp hpass)⟩
  · exact ⟨h₂, hread.same, iff_of_false (by simp) fun hall => hfail (hpage.mpr hall)⟩

/-- The pages pass exactly when the window is blank in each.  The induction is on the pages
that are left, and nothing on the way changes the flash. -/
theorem blankCheckLoop_ready (h : Ready Up w) (total : ℕ) (startAddr : UInt32) :
    wp (checkLoop (blankCheckPage env) (· + pageSize) total startAddr)
      (fun status _ => status = .success ↔ WindowBlank (content w.bus) startAddr (256 * total))
      (fun _ _ => False) w := by
  refine wp_checkLoop (fun n addr w₁ => n ≤ total ∧
      addr = startAddr + UInt32.ofNat (256 * (total - n)) ∧ Ready Up w₁ ∧
      content w₁.bus = content w.bus ∧ ∀ j < total - n, ∀ k < 256, InWindow k →
        content w.bus (startAddr + UInt32.ofNat (256 * j) + UInt32.ofNat k) = 0xFF)
    (fun n addr w₁ inv => ?_) (fun addr w₁ inv => ?_) total startAddr w
    ⟨le_rfl, by simp, h, rfl, fun j hj => absurd hj (by omega)⟩
  · obtain ⟨hle, rfl, hready, hsame, hpages⟩ := inv
    refine wp_mono (blankCheckPage_ready hr hx hready _) (fun status w₂ h₂ => ?_) fun _ _ h => h
    obtain ⟨hready₂, hsame₂, hpass⟩ := h₂
    rw [hsame] at hsame₂ hpass
    have hnext : total - n = total - (n + 1) + 1 := by omega
    refine ⟨fun hok => ⟨by omega, ?_, hready₂, hsame₂, fun j hj => ?_⟩, fun hno => ?_⟩
    · rw [hnext, Nat.mul_succ, UInt32.ofNat_add, ← UInt32.add_assoc]
      rfl
    · rw [hnext, Nat.lt_succ_iff_lt_or_eq] at hj
      rcases hj with hj | rfl
      · exact hpages j hj
      · exact hpass.mp hok
    · refine iff_of_false (by simp) fun hall => hno (hpass.mpr ?_)
      exact windowBlank_iff.mp hall _ (by omega)
  · obtain ⟨-, -, -, -, hpages⟩ := inv
    exact iff_of_true rfl (windowBlank_iff.mpr hpages)

/-- The whole check, whatever became of the initialisation before it. -/
theorem spiBlankCheck_ready {status₀ : Xst} {w₀ : World σ}
    (hinit : ensureInit env w = (.ret status₀, w₀)) (h : Ready Up w₀)
    (startAddr noByteToRead : UInt32) :
    ∃ status w', spiBlankCheck env startAddr noByteToRead w = (.ret status, w') ∧
      (status = .success ↔
        WindowBlank (content w.bus) startAddr (256 * ((noByteToRead.toNat + 255) / 256))) := by
  obtain ⟨status, w', hrun, hpass⟩ := exists_ret_of_wp
    (blankCheckLoop_ready hr hx h (pagesToRead noByteToRead).toNat startAddr)
  have hsame : content w₀.bus = content w.bus := hx.quiet.talks housekeeping_subset
    ((ensureInit_talks statusFrames_subset).of_eq hinit)
  rw [pagesToRead_toNat, hsame] at hpass
  exact ⟨status, w', (bind_of_ret hinit).trans hrun, hpass⟩

/-- **The blank check is exact exactly when the bytes that it does not look at make no
difference.**  On a device that answers and delivers its pages, it returns success if and only
if the range is blank, provided that the range is blank outside the window too, or not blank
inside of it.

The window of a page is what the comparison reaches: the offsets 1 to 252.  The range is made
of the whole pages that the loop reads.  The initialisation in front of the check is only
known by its outcome; where it fails, the check goes on all the same. -/
theorem blank_check_iff {status₀ : Xst} {w₀ : World σ} (hinit : ensureInit env w = (.ret status₀, w₀))
    (h : Ready Up w₀) (startAddr noByteToRead : UInt32) :
    ∃ status w', spiBlankCheck env startAddr noByteToRead w = (.ret status, w') ∧
      ((status = .success ↔
          AllBlank (content w.bus) startAddr (256 * ((noByteToRead.toNat + 255) / 256))) ↔
        (RestBlank (content w.bus) startAddr (256 * ((noByteToRead.toNat + 255) / 256)) ∨
          ¬ WindowBlank (content w.bus) startAddr (256 * ((noByteToRead.toNat + 255) / 256)))) := by
  obtain ⟨status, w', hrun, hpass⟩ := spiBlankCheck_ready hr hx hinit h startAddr noByteToRead
  refine ⟨status, w', hrun, ?_⟩
  rw [hpass, allBlank_iff]
  by_cases hwindow : WindowBlank (content w.bus) startAddr (256 * ((noByteToRead.toNat + 255) / 256))
  · simp [hwindow]
  · simp [hwindow]

end BlankCheck

/-! ## Two pages -/

/-- A blank page passes. -/
theorem blank_check_erased :
    ∃ w', spiBlankCheck (Env.plain none 0) 0 256 (World.selected .timer2 fun _ => 0xFF) =
      (.ret .success, w') := by
  have hr := Nor.responsive NorParams.swift_faultFree (swift_busy none 0)
  have hblank : ∀ i, Nor.content (World.selected .timer2 fun _ => 0xFF).bus i = 0xFF := fun _ => rfl
  obtain ⟨status, w', hrun, hexact⟩ := blank_check_iff hr (Nor.exactReads _ _)
    (ensureInit_of_flag (Env.plain none 0) rfl) (selected_ready .timer2 fun _ => 0xFF) 0 256
  obtain rfl := (hexact.mpr (.inl fun i _ _ => hblank _)).mpr fun i _ => hblank _
  exact ⟨w', hrun⟩

/-- The first byte of the page is programmed, and the page passes as blank.  The address 0 is
the one that the call is given. -/
theorem blank_check_counterexample :
    ∃ w', spiBlankCheck (Env.plain none 0) 0 256
        (World.selected .timer2 fun x => if x = 0 then 0 else 0xFF) = (.ret .success, w') ∧
      Nor.content (World.selected .timer2 fun x => if x = 0 then 0 else 0xFF).bus 0 ≠ 0xFF := by
  have hr := Nor.responsive NorParams.swift_faultFree (swift_busy none 0)
  obtain ⟨status, w', hrun, hpass⟩ := spiBlankCheck_ready hr (Nor.exactReads _ _)
    (ensureInit_of_flag (Env.plain none 0) rfl)
    (selected_ready .timer2 fun x => if x = 0 then 0 else 0xFF) 0 256
  obtain rfl : status = .success := by
    refine hpass.mpr fun i hi hwindow => if_neg ?_
    have hsize := flashSize_eq
    have hpos : 1 ≤ i % 256 := hwindow.1
    change i < 256 at hi
    rw [UInt32.zero_add, UInt32.toNat_ofNat', hsize]
    omega
  exact ⟨w', hrun, by decide⟩

end Kiflash
