import Kiflash.Operations
import Mathlib.Tactic.Linarith
import Mathlib.Algebra.Order.Field.Rat
import Mathlib.Data.Rat.Floor

/-!
# What a run stores to the percentage

The page reports of `qspi_program_bin` and `qspi_verify_bin` stay below 100 as long as the
page count is an `int`; so `kiflash_program_user` stores 100 behind a verification that
passed, and in no other case.

* `reported_ne_hundred` — no page report says 100.
* `Passes` — a run in which a verification passed before anything stored 100.
* `kiflashProgramUser_events` — a run passes if it succeeds, and stores no 100 if it does not.
* `kiflashProgramUser_restarts` — the first thing that it stores is a zero.

The report of a round is made before the round is done, with the pages that are left, and it
is rounded towards zero.  So the verification, which starts from 60, reports at most 99 before
its last page.  The arithmetic of the code is in `double`; the values are fractions with a
denominator of at most 2³¹, and the model computes them as rational numbers.
-/

open Imperative Imperative.Prog

namespace Kiflash

/-! ## Reports -/

/-- Patterns below the sign bit are the numbers they stand for. -/
theorem intToDouble_of_lt {x : UInt32} (h : x.toNat < 2 ^ 31) : intToDouble x = (x.toNat : ℚ) := by
  have htoInt : x.toInt32.toInt = (x.toNat : ℤ) := by
    change x.toBitVec.toInt = _
    rw [BitVec.toInt_eq_toNat_of_lt (by simpa using by omega)]
    rfl
  rw [intToDouble, htoInt]
  norm_cast

/-- The conversion of a number that fits cuts off its fraction. -/
theorem doubleToU32_toNat {q : ℚ} (hnonneg : 0 ≤ q) (h : q < 2 ^ 32) :
    (doubleToU32 q).toNat = ⌊q⌋₊ := by
  have hfloor : q.num.tdiv q.den = ⌊q⌋ := by
    rw [Rat.floor_def', Int.tdiv_eq_ediv_of_nonneg (Rat.num_nonneg.mpr hnonneg)]
  have hnat : ⌊q⌋ = (⌊q⌋₊ : ℤ) := (Int.natCast_floor_eq_floor hnonneg).symm
  have hlt : ⌊q⌋₊ < 2 ^ 32 := (Nat.floor_lt hnonneg).mpr (by exact_mod_cast h)
  have hmod : ((⌊q⌋₊ : ℤ) % 2 ^ 32).toNat = ⌊q⌋₊ := by omega
  rw [doubleToU32, hfloor, hnat, UInt32.ofInt, hmod, UInt32.toNat_ofNat', Nat.mod_eq_of_lt hlt]

/-- A bound on the number is one on what is stored. -/
theorem doubleToU32_lt {q : ℚ} {n : ℕ} (hnonneg : 0 ≤ q) (h : q < n) (hn : n < 2 ^ 32) :
    (doubleToU32 q).toNat < n := by
  have hn' : (n : ℚ) < 2 ^ 32 := by exact_mod_cast hn
  rw [doubleToU32_toNat hnonneg (h.trans hn')]
  exact (Nat.floor_lt hnonneg).mpr h

/-- No page report says 100: the page being worked on still counts.  The share of the pages
that are done is less than one. -/
theorem reported_ne_hundred {base : ℚ} {totalPage noOfPage : UInt32} (hbase : 0 ≤ base)
    (hbase' : base ≤ 60) (hpages : totalPage.toNat < 2 ^ 31) (hpos : 0 < noOfPage)
    (hle : noOfPage ≤ totalPage) : reported base totalPage noOfPage ≠ 100 := by
  rw [UInt32.lt_iff_toNat_lt] at hpos
  rw [UInt32.le_iff_toNat_le] at hle
  have hpos' : (0 : ℚ) < noOfPage.toNat := by exact_mod_cast hpos
  have hle' : (noOfPage.toNat : ℚ) ≤ totalPage.toNat := by exact_mod_cast hle
  have htotal : (0 : ℚ) < totalPage.toNat := hpos'.trans_le hle'
  have hcur : curPercentage totalPage noOfPage =
      ((totalPage.toNat : ℚ) - noOfPage.toNat) / totalPage.toNat * 100 := by
    rw [curPercentage, intToDouble_of_lt hpages, intToDouble_of_lt (by omega)]
  have hfrac : 0 ≤ ((totalPage.toNat : ℚ) - noOfPage.toNat) / totalPage.toNat :=
    div_nonneg (by linarith) htotal.le
  have hfrac' : ((totalPage.toNat : ℚ) - noOfPage.toNat) / totalPage.toNat < 1 := by
    rw [div_lt_one htotal]
    linarith
  intro heq
  have hlt : (reported base totalPage noOfPage).toNat < 100 := by
    refine doubleToU32_lt ?_ ?_ (by norm_num)
    · rw [hcur]
      linarith
    · rw [hcur]
      push_cast
      linarith
  rw [heq] at hlt
  exact absurd hlt (by decide)

/-! ## A run of `kiflash_program_user` -/

/-- The events other than a store of 100.  Before the verification has passed, a run should
have no others. -/
def belowHundred {σ : Type} : Set (Event σ) := {e | e ≠ .percentage 100}

/-- The images of the user region have page counts that an `int` holds.  Beyond that the
counter of the loop is negative in the source, and the percentage is no fraction of the
work. -/
def IntPages (env : Env) : Prop :=
  ∀ i file, env.fopen i userImagePath = some file → (pageCount file.ftell).toNat < 2 ^ 31

/-- A run in which a verification passed, and before that nothing stored 100.  After it
anything may be stored. -/
def Passes {σ : Type} (w w' : World σ) : Prop :=
  ∃ w₁, Emits belowHundred w w₁ ∧ .verifyPassed ∈ newEvents w w₁ ∧ Emits Set.univ w₁ w'

/-- A run that begins by resetting the percentage.  Whoever polls it then does not see what
the run before has left. -/
def Restarts {σ : Type} (w w' : World σ) : Prop := ∃ es, w'.events = w.events ++ .percentage 0 :: es

section Events

variable {σ : Type} {env : Env} {w w' w'' : World σ}

/-- A transfer stores nothing. -/
theorem transfers_belowHundred : Transfers (belowHundred : Set (Event σ)) :=
  fun _ _ _ h => nomatch h

theorem percentage_belowHundred {value : UInt32} (h : value ≠ 100) :
    (.percentage value : Event σ) ∈ (belowHundred : Set (Event σ)) :=
  fun heq => h (Event.percentage.inj heq)

/-- What comes behind a verification that passed. -/
theorem Passes.append (h : Passes w w') (h' : Emits Set.univ w' w'') : Passes w w'' := by
  obtain ⟨w₁, hbelow, hpassed, hrest⟩ := h
  exact ⟨w₁, hbelow, hpassed, trans_of _ hrest h'⟩

/-- What comes in front of it may store anything but 100. -/
theorem Passes.prepend (h : Emits belowHundred w w') (h' : Passes w' w'') : Passes w w'' := by
  obtain ⟨w₁, hbelow, hpassed, hrest⟩ := h'
  exact ⟨w₁, trans_of _ h hbelow, h.mem_newEvents_right hbelow hpassed, hrest⟩

variable [XSpiDriver σ]

/-- A verification that succeeds ends with its message.  It is recorded behind the last page,
and the run has no other way to succeed. -/
theorem qspiVerifyBin_passed (h : qspiVerifyBin env w = (.ret .success, w')) :
    .verifyPassed ∈ newEvents w w' := by
  have hverify : wp (qspiVerifyBin env)
      (fun status w' => status = .success →
        ∃ w₁, Emits Set.univ w w₁ ∧ w'.events = w₁.events ++ [.verifyPassed])
      (fun _ _ => True) w := by
    refine wp_bind.mpr (wp_gets.mpr (wp_imageFile (fun _ hok => nomatch hok)
      (fun _ _ _ _ => ⟨fun hok => (nomatch hok), fun _ => trivial⟩) fun file w₁ _ h₁ => ?_))
    have hpage : ∀ startAddr, Moves (Reports Set.univ Set.univ)
        (verifyPage (σ := σ) env w.flashData.baseAddr file startAddr) := fun _ =>
      verifyPage_reports (Set.subset_univ _) transfers_univ.admits (says_univ _)
    refine wp_mono ((pageLoop_reports (fun _ _ => hpage _) fun _ _ _ =>
      reportProgress_reports trivial).wp w₁)
      (fun status w₂ h₂ => ⟨fun _ => ?_, fun _ hok => nomatch hok⟩) fun _ _ _ => trivial
    refine wp_modify.mpr fun _ => ⟨w₂, ?_, rfl⟩
    exact trans_of (Emits Set.univ) (h₁.emits transfers_univ.admits) h₂.emits
  obtain ⟨w₁, hemits, hevents⟩ := (wp_of_ret h).mp hverify rfl
  have hlast : Emits Set.univ w₁ w' := .of_mem hevents trivial
  refine hemits.mem_newEvents_right hlast ?_
  rw [newEvents_of_eq hevents]
  exact List.mem_singleton_self _

/-- `program_user` stores 100 behind a verification that passed, and only if it succeeds.  The
page counts have to fit into an `int`, or the reports of a page loop could be anything. -/
theorem programUser_events (erase : UInt32)
    (hpages : ∀ i file, env.fopen i w.flashData.pathname = some file →
      (pageCount file.ftell).toNat < 2 ^ 31) :
    wp (programUser env erase)
      (fun status w' => (status = .success → Passes w w') ∧
        (status ≠ .success → Emits belowHundred w w'))
      (fun _ w' => Emits belowHundred w w') w := by
  have hA : housekeeping ⊆ Set.univ := Set.subset_univ _
  have hE : Admits Set.univ (belowHundred : Set (Event σ)) := transfers_belowHundred.admits
  have mark : ∀ {value}, value ≠ 100 →
      Moves (Reports Set.univ belowHundred) ((ProgramCall.user erase).mark (σ := σ) env value) :=
    fun h => mark_reports (percentage_belowHundred h)
  have report : ∀ {w₁ : World σ} {base : ℚ}, Reports Set.univ belowHundred w w₁ → 0 ≤ base →
      base ≤ 60 → ∀ i file, env.fopen i w₁.flashData.pathname = some file → ∀ noOfPage,
      0 < noOfPage → noOfPage ≤ pageCount file.ftell →
      .percentage (reported base (pageCount file.ftell) noOfPage) ∈ (belowHundred : Set (Event σ)) := by
    intro w₁ base h₁ hbase hbase' i file hfile noOfPage hpos hle
    rw [h₁.target.2.2.2] at hfile
    exact percentage_belowHundred (reported_ne_hundred hbase hbase' (hpages i file hfile) hpos hle)
  -- a stage that fails ends the run below 100
  have failed : ∀ w', Reports Set.univ belowHundred w w' →
      (Xst.failure = .success → Passes w w') ∧ (Xst.failure ≠ .success → Emits belowHundred w w') :=
    fun w' h' => ⟨fun hok => (nomatch hok), fun _ => h'.emits⟩
  have stopped : ∀ (_ : Stop) w', Reports Set.univ belowHundred w w' → Emits belowHundred w w' :=
    fun _ w' h' => h'.emits
  change wp ((ProgramCall.user erase).run env) _ _ w
  rw [ProgramCall.run_eq]
  refine wp_bind_along (refl_of _ w) (mark (by decide) w) (fun _ w₁ _ h₁ => ?_) stopped
  refine wp_check_along h₁ (eraseStage_reports hA hE (fun _ _ _ => trivial)
    (percentage_belowHundred (by decide))) (fun w₂ _ h₂ => ?_) failed stopped
  refine wp_bind_along h₂ (mark (by decide) w₂) (fun _ w₃ _ h₃ => ?_) stopped
  refine wp_check_along h₃ (qspiProgramBin_reports hA hE (fun _ _ _ _ _ _ => trivial)
    (report h₃ (by norm_num) (by norm_num))) (fun w₄ _ h₄ => ?_) failed stopped
  refine wp_bind_along h₄ (mark (by decide) w₄) (fun _ w₅ _ h₅ => ?_) stopped
  have hverify : Reports Set.univ belowHundred w₅ (qspiVerifyBin env w₅).2 :=
    qspiVerifyBin_reports hA hE (says_univ _) (report h₅ (by norm_num) le_rfl) fun h => nomatch h
  refine wp_check_along h₅ hverify (fun w₆ hrun h₆ => ?_) failed stopped
  rw [hrun] at hverify
  have hpassed : Passes w w₆ :=
    ⟨w₆, h₆.emits, h₅.emits.mem_newEvents_right hverify.emits (qspiVerifyBin_passed hrun), refl_of _ _⟩
  obtain ⟨percentage, events, hmark⟩ := mark_eq env (.user erase) 100 w₆
  have hlast := (mark_moves.of_eq hmark).emits
  exact wp_bind.mpr ((wp_of_ret hmark).mpr
    ⟨fun _ => hpassed.append hlast, fun hne => absurd rfl hne⟩)

/-- **`kiflash_program_user` stores 100 behind its own verification only**, and not at all
unless it succeeds.  The stages in front store less: the page loops report up to 100 from
below, and never the 100 itself. -/
theorem kiflashProgramUser_events (hpages : IntPages env) (w : World σ) :
    wp (kiflashProgramUser env)
      (fun status w' => (status = .success → Passes w w') ∧
        (status ≠ .success → Emits belowHundred w w'))
      (fun _ w' => Emits belowHundred w w') w := by
  refine wp_kiflashProgramUser transfers_belowHundred.admits (percentage_belowHundred (by decide))
    (fun _ _ _ h => h) fun w₁ _ h₁ hname _ => ?_
  refine wp_mono (programUser_events (w := w₁) 1 (by rw [hname]; exact hpages))
    (fun status w₂ h₂ => ⟨fun hok => ?_, fun hne => ?_⟩) fun _ _ h => trans_of _ h₁ h
  · obtain ⟨w₃, hicap, hwrites⟩ := icap_emits (E := Set.univ) (fun _ _ _ => trivial) 0 w₂
    refine (wp_of_ret hicap).mpr ⟨fun _ => ?_, fun hno => absurd rfl hno⟩
    exact (Passes.prepend h₁ (h₂.1 hok)).append
      (trans_of _ hwrites (setPercentage_moves w₃).emits)
  · exact ⟨fun hok => (nomatch hok), fun _ => trans_of _ h₁ (h₂.2 hne)⟩

omit [XSpiDriver σ] in
/-- What comes behind the reset. -/
theorem Restarts.append (h : Restarts w w') (h' : Emits Set.univ w' w'') : Restarts w w'' := by
  obtain ⟨es, hes⟩ := h
  obtain ⟨es', hes', -⟩ := h'
  exact ⟨es ++ es', by rw [hes', hes, List.append_assoc, List.cons_append]⟩

/-- The first thing that a run of `kiflash_program_user` does to the percentage is its reset.
It is done by `kiflash_init`, before the driver is touched. -/
theorem kiflashProgramUser_restarts (hprogress : env.progress = true) (w : World σ) :
    Restarts w (kiflashProgramUser env w).2 := by
  have later : Carries (σ := σ) env (Emits Set.univ) := .of_talks
    (fun _ _ h _ => h.mono (Set.subset_univ _)) (fun _ _ => moves_modify fun _ => .of_mem rfl trivial)
    fun _ _ h => h.emits transfers_univ.admits
  have init : Restarts w (kiflashInit env w).2 := by
    refine (wp_state_iff (P := Restarts w)).mp
      (wp_bind.mpr (wp_modify.mpr (wp_bind.mpr (wp_setPercentage.mpr ?_))))
    rw [if_pos hprogress]
    have rest : Moves (Emits Set.univ) (pcimemInit (σ := σ) env >>= fun _ =>
        check (ensureInit env) (pure .success)) :=
      later.pcimemInit.bind fun _ => later.ensureInit.check (moves_pure _)
    exact wp_state_iff.mpr (Restarts.append ⟨[], rfl⟩ (rest _))
  refine (wp_state_iff (P := Restarts w)).mp
    (wp_bind.mpr (wp_mono ((wp_state_iff (P := Restarts w)).mpr init) (fun _ w₁ h₁ => ?_)
      fun _ _ h => h))
  have rest : Moves (Emits Set.univ) (selectRegion (σ := σ) .user >>= fun _ =>
      setPercentage env 0 >>= fun _ => check (programUser env 1) (icap 0 >>= fun _ =>
        setPercentage env 100 >>= fun _ => pure .success)) :=
    later.selectRegion.bind fun _ => later.setPercentage.bind fun _ =>
      (later.program (.user 1)).check <| later.icap.bind fun _ => later.setPercentage.bind fun _ =>
      moves_pure _
  exact wp_state_iff.mpr (h₁.append (rest w₁))

/-- The record of the stores tells what the percentage is. -/
theorem carries_tracks : Carries (σ := σ) env Tracks :=
  .of_talks (fun _ _ _ h => h)
    (fun _ _ => moves_modify fun _ => .of_forall_ne rfl (by simp) rfl) fun _ _ => Talks.tracks

end Events

end Kiflash
