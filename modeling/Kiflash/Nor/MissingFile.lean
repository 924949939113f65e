import Kiflash.Nor.Programming

/-!
# A programming call without its image file

The three programming functions open the image file in `qspi_program_bin`, behind the erase of
the region.  So a call that asks for the erase and does not find its file fails with the
region erased.

* `Refuses` — what the flash functions do on a driver that is not started.
* `erasedIfStarted` — the cells behind the erase, whatever it returned.
* `ProgramCall.run_missing` — the outcome of a call without its file.
* `missing_image_iff` — when the flash is as it was.

The call fails in any case, so the question is what has happened to the flash by then.  The
erase is the only thing that can have changed it, and it is left out in three cases: it is not
asked for, it has more sectors than the code accepts, or the driver has not been started and
every command is refused.  Where it is carried out, the flash is as it was only if there was
nothing to erase.

The device has no faults here.  With faults the sectors that are erased might hold anything
afterwards, and the call would fail all the same.
-/

open Imperative Imperative.Prog NorFlash

namespace Kiflash

/-! ## A driver that is not started -/

/-- On a driver that is not started, `m` fails and leaves the device alone.  So does
everything that begins with a wait. -/
def Refuses {p : NorParams} (m : Prog (World (Nor p)) Xst) : Prop :=
  ∀ w : World (Nor p), w.bus.started = false →
    wp m (fun status w' => status ≠ .success ∧ w'.bus = w.bus) (fun _ _ => False) w

section Refuses

variable {p : NorParams} {env : Env} {m k : Prog (World (Nor p)) Xst}

/-- A checked step behind a refusal is not reached. -/
theorem Refuses.check (hm : Refuses m) : Refuses (check m k) := by
  intro w h
  refine wp_check.mpr (wp_mono (hm w h) (fun status w' h' => ?_) fun _ _ h => h)
  exact ⟨fun hok => absurd hok h'.1, fun _ => ⟨by decide, h'.2⟩⟩

/-- A transfer is refused by a driver that is not started.  The failure is the driver's, and
the flash has not seen the frame. -/
theorem send_refuses {bs : List UInt8} {recv : Bool} {n : ℕ} {inner : Prog (World (Nor p)) Xst}
    (hbs : bs.length ≤ bufferSize) (hn : n ≤ bufferSize) :
    Refuses (fillWriteBuffer 0 bs >>= fun _ => command env recv n inner) := by
  intro w h
  rw [wp_bind, wp_of_ret (fillWriteBuffer_eq (by omega)), wp_command]
  have stopped : ∀ frame, XSpiDriver.xspiTransfer env.rounds frame recv w.bus =
      (some (.deviceIsStopped, []), w.bus) := by
    intro frame
    change w.bus.transfer frame recv = _
    rw [Nor.transfer, if_neg (by rw [h]; decide)]
  refine wp_xspiTransfer (fun hlt => absurd hn (Nat.not_le.mpr hlt)) (fun bus hx => ?_)
    (fun status stored bus hx hlt => ?_) fun status stored bus hx _ => ?_
  · exact absurd ((stopped _).symm.trans hx) (by simp)
  · obtain ⟨⟨⟨⟩, rfl⟩, rfl⟩ := Prod.mk.inj ((stopped _).symm.trans hx)
    exact absurd hlt (Nat.not_lt_zero _)
  · obtain ⟨⟨⟨⟩, rfl⟩, rfl⟩ := Prod.mk.inj ((stopped _).symm.trans hx)
    exact ⟨fun hok => absurd hok (by decide), fun _ => ⟨by decide, rfl⟩⟩

/-- So the first poll fails. -/
theorem spiFlashWaitForFlashReady_refuses (hrounds : 0 < env.rounds) :
    Refuses (spiFlashWaitForFlashReady (σ := Nor p) env) := by
  intro w h
  obtain ⟨n, hn⟩ := Nat.exists_eq_succ_of_ne_zero hrounds.ne'
  have status : Refuses (spiFlashGetStatus (σ := Nor p) env) := send_refuses (by decide) (by decide)
  rw [spiFlashWaitForFlashReady, hn, loop, wp_bind, waitRound, wp_bind]
  refine wp_mono (status w h) (fun status w' h' => ?_) fun _ _ h => h
  rw [if_neg h'.1]
  exact ⟨by decide, h'.2⟩

/-- And with it the erase. -/
theorem spiFlashSectorErase_refuses (hrounds : 0 < env.rounds) {addr : UInt32} :
    Refuses (spiFlashSectorErase (σ := Nor p) env addr) :=
  ((spiFlashWaitForFlashReady_refuses hrounds).check.check).check

/-- The erase of a region fails on its first sector, if it has one. -/
theorem qspiEraseSectorFlash_stopped (hrounds : 0 < env.rounds) {ofsetAddr sectCount : UInt32}
    {w : World (Nor p)} (h : w.bus.started = false) :
    wp (qspiEraseSectorFlash env ofsetAddr sectCount) (fun _ w' => w'.bus = w.bus)
      (fun _ _ => False) w := by
  refine wp_ite.mpr ⟨fun _ => ?_, fun _ => rfl⟩
  cases sectCount.toNat with
  | zero => rfl
  | succ n =>
      exact wp_mono ((spiFlashSectorErase_refuses hrounds).check w h) (fun _ _ h => h.2)
        fun _ _ h => h

end Refuses

/-! ## A call without its file -/

section Missing

variable {p : NorParams} {env : Env} {w : World (Nor p)}

/-- Without its file, the programming fails at once. -/
theorem qspiProgramBin_missing (h : env.fopen w.fopens w.flashData.pathname = none) :
    qspiProgramBin env w = (.ret .failure, w.opened none) := by
  refine bind_eq_ret.mpr ⟨_, _, rfl, bind_eq_ret.mpr ⟨none, w.opened none, ?_, rfl⟩⟩
  rw [fopen, h]

/-- The cells of a device that is erased only if it is asked to, can be, and is started.  The
missing file has no part in it, as the erase comes first. -/
def erasedIfStarted (call : ProgramCall) (data : FlashData) (d : Nor p) : ℕ → UInt8 :=
  if numbSectors < sectorsToErase data (call.eraseFrom data) ∨ d.started = false then d.mem
  else erased call data d.mem

/-- The erase of a region on a device without faults, started or not.  A driver that has been
started erases all the sectors, if their number is accepted; with any other the first wait
fails. -/
theorem qspiEraseSectorFlash_ret (hp : p.FaultFree) (hbusy : ∀ n, p.busy n < env.rounds)
    (hwip : w.bus.wip < env.rounds) (herror : w.errorCount = 0) {call : ProgramCall}
    (he : call.erase ≠ 0) :
    ∃ status w', qspiEraseSectorFlash env (call.eraseFrom w.flashData)
        (sectorsToErase w.flashData (call.eraseFrom w.flashData)) w = (.ret status, w') ∧
      w'.bus.mem = erasedIfStarted call w.flashData w.bus := by
  set eraseFrom := call.eraseFrom w.flashData with hfrom
  set sectors := sectorsToErase w.flashData eraseFrom with hsectors
  -- refused for its count, stopped at its first transfer, or done
  by_cases hcount : numbSectors < sectors
  · refine ⟨.failure, w, ?_, (if_pos (.inl hcount)).symm⟩
    have hnot : ¬ (sectors < numbSectors ∨ sectors = numbSectors) := by
      rw [UInt32.lt_iff_toNat_lt, ← UInt32.toNat_inj]
      rw [UInt32.lt_iff_toNat_lt] at hcount
      omega
    rw [qspiEraseSectorFlash, if_neg hnot]
    rfl
  · cases hstarted : w.bus.started with
    | false =>
        have stopped : wp (qspiEraseSectorFlash env eraseFrom sectors)
            (fun _ w' => w'.bus = w.bus) (fun _ _ => False) w :=
          qspiEraseSectorFlash_stopped (Nat.zero_lt_of_lt hwip) hstarted
        obtain ⟨status, w', hrun, hbus⟩ := exists_ret_of_wp stopped
        exact ⟨status, w', hrun, by rw [hbus, erasedIfStarted, if_pos (.inr hstarted)]⟩
    | true =>
        have serves : Serves (Nor.Answering env.rounds)
            (qspiEraseSectorFlash (σ := Nor p) env eraseFrom sectors) :=
          qspiEraseSectorFlash_serves (Nor.responsive hp hbusy) (UInt32.not_lt.mp hcount)
        obtain ⟨w', hrun, -⟩ := serves.exists_ret ⟨⟨hstarted, hwip⟩, herror⟩
        refine ⟨.success, w', hrun, ?_⟩
        have hnot : ¬ (numbSectors < sectors ∨ w.bus.started = false) :=
          not_or.mpr ⟨hcount, by rw [hstarted]; decide⟩
        rw [erasedIfStarted, if_neg hnot, erased, if_neg he]
        exact qspiEraseSectorFlash_mem hp.misfire hrun

/-- The erase stage, whatever it returns.  The cells are then those that the statement about
the whole call has. -/
theorem eraseStage_ret (hp : p.FaultFree) (hbusy : ∀ n, p.busy n < env.rounds)
    (hwip : w.bus.wip < env.rounds) (herror : w.errorCount = 0) (call : ProgramCall) :
    ∃ status w', eraseStage env (call.mark env) call.eraseFrom call.erase w = (.ret status, w') ∧
      w'.bus.mem = erasedIfStarted call w.flashData w.bus ∧
      w'.flashData.pathname = w.flashData.pathname := by
  by_cases he : call.erase = 0
  · refine ⟨.success, w, ?_, ?_, rfl⟩
    · rw [eraseStage, if_neg (not_not.mpr he)]
      rfl
    · unfold erasedIfStarted erased
      rw [if_pos he, ite_self]
  · obtain ⟨status, w₁, hrun, hmem⟩ := qspiEraseSectorFlash_ret hp hbusy hwip herror he
    obtain ⟨percentage, events, hmark⟩ := mark_eq env call 20 w₁
    refine ⟨status, { w₁ with flashData := { w₁.flashData with percentage }, events }, ?_, hmem, ?_⟩
    · rw [eraseStage, if_pos he]
      exact (bind_of_ret hrun).trans (bind_of_ret hmark)
    · have talks := (qspiEraseSectorFlash_talks (Set.subset_univ _) fun _ _ => trivial).of_eq hrun
      change w₁.flashData.pathname = w.flashData.pathname
      rw [talks.flashData]

/-- **A programming call without its file** fails behind the erase.  The cells are those
behind the erase stage, and on a driver that is not started not even that stage has changed
them. -/
theorem ProgramCall.run_missing (hp : p.FaultFree) (hbusy : ∀ n, p.busy n < env.rounds)
    (hwip : w.bus.wip < env.rounds) (herror : w.errorCount = 0) (call : ProgramCall)
    (hopen : ∀ i, env.fopen i w.flashData.pathname = none) :
    ∃ w', call.run env w = (.ret .failure, w') ∧
      w'.bus.mem = erasedIfStarted call w.flashData w.bus := by
  obtain ⟨p₁, es₁, hmark₁⟩ := mark_eq env call 1 w
  set w₁ : World (Nor p) :=
    { w with flashData := { w.flashData with percentage := p₁ }, events := es₁ } with hw₁
  obtain ⟨status, w₂, hstage, hmem, hpath⟩ := eraseStage_ret (w := w₁) hp hbusy hwip herror call
  have hmem : w₂.bus.mem = erasedIfStarted call w.flashData w.bus := by
    rw [hmem]
    cases call <;> rfl
  rw [call.run_eq]
  by_cases hok : status = .success
  · obtain ⟨p₃, es₃, hmark₃⟩ := mark_eq env call 20 w₂
    set w₃ : World (Nor p) :=
      { w₂ with flashData := { w₂.flashData with percentage := p₃ }, events := es₃ }
    have hfile : env.fopen w₃.fopens w₃.flashData.pathname = none := by
      change env.fopen w₂.fopens w₂.flashData.pathname = none
      rw [hpath]
      exact hopen _
    refine ⟨w₃.opened none, ?_, hmem⟩
    subst hok
    exact (bind_of_ret hmark₁).trans <| (check_of_ok hstage).trans <|
      (bind_of_ret hmark₃).trans <| check_of_ne (qspiProgramBin_missing hfile) (by decide)
  · exact ⟨w₂, (bind_of_ret hmark₁).trans (check_of_ne hstage hok), hmem⟩

/-- **A missing image** leaves the flash as it was exactly when no erase is asked for, or the
region has more sectors than the erase accepts, or the driver is not started, or every sector
of the region is erased already.

The erase is made before the file is opened, so that a call which can only fail has its effect
first.  The four alternatives are the ways in which this erase does nothing, in the order in
which the code comes to them.  In each case the call fails, and with the device of the
hypotheses it returns. -/
theorem missing_image_iff (hp : p.FaultFree) (hbusy : ∀ n, p.busy n < env.rounds)
    (hwip : w.bus.wip < env.rounds) (herror : w.errorCount = 0) (call : ProgramCall)
    (hopen : ∀ i, env.fopen i w.flashData.pathname = none) :
    (∃ w', call.run env w = (.ret .failure, w') ∧ ∀ x, w'.bus.mem x = w.bus.mem x) ↔
      call.erase = 0 ∨
      numbSectors < sectorsToErase w.flashData (call.eraseFrom w.flashData) ∨
      w.bus.started = false ∨
      ∀ i < (sectorsToErase w.flashData (call.eraseFrom w.flashData)).toNat, ∀ x,
        InBlock 0x10000 (sectorAt (call.eraseFrom w.flashData) i) x → w.bus.mem x = 0xFF := by
  obtain ⟨w', hrun, hmem⟩ := call.run_missing hp hbusy hwip herror hopen
  have hsame : (∃ w'', call.run env w = (.ret .failure, w'') ∧ ∀ x, w''.bus.mem x = w.bus.mem x) ↔
      erasedIfStarted call w.flashData w.bus = w.bus.mem := by
    constructor
    · rintro ⟨w'', hrun'', hmem''⟩
      obtain ⟨-, rfl⟩ := Prod.mk.inj (hrun.symm.trans hrun'')
      rw [← hmem]
      exact funext hmem''
    · intro h
      exact ⟨w', hrun, fun x => by rw [hmem, h]⟩
  rw [hsame]
  unfold erasedIfStarted
  split_ifs with hno
  · exact iff_of_true rfl (.inr (hno.imp id .inl))
  · obtain ⟨hcount, hstarted⟩ := not_or.mp hno
    unfold erased
    split_ifs with he
    · exact iff_of_true rfl (.inl he)
    · rw [eraseBlocks_eq_self_iff]
      exact ⟨fun h => .inr (.inr (.inr h)), fun h =>
        ((h.resolve_left he).resolve_left hcount).resolve_left hstarted⟩

end Missing

/-- An erased region has nothing to lose. -/
theorem missing_image_erased :
    ∃ w', (ProgramCall.timer 2 1).run (.plain none 0) (World.selected .timer2 fun _ => 0xFF) =
        (.ret .failure, w') ∧ ∀ x, w'.bus.mem x = 0xFF :=
  (missing_image_iff (w := World.selected .timer2 fun _ => 0xFF) NorParams.swift_faultFree
    (swift_busy none 0) Nat.one_pos rfl (.timer 2 1) fun _ => rfl).mpr
    (.inr (.inr (.inr fun _ _ _ _ => rfl)))

/-- An installed image is erased although its replacement is missing.  All cells are zero
before the call, and those of the region are not afterwards. -/
theorem missing_image_counterexample :
    ¬ ∃ w', (ProgramCall.timer 2 1).run (.plain none 0) (World.selected .timer2 fun _ => 0) =
        (.ret .failure, w') ∧ ∀ x, w'.bus.mem x = 0 := by
  rintro ⟨w'', hrun'', hmem''⟩
  obtain ⟨w', hrun, hmem⟩ := (ProgramCall.timer 2 1).run_missing
    (w := World.selected .timer2 fun _ => 0) NorParams.swift_faultFree (swift_busy none 0)
    Nat.one_pos rfl fun _ => rfl
  obtain ⟨-, rfl⟩ := Prod.mk.inj (hrun.symm.trans hrun'')
  have hprograms : Programs (.timer 2 1) .timer2 := .timer2 2 1
  have hcell : w'.bus.mem 0x0FFC0000 = 0xFF := by
    rw [hmem, erasedIfStarted, if_neg (by decide)]
    exact hprograms.erased_of_mem (by decide) (Set.mem_Ico.mpr (by decide))
  rw [hmem''] at hcell
  exact absurd hcell (by decide)

end Kiflash
