import Kiflash.Talks

/-!
# What a run of the image functions can touch

Above the command functions the code opens files, takes page buffers from the heap and stores
into `FlashData.percentage`.  `Reports A E w w'` is the frame of that layer: the bus sees only
frames of `A`, of `FlashData` only the percentage moves, and the events recorded between `w`
and `w'` are in `E`.

* `wp_imageFile` — the common part of the four image functions, reduced to its page loop.
* `wp_pageLoop` — the page loop, with an invariant on the pages left.
* `Emits`, `Reports` — the frame, and its parts that only concern the record.
* `_reports` theorems from a single page up to `ProgramCall.run`, for given frames and events;
  the `_moves` theorems are the same for any.
* `icap_reports`, `wp_kiflashInit`, `wp_kiflashProgramUser` — the entry points above.

### The page loop

`wp_pageLoop` is the induction on the pages that the image functions share.  Its invariant `I`
is indexed by the number of pages left, so that `I totalPage` is what holds before the loop
and `I 0` what holds behind it.  `PageLoop.Left` says what the loop's own variables are when
`n` pages are left: the start address is a multiple of the page size, computed in 32 bits as
the code does it.

A page that fails ends the loop with a failure and without the rest of the image function.
The rule asks for the postcondition at that point, and the statements about failures get their
way out from it.

### Why the events are a parameter

The statements that use this frame ask for different events: that no register outside the SPI
core is written before the verification, that the percentage stays below its last value until
the end, that nothing is recorded but frames.  `E` is in each case the set of the events that
are allowed; the hypotheses `Admits A E` and `.percentage … ∈ E` are the membership of those
which the function can record.  The percentages that a progress report stores are known
(`reported`), so a bound on them is a condition on the number of pages.
-/

open Imperative Imperative.Prog

namespace Kiflash

section Rules

variable {σ : Type} [XSpiDriver σ] {env : Env} {w : World σ}

/-- An image function: the file is missing, or something before the page loop ends the call,
or the page loop runs.  Before the loop only status frames are sent.

The two early ways out leave the stream open: neither of them reaches `fclose`. -/
theorem wp_imageFile {filename : String} {report : UInt32 → PageLoop → Prog (World σ) Unit}
    {page : File → UInt32 → Prog (World σ) Xst} {finish : Prog (World σ) Unit}
    {Q : Xst → World σ → Prop} {R : Stop → World σ → Prop}
    (missing : env.fopen w.fopens filename = none → Q .failure (w.opened none))
    (early : ∀ file w₁, env.fopen w.fopens filename = some file →
      Talks statusFrames (w.opened (some file)) w₁ → Q .failure w₁ ∧ ∀ why, R why w₁)
    (run : ∀ file w₁, env.fopen w.fopens filename = some file →
      Talks statusFrames (w.opened (some file)) w₁ →
      wp (pageLoop report (page file) (pageCount file.ftell))
        (fun status w₂ =>
          (status = .success →
            wp finish (fun _ w₃ => Q .success { w₃ with streams := w₃.streams - 1 }) R w₂) ∧
          (status ≠ .success → Q .failure w₂)) R w₁) :
    wp (imageFile env filename report page finish) Q R w := by
  refine wp_bind.mpr ?_
  rcases hfile : env.fopen w.fopens filename with _ | file
  · rw [wp_of_ret (show fopen env filename w = (.ret none, w.opened none) by rw [fopen, hfile])]
    exact missing hfile
  rw [wp_of_ret (show fopen env filename w = (.ret (some file), w.opened (some file)) by
    rw [fopen, hfile])]
  -- every way out in front of the loop is behind status frames only
  have failed : ∀ w₂, Talks statusFrames (w.opened (some file)) w₂ → Q .failure w₂ :=
    fun w₂ h₂ => (early file w₂ hfile h₂).1
  have stopped : ∀ why w₂, Talks statusFrames (w.opened (some file)) w₂ → R why w₂ :=
    fun why w₂ h₂ => (early file w₂ hfile h₂).2 why
  refine wp_check_along (refl_of _ _) (ensureInit_talks subset_rfl _) (fun w₁ _ h₁ => ?_) failed
    stopped
  refine wp_check_along h₁ (callDriver_talks (.setSlaveSelect _) w₁) (fun w₂ _ h₂ => ?_) failed
    stopped
  refine wp_bind_along h₂ (callDriver_talks .start w₂) (fun _ w₃ _ h₃ => ?_) stopped
  refine wp_check_along h₃ (spiFlashWriteEnable_talks subset_rfl w₃) (fun w₄ _ h₄ => ?_) failed
    stopped
  refine wp_check.mpr (wp_mono (run file w₄ hfile h₄) (fun status w₅ h₅ => ?_) fun _ _ h => h)
  exact ⟨fun hok => wp_bind.mpr (wp_mono (h₅.1 hok) (fun _ w₆ h₆ => h₆) fun _ _ h => h), h₅.2⟩

/-- The variables of the page loop when `n` of `totalPage` pages are left.  The addresses are
32-bit numbers and may wrap; `startAddr` says what they are then. -/
structure PageLoop.Left (totalPage : UInt32) (n : ℕ) (it : PageLoop) : Prop where
  le : n ≤ totalPage.toNat
  noOfPage : it.noOfPage.toNat = n
  startAddr : it.startAddr = UInt32.ofNat (256 * (totalPage.toNat - n))

/-- A round of the loop takes one page off.  The other fields follow from how many are
left. -/
theorem PageLoop.Left.next {totalPage : UInt32} {n : ℕ} {it : PageLoop}
    (h : it.Left totalPage (n + 1)) : (it.next totalPage).Left totalPage n where
  le := Nat.le_of_succ_le h.le
  noOfPage := by
    have hn := h.noOfPage
    rw [PageLoop.next, UInt32.toNat_sub_of_le _ _ (by rw [UInt32.le_iff_toNat_le, hn]; simp), hn]
    rfl
  startAddr := by
    have hle := h.le
    rw [PageLoop.next, h.startAddr, pageSize]
    refine UInt32.toNat_inj.mp ?_
    rw [UInt32.toNat_add, UInt32.toNat_ofNat', UInt32.toNat_ofNat']
    simp only [UInt32.reduceToNat]
    omega

omit [XSpiDriver σ] in
/-- The page loop, with an invariant on the number of pages left.  The hypothesis `step` gives
the reports of the round, then its page, and behind the page either the invariant with one
page fewer or the postcondition of a failure. -/
theorem wp_pageLoop {report : UInt32 → PageLoop → Prog (World σ) Unit}
    {page : UInt32 → Prog (World σ) Xst} {totalPage : UInt32}
    {Q : Xst → World σ → Prop} {R : Stop → World σ → Prop} (I : ℕ → World σ → Prop)
    (start : I totalPage.toNat w)
    (step : ∀ n it w, it.Left totalPage (n + 1) → I (n + 1) w →
      wp (report totalPage it)
        (fun _ w' => wp (page (UInt32.ofNat (256 * (totalPage.toNat - (n + 1)))))
          (fun status w'' => (status = .success → I n w'') ∧
            (status ≠ .success → Q .failure w'')) R w') R w)
    (done : ∀ w, I 0 w → Q .success w) :
    wp (pageLoop report page totalPage) Q R w := by
  refine wp_checkLoop (fun n it w => it.Left totalPage n ∧ I n w) (fun n it w h => ?_)
    (fun it w h => done w h.2) _ _ w ⟨⟨le_rfl, rfl, by simp⟩, start⟩
  refine wp_bind.mpr (wp_mono (step n it w h.1 h.2) (fun _ w₁ h₁ => ?_) fun _ _ h => h)
  rw [h.1.startAddr]
  exact wp_mono h₁ (fun status w₂ h₂ => ⟨fun hok => ⟨h.1.next, h₂.1 hok⟩, h₂.2⟩) fun _ _ h => h

end Rules

/-! ## The frame -/

/-- A run that records events of `E` only.  As a relation between states it is reflexive and
transitive, so it composes along every program. -/
def Emits {σ : Type} (E : Set (Event σ)) (w w' : World σ) : Prop :=
  ∃ es, w'.events = w.events ++ es ∧ ∀ e ∈ es, e ∈ E

/-- A run that sends frames of `A`, changes of `FlashData` only the percentage, opens no
PCI device, and has its events in `E`. -/
structure Reports {σ : Type} [XSpiDriver σ] (A : Set (List UInt8)) (E : Set (Event σ))
    (w w' : World σ) : Prop where
  bus : Relation.ReflTransGen (BusStep A) w.bus w'.bus
  flashData : w'.flashData = { w.flashData with percentage := w'.flashData.percentage }
  qspiInitFlag : w.qspiInitFlag = true → w'.qspiInitFlag = true
  pciFds : w'.pciFds = w.pciFds
  emits : Emits E w w'

section Frame

variable {σ : Type} {env : Env} {E E' : Set (Event σ)} {w w' : World σ}

instance : IsPreorder (World σ) (Emits E) where
  refl w := ⟨[], by simp, by simp⟩
  trans w₁ w₂ w₃ h h' := by
    obtain ⟨es, hes, hE⟩ := h
    obtain ⟨es', hes', hE'⟩ := h'
    refine ⟨es ++ es', by rw [hes', hes, List.append_assoc], fun e he => ?_⟩
    exact (List.mem_append.mp he).elim (hE e) (hE' e)

theorem Emits.of_eq (h : w'.events = w.events) : Emits E w w' := ⟨[], by simp [h], by simp⟩

theorem Emits.of_mem {e : Event σ} (h : w'.events = w.events ++ [e]) (he : e ∈ E) :
    Emits E w w' := ⟨[e], h, by simpa using he⟩

/-- More events may be allowed than occur. -/
theorem Emits.mono (h : Emits E w w') (hE : E ⊆ E') : Emits E' w w' :=
  h.imp fun _ h => ⟨h.1, fun e he => hE (h.2 e he)⟩

/-- The record only grows. -/
theorem Emits.grows (h : Emits E w w') : w.events <+: w'.events := by
  obtain ⟨es, hes, -⟩ := h
  exact ⟨es, hes.symm⟩

/-- The events of the run, as the statements see them. -/
theorem Emits.mem_newEvents (h : Emits E w w') {e : Event σ} (he : e ∈ newEvents w w') : e ∈ E := by
  obtain ⟨es, hes, hE⟩ := h
  rw [newEvents_of_eq hes] at he
  exact hE e he

/-- An event of the last part of a run is an event of the run. -/
theorem Emits.mem_newEvents_right {w'' : World σ} (h : Emits E w w') (h' : Emits E' w' w'')
    {e : Event σ} (he : e ∈ newEvents w' w'') : e ∈ newEvents w w'' := by
  obtain ⟨es, hes, -⟩ := h
  obtain ⟨es', hes', -⟩ := h'
  rw [newEvents_of_eq hes'] at he
  rw [newEvents, hes', hes, List.append_assoc, List.drop_left]
  exact List.mem_append_right es he

/-- Every transfer is among the events allowed.  The sets that speak about percentages or
register writes are of this kind. -/
def Transfers (E : Set (Event σ)) : Prop := ∀ before frame status, .transfer before frame status ∈ E

/-- Every transfer of a frame in `A` is.  The state in front of it and its status are left
open. -/
def Admits (A : Set (List UInt8)) (E : Set (Event σ)) : Prop :=
  ∀ before frame status, frame ∈ A → .transfer before frame status ∈ E

theorem Transfers.admits {A : Set (List UInt8)} (h : Transfers E) : Admits A E :=
  fun before frame status _ => h before frame status

theorem transfers_univ : Transfers (Set.univ : Set (Event σ)) := fun _ _ _ => trivial

/-- The events of a run that does not write outside the SPI core.  All of the code but `icap`
runs so. -/
def noPciWrite : Set (Event σ) := {e | ∀ before address data, e ≠ .pciWrite before address data}

theorem transfers_noPciWrite : Transfers (noPciWrite : Set (Event σ)) :=
  fun _ _ _ _ _ _ h => nomatch h

theorem percentage_noPciWrite (value : UInt32) :
    (.percentage value : Event σ) ∈ (noPciWrite : Set (Event σ)) := fun _ _ _ h => nomatch h

theorem verifyPassed_noPciWrite : (.verifyPassed : Event σ) ∈ (noPciWrite : Set (Event σ)) :=
  fun _ _ _ h => nomatch h

/-- The events of a checked step: the second part counts behind a success only. -/
theorem check_emits {m k : Prog (World σ) Xst} (hm : Emits E w (m w).2)
    (hk : ∀ w₁, m w = (.ret .success, w₁) → Emits E w₁ (k w₁).2) :
    Emits E w (check m k w).2 := by
  refine wp_state_iff.mp (wp_check.mpr ?_)
  rcases hrun : m w with ⟨status | why, w₁⟩ <;> rw [hrun] at hm
  · refine (wp_of_ret hrun).mpr ⟨fun hok => ?_, fun _ => hm⟩
    subst hok
    exact wp_state_iff.mpr (trans_of _ hm (hk w₁ hrun))
  · exact (wp_of_stop hrun).mpr hm

variable (env) in
/-- A store to the percentage changes nothing but the percentage and the record. -/
theorem setPercentage_eq (value : UInt32) (w : World σ) :
    ∃ percentage events, setPercentage env value w =
      (.ret (), { w with flashData := { w.flashData with percentage }, events }) := by
  unfold setPercentage
  split_ifs
  · exact ⟨_, _, rfl⟩
  · exact ⟨w.flashData.percentage, w.events, rfl⟩

variable (env) in
/-- A progress report changes nothing but the percentage and the record. -/
theorem reportProgress_eq (base : ℚ) (totalPage : UInt32) (it : PageLoop) (w : World σ) :
    ∃ percentage events, reportProgress env base totalPage it w =
      (.ret (), { w with flashData := { w.flashData with percentage }, events }) := by
  unfold reportProgress
  split_ifs
  · exact setPercentage_eq env _ w
  · exact ⟨w.flashData.percentage, w.events, rfl⟩

variable (env) in
/-- The percentages of the stages are no business of the bus. -/
theorem mark_eq (call : ProgramCall) (value : UInt32) (w : World σ) :
    ∃ percentage events, call.mark env value w =
      (.ret (), { w with flashData := { w.flashData with percentage }, events }) := by
  cases call with
  | user => exact setPercentage_eq env value w
  | golden | timer => exact ⟨w.flashData.percentage, w.events, rfl⟩

/-- A mark leaves the bus, the heap and the target of the call alone. -/
theorem mark_frame {call : ProgramCall} {value : UInt32} (h : call.mark env value w = (.ret (), w')) :
    w'.bus = w.bus ∧ w'.mallocs = w.mallocs ∧
      w'.flashData = { w.flashData with percentage := w'.flashData.percentage } := by
  obtain ⟨percentage, events, heq⟩ := mark_eq env call value w
  rw [heq] at h
  cases h
  exact ⟨rfl, rfl, rfl⟩

/-- The percentages that the progress reports of an image function can store.  Programming
starts from 20, verification from 60, and each goes up by at most 40. -/
def reported (base : ℚ) (totalPage noOfPage : UInt32) : UInt32 :=
  doubleToU32 (base + curPercentage totalPage noOfPage * 40 / 100)

variable [XSpiDriver σ] {A : Set (List UInt8)}

instance : IsPreorder (World σ) (Reports A E) where
  refl w := ⟨.refl, rfl, id, rfl, refl_of _ w⟩
  trans w₁ w₂ w₃ h h' := ⟨h.bus.trans h'.bus, by rw [h'.flashData, h.flashData],
    h'.qspiInitFlag ∘ h.qspiInitFlag, h'.pciFds.trans h.pciFds, trans_of _ h.emits h'.emits⟩

/-- The fields of `FlashData` other than the percentage.  A programming call works on the
region that was selected when it began. -/
theorem Reports.target (h : Reports A E w w') :
    w'.flashData.baseAddr = w.flashData.baseAddr ∧
      w'.flashData.eraseStartAddr = w.flashData.eraseStartAddr ∧
      w'.flashData.eraseEndAddr = w.flashData.eraseEndAddr ∧
      w'.flashData.pathname = w.flashData.pathname := by
  rw [h.flashData]
  exact ⟨rfl, rfl, rfl, rfl⟩

/-- Changes that leave the bus, `FlashData`, the flag, the descriptors and the events
alone. -/
theorem Reports.of_eq (bus : w'.bus = w.bus) (flashData : w'.flashData = w.flashData)
    (qspiInitFlag : w'.qspiInitFlag = w.qspiInitFlag) (pciFds : w'.pciFds = w.pciFds)
    (events : w'.events = w.events) : Reports A E w w' :=
  ⟨by rw [bus], by rw [flashData], by rw [qspiInitFlag]; exact id, pciFds, .of_eq events⟩

theorem emit_reports {e : Event σ} (he : e ∈ E) : Moves (Reports A E) (emit e) :=
  moves_modify fun _ => ⟨.refl, rfl, id, rfl, .of_mem rfl he⟩

theorem setPercentage_reports {value : UInt32} (h : .percentage value ∈ E) :
    Moves (Reports A E) (setPercentage env value) :=
  Moves.ite (moves_modify fun _ => ⟨.refl, rfl, id, rfl, .of_mem rfl h⟩) (moves_pure _)

theorem mark_reports {call : ProgramCall} {value : UInt32} (h : .percentage value ∈ E) :
    Moves (Reports A E) (call.mark env value) := by
  cases call with
  | user => exact setPercentage_reports h
  | golden | timer => exact moves_pure _

theorem Talks.emits (hE : Admits A E) (h : Talks A w w') : Emits E w w' := by
  obtain ⟨es, hes, hA⟩ := h.events
  refine ⟨es, hes, fun e he => ?_⟩
  cases e with
  | transfer before frame status => exact hE before frame status (hA _ he)
  | _ => exact (hA _ he).elim

/-- A run of commands is one of the image layer, if its transfers may be recorded. -/
theorem Talks.reports (hE : Admits A E) (h : Talks A w w') : Reports A E w w' :=
  ⟨h.bus, by rw [h.flashData], h.qspiInitFlag, h.pciFds, h.emits hE⟩

variable (hA : housekeeping ⊆ A) (hE : Admits A E)
include hA hE

/-- One page of `qspi_program_bin`: the buffer is filled from the file, and sent with the page
program.  The frame has to be in `A` for every buffer, as the end of a page may be
anything. -/
theorem programPage_reports {baseStartAddr startAddr : UInt32} {file : File}
    (hframe : ∀ buffer, command4bytePageProgram :: addrBytes (startAddr + baseStartAddr) ++
      bytesOf (fread file startAddr buffer) 256 ∈ A) :
    Moves (Reports A E) (programPage (σ := σ) env baseStartAddr file startAddr) := by
  intro w
  have opened : Reports A E w { w with mallocs := w.mallocs + 1 } := .of_eq rfl rfl rfl rfl rfl
  have talks : Moves (Talks A) (check (spiFlashWriteEnable (σ := σ) env)
      (spiFlashWriteFile env (startAddr + baseStartAddr) pageSize command4bytePageProgram
        (fread file startAddr (env.malloc w.mallocs)))) := by
    refine (spiFlashWriteEnable_talks (statusFrames_subset.trans hA)).check
      (spiFlashWriteFile_talks hA ?_)
    have hsize : (pageSize + readWriteExtraBytes + 1).toNat = 261 := by decide
    rw [hsize, List.take_of_length_le]
    · exact hframe _
    · rw [List.length_append, List.length_cons, addrBytes_length, bytesOf_length]
  exact trans_of _ opened ((talks _).reports hE)

/-- One page of `qspi_verify_bin`: the read and the comparison. -/
theorem verifyPage_reports {baseStartAddr startAddr : UInt32} {file : File}
    (hread : Says A command4byteQuadOutputFastRead) :
    Moves (Reports A E) (verifyPage (σ := σ) env baseStartAddr file startAddr) := by
  refine Moves.bind (fun w => .of_eq rfl rfl rfl rfl rfl) fun buffer => ?_
  refine Moves.check
    ((spiFlashWriteEnable_talks (statusFrames_subset.trans hA)).mono fun _ _ => Talks.reports hE)
    (Moves.bind (moves_modify fun _ => .of_eq rfl rfl rfl rfl rfl) fun _ =>
      Moves.check ((spiFlashRead_talks hA hread).mono fun _ _ => Talks.reports hE) ?_)
  exact (moves_gets _).bind fun _ => (moves_pure _).ite (moves_pure _)

omit hA hE in
theorem reportProgress_reports {base : ℚ} {totalPage : UInt32} {it : PageLoop}
    (h : .percentage (reported base totalPage it.noOfPage) ∈ E) :
    Moves (Reports A E) (reportProgress (σ := σ) env base totalPage it) :=
  Moves.ite (setPercentage_reports h) (moves_pure _)

omit hA hE in
/-- The page loop.  The page with index `j` is called with the address `256 * j`, and the
reports see a positive number of pages that is at most the total. -/
theorem pageLoop_reports {report : UInt32 → PageLoop → Prog (World σ) Unit}
    {page : UInt32 → Prog (World σ) Xst} {totalPage : UInt32}
    (hpage : ∀ j < totalPage.toNat, Moves (Reports A E) (page (UInt32.ofNat (256 * j))))
    (hreport : ∀ it : PageLoop, 0 < it.noOfPage → it.noOfPage ≤ totalPage →
      Moves (Reports A E) (report totalPage it)) :
    Moves (Reports A E) (pageLoop report page totalPage) := by
  intro w
  refine wp_state_iff.mp (wp_pageLoop (fun n w' => n ≤ totalPage.toNat ∧ Reports A E w w')
    ⟨le_rfl, refl_of _ w⟩ (fun n it w₁ hit h₁ => ?_) fun w₁ h₁ => h₁.2)
  obtain ⟨hle, h₁⟩ := h₁
  have hpos : 0 < it.noOfPage := by
    rw [UInt32.lt_iff_toNat_lt, hit.noOfPage]
    exact Nat.succ_pos n
  have hle' : it.noOfPage ≤ totalPage := by
    rw [UInt32.le_iff_toNat_le, hit.noOfPage]
    exact hit.le
  refine wp_mono ((hreport it hpos hle').wp w₁) (fun _ w₂ h₂ => ?_) fun _ w₂ h₂ => trans_of _ h₁ h₂
  refine wp_mono ((hpage _ (by omega)).wp w₂) (fun status w₃ h₃ => ?_) fun _ w₃ h₃ =>
    trans_of _ h₁ (trans_of _ h₂ h₃)
  exact ⟨fun _ => ⟨by omega, trans_of _ h₁ (trans_of _ h₂ h₃)⟩,
    fun _ => trans_of _ h₁ (trans_of _ h₂ h₃)⟩

/-- An image function, from the reports of its pages and those at the head of its rounds.  The
hypotheses are on the file that is found; with none there is nothing to show. -/
theorem imageFile_reports {filename : String} {report : UInt32 → PageLoop → Prog (World σ) Unit}
    {page : File → UInt32 → Prog (World σ) Xst} {finish : Prog (World σ) Unit}
    (hpage : ∀ i file, env.fopen i filename = some file → ∀ j < (pageCount file.ftell).toNat,
      Moves (Reports A E) (page file (UInt32.ofNat (256 * j))))
    (hreport : ∀ i file, env.fopen i filename = some file → ∀ it : PageLoop, 0 < it.noOfPage →
      it.noOfPage ≤ pageCount file.ftell →
      Moves (Reports A E) (report (pageCount file.ftell) it))
    (hfinish : Moves (Reports A E) finish) :
    Moves (Reports A E) (imageFile env filename report page finish) := by
  intro w
  have opened : ∀ answer, Reports A E w (w.opened answer) := fun _ => .of_eq rfl rfl rfl rfl rfl
  have talked : ∀ {file w₁}, Talks statusFrames (w.opened (some file)) w₁ → Reports A E w w₁ :=
    fun h => trans_of _ (opened _) ((h.mono (statusFrames_subset.trans hA)).reports hE)
  refine wp_state_iff.mp (wp_imageFile (fun _ => opened none)
    (fun file w₁ _ h₁ => ⟨talked h₁, fun _ => talked h₁⟩) fun file w₁ hfile h₁ => ?_)
  have h₁ := talked h₁
  refine wp_mono ((pageLoop_reports (hpage _ file hfile) (hreport _ file hfile)).wp w₁)
    (fun status w₂ h₂ => ?_) fun _ w₂ h₂ => trans_of _ h₁ h₂
  have h₂ := trans_of _ h₁ h₂
  refine ⟨fun _ => wp_mono (hfinish.wp w₂) (fun _ w₃ h₃ => ?_) fun _ w₃ h₃ => trans_of _ h₂ h₃,
    fun _ => h₂⟩
  have closed : Reports A E w₃ { w₃ with streams := w₃.streams - 1 } := .of_eq rfl rfl rfl rfl rfl
  exact trans_of _ (trans_of _ h₂ h₃) closed

/-- The frames of the page programs of a file at `baseAddr` are in `A`, whatever memory the
page buffers are. -/
def PageFrames (A : Set (List UInt8)) (baseAddr : UInt32) (file : File) : Prop :=
  ∀ j < (pageCount file.ftell).toNat, ∀ buffer,
    command4bytePageProgram :: addrBytes (UInt32.ofNat (256 * j) + baseAddr) ++
      bytesOf (fread file (UInt32.ofNat (256 * j)) buffer) 256 ∈ A

/-- `qspi_program_bin` of the selected image: the page programs of its pages, and the
percentages from 20 on. -/
theorem qspiProgramBin_reports
    (hframes : ∀ i file, env.fopen i w.flashData.pathname = some file →
      PageFrames A w.flashData.baseAddr file)
    (hreport : ∀ i file, env.fopen i w.flashData.pathname = some file → ∀ noOfPage, 0 < noOfPage →
      noOfPage ≤ pageCount file.ftell →
      .percentage (reported 20 (pageCount file.ftell) noOfPage) ∈ E) :
    Reports A E w (qspiProgramBin env w).2 :=
  imageFile_reports hA hE
    (fun i file hfile j hj => programPage_reports hA hE (hframes i file hfile j hj))
    (fun i file hfile _ hpos hle => reportProgress_reports (hreport i file hfile _ hpos hle))
    (moves_pure _) w

/-- The programming of a die reports nothing. -/
theorem qspiProgramFlash_reports {startDie : UInt32}
    (hframes : ∀ i file, env.fopen i dieImageName = some file →
      PageFrames A (startDie <<< 26) file) :
    Reports A E w (qspiProgramFlash env startDie w).2 :=
  imageFile_reports hA hE
    (fun i file hfile j hj => programPage_reports hA hE (hframes i file hfile j hj))
    (fun _ _ _ _ _ _ => moves_pure _) (moves_pure _) w

/-- `qspi_verify_bin`: reads, the percentages from 60 on, and the mark of a verification that
passed. -/
theorem qspiVerifyBin_reports (hread : Says A command4byteQuadOutputFastRead)
    (hreport : ∀ i file, env.fopen i w.flashData.pathname = some file → ∀ noOfPage, 0 < noOfPage →
      noOfPage ≤ pageCount file.ftell →
      .percentage (reported 60 (pageCount file.ftell) noOfPage) ∈ E)
    (hpassed : .verifyPassed ∈ E) : Reports A E w (qspiVerifyBin env w).2 :=
  imageFile_reports hA hE (fun _ _ _ _ _ => verifyPage_reports hA hE hread)
    (fun i file hfile _ hpos hle => reportProgress_reports (hreport i file hfile _ hpos hle))
    (emit_reports hpassed) w

/-- The frames of the sector erases of the stage are in `A`.  They follow from the region
alone. -/
def SectorFrames (A : Set (List UInt8)) (data : FlashData) (eraseFrom : UInt32) : Prop :=
  ∀ i < (sectorsToErase data eraseFrom).toNat,
    commandSectorErase :: addrBytes (eraseFrom + UInt32.ofNat (65536 * i)) ∈ A

/-- The erase stage sends the sector erases of the call, and those only if the call asks for
erasing at all. -/
theorem eraseStage_reports {call : ProgramCall}
    (hframes : call.erase ≠ 0 → SectorFrames A w.flashData (call.eraseFrom w.flashData))
    (hmark : .percentage 20 ∈ E) :
    Reports A E w (eraseStage env (call.mark env) call.eraseFrom call.erase w).2 := by
  refine wp_state_iff.mp (wp_ite.mpr ⟨fun he => wp_bind.mpr (wp_gets.mpr (wp_bind.mpr ?_)),
    fun _ => refl_of _ w⟩)
  have talks : Moves (Talks A) (qspiEraseSectorFlash (σ := σ) env _ _) :=
    qspiEraseSectorFlash_talks hA (hframes he)
  have erase := talks.mono fun _ _ => Talks.reports hE
  refine wp_mono (erase.wp w) (fun status w₁ h₁ => ?_) fun _ _ h => h
  exact wp_bind_along h₁ (mark_reports hmark w₁) (fun _ _ _ h => h) fun _ _ h => h

/-- A programming call as a whole.  The frames of the three stages are asked for separately,
each for the file and the region that the call finds. -/
theorem ProgramCall.run_reports {call : ProgramCall}
    (hsectors : call.erase ≠ 0 → SectorFrames A w.flashData (call.eraseFrom w.flashData))
    (hframes : ∀ i file, env.fopen i w.flashData.pathname = some file →
      PageFrames A w.flashData.baseAddr file)
    (hread : Says A command4byteQuadOutputFastRead)
    (hpercentage : ∀ value, .percentage value ∈ E) (hpassed : .verifyPassed ∈ E) :
    Reports A E w (call.run env w).2 := by
  rw [call.run_eq]
  have mark : ∀ value, Moves (Reports A E) (call.mark env value) :=
    fun value => mark_reports (hpercentage value)
  have failed : ∀ w', Reports A E w w' → Reports A E w w' := fun _ h => h
  have stopped : ∀ (_ : Stop) w', Reports A E w w' → Reports A E w w' := fun _ _ h => h
  -- one stage after the other, each from a state that `Reports` relates to the first
  refine wp_state_iff.mp (wp_bind_along (refl_of _ w) (mark 1 w) (fun _ w₁ _ h₁ => ?_) stopped)
  refine wp_check_along h₁ (eraseStage_reports hA hE (fun he => ?_) (hpercentage 20))
    (fun w₂ _ h₂ => ?_) failed stopped
  · rw [h₁.flashData]
    cases call <;> exact hsectors he
  refine wp_bind_along h₂ (mark 20 w₂) (fun _ w₃ _ h₃ => ?_) stopped
  refine wp_check_along h₃ (qspiProgramBin_reports hA hE ?_ fun _ _ _ _ _ _ => hpercentage _)
    (fun w₄ _ h₄ => ?_) failed stopped
  · rw [h₃.target.1, h₃.target.2.2.2]
    exact hframes
  refine wp_bind_along h₄ (mark 60 w₄) (fun _ w₅ _ h₅ => ?_) stopped
  refine wp_check_along h₅ (qspiVerifyBin_reports hA hE hread (fun _ _ _ _ _ _ => hpercentage _)
    hpassed) (fun w₆ _ h₆ => ?_) failed stopped
  exact wp_bind_along h₆ (mark 100 w₆) (fun _ _ _ h => h) stopped

end Frame

/-! ## Any run

Whatever their frames and events, the parts of a programming call leave the target alone. -/

section Any

variable {σ : Type} {env : Env}

variable [XSpiDriver σ]

theorem setPercentage_moves {value : UInt32} :
    Moves (Reports Set.univ Set.univ) (setPercentage (σ := σ) env value) :=
  setPercentage_reports trivial

theorem mark_moves {call : ProgramCall} {value : UInt32} :
    Moves (Reports Set.univ Set.univ) (call.mark (σ := σ) env value) :=
  mark_reports trivial

theorem eraseStage_moves {call : ProgramCall} : Moves (Reports Set.univ Set.univ)
    (eraseStage (σ := σ) env (call.mark env) call.eraseFrom call.erase) := fun _ =>
  eraseStage_reports (Set.subset_univ _) transfers_univ.admits (fun _ _ _ => trivial) trivial

theorem qspiProgramBin_moves :
    Moves (Reports Set.univ Set.univ) (qspiProgramBin (σ := σ) env) := fun _ =>
  qspiProgramBin_reports (Set.subset_univ _) transfers_univ.admits (fun _ _ _ _ _ _ => trivial)
    fun _ _ _ _ _ _ => trivial

theorem qspiVerifyBin_moves :
    Moves (Reports Set.univ Set.univ) (qspiVerifyBin (σ := σ) env) := fun _ =>
  qspiVerifyBin_reports (Set.subset_univ _) transfers_univ.admits (says_univ _)
    (fun _ _ _ _ _ _ => trivial) trivial

theorem ProgramCall.run_moves (call : ProgramCall) :
    Moves (Reports Set.univ Set.univ) (call.run (σ := σ) env) := fun _ =>
  call.run_reports (Set.subset_univ _) transfers_univ.admits (fun _ _ _ => trivial)
    (fun _ _ _ _ _ _ => trivial) (says_univ _) (fun _ => trivial) trivial

end Any

/-! ## The reboot words -/

section Icap

variable {σ : Type} [XSpiDriver σ]

/-- The loop over the reboot words only writes registers. -/
theorem icapWords_eq (words : List UInt64) (w : World σ) :
    ∃ bus events, icapWords words w = (.ret (), { w with bus, events := w.events ++ events }) := by
  induction words generalizing w with
  | nil => exact ⟨w.bus, [], by simp [icapWords, pure]⟩
  | cons word words ih =>
      obtain ⟨bus, events, heq⟩ := ih (pciWriteReg (icapBaseAddr + icapWriteFifo) word w).2
      refine ⟨bus, .pciWrite w.bus (icapBaseAddr + icapWriteFifo) word :: events, ?_⟩
      refine bind_eq_ret.mpr ⟨(), _, rfl, heq.trans ?_⟩
      simp [pciWriteReg, Prog.modify]

/-- Register writes outside the SPI core, each to a bus in a state of `I`.  It says what
`icap` finds where it writes. -/
def pciWritesIn (I : σ → Prop) : Set (Event σ) :=
  {e | ∃ before address data, e = .pciWrite before address data ∧ I before}

/-- A condition on the bus that the register writes keep holds at each of them.  The words go
out one after the other, so the condition is carried from one write to the next. -/
theorem icap_reports {I : σ → Prop}
    (hpci : ∀ address data bus, I bus → I (XSpiDriver.pciWriteReg address data bus))
    (die : UInt32) {w : World σ} (h : I w.bus) :
    ∃ w', icap die w = (.ret .success, w') ∧ I w'.bus ∧ Emits (pciWritesIn I) w w' := by
  have write : ∀ address data {w : World σ}, I w.bus →
      I (pciWriteReg address data w).2.bus ∧
        Emits (pciWritesIn I) w (pciWriteReg address data w).2 :=
    fun address data w h => ⟨hpci _ _ _ h, .of_mem rfl ⟨w.bus, address, data, rfl, h⟩⟩
  have words : ∀ ws {w : World σ}, I w.bus →
      ∃ w', icapWords ws w = (.ret (), w') ∧ I w'.bus ∧ Emits (pciWritesIn I) w w' := by
    intro ws
    induction ws with
    | nil => exact fun h => ⟨_, rfl, h, refl_of _ _⟩
    | cons word ws ih =>
        intro w h
        obtain ⟨h₁, hemits₁⟩ := write (icapBaseAddr + icapWriteFifo) word h
        obtain ⟨w', hrun, h', hemits'⟩ := ih h₁
        exact ⟨w', (bind_of_ret rfl).trans hrun, h', trans_of _ hemits₁ hemits'⟩
  obtain ⟨w₁, hrun, h₁, hemits₁⟩ := words (iprogWords die) h
  obtain ⟨h₂, hemits₂⟩ := write (icapBaseAddr + icapWriteControl) 0x00000001 h₁
  exact ⟨_, (bind_of_ret hrun).trans (bind_of_ret rfl), h₂, trans_of _ hemits₁ hemits₂⟩

/-- `icap` returns success and writes registers. -/
theorem icap_emits {E : Set (Event σ)}
    (hE : ∀ before address data, .pciWrite before address data ∈ E) (die : UInt32) (w : World σ) :
    ∃ w', icap die w = (.ret .success, w') ∧ Emits E w w' := by
  obtain ⟨w', hrun, -, hemits⟩ :=
    icap_reports (I := fun _ => True) (fun _ _ _ _ => trivial) die (w := w) trivial
  refine ⟨w', hrun, hemits.mono ?_⟩
  rintro _ ⟨before, address, data, rfl, -⟩
  exact hE before address data

/-- `icap` returns success, and its first write is the dummy word. -/
theorem icap_eq (die : UInt32) (w : World σ) :
    ∃ bus events, icap die w = (.ret .success, { w with
      bus
      events := w.events ++ .pciWrite w.bus (icapBaseAddr + icapWriteFifo) 0xFFFFFFFF :: events }) := by
  obtain ⟨bus, events, heq⟩ := icapWords_eq (iprogWords die).tail
    (pciWriteReg (icapBaseAddr + icapWriteFifo) 0xFFFFFFFF w).2
  refine ⟨XSpiDriver.pciWriteReg (icapBaseAddr + icapWriteControl) 0x00000001 bus,
    events ++ [.pciWrite bus (icapBaseAddr + icapWriteControl) 0x00000001], ?_⟩
  refine bind_eq_ret.mpr ⟨(), _, bind_eq_ret.mpr ⟨(), _, rfl, heq⟩, ?_⟩
  refine bind_eq_ret.mpr ⟨(), _, rfl, ?_⟩
  simp [pciWriteReg, Prog.modify, pure]

end Icap

/-! ## `kiflash_init` -/

section Init

variable {σ : Type} {env : Env} {w : World σ}

/-- The state after the stores to `FlashData` at the head of `kiflash_init`.  The region is
gone, and the percentage is zero. -/
def World.reset (env : Env) (w : World σ) : World σ :=
  (setPercentage env 0 { w with flashData := w.flashData.initial }).2

/-- The stores at the head of `kiflash_init` change `FlashData` and the record. -/
theorem World.reset_eq (env : Env) (w : World σ) :
    ∃ percentage events, w.reset env =
      { w with flashData := { w.flashData.initial with percentage }, events := w.events ++ events } ∧
      ∀ e ∈ events, e = .percentage 0 := by
  unfold World.reset setPercentage
  split_ifs
  · exact ⟨0, [.percentage 0], rfl, by simp⟩
  · exact ⟨w.flashData.percentage, [], by simp [pure, FlashData.initial], by simp⟩

variable [XSpiDriver σ]

/-- `kiflash_init`: the stores, the device file, and the initialisation.  It leaves the
process when the device cannot be opened. -/
theorem wp_kiflashInit {Q : Xst → World σ → Prop} {R : Stop → World σ → Prop}
    (exit : env.openPci w.pciFds = false → R .exit (w.reset env))
    (run : env.openPci w.pciFds = true →
      wp (ensureInit env)
        (fun status w' => (status = .success → Q .success w') ∧
          (status ≠ .success → Q .failure w')) R { w.reset env with pciFds := w.pciFds + 1 }) :
    wp (kiflashInit env) Q R w := by
  refine wp_bind.mpr (wp_modify.mpr (wp_bind.mpr ?_))
  have hreset : setPercentage env 0 { w with flashData := w.flashData.initial } =
      (.ret (), w.reset env) := by
    unfold World.reset setPercentage
    split_ifs <;> rfl
  have hpciFds : (w.reset env).pciFds = w.pciFds := by
    obtain ⟨percentage, events, heq, -⟩ := w.reset_eq env
    rw [heq]
  refine (wp_of_ret hreset).mpr (wp_bind.mpr (wp_pcimemInit.mpr ⟨fun hopen => ?_, fun hclosed => ?_⟩))
  · rw [hpciFds] at hopen ⊢
    exact wp_check.mpr (run hopen)
  · exact exit (hpciFds ▸ hclosed)

/-- `kiflash_init` in a process that is initialised: nothing reaches the bus.  What is left of
it is to open the chassis device and to store the defaults. -/
theorem kiflashInit_of_flag (hopen : env.openPci w.pciFds = true) (hflag : w.qspiInitFlag = true) :
    kiflashInit env w = (.ret .success, { w.reset env with pciFds := w.pciFds + 1 }) := by
  obtain ⟨percentage, events, hreset, -⟩ := w.reset_eq env
  have hflag' : (w.reset env).qspiInitFlag = true := by rw [hreset]; exact hflag
  have init := ensureInit_of_flag env (w := { w.reset env with pciFds := w.pciFds + 1 }) hflag'
  have hwp : wp (kiflashInit env)
      (fun status w' => status = .success ∧ w' = { w.reset env with pciFds := w.pciFds + 1 })
      (fun _ _ => False) w :=
    wp_kiflashInit (fun hclosed => by simp [hclosed] at hopen) fun _ =>
      (wp_of_ret init).mpr ⟨fun _ => ⟨rfl, rfl⟩, fun hno => absurd rfl hno⟩
  obtain ⟨status, w', hrun, rfl, rfl⟩ := exists_ret_of_wp hwp
  exact hrun

/-- What `kiflash_init` does: housekeeping on the bus, the reset of the percentage, and the
path.  The region is set to zeros, so the caller has to select one. -/
theorem kiflashInit_reports {E : Set (Event σ)} (hE : Admits housekeeping E) (hzero : .percentage 0 ∈ E)
    (w : World σ) :
    wp (kiflashInit env)
      (fun _ w' => Relation.ReflTransGen (BusStep housekeeping) w.bus w'.bus ∧ Emits E w w' ∧
        w'.flashData.path = imagePath)
      (fun _ w' => Relation.ReflTransGen (BusStep housekeeping) w.bus w'.bus ∧ Emits E w w') w := by
  obtain ⟨percentage, events, hreset, hevents⟩ := w.reset_eq env
  have hbus : (w.reset env).bus = w.bus := by rw [hreset]
  have hemits : Emits E w (w.reset env) := by
    rw [hreset]
    exact ⟨events, rfl, fun e he => hevents e he ▸ hzero⟩
  refine wp_kiflashInit (fun _ => ⟨by rw [hbus], hemits⟩) fun _ => ?_
  have hopened : Emits E w { w.reset env with pciFds := w.pciFds + 1 } := hemits
  have talked : ∀ {w₂}, Talks housekeeping { w.reset env with pciFds := w.pciFds + 1 } w₂ →
      Relation.ReflTransGen (BusStep housekeeping) w.bus w₂.bus ∧ Emits E w w₂ := by
    intro w₂ h₂
    have hsteps := h₂.bus
    rw [hbus] at hsteps
    exact ⟨hsteps, trans_of _ hopened (h₂.emits hE)⟩
  refine wp_mono ((ensureInit_talks statusFrames_subset).wp _) (fun status w₂ h₂ => ?_)
    fun _ w₂ h₂ => talked h₂
  have hpath : w₂.flashData.path = imagePath := by
    rw [h₂.flashData, hreset]
    rfl
  obtain ⟨hsteps, hemits₂⟩ := talked h₂
  exact ⟨fun _ => ⟨hsteps, hemits₂, hpath⟩, fun _ => ⟨hsteps, hemits₂, hpath⟩⟩

/-- `kiflash_program_user` by its call of `program_user`, which finds the user region
selected.  What is in front of that call is the same in every argument about a run, and is
dealt with here once. -/
theorem wp_kiflashProgramUser {E : Set (Event σ)} {Q : Xst → World σ → Prop}
    {R : Stop → World σ → Prop} (hE : Admits housekeeping E) (hzero : .percentage 0 ∈ E)
    (dead : ∀ why w₁, Relation.ReflTransGen (BusStep housekeeping) w.bus w₁.bus → Emits E w w₁ →
      R why w₁)
    (run : ∀ w₁, Relation.ReflTransGen (BusStep housekeeping) w.bus w₁.bus → Emits E w w₁ →
      w₁.flashData.pathname = userImagePath → w₁.flashData = w₁.flashData.select .user →
      wp (programUser env 1)
        (fun status w₂ =>
          (status = .success →
            wp (icap 0) (fun _ w₃ => Q .success (setPercentage env 100 w₃).2) R w₂) ∧
          (status ≠ .success → Q .failure w₂)) R w₁) :
    wp (kiflashProgramUser env) Q R w := by
  refine wp_bind.mpr (wp_mono (kiflashInit_reports hE hzero w) (fun _ w₁ h₁ => ?_)
    fun why w₁ h₁ => dead why w₁ h₁.1 h₁.2)
  obtain ⟨hbus, hemits, hpath⟩ := h₁
  refine wp_bind.mpr (wp_modify.mpr (wp_bind.mpr ?_))
  set w₂ : World σ := { w₁ with flashData := w₁.flashData.select .user } with hw₂
  have hselected : Emits E w w₂ := hemits
  have hreset : Reports Set.univ E w₂ (setPercentage env 0 w₂).2 := setPercentage_reports hzero w₂
  obtain ⟨percentage, events, hmark⟩ := setPercentage_eq env 0 w₂
  rw [hmark] at hreset
  refine (wp_of_ret hmark).mpr (wp_check.mpr (wp_mono (run _ hbus (trans_of _ hselected hreset.emits)
    ?_ rfl) (fun status w₃ h₃ => ⟨fun hok => ?_, h₃.2⟩) fun _ _ h => h))
  · change w₁.flashData.path ++ "/" ++ Region.user.imageName = _
    rw [hpath, userImagePath]
  · refine wp_bind.mpr (wp_mono (h₃.1 hok) (fun _ w₄ h₄ => wp_bind.mpr ?_) fun _ _ h => h)
    obtain ⟨_, _, hlast⟩ := setPercentage_eq env 100 w₄
    rw [hlast] at h₄
    exact (wp_of_ret hlast).mpr h₄

/-- `kiflash_icap` in a process that is initialised is the reboot. -/
theorem kiflashIcap_of_flag (die : UInt32) (h : w.qspiInitFlag = true) :
    kiflashIcap env die w = icap die w := by
  change (if w.qspiInitFlag = true then _ else _ : Prog (World σ) Xst) w = _
  rw [if_pos h]
  rfl

/-- In a process that is not, `kiflash_icap` calls `kiflash_init` first, and reboots whatever
that returned. -/
theorem kiflashIcap_of_not_flag (die : UInt32) (h : w.qspiInitFlag = false) :
    kiflashIcap env die w = (kiflashInit env >>= fun _ => icap die) w := by
  change (if w.qspiInitFlag = true then _ else _ : Prog (World σ) Xst) w = _
  rw [if_neg (by rw [h]; exact Bool.false_ne_true)]

end Init

end Kiflash
