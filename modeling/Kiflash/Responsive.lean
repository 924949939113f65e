import Kiflash.Verify

/-!
# When nothing goes wrong

`Responsive` describes a bus on which the driver calls go through: from every state in `Up`, a
transfer succeeds, and polling the status register ends within the rounds that a polling loop
is followed for.  On such a bus every function of the flash code returns, and all but the
verification return success.

* `Serves up m` — total correctness of `m` from the states that are ready.
* one `Serves` theorem for each function, from `spiFlashWaitForFlashReady` up to the erase and
  program stages.
* `qspiVerifyBin_ready` — the verification returns success exactly when the flash holds the
  pages.
* `ProgramCall.run_ready` — a programming call, with what its stages establish of the bus.

### What these theorems are for

The statements on successful calls elsewhere begin with the success and ask what it means.
Here the direction is the other one: the calls return, and what they return is known.  Both
together make the equivalences in which the outcome of a call is a condition on the state
before it.

### The measure of the polling loop

`SpiFlashWaitForFlashReady` has no bound of its own.  `Responsive` asks for a number `polls`
that goes down with every status read that still finds the flash busy, and that is smaller
than the number of rounds to begin with.  For the device models it is the remaining busy time.

### How the results of the stages are passed on

The predicates `E` and `I j` of `ProgramCall.run_ready` are arbitrary.  The programming call
asks only that the erase stage establishes the first and that each programmed page takes `I j`
to `I (j + 1)`; a device model brings its own description of the flash in between.
-/

open Imperative Imperative.Prog

namespace Kiflash

/-- A bus that answers.  `Up` are the states it answers in, and `polls` bounds the status
reads that still find the flash busy.  Nothing is said about what the answers are, but for the
ready bit. -/
structure Responsive {σ : Type} [XSpiDriver σ] (rounds : ℕ) (Up : σ → Prop) (polls : σ → ℕ) :
    Prop where
  fullDuplex : FullDuplex σ
  polls_lt : ∀ {bus}, Up bus → polls bus < rounds
  transfer : ∀ {bus} frame recv, Up bus →
    ∃ stored bus', XSpiDriver.xspiTransfer rounds frame recv bus = (some (.success, stored), bus') ∧
      Up bus'
  status : ∀ {bus b stored bus'}, Up bus →
    XSpiDriver.xspiTransfer rounds [commandStatusregRead, b] true bus =
      (some (.success, stored), bus') →
    ∃ s₀ s₁, stored = [s₀, s₁] ∧ (s₁ &&& flashSrIsReadyMask = 0 ∨ polls bus' < polls bus)
  setSlaveSelect : ∀ {bus}, Up bus →
    ∃ bus', XSpiDriver.xspiSetSlaveSelect spiSelect bus = (.success, bus') ∧ Up bus'
  start : ∀ {bus}, Up bus → Up (XSpiDriver.xspiStart bus).2

/-- No error is pending, and the bus answers.  It is what a function of the flash code needs
to succeed. -/
structure Ready {σ : Type} (Up : σ → Prop) (w : World σ) : Prop where
  bus : Up w.bus
  errorCount : w.errorCount = 0

/-- From every ready state, `m` returns success in a ready state.  Two functions of this kind
make one, so the rules go along the code. -/
def Serves {σ : Type} (Up : σ → Prop) (m : Prog (World σ) Xst) : Prop :=
  ∀ w, Ready Up w → wp m (fun status w' => status = .success ∧ Ready Up w') (fun _ _ => False) w

section Serves

variable {σ : Type} {Up : σ → Prop} {env : Env}

/-- Returning success serves. -/
theorem serves_success : Serves Up (pure .success : Prog (World σ) Xst) := fun _ h => ⟨rfl, h⟩

/-- Two served steps, one behind the other. -/
theorem Serves.check {m k : Prog (World σ) Xst} (hm : Serves Up m) (hk : Serves Up k) :
    Serves Up (check m k) := by
  intro w h
  refine wp_check.mpr (wp_mono (hm w h) (fun status w' h' => ?_) fun _ _ h => h)
  exact ⟨fun _ => hk w' h'.2, fun hno => absurd h'.1 hno⟩

/-- A counted loop over a served body. -/
theorem Serves.checkLoop {ι : Type} {body : ι → Prog (World σ) Xst} {next : ι → ι}
    (h : ∀ i, Serves Up (body i)) : ∀ n i, Serves Up (checkLoop body next n i) := by
  intro n
  induction n with
  | zero => exact fun _ => serves_success
  | succ n ih => exact fun i => (h i).check (ih _)

/-- Dropping the status of a served step. -/
theorem Serves.bind {m : Prog (World σ) Xst} {f : Xst → Prog (World σ) Xst} (hm : Serves Up m)
    (hf : Serves Up (f .success)) : Serves Up (m >>= f) := by
  intro w h
  refine wp_bind.mpr (wp_mono (hm w h) (fun status w' h' => ?_) fun _ _ h => h)
  rw [h'.1]
  exact hf w' h'.2

/-- A served call returns success in a ready state. -/
theorem Serves.exists_ret {m : Prog (World σ) Xst} (hm : Serves Up m) {w : World σ}
    (h : Ready Up w) : ∃ w', m w = (.ret .success, w') ∧ Ready Up w' := by
  obtain ⟨_, w', hw', rfl, hready⟩ := exists_ret_of_wp (hm w h)
  exact ⟨w', hw', hready⟩

variable [XSpiDriver σ] {polls : σ → ℕ} (hr : Responsive env.rounds Up polls)
include hr

/-- A transfer on a bus that answers, by what it stored.  The condition on `inner` is asked
for each answer that the bus may give. -/
theorem wp_command_ready {recv : Bool} {n : ℕ} {inner : Prog (World σ) Xst} {w : World σ}
    {Q : Xst → World σ → Prop} (hn : n ≤ bufferSize) (h : Ready Up w)
    (hinner : ∀ stored bus,
      XSpiDriver.xspiTransfer env.rounds (bytesOf w.writeBuffer n) recv w.bus =
        (some (.success, stored), bus) → Up bus →
      wp inner (fun status w' => status = .success ∧ w'.errorCount = 0 ∧
          Q .success { w' with transferInProgress := false }) (fun _ _ => False)
        { ({ w with transferInProgress := true } : World σ).sent (bytesOf w.writeBuffer n)
            (some .success) bus with
          readBuffer := if recv then overlay w.readBuffer 0 stored else w.readBuffer }) :
    wp (command env recv n inner) Q (fun _ _ => False) w := by
  obtain ⟨stored, bus, htransfer, hup⟩ := hr.transfer (bytesOf w.writeBuffer n) recv h.bus
  have hlen := hr.fullDuplex _ _ _ _ _ _ _ htransfer
  rw [bytesOf_length] at hlen
  refine (wp_command env).mpr (wp_xspiTransfer (fun hlt => absurd hn (Nat.not_le.mpr hlt))
    (fun bus' hx => ?_) (fun status stored' bus' hx hlt => ?_) fun status stored' bus' hx _ => ?_)
  · exact absurd (htransfer.symm.trans hx) (by simp)
  · obtain ⟨⟨⟨⟩, rfl⟩, rfl⟩ := Prod.mk.inj (htransfer.symm.trans hx)
    omega
  · obtain ⟨⟨⟨⟩, rfl⟩, rfl⟩ := Prod.mk.inj (htransfer.symm.trans hx)
    refine ⟨fun _ => wp_mono (hinner stored bus htransfer hup) (fun status w₁ h₁ => ?_)
      fun _ _ h => h, fun hno => absurd rfl hno⟩
    exact ⟨fun _ _ => h₁.2.2, fun _ he => absurd h₁.2.1 he, fun hno => absurd h₁.1 hno⟩

/-- A frame built and sent. -/
theorem send_serves {bs : List UInt8} {recv : Bool} {n : ℕ} {inner : Prog (World σ) Xst}
    (hbs : bs.length ≤ bufferSize) (hn : n ≤ bufferSize) (hinner : Serves Up inner) :
    Serves Up (fillWriteBuffer 0 bs >>= fun _ => command env recv n inner) := by
  intro w h
  rw [wp_bind, wp_of_ret (fillWriteBuffer_eq (by omega))]
  refine wp_command_ready hr hn ⟨h.bus, h.errorCount⟩ fun stored bus _ hup => ?_
  refine wp_mono (hinner _ ⟨hup, h.errorCount⟩) (fun status w₁ h₁ => ?_)
    fun _ _ h => h
  exact ⟨h₁.1, h₁.2.errorCount, rfl, h₁.2.bus, h₁.2.errorCount⟩

/-! ## The command functions -/

/-- One round of the polling loop: it ends the wait, or the measure goes down.  The bus
decides which of the two, and the measure bounds how often it can be the second. -/
theorem waitRound_ready {w : World σ} (h : Ready Up w) :
    wp (waitRound env)
      (fun r w' => Ready Up w' ∧ (r = .inr .success ∨ r = .inl () ∧ polls w'.bus < polls w.bus))
      (fun _ _ => False) w := by
  refine wp_bind.mpr (wp_bind.mpr ?_)
  rw [wp_of_ret (fillWriteBuffer_eq (by decide))]
  refine wp_command_ready hr (by decide) ⟨h.bus, h.errorCount⟩
    fun stored bus htransfer hup => ⟨rfl, h.errorCount, ?_⟩
  have frame : bytesOf (overlay w.writeBuffer 0 [commandStatusregRead]) 2 =
      [commandStatusregRead, w.writeBuffer 1] := bytesOf_overlay_zero _ [commandStatusregRead] 1
  obtain ⟨s₀, s₁, rfl, hs⟩ := hr.status h.bus (frame ▸ htransfer)
  rw [if_pos rfl, wp_bind, wp_gets]
  have hbyte : overlay w.readBuffer 0 [s₀, s₁] 1 = s₁ := rfl
  simp only [if_true, hbyte]
  by_cases hready : s₁ &&& flashSrIsReadyMask = 0
  · rw [if_pos hready]
    exact ⟨⟨hup, h.errorCount⟩, .inl rfl⟩
  · rw [if_neg hready]
    exact ⟨⟨hup, h.errorCount⟩, .inr ⟨rfl, hs.resolve_left hready⟩⟩

/-- The polling loop comes to its end within the rounds.  The induction is on the measure. -/
theorem spiFlashWaitForFlashReady_serves : Serves Up (spiFlashWaitForFlashReady env) := by
  intro w h
  -- the polls left stay below the rounds left
  refine wp_loop (fun n _ w => Ready Up w ∧ polls w.bus < n) (fun n _ w h => ?_)
    (fun _ w h => absurd h.2 (Nat.not_lt_zero _)) _ _ w ⟨h, hr.polls_lt h.bus⟩
  refine wp_mono (waitRound_ready hr h.1) (fun r w' h' => ?_) fun _ _ h => h
  have hlt := h.2
  rcases h' with ⟨hready, rfl | ⟨rfl, hpolls⟩⟩
  · exact ⟨rfl, hready⟩
  · exact ⟨hready, by omega⟩

theorem spiFlashWriteEnable_serves : Serves Up (spiFlashWriteEnable env) :=
  (spiFlashWaitForFlashReady_serves hr).check
    (send_serves hr (by decide) (by decide) serves_success)

theorem enabledCommand_serves {cmd : UInt8} : Serves Up (enabledCommand env cmd) :=
  (spiFlashWriteEnable_serves hr).check <| (spiFlashWaitForFlashReady_serves hr).check
    (send_serves hr (by simp [bufferSize]) (by decide) serves_success)

theorem spiFlash4bytemodeEnable_serves : Serves Up (spiFlash4bytemodeEnable env) :=
  enabledCommand_serves hr

theorem spiFlash4byteexit_serves : Serves Up (spiFlash4byteexit env) := enabledCommand_serves hr

theorem enabledRegisterRead_serves {cmd : UInt8} : Serves Up (enabledRegisterRead env cmd) :=
  (spiFlashWriteEnable_serves hr).check <| (spiFlashWaitForFlashReady_serves hr).check
    (send_serves hr (by simp [bufferSize]) (by decide) serves_success)

theorem getStatus_serves : Serves Up (getStatus env) :=
  Serves.bind (send_serves hr (by decide) (by decide) serves_success) <|
    (enabledRegisterRead_serves hr).bind <|
    Serves.bind ((spiFlashWaitForFlashReady_serves hr).check
      (send_serves hr (by decide) (by decide) serves_success)) serves_success

/-- A page program whose length fits the buffer.  Its steps all serve, from the mode command
to the exit. -/
theorem spiFlashWriteFile_serves {addr byteCount : UInt32} {writeCmd : UInt8}
    {pageBuffer : ℕ → UInt8} (h : (byteCount + readWriteExtraBytes + 1).toNat ≤ bufferSize) :
    Serves Up (spiFlashWriteFile env addr byteCount writeCmd pageBuffer) := by
  rw [spiFlashWriteFile_eq]
  refine (spiFlash4bytemodeEnable_serves hr).check <| (spiFlashWriteEnable_serves hr).check <|
    (spiFlashWaitForFlashReady_serves hr).check <| Serves.check ?_ (spiFlash4byteexit_serves hr)
  intro w hw
  generalize (byteCount + readWriteExtraBytes + 1).toNat = size at h ⊢
  have hbuffer : bufferSize = 265 := rfl
  have hpage : 5 + (bytesOf pageBuffer (size - 5)).length ≤ bufferSize := by
    rw [bytesOf_length]
    omega
  rw [wp_bind, wp_of_ret (fillWriteBuffer_eq (by simp [bufferSize])), wp_bind,
    wp_of_ret (fillWriteBuffer_eq hpage)]
  refine wp_command_ready hr h ⟨hw.bus, hw.errorCount⟩ fun stored bus _ hup => ?_
  exact ⟨rfl, hw.errorCount, rfl, hup, hw.errorCount⟩

theorem spiFlashRead_serves {addr : UInt32} :
    Serves Up (spiFlashRead env addr pageSize command4byteQuadOutputFastRead) := by
  rw [spiFlashRead_eq]
  exact (spiFlash4bytemodeEnable_serves hr).check <| (spiFlashWriteEnable_serves hr).check <|
    (spiFlashWaitForFlashReady_serves hr).check <|
    (send_serves hr (by simp [bufferSize]) (by decide) serves_success).check
      (spiFlash4byteexit_serves hr)

theorem eraseCommand_serves {cmd : UInt8} {addr : UInt32} :
    Serves Up (eraseCommand env cmd addr) :=
  (spiFlashWriteEnable_serves hr).check <| (spiFlashWaitForFlashReady_serves hr).check <|
    send_serves hr (by simp [bufferSize]) (by decide) (getStatus_serves hr)

theorem spiFlashSectorErase_serves {addr : UInt32} : Serves Up (spiFlashSectorErase env addr) :=
  (spiFlash4bytemodeEnable_serves hr).check (eraseCommand_serves hr)

theorem spiFlashDieErase_serves {uscDieNr : UInt32} :
    Serves Up (spiFlashDieErase env uscDieNr) :=
  (spiFlash4bytemodeEnable_serves hr).check <| (enabledRegisterRead_serves hr).check
    (eraseCommand_serves hr)

/-- The quad enable, with its register read in front. -/
theorem spiFlashQuadEnable_serves : Serves Up (spiFlashQuadEnable env) := by
  simp only [spiFlashQuadEnable, bind_check]
  exact (spiFlashWriteEnable_serves hr).check <| (spiFlashWaitForFlashReady_serves hr).check <|
    (send_serves hr (by decide) (by decide) serves_success).check <|
    (spiFlashWaitForFlashReady_serves hr).check
      (send_serves hr (by decide) (by decide) serves_success)

theorem qspiFlashEraseMain_serves {ofsetAddr dieCount : UInt32} :
    Serves Up (qspiFlashEraseMain env ofsetAddr dieCount) :=
  (spiFlashDieErase_serves hr).check ((spiFlashQuadEnable_serves hr).check serves_success)

/-- The erase of any number of sectors that the flash has; the code refuses a larger one. -/
theorem qspiEraseSectorFlash_serves {ofsetAddr sectCount : UInt32} (h : sectCount ≤ numbSectors) :
    Serves Up (qspiEraseSectorFlash env ofsetAddr sectCount) := by
  rw [qspiEraseSectorFlash, if_pos (UInt32.lt_or_eq_of_le h)]
  exact Serves.checkLoop (fun _ => spiFlashSectorErase_serves hr) _ _

/-! ## The image functions -/

/-- An image function that finds its file, on a bus that answers.  Everything in front of the
page loop succeeds. -/
theorem wp_imageFile_ready {filename : String}
    {report : UInt32 → PageLoop → Prog (World σ) Unit} {page : File → UInt32 → Prog (World σ) Xst}
    {finish : Prog (World σ) Unit} {file : File} {Q : Xst → World σ → Prop} {w : World σ}
    (h : Ready Up w) (hflag : w.qspiInitFlag = true)
    (hfile : env.fopen w.fopens filename = some file)
    (run : ∀ w₁, Ready Up w₁ → Talks housekeeping (w.opened (some file)) w₁ →
      wp (pageLoop report (page file) (pageCount file.ftell))
        (fun status w₂ =>
          (status = .success →
            wp finish (fun _ w₃ => Q .success { w₃ with streams := w₃.streams - 1 })
              (fun _ _ => False) w₂) ∧
          (status ≠ .success → Q .failure w₂)) (fun _ _ => False) w₁) :
    wp (imageFile env filename report page finish) Q (fun _ _ => False) w := by
  have hopen : fopen env filename w = (.ret (some file), w.opened (some file)) := by
    rw [fopen, hfile]
  let Reached (w₁ : World σ) := Ready Up w₁ ∧ Talks housekeeping (w.opened (some file)) w₁
  have opened : Reached (w.opened (some file)) :=
    ⟨⟨h.bus, h.errorCount⟩, refl_of _ _⟩
  -- a checked part that serves and only talks housekeeping leads on
  have step : ∀ {m k : Prog (World σ) Xst} {w₁}, Serves Up m → Moves (Talks housekeeping) m →
      Reached w₁ → (∀ w₂, Reached w₂ → wp k Q (fun _ _ => False) w₂) →
      wp (check m k) Q (fun _ _ => False) w₁ := by
    intro m k w₁ hm htalks h₁ hk
    obtain ⟨w₂, hrun, hready⟩ := hm.exists_ret h₁.1
    refine wp_check.mpr ((wp_of_ret hrun).mpr
      ⟨fun _ => hk w₂ ⟨hready, ?_⟩, fun hno => absurd rfl hno⟩)
    exact trans_of _ h₁.2 (htalks.of_eq hrun)
  have select : Serves Up (callDriver (XSpiDriver.xspiSetSlaveSelect spiSelect)) := by
    intro w h
    obtain ⟨bus, hbus, hup⟩ := hr.setSlaveSelect h.bus
    rw [wp_callDriver, hbus]
    exact ⟨rfl, hup, h.errorCount⟩
  refine wp_bind.mpr ((wp_of_ret hopen).mpr ?_)
  -- the four parts in front of the pages, in the order of the source
  have init := ensureInit_of_flag env (w := w.opened (some file)) hflag
  refine wp_check.mpr ((wp_of_ret init).mpr ⟨fun _ => ?_, fun hno => absurd rfl hno⟩)
  refine step select (callDriver_talks (.setSlaveSelect _)) opened fun w₂ h₂ => ?_
  refine wp_bind.mpr (wp_callDriver.mpr ?_)
  have started : Reached { w₂ with bus := (XSpiDriver.xspiStart w₂.bus).2 } :=
    ⟨⟨hr.start h₂.1.bus, h₂.1.errorCount⟩,
      trans_of _ h₂.2 (callDriver_talks .start w₂)⟩
  refine step (spiFlashWriteEnable_serves hr) (spiFlashWriteEnable_talks statusFrames_subset) started
    fun w₃ h₃ => ?_
  refine wp_check.mpr (wp_mono (run w₃ h₃.1 h₃.2) (fun status w₄ h₄ => ?_) fun _ _ h => h)
  exact ⟨fun hok => wp_bind.mpr (wp_mono (h₄.1 hok) (fun _ _ h => h) fun _ _ h => h), h₄.2⟩

/-- A page is programmed, whatever the file has for it. -/
theorem programPage_serves {baseAddr startAddr : UInt32} {file : File} :
    Serves Up (programPage env baseAddr file startAddr) := by
  intro w h
  refine wp_bind.mpr (wp_bind.mpr (wp_mallocPage.mpr (wp_pure.mpr ?_)))
  exact (spiFlashWriteEnable_serves hr).check (spiFlashWriteFile_serves hr (by decide)) _
    ⟨h.bus, h.errorCount⟩

/-- **The programming on a bus that answers.**  It returns success; `I` is whatever one page
after the other establishes of the bus.  The invariant of the page loop adds to it that the
bus still answers and how many page buffers have been taken. -/
theorem qspiProgramBin_ready {file : File} {w : World σ} (I : ℕ → σ → Prop) (h : Ready Up w)
    (hflag : w.qspiInitFlag = true)
    (hfile : env.fopen w.fopens w.flashData.pathname = some file)
    (start : ∀ bus, Relation.ReflTransGen (BusStep housekeeping) w.bus bus → I 0 bus)
    (step : ∀ j w₁ w₂, j < (pageCount file.ftell).toNat → w₁.mallocs = w.mallocs + j →
      I j w₁.bus →
      programPage env w.flashData.baseAddr file (UInt32.ofNat (256 * j)) w₁ = (.ret .success, w₂) →
      I (j + 1) w₂.bus) :
    wp (qspiProgramBin env)
      (fun status w' => status = .success ∧ Ready Up w' ∧
        w'.mallocs = w.mallocs + (pageCount file.ftell).toNat ∧ I (pageCount file.ftell).toNat w'.bus)
      (fun _ _ => False) w := by
  set total := (pageCount file.ftell).toNat with htotal
  refine wp_bind.mpr (wp_imageFile_ready hr h hflag hfile fun w₁ h₁ htalks => ?_)
  -- `n` counts down from the number of pages, so `I` is at `total - n`
  refine wp_pageLoop (fun n w₂ => n ≤ total ∧ Ready Up w₂ ∧
      w₂.mallocs = w.mallocs + (total - n) ∧ I (total - n) w₂.bus)
    ⟨le_rfl, h₁, by rw [htalks.mallocs, ← htotal]; simp [World.opened], ?_⟩
    (fun n it w₂ _ inv => ?_) fun w₂ inv => ?_
  · rw [← htotal, Nat.sub_self]
    exact start _ htalks.bus
  · obtain ⟨hle, hready, hmallocs, hbus⟩ := inv
    obtain ⟨percentage, events, hreport⟩ := reportProgress_eq env 20 (pageCount file.ftell) it w₂
    refine (wp_of_ret hreport).mpr ?_
    have serves : Serves Up (programPage env w.flashData.baseAddr file
      (UInt32.ofNat (256 * (total - (n + 1))))) := programPage_serves hr
    obtain ⟨w₃, hpage, h₃⟩ := serves.exists_ret
      (w := { w₂ with flashData := { w₂.flashData with percentage }, events })
      ⟨hready.bus, hready.errorCount⟩
    refine (wp_of_ret hpage).mpr ⟨fun _ => ⟨by omega, h₃, ?_, ?_⟩, fun hno => absurd rfl hno⟩
    · have := programPage_mallocs hpage
      simp only [hmallocs] at this
      omega
    · rw [show total - n = total - (n + 1) + 1 by omega]
      exact step _ { w₂ with flashData := { w₂.flashData with percentage }, events } _ (by omega)
        hmallocs hbus hpage
  · obtain ⟨-, hready, hmallocs, hbus⟩ := inv
    rw [Nat.sub_zero] at hmallocs hbus
    refine ⟨fun _ => ?_, fun hno => absurd rfl hno⟩
    exact ⟨rfl, ⟨hready.bus, hready.errorCount⟩, hmallocs, hbus⟩

/-- The programming of a die on a bus that answers. -/
theorem qspiProgramFlash_ready {startDie : UInt32} {file : File} {w : World σ} (h : Ready Up w)
    (hflag : w.qspiInitFlag = true) (hfile : env.fopen w.fopens dieImageName = some file) :
    wp (qspiProgramFlash env startDie) (fun status _ => status = .success) (fun _ _ => False) w := by
  refine wp_imageFile_ready hr h hflag hfile fun w₁ h₁ _ => ?_
  refine wp_pageLoop (fun _ => Ready Up) h₁ (fun n it w₂ _ h₂ => wp_pure.mpr ?_)
    fun w₂ _ => ⟨fun _ => rfl, fun hno => absurd rfl hno⟩
  refine wp_mono (programPage_serves hr w₂ h₂) (fun status w₃ h₃ => ?_) fun _ _ h => h
  exact ⟨fun _ => h₃.2, fun hno => absurd h₃.1 hno⟩

/-- The erase stage leaves the bus ready, and `E` is whatever the erase establishes.  The
number of sectors must be one that the erase accepts. -/
theorem eraseStage_ready {call : ProgramCall} {w : World σ} (E : σ → Prop) (h : Ready Up w)
    (hsectors : call.erase ≠ 0 →
      sectorsToErase w.flashData (call.eraseFrom w.flashData) ≤ numbSectors)
    (skip : call.erase = 0 → E w.bus)
    (erase : call.erase ≠ 0 → ∀ w₁, qspiEraseSectorFlash env (call.eraseFrom w.flashData)
      (sectorsToErase w.flashData (call.eraseFrom w.flashData)) w = (.ret .success, w₁) → E w₁.bus) :
    wp (eraseStage env (call.mark env) call.eraseFrom call.erase)
      (fun status w' => status = .success ∧ Ready Up w' ∧ E w'.bus ∧ w'.mallocs = w.mallocs ∧
        Reports Set.univ Set.univ w w')
      (fun _ _ => False) w := by
  rw [eraseStage, wp_ite]
  refine ⟨fun he => ?_, fun he => ?_⟩
  · obtain ⟨w₁, hrun, hready⟩ := (qspiEraseSectorFlash_serves hr (hsectors he)).exists_ret h
    have talks := (qspiEraseSectorFlash_talks (Set.subset_univ _) fun _ _ => trivial).of_eq hrun
    obtain ⟨percentage, events, hmark⟩ := mark_eq env call 20 w₁
    have hmarked := mark_moves.of_eq hmark
    refine wp_bind.mpr (wp_gets.mpr (wp_bind.mpr ((wp_of_ret hrun).mpr (wp_bind.mpr
      ((wp_of_ret hmark).mpr ⟨rfl, ⟨hready.bus, hready.errorCount⟩,
        erase he w₁ hrun, talks.mallocs, ?_⟩)))))
    exact trans_of (Reports Set.univ Set.univ) (talks.reports transfers_univ.admits) hmarked
  · exact ⟨rfl, h, skip (not_not.mp he), rfl, refl_of _ w⟩

/-! ## The verification -/

variable {content : σ → UInt32 → UInt8} (hx : ExactReads env content)
include hx

/-- On a bus that answers, a page is read behind its write enable. -/
theorem wp_pageRead_ready {addr : UInt32} {w w₁ : World σ} {k : Prog (World σ) Xst}
    {Q : Xst → World σ → Prop} (henable : spiFlashWriteEnable env w = (.ret .success, w₁))
    (h₁ : Ready Up w₁)
    (hk : ∀ w₂, Ready Up w₂ → PageRead content addr w w₂ → wp k Q (fun _ _ => False) w₂) :
    wp (clearReadBuffer >>= fun _ =>
      check (spiFlashRead env addr pageSize command4byteQuadOutputFastRead) k)
      Q (fun _ _ => False) w₁ := by
  have serves : Serves Up (spiFlashRead env addr pageSize command4byteQuadOutputFastRead) :=
    spiFlashRead_serves hr
  obtain ⟨w₂, hread, h₂⟩ := serves.exists_ret
    (w := { w₁ with readBuffer := overlay w₁.readBuffer 0 (List.replicate 260 0) })
    ⟨h₁.bus, h₁.errorCount⟩
  refine wp_bind.mpr (wp_modify.mpr (wp_check.mpr ((wp_of_ret hread).mpr ⟨fun _ => ?_, ?_⟩)))
  · exact hk w₂ h₂ (pageRead_of_success hx henable hread)
  · exact fun hno => absurd rfl hno

/-- On a bus that answers, a page passes exactly when it is the page of the file.  All the
commands succeed, so the comparison alone decides. -/
theorem verifyPage_ready {baseAddr startAddr : UInt32} {file : File} {w : World σ}
    (h : Ready Up w) :
    wp (verifyPage env baseAddr file startAddr)
      (fun status w' => Ready Up w' ∧ content w'.bus = content w.bus ∧
        w'.mallocs = w.mallocs + 1 ∧
        (status = .success ↔ ∀ k < 256, content w.bus (baseAddr + startAddr + UInt32.ofNat k) =
          fread file startAddr (env.malloc w.mallocs) k))
      (fun _ _ => False) w := by
  refine wp_bind.mpr (wp_bind.mpr (wp_mallocPage.mpr (wp_pure.mpr ?_)))
  obtain ⟨w₁, henable, h₁⟩ := (spiFlashWriteEnable_serves hr).exists_ret
    (w := { w with mallocs := w.mallocs + 1 }) ⟨h.bus, h.errorCount⟩
  refine wp_check.mpr ((wp_of_ret henable).mpr ⟨fun _ => ?_, fun hno => absurd rfl hno⟩)
  refine wp_pageRead_ready hr hx henable h₁ fun w₂ h₂ hread => ?_
  have heq : isEqual w₂.readBuffer (fread file startAddr (env.malloc w.mallocs)) = true ↔
      ∀ k < 256, content w.bus (baseAddr + startAddr + UInt32.ofNat k) =
        fread file startAddr (env.malloc w.mallocs) k := by
    rw [isEqual_iff]
    refine forall₂_congr fun k hk => ?_
    rw [hread.page k hk]
  refine wp_bind.mpr (wp_gets.mpr (wp_ite.mpr ⟨fun hpass => ?_, fun hfail => ?_⟩))
  · exact ⟨h₂, hread.same, hread.mallocs, iff_of_true rfl (heq.mp hpass)⟩
  · exact ⟨h₂, hread.same, hread.mallocs,
      iff_of_false (by simp) fun hall => hfail (heq.mpr hall)⟩

/-- On a bus that answers, the page loop passes exactly when every page is that of the file.
The invariant has the pages that have passed; the first that does not ends the loop. -/
theorem verifyLoop_ready {file : File} {baseAddr : UInt32} {base : ℚ} {w : World σ}
    (h : Ready Up w) :
    wp (pageLoop (reportProgress env base) (verifyPage env baseAddr file) (pageCount file.ftell))
      (fun status w' => Ready Up w' ∧ content w'.bus = content w.bus ∧
        (status = .success ↔ PagesMatch (content w.bus) baseAddr
          (filePage file fun j => env.malloc (w.mallocs + j)) (pageCount file.ftell).toNat) ∧
        (status = .success → w'.mallocs = w.mallocs + (pageCount file.ftell).toNat))
      (fun _ _ => False) w := by
  set total := pageCount file.ftell
  set pages := filePage file fun j => env.malloc (w.mallocs + j) with hpages
  let Inv (n : ℕ) (w₁ : World σ) :=
    Verifying content (content w.bus) w.mallocs baseAddr pages total.toNat n w₁ ∧ Ready Up w₁
  -- `n` rounds are left; on a device that serves a round fails with its comparison only
  refine wp_pageLoop Inv ⟨⟨le_rfl, rfl, by simp, fun j hj => by omega⟩, h⟩
    (fun n it w₁ _ ⟨inv, hready⟩ => ?_) fun w₁ ⟨inv, hready⟩ => ?_
  · have hle := inv.le
    have hmallocs := inv.mallocs
    obtain ⟨percentage, events, hreport⟩ := reportProgress_eq env base total it w₁
    refine (wp_of_ret hreport).mpr (wp_mono (verifyPage_ready hr hx
      ⟨hready.bus, hready.errorCount⟩) (fun status w₂ h₂ => ?_) fun _ _ h => h)
    obtain ⟨hready₂, hcontent, hmallocs₂, hpass⟩ := h₂
    rw [inv.content] at hcontent hpass
    simp only [hmallocs] at hmallocs₂ hpass
    refine ⟨fun hok => ⟨⟨by omega, hcontent, by omega, ?_⟩, hready₂⟩, fun hno => ?_⟩
    · rw [show total.toNat - n = total.toNat - (n + 1) + 1 by omega]
      exact inv.pages.succ (hpass.mp hok)
    · refine ⟨hready₂, hcontent, iff_of_false (by simp) fun hall => hno (hpass.mpr ?_),
        fun hok => absurd hok (by simp)⟩
      exact hall _ (by omega)
  · have hall := inv.pages
    have hmallocs := inv.mallocs
    exact ⟨hready, inv.content, iff_of_true rfl hall, fun _ => hmallocs⟩

/-- **The verification on a bus that answers.**  It returns success exactly when the flash
holds the pages of the file.  It changes nothing, so the pages are those of the flash at the
beginning. -/
theorem qspiVerifyBin_ready {file : File} {w : World σ} (h : Ready Up w)
    (hflag : w.qspiInitFlag = true)
    (hfile : env.fopen w.fopens w.flashData.pathname = some file) :
    wp (qspiVerifyBin env)
      (fun status w' => Ready Up w' ∧ content w'.bus = content w.bus ∧
        (status = .success ↔ PagesMatch (content w.bus) w.flashData.baseAddr
          (filePage file fun j => env.malloc (w.mallocs + j)) (pageCount file.ftell).toNat) ∧
        (status = .success → w'.mallocs = w.mallocs + (pageCount file.ftell).toNat))
      (fun _ _ => False) w := by
  refine wp_bind.mpr (wp_imageFile_ready hr h hflag hfile fun w₁ h₁ htalks => ?_)
  have hcontent : content w₁.bus = content (w.opened (some file)).bus :=
    hx.quiet.talks housekeeping_subset htalks
  have hmallocs : w₁.mallocs = w.mallocs := htalks.mallocs
  refine wp_mono (verifyLoop_ready hr hx h₁) (fun status w₂ h₂ => ?_) fun _ _ h => h
  rw [hcontent, hmallocs, World.opened] at h₂
  obtain ⟨hready, hsame, hpass, hcount⟩ := h₂
  refine ⟨fun hok => ?_, fun hno => ⟨hready, hsame, iff_of_false (by simp) (mt hpass.mpr hno),
    fun hok => absurd hok (by simp)⟩⟩
  exact ⟨⟨hready.bus, hready.errorCount⟩, hsame,
    iff_of_true rfl (hpass.mp hok), fun _ => hcount hok⟩

/-! ## A programming call -/

/-- **A programming call on a bus that answers.**  `E` is what the erase stage
establishes of the bus, and `I j` what `j` programmed pages do.  The call returns
success exactly when the flash then holds the pages that the verification
compares. -/
theorem ProgramCall.run_ready (call : ProgramCall) {file : File} {w : World σ} (E : σ → Prop)
    (I : ℕ → σ → Prop) (h : Ready Up w) (hflag : w.qspiInitFlag = true)
    (hopen : ∀ i, env.fopen i w.flashData.pathname = some file)
    (hsectors : call.erase ≠ 0 →
      sectorsToErase w.flashData (call.eraseFrom w.flashData) ≤ numbSectors)
    (skip : call.erase = 0 → E w.bus)
    (erase : call.erase ≠ 0 → ∀ w₁ w₂, w₁.bus = w.bus →
      qspiEraseSectorFlash env (call.eraseFrom w.flashData)
        (sectorsToErase w.flashData (call.eraseFrom w.flashData)) w₁ = (.ret .success, w₂) →
      E w₂.bus)
    (start : ∀ bus bus', E bus → Relation.ReflTransGen (BusStep housekeeping) bus bus' → I 0 bus')
    (step : ∀ j w₁ w₂, j < (pageCount file.ftell).toNat → w₁.mallocs = w.mallocs + j →
      I j w₁.bus →
      programPage env w.flashData.baseAddr file (UInt32.ofNat (256 * j)) w₁ = (.ret .success, w₂) →
      I (j + 1) w₂.bus) :
    wp (call.run env)
      (fun status w' => Ready Up w' ∧ ∃ bus, I (pageCount file.ftell).toNat bus ∧
        content w'.bus = content bus ∧
        (status = .success ↔ PagesMatch (content bus) w.flashData.baseAddr
          (filePage file fun j => env.malloc (w.mallocs + (pageCount file.ftell).toNat + j))
          (pageCount file.ftell).toNat))
      (fun _ _ => False) w := by
  have stored : ∀ {w₁ : World σ} {percentage events}, Ready Up w₁ → Ready Up
      { w₁ with flashData := { w₁.flashData with percentage }, events } :=
    fun h => ⟨h.bus, h.errorCount⟩
  rw [call.run_eq, eraseProgramVerify]
  -- the erase stage, or nothing
  obtain ⟨p₁, es₁, hmark₁⟩ := mark_eq env call 1 w
  refine wp_bind.mpr ((wp_of_ret hmark₁).mpr (wp_check.mpr (wp_mono
    (eraseStage_ready hr E (stored h) ?_ skip fun he w₁ hrun => ?_) (fun status w₂ h₂ => ?_)
    fun _ _ h => h)))
  · cases call <;> exact hsectors
  · cases call <;> refine erase he _ _ ?_ hrun <;> rfl
  obtain ⟨rfl, hready₂, hE, hmallocs₂, hreports⟩ := h₂
  refine ⟨fun _ => ?_, fun hno => absurd rfl hno⟩
  obtain ⟨hbase, -, -, hpath⟩ := hreports.target
  -- the pages, which keep `I`
  obtain ⟨p₂, es₂, hmark₂⟩ := mark_eq env call 20 w₂
  refine wp_bind.mpr ((wp_of_ret hmark₂).mpr (wp_check.mpr (wp_mono (wp_and
    (qspiProgramBin_ready hr I (stored hready₂) (hreports.qspiInitFlag hflag)
      (hpath.symm ▸ hopen _) (fun bus hrun => start _ _ hE hrun) fun j w₃ w₄ hj hm hI hpage => ?_)
    (qspiProgramBin_moves.wp _))
    (fun status w₃ h₃ => ?_) fun _ _ h => h.1)))
  · exact step j w₃ w₄ hj (hm.trans (congrArg (· + j) hmallocs₂)) hI (hbase ▸ hpage)
  obtain ⟨⟨rfl, hready₃, hmallocs₃, hI⟩, hreports₃⟩ := h₃
  refine ⟨fun _ => ?_, fun hno => absurd rfl hno⟩
  obtain ⟨hbase₃, -, -, hpath₃⟩ := hreports₃.target
  -- the verification, which reads only
  obtain ⟨p₃, es₃, hmark₃⟩ := mark_eq env call 60 w₃
  have hfile : env.fopen w₃.fopens w₃.flashData.pathname = some file := by
    rw [hpath₃]
    exact hpath.symm ▸ hopen _
  refine wp_bind.mpr ((wp_of_ret hmark₃).mpr (wp_check.mpr (wp_mono
    (qspiVerifyBin_ready hr hx (stored hready₃)
      (hreports₃.qspiInitFlag (hreports.qspiInitFlag hflag)) hfile)
    (fun status w₄ h₄ => ?_) fun _ _ h => h)))
  obtain ⟨hready₄, hcontent, hpass, -⟩ := h₄
  have hbase' : w₃.flashData.baseAddr = w.flashData.baseAddr := hbase₃.trans hbase
  have hmallocs' : w₃.mallocs = w.mallocs + (pageCount file.ftell).toNat :=
    hmallocs₃.trans (congrArg (· + _) hmallocs₂)
  simp only [hbase', hmallocs'] at hpass
  refine ⟨fun hok => ?_, fun hno => ?_⟩
  · obtain ⟨p₄, es₄, hmark₄⟩ := mark_eq env call 100 w₄
    refine wp_bind.mpr ((wp_of_ret hmark₄).mpr ?_)
    exact ⟨stored hready₄, w₃.bus, hI, hcontent, iff_of_true rfl (hpass.mp hok)⟩
  · exact ⟨hready₄, w₃.bus, hI, hcontent, iff_of_false (by simp) (mt hpass.mpr hno)⟩

end Serves

end Kiflash
