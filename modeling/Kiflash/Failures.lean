import Kiflash.Nor.Device
import Kiflash.StatusCalls

/-!
# Transfers that fail

The functions that erase and program make thousands of transfers, each with a status.
This module says when a failing one makes the call fail.

* `Reported` — a failed transfer makes the call fail, and no erase or page program follows.
* `WritingCall.heeds` — it does so everywhere but at the calls of `GetStatus`.
* `ComesTo` — how a run goes through one of these calls, and on behind it.
* `reported_iff` — the failures of a call are reported if and only if `StatusKept` holds wherever it
  comes to `GetStatus`.

### The two directions

A failure that `GetStatus` drops is excused in `WritingCall.heeds`, and what becomes of it is told
by the rest of the call.  `WritingCall.comesTo` has this rest as a program `k` of its own, and
`Following.Describes` says of `k` that it stops short, which is to fail without an erase or a page
program, exactly where the steps named by `Following` come to fail.  Both directions of
`reported_iff` go through this equivalence, so neither says more of the rest of a call than the
other.
-/

open Imperative Imperative.Prog

namespace Kiflash

/-! ## What is reported -/

section Definitions

variable {σ : Type}

/-- The call fails, or the driver has stored past the end of `ReadBuffer`, and the run means
nothing. -/
def ReportsFailure (outcome : Outcome Xst) : Prop := outcome = .ret .failure ∨ outcome = .stop .wild

/-- If a transfer fails, the call fails, and sends no erase or page program behind it.  The
condition is on every failing transfer of the run, not only on the first. -/
def Reported (m : Prog (World σ) Xst) (w : World σ) : Prop :=
  ∀ pre e post, newEvents w (m w).2 = pre ++ e :: post → e.Failed →
    ReportsFailure (m w).1 ∧ ∀ e' ∈ post, ¬ e'.ChangesFlash

end Definitions

section Failures

variable {σ : Type} {env : Env} {excused : World σ → Prop} [XSpiDriver σ]
variable {w w₁ w₂ : World σ}

/-! ## The functions that erase -/

omit [XSpiDriver σ] in
/-- The frames of `GetStatus` neither erase nor program. -/
theorem not_changesFlash_of_status {e : Event σ} (h : e.Speaks statusFrames) : ¬ e.ChangesFlash := by
  cases e with
  | transfer before frame status =>
      rintro ⟨op, hop, hwriting⟩
      have hstatus : op ∈ statusCommands := h op hop
      obtain rfl | rfl | rfl | rfl := hstatus
      all_goals exact absurd hwriting (by decide)
  | _ => exact id

/-- A call of `GetStatus` that is not excused reports its failures.  Whatever follows the
failing transfer in it are frames of the status commands, which do no harm. -/
theorem getStatus_heeds (h : ¬ StatusReported env w₁ → excused w₁) :
    transferJournal.HeedsFrom excused (getStatus env) w₁ := by
  have talks : Talks statusFrames w₁ (getStatus env w₁).2 := getStatus_talks subset_rfl w₁
  obtain ⟨es, hes, hspeaks⟩ := talks.events
  have hnew : newEvents w₁ (getStatus env w₁).2 = es := newEvents_of_eq hes
  refine ⟨es, hes, fun pre e post hsplit hfailed => ?_⟩
  by_cases hreported : StatusReported env w₁
  · refine .inl ⟨hreported ⟨e, ?_, hfailed⟩, fun e' he' => ?_⟩
    · rw [hnew, hsplit]
      simp
    · exact not_changesFlash_of_status (hspeaks e' (by rw [hsplit]; simp [he']))
  · exact .inr ⟨w₁, h hreported, List.prefix_append _ _⟩

/-- The end of an erase adds no transfer to those of `GetStatus`. -/
theorem eraseTail_heeds (h : ¬ StatusReported env w₁ → excused w₁) :
    transferJournal.HeedsFrom excused (eraseTail env) w₁ := by
  refine (getStatus_heeds h).seq (fun w₂ _ => Heedful.silent (commandEnd_unsent _) w₂)
    fun status w₂ hne => ⟨?_, (commandEnd_unsent status w₂).harmless⟩
  refine .inl ⟨.failure, ?_, by decide⟩
  change ((if status = Xst.success then _ else _ : Prog (World σ) Xst) _).1 = _
  rw [if_neg (show ¬ status = Xst.success from hne)]
  rfl

/-- Up to `GetStatus`, an erase checks every status. -/
theorem eraseSent_heedful (cmd : UInt8) (addr : UInt32) :
    Heedful excused (eraseSent (σ := σ) env cmd addr) :=
  .check spiFlashWriteEnable_heedful <| .check spiFlashWaitForFlashReady_heedful <|
    .bind (fillWriteBuffer_unsent _ _) fun _ => .bind (modify_unsent fun _ => rfl) fun _ =>
    xspiTransfer_heedful _ _

theorem sectorEraseSent_heedful (addr : UInt32) :
    Heedful excused (sectorEraseSent (σ := σ) env addr) :=
  .check (enabledCommand_heedful _) (eraseSent_heedful _ _)

theorem dieEraseSent_heedful (uscDieNr : UInt32) :
    Heedful excused (dieEraseSent (σ := σ) env uscDieNr) :=
  .check (enabledCommand_heedful _) <| .check (enabledRegisterRead_heedful _) (eraseSent_heedful _ _)

variable (env) in
/-- A sector erase, cut at its call of `GetStatus`. -/
theorem spiFlashSectorErase_eq (addr : UInt32) : spiFlashSectorErase (σ := σ) env addr =
    check (sectorEraseSent env addr) (eraseTail env) := by
  simp only [spiFlashSectorErase, eraseCommand, command, sectorEraseSent, eraseSent, bind_check,
    check_assoc]
  rfl

variable (env) in
/-- A die erase, cut at the same place. -/
theorem spiFlashDieErase_eq (uscDieNr : UInt32) : spiFlashDieErase (σ := σ) env uscDieNr =
    check (dieEraseSent env uscDieNr) (eraseTail env) := by
  simp only [spiFlashDieErase, eraseCommand, command, dieEraseSent, eraseSent, bind_check,
    check_assoc]
  rfl

omit [XSpiDriver σ] in
/-- The state is on the list if the steps in front succeed and lead to it. -/
theorem mem_statusCall {sent : Prog (World σ) Xst} :
    w₁ ∈ statusCall sent w ↔ sent w = (.ret .success, w₁) := by
  unfold statusCall
  rcases sent w with ⟨status | why, w'⟩
  · cases status <;> simp [eq_comm]
  · simp

/-- The first sector of a loop, or one of the others. -/
theorem mem_sectorCalls_succ {last : Following} {n : ℕ} {addr : UInt32}
    {v : World σ × Following} : v ∈ sectorCalls env last (n + 1) addr w ↔
      (∃ w₁ ∈ statusCall (sectorEraseSent env addr) w, v = (w₁, if n = 0 then last else .sector)) ∨
        ∃ w₁, spiFlashSectorErase env addr w = (.ret .success, w₁) ∧
          v ∈ sectorCalls env last n (addr + bytePerSector) w₁ := by
  rw [sectorCalls, List.mem_append, List.mem_map]
  refine or_congr (exists_congr fun w₁ => and_congr_right fun _ => eq_comm) ?_
  rcases spiFlashSectorErase env addr w with ⟨status | why, w'⟩
  · cases status <;> simp
  · simp

/-- An erase up to `GetStatus`, and what follows. -/
theorem erase_heeds {sent : Prog (World σ) Xst} (hsent : Heedful excused sent)
    (h : ∀ w₁ ∈ statusCall sent w, ¬ StatusReported env w₁ → excused w₁) :
    transferJournal.HeedsFrom excused (check sent (eraseTail env)) w :=
  (hsent w).check fun w₁ hrun => eraseTail_heeds (h w₁ (mem_statusCall.mpr hrun))

/-- The loop over the sectors.  The list of its calls of `GetStatus` grows with it, and so
does the excuse. -/
theorem sectorLoop_heeds {last : Following} {n : ℕ} {addr : UInt32}
    (h : ∀ v ∈ sectorCalls env last n addr w, ¬ StatusReported env v.1 → excused v.1) :
    transferJournal.HeedsFrom excused
      (checkLoop (spiFlashSectorErase env) (· + bytePerSector) n addr) w := by
  induction n generalizing addr w with
  | zero => exact .pure _
  | succ n ih =>
      refine .check ?_ fun w₁ hrun => ih fun v hv => ?_
      · rw [spiFlashSectorErase_eq]
        exact erase_heeds (sectorEraseSent_heedful addr) fun w₁ hw₁ =>
          h _ (mem_sectorCalls_succ.mpr (.inl ⟨w₁, hw₁, rfl⟩))
      · exact h v (mem_sectorCalls_succ.mpr (.inr ⟨w₁, hrun, hv⟩))

theorem qspiEraseSectorFlash_heeds {last : Following} {ofsetAddr sectCount : UInt32}
    (h : ∀ v ∈ sectorStatusCalls env last ofsetAddr sectCount w,
      ¬ StatusReported env v.1 → excused v.1) :
    transferJournal.HeedsFrom excused (qspiEraseSectorFlash env ofsetAddr sectCount) w := by
  unfold qspiEraseSectorFlash
  unfold sectorStatusCalls at h
  split at h
  · rename_i hcount
    rw [if_pos hcount]
    exact sectorLoop_heeds h
  · rename_i hcount
    rw [if_neg hcount]
    exact .pure _

theorem ProgramCall.afterErase_heedful (call : ProgramCall) :
    Heedful excused (call.afterErase (σ := σ) env) :=
  .bind (mark_unsent _ _) fun _ => .check qspiProgramBin_heedful <|
    .bind (mark_unsent _ _) fun _ => .check qspiVerifyBin_heedful <|
    .bind (mark_unsent _ _) fun _ => .pure _

/-- The erase stage of a programming call, or nothing where it is skipped.  The percentage
that is stored behind the erase comes before the status is looked at, but is no transfer. -/
theorem eraseStage_heeds {call : ProgramCall}
    (h : call.erase ≠ 0 → ∀ v ∈ sectorStatusCalls env (.image call) (call.eraseFrom w.flashData)
      (sectorsToErase w.flashData (call.eraseFrom w.flashData)) w,
        ¬ StatusReported env v.1 → excused v.1) :
    transferJournal.HeedsFrom excused
      (eraseStage env (call.mark env) call.eraseFrom call.erase) w := by
  unfold eraseStage
  split
  · rename_i herase
    refine .bind (moves_gets (r := Emits unsent) _ w).harmless fun data w₁ hgets => ?_
    cases hgets
    refine (qspiEraseSectorFlash_heeds (h herase)).seq (fun w₁ _ => ?_) fun status w₁ hne => ?_
    · exact Heedful.bind (mark_unsent _ _) (fun _ => .pure _) w₁
    · obtain ⟨percentage, events, hmark⟩ := mark_eq env call 20 w₁
      refine ⟨.inl ⟨status, ?_, hne⟩, (Moves.bind (mark_unsent call 20) (fun _ => moves_pure _) w₁ :
        Emits unsent w₁ _).harmless⟩
      rw [bind_of_ret hmark]
      rfl
  · exact .pure _

/-- A programming call: its erase, and the rest, which checks everything. -/
theorem ProgramCall.heeds {call : ProgramCall}
    (h : ∀ v ∈ (WritingCall.program call).statusCalls env w,
      ¬ StatusReported env v.1 → excused v.1) :
    transferJournal.HeedsFrom excused (call.run env) w := by
  rw [call.run_eq]
  refine .bind (mark_unsent call 1 w).harmless fun _ w₁ hmark => ?_
  have hw₁ : (call.mark env 1 w).2 = w₁ := congrArg Prod.snd hmark
  refine (eraseStage_heeds fun herase => ?_).check fun w₂ _ => ?_
  · simp only [WritingCall.statusCalls, if_pos herase, hw₁] at h
    exact h
  · exact call.afterErase_heedful w₂

/-- **Every other status is checked.**  Apart from downloads, what fails behind no excused
call of `GetStatus` is heeded.  The statement is one for all thousands of transfers of a call,
and would break if any other function of the source dropped a status. -/
theorem WritingCall.heeds {call : WritingCall} (hcall : ∀ startDie, call ≠ .download startDie)
    (h : ∀ v ∈ call.statusCalls env w, ¬ StatusReported env v.1 → excused v.1) :
    transferJournal.HeedsFrom excused (call.run env) w := by
  have hdie : ∀ {following : Following} {uscDieNr : UInt32}, (∀ v ∈ (statusCall
      (dieEraseSent env uscDieNr) w).map fun w₁ => (w₁, following),
        ¬ StatusReported env v.1 → excused v.1) →
      transferJournal.HeedsFrom excused (spiFlashDieErase env uscDieNr) w := by
    intro following uscDieNr h
    rw [spiFlashDieErase_eq]
    exact erase_heeds (dieEraseSent_heedful _) fun w₁ hw₁ =>
      h (w₁, following) (List.mem_map_of_mem hw₁)
  cases call with
  | eraseSectorFlash ofsetAddr sectCount => exact qspiEraseSectorFlash_heeds h
  | dieErase uscDieNr => exact hdie h
  | flashEraseMain ofsetAddr dieCount =>
      exact (hdie h).check fun w₁ _ => Heedful.check spiFlashQuadEnable_heedful (.pure _) w₁
  | program call => exact ProgramCall.heeds h
  | download startDie => exact absurd rfl (hcall startDie)

/-! ## What follows `GetStatus` -/

/-- The run of `m` from `w` comes to `GetStatus` in `w₁`.  Where that returns `XST_SUCCESS`,
`m` goes on as `k`; where it does not return, neither does `m`.  Where it returns a failure,
`m` fails, and nothing is asked. -/
structure ComesTo (env : Env) (m k : Prog (World σ) Xst) (w w₁ : World σ) : Prop where
  before : Emits Set.univ w w₁
  after : Emits Set.univ (getStatus env w₁).2 (m w).2
  errorFree : ErrorFree w₁
  stops : ∀ why w₂, getStatus env w₁ = (.stop why, w₂) → m w = (.stop why, w₂)
  goesOn : ∀ w₂, getStatus env w₁ = (.ret .success, w₂) →
    m w = k { w₂ with transferInProgress := false }

/-- What follows the run follows the rest of it. -/
theorem ComesTo.bind {m k : Prog (World σ) Xst} {g : Xst → Prog (World σ) Xst}
    (h : ComesTo env m k w w₁) (hg : ∀ status, Moves (Emits Set.univ) (g status)) :
    ComesTo env (m >>= g) (k >>= g) w w₁ where
  before := h.before
  after := trans_of _ h.after (Moves.bind_left hg w)
  errorFree := h.errorFree
  stops why w₂ hrun := bind_of_stop (h.stops why w₂ hrun)
  goesOn w₂ hrun := by
    change andThen m g w = andThen k g _
    rw [andThen, andThen, h.goesOn w₂ hrun]

/-- Steps in front of the run. -/
theorem ComesTo.behind {m m' k : Prog (World σ) Xst} (h : ComesTo env m k w₁ w₂)
    (hbefore : Emits Set.univ w w₁) (hrun : m' w = m w₁) : ComesTo env m' k w w₂ where
  before := trans_of _ hbefore h.before
  after := hrun ▸ h.after
  errorFree := h.errorFree
  stops why w₃ hstop := hrun.trans (h.stops why w₃ hstop)
  goesOn w₃ hret := hrun.trans (h.goesOn w₃ hret)

/-- The next steps are those that `following` names: what is left of the call stops short exactly
where they come to fail. -/
def Following.Describes (env : Env) (following : Following) (k : Prog (World σ) Xst) : Prop :=
  ∀ w, ErrorFree w → (transferJournal.StopsShort k w ↔ following.Stops env w)

/-- A success of the function leaves no old error.  The error counter is reset by the first
command that finds it, and that command fails. -/
def Settles (m : Prog (World σ) Xst) : Prop :=
  ∀ w, wp m (fun status w' => status = .success → ErrorFree w') (fun _ _ => True) w

omit [XSpiDriver σ] in
/-- A checked step in front makes no difference to how the last one ends. -/
theorem Settles.check {m k : Prog (World σ) Xst} (hk : Settles k) : Settles (Prog.check m k) :=
  fun _ => wp_bind_of_forall fun _ w' =>
    wp_ite.mpr ⟨fun _ => hk w', fun _ h => absurd h (by decide)⟩

/-- A status read that succeeds has found no error. -/
theorem spiFlashGetStatus_settles : Settles (spiFlashGetStatus (σ := σ) env) := by
  refine fun w => wp_bind.mpr (wp_fillWriteBuffer (fun _ => ?_) fun _ => trivial)
  refine (wp_command env).mpr (wp_xspiTransfer (fun _ => trivial) (fun _ _ => trivial)
    (fun _ _ _ _ _ => trivial) fun status stored bus _ _ => ⟨fun hok => ?_, fun _ h => ?_⟩)
  · exact wp_pure.mpr ⟨fun _ hfree _ => hfree, fun _ _ h => absurd h (by decide),
      fun h => absurd rfl h⟩
  · exact absurd h (by decide)

/-- The last round of a wait that succeeds is such a read.  The rounds in front of it may have
found anything. -/
theorem spiFlashWaitForFlashReady_settles : Settles (spiFlashWaitForFlashReady (σ := σ) env) := by
  unfold spiFlashWaitForFlashReady
  generalize env.rounds = n
  induction n with
  | zero => exact fun _ => trivial
  | succ n ih =>
      intro w
      rw [waitLoop_succ]
      refine wp_check.mpr (wp_mono (spiFlashGetStatus_settles w) (fun status w' h => ⟨fun hok => ?_,
        fun _ hno => absurd hno (by decide)⟩) fun _ _ => id)
      exact wp_bind.mpr (wp_gets.mpr (wp_ite.mpr ⟨fun _ _ => h hok, fun _ => ih w'⟩))

theorem eraseSent_settles (cmd : UInt8) (addr : UInt32) :
    Settles (eraseSent (σ := σ) env cmd addr) := by
  refine .check fun w => wp_check.mpr (wp_mono (spiFlashWaitForFlashReady_settles w)
    (fun status w' h => ⟨fun hok => ?_, fun _ hno => absurd hno (by decide)⟩) fun _ _ => id)
  -- the transfer of the command does not count errors
  refine wp_bind.mpr (wp_fillWriteBuffer (fun _ => ?_) fun _ => trivial)
  exact wp_bind.mpr (wp_modify.mpr (wp_xspiTransfer (fun _ => trivial) (fun _ _ => trivial)
    (fun _ _ _ _ _ => trivial) fun _ _ _ _ _ _ => h hok))

/-- An erase and its end.  Where `GetStatus` returns success, the wait and the error check
behind it find nothing, so the erase succeeds. -/
theorem erase_comesTo {sent : Prog (World σ) Xst} (hsent : Heedful (fun _ => True) sent)
    (hsettles : Settles sent) (h : w₁ ∈ statusCall sent w) :
    ComesTo env (check sent (eraseTail env)) (pure .success) w w₁ := by
  have hrun := mem_statusCall.mp h
  have hfree : ErrorFree w₁ := (wp_of_ret hrun).mp (hsettles w) rfl
  have hwhole : check sent (eraseTail env) w = eraseTail env w₁ := check_of_ok hrun
  refine ⟨hsent.emits.of_eq hrun, ?_, hfree, fun why w₂ hstop => ?_, fun w₂ hret => ?_⟩
  · rw [hwhole]
    exact Moves.bind_left (fun status => (commandEnd_unsent status).mono fun _ _ => Emits.univ) w₁
  · rw [hwhole, eraseTail, bind_of_stop hstop]
  · rw [hwhole, eraseTail, bind_of_ret hret]
    have hzero : w₂.errorCount = 0 := getStatus_errorFree hfree hret
    change errorCheck { w₂ with transferInProgress := false } = _
    change (if w₂.errorCount = 0 then pure .success else _ : Prog (World σ) Xst) _ = _
    rw [if_pos hzero]

theorem spiFlashSectorErase_comesTo {addr : UInt32}
    (h : w₁ ∈ statusCall (sectorEraseSent env addr) w) :
    ComesTo env (spiFlashSectorErase env addr) (pure .success) w w₁ := by
  rw [spiFlashSectorErase_eq]
  exact erase_comesTo (sectorEraseSent_heedful addr) (.check (eraseSent_settles _ addr)) h

theorem spiFlashDieErase_comesTo {uscDieNr : UInt32}
    (h : w₁ ∈ statusCall (dieEraseSent env uscDieNr) w) :
    ComesTo env (spiFlashDieErase env uscDieNr) (pure .success) w w₁ := by
  rw [spiFlashDieErase_eq]
  exact erase_comesTo (dieEraseSent_heedful uscDieNr) (.check (.check (eraseSent_settles _ _))) h

/-- What follows a sector that is not the last one. -/
theorem describes_sector {g : Xst → Prog (World σ) Xst}
    (hg : ∀ status, Moves (Emits Set.univ) (g status))
    (hno : ∀ w, transferJournal.StopsShort (g .failure) w) (n : ℕ) (addr : UInt32) :
    Following.sector.Describes env
      (checkLoop (spiFlashSectorErase env) (· + bytePerSector) (n + 1) addr >>= g) := by
  have hheeds : Heedful (fun _ => False) (writeReady (σ := σ) env) :=
    .check (enabledCommand_heedful _) <| .check spiFlashWriteEnable_heedful
      spiFlashWaitForFlashReady_heedful
  have hblames : Blames (writeReady (σ := σ) env) :=
    .check (enabledCommand_blames _) <| .check spiFlashWriteEnable_blames
      spiFlashWaitForFlashReady_blames
  exact fun w hfree =>
    ((opens_sectors hg hno n addr).iff w).trans (givesUp_iff_failsIn hheeds (hblames w hfree))

/-- A loop over sectors in front of `g`.  The induction is on the sectors; behind the last one, `g`
is what follows. -/
theorem sectorLoop_comesTo {last : Following} {g : Xst → Prog (World σ) Xst}
    (hg : ∀ status, Moves (Emits Set.univ) (g status))
    (hno : ∀ w, transferJournal.StopsShort (g .failure) w)
    (hlast : last.Describes env (g .success)) {n : ℕ} {addr : UInt32} {v : World σ × Following}
    (hv : v ∈ sectorCalls env last n addr w) :
    ∃ k, ComesTo env (checkLoop (spiFlashSectorErase env) (· + bytePerSector) n addr >>= g) k w v.1 ∧
      v.2.Describes env k := by
  induction n generalizing addr w with
  | zero => exact absurd hv List.not_mem_nil
  | succ n ih =>
      obtain ⟨w₁, hw₁, rfl⟩ | ⟨w₁, hrun, hv⟩ := mem_sectorCalls_succ.mp hv
      · let rest := checkLoop (spiFlashSectorErase (σ := σ) env) (· + bytePerSector) n
          (addr + bytePerSector)
        have hrest : ∀ status : Xst, Moves (Emits Set.univ)
            (if status = StatusCode.ok then rest else pure StatusCode.fail) := fun status =>
          (Moves.checkLoop spiFlashSectorErase_grows n _).ite (moves_pure _)
        refine ⟨_, ((spiFlashSectorErase_comesTo hw₁).bind hrest).bind hg, ?_⟩
        cases n with
        | zero => exact hlast
        | succ n => exact describes_sector hg hno n _
      · obtain ⟨k, hcomes, hdescribes⟩ := ih hv
        refine ⟨k, hcomes.behind ((spiFlashSectorErase_grows addr).of_eq hrun) ?_, hdescribes⟩
        change andThen (checkLoop _ _ (n + 1) addr) g w = andThen (checkLoop _ _ n _) g w₁
        rw [andThen, andThen, checkLoop, check_of_ok hrun]

theorem qspiEraseSectorFlash_comesTo {last : Following} {g : Xst → Prog (World σ) Xst}
    (hg : ∀ status, Moves (Emits Set.univ) (g status))
    (hno : ∀ w, transferJournal.StopsShort (g .failure) w)
    (hlast : last.Describes env (g .success)) {ofsetAddr sectCount : UInt32}
    {v : World σ × Following} (hv : v ∈ sectorStatusCalls env last ofsetAddr sectCount w) :
    ∃ k, ComesTo env (qspiEraseSectorFlash env ofsetAddr sectCount >>= g) k w v.1 ∧
      v.2.Describes env k := by
  unfold qspiEraseSectorFlash
  unfold sectorStatusCalls at hv
  split at hv
  · rename_i hcount
    rw [if_pos hcount]
    exact sectorLoop_comesTo hg hno hlast hv
  · exact absurd hv List.not_mem_nil

/-- Nothing follows. -/
theorem describes_nothing : Following.nothing.Describes (σ := σ) env (pure .success) := fun _ _ =>
  iff_of_false (fun h => not_givesUp_ok h.1) id

/-- Behind a die erase, `qspi_flash_erase_main` enters the quad mode, and returns.  Nothing is
erased or programmed any more, so it stops short if it fails at all. -/
theorem describes_quadEnable : Following.quadEnable.Describes (σ := σ) env
    (check (spiFlashQuadEnable env) (pure .success)) := by
  have hkeeping : Moves (Emits keeping) (spiFlashQuadEnable (σ := σ) env) :=
    (spiFlashQuadEnable_talks subset_rfl).mono fun _ _ =>
      Talks.keeping housekeeping_subset_keepingFrames
  have hopens : transferJournal.Opens (spiFlashQuadEnable (σ := σ) env)
      (check (spiFlashQuadEnable env) (pure .success)) := by
    refine .seq hkeeping (.pure _) fun status hne w => ?_
    rw [if_neg hne]
    exact .pure StatusCode.fail_ne_ok
  exact fun w hfree => (hopens.iff w).trans
    (givesUp_iff_failsIn spiFlashQuadEnable_heedful (spiFlashQuadEnable_blames w hfree))

/-- Behind the erase of a programming call comes its image. -/
theorem describes_image (call : ProgramCall) : (Following.image call).Describes (σ := σ) env
    (call.mark env 20 >>= fun _ => call.afterErase env) := fun w hfree =>
  ((opens_image call).iff w).trans (openingTo_closing_givesUp_iff hfree)

/-- What a programming call makes of the status of its erase.  Only `program_user` stores a
percentage in between. -/
def ProgramCall.behindErase (env : Env) (call : ProgramCall) (status : Xst) : Prog (World σ) Xst := do
  call.mark env 20
  if status = .success then call.afterErase env else pure .failure

theorem ProgramCall.behindErase_grows (call : ProgramCall) (status : Xst) :
    Moves (Emits Set.univ) (call.behindErase (σ := σ) env status) :=
  ((mark_keeping call 20).mono fun _ _ => Emits.univ).bind fun _ =>
    call.afterErase_heedful.emits.ite (moves_pure _)

theorem ProgramCall.behindErase_failure (call : ProgramCall) (w : World σ) :
    transferJournal.StopsShort (call.behindErase env .failure) w := by
  obtain ⟨percentage, events, hmark⟩ := mark_eq env call 20 w
  have hrun : call.behindErase env .failure w =
      (pure .failure : Prog (World σ) Xst)
        { w with flashData := { w.flashData with percentage }, events } := bind_of_ret hmark
  refine (Journal.StopsShort.iff_of_appends (J := transferJournal)
    ((mark_keeping call 20).of_eq hmark) hrun ?_).mpr (.pure (by decide))
  exact ⟨[], (List.append_nil _).symm, fun _ he => absurd he List.not_mem_nil⟩

theorem ProgramCall.run_eq_behindErase (call : ProgramCall) (herase : call.erase ≠ 0) (w : World σ) :
    call.run env w = (qspiEraseSectorFlash env (call.eraseFrom (call.mark env 1 w).2.flashData)
      (sectorsToErase (call.mark env 1 w).2.flashData (call.eraseFrom (call.mark env 1 w).2.flashData))
        >>= call.behindErase env) (call.mark env 1 w).2 := by
  have hmark : call.mark env 1 w = (.ret (), (call.mark env 1 w).2) := by
    obtain ⟨percentage, events, hmark⟩ := mark_eq env call 1 w
    rw [hmark]
  rw [call.run_eq, eraseProgramVerify, bind_of_ret hmark, eraseStage, if_pos herase]
  change check (qspiEraseSectorFlash env _ _ >>= fun status =>
    call.mark env 20 >>= fun _ => pure status) (call.afterErase env) _ = _
  rw [check, bind_bind]
  exact congrFun (congrArg (_ >>= ·) (funext fun status => bind_bind _ _ _)) _

theorem ProgramCall.comesTo {call : ProgramCall} {v : World σ × Following}
    (hv : v ∈ (WritingCall.program call).statusCalls env w) :
    ∃ k, ComesTo env (call.run env) k w v.1 ∧ v.2.Describes env k := by
  rw [WritingCall.statusCalls] at hv
  split at hv
  · rename_i herase
    obtain ⟨k, hcomes, hdescribes⟩ := qspiEraseSectorFlash_comesTo call.behindErase_grows
      call.behindErase_failure (describes_image call) hv
    refine ⟨k, hcomes.behind ?_ (call.run_eq_behindErase herase w), hdescribes⟩
    exact (mark_keeping call 1 w).univ
  · exact absurd hv List.not_mem_nil

/-- **Where the calls drop a status, and what follows there.**  For each state on the list the
run comes to `GetStatus` in it and goes on with some program behind it, and this program fails
without harm exactly where the steps named by `Following` do. -/
theorem WritingCall.comesTo {call : WritingCall} {v : World σ × Following}
    (hv : v ∈ call.statusCalls env w) :
    ∃ k, ComesTo env (call.run env) k w v.1 ∧ v.2.Describes env k := by
  cases call with
  | eraseSectorFlash ofsetAddr sectCount =>
      have hcomes := qspiEraseSectorFlash_comesTo (g := pure) moves_pure
        (fun _ => .pure (by decide)) describes_nothing hv
      rwa [bind_pure] at hcomes
  | dieErase uscDieNr =>
      obtain ⟨w₁, hw₁, rfl⟩ := List.mem_map.mp hv
      exact ⟨_, spiFlashDieErase_comesTo hw₁, describes_nothing⟩
  | flashEraseMain ofsetAddr dieCount =>
      obtain ⟨w₁, hw₁, rfl⟩ := List.mem_map.mp hv
      refine ⟨_, (spiFlashDieErase_comesTo hw₁).bind fun status => ?_, describes_quadEnable⟩
      exact (Heedful.emits <| .check spiFlashQuadEnable_heedful (.pure _)).ite (moves_pure _)
  | program call => exact ProgramCall.comesTo hv
  | download startDie => exact absurd hv List.not_mem_nil

/-! ## What the calls return -/

/-- The program returns `XST_SUCCESS` or `XST_FAILURE`.  The startup has other statuses, but
what calls it turns them into the second or does not look. -/
def TwoValued (m : Prog (World σ) Xst) : Prop :=
  ∀ w, wp m (fun status _ => status = .success ∨ status = .failure) (fun _ _ => True) w

namespace TwoValued

omit [XSpiDriver σ]

theorem success : TwoValued (σ := σ) (Pure.pure .success) := fun _ => .inl rfl

theorem failure : TwoValued (σ := σ) (Pure.pure .failure) := fun _ => .inr rfl

theorem bind {α : Type} {m : Prog (World σ) α} {f : α → Prog (World σ) Xst}
    (hf : ∀ a, TwoValued (f a)) : TwoValued (m >>= f) := fun _ => wp_bind_of_forall hf

theorem ite {c : Prop} [Decidable c] {m k : Prog (World σ) Xst} (hm : TwoValued m)
    (hk : TwoValued k) : TwoValued (if c then m else k) := by
  split
  · exact hm
  · exact hk

theorem check {m k : Prog (World σ) Xst} (hk : TwoValued k) : TwoValued (check m k) :=
  bind fun _ => hk.ite failure

theorem checkLoop {ι : Type} {body : ι → Prog (World σ) Xst} {next : ι → ι} (n : ℕ) (i : ι) :
    TwoValued (checkLoop body next n i) := by
  induction n generalizing i with
  | zero => exact success
  | succ n ih => exact check (ih _)

end TwoValued

theorem eraseTail_twoValued : TwoValued (eraseTail (σ := σ) env) := by
  refine .bind fun status => .bind fun _ => .ite (.bind fun _ => ?_) .failure
  exact .bind fun n => .ite .success (.bind fun _ => .failure)

variable (env) in
/-- The five functions return `XST_SUCCESS` or `XST_FAILURE`.  So to report a failure is to
return the second of them. -/
theorem WritingCall.run_twoValued (call : WritingCall) : TwoValued (call.run (σ := σ) env) := by
  cases call with
  | eraseSectorFlash => exact .ite (.checkLoop _ _) .failure
  | dieErase uscDieNr =>
      rw [WritingCall.run, spiFlashDieErase_eq]
      exact .check eraseTail_twoValued
  | flashEraseMain => exact .check (.check .success)
  | program call =>
      rw [WritingCall.run, call.run_eq]
      exact .bind fun _ => .check <| .bind fun _ => .check <| .bind fun _ => .check <|
        .bind fun _ => .success
  | download => exact .bind fun _ => .success

/-- So a call that gives up has reported a failure. -/
theorem WritingCall.reportsFailure {call : WritingCall} (h : GivesUp (call.run env w).1) :
    ReportsFailure (call.run env w).1 := by
  rcases hrun : call.run env w with ⟨outcome, w'⟩
  rw [hrun] at h
  rcases h with ⟨status, rfl, hne⟩ | hwild
  · rcases (wp_of_ret hrun).mp (call.run_twoValued env w) with rfl | rfl
    · exact absurd rfl hne
    · exact .inl rfl
  · exact .inr hwild

theorem ReportsFailure.givesUp {outcome : Outcome Xst} (h : ReportsFailure outcome) :
    GivesUp outcome := by
  rcases h with rfl | rfl
  · exact givesUp_of_ne (by decide)
  · exact .inr rfl

/-- The failures that are excused do no harm: the next steps fail as well, and change nothing.

The failing transfer is in front of `GetStatus`, in it, or behind it.  The first and the last
kind are heeded; for the second the condition gives a failure at the next steps. -/
theorem WritingCall.reported_of_statusKept {call : WritingCall}
    (hcall : ∀ startDie, call ≠ .download startDie)
    (h : ∀ v ∈ call.statusCalls env w, StatusKept env v.2 v.1) : Reported (call.run env) w := by
  have heeds : transferJournal.HeedsFrom (fun w₁ => ∃ following,
      (w₁, following) ∈ call.statusCalls env w ∧ ¬ StatusReported env w₁) (call.run env) w :=
    WritingCall.heeds hcall fun v hv hno => ⟨v.2, hv, hno⟩
  obtain ⟨es, hes, hheeds⟩ := heeds
  intro pre e post hsplit hfailed
  have hes' : (call.run env w).2.events = w.events ++ es := hes
  rw [newEvents_of_eq hes'] at hsplit
  rcases hheeds pre e post hsplit hfailed with
    ⟨hgives, hpost⟩ | ⟨w₁, ⟨following, hv, hno⟩, rest, hrest⟩
  · exact ⟨WritingCall.reportsFailure hgives, hpost⟩
  obtain ⟨k, hcomes, hdescribes⟩ := WritingCall.comesTo hv
  obtain ⟨w₂, hstatus, hstops⟩ := ((statusKept_iff hcomes.errorFree).mp (h _ hv)).resolve_left hno
  have hfree : ErrorFree w₂ := getStatus_errorFree hcomes.errorFree hstatus
  obtain ⟨hgives, es₂, hes₂, hkeeping⟩ :=
    (hdescribes { w₂ with transferInProgress := false } hfree).mpr hstops
  have hrun := hcomes.goesOn w₂ hstatus
  rw [← hrun] at hgives
  refine ⟨WritingCall.reportsFailure hgives, fun e' he' => ?_⟩
  -- what is behind the failure belongs to `GetStatus` or to the next steps
  have talks : Talks statusFrames w₁ (getStatus env w₁).2 := getStatus_talks subset_rfl w₁
  obtain ⟨es₁, hes₁, hspeaks⟩ := talks.events
  have hevents : (call.run env w).2.events = w₁.events ++ (es₁ ++ es₂) := by
    rw [hstatus] at hes₁
    have hes₁ : w₂.events = w₁.events ++ es₁ := hes₁
    have hes₂ : (k { w₂ with transferInProgress := false }).2.events = w₂.events ++ es₂ := hes₂
    rw [hrun, hes₂, hes₁, List.append_assoc]
  have hrest : w₁.events ++ rest = w.events ++ pre := hrest
  have hall : es₁ ++ es₂ = rest ++ e :: post := by
    rw [hes', hsplit, ← List.append_assoc, ← hrest, List.append_assoc] at hevents
    exact (List.append_cancel_left hevents).symm
  have hmem : e' ∈ es₁ ++ es₂ := by
    rw [hall]
    simp [he']
  rcases List.mem_append.mp hmem with hmem | hmem
  · exact not_changesFlash_of_status (hspeaks e' hmem)
  · exact hkeeping e' hmem

/-- A failure that `GetStatus` drops is only made good by the next steps.

The transfer is in the record of the call, so the call must fail without doing harm; and what
is left of it behind `GetStatus` does so exactly where its opening gives up. -/
theorem WritingCall.statusKept_of_reported {call : WritingCall} (h : Reported (call.run env) w)
    {v : World σ × Following} (hv : v ∈ call.statusCalls env w) : StatusKept env v.2 v.1 := by
  obtain ⟨w₁, following⟩ := v
  obtain ⟨k, hcomes, hdescribes⟩ := WritingCall.comesTo hv
  refine (statusKept_iff hcomes.errorFree).mpr ?_
  by_cases hno : StatusReported env w₁
  · exact .inl hno
  refine .inr ?_
  obtain ⟨⟨e, he, hfailed⟩, hgood⟩ := Classical.not_imp.mp hno
  obtain ⟨before, hbefore, -⟩ := hcomes.before
  obtain ⟨after, hafter, -⟩ := hcomes.after
  obtain ⟨es, hes, -⟩ := (getStatus_grows : Moves _ (getStatus env)) w₁
  rw [newEvents_of_eq hes] at he
  obtain ⟨pre, post, rfl⟩ := List.append_of_mem he
  -- the whole run, around the transfer that failed
  have hevents : (call.run env w).2.events =
      w.events ++ ((before ++ pre) ++ e :: (post ++ after)) := by
    rw [hafter, hes, hbefore]
    simp
  obtain ⟨hfails, hpost⟩ := h _ e _ (newEvents_of_eq hevents) hfailed
  rcases hstatus : getStatus env w₁ with ⟨status | why, w₂⟩
  · have hok : status = .success := by
      by_contra hne
      exact hgood (hstatus ▸ givesUp_of_ne hne)
    subst hok
    have hrun := hcomes.goesOn w₂ hstatus
    have hfree : ErrorFree w₂ := getStatus_errorFree hcomes.errorFree hstatus
    refine ⟨w₂, rfl, (hdescribes { w₂ with transferInProgress := false } hfree).mp
      ⟨?_, after, ?_, fun e' he' => ?_⟩⟩
    · rw [← hrun]
      exact hfails.givesUp
    · rw [← hrun]
      rw [hstatus] at hafter
      exact hafter
    · exact hpost e' (List.mem_append_right _ he')
  · rw [hcomes.stops why w₂ hstatus] at hfails
    exact absurd (hstatus ▸ hfails.givesUp.elim (fun ⟨_, hret, _⟩ => nomatch hret)
      fun hwild => .inr (congrArg Outcome.stop (Outcome.stop.inj hwild))) hgood

/-! ## Downloads -/

theorem qspiProgramFlash_heedful (startDie : UInt32) :
    Heedful excused (qspiProgramFlash (σ := σ) env startDie) :=
  imageFile_heedful (fun _ _ => moves_pure _) (programPage_heedful _) (moves_pure _)

/-- A download ends where `qspi_program_flash` does, and returns `XST_SUCCESS` if it returns.
The same transfers are made, and only the result is another. -/
theorem download_eq (env : Env) (startDie : UInt32) (w : World σ) : ∃ outcome, downloadSerialDataToQSPIFlash env startDie w =
    (outcome, (qspiProgramFlash env startDie w).2) ∧
      (ReportsFailure outcome ↔ (qspiProgramFlash env startDie w).1 = .stop .wild) := by
  rcases hrun : qspiProgramFlash env startDie w with ⟨status | why, w₁⟩
  · refine ⟨.ret .success, bind_of_ret hrun, iff_of_false ?_ nofun⟩
    rintro (hret | hwild)
    · exact absurd (Outcome.ret.inj hret) (by decide)
    · exact nomatch hwild
  · refine ⟨.stop why, bind_of_stop hrun, ?_⟩
    constructor
    · rintro (hret | hwild)
      · exact nomatch hret
      · exact congrArg Outcome.stop (Outcome.stop.inj hwild)
    · exact fun hwild => .inr (congrArg Outcome.stop (Outcome.stop.inj hwild))

/-- A download that returns has returned `XST_SUCCESS`, so none of its transfers may fail,
unless the driver has stored past the end of `ReadBuffer`. -/
theorem download_reported_iff (startDie : UInt32) :
    Reported (downloadSerialDataToQSPIFlash env startDie) w ↔
      (FailsIn (qspiProgramFlash env startDie) w →
        (qspiProgramFlash env startDie w).1 = .stop .wild) := by
  obtain ⟨outcome, hrun, hreports⟩ := download_eq env startDie w
  rw [Reported, hrun, ← hreports]
  constructor
  · rintro h ⟨e, he, hfailed⟩
    obtain ⟨pre, post, hsplit⟩ := List.append_of_mem he
    exact (h pre e post hsplit hfailed).1
  · intro h pre e post hsplit hfailed
    refine ⟨h ⟨e, ?_, hfailed⟩, ?_⟩
    · rw [hsplit]
      simp
    -- the status is dropped, but the page loop ends with the failure
    have hheeds : Heedful (fun _ => False) (qspiProgramFlash (σ := σ) env startDie) :=
      qspiProgramFlash_heedful startDie
    obtain ⟨es, hes, hheeds⟩ := hheeds w
    rw [newEvents_of_eq hes] at hsplit
    obtain ⟨-, hpost⟩ | ⟨_, hfalse, -⟩ := hheeds pre e post hsplit hfailed
    · exact hpost
    · exact hfalse.elim

/-! ## The failures of a call -/

/-- **When failures are reported.**  For every call, from every state and whatever the
transfers return: the call fails behind a failed transfer, and sends no erase or page program
any more, if and only if no transfer fails where it drops a status, or one of its next steps
fails as well.

The left side is about the history of a run, and knows nothing of the places of the code.  The
right side names the two places where a status is dropped: `GetStatus` behind an erase, and
the download.  At each call of `GetStatus` it speaks of the transfers of its three steps and
of those of the steps that come next (`Following`), and not of what the call makes of them. -/
theorem reported_iff (call : WritingCall) (w : World σ) :
    Reported (call.run env) w ↔ call.Spared env w := by
  by_cases hcall : ∃ startDie, call = .download startDie
  · obtain ⟨startDie, rfl⟩ := hcall
    exact download_reported_iff startDie
  have hcall : ∀ startDie, call ≠ .download startDie := fun startDie h => hcall ⟨startDie, h⟩
  have hspared : call.Spared env w ↔ ∀ v ∈ call.statusCalls env w, StatusKept env v.2 v.1 := by
    cases call with
    | download startDie => exact absurd rfl (hcall startDie)
    | _ => rfl
  rw [hspared]
  exact ⟨fun h v hv => WritingCall.statusKept_of_reported h hv,
    WritingCall.reported_of_statusKept hcall⟩

end Failures

/-! ## A transfer that is lost -/

/-- A device that loses its `n`-th transfer.  The driver reports the failure, and the flash
has seen nothing. -/
def NorParams.losing (n : ℕ) : NorParams :=
  { NorParams.swift with ends := fun k => if k = n then .lost else .done }

/-- An initialised process before it.  It is where the counterexamples begin. -/
def World.losing (n : ℕ) : World (Nor (.losing n)) :=
  { World.fresh (Nor.idle (.losing n) fun _ => 0) with qspiInitFlag := true }

/-- The read of the flag status register fails behind the first of two sector erases, and
behind a die erase; the page program of a download fails.  All three calls return success,
and the second sector is erased. -/
theorem reported_counterexample :
    ((∃ e ∈ (newEvents (World.losing 12)
        (qspiEraseSectorFlash (Env.plain none 0) 0 2 (World.losing 12)).2).take 13, e.Failed) ∧
      (∃ e ∈ (newEvents (World.losing 12)
        (qspiEraseSectorFlash (Env.plain none 0) 0 2 (World.losing 12)).2).drop 13, e.ChangesFlash) ∧
      (qspiEraseSectorFlash (Env.plain none 0) 0 2 (World.losing 12)).1 = .ret .success) ∧
    ((∃ e ∈ newEvents (World.losing 16)
        (spiFlashDieErase (Env.plain none 0) 0 (World.losing 16)).2, e.Failed) ∧
      (spiFlashDieErase (Env.plain none 0) 0 (World.losing 16)).1 = .ret .success) ∧
    (∃ e ∈ newEvents (World.losing 11) (downloadSerialDataToQSPIFlash
        (Env.plain (some ⟨1, [0]⟩) 0) 0 (World.losing 11)).2, e.Failed) ∧
      (downloadSerialDataToQSPIFlash
        (Env.plain (some ⟨1, [0]⟩) 0) 0 (World.losing 11)).1 = .ret .success := by
  decide +kernel

end Kiflash
