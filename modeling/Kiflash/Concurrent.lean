import Kiflash.Imperative.History
import Kiflash.Nor.Device
import Kiflash.Operations
import Kiflash.Threads

/-!
# Flashing beside `icap`

The flashing thread reboots the FPGA when it is through, and the JavaScript side can do so at
any time.  Two things must not happen: an ICAP access while the user region is erased but not
verified, and an ICAP access in the middle of the other thread's sequence.  There is no lock
and no flag that would keep the threads apart, so that neither happens is up to the callers of
`icap`.

* `MidFlash` — a sector has been erased and no verification has passed since.
* `NeverMidFlash`, `WholeSequences` — the two requirements, on what a run has recorded.
* `KeptApart` — what the schedule has to do for them.
* `Obeys` — what a thread does on its own, act by act.
* `reboots_apart_iff` — the requirements hold if and only if the threads are kept apart.

### What an act is

The threads take turns between acts, and `Kiflash.Threads` says what these are: an SPI
command, a call that sets up the driver, a register write outside of the SPI core, an access
to the static variables.  A schedule may therefore put an ICAP write of one thread between any
two commands of the other.  Each ICAP access is an act of its own, so the turns may change
between any two words of a sequence.

### From one thread to two

Each thread is described alone first: `Follows Obeys` says that, whatever the other thread has
done to the state in between, it writes the words of `icap(0)` in their order, and the
flashing thread does so behind its own verification only.  The invariant of the two together
is `Tallied`.  It counts the accesses of each, and says that at most one of them is inside a
sequence as long as sequences are whole; and the words are all different from the first one,
so an access in the middle of the other's sequence is seen in the record (`expected_iff`).

### What holds without a condition

The flashing thread's own reboot comes behind the verification in every schedule.  The
condition is on the other calls, and on the two sequences not being mixed.
-/

open Imperative Imperative.Prog

namespace Kiflash

/-! ## What is required -/

section Definitions

variable {σ : Type}

/-- The event is a sector erase command.  The first of them is where flashing begins to be
dangerous. -/
def Event.ErasesSector : Event σ → Prop
  | .transfer _ frame _ => frame.head? = some commandSectorErase
  | _ => False

instance : DecidablePred (Event.ErasesSector (σ := σ)) := fun e => by
  cases e <;> unfold Event.ErasesSector <;> infer_instance

/-- The address and the data of a register write outside the SPI core.  Other events have
none. -/
def Event.access : Event σ → Option (UInt64 × UInt64)
  | .pciWrite _ address word => some (address, word)
  | _ => none

/-- The ICAP accesses among the events, in their order. -/
def icapAccesses (es : List (Event σ)) : List (UInt64 × UInt64) := es.filterMap Event.access

/-- The accesses of one call of `icap(0)`: the words of the sequence, and the write that sends
them. -/
def iprogAccesses : List (UInt64 × UInt64) :=
  (iprogWords 0).map (icapBaseAddr + icapWriteFifo, ·) ++ [(icapBaseAddr + icapWriteControl, 1)]

/-- From the first sector erase command on, until the verification has passed.  In between the
user region holds neither the old nor the new image. -/
def MidFlash (es : List (Event σ)) : Prop := (∃ e ∈ es, e.ErasesSector) ∧ .verifyPassed ∉ es

instance (es : List (Event σ)) : Decidable (.verifyPassed ∈ es) :=
  decidable_of_iff (∃ e ∈ es, e matches .verifyPassed) <| by
    constructor
    · rintro ⟨e, he, hpassed⟩
      cases e <;> first | exact he | exact nomatch hpassed
    · exact fun h => ⟨_, h, rfl⟩

instance (es : List (Event σ)) : Decidable (MidFlash es) :=
  inferInstanceAs (Decidable ((∃ e ∈ es, e.ErasesSector) ∧ .verifyPassed ∉ es))

/-- No word of an IPROG sequence is written in the middle of flashing.  It is the first part
of what two threads should keep. -/
def NeverMidFlash (es : List (Event σ)) : Prop :=
  Throughout (fun past e => e.access ≠ none → ¬ MidFlash past) es

instance (es : List (Event σ)) : Decidable (NeverMidFlash es) :=
  inferInstanceAs (Decidable (Throughout _ es))

/-- The ICAP core sees whole IPROG sequences, one after the other; the last one may be under
way.  It is the second part. -/
def WholeSequences (es : List (Event σ)) : Prop := Repeats iprogAccesses (icapAccesses es)

/-! ## What the schedule has to do -/

/-- The ICAP accesses of an act.  An act of `icap` has one, and every other act none. -/
def actAccesses (a : Act (World σ)) : List (UInt64 × UInt64) :=
  icapAccesses (newEvents a.before a.after)

/-- The ICAP accesses of one of the threads, in the order of its acts. -/
def accessesOf (turn : Turn) (past : List (Act (World σ))) : List (UInt64 × UInt64) :=
  (past.filter (·.turn = turn)).flatMap actAccesses

/-- The thread has begun an IPROG sequence and not finished it.  A word of the other thread
now breaks the sequence. -/
def InSequence (turn : Turn) (past : List (Act (World σ))) : Prop :=
  ¬ iprogAccesses.length ∣ (accessesOf turn past).length

/-- The JavaScript thread, which takes the right turns, does not access the ICAP core in the
middle of flashing, and no thread accesses it in the middle of the other one's sequence.  Both
are conditions on the moment of an access and what has been done before it. -/
def KeptApart (w : World σ) (past : List (Act (World σ))) : Prop :=
  Throughout (fun earlier a => actAccesses a ≠ [] →
    (a.turn = .right → ¬ MidFlash (newEvents w a.before)) ∧ ¬ InSequence a.turn.other earlier) past

variable [XSpiDriver σ]

/-- `Execute` beside `n` calls of the exported `icap`, after the turns of the schedule.  A
schedule may stop anywhere. -/
def flashing (env : Env) (n : ℕ) (schedule : List Turn) (w : World σ) :
    Interleaving (World σ) Xst Unit :=
  (Interleaving.start (Threads.kiflashProgramUser env) (Threads.icapCalls env n) w).run schedule

end Definitions

/-! ## Acts without a register write -/

/-- None of the thread's acts writes a register outside the SPI core.  All of the flash code
but `icap` is calm. -/
abbrev Calm {σ α : Type} (t : Thread (World σ) α) : Prop := t.Only (Emits noPciWrite)

namespace Threads

open Thread

section Calm

variable {σ : Type} {env : Env}

/-- Reading a variable. -/
theorem calm_gets {α : Type} {f : World σ → α} : Calm (atomic (.gets f)) := .atomic (moves_gets f)

/-- A store that is not recorded. -/
theorem calm_modify {f : World σ → World σ} (h : ∀ w, (f w).events = w.events) :
    Calm (atomic (.modify f)) :=
  .atomic (moves_modify fun w => .of_eq (h w))

theorem calm_setPercentage {value : UInt32} :
    Calm (σ := σ) (atomic (setPercentage env value)) :=
  .atomic <| Moves.ite (moves_modify fun _ => .of_mem rfl (percentage_noPciWrite value)) (moves_pure _)

theorem calm_reportProgress {base : ℚ} {totalPage : UInt32} {it : PageLoop} :
    Calm (σ := σ) (atomic (reportProgress env base totalPage it)) :=
  .atomic <| Moves.ite (Moves.ite (moves_modify fun _ => .of_mem rfl (percentage_noPciWrite _))
    (moves_pure _)) (moves_pure _)

theorem calm_pcimemInit : Calm (σ := σ) (atomic (pcimemInit env)) := by
  refine .atomic fun w => ?_
  unfold pcimemInit
  split <;> exact .of_eq rfl

theorem calm_callDriver {call : σ → Xst × σ} : Calm (atomic (callDriver call)) :=
  .atomic fun _ => .of_eq rfl

theorem fillWriteBuffer_emits {i : ℕ} {bs : List UInt8} :
    Moves (Emits noPciWrite) (fillWriteBuffer (σ := σ) i bs) := fun _ =>
  wp_state_iff.mp (wp_fillWriteBuffer (fun _ => .of_eq rfl) fun _ => .of_eq rfl)

variable [XSpiDriver σ]

theorem command_emits {recv : Bool} {n : ℕ} :
    Moves (Emits noPciWrite) (command (σ := σ) env recv n (pure .success)) := fun _ =>
  (wp_state_iff.mp (command_talks (A := Set.univ) (moves_pure _) trivial)).emits transfers_noPciWrite.admits

/-- A frame built and sent, in one act. -/
theorem calm_send {bs : List UInt8} {recv : Bool} {n : ℕ} : Calm (send (σ := σ) env bs recv n) :=
  .atomic (fillWriteBuffer_emits.bind fun _ => command_emits)

theorem calm_wait : Calm (spiFlashWaitForFlashReady (σ := σ) env) :=
  .loop (fun _ => calm_send.bind fun _ =>
    (calm_gets.bind fun _ => (only_pure _).ite (only_pure _)).ite (only_pure _)) _ _

theorem calm_writeEnable : Calm (spiFlashWriteEnable (σ := σ) env) := calm_wait.check calm_send

theorem calm_enabledCommand {cmd : UInt8} : Calm (enabledCommand (σ := σ) env cmd) :=
  calm_writeEnable.check (calm_wait.check calm_send)

theorem calm_getStatus : Calm (getStatus (σ := σ) env) :=
  calm_send.bind fun _ => (calm_writeEnable.check (calm_wait.check calm_send)).bind fun _ =>
    (calm_wait.check calm_send).bind fun _ => only_pure _

theorem calm_writeFile {addr byteCount : UInt32} {writeCmd : UInt8} {pageBuffer : ℕ → UInt8} :
    Calm (spiFlashWriteFile (σ := σ) env addr byteCount writeCmd pageBuffer) := by
  refine calm_enabledCommand.check <| calm_writeEnable.check <| calm_wait.check <|
    Only.check (.atomic ?_) calm_enabledCommand
  exact fillWriteBuffer_emits.bind fun _ => fillWriteBuffer_emits.bind fun _ => command_emits

theorem calm_read {addr byteCount : UInt32} {readCmd : UInt8} :
    Calm (spiFlashRead (σ := σ) env addr byteCount readCmd) :=
  calm_enabledCommand.check <| calm_writeEnable.check <| calm_wait.check <|
    calm_send.check calm_enabledCommand

/-- The sector erase, with its polls.  It is long in acts, but each of them is a transfer or a
look at the statics. -/
theorem calm_sectorErase {addr : UInt32} : Calm (spiFlashSectorErase (σ := σ) env addr) := by
  have sent : Moves (Emits noPciWrite) (sendErase (σ := σ) env commandSectorErase addr) :=
    fillWriteBuffer_emits.bind fun _ => Moves.bind (moves_modify fun _ => .of_eq rfl) fun _ _ =>
      (wp_state_iff.mp (xspiTransfer_talks (A := Set.univ) trivial)).emits transfers_noPciWrite.admits
  have counted : Moves (Emits noPciWrite) (errorCheck (σ := σ)) :=
    (moves_gets _).bind fun _ => (moves_pure _).ite
      (Moves.bind (moves_modify fun _ => .of_eq rfl) fun _ => moves_pure _)
  refine calm_enabledCommand.check <| calm_writeEnable.check <| calm_wait.check <|
    Only.check (.atomic sent) <| calm_getStatus.bind fun _ =>
    (calm_modify fun _ => rfl).bind fun _ => Only.ite ?_ (only_pure _)
  exact Only.bind (.loop (fun _ => calm_gets.bind fun _ => only_pure _) _ _) fun _ => .atomic counted

/-- The startup behind its flag. -/
theorem calm_ensureInit : Calm (ensureInit (σ := σ) env) := by
  have startup : Calm (systemInitStartup (σ := σ) env) := by
    unfold systemInitStartup
    split
    · exact only_pure _
    · exact (calm_modify fun _ => rfl).bind fun _ => calm_callDriver.check <|
        calm_callDriver.check <| calm_callDriver.check <| calm_callDriver.bind fun _ =>
        calm_writeEnable.check (only_pure _)
  exact calm_gets.bind fun _ => (only_pure _).ite <|
    startup.check ((calm_modify fun _ => rfl).bind fun _ => only_pure _)

theorem calm_eraseStage : Calm (eraseStage (σ := σ) env) :=
  calm_gets.bind fun _ => Only.bind
    (Only.ite (.checkLoop (fun _ => calm_sectorErase) _ _) (only_pure _)) fun _ =>
    calm_setPercentage.bind fun _ => only_pure _

theorem calm_programPage {baseStartAddr startAddr : UInt32} {file : File} :
    Calm (programPage (σ := σ) env baseStartAddr file startAddr) :=
  Only.bind (Only.bind (.atomic fun _ => .of_eq rfl) fun _ => only_pure _) fun _ =>
    calm_writeEnable.check calm_writeFile

theorem calm_verifyPage {baseStartAddr startAddr : UInt32} {file : File} :
    Calm (verifyPage (σ := σ) env baseStartAddr file startAddr) :=
  Only.bind (Only.bind (.atomic fun _ => .of_eq rfl) fun _ => only_pure _) fun _ =>
    calm_writeEnable.check <| (calm_modify fun _ => rfl).bind fun _ => calm_read.check <|
    calm_gets.bind fun _ => (only_pure _).ite (only_pure _)

theorem calm_kiflashInit : Calm (kiflashInit (σ := σ) env) :=
  (calm_modify fun _ => rfl).bind fun _ => calm_setPercentage.bind fun _ =>
    calm_pcimemInit.bind fun _ => calm_ensureInit.check (only_pure _)

end Calm

end Threads

/-! ## What the threads do on their own -/

/-- How far a thread is: its ICAP accesses, and whether it may make any.  This is all that the
invariant keeps of a thread. -/
structure Sequencer where
  accesses : ℕ
  cleared : Bool

/-- An act of a thread that accesses the ICAP core in the order of `icap(0)` only, and not
before it is cleared for that; a verification that passes clears it.  The act may begin in any
state, as the other thread has been at work. -/
inductive Obeys {σ : Type} : Sequencer → World σ → World σ → Sequencer → Prop
  | quiet {c : Sequencer} {w w' : World σ} (h : Emits noPciWrite w w') : Obeys c w w' c
  | passed {c : Sequencer} {w w' : World σ} (h : w'.events = w.events ++ [.verifyPassed]) :
    Obeys c w w' { c with cleared := true }
  | access {c : Sequencer} {w w' : World σ} {before : σ} {address word : UInt64}
    (hcleared : c.cleared = true)
    (hword : iprogAccesses[c.accesses % iprogAccesses.length]? = some (address, word))
    (h : w'.events = w.events ++ [.pciWrite before address word]) :
    Obeys c w w' { c with accesses := c.accesses + 1 }

namespace Threads

open Thread

section Follows

variable {σ : Type} [XSpiDriver σ] {env : Env} {c : Sequencer}

/-- The accesses so far, and whether a success has been earned.  Only the verification clears
the flashing thread. -/
def Cleared (c : Sequencer) (outcome : Outcome Xst) (c' : Sequencer) : Prop :=
  c'.accesses = c.accesses ∧ (outcome = .ret .success → c'.cleared = true)

/-- A failure need not be earned. -/
theorem cleared_failure : Cleared c (.ret .failure) c := ⟨rfl, nofun⟩

theorem cleared_stop (why : Stop) : Cleared c (.stop why) c := ⟨rfl, nofun⟩

/-- `qspi_verify_bin` succeeds with its message only.  The message is the act that clears the
thread, and nothing in front of it does. -/
theorem qspiVerifyBin_follows : Follows Obeys (Cleared c) (qspiVerifyBin (σ := σ) env) c := by
  have quiet : ∀ w w' : World σ, Emits noPciWrite w w' → Obeys c w w' c := fun _ _ => .quiet
  refine calm_gets.follows_bind quiet (fun data => ?_) cleared_stop
  refine Only.follows_bind (.atomic fun _ => .of_eq rfl) quiet (fun fp => ?_) cleared_stop
  cases fp with
  | none => exact follows_pure cleared_failure
  | some file =>
      have pages : Calm (pageLoop (σ := σ) (reportProgress env 60)
          (verifyPage env data.baseAddr file) (pageCount file.ftell)) :=
        .checkLoop (fun _ => calm_reportProgress.bind fun _ => calm_verifyPage) _ _
      refine calm_ensureInit.follows_check quiet ?_ cleared_failure cleared_stop
      refine calm_callDriver.follows_check quiet ?_ cleared_failure cleared_stop
      refine calm_callDriver.follows_bind quiet (fun _ => ?_) cleared_stop
      refine calm_writeEnable.follows_check quiet ?_ cleared_failure cleared_stop
      refine pages.follows_check quiet ?_ cleared_failure cleared_stop
      refine .bind (.atomic fun w => ⟨{ c with cleared := true }, .passed rfl, ?_⟩)
      have close : Calm (σ := σ) (atomic fclose) := calm_modify fun _ => rfl
      exact close.follows_bind (fun _ _ => .quiet) (fun _ => follows_pure ⟨rfl, fun _ => rfl⟩)
        fun _ => ⟨rfl, nofun⟩

/-- `program_user` succeeds behind its verification only, and makes no access itself.  The
stages in front of the verification are calm, and a failure of any of them ends the thread
uncleared. -/
theorem programUser_follows : Follows Obeys (Cleared c) (programUser (σ := σ) env) c := by
  have quiet : ∀ w w' : World σ, Emits noPciWrite w w' → Obeys c w w' c := fun _ _ => .quiet
  have programs : Calm (qspiProgramBin (σ := σ) env) := by
    refine calm_gets.bind fun data => Only.bind (.atomic fun _ => .of_eq rfl) fun fp => ?_
    cases fp with
    | none => exact only_pure _
    | some file =>
        exact calm_ensureInit.check <| calm_callDriver.check <| calm_callDriver.bind fun _ =>
          calm_writeEnable.check <|
          Only.check (.checkLoop (fun _ => calm_reportProgress.bind fun _ => calm_programPage) _ _) <|
          Only.bind (.atomic (moves_pure _)) fun _ => (calm_modify fun _ => rfl).bind fun _ =>
          only_pure _
  refine calm_setPercentage.follows_bind quiet (fun _ => ?_) cleared_stop
  refine calm_eraseStage.follows_check quiet ?_ cleared_failure cleared_stop
  refine calm_setPercentage.follows_bind quiet (fun _ => ?_) cleared_stop
  refine programs.follows_check quiet ?_ cleared_failure cleared_stop
  refine calm_setPercentage.follows_bind quiet (fun _ => ?_) cleared_stop
  refine .check (qspiVerifyBin_follows.mono fun outcome c' h => ?_)
  obtain ⟨haccesses, hcleared⟩ := h
  rcases outcome with status | why
  · refine ⟨fun hok => ?_, fun _ => ⟨haccesses, nofun⟩⟩
    subst hok
    exact calm_setPercentage.follows_bind (fun _ _ => .quiet)
      (fun _ => follows_pure ⟨haccesses, fun _ => hcleared rfl⟩) fun _ => ⟨haccesses, nofun⟩
  · exact ⟨haccesses, nofun⟩

/-- The FIFO writes, from the word behind `sent` on.  The number of accesses so far says which
word is next. -/
theorem icapWords_follows (sent words : List UInt64) (hwords : iprogWords 0 = sent ++ words)
    (hcleared : c.cleared = true) (hsent : c.accesses % iprogAccesses.length = sent.length) :
    Follows Obeys (fun outcome c' => outcome = .ret () ∧
      c' = { c with accesses := c.accesses + words.length }) (icapWords (σ := σ) words) c := by
  induction words generalizing sent c with
  | nil => exact follows_pure ⟨rfl, rfl⟩
  | cons word words ih =>
      have hlen : sent.length + words.length + 1 = 8 := by
        have h := congrArg List.length hwords
        rw [List.length_append, List.length_cons] at h
        exact h.symm
      have hword : iprogAccesses[c.accesses % iprogAccesses.length]? =
          some (icapBaseAddr + icapWriteFifo, word) := by
        rw [hsent, iprogAccesses, hwords]
        simp
      refine .bind (.atomic fun w => ⟨_, .access hcleared hword rfl, ?_⟩)
      refine (ih (c := { c with accesses := c.accesses + 1 }) (sent ++ [word]) ?_ hcleared ?_).mono
        fun outcome c' h => ?_
      · rw [hwords, List.append_assoc]
        rfl
      · change (c.accesses + 1) % 9 = _
        change c.accesses % 9 = _ at hsent
        rw [List.length_append, List.length_singleton]
        omega
      · rw [h.1, h.2, List.length_cons, Nat.add_assoc, Nat.add_comm 1]
        exact ⟨rfl, rfl⟩

/-- A call of `icap` is one whole sequence.  It can begin where a sequence has ended, and ends
where the next one can begin. -/
theorem icap_follows (hcleared : c.cleared = true) (hwhole : iprogAccesses.length ∣ c.accesses) :
    Follows Obeys (fun _ c' => c'.cleared = true ∧ iprogAccesses.length ∣ c'.accesses)
      (icap (σ := σ) 0) c := by
  have hstart : c.accesses % iprogAccesses.length = 0 := Nat.mod_eq_zero_of_dvd hwhole
  refine .bind ((icapWords_follows [] _ rfl hcleared hstart).mono fun outcome c' h => ?_)
  obtain ⟨rfl, rfl⟩ := h
  have hword : iprogAccesses[(c.accesses + 8) % iprogAccesses.length]? =
      some (icapBaseAddr + icapWriteControl, 0x00000001) := by
    rw [Nat.add_mod, hstart]
    rfl
  refine .bind (.atomic fun w => ⟨_, .access hcleared hword rfl, follows_pure ⟨hcleared, ?_⟩⟩)
  change iprogAccesses.length ∣ c.accesses + 9
  exact Nat.dvd_add hwhole (Nat.dvd_refl 9)

/-- **The flashing thread accesses the ICAP core behind its verification only.**  Up to `icap`
its acts are calm, and `icap` is reached through the success of `program_user`, which clears
the thread. -/
theorem kiflashProgramUser_follows (hwhole : iprogAccesses.length ∣ c.accesses) :
    Follows Obeys (fun _ _ => True) (kiflashProgramUser (σ := σ) env) c := by
  have quiet : ∀ w w' : World σ, Emits noPciWrite w w' → Obeys c w w' c := fun _ _ => .quiet
  have select : Calm (σ := σ) (atomic (selectRegion .user)) := calm_modify fun _ => rfl
  refine calm_kiflashInit.follows_bind quiet (fun _ => ?_) fun _ => by trivial
  refine select.follows_bind quiet (fun _ => ?_) fun _ => by trivial
  refine calm_setPercentage.follows_bind quiet (fun _ => ?_) fun _ => by trivial
  refine .check (programUser_follows.mono fun outcome c' h => ?_)
  obtain ⟨haccesses, hcleared⟩ := h
  rcases outcome with status | why
  · refine ⟨fun hok => ?_, fun _ => trivial⟩
    subst hok
    refine .bind ((icap_follows (hcleared rfl) (haccesses ▸ hwhole)).mono fun outcome c'' _ => ?_)
    rcases outcome with status | why
    · exact calm_setPercentage.follows_bind (fun _ _ => .quiet) (fun _ => by trivial) fun _ => by trivial
    · trivial
  · trivial

theorem kiflashIcap_follows (hcleared : c.cleared = true)
    (hwhole : iprogAccesses.length ∣ c.accesses) :
    Follows Obeys (fun _ c' => c'.cleared = true ∧ iprogAccesses.length ∣ c'.accesses)
      (kiflashIcap (σ := σ) env 0) c := by
  have quiet : ∀ w w' : World σ, Emits noPciWrite w w' → Obeys c w w' c := fun _ _ => .quiet
  have sequence := icap_follows (σ := σ) hcleared hwhole
  refine calm_gets.follows_bind quiet (fun _ => ?_) fun _ => ⟨hcleared, hwhole⟩
  exact .ite sequence <|
    calm_kiflashInit.follows_bind quiet (fun _ => sequence) fun _ => ⟨hcleared, hwhole⟩

/-- **The JavaScript thread accesses the ICAP core in whole sequences.**  The induction is on
the calls: each begins where the number of accesses is a multiple of the length of a sequence,
and ends so. -/
theorem icapCalls_follows (n : ℕ) (hcleared : c.cleared = true)
    (hwhole : iprogAccesses.length ∣ c.accesses) :
    Follows Obeys (fun _ _ => True) (icapCalls (σ := σ) env n) c := by
  induction n generalizing c with
  | zero => exact follows_pure trivial
  | succ n ih =>
      refine .bind ((kiflashIcap_follows hcleared hwhole).mono fun outcome c' h => ?_)
      rcases outcome with status | why
      · exact ih h.1 h.2
      · trivial

end Follows

end Threads

/-! ## What an act adds -/

section Tally

variable {σ : Type} {w w₁ w₂ : World σ} {past : List (Act (World σ))} {turn : Turn}

/-- The accesses of two stretches of the record. -/
theorem icapAccesses_append (es es' : List (Event σ)) :
    icapAccesses (es ++ es') = icapAccesses es ++ icapAccesses es' := List.filterMap_append

theorem Emits.icapAccesses_eq {es : List (Event σ)} (h : ∀ e ∈ es, e ∈ noPciWrite) :
    icapAccesses es = [] := by
  refine List.filterMap_eq_nil_iff.mpr fun e he => ?_
  cases e with
  | pciWrite before address word => exact absurd rfl (h _ he before address word)
  | _ => rfl

/-- The accesses of an act are those of the events that it adds. -/
theorem actAccesses_eq {es : List (Event σ)} (h : w₂.events = w₁.events ++ es) :
    actAccesses ⟨turn, w₁, w₂⟩ = icapAccesses es := by
  change icapAccesses (newEvents w₁ w₂) = _
  rw [newEvents_of_eq h]

/-- An act adds to the accesses of its own thread. -/
theorem accessesOf_concat (turn : Turn) (past : List (Act (World σ))) (a : Act (World σ)) :
    accessesOf turn (past ++ [a]) =
      accessesOf turn past ++ if a.turn = turn then actAccesses a else [] := by
  by_cases h : a.turn = turn <;> simp [accessesOf, List.filter_append, h]

theorem accessesOf_other (past : List (Act (World σ))) (a : Act (World σ)) :
    accessesOf a.turn.other (past ++ [a]) = accessesOf a.turn.other past := by
  rw [accessesOf_concat, if_neg a.turn.ne_other, List.append_nil]

/-- One act more: the condition is on this act, and on those before it. -/
theorem keptApart_concat {a : Act (World σ)} :
    KeptApart w (past ++ [a]) ↔ KeptApart w past ∧ (actAccesses a ≠ [] →
      (a.turn = .right → ¬ MidFlash (newEvents w a.before)) ∧ ¬ InSequence a.turn.other past) :=
  throughout_concat

/-- The first word of a sequence occurs nowhere else in it. -/
theorem iprogAccesses_first : ∀ i < iprogAccesses.length,
    iprogAccesses[i]? = iprogAccesses[0]? → i = 0 := by decide

/-- Of two threads, at most one in a sequence: the word that one of them writes next is the
word that the core expects, exactly if the other one is not in a sequence. -/
theorem expected_iff {m n : ℕ} {access : UInt64 × UInt64}
    (hfree : iprogAccesses.length ∣ m ∨ iprogAccesses.length ∣ n)
    (hword : iprogAccesses[m % iprogAccesses.length]? = some access) :
    iprogAccesses[(m + n) % iprogAccesses.length]? = some access ↔ iprogAccesses.length ∣ n := by
  constructor
  · intro h
    rcases hfree with hm | hn
    · rw [Nat.mod_eq_zero_of_dvd hm] at hword
      rw [Nat.add_mod, Nat.mod_eq_zero_of_dvd hm, Nat.zero_add, Nat.mod_mod, ← hword] at h
      exact Nat.dvd_of_mod_eq_zero (iprogAccesses_first _ (Nat.mod_lt _ (by decide)) h)
    · exact hn
  · intro hn
    rw [Nat.add_mod, Nat.mod_eq_zero_of_dvd hn, Nat.add_zero, Nat.mod_mod]
    exact hword

/-- The invariant of the two threads together: the accesses of the run are those of the two,
at most one of them is in a sequence as long as sequences are whole, and so far the
requirements hold if and only if the threads have been kept apart.

The field `free` is what carries the equivalence over an access: with both threads inside a
sequence the count of all accesses would no longer tell whose word comes next. -/
structure Tallied (w : World σ) (past : List (Act (World σ))) (w' : World σ) : Prop where
  grows : w.events <+: w'.events
  total : (icapAccesses (newEvents w w')).length =
    (accessesOf .left past).length + (accessesOf .right past).length
  free : WholeSequences (newEvents w w') → ¬ InSequence .left past ∨ ¬ InSequence .right past
  iff : NeverMidFlash (newEvents w w') ∧ WholeSequences (newEvents w w') ↔ KeptApart w past

theorem tallied_nil : Tallied w [] w := by
  have hnone : newEvents w w = [] := by rw [newEvents, List.drop_length]
  refine ⟨List.prefix_rfl, by rw [hnone]; rfl, fun _ => .inl (not_not.mpr (Nat.dvd_zero _)), ?_⟩
  rw [hnone]
  exact iff_of_true ⟨throughout_nil, repeats_nil⟩ throughout_nil

/-- An act without a register write.  What the ICAP core has seen is the same, and so is what
the record says of it. -/
theorem Tallied.silent {es : List (Event σ)} (h : Tallied w past w₁)
    (h₂ : w₂.events = w₁.events ++ es) (hes : ∀ e ∈ es, e ∈ noPciWrite) :
    Tallied w (past ++ [⟨turn, w₁, w₂⟩]) w₂ := by
  have hnone : icapAccesses es = [] := Emits.icapAccesses_eq hes
  have hact : actAccesses ⟨turn, w₁, w₂⟩ = [] := (actAccesses_eq h₂).trans hnone
  have hsame : ∀ turn', accessesOf turn' (past ++ [⟨turn, w₁, w₂⟩]) = accessesOf turn' past := by
    intro turn'
    rw [accessesOf_concat, hact, ite_self, List.append_nil]
  have hnew := newEvents_append h.grows h₂
  have haccesses : icapAccesses (newEvents w w₂) = icapAccesses (newEvents w w₁) := by
    rw [hnew, icapAccesses_append, hnone, List.append_nil]
  have hwhole : WholeSequences (newEvents w w₂) ↔ WholeSequences (newEvents w w₁) := by
    rw [WholeSequences, WholeSequences, haccesses]
  refine ⟨h₂ ▸ h.grows.trans (List.prefix_append _ _), ?_, fun hw => ?_, ?_⟩
  · rw [haccesses, hsame, hsame, h.total]
  · rw [InSequence, InSequence, hsame, hsame]
    exact h.free (hwhole.mp hw)
  · have hnever : NeverMidFlash (newEvents w w₂) ↔ NeverMidFlash (newEvents w w₁) := by
      rw [hnew]
      refine throughout_append_iff fun _ e he haccess => absurd ?_ haccess
      cases e with
      | pciWrite before address word => exact absurd rfl (hes _ he before address word)
      | _ => rfl
    rw [hnever, hwhole, h.iff, keptApart_concat]
    exact (and_iff_left fun hne => absurd hact hne).symm

/-- The next access of a thread.  It is the word that the core expects if and only if the
other thread is not in a sequence, and it is mid-flash or not by what the record says. -/
theorem Tallied.access {before : σ} {address word : UInt64} (h : Tallied w past w₁)
    (hword : iprogAccesses[(accessesOf turn past).length % iprogAccesses.length]? =
      some (address, word))
    (hleft : turn = .left → ¬ MidFlash (newEvents w w₁))
    (h₂ : w₂.events = w₁.events ++ [.pciWrite before address word]) :
    Tallied w (past ++ [⟨turn, w₁, w₂⟩]) w₂ := by
  have hact : actAccesses ⟨turn, w₁, w₂⟩ = [(address, word)] := actAccesses_eq h₂
  have hnew := newEvents_append h.grows h₂
  have haccesses : icapAccesses (newEvents w w₂) =
      icapAccesses (newEvents w w₁) ++ [(address, word)] := by rw [hnew, icapAccesses_append]; rfl
  have htotal : (icapAccesses (newEvents w w₁)).length =
      (accessesOf turn past).length + (accessesOf turn.other past).length := by
    rw [h.total]
    cases turn with
    | left => rfl
    | right => exact Nat.add_comm _ _
  -- the core expects this word if and only if the other thread is not in a sequence
  have hwhole : WholeSequences (newEvents w w₂) ↔
      WholeSequences (newEvents w w₁) ∧ ¬ InSequence turn.other past := by
    rw [WholeSequences, haccesses, repeats_concat (by decide), htotal]
    refine and_congr_right fun hw => ?_
    have hfree : iprogAccesses.length ∣ (accessesOf turn past).length ∨
        iprogAccesses.length ∣ (accessesOf turn.other past).length := by
      have hfree := h.free hw
      rw [InSequence, InSequence, not_not, not_not] at hfree
      cases turn with
      | left => exact hfree
      | right => exact hfree.symm
    rw [expected_iff hfree hword, InSequence, not_not]
  refine ⟨h₂ ▸ h.grows.trans (List.prefix_append _ _), ?_, fun hw => ?_, ?_⟩
  · rw [haccesses, List.length_append, htotal]
    cases turn <;> simp [accessesOf_concat, hact, Turn.other] <;> omega
  · have hfree : ¬ InSequence turn.other (past ++ [⟨turn, w₁, w₂⟩]) := by
      rw [InSequence, accessesOf_other past ⟨turn, w₁, w₂⟩]
      exact (hwhole.mp hw).2
    cases turn with
    | left => exact .inr hfree
    | right => exact .inl hfree
  · have hnever : NeverMidFlash (newEvents w w₂) ↔
        NeverMidFlash (newEvents w w₁) ∧ ¬ MidFlash (newEvents w w₁) := by
      rw [hnew, NeverMidFlash, throughout_concat]
      exact and_congr_right fun _ => ⟨fun hmid => hmid nofun, fun hmid _ => hmid⟩
    have hmid : ¬ MidFlash (newEvents w w₁) ↔ turn = .right → ¬ MidFlash (newEvents w w₁) := by
      cases turn with
      | left => exact iff_of_true (hleft rfl) nofun
      | right => exact ⟨fun hmid _ => hmid, fun hmid => hmid rfl⟩
    rw [hnever, hwhole, and_and_and_comm, h.iff, keptApart_concat]
    refine and_congr_right fun _ => (and_congr_left fun _ => hmid).trans ?_
    refine ⟨fun hboth _ => hboth, fun hboth => hboth ?_⟩
    rw [hact]
    exact List.cons_ne_nil _ _

/-- An act adds to the record. -/
theorem Obeys.grows {c c' : Sequencer} (hact : Obeys c w₁ w₂ c') :
    ∃ es, w₂.events = w₁.events ++ es := by
  cases hact with
  | quiet hemits => exact hemits.imp fun _ h => h.1
  | passed hpassed => exact ⟨_, hpassed⟩
  | access _ _ haccess => exact ⟨_, haccess⟩

/-- **One act of either thread.**  What has been tallied stays so, and the thread's own count
goes on.  The cases are the three kinds of acts: one that writes nothing, the one that passes
the verification, and an access. -/
theorem Obeys.tallied {c c' : Sequencer} (hact : Obeys c w₁ w₂ c') (h : Tallied w past w₁)
    (hcount : (accessesOf turn past).length = c.accesses)
    (hleft : turn = .left → c.cleared = true → .verifyPassed ∈ newEvents w w₁) :
    Tallied w (past ++ [⟨turn, w₁, w₂⟩]) w₂ ∧
      (accessesOf turn (past ++ [⟨turn, w₁, w₂⟩])).length = c'.accesses := by
  rw [accessesOf_concat, if_pos rfl, List.length_append, hcount]
  cases hact with
  | quiet hemits =>
      obtain ⟨es, hes, hquiet⟩ := hemits
      rw [actAccesses_eq hes, Emits.icapAccesses_eq hquiet]
      exact ⟨h.silent hes hquiet, rfl⟩
  | passed hpassed =>
      rw [actAccesses_eq hpassed]
      exact ⟨h.silent hpassed (by simpa using verifyPassed_noPciWrite), rfl⟩
  | access hcleared hword haccess =>
      rw [actAccesses_eq haccess]
      exact ⟨h.access (hcount ▸ hword) (fun ht hmid => hmid.2 (hleft ht hcleared)) haccess, rfl⟩

end Tally

/-! ## Both threads -/

section Together

variable {σ : Type} {w w₁ w₂ : World σ} {c c' d d' : Sequencer} {past : List (Act (World σ))}

/-- Each access of the flashing thread finds the verification passed, whatever the other
thread does meanwhile. -/
def Verified (w : World σ) (past : List (Act (World σ))) : Prop :=
  Throughout (fun _ a => a.turn = .left → actAccesses a ≠ [] → .verifyPassed ∈ newEvents w a.before)
    past

/-- The two threads, as far as they are: the flashing thread is cleared by its verification.
This is the invariant of every schedule. -/
structure Together (w : World σ) (c d : Sequencer) (past : List (Act (World σ))) (w' : World σ) :
    Prop where
  tallied : Tallied w past w'
  left : (accessesOf .left past).length = c.accesses
  right : (accessesOf .right past).length = d.accesses
  earned : c.cleared = true → .verifyPassed ∈ newEvents w w'
  verified : Verified w past

/-- An act of the flashing thread.  It may pass the verification, and may then access the ICAP
core; the other thread's count stays. -/
theorem Together.act_left (h : Together w c d past w₁) (hact : Obeys c w₁ w₂ c') :
    Together w c' d (past ++ [⟨.left, w₁, w₂⟩]) w₂ := by
  obtain ⟨tallied, left⟩ := hact.tallied h.tallied h.left fun _ => h.earned
  have right := (congrArg List.length (accessesOf_other past ⟨.left, w₁, w₂⟩)).trans h.right
  refine ⟨tallied, left, right, fun hc => ?_, throughout_concat.mpr ⟨h.verified, fun _ hne => ?_⟩⟩
  · cases hact with
    | quiet hemits =>
        obtain ⟨es, hes, -⟩ := hemits
        rw [newEvents_append h.tallied.grows hes]
        exact List.mem_append_left es (h.earned hc)
    | passed hpassed =>
        rw [newEvents_append h.tallied.grows hpassed]
        exact List.mem_append_right _ List.mem_cons_self
    | access hcleared _ haccess =>
        rw [newEvents_append h.tallied.grows haccess]
        exact List.mem_append_left _ (h.earned hcleared)
  · cases hact with
    | quiet hemits =>
        obtain ⟨es, hes, hquiet⟩ := hemits
        exact absurd ((actAccesses_eq hes).trans (Emits.icapAccesses_eq hquiet)) hne
    | passed hpassed => exact absurd (actAccesses_eq hpassed) hne
    | access hcleared => exact h.earned hcleared

/-- An act of the JavaScript thread. -/
theorem Together.act_right (h : Together w c d past w₁) (hact : Obeys d w₁ w₂ d') :
    Together w c d' (past ++ [⟨.right, w₁, w₂⟩]) w₂ := by
  obtain ⟨tallied, right⟩ := hact.tallied h.tallied h.right nofun
  have left := (congrArg List.length (accessesOf_other past ⟨.right, w₁, w₂⟩)).trans h.left
  refine ⟨tallied, left, right, fun hc => ?_, throughout_concat.mpr ⟨h.verified, nofun⟩⟩
  obtain ⟨es, hes⟩ := hact.grows
  rw [newEvents_append h.tallied.grows hes]
  exact List.mem_append_left es (h.earned hc)

end Together

section Run

variable {σ : Type} [XSpiDriver σ] (env : Env) (n : ℕ) (schedule : List Turn) (w : World σ)

/-- **Reboots.**  The flashing thread reboots behind its verification only, whatever comes
between.  And reboots keep out of flashing, and IPROG sequences out of each other, if and only
if the threads are kept apart.

The schedule, the number of calls and the driver are arbitrary, and the run may end in the
middle.  `KeptApart` is on the moments at which the threads access the ICAP core, each with
what has been done before it.  The library has no lock, and it is its callers that would have
to see to this. -/
theorem reboots_apart_iff :
    Verified w (flashing env n schedule w).past ∧
      (NeverMidFlash (newEvents w (flashing env n schedule w).state) ∧
          WholeSequences (newEvents w (flashing env n schedule w).state) ↔
        KeptApart w (flashing env n schedule w).past) := by
  have begun : Together w ⟨0, false⟩ ⟨0, true⟩ [] w :=
    ⟨tallied_nil, rfl, rfl, nofun, throughout_nil⟩
  obtain ⟨_, _, h⟩ := Interleaving.invariant Together.act_left Together.act_right schedule
    (x := .start (Threads.kiflashProgramUser env) (Threads.icapCalls env n) w)
    (Threads.kiflashProgramUser_follows (Nat.dvd_zero 9))
    (Threads.icapCalls_follows n rfl (Nat.dvd_zero 9)) begun
  exact ⟨h.verified, h.tallied.iff⟩

/-- Of an initialised process, the JavaScript side reboots the FPGA right behind the first
sector erase. -/
theorem reboots_apart_counterexample :
    let w : World (Nor .swift) := { World.fresh (Nor.idle .swift fun _ => 0) with qspiInitFlag := true }
    let schedule := List.replicate 20 Turn.left ++ List.replicate 10 .right
    let es := newEvents w (flashing (Env.plain none 0) 1 schedule w).state
    icapAccesses es = iprogAccesses ∧ ¬ (NeverMidFlash es ∧ WholeSequences es) :=
  ⟨by decide +kernel, fun h => absurd h.1 (by decide +kernel)⟩

/-- The JavaScript thread, undisturbed, is a run of so many calls of `kiflash_icap`. -/
theorem run_icapCalls :
    (Threads.icapCalls (σ := σ) env n).run = runAll env (List.replicate n (.kiflashIcap 0)) := by
  induction n with
  | zero => rfl
  | succ n ih =>
      rw [Threads.icapCalls, Thread.run_bind, Threads.run_kiflashIcap, ih, List.replicate_succ]
      rfl

/-- Without a turn of the JavaScript thread, the flashing thread comes to the end of
`kiflash_program_user`. -/
theorem flashing_alone : ∃ k,
    (flashing env n (List.replicate k .left) w).state = (kiflashProgramUser env w).2 := by
  obtain ⟨k, past, h⟩ := Interleaving.exists_alone (Threads.kiflashProgramUser env)
    (Threads.icapCalls env n) [] w (by cases n <;> nofun)
  refine ⟨k, ?_⟩
  rw [← Threads.run_kiflashProgramUser]
  exact congrArg Interleaving.state h

end Run

end Kiflash
