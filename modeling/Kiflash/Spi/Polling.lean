import Kiflash.Spi.Fifo
import Kiflash.Spi.Timeout

/-!
# The rounds of the polled mode

`XSpi_Transfer` reads the interrupt status until it finds the transmit empty bit, at most 100
times a round, and tells by its countdown alone how the poll ended.  So it takes the bit for
missing when the hundredth read has brought it.

* `Admitted` — the requests that come to the polling loop.
* `pollingRounds` — the driver at the beginning of each round of it.
* `JustInTime` — the bit comes with the hundredth read.
* `timeout_reported_iff` — a timeout is reported for a real one only, exactly when no poll is
  answered just in time.

### The slip

The loop of the source is left when the bit is there *or* the countdown is at zero, and the
test behind it is of the countdown.  The countdown is decremented with every read, so that it
is zero after the hundredth, whatever this read has found.  The transfer then returns
`XST_FAILURE` for a core that has answered.

### How rounds are spoken of

A statement about a timeout is one about a round in the middle of a transfer.  `visits` lists
the states at the head of the loop, so that `pollingRounds` is computed from the call and the
state before it; a round is a member of this list.  Since the round that gives up is the last
one, the failure of the call is the failure of a member (`xspiTransfer_failure_iff`).

### The poll

The reads of a poll are counted from its beginning: `Empties s k` says that read number `k`
finds the bit, if the poll comes so far.  The core is arbitrary: any device that answers
reads, with any timing, and whatever it does at a read.
-/

open Imperative Imperative.Prog

namespace Kiflash.SpiCore

variable {ε : Type} [PciDevice ε]

/-! ## From the call to the loop -/

/-- The accesses of the checks: whether the interrupts are on, and the control register.  They
come in front of everything that a transfer changes. -/
def checks : Prog (SpiCore ε) (Bool × UInt32) := do
  let globalIntrReg ← xspiIsIntrGlobalEnabled
  xspiIntrGlobalDisable
  let controlReg ← xspiGetControlReg
  pure (globalIntrReg, controlReg)

/-- What is done between the checks and the polling loop; the result is `Data`.  The cut is
where the source has its `while(ByteCount > 0)`. -/
def opening (rounds : ℕ) (buffer : ℕ → UInt8) (recv : Bool) (byteCount : UInt32) :
    Prog (SpiCore ε) UInt32 := do
  setSpi fun spi =>
    { spi with
      isBusy := true
      sendBuffer := buffer
      recvBuffer := if recv then some [] else none
      requestedBytes := byteCount
      remainingBytes := byteCount }
  let spi ← gets fun s => s.spi
  let _ ← xspiGetStatusReg
  let statusReg ← xspiIntrGetStatus
  let data ← loop (fillRound spi.dataWidth) rounds (statusReg.toUInt32, 0)
  xspiSetSlaveSelectReg spi.slaveSelectReg
  uninhibit
  let _ ← xspiIntrGetStatus
  pure data

/-- A request that passes the checks, with the interrupts off.  The other requests are
refused, or started in the interrupt mode, and do not poll. -/
structure Admitted (byteCount : UInt32) (s : SpiCore ε) : Prop where
  bytes : byteCount ≠ 0
  ready : s.spi.isReady = xilComponentIsReady
  started : s.spi.isStarted = xilComponentIsStarted
  idle : s.spi.isBusy = false
  polled : ∃ controlReg, (checks s).1 = .ret (false, controlReg) ∧
    ¬ (controlReg &&& xspCrMasterModeMask ≠ 0 ∧ controlReg &&& xspCrLoopbackMask = 0 ∧
      s.spi.slaveSelectReg = s.spi.slaveSelectMask)

/-- `ByteCount`, `Data` and the driver at the beginning of each round of the polling loop.
They are the states in which a poll of the transmit empty bit begins. -/
def pollingRounds (rounds : ℕ) (buffer : ℕ → UInt8) (recv : Bool) (byteCount : UInt32)
    (s : SpiCore ε) : List ((UInt32 × UInt32) × SpiCore ε) :=
  match opening rounds buffer recv byteCount (checks s).2 with
  | (.ret data, s') => visits (polledRound rounds s.spi.dataWidth) rounds (byteCount, data) s'
  | (.stop _, _) => []

/-- The checks do not touch the instance, -/
theorem checks_keeps (P : XSpi → Prop) : Moves (Keeps (Has P)) (checks (ε := ε)) := by
  unfold checks xspiIsIntrGlobalEnabled xspiIntrGlobalDisable
  exact ((xspiPciReadReg_keeps _).bind fun _ => moves_pure _).bind fun _ =>
    (xspiPciWriteReg_keeps _ _).bind fun _ => xspiGetControlReg_keeps.bind fun _ => moves_pure _

/-- which is the same behind them. -/
theorem checks_spi (s : SpiCore ε) : (checks s).2.spi = s.spi := by
  have hkeeps := checks_keeps (· = s.spi) s
  rw [Keeps, Has, Has] at hkeeps
  exact hkeeps rfl

omit [PciDevice ε] in
/-- A change of the instance is seen by the next look at it. -/
theorem setSpi_gets {α : Type} (change : XSpi → XSpi) (k : XSpi → Prog (SpiCore ε) α)
    (s : SpiCore ε) : (setSpi change >>= fun _ => gets (fun s => s.spi) >>= k) s =
      k (change s.spi) { s with spi := change s.spi } := rfl

/-- The transfer behind its checks, when the interrupts are off. -/
theorem startTransfer_eq (rounds : ℕ) (buffer : ℕ → UInt8) (recv : Bool) (byteCount : UInt32)
    (s : SpiCore ε) : startTransfer rounds buffer recv byteCount false s =
      (opening rounds buffer recv byteCount >>=
        polledTransfer rounds s.spi.dataWidth byteCount) s := by
  simp only [startTransfer, opening, bind_bind, pure_bind, Bool.false_eq_true, if_false]
  rw [setSpi_gets, setSpi_gets]

/-- An admitted request is worked on behind the checks.  The conditions of `Admitted` are
those of the checks, one by one. -/
theorem xspiTransfer_of_admitted {byteCount : UInt32} {s : SpiCore ε} (h : Admitted byteCount s)
    (rounds : ℕ) (buffer : ℕ → UInt8) (recv : Bool) :
    xspiTransfer rounds (some buffer) recv byteCount s =
      (opening rounds buffer recv byteCount >>=
        polledTransfer rounds s.spi.dataWidth byteCount) (checks s).2 := by
  obtain ⟨controlReg, hchecks, hslave⟩ := h.polled
  have hrun : checks s = (.ret (false, controlReg), (checks s).2) := by rw [← hchecks]
  have htransfer : xspiTransfer rounds (some buffer) recv byteCount s =
      (checks >>= fun (globalIntrReg, controlReg) =>
        if controlReg &&& xspCrMasterModeMask ≠ 0 ∧ controlReg &&& xspCrLoopbackMask = 0 ∧
            s.spi.slaveSelectReg = s.spi.slaveSelectMask then do
          if globalIntrReg then xspiIntrGlobalEnable
          pure .spiNoSlave
        else startTransfer rounds buffer recv byteCount globalIntrReg) s := by
    have hready : ¬ (byteCount = 0 ∨ s.spi.isReady ≠ xilComponentIsReady) :=
      not_or.mpr ⟨h.bytes, not_not_intro h.ready⟩
    have hidle : ¬ s.spi.isBusy = true := not_busy h.idle
    refine (bind_of_ret (rfl : gets _ s = (.ret s.spi, s))).trans ?_
    simp only [checks, bind_bind, pure_bind, if_neg hready, if_neg (not_not_intro h.started),
      if_neg hidle]
  rw [htransfer, bind_of_ret hrun]
  dsimp only
  rw [if_neg hslave, startTransfer_eq, checks_spi]

/-! ## The reads of a round -/

/-- What a read of the interrupt status finds.  Without the PCI memory it is the constant of
the source. -/
def intrStatus (s : SpiCore ε) : UInt32 :=
  if s.spi.pci then
    (PciDevice.read64 (s.spi.baseAddr + xspIisrOffset.toUInt64) s.device).1.toUInt32
  else 0xDEADBEEF

/-- The driver behind a read of the interrupt status; the device may have moved on.  The reads
of a poll are iterations of this. -/
def afterRead (s : SpiCore ε) : SpiCore ε := (xspiIntrGetStatus s).2

/-- The transmit empty bit in the read number `k` of the interrupt status from `s` on.  The
condition of a timeout is about the first ninety-nine of them. -/
def Empties (s : SpiCore ε) (k : ℕ) : Prop :=
  intrStatus (afterRead^[k] s) &&& xspIntrTxEmptyMask ≠ 0

instance (s : SpiCore ε) (k : ℕ) : Decidable (Empties s k) := inferInstanceAs (Decidable (_ ≠ _))

/-- The interrupt status values that `pollTxEmpty` reads, as many as it does read.  The last
of them is the one it ends with. -/
def polledValues : ℕ → SpiCore ε → List UInt32
  | 0, _ => []
  | loopcountdown + 1, s =>
    intrStatus s ::
      if intrStatus s &&& xspIntrTxEmptyMask = 0 ∧ loopcountdown ≠ 0 then
        polledValues loopcountdown (afterRead s)
      else []

/-- The transmit empty bit comes with the last read of the poll: none of the first 99 finds
it, and the hundredth does. -/
def JustInTime (s : SpiCore ε) : Prop := (∀ k < 99, ¬ Empties s k) ∧ Empties s 99

instance (s : SpiCore ε) : Decidable (JustInTime s) := inferInstanceAs (Decidable (_ ∧ _))

/-- What a read returns, and what it leaves. -/
theorem xspiIntrGetStatus_eq (s : SpiCore ε) :
    ∃ value : UInt64, xspiIntrGetStatus s = (.ret value, afterRead s) ∧ value.toUInt32 = intrStatus s := by
  rw [afterRead, intrStatus, xspiIntrGetStatus, xspiPciReadReg]
  split
  · exact ⟨_, rfl, rfl⟩
  · exact ⟨_, rfl, rfl⟩

/-- One turn of the poll. -/
theorem pollTxEmpty_succ (loopcountdown : ℕ) (s : SpiCore ε) :
    pollTxEmpty (loopcountdown + 1) s =
      if intrStatus s &&& xspIntrTxEmptyMask = 0 ∧ loopcountdown ≠ 0 then
        pollTxEmpty loopcountdown (afterRead s)
      else (.ret loopcountdown, afterRead s) := by
  obtain ⟨value, hread, hvalue⟩ := xspiIntrGetStatus_eq s
  rw [pollTxEmpty, bind_of_ret hread, hvalue]
  split
  · rfl
  · rfl

/-- The countdown comes to its end exactly when none of the reads but the last finds the bit.
The last one is read and not looked at. -/
theorem pollTxEmpty_zero_iff (loopcountdown : ℕ) (s : SpiCore ε) :
    (pollTxEmpty (loopcountdown + 1) s).1 = .ret 0 ↔ ∀ k < loopcountdown, ¬ Empties s k := by
  induction loopcountdown generalizing s with
  | zero =>
      rw [pollTxEmpty_succ, if_neg fun h => h.2 rfl]
      exact ⟨fun _ k hk => absurd hk (Nat.not_lt_zero k), fun _ => rfl⟩
  | succ n ih =>
      rw [pollTxEmpty_succ, Nat.forall_lt_succ_left]
      by_cases hfirst : intrStatus s &&& xspIntrTxEmptyMask = 0
      · rw [if_pos ⟨hfirst, Nat.succ_ne_zero n⟩, ih]
        exact ⟨fun h => ⟨not_not_intro hfirst, h⟩, fun h => h.2⟩
      · rw [if_neg fun h => hfirst h.1]
        exact ⟨fun h => absurd (Outcome.ret.inj h) (Nat.succ_ne_zero n),
          fun h => absurd hfirst h.1⟩

/-- When it has come to its end, every read has been made, and the bit was missing in all of
them exactly when it was in the last. -/
theorem mem_polledValues_of_zero (loopcountdown : ℕ) (s : SpiCore ε)
    (h : ∀ k < loopcountdown, ¬ Empties s k) :
    (∀ value ∈ polledValues (loopcountdown + 1) s, value &&& xspIntrTxEmptyMask = 0) ↔
      ¬ Empties s loopcountdown := by
  induction loopcountdown generalizing s with
  | zero =>
      rw [polledValues, if_neg fun h => h.2 rfl, List.forall_mem_singleton]
      exact not_not.symm
  | succ n ih =>
      obtain ⟨hfirst, hrest⟩ := Nat.forall_lt_succ_left.mp h
      have hfirst : intrStatus s &&& xspIntrTxEmptyMask = 0 := not_not.mp hfirst
      rw [polledValues, if_pos ⟨hfirst, Nat.succ_ne_zero n⟩, List.forall_mem_cons, ih _ hrest]
      exact and_iff_right hfirst

/-- Behind a poll that found the bit, a round goes on or comes to no end. -/
theorem polledRound_of_found {rounds : ℕ} {dataWidth : UInt8} {byteCount data : UInt32}
    {s s' : SpiCore ε} {loopcountdown : ℕ} (hcount : 0 < byteCount)
    (hpoll : pollTxEmpty 100 s = (.ret loopcountdown, s')) (hfound : loopcountdown ≠ 0) :
    wp (polledRound rounds dataWidth (byteCount, data)) (fun r _ => ∃ vars, r = .inl vars)
      (fun _ _ => True) s := by
  refine wp_ite.mpr ⟨fun _ => wp_bind.mpr ((wp_of_ret hpoll).mpr (wp_ite.mpr
    ⟨fun h => absurd h hfound, fun _ => ?_⟩)), fun h => absurd hcount h⟩
  refine wp_bind_of_forall fun _ _ => wp_bind_of_forall fun _ _ => wp_bind_of_forall fun _ _ =>
    wp_bind_of_forall fun _ _ => wp_bind_of_forall fun _ _ => wp_ite.mpr ⟨fun _ => ?_, fun _ => ?_⟩
  · exact wp_bind_of_forall fun _ _ => wp_bind_of_forall fun _ _ => wp_bind_of_forall fun _ _ =>
      ⟨_, rfl⟩
  · exact ⟨_, rfl⟩

/-- The poll returns, since it counts down. -/
theorem pollTxEmpty_ret (loopcountdown : ℕ) (s : SpiCore ε) :
    ∃ left s', pollTxEmpty loopcountdown s = (.ret left, s') := by
  induction loopcountdown generalizing s with
  | zero => exact ⟨0, s, rfl⟩
  | succ n ih =>
      rw [pollTxEmpty_succ]
      split
      · exact ih _
      · exact ⟨n, _, rfl⟩

/-- A round that ends the loop has run out of bytes or given up, and it gives up only when its
countdown has come to its end. -/
theorem polledRound_inr {rounds : ℕ} {dataWidth : UInt8} {vars : UInt32 × UInt32}
    {s s' : SpiCore ε} {status : Xst}
    (h : polledRound rounds dataWidth vars s = (.ret (.inr status), s')) :
    status = .success ∨ status = .failure ∧ 0 < vars.1 ∧ ∀ k < 99, ¬ Empties s k := by
  obtain ⟨byteCount, data⟩ := vars
  obtain ⟨left, s₁, hpoll⟩ := pollTxEmpty_ret 100 s
  by_cases hcount : 0 < byteCount
  · by_cases hleft : left = 0
    · rw [polledRound, if_pos hcount, bind_of_ret hpoll, if_pos hleft] at h
      cases h
      rw [hleft] at hpoll
      exact .inr ⟨rfl, hcount, (pollTxEmpty_zero_iff 99 s).mp (by rw [hpoll])⟩
    · obtain ⟨vars, hvars⟩ := (wp_of_ret h).mp (polledRound_of_found hcount hpoll hleft)
      exact nomatch hvars
  · rw [polledRound, if_neg hcount] at h
    cases h
    exact .inl rfl

/-- A round gives up when its countdown comes to its end. -/
theorem polledRound_of_none (rounds : ℕ) (dataWidth : UInt8) {vars : UInt32 × UInt32}
    {s : SpiCore ε} (hcount : 0 < vars.1) (hnone : ∀ k < 99, ¬ Empties s k) :
    ∃ s', polledRound rounds dataWidth vars s = (.ret (.inr .failure), s') := by
  obtain ⟨byteCount, data⟩ := vars
  obtain ⟨left, s', hpoll⟩ := pollTxEmpty_ret 100 s
  have hzero := (pollTxEmpty_zero_iff 99 s).mpr hnone
  rw [hpoll] at hzero
  cases hzero
  exact ⟨s', by rw [polledRound, if_pos hcount, bind_of_ret hpoll, if_pos rfl]; rfl⟩

/-- An admitted request fails exactly when a round of it gives up.  Forwards, the loop that
ends has ended in a round; backwards, no round comes after the one that gives up. -/
theorem xspiTransfer_failure_iff {byteCount : UInt32} {s : SpiCore ε} (h : Admitted byteCount s)
    (rounds : ℕ) (buffer : ℕ → UInt8) (recv : Bool) :
    (xspiTransfer rounds (some buffer) recv byteCount s).1 = .ret .failure ↔
      ∃ r ∈ pollingRounds rounds buffer recv byteCount s,
        (polledRound rounds s.spi.dataWidth r.1 r.2).1 = .ret (.inr .failure) := by
  rw [xspiTransfer_of_admitted h, pollingRounds]
  rcases hopening : opening rounds buffer recv byteCount (checks s).2 with ⟨data | why, s'⟩
  · rw [bind_of_ret hopening]
    constructor
    · intro hfailed
      have hrun : polledTransfer rounds s.spi.dataWidth byteCount data s' = (.ret .failure, _) :=
        Prod.ext hfailed rfl
      obtain ⟨status, s₁, hloop, hrest⟩ := bind_eq_ret.mp hrun
      -- the loop has returned from a round, which says how
      obtain ⟨r, hr, hlast⟩ := loop_ret_iff.mp hloop
      refine ⟨r, hr, ?_⟩
      rcases polledRound_inr hlast with rfl | ⟨rfl, -⟩
      · -- the end of the loop succeeds
        have hdone : wp (do
            inhibit
            let spi ← gets fun s => s.spi
            xspiSetSlaveSelectReg spi.slaveSelectMask
            setSpi fun spi => { spi with isBusy := false }
            pure Xst.success) (fun status (_ : SpiCore ε) => status = .success)
            (fun _ _ => True) s₁ :=
          wp_bind_of_forall fun _ _ => wp_bind_of_forall fun _ _ => wp_bind_of_forall fun _ _ =>
            wp_bind_of_forall fun _ _ => rfl
        exact nomatch (wp_of_ret hrest).mp hdone
      · rw [hlast]
    · rintro ⟨r, hr, hlast⟩
      have hround : polledRound rounds s.spi.dataWidth r.1 r.2 = (.ret (.inr .failure), _) :=
        Prod.ext hlast rfl
      rw [polledTransfer, check_of_ne (loop_ret_iff.mpr ⟨r, hr, hround⟩) (by decide)]
      rfl
  · constructor
    · intro hfailed
      obtain ⟨_, _, hret, -⟩ := bind_eq_ret.mp (Prod.ext hfailed rfl)
      exact nomatch hopening.symm.trans hret
    · rintro ⟨_, hr, -⟩
      exact nomatch hr

/-! ## Reported timeouts -/

/-- **A timeout is reported only for a real timeout exactly when no poll is answered just in
time.**  If the transfer reports one, none of the reads in the round that reports it has found
the transmit empty bit, if and only if in no round the bit comes with the hundredth read.

The rounds are those of the run, and the condition is on the core at the head of each.  A
round that waits for nothing, because all bytes are stored, is left out of it (`0 < r.1.1`).
The core may do anything at a read; it need not be a core with FIFOs. -/
theorem timeout_reported_iff (s : SpiCore ε) (rounds : ℕ) (buffer : ℕ → UInt8) (recv : Bool)
    (byteCount : UInt32) (hadmitted : Admitted byteCount s) :
    ((xspiTransfer rounds (some buffer) recv byteCount s).1 = .ret .failure →
      ∃ r ∈ pollingRounds rounds buffer recv byteCount s,
        (polledRound rounds s.spi.dataWidth r.1 r.2).1 = .ret (.inr .failure) ∧
          ∀ value ∈ polledValues 100 r.2, value &&& xspIntrTxEmptyMask = 0) ↔
      ∀ r ∈ pollingRounds rounds buffer recv byteCount s, 0 < r.1.1 → ¬ JustInTime r.2 := by
  rw [xspiTransfer_failure_iff hadmitted]
  constructor
  · rintro hreal r hr hcount ⟨hnone, hlast⟩
    obtain ⟨s', hup⟩ := polledRound_of_none rounds s.spi.dataWidth hcount hnone
    obtain ⟨r', hr', hup', hvalues⟩ := hreal ⟨r, hr, by rw [hup]⟩
    obtain rfl : r' = r := by
      rw [pollingRounds] at hr hr'
      split at hr
      · rename_i hopening
        rw [hopening] at hr'
        exact eq_of_mem_visits hr' (Prod.ext hup' rfl) hr hup
      · exact nomatch hr
    exact (mem_polledValues_of_zero 99 r'.2 hnone).mp hvalues hlast
  · rintro hnever ⟨r, hr, hup⟩
    refine ⟨r, hr, hup, ?_⟩
    have hround : polledRound rounds s.spi.dataWidth r.1 r.2 = (.ret (.inr .failure), _) :=
      Prod.ext hup rfl
    rcases polledRound_inr hround with h | ⟨-, hcount, hnone⟩
    · exact nomatch h
    · exact (mem_polledValues_of_zero 99 r.2 hnone).mpr fun hlast => hnever r hr hcount ⟨hnone, hlast⟩

/-- Two bytes on a core that shifts them within three reads. -/
theorem timeout_reported_prompt :
    (∀ r ∈ pollingRounds 3 (fun _ => 0x05) true 2 (idle (Fifo.idle 16 0 [3])),
        0 < r.1.1 → ¬ JustInTime r.2) ∧
      ((xspiTransfer 3 (some fun _ => 0x05) true 2 (idle (Fifo.idle 16 0 [3]))).1 = .ret .failure →
        ∃ r ∈ pollingRounds 3 (fun _ => 0x05) true 2 (idle (Fifo.idle 16 0 [3])),
          (polledRound 3 8 r.1 r.2).1 = .ret (.inr .failure) ∧
            ∀ value ∈ polledValues 100 r.2, value &&& xspIntrTxEmptyMask = 0) := by
  have hadmitted : Admitted 2 (idle (Fifo.idle 16 0 [3])) :=
    ⟨by decide, rfl, rfl, rfl, 0x186, rfl, by decide⟩
  have hprompt : ∀ r ∈ pollingRounds 3 (fun _ => 0x05) true 2 (idle (Fifo.idle 16 0 [3])),
      0 < r.1.1 → ¬ JustInTime r.2 := by decide +kernel
  exact ⟨hprompt,
    (timeout_reported_iff (idle (Fifo.idle 16 0 [3])) 3 (fun _ => 0x05) true 2 hadmitted).mpr hprompt⟩

/-- The core shifts the bytes with the hundredth read of the poll: that read finds the
transmit empty bit, and the transfer reports a timeout. -/
theorem timeout_reported_counterexample :
    (xspiTransfer 3 (some fun _ => 0x05) true 2 (idle (Fifo.idle 16 0 [100]))).1 = .ret .failure ∧
      ∀ r ∈ pollingRounds 3 (fun _ => 0x05) true 2 (idle (Fifo.idle 16 0 [100])),
        ∃ value ∈ polledValues 100 r.2, value &&& xspIntrTxEmptyMask ≠ 0 := by
  decide +kernel

end Kiflash.SpiCore
