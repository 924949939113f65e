import Kiflash.Spi.Service

/-!
# Requests in the interrupt mode

The flash code asks for one transfer after the other.  With the interrupts on, the end of a
transfer is a report of the handler, and what happens until then is up to the core and to the
processor.

* `request` — a transfer, and the signals that come until the next one.
* `Serving.anySignals` — what any signals leave of a request.
* `Serving.answers` — what signals that come again often enough leave of it.
* `interruptSession` — the startup, and requests one after the other.

### Safety and progress

The two are kept apart.  `Serving.anySignals` quantifies over all lists of signals, those in
which the handler is never called among them: there is at most one report, it is the one of a
finished transfer, and up to it the driver refuses whatever it is asked for.
`Serving.answers` adds that the signals are `Fair`, and gets the answer.  Both are read off
one ranking, `Serving.ranked`, whose steps are in `Service`.

### What is asked of the hardware

That the core raises no interrupts but those of its FIFOs: `Quiet` for the board, `Silent` for
the driver in front of it.  The comments of `xspi.h` give the error interrupts to masters that
share a bus and to slaves, and this core is the only master of its own.  A core that is quiet
stays so through every call of the driver, which the first sections show.  Nothing is asked of
the time that anything takes.

### A list of requests

`requests` runs them one after the other, each with its own signals.  The abstract counterpart
is `serve`, which takes a slave through frames and returns the answers: it is the same for the
polled mode, and that the two modes of the driver serve alike is a consequence.
-/

open Imperative Imperative.Prog

namespace Kiflash

variable {κ : Type} [SerialSlave κ] {depth : ℕ} {k : κ}

/-! ## No call makes the core less quiet -/

namespace Board

variable {b : Board κ depth}

/-- A reset does not make a core raise anything. -/
theorem Quiet.reset (h : b.Quiet) : b.reset.Quiet := h.select 0xFFFFFFFF

/-- Neither does a write to any of its registers: they hold no error interrupts that a later
shift would raise. -/
theorem Quiet.write (h : b.Quiet) (address data : UInt64) : (Board.write address data b).Quiet := by
  simp only [Board.write]
  -- the three interrupt registers
  split
  · exact h
  split
  · exact h
  split
  · exact h
  -- the reset register
  split
  · split
    · exact h.reset
    · exact h
  -- the control register takes the schedule on by one entry
  split
  · exact h.setControl _
  -- the transmit FIFO
  split
  · split
    · exact h
    · exact h
  -- the slave select register
  split
  · exact h.select _
  · exact h

end Board

namespace SpiCore

variable {s : Bus κ depth}

/-- The core of the bus is quiet: it raises no error interrupts.  This is a condition on the
hardware; the comments of the driver say when a core would raise one. -/
def Silent (s : Bus κ depth) : Prop := s.device.device.Quiet

/-- Reads keep it. -/
theorem silent_read (address : UInt32) :
    Moves (Keeps fun s : Bus κ depth => Silent s) (xspiPciReadReg address) := by
  intro s h
  unfold xspiPciReadReg
  split
  · exact Board.Quiet.read h _
  · exact h

/-- Writes keep it. -/
theorem silent_write (address : UInt32) (data : UInt64) :
    Moves (Keeps fun s : Bus κ depth => Silent s) (xspiPciWriteReg address data) := by
  refine moves_modify fun s h => ?_
  split
  · exact Board.Quiet.write h _ _
  · exact h

/-- So does a change of the control register, which is one of each. -/
theorem silent_control (change : UInt32 → UInt32) :
    Moves (Keeps fun s : Bus κ depth => Silent s) (do
      let controlReg ← xspiGetControlReg
      xspiSetControlReg (change controlReg)) :=
  ((silent_read _).bind fun _ => moves_pure _).bind fun _ => silent_write _ _

/-- And with them all calls that are made of these. -/
theorem silent_calls : CallFlows (Keeps fun s : Bus κ depth => Silent s) where
  read address _ := silent_read address
  writeData := silent_write _
  buffers _ _ _ _ h := h
  intrClear := (silent_read _).bind fun _ => silent_write _ _
  inhibit := silent_control _
  uninhibit := silent_control _
  write address _ data := silent_write address data
  request _ _ _ h := h
  setControl _ := silent_write _ _
  reset := silent_write _ _
  settings _ _ _ h := h

/-- The configuration of the instance among them. -/
theorem silent_cfgInitialize (config : XSpiConfig) :
    Moves (Keeps fun s : Bus κ depth => Silent s) (xspiCfgInitialize config) := by
  have hreset : Moves (Keeps fun s : Bus κ depth => Silent s)
      (xspiReset >>= fun _ => pure Xst.success) :=
    silent_calls.xspiReset.bind fun _ => moves_pure _
  refine (moves_gets _).bind fun _ => (moves_pure _).ite ?_
  exact Moves.bind (moves_modify fun _ h => h) fun _ =>
    Moves.ite (silent_calls.startupRead.bind fun _ => hreset) hreset

/-- **The startup keeps the core quiet.**  It is a chain of four driver calls, each of which
does. -/
theorem silent_bootCalls (config : XSpiConfig) (h : Silent s) : Silent (bootCalls config s).2 := by
  have h₁ : Silent (XSpiDriver.xspiCfgInitialize config (XSpiDriver.xspiPciInitialize s)).2 :=
    (statusOf_snd _).symm ▸ silent_cfgInitialize config _ h
  refine thenCall_snd (fun _ => h₁) fun _ => ?_
  have h₂ := silent_calls.xspiSetOptions (xspMasterOption ||| xspManualSselectOption) _ h₁
  rw [← statusOf_snd] at h₂
  refine thenCall_snd (fun _ => h₂) fun _ => ?_
  have h₃ := silent_calls.xspiSetSlaveSelect spiSelect _ h₂
  rw [← statusOf_snd] at h₃
  refine thenCall_snd (fun _ => h₃) fun _ => ?_
  exact (statusOf_snd _).symm ▸ silent_calls.xspiStart _ h₃

/-- The interrupts of a started driver are switched on.  The fill level of the FIFOs raises
nothing at this moment, since they are empty and their bits clear. -/
theorem Waiting.intrGlobalEnable (h : Waiting k s) (hfresh : s.device.device.Fresh)
    (hquiet : Silent s) :
    wp xspiIntrGlobalEnable (fun _ s' => Serving k s') never s := by
  refine wp_writeBoard h.wired _ _ fun t ht => ?_
  have hboard : t.device = { s.device.device with dgier := xspGintrEnableMask } := ht
  refine ⟨h.wired, h.ready, h.started, h.idle, h.width, h.numSlaveBits, h.slaveSelectMask,
    h.slaveSelectReg, ?_, ?_⟩
  · change t.device.Idle k
    rw [hboard]
    exact ⟨h.board.slave, h.board.deselected, h.board.running, h.board.rested, h.board.txFull⟩
  · change Board.Alert True _ t.device
    rw [hboard]
    refine ⟨iff_of_true rfl trivial, hfresh.iier, ?_, hquiet⟩
    change s.device.device.interrupts &&& errorMask = 0
    rw [hfresh.interrupts, UInt32.zero_and]

/-! ## One request -/

/-- What comes of a request: the status of `XSpi_Transfer`, the reports, and the receive
buffer.  A caller sees nothing else. -/
structure Result where
  status : Xst
  reports : List Report
  received : Option (List UInt8)

/-- A transfer, and the signals that come until the next one.  In the interrupt mode the
transfer only begins the work, and the signals do the rest. -/
def request (rounds : ℕ) (frame : List UInt8) (recv : Bool) (signals : List Signal) :
    Prog (Bus κ depth) Result := do
  let status ← xspiTransfer rounds (some fun i => frame.getD i 0) recv (UInt32.ofNat frame.length)
  let reports ← attend (onSignal rounds) signals
  let spi ← gets fun s => s.spi
  pure ⟨status, reports, spi.recvBuffer⟩

/-- A request whose answer is there: accepted, reported once with its length, and stored if it
was to be. -/
def delivery (request : List UInt8 × Bool) (answer : List UInt8) : Result where
  status := .success
  reports := [(.transferDone, UInt32.ofNat request.1.length)]
  received := if request.2 then some answer else none

/-- The status handler of the flash code lets the code go on, and counts no error. -/
theorem foldl_spiHandler_delivery {σ : Type} (w : World σ) (request : List UInt8 × Bool)
    (answer : List UInt8) :
    (delivery request answer).reports.foldl spiHandler w = { w with transferInProgress := false } :=
  rfl

/-- The driver turns down what it is asked for, and touches nothing.  So it is until the last
interrupt of the request. -/
structure Engaged (s : Bus κ depth) : Prop where
  transfer : ∀ rounds buffer recv byteCount, byteCount ≠ 0 →
    xspiTransfer rounds (some buffer) recv byteCount s = (.ret .deviceBusy, s)
  setOptions : ∀ options, xspiSetOptions options s = (.ret .deviceBusy, s)
  setSlaveSelect : ∀ slaveMask, xspiSetSlaveSelect slaveMask s = (.ret .deviceBusy, s)

/-- The flag `IsBusy` alone makes it do so.  Each of the three functions looks at it before it
does anything else. -/
theorem engaged_of_busy (hready : s.spi.isReady = xilComponentIsReady)
    (hstarted : s.spi.isStarted = xilComponentIsStarted) (hbusy : s.spi.isBusy = true) :
    Engaged s := by
  have hspi : gets (fun s => s.spi) s = (.ret s.spi, s) := rfl
  refine ⟨fun rounds buffer recv byteCount hbytes => (bind_of_ret hspi).trans ?_,
    fun options => (bind_of_ret hspi).trans ?_, fun slaveMask => (bind_of_ret hspi).trans ?_⟩
  · have hno : ¬ (byteCount = 0 ∨ s.spi.isReady ≠ xilComponentIsReady) :=
      not_or.mpr ⟨hbytes, not_not_intro hready⟩
    dsimp only
    rw [if_neg hno, if_neg (not_not_intro hstarted), if_pos hbusy]
    rfl
  · rw [if_pos hbusy]
    rfl
  · rw [if_pos hbusy]
    rfl

/-- A request that is not finished.  The slave is in the middle of the frame. -/
structure Unfinished (k : κ) (frame : List UInt8) (recv : Bool) (result : Result)
    (s : Bus κ depth) : Prop where
  status : result.status = .success
  reports : result.reports = []
  engaged : Engaged s
  slave : s.device.device.slave = k
  received : ∃ stored, result.received = (if recv then some stored else none) ∧
    stored.length < frame.length ∧ stored <+: SerialSlave.replies k [] frame

section Request

variable {frame : List UInt8} {rounds : ℕ}

/-- A request that waits for a signal is not finished.  It is busy until the report, so it can
be neither repeated nor reconfigured. -/
theorem Waits.unfinished (h : Serving k s) (hsize : frame.length < UInt32.size) {recv : Bool}
    {signal : Signal} {rank : ℕ} {s' : Bus κ depth}
    (hwaits : Waits s k (fun i => frame.getD i 0) recv (UInt32.ofNat frame.length) signal rank s') :
    Unfinished k frame recv ⟨.success, [], s'.spi.recvBuffer⟩ s' := by
  obtain ⟨stored, v, hflight⟩ := hwaits.inFlight
  obtain ⟨count, hunderway⟩ := hflight.underway
  obtain ⟨_, hat, -⟩ := hunderway.located
  have hlt := hflight.stored_lt
  have hprefix := hflight.stored_prefix h
  rw [toNat_ofNat_length hsize] at hlt
  rw [frameOf_getD hsize] at hprefix
  refine ⟨rfl, rfl, engaged_of_busy ?_ ?_ ?_, hflight.active.bench.slave, stored, ?_, hlt, hprefix⟩
  · rw [hat.spi]
    exact h.ready
  · rw [hat.spi]
    exact h.started
  · rw [hat.spi]
    rfl
  · change s'.spi.recvBuffer = _
    rw [hat.spi]
    rfl

/-- A request that is done has its answer. -/
theorem Done.delivery (hsize : frame.length < UInt32.size) {recv : Bool} {reports : List Report}
    {s' : Bus κ depth}
    (h : Done k (fun i => frame.getD i 0) recv (UInt32.ofNat frame.length) reports s') :
    ⟨.success, reports, s'.spi.recvBuffer⟩ =
        delivery (frame, recv) (SerialSlave.replies k [] frame) ∧
      Serving (SerialSlave.release k frame) s' := by
  obtain ⟨rfl, hserving, hstored⟩ := h
  rw [frameOf_getD hsize] at hserving hstored
  rw [hstored]
  exact ⟨rfl, hserving⟩

variable (hdepth : 0 < depth) (hsome : frame ≠ []) (hrounds : frame.length < rounds)
variable (hsize : frame.length < UInt32.size)
include hdepth hsome hrounds hsize

/-- The transfer waits for its first signal.  The rank is at most one hundred for every byte:
99 polls to the shift, and the call of the handler. -/
theorem Serving.opens (h : Serving k s) (recv : Bool) :
    wp (xspiTransfer rounds (some fun i => frame.getD i 0) recv (UInt32.ofNat frame.length))
      (fun status s' => status = .success ∧ ∃ signal rank, rank < 100 * frame.length ∧
        Waits s k (fun i => frame.getD i 0) recv (UInt32.ofNat frame.length) signal rank s')
      never s := by
  have hcount := toNat_ofNat_length hsize
  have hbytes := ofNat_length_ne_zero hsize hsome
  refine wp_mono (h.start hbytes hdepth (hcount.symm ▸ hrounds) _ recv) ?_ fun _ _ => id
  rintro status s₁ ⟨hstatus, v, hflight⟩
  obtain ⟨signal, rank, hrank, hwaits⟩ := hflight.waits
  rw [List.length_nil, Nat.sub_zero, hcount] at hrank
  exact ⟨hstatus, signal, rank, hrank, hwaits⟩

/-- Its signals bring it closer to its end one by one, whichever come in between. -/
theorem Serving.ranked (h : Serving k s) (recv : Bool) :
    Ranked (onSignal rounds)
      (Waits s k (fun i => frame.getD i 0) recv (UInt32.ofNat frame.length))
      (Done k (fun i => frame.getD i 0) recv (UInt32.ofNat frame.length) :
        List Report → Bus κ depth → Prop) :=
  SpiCore.ranked h (ofNat_length_ne_zero hsize hsome) hdepth
    ((toNat_ofNat_length hsize).symm ▸ hrounds)

/-- **Whatever the signals and their order.**  Nothing but the end of the transfer is ever
reported, and that once.  Until then the driver turns down other calls and the buffer holds
the beginning of the answer; with the report it holds the whole of it, and the slave has seen
the frame.  `Serving` includes that the core raises no error interrupts. -/
theorem Serving.anySignals (h : Serving k s) (recv : Bool) (signals : List Signal) :
    wp (request rounds frame recv signals)
      (fun result s' => Unfinished k frame recv result s' ∨
        result = delivery (frame, recv) (SerialSlave.replies k [] frame) ∧
          Serving (SerialSlave.release k frame) s')
      never s := by
  refine wp_bind.mpr (wp_mono (h.opens hdepth hsome hrounds hsize recv) ?_ fun _ _ => id)
  rintro _ s₁ ⟨rfl, signal, rank, -, hwaits⟩
  have hranked := h.ranked hdepth hsome hrounds hsize recv
  refine wp_bind.mpr (wp_mono (hranked.safe hwaits signals) ?_ fun _ _ => id)
  rintro reports s₂ (⟨rfl, _, _, -, -, hwaits'⟩ | hdone)
  · exact wp_bind.mpr (wp_gets.mpr (wp_pure.mpr (.inl (hwaits'.unfinished h hsize))))
  · exact wp_bind.mpr (wp_gets.mpr (wp_pure.mpr (.inr (hdone.delivery hsize))))

/-- **Signals that come again often enough.**  The request has its answer.  The rank of a
transfer falls with each signal that it waits for, and signals that it does not wait for leave
it where it is. -/
theorem Serving.answers (h : Serving k s) (recv : Bool) {signals : List Signal}
    (hfair : Fair (100 * frame.length) signals) :
    wp (request rounds frame recv signals)
      (fun result s' => result = delivery (frame, recv) (SerialSlave.replies k [] frame) ∧
        Serving (SerialSlave.release k frame) s')
      never s := by
  refine wp_bind.mpr (wp_mono (h.opens hdepth hsome hrounds hsize recv) ?_ fun _ _ => id)
  rintro _ s₁ ⟨rfl, signal, rank, hrank, hwaits⟩
  have hranked := h.ranked hdepth hsome hrounds hsize recv
  refine wp_bind.mpr (wp_mono (hranked.reaches hfair hwaits hrank) ?_ fun _ _ => id)
  intro reports s₂ hdone
  exact wp_bind.mpr (wp_gets.mpr (wp_pure.mpr (hdone.delivery hsize)))

end Request

/-! ## One request after the other -/

/-- The requests, each with its signals. -/
def requests (rounds : ℕ) :
    List ((List UInt8 × Bool) × List Signal) → Prog (Bus κ depth) (List Result)
  | [] => pure []
  | ((frame, recv), signals) :: others => do
    let result ← request rounds frame recv signals
    let results ← requests rounds others
    pure (result :: results)

/-- **Requests one after the other.**  The induction is on the list: the answer to the first
leaves the driver serving the slave behind its frame.  So the answers are those of the slave
alone. -/
theorem Serving.requests (hdepth : 0 < depth) {rounds : ℕ}
    {asked : List ((List UInt8 × Bool) × List Signal)} (hfits : Fits rounds (asked.map Prod.fst))
    (hfair : ∀ r ∈ asked, Fair (100 * r.1.1.length) r.2) (h : Serving k s) :
    wp (requests rounds asked)
      (fun results s' => results =
          List.zipWith delivery (asked.map Prod.fst) (serve (asked.map Prod.fst) k).1 ∧
        Serving (serve (asked.map Prod.fst) k).2 s')
      never s := by
  induction asked generalizing k s with
  | nil => exact ⟨rfl, h⟩
  | cons first others ih =>
      obtain ⟨⟨frame, recv⟩, signals⟩ := first
      obtain ⟨hsome, hrounds, hsize⟩ := hfits (frame, recv) List.mem_cons_self
      refine wp_bind.mpr (wp_mono (h.answers hdepth hsome hrounds hsize recv
        (hfair _ List.mem_cons_self)) ?_ fun _ _ => id)
      rintro _ s₁ ⟨rfl, hnext⟩
      refine wp_bind.mpr (wp_mono (ih (fun r hr => hfits r (List.mem_cons_of_mem _ hr))
        (fun r hr => hfair r (List.mem_cons_of_mem _ hr)) hnext) ?_ fun _ _ => id)
      rintro _ s₂ ⟨rfl, hend⟩
      refine wp_pure.mpr ⟨?_, hend⟩
      cases recv with
      | false => rfl
      | true => rfl

/-- What holds of every delivery holds of a list of them. -/
theorem forall_zipWith_delivery {P : Result → Prop}
    (h : ∀ request answer, P (delivery request answer)) (asked : List (List UInt8 × Bool))
    (answers : List (List UInt8)) :
    (List.zipWith delivery asked answers).Forall P := by
  induction asked generalizing answers with
  | nil => exact trivial
  | cons first asked ih =>
      cases answers with
      | nil => exact trivial
      | cons answer answers => exact (List.forall_cons ..).mpr ⟨h first answer, ih answers⟩

/-- **The interrupt mode, from the startup on.**  From any state of the registers, and with signals
that come again often enough behind each request, every request has its answer and its one report;
the slave sees these frames alone, in this order, and the status handler of the flash code always
lets the code go on without an error.  Two things are asked of the hardware: it raises no error
interrupts (`hquiet`), and it gets on behind each request (`hfair`).  The slave may be selected to
begin with: `k` is then what comes out of the frame that it is in. -/
theorem interruptSession (hdepth : 0 < depth) {config : XSpiConfig}
    (hconfig : xspiLookupConfig spiDeviceId = some config) {rounds : ℕ}
    {asked : List ((List UInt8 × Bool) × List Signal)} (hfits : Fits rounds (asked.map Prod.fst))
    (hfair : ∀ r ∈ asked, Fair (100 * r.1.1.length) r.2) (h : Cold k s) (hquiet : Silent s)
    {σ : Type} (w : World σ) :
    wp (do
        xspiIntrGlobalEnable
        requests rounds asked)
      (fun results s' => results =
          List.zipWith delivery (asked.map Prod.fst) (serve (asked.map Prod.fst) k).1 ∧
        s'.device.device.slave = (serve (asked.map Prod.fst) k).2 ∧
        results.Forall fun result =>
          result.reports.foldl spiHandler w = { w with transferInProgress := false })
      never (bootCalls config s).2 := by
  obtain ⟨-, hwaiting, hfresh⟩ := h.bootCalls hconfig
  have hserving := hwaiting.intrGlobalEnable hfresh (silent_bootCalls config hquiet)
  refine wp_bind.mpr (wp_mono hserving (fun _ s₁ h₁ => ?_) fun _ _ => id)
  refine wp_mono (h₁.requests hdepth hfits hfair) ?_ fun _ _ => id
  rintro _ s₂ ⟨rfl, hend⟩
  exact ⟨rfl, hend.board.slave, forall_zipWith_delivery (foldl_spiHandler_delivery w) _ _⟩

/-- The same core with another schedule. -/
def rescheduled (schedule : List (Fin 99 × UInt32)) (b : Board κ depth) : Board κ depth :=
  { b with schedule }

/-- A core that was left in the middle of a frame, and raises the interrupts of its FIFOs only. -/
def hushed (k : κ) : Board κ depth := rescheduled [(Fin.last 98, 0)] (interrupted k)

/-- The core of the example raises no errors. -/
theorem silent_hushed (k : κ) (depth : ℕ) : Silent (blank ⟨hushed k, []⟩ : Bus κ depth) := by
  refine List.forall_mem_cons.mpr ⟨?_, List.forall_mem_singleton.mpr ?_⟩
  · exact UInt32.zero_and
  · exact UInt32.zero_and

/-- The reset of the startup releases its slave, which has seen one byte. -/
theorem cold_hushed (k : κ) (depth : ℕ) :
    Cold (SerialSlave.release k [9]) (blank ⟨hushed k, []⟩ : Bus κ depth) :=
  ⟨(cold_interrupted k depth).stopped, (cold_interrupted k depth).board⟩

/-- The driver behind its startup. -/
def hushedDelay : Bus Delay 2 :=
  (bootCalls ⟨50, Axi.base, true, false, 1, 8, 0⟩ (blank ⟨hushed ⟨[]⟩, []⟩)).2

/-- The signals by turns, `n` times each. -/
def byTurns (n : ℕ) : List Signal := (List.replicate n [.tick, .irq]).flatten

/-- Turns of both signals are fair. -/
theorem fair_byTurns (n : ℕ) : Fair n (byTurns n) := by
  refine .flatten_replicate (fun signal => ?_) n
  cases signal with
  | tick => exact List.mem_cons_self
  | irq => exact List.mem_cons_of_mem _ List.mem_cons_self

/-- The same driver with its interrupts on. -/
def served : Bus Delay 2 := (xspiIntrGlobalEnable hushedDelay).2

/-- It serves the slave that came out of the broken frame. -/
theorem serving_served : Serving (⟨[[9]]⟩ : Delay) served := by
  have hconfig : xspiLookupConfig spiDeviceId = some ⟨50, Axi.base, true, false, 1, 8, 0⟩ := rfl
  obtain ⟨-, hwaiting, hfresh⟩ := (cold_hushed (⟨[]⟩ : Delay) 2).bootCalls hconfig
  obtain ⟨_, s', hrun, hserving⟩ := exists_ret_of_wp <|
    hwaiting.intrGlobalEnable hfresh (silent_bootCalls _ (silent_hushed _ 2))
  rw [served, hushedDelay, hrun]
  exact hserving

/-- A request with a few signals: too few, and still the alternative holds. -/
theorem Serving.anySignals_served : ∃ result s',
    request 4 [3, 1, 4] true [.irq, .tick, .irq] served = (.ret result, s') ∧
      (Unfinished (⟨[[9]]⟩ : Delay) [3, 1, 4] true result s' ∨
        result = delivery ([3, 1, 4], true) [0, 3, 1] ∧
          Serving (⟨[[9], [3, 1, 4]]⟩ : Delay) s') := by
  have hsize : ([3, 1, 4] : List UInt8).length < UInt32.size := by
    simp [UInt32.size]
  obtain ⟨result, s', hrun, hcases⟩ := exists_ret_of_wp <|
    serving_served.anySignals (by decide) (List.cons_ne_nil _ _) (Nat.lt_succ_self 3) hsize true
      [.irq, .tick, .irq]
  exact ⟨result, s', hrun, hcases⟩

/-- Two frames, with the handler called as often as the core gets on.  The slave answers with
a delay of one byte, so the order of the bytes can be seen. -/
theorem interruptSession_delay : ∃ s', (do
      xspiIntrGlobalEnable
      requests 4 [(([6], false), byTurns 100), (([3, 1, 4], true), byTurns 300)]) hushedDelay =
        (.ret [⟨.success, [(.transferDone, 1)], none⟩,
          ⟨.success, [(.transferDone, 3)], some [0, 3, 1]⟩], s') ∧
      s'.device.device.slave = ⟨[[9], [6], [3, 1, 4]]⟩ := by
  have hfits : Fits 4 [([6], false), ([3, 1, 4], true)] := by
    simp [Fits, UInt32.size]
  have hconfig : xspiLookupConfig spiDeviceId = some ⟨50, Axi.base, true, false, 1, 8, 0⟩ := rfl
  have hfair : ∀ r ∈ [((([6] : List UInt8), false), byTurns 100), (([3, 1, 4], true), byTurns 300)],
      Fair (100 * r.1.1.length) r.2 := by
    refine List.forall_mem_cons.mpr ⟨?_, List.forall_mem_singleton.mpr ?_⟩
    · exact fair_byTurns 100
    · exact fair_byTurns 300
  obtain ⟨_, s', hrun, rfl, hslave, -⟩ := exists_ret_of_wp <|
    interruptSession (by decide) hconfig hfits hfair (cold_hushed (⟨[]⟩ : Delay) 2)
      (silent_hushed _ 2) (World.fresh ())
  rw [hushedDelay]
  exact ⟨s', hrun, hslave⟩

end SpiCore

end Kiflash
