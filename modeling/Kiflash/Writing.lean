import Kiflash.Verify

/-!
# A frame through the shared buffers

`SpiFlashWrite_File` and `SpiFlashRead` wait for the flash, enable writes and switch the
address mode before and after their own frame, and every one of these commands uses
`WriteBuffer` and `ReadBuffer`.  What arrives at the flash could therefore be a mixture of
commands; this module shows that it is not.

* `spiFlashWriteFile_success` — inside a successful write: the frame that the driver gets is
  the one the arguments say, for any driver.
* `spiFlashWriteFile_frame` — the same in the record of the run.
* the `_inBounds` theorems — no run of the two functions leaves the buffers.

### Why there are two kinds of theorems

The first two are about successful runs, and follow the function from the last command in
front of the frame to the first one behind it.  The last ones are about all runs: an access
outside of the arrays is a stop of the model (`Stop.wild`), and `Avoids .wild` says that it
does not happen, whatever the driver answers.  Both need that the sum of the byte count and
the header is at most the size of the buffer, in 32 bits; the code does not test it, and its
callers send whole pages.
-/

open Imperative Imperative.Prog

namespace Kiflash

section Writing

variable {σ : Type} [XSpiDriver σ] {env : Env}

/-- The frame of a write of `byteCount` bytes of `page` to `addr`: command, four address
bytes, data. -/
def writeFrame (writeCmd : UInt8) (addr byteCount : UInt32) (page : ℕ → UInt8) : List UInt8 :=
  writeCmd :: addrBytes addr ++ bytesOf page byteCount.toNat

/-- Inside a successful write of a frame that fits into `WriteBuffer`.  The housekeeping in
front of the frame overwrites the beginning of the buffer, and the function fills it again
before it sends. -/
theorem spiFlashWriteFile_success {addr byteCount : UInt32} {writeCmd : UInt8} {page : ℕ → UInt8}
    {w w' : World σ} (hsize : byteCount.toNat + 5 ≤ bufferSize)
    (h : spiFlashWriteFile env addr byteCount writeCmd page w = (.ret .success, w')) :
    ∃ w₁ w₂ w₃ w₄ stored,
      spiFlash4bytemodeEnable env w = (.ret .success, w₁) ∧
      spiFlashWriteEnable env w₁ = (.ret .success, w₂) ∧
      spiFlashWaitForFlashReady env w₂ = (.ret .success, w₃) ∧
      XSpiDriver.xspiTransfer env.rounds (writeFrame writeCmd addr byteCount page) false w₃.bus =
        (some (.success, stored), w₄.bus) ∧
      w₄.events =
        w₃.events ++ [.transfer w₃.bus (writeFrame writeCmd addr byteCount page) (some .success)] ∧
      spiFlash4byteexit env w₄ = (.ret .success, w') := by
  have hbuffer : bufferSize = 265 := rfl
  have hcount : (byteCount + readWriteExtraBytes + 1).toNat = byteCount.toNat + 5 := by
    rw [UInt32.toNat_add, UInt32.toNat_add, readWriteExtraBytes]
    simp only [UInt32.reduceToNat]
    omega
  rw [spiFlashWriteFile_eq, hcount, Nat.add_sub_cancel] at h
  obtain ⟨w₁, hmode, h⟩ := check_eq_ok.mp h
  obtain ⟨w₂, henable, h⟩ := check_eq_ok.mp h
  obtain ⟨w₃, hwait, h⟩ := check_eq_ok.mp h
  obtain ⟨w₄, hsend, hexit⟩ := check_eq_ok.mp h
  obtain ⟨_, _, hfill, hsend⟩ := bind_eq_ret.mp hsend
  rw [fillWriteBuffer_eq (by simp [bufferSize])] at hfill
  cases hfill
  obtain ⟨_, _, hfill, hcommand⟩ := bind_eq_ret.mp hsend
  rw [fillWriteBuffer_eq (by rw [bytesOf_length]; omega)] at hfill
  cases hfill
  obtain ⟨_, _, hx, ⟨⟩, rfl⟩ := command_eq_success env hcommand
  obtain ⟨stored, bus, htransfer, rfl⟩ := xspiTransfer_eq_ret hx
  -- the two fills of the buffer, one behind the other, are the frame
  have frame := writeFrame_eq w₃.writeBuffer writeCmd addr page (byteCount.toNat + 5)
  have hlen : (writeCmd :: addrBytes addr ++ bytesOf page byteCount.toNat).length ≤
      byteCount.toNat + 5 := by
    rw [List.length_append, List.length_cons, addrBytes_length, bytesOf_length]
    omega
  rw [Nat.add_sub_cancel, List.take_of_length_le hlen] at frame
  refine ⟨w₁, w₂, w₃, _, stored, hmode, henable, hwait, ?_, ?_, hexit⟩
  · rw [writeFrame, ← frame]
    exact htransfer
  · show w₃.events ++ [_] = _
    rw [writeFrame, ← frame]

/-- The events of a successful write: its frame once, with housekeeping around it.  The frame
is the command, the address and the data, in this order. -/
theorem spiFlashWriteFile_frame {addr byteCount : UInt32} {writeCmd : UInt8} {page : ℕ → UInt8}
    {w w' : World σ} (hsize : byteCount.toNat + 5 ≤ bufferSize)
    (h : spiFlashWriteFile env addr byteCount writeCmd page w = (.ret .success, w')) :
    ∃ before es es', w'.events = w.events ++
        (es ++ .transfer before (writeFrame writeCmd addr byteCount page) (some .success) :: es') ∧
      ∀ e ∈ es ++ es', e.Speaks housekeeping := by
  obtain ⟨w₁, w₂, w₃, w₄, stored, hmode, henable, hwait, -, hevents, hexit⟩ :=
    spiFlashWriteFile_success hsize h
  have before : Talks housekeeping w w₃ :=
    trans_of _ ((spiFlash4bytemodeEnable_talks subset_rfl).of_eq hmode) <|
    trans_of _ ((spiFlashWriteEnable_talks statusFrames_subset).of_eq henable)
      ((spiFlashWaitForFlashReady_talks statusFrames_subset).of_eq hwait)
  obtain ⟨es, hes, hspeaks⟩ := before.events
  obtain ⟨es', hes', hspeaks'⟩ := ((spiFlash4byteexit_talks subset_rfl).of_eq hexit).events
  refine ⟨w₃.bus, es, es', ?_, fun e he => ?_⟩
  · rw [hes', hevents, hes, List.append_assoc, List.append_assoc, List.singleton_append]
  · rcases List.mem_append.mp he with he | he
    · exact hspeaks e he
    · exact hspeaks' e he

end Writing

/-! ## Inside the buffers -/

section InBounds

variable {σ : Type} {env : Env}

/-- Stores that end inside of `WriteBuffer`. -/
theorem fillWriteBuffer_inBounds {i : ℕ} {bs : List UInt8} (h : i + bs.length ≤ bufferSize) :
    Avoids .wild (fillWriteBuffer (σ := σ) i bs) :=
  fun _ => (wp_of_ret (fillWriteBuffer_eq h)).mpr trivial

variable [XSpiDriver σ] (hfd : FullDuplex σ)
include hfd

/-- A command whose frame lies in the buffer, on a bus that answers with no more than it is
sent.  The store past the end of `ReadBuffer` is the one thing that could make it wild. -/
theorem command_inBounds {recv : Bool} {n : ℕ} {inner : Prog (World σ) Xst} (hn : n ≤ bufferSize)
    (hinner : Avoids .wild inner) : Avoids .wild (command env recv n inner) := by
  have transfer : Avoids .wild (xspiTransfer (σ := σ) env recv n) := by
    intro w
    refine wp_xspiTransfer (fun hlt => absurd hn (Nat.not_le.mpr hlt)) (fun _ _ h => nomatch h)
      (fun status stored bus hx hlt => ?_) fun _ _ _ _ _ => trivial
    have hlen := hfd _ _ _ _ _ _ _ hx
    rw [bytesOf_length] at hlen
    omega
  refine Avoids.bind (avoids_modify _) fun _ => transfer.check (hinner.bind fun status => ?_)
  refine Avoids.bind (avoids_modify _) fun _ => Avoids.ite (Avoids.bind ?_ fun _ => ?_) (avoids_pure _)
  · exact (avoids_gets _).bind fun _ => (avoids_halt Stop.noConfusion).ite (avoids_pure _)
  · exact (avoids_gets _).bind fun _ => (avoids_pure _).ite
      (Avoids.bind (avoids_modify _) fun _ => avoids_pure _)

/-- A frame built and sent inside the buffer. -/
theorem send_inBounds {bs : List UInt8} {recv : Bool} {n : ℕ} (hbs : bs.length ≤ bufferSize)
    (hn : n ≤ bufferSize) : Avoids .wild (fillWriteBuffer 0 bs >>= fun _ =>
      command (σ := σ) env recv n (pure .success)) :=
  (fillWriteBuffer_inBounds (by omega)).bind fun _ => command_inBounds hfd hn (avoids_pure _)

theorem spiFlashWaitForFlashReady_inBounds :
    Avoids .wild (spiFlashWaitForFlashReady (σ := σ) env) := by
  refine Avoids.loop Stop.noConfusion
    (fun _ => (send_inBounds hfd (by decide) (by decide)).bind fun status => ?_) _ _
  exact ((avoids_gets _).bind fun _ => (avoids_pure _).ite (avoids_pure _)).ite (avoids_pure _)

theorem spiFlashWriteEnable_inBounds : Avoids .wild (spiFlashWriteEnable (σ := σ) env) :=
  (spiFlashWaitForFlashReady_inBounds hfd).check (send_inBounds hfd (by decide) (by decide))

theorem enabledCommand_inBounds {cmd : UInt8} : Avoids .wild (enabledCommand (σ := σ) env cmd) :=
  (spiFlashWriteEnable_inBounds hfd).check <| (spiFlashWaitForFlashReady_inBounds hfd).check
    (send_inBounds hfd (by simp [bufferSize]) (by decide))

/-- A page program, by the length that the function computes for its frame. -/
theorem spiFlashWriteFile_inBounds {addr byteCount : UInt32} {writeCmd : UInt8}
    {page : ℕ → UInt8} (h : (byteCount + readWriteExtraBytes + 1).toNat ≤ bufferSize) :
    Avoids .wild (spiFlashWriteFile (σ := σ) env addr byteCount writeCmd page) := by
  have hbuffer : bufferSize = 265 := rfl
  rw [spiFlashWriteFile_eq]
  generalize (byteCount + readWriteExtraBytes + 1).toNat = size at h ⊢
  refine (enabledCommand_inBounds hfd).check <| (spiFlashWriteEnable_inBounds hfd).check <|
    (spiFlashWaitForFlashReady_inBounds hfd).check <| Avoids.check ?_ (enabledCommand_inBounds hfd)
  refine (fillWriteBuffer_inBounds (by simp [bufferSize])).bind fun _ => ?_
  refine (fillWriteBuffer_inBounds ?_).bind fun _ => command_inBounds hfd h (avoids_pure _)
  rw [bytesOf_length]
  omega

/-- A read, by its length: header, dummy bytes and data. -/
theorem spiFlashRead_inBounds {addr byteCount : UInt32} {readCmd : UInt8}
    (h : (byteCount + dummyBytes readCmd + readWriteExtraBytes).toNat ≤ bufferSize) :
    Avoids .wild (spiFlashRead (σ := σ) env addr byteCount readCmd) := by
  rw [spiFlashRead_eq]
  exact (enabledCommand_inBounds hfd).check <| (spiFlashWriteEnable_inBounds hfd).check <|
    (spiFlashWaitForFlashReady_inBounds hfd).check <|
    (send_inBounds hfd (by simp [bufferSize]) h).check (enabledCommand_inBounds hfd)

end InBounds

end Kiflash
