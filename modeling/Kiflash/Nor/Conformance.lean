import Kiflash.Nor.Protocol
import Kiflash.Operations

/-!
# Every run keeps to the command protocol

The parts that operations are made of keep to the rules of `Kiflash.Nor.Protocol`: the command
functions by the conformance lemmas of that module, the rest because they send nothing.
`Carries.runAll` does the rest.

* `carries_proper` — the parts.
* `protocol_conformance` — every run.

The property is one of the record: each transfer is there with the state of the flash before
it, and `Proper` looks at this pair.  So a run that conforms is one whose events are all in a
set, and no induction over the run is needed here beyond the general one.
-/

open Imperative Imperative.Prog

namespace Kiflash

variable {p : NorParams} {env : Env}

theorem mem_proper {e : Event (Nor p)} (h : ∀ before frame status, e ≠ .transfer before frame status) :
    e ∈ (proper : Set (Event (Nor p))) :=
  fun before frame status heq => absurd heq (h before frame status)

/-- What sends no frame breaks no rule. -/
theorem unsent_subset_proper : (unsent : Set (Event (Nor p))) ⊆ proper := by
  rintro e (⟨value, rfl⟩ | rfl | ⟨address, rfl⟩ | ⟨value, rfl⟩) <;>
    exact mem_proper fun _ _ _ h => nomatch h

/-- A driver call that is no transfer is not recorded as one. -/
theorem callDriver_proper {call : Nor p → Xst × Nor p} : Moves (Emits proper) (callDriver call) :=
  fun _ => .of_eq rfl

/-- The startup: its only transfers are those of the write enable at its end. -/
theorem systemInitStartup_proper : Moves (Emits proper) (systemInitStartup (σ := Nor p) env) := by
  unfold systemInitStartup
  split
  · exact moves_pure _
  · exact Moves.bind (moves_modify fun _ => .of_eq rfl) fun _ => callDriver_proper.check <|
      callDriver_proper.check <| callDriver_proper.check <| callDriver_proper.bind fun _ =>
      spiFlashWriteEnable_conforms.moves.check (moves_pure _)

/-- **The parts of the operations keep to the protocol.**  With this every run of operations
does, by the general rule on runs; the fields are the conformance results of the single
functions. -/
theorem carries_proper : Carries (σ := Nor p) env (Emits proper) where
  silent _ _ h _ := h.mono unsent_subset_proper
  pciWriteReg _ _ := moves_modify fun _ => .of_mem rfl (mem_proper fun _ _ _ h => nomatch h)
  ensureInit := (moves_gets _).bind fun _ => (moves_pure _).ite <| systemInitStartup_proper.check <|
    Moves.bind (moves_modify fun _ => .of_eq rfl) fun _ => moves_pure _
  setSlaveSelect := callDriver_proper
  start := callDriver_proper
  spiFlashWriteEnable := spiFlashWriteEnable_conforms.moves
  spiFlashReadflagstatus := (enabledRegisterRead_conforms (.inr rfl)).moves
  spiFlashClrflagstatus := spiFlashClrflagstatus_conforms.moves
  spiFlashReadID := spiFlashReadID_conforms.moves
  spiFlashQuadEnable := spiFlashQuadEnable_conforms.moves
  spiFlashBulkErase := (spiFlashWriteEnable_conforms.check spiFlashBulkErase_conforms).moves
  spiFlashRead _ _ _ := spiFlashRead_conforms.moves
  spiFlashWriteFile _ _ _ _ := spiFlashWriteFile_conforms.moves
  spiFlashSectorErase _ := spiFlashSectorErase_conforms.moves
  spiFlashDieErase _ := spiFlashDieErase_conforms.moves

/-- **Every run keeps to the command protocol**, from any state of the host and the flash on,
whatever the device decides: nothing but a status read is sent to a busy flash, every write
command finds the write enable latch set, and every five-byte erase frame finds the flash in
4-byte address mode.

`Proper` is these three demands on the state of the flash in front of a frame, and the events
of the run record this state for every frame that was sent.  Frames whose transfer fails are
among them.  The operations are all those of the library, in any number and order. -/
theorem protocol_conformance (p : NorParams) (env : Env) (operations : List Operation)
    (w : World (Nor p)) (before : Nor p) (frame : List UInt8) (status : Option Xst)
    (h : .transfer before frame status ∈ newEvents w (runAll env operations w).2) :
    Proper before frame :=
  (carries_proper.runAll (fun _ _ => .of_eq rfl) operations w).mem_newEvents h before frame status rfl

/-- The event is the sector erase at address zero. -/
def Event.erasesSectorZero : Event (Nor p) → Bool
  | .transfer _ frame _ => frame = [0xD8, 0, 0, 0, 0]
  | _ => false

/-- A sector erase does send its frame.  So the conformance of its run is about something. -/
theorem protocol_conformance_sectorErase :
    ∃ before status, .transfer before [0xD8, 0, 0, 0, 0] status ∈
        newEvents (World.fresh (Nor.idle .swift fun _ => 0xFF))
          (runAll (.plain none 0) [.spiFlashSectorErase 0]
            (World.fresh (Nor.idle .swift fun _ => 0xFF))).2 ∧
      Proper before [0xD8, 0, 0, 0, 0] := by
  have hany : (newEvents (World.fresh (Nor.idle .swift fun _ => 0xFF))
      (runAll (.plain none 0) [.spiFlashSectorErase 0]
        (World.fresh (Nor.idle .swift fun _ => 0xFF))).2).any Event.erasesSectorZero = true := by
    decide +kernel
  obtain ⟨e, hmem, he⟩ := List.any_eq_true.mp hany
  cases e with
  | transfer before frame status =>
      obtain rfl : frame = [0xD8, 0, 0, 0, 0] := of_decide_eq_true he
      exact ⟨before, status, hmem, protocol_conformance _ _ _ _ _ _ _ hmem⟩
  | _ => exact absurd he (by simp [Event.erasesSectorZero])

end Kiflash
