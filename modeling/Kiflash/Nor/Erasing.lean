import Kiflash.Nor.Programming

/-!
# Erases that go wrong

An erase that the flash fails or refuses is reported in its flag status register only.
`GetStatus` reads that register after each erase and drops what it read, so the functions
above it return success all the same.

* `EraseCall` — the two functions that erase, with the cells that a call is about.
* `Event.ErasesAnyway` — the command went well, or left the cells it covers erased.
* `erase_success_iff` — what a successful call leaves.

### What can be said of a success

The call has sent its erase commands, to an idle flash with the latch set and in the right
mode, and the flash has carried them out.  So the cells outside are as before, and this holds
without any condition.  Whether the cells inside are erased is up to the device: an erase that
goes wrong leaves what it leaves, and a cell that happens to be `0xFF` afterwards is an erased
cell.  The condition is put on each command of the run by itself, with the state of the device
before it.

### Sectors that wrap around

The addresses of the sectors are computed in 32 bits, and the flash drops the upper ones.  A
call has at most as many sectors as the flash, so no two of them are the same, and a sector
that is erased is not spoilt by a later one.
-/

open Imperative Imperative.Prog NorFlash

namespace Kiflash

section Erasing

variable {p : NorParams} {env : Env} {w w' : World (Nor p)}

/-- If this is a write command that goes wrong, it leaves the cells that it covers erased. -/
def Event.ErasesAnyway : Event (Nor p) → Prop
  | .transfer before frame _ => ∀ command left x, writeCommand before.fourByte frame = some command →
      p.misfire before.clock = some left → command.Covers x → left x = 0xFF
  | _ => True

/-- Housekeeping covers no cells. -/
theorem Event.Speaks.erasesAnyway {e : Event (Nor p)} (h : e.Speaks housekeeping) :
    e.ErasesAnyway := by
  cases e with
  | transfer before frame status =>
      intro command left x hcommand _ hcovers
      have hnot := not_mem_footprint (fun _ hcmd hop => Nor.writeOps_housekeeping hcmd hop) x frame h
      exact absurd ⟨_, command, hcommand, hcovers⟩ hnot
  | _ => trivial

/-- What an erase command leaves in its block, whether it goes wrong or not. -/
theorem apply_erase_eq {size addr x : ℕ} {misfire : Option (ℕ → UInt8)} {m : ℕ → UInt8}
    (h : InBlock size addr x) : (WriteCommand.erase size addr).apply misfire m x = 0xFF ↔
      ∀ left, misfire = some left → left x = 0xFF := by
  cases misfire with
  | none => exact iff_of_true (erase_of_inBlock h) fun _ hleft => nomatch hleft
  | some left =>
      have happly : (WriteCommand.erase size addr).apply (some left) m x = left x := if_pos h
      rw [happly]
      exact ⟨fun hx _ hleft => Option.some.inj hleft ▸ hx, fun hall => hall left rfl⟩

/-- A run with one erase command in it: the block is erased exactly if the command does not
go wrong in it. -/
theorem Writes.erased_iff {size addr : ℕ} {before : Nor p}
    (h : Writes (.erase size addr) before w w') :
    (∀ x, InBlock size addr x → w'.bus.mem x = 0xFF) ↔ ∀ e ∈ newEvents w w', e.ErasesAnyway := by
  obtain ⟨frame, es, es', hcommand, hes, hspeaks⟩ := h.events
  rw [newEvents_of_eq hes, h.mem]
  constructor
  · intro herased e he
    rcases List.mem_append.mp he with he | he
    · exact (hspeaks e (List.mem_append_left _ he)).erasesAnyway
    · rcases List.mem_cons.mp he with rfl | he
      · intro command left x hcommand' hleft hcovers
        obtain rfl := Option.some.inj (hcommand.symm.trans hcommand')
        exact (apply_erase_eq hcovers).mp (herased x hcovers) left hleft
      · exact (hspeaks e (List.mem_append_right _ he)).erasesAnyway
  · intro hanyway x hx
    have hcommand' := hanyway (.transfer before frame (some .success)) (by simp)
    exact (apply_erase_eq hx).mpr fun left hleft => hcommand' _ left x hcommand hleft hx

/-- Outside its block, an erase changes nothing. -/
theorem Writes.mem_of_not_inBlock {size addr x : ℕ} {before : Nor p}
    (h : Writes (.erase size addr) before w w') (hx : ¬ InBlock size addr x) :
    w'.bus.mem x = w.bus.mem x := by
  have hcovers : ¬ (WriteCommand.erase size addr).Covers x := hx
  rw [h.mem, WriteCommand.apply_of_not_covers hcovers]

/-! ## Runs of sector erases -/

/-- The sectors behind the first one are those of the next address. -/
theorem sectorAt_succ (addr : UInt32) (i : ℕ) :
    sectorAt (addr + bytePerSector) i = sectorAt addr (i + 1) := by
  rw [sectorAt, sectorAt, Nat.mul_succ, Nat.add_comm, UInt32.ofNat_add, ← UInt32.add_assoc]
  rfl

/-- The flash has 4096 sectors. -/
theorem not_inBlock_sectorAt_succ {addr : UInt32} {i x : ℕ} (hi : i + 1 < 4096)
    (h : InBlock 0x10000 (sectorAt addr 0) x) : ¬ InBlock 0x10000 (sectorAt addr (i + 1)) x := by
  have hsize := flashSize_eq
  intro h'
  rw [InBlock, sectorAt, UInt32.toNat_add, UInt32.toNat_ofNat', hsize] at h h'
  omega

/-- **A successful run of sector erases**, at most as many as there are sectors.  The
induction is on the sectors: the first one is erased and stays as it is, since the others are
different blocks. -/
theorem sectorErases_iff {n : ℕ} {addr : UInt32} (hn : n ≤ 4096)
    (h : checkLoop (spiFlashSectorErase env) (· + bytePerSector) n addr w = (.ret .success, w')) :
    (∀ x, (∀ i < n, ¬ InBlock 0x10000 (sectorAt addr i) x) → w'.bus.mem x = w.bus.mem x) ∧
      ((∀ i < n, ∀ x, InBlock 0x10000 (sectorAt addr i) x → w'.bus.mem x = 0xFF) ↔
        ∀ e ∈ newEvents w w', e.ErasesAnyway) := by
  induction n generalizing addr w with
  | zero =>
      cases h
      refine ⟨fun _ _ => rfl, iff_of_true (fun i hi => absurd hi (Nat.not_lt_zero i)) ?_⟩
      rw [newEvents, List.drop_length]
      exact fun e he => absurd he List.not_mem_nil
  | succ n ih =>
      obtain ⟨w₁, hfirst, hrest⟩ := check_eq_ok.mp h
      obtain ⟨before, hwrite⟩ := sectorErase_writes hfirst
      have hzero : addr.toNat % flashSize = sectorAt addr 0 := by
        rw [sectorAt, Nat.mul_zero]
        exact congrArg (·.toNat % flashSize) (UInt32.add_zero addr).symm
      rw [hzero] at hwrite
      obtain ⟨hframe, hiff⟩ := ih (by omega) hrest
      simp only [sectorAt_succ] at hframe hiff
      have hfrees := hwrite.erased_iff
      -- the later sectors do not touch the first one
      have hkept : ∀ x, InBlock 0x10000 (sectorAt addr 0) x → w'.bus.mem x = w₁.bus.mem x :=
        fun x hx => hframe x fun i hi => not_inBlock_sectorAt_succ (by omega) hx
      obtain ⟨es, hes⟩ : ∃ es, w₁.events = w.events ++ es := by
        obtain ⟨_, es, es', _, hes, _⟩ := hwrite.events
        exact ⟨_, hes⟩
      obtain ⟨es', hes', -⟩ := ((Moves.checkLoop (fun _ =>
        spiFlashSectorErase_talks (Set.subset_univ _) trivial) n _).of_eq hrest).events
      rw [newEvents_of_eq hes] at hfrees
      rw [newEvents_of_eq hes'] at hiff
      rw [newEvents_of_eq (hes'.trans (by rw [hes, List.append_assoc]))]
      refine ⟨fun x hx => ?_, ?_⟩
      · rw [hframe x fun i hi => hx (i + 1) (by omega)]
        exact hwrite.mem_of_not_inBlock (hx 0 (by omega))
      · rw [List.forall_mem_append, ← hfrees, ← hiff]
        constructor
        · intro hall
          refine ⟨fun x hx => ?_, fun i hi x hx => hall (i + 1) (by omega) x hx⟩
          rw [← hkept x hx]
          exact hall 0 (by omega) x hx
        · rintro ⟨hfirst, hlater⟩ i hi x hx
          cases i with
          | zero => rw [hkept x hx]; exact hfirst x hx
          | succ i => exact hlater i (by omega) x hx

end Erasing

/-! ## The two functions -/

/-- A call of `qspi_erase_sector_flash`, or of `SpiFlashDieErase` for one of the four dies,
with its arguments. -/
inductive EraseCall where
  | sectors (ofsetAddr sectCount : UInt32)
  | die (uscDieNr : Fin 4)
  deriving DecidableEq, Repr

namespace EraseCall

/-- What the call runs. -/
def run {σ : Type} [XSpiDriver σ] (env : Env) : EraseCall → Prog (World σ) Xst
  | sectors ofsetAddr sectCount => qspiEraseSectorFlash env ofsetAddr sectCount
  | die uscDieNr => spiFlashDieErase env (UInt32.ofNat uscDieNr)

/-- The cells that the call is to erase: the sectors around `OfsetAddr + 65536 * k`, or the
die. -/
def cells : EraseCall → Set ℕ
  | sectors ofsetAddr sectCount =>
    {x | ∃ k < sectCount.toNat, InBlock 0x10000 (sectorAt ofsetAddr k) x}
  | die uscDieNr => Set.Ico (0x4000000 * uscDieNr) (0x4000000 * (uscDieNr + 1))

/-- The block of a die. -/
theorem mem_cells_die {uscDieNr : Fin 4} {x : ℕ} : x ∈ (die uscDieNr).cells ↔
    InBlock 0x4000000 ((UInt32.ofNat uscDieNr <<< 26).toNat % flashSize) x := by
  have hstart : (UInt32.ofNat uscDieNr <<< 26).toNat % flashSize = 0x4000000 * uscDieNr := by
    revert uscDieNr
    decide
  rw [hstart, inBlock_iff_of_dvd (by decide) (Dvd.intro _ rfl)]
  change 0x4000000 * (uscDieNr : ℕ) ≤ x ∧ x < 0x4000000 * ((uscDieNr : ℕ) + 1) ↔ _
  omega

end EraseCall

section EraseCall

variable {p : NorParams} {env : Env} {w w' : World (Nor p)} {call : EraseCall}

/-- **What a successful erase call leaves**, on any device.  All of its cells are erased, and
no others have changed, exactly if every erase command that went wrong left its block erased
all the same.

A command goes wrong when the device misfires at it, which is known from the state in front of
the command.  The flash notes this in its flag status register, and the code reads the
register and does not look at it: so the call succeeds, and nothing but the contents before
tells what it has left.  That the commands cover the cells, each once and no others, is part
of the proof and no condition. -/
theorem erase_success_iff (h : call.run env w = (.ret .success, w')) :
    ((∀ x ∈ call.cells, w'.bus.mem x = 0xFF) ∧ (∀ x ∉ call.cells, w'.bus.mem x = w.bus.mem x)) ↔
      ∀ e ∈ newEvents w w', e.ErasesAnyway := by
  cases call with
  | sectors ofsetAddr sectCount =>
      change qspiEraseSectorFlash env ofsetAddr sectCount w = _ at h
      unfold qspiEraseSectorFlash at h
      split_ifs at h with hcount
      · have hle : sectCount.toNat ≤ 4096 := by
          have hnumb : sectCount ≤ numbSectors := UInt32.le_iff_lt_or_eq.mpr hcount
          exact UInt32.le_iff_toNat_le.mp hnumb
        obtain ⟨hframe, hiff⟩ := sectorErases_iff hle h
        rw [← hiff]
        refine ⟨fun hcells i hi x hx => hcells.1 x ⟨i, hi, hx⟩, fun hall => ⟨?_, fun x hx => ?_⟩⟩
        · rintro x ⟨i, hi, hx⟩
          exact hall i hi x hx
        · exact hframe x fun i hi hin => hx ⟨i, hi, hin⟩
      · cases h
  | die uscDieNr =>
      obtain ⟨before, hwrite⟩ := dieErase_writes h
      rw [← hwrite.erased_iff]
      refine ⟨fun hcells x hx => hcells.1 x (EraseCall.mem_cells_die.mpr hx), fun hall => ⟨?_, ?_⟩⟩
      · exact fun x hx => hall x (EraseCall.mem_cells_die.mp hx)
      · exact fun x hx => hwrite.mem_of_not_inBlock (mt EraseCall.mem_cells_die.mpr hx)

/-- Two sectors on a device without faults.  It is the case of the general result with the
sectors at `0x10000` and `0x20000`. -/
theorem erase_success_two : ∃ w', qspiEraseSectorFlash (Env.plain none 0) 0x10000 2
      (World.selected .user fun _ => 0) = (.ret .success, w') ∧
    ∀ x ∈ (EraseCall.sectors 0x10000 2).cells, w'.bus.mem x = 0xFF := by
  have hr := Nor.responsive NorParams.swift_faultFree (swift_busy none 0)
  have hcount : (2 : UInt32) ≤ numbSectors := by decide
  obtain ⟨w', hrun, -⟩ := (qspiEraseSectorFlash_serves hr hcount).exists_ret
    (selected_ready .user fun _ => 0)
  have hcall : (EraseCall.sectors 0x10000 2).run (Env.plain none 0)
      (World.selected .user fun _ => 0) = (.ret .success, w') := hrun
  refine ⟨w', hrun, ((erase_success_iff hcall).mpr fun e _ => ?_).1⟩
  cases e with
  | transfer => exact fun _ _ _ _ hleft => nomatch hleft
  | _ => trivial

end EraseCall

/-! ## A protected flash -/

/-- A device that refuses every erase of its cleared cells, and answers the read of its flag
status register with the bits for an erase that failed on a protected sector. -/
def NorParams.protected : NorParams :=
  { NorParams.swift with
    misfire := fun _ => some fun _ => 0
    noise := fun _ i => if i = 0 then 0 else 0xA2 }

/-- An initialised process before the protected flash.  Its erases are refused, and the flag
status says so. -/
def World.protected : World (Nor .protected) :=
  { World.fresh (Nor.idle .protected fun _ => 0) with qspiInitFlag := true }

/-- The answers to the reads of the flag status register.  They are on record, as the source
does not look at them. -/
def flagAnswers {p : NorParams} (es : List (Event (Nor p))) : List (List UInt8) :=
  es.filterMap fun
    | .transfer before frame _ =>
      if frame.head? = some commandReadFlagStatus then some (before.answer frame) else none
    | _ => none

/-- The sector and the die are not erased, the flash says so, and both calls return success. -/
theorem erase_success_counterexample :
    ((qspiEraseSectorFlash (Env.plain none 0) 0 1 World.protected).1 = .ret .success ∧
      (qspiEraseSectorFlash (Env.plain none 0) 0 1 World.protected).2.bus.mem 0 = 0 ∧
      flagAnswers (qspiEraseSectorFlash (Env.plain none 0) 0 1 World.protected).2.events =
        [[0, 0xA2, 0xA2, 0xA2]]) ∧
    ((spiFlashDieErase (Env.plain none 0) 0 World.protected).1 = .ret .success ∧
      (spiFlashDieErase (Env.plain none 0) 0 World.protected).2.bus.mem 0 = 0 ∧
      flagAnswers (spiFlashDieErase (Env.plain none 0) 0 World.protected).2.events =
        [[0, 0xA2, 0xA2, 0xA2]]) := by
  decide +kernel

end Kiflash
