import Kiflash.Responsive

/-!
# A flash that stays blank

`BlankFlash` answers every driver call with success and every page read with `0xFF`; its erase
and program commands do nothing.  It satisfies `FlashLaws`, so an image of `0xFF` bytes
programs and verifies on it, and nothing else does.

* `BlankFlash` — the driver, with a state that has nothing to remember.
* `blank_laws`, `blank_responsive` — it is a flash, and it answers.
* `kiflashProgramUser_blank` — such an image goes through from a fresh process on.
* `blankEnv`, `blankFile` — the host for it.

It is the smallest instance of the assumptions that the statements about an arbitrary flash
make, and shows that these do not exclude each other: there is a flash that satisfies them,
and a run that succeeds on it.  That erasing and programming do nothing here is part of the
point.  What a success says may not rest on the commands that led to it.
-/

open Imperative Imperative.Prog

namespace Kiflash

/-- A flash that stays blank. -/
inductive BlankFlash where
  | blank
  deriving DecidableEq, Repr

/-- What a blank flash answers to a frame: zeros during the header of a read, then `0xFF`;
zeros to any other command, which means that it is never busy. -/
def blankAnswer (frame : List UInt8) : List UInt8 :=
  if frame.head? = some command4byteQuadOutputFastRead then
    (List.replicate 9 (0 : UInt8) ++ List.replicate 256 0xFF).take frame.length
  else List.replicate frame.length 0

instance : XSpiDriver BlankFlash where
  xspiPciInitialize flash := flash
  xspiCfgInitialize _ flash := (.success, flash)
  xspiSetOptions _ flash := (.success, flash)
  xspiSetSlaveSelect _ flash := (.success, flash)
  xspiStart flash := (.success, flash)
  xspiTransfer _ frame recv flash :=
    (some (.success, if recv then blankAnswer frame else []), flash)
  pciWriteReg _ _ flash := flash

/-- The bytes of a blank flash, at every address. -/
def blankContent : BlankFlash → UInt32 → UInt8 := fun _ _ => 0xFF

/-- The answer is no longer than the frame. -/
theorem blankAnswer_length_le (frame : List UInt8) : (blankAnswer frame).length ≤ frame.length := by
  unfold blankAnswer
  split_ifs
  · rw [List.length_take]
    exact Nat.min_le_left _ _
  · rw [List.length_replicate]

/-- **A blank flash is a flash.**  It answers a page read by the page behind nine bytes of no
interest, no frame changes it, and it stores no more than it is sent.  So the laws of
`Kiflash.Verify` are not empty, and the results that assume them apply to it. -/
theorem blank_laws : FlashLaws blankContent where
  read := by
    intro rounds addr stale flash stored flash' hstale h
    have hstored : stored = blankAnswer (command4byteQuadOutputFastRead :: addrBytes addr ++ stale) := by
      cases h
      rfl
    have hlen : (command4byteQuadOutputFastRead :: addrBytes addr ++ stale).length = 265 := by
      rw [List.length_append, List.length_cons, addrBytes_length, hstale]
    refine ⟨List.replicate 9 0, List.length_replicate, ?_⟩
    have hpage : (List.range 256).map (fun k => blankContent flash (addr + UInt32.ofNat k)) =
        List.replicate 256 0xFF := by
      unfold blankContent
      rw [List.map_const', List.length_range]
    rw [hstored, blankAnswer, if_pos (by rfl), hlen, hpage]
    refine List.take_of_length_le ?_
    rw [List.length_append, List.length_replicate, List.length_replicate]
  quiet := fun _ _ _ => rfl
  pci := fun _ _ _ => rfl
  fullDuplex := by
    rintro rounds frame recv flash status stored flash' ⟨⟩
    cases recv with
    | false => exact Nat.zero_le _
    | true => exact blankAnswer_length_le frame

/-- And it answers, in every state and without a busy poll. -/
theorem blank_responsive {rounds : ℕ} (h : 0 < rounds) :
    Responsive rounds (fun _ : BlankFlash => True) fun _ => 0 where
  fullDuplex := blank_laws.fullDuplex
  polls_lt := fun _ => h
  transfer := fun _ _ _ => ⟨_, _, rfl, trivial⟩
  status := by
    rintro bus b stored bus' - ⟨⟩
    exact ⟨0, 0, rfl, .inl rfl⟩
  setSlaveSelect := fun _ => ⟨_, rfl, trivial⟩
  start := fun _ => trivial

/-- `System_init_startup` goes through. -/
theorem systemInitStartup_blank {env : Env} (hrounds : 0 < env.rounds) {w : World BlankFlash}
    (h : w.errorCount = 0) :
    wp (systemInitStartup env)
      (fun status w' => status = .success ∧ Ready (fun _ => True) w') (fun _ _ => False) w := by
  have hlookup : xspiLookupConfig spiDeviceId = xspiConfigTable.head? := by decide
  have enable : Serves (fun _ => True) (spiFlashWriteEnable (σ := BlankFlash) env) :=
    spiFlashWriteEnable_serves (blank_responsive hrounds)
  rw [systemInitStartup, hlookup]
  refine wp_bind.mpr (wp_modify.mpr (wp_check.mpr (wp_callDriver.mpr
    ⟨fun _ => wp_check.mpr (wp_callDriver.mpr ⟨fun _ => wp_check.mpr (wp_callDriver.mpr
      ⟨fun _ => wp_bind.mpr (wp_callDriver.mpr ?_), fun hno => absurd rfl hno⟩),
      fun hno => absurd rfl hno⟩), fun hno => absurd rfl hno⟩)))
  exact enable.check serves_success _ ⟨trivial, h⟩

/-- From a fresh process on, the initialisation goes through. -/
theorem ensureInit_blank {env : Env} (hrounds : 0 < env.rounds) {w : World BlankFlash}
    (h : w.errorCount = 0) :
    wp (ensureInit env)
      (fun status w' => status = .success ∧ Ready (fun _ => True) w' ∧ w'.qspiInitFlag = true)
      (fun _ _ => False) w := by
  by_cases hflag : w.qspiInitFlag = true
  · exact (wp_of_ret (ensureInit_of_flag env hflag)).mpr ⟨rfl, ⟨trivial, h⟩, hflag⟩
  · rw [ensureInit, wp_bind, wp_gets, if_neg hflag, wp_check]
    refine wp_mono (systemInitStartup_blank hrounds h) (fun status w₁ h₁ => ?_) fun _ _ h => h
    exact ⟨fun _ => ⟨rfl, ⟨trivial, h₁.2.errorCount⟩, rfl⟩, fun hno => absurd h₁.1 hno⟩

/-- `kiflash_init` goes through on a host whose chassis device opens.  Behind it the driver is
initialised and the path is that of the images. -/
theorem kiflashInit_blank {env : Env} (hrounds : 0 < env.rounds) {w : World BlankFlash}
    (hopenPci : env.openPci w.pciFds = true) (h : w.errorCount = 0) :
    wp (kiflashInit env)
      (fun _ w' => w'.errorCount = 0 ∧ w'.qspiInitFlag = true ∧ w'.flashData.path = imagePath ∧
        Emits Set.univ w w') (fun _ _ => False) w := by
  obtain ⟨percentage, events, hreset, -⟩ := w.reset_eq env
  have hemits : Emits Set.univ w { w.reset env with pciFds := w.pciFds + 1 } := by
    rw [hreset]
    exact ⟨events, rfl, fun _ _ => trivial⟩
  have herror : (w.reset env).errorCount = 0 := by rw [hreset]; exact h
  refine wp_kiflashInit (fun hclosed => by simp [hclosed] at hopenPci) fun _ => ?_
  refine wp_mono (wp_and (ensureInit_blank hrounds herror)
    ((ensureInit_talks (A := Set.univ) (Set.subset_univ _)).wp _)) (fun status w₂ h₂ => ?_)
    fun _ _ h => h.1
  obtain ⟨⟨rfl, hready, hflag⟩, htalks⟩ := h₂
  refine ⟨fun _ => ?_, fun hno => absurd rfl hno⟩
  refine ⟨hready.errorCount, hflag, ?_, ?_⟩
  · rw [htalks.flashData, hreset]
    rfl
  · exact trans_of (Emits Set.univ) hemits (htalks.emits transfers_univ.admits)

/-- An image programs and verifies if its bytes that a 32-bit offset reaches are `0xFF`.  No
erase and no program changes a blank flash, so the verification reads `0xFF` throughout. -/
theorem programUser_blank {env : Env} {file : File} {w : World BlankFlash}
    (hrounds : 0 < env.rounds) (hflag : w.qspiInitFlag = true)
    (hend : w.flashData.eraseEndAddr = Region.user.eraseEndAddr)
    (hopen : ∀ i, env.fopen i w.flashData.pathname = some file)
    (hfile : ∀ b ∈ file.contents.take (2 ^ 32), b = 0xFF) (hheap : ∀ n k, env.malloc n k = 0xFF)
    (h : w.errorCount = 0) :
    ∃ w', programUser env 1 w = (.ret .success, w') ∧ w'.errorCount = 0 := by
  have hsectors : sectorsToErase w.flashData ((ProgramCall.user 1).eraseFrom w.flashData) ≤
      numbSectors := by
    rw [sectorsToErase, hend]
    change (Region.user.eraseEndAddr - 0x08000000) / bytePerSector ≤ numbSectors
    decide
  have run := (ProgramCall.user 1).run_ready (blank_responsive hrounds)
    (blank_laws.exactReads env) (fun _ => True) (fun _ _ => True) (w := w) ⟨trivial, h⟩ hflag hopen
    (fun _ => hsectors) (fun _ => trivial) (fun _ _ _ _ _ => trivial) (fun _ _ _ _ => trivial)
    fun _ _ _ _ _ _ _ => trivial
  obtain ⟨status, w', hrun, hready, bus, -, -, hpass⟩ := exists_ret_of_wp run
  have hok : status = .success :=
    hpass.mpr fun j _ k _ => (filePage_forall hfile (fun _ _ => hheap _ _) j k).symm
  exact ⟨w', hok ▸ hrun, hready.errorCount⟩

/-- **Such an image programs and verifies on a blank flash**, from a fresh process on, and the
FPGA is rebooted: the last writes go outside the SPI core.  The run is followed stage by
stage, and each stage hands on that the flags and the path are as the next one needs them. -/
theorem kiflashProgramUser_blank {env : Env} {file : File} {w : World BlankFlash}
    (hrounds : 0 < env.rounds) (hopenPci : env.openPci w.pciFds = true)
    (hopen : ∀ i, env.fopen i userImagePath = some file)
    (hfile : ∀ b ∈ file.contents.take (2 ^ 32), b = 0xFF) (hheap : ∀ n k, env.malloc n k = 0xFF)
    (h : w.errorCount = 0) :
    ∃ w', kiflashProgramUser env w = (.ret .success, w') ∧ w'.errorCount = 0 ∧
      (env.progress = true → w'.flashData.percentage = 100) ∧
      ∃ before address data, .pciWrite before address data ∈ newEvents w w' := by
  -- the states of the run: initialised, selected, reset, programmed, rebooted
  obtain ⟨status₁, w₁, hinit, herror, hflag, hpath, hemits₁⟩ :=
    exists_ret_of_wp (kiflashInit_blank hrounds hopenPci h)
  set w₂ : World BlankFlash := { w₁ with flashData := w₁.flashData.select .user } with hw₂
  obtain ⟨percentage, events, hreset⟩ := setPercentage_eq env 0 w₂
  have hemits₂ := (setPercentage_moves.of_eq hreset).emits
  have hname : w₂.flashData.pathname = userImagePath := by
    rw [hw₂, FlashData.pathname, FlashData.select, hpath, userImagePath]
  set w₃ : World BlankFlash := { w₂ with flashData := { w₂.flashData with percentage }, events }
  obtain ⟨w₄, hrun, hready⟩ := programUser_blank (w := w₃) hrounds hflag rfl
    (fun i => hname ▸ hopen i) hfile hheap herror
  have hreports : Reports Set.univ Set.univ w₃ w₄ := (ProgramCall.user 1).run_moves.of_eq hrun
  obtain ⟨bus₅, words, hicap⟩ := icap_eq 0 w₄
  set w₅ : World BlankFlash := { w₄ with
    bus := bus₅
    events := w₄.events ++ .pciWrite w₄.bus (icapBaseAddr + icapWriteFifo) 0xFFFFFFFF :: words }
  have hlast : setPercentage env 100 w₅ = (.ret (), (setPercentage env 100 w₅).2) := by
    unfold setPercentage
    split_ifs <;> rfl
  refine ⟨(setPercentage env 100 w₅).2, ?_, ?_, ?_, ?_⟩
  · refine bind_eq_ret.mpr ⟨_, _, hinit, bind_eq_ret.mpr ⟨(), w₂, rfl, bind_eq_ret.mpr
      ⟨(), w₃, hreset, check_eq_ok.mpr ⟨w₄, hrun, bind_eq_ret.mpr ⟨_, w₅, hicap,
        bind_eq_ret.mpr ⟨(), _, hlast, rfl⟩⟩⟩⟩⟩⟩
  · unfold setPercentage
    split_ifs <;> exact hready
  · intro hprogress
    rw [setPercentage, if_pos hprogress]
    rfl
  · refine ⟨w₄.bus, icapBaseAddr + icapWriteFifo, 0xFFFFFFFF, ?_⟩
    -- the first write of `icap` is among the events of the whole run
    have hbefore : Emits Set.univ w w₄ :=
      trans_of _ hemits₁ (trans_of (Emits Set.univ) hemits₂ hreports.emits)
    have hreported : Emits Set.univ w₅ (setPercentage env 100 w₅).2 :=
      (setPercentage_moves w₅).emits
    obtain ⟨es, hes, -⟩ := hreported
    have hlater : (setPercentage env 100 w₅).2.events =
        w₄.events ++ (.pciWrite w₄.bus (icapBaseAddr + icapWriteFifo) 0xFFFFFFFF :: words ++ es) :=
      hes.trans (List.append_assoc _ _ _)
    have hafter : Emits Set.univ w₄ (setPercentage env 100 w₅).2 := ⟨_, hlater, fun _ _ => trivial⟩
    refine hbefore.mem_newEvents_right hafter ?_
    rw [newEvents_of_eq hlater]
    exact List.mem_cons_self

/-! ## A host -/

/-- A file of `0xFF` bytes that is not a whole number of pages.  So its last page ends in what
`malloc` has returned. -/
def blankFile : File := ⟨300, List.replicate 300 0xFF⟩

/-- A host on which every file is `blankFile` and fresh memory is filled with `0xFF`.  On it a
blank flash is verified without being written. -/
def blankEnv : Env := .plain (some blankFile) 0xFF

/-- An initialised process with the user region selected.  It is the state from which the
examples run the programming functions. -/
def blankWorld : World BlankFlash :=
  { World.fresh .blank with
    flashData := (⟨0, 0, 0, 0, imagePath, ""⟩ : FlashData).select .user
    qspiInitFlag := true }

theorem blankFile_regular : blankFile.Regular := by
  rw [File.Regular, blankFile, List.length_replicate]
  rfl

theorem blankFile_length : blankFile.contents.length < 2 ^ 32 := by
  rw [blankFile, List.length_replicate]
  decide

theorem blankFile_bytes : ∀ b ∈ blankFile.contents.take (2 ^ 32), b = 0xFF :=
  fun _ hb => List.eq_of_mem_replicate (List.mem_of_mem_take hb)

end Kiflash
