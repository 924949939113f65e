import Kiflash.Film
import Kiflash.Nor.Flashing
import Mathlib.Logic.Function.Basic

/-!
# Updates that are cut off

The flash is a store of four images, each in a region of its own.  An update may end at any
moment: the power fails, the process is killed, a transfer is lost, and the block that a
command was at holds whatever the device left in it.

* `Stands` — the images of a store stand in their regions.
* `Update` — one update, finished or cut off at one of its moments.
* `Update.run_stands` — behind any number of updates the images stand that were put last and
  not begun on again.
* `updates_recover` — from there on one update that nothing disturbs puts the user image.

An update that is cut off leaves its own region undefined, and no other one.  The process that
comes after it finds the flash as it was left: busy, write enabled, in either address mode.

### The store

`Store` is what the four regions are for, and says nothing about cells: a region has an image,
or none in particular.  `Stands` connects it to the cells.  An update is a step of both, in
which a region that is worked on loses its image and has it back when the update is through;
and `Stands` is kept by every step, since the regions are disjoint and a call stays in its
own.

### The moments

`d ∈ … .bus.moments` is a state that the device was in during the call, and not only at its
end.  The film of `Kiflash.Film` records them, between any two driver calls.  A command that
is cut off in the middle is a command that went wrong: its block holds anything.

### What the images must not do

An update whose image does not fit its region is no `Update`.  Such a call writes over the
region behind its own, and the images there do not stand any more.
-/

open Imperative Imperative.Prog

namespace Kiflash

/-! ## The store -/

/-- The image that each region should hold, if any in particular.  It is what an operator
knows of the flash, and not what the flash holds. -/
abbrev Store : Type := Region → Option (List UInt8)

/-- A region that the programming functions know.  The map of the flash has four of them. -/
def Region.Known (region : Region) : Prop := ∃ call, Programs call region

/-- The images stand in their regions: each is in place byte for byte, and ends inside its
region. -/
structure Stands (store : Store) (m : ℕ → UInt8) : Prop where
  known : ∀ {region contents}, store region = some contents → region.Known
  fits : ∀ {region contents}, store region = some contents →
    region.baseAddr.toNat + contents.length ≤ region.eraseEndAddr.toNat
  cells : ∀ {region contents}, store region = some contents → ∀ i (hi : i < contents.length),
    m (region.baseAddr.toNat + i) = contents[i]

section Store

variable {region region' : Region} {store : Store} {m m' : ℕ → UInt8}

/-- A region that is known is placed. -/
theorem Region.Known.placed (h : region.Known) : region.Placed := h.elim fun _ h => h.placed

/-- The regions have no cell in common. -/
theorem Region.Known.not_mem_cells (h : region.Known) (h' : region'.Known) (hne : region ≠ region')
    {x : ℕ} (hx : x ∈ region.cells) : x ∉ region'.cells := by
  have hends : min region.eraseEndAddr.toNat region'.eraseEndAddr.toNat ≤
      max region.eraseStartAddr.toNat region'.eraseStartAddr.toNat := by
    obtain ⟨call, h⟩ := h
    obtain ⟨call', h'⟩ := h'
    cases h <;> cases h' <;> first | exact absurd rfl hne | decide
  intro hx'
  obtain ⟨hstart, hend⟩ := Set.mem_Ico.mp hx
  obtain ⟨hstart', hend'⟩ := Set.mem_Ico.mp hx'
  omega

/-- An image that fits stands in cells of its region. -/
theorem Region.Known.mem_cells (h : region.Known) {contents : List UInt8}
    (hfits : region.baseAddr.toNat + contents.length ≤ region.eraseEndAddr.toNat) {i : ℕ}
    (hi : i < contents.length) : region.baseAddr.toNat + i ∈ region.cells := by
  have hle := h.placed.start_le
  exact Set.mem_Ico.mpr (by omega)

/-- A new image for one region, or none in particular, the cells outside being as they were.
The other regions have no cell in common with it, so their images stand as before. -/
theorem Stands.update (h : Stands store m) (hregion : region.Known)
    (hsame : ∀ x < flashSize, x ∉ region.cells → m' x = m x) {image : Option (List UInt8)}
    (himage : ∀ contents ∈ image,
      region.baseAddr.toNat + contents.length ≤ region.eraseEndAddr.toNat ∧
        ∀ i (hi : i < contents.length), m' (region.baseAddr.toNat + i) = contents[i]) :
    Stands (Function.update store region image) m' := by
  -- an image of the new store is the one that was put, or an old one of another region
  have cases : ∀ {region' contents},
      Function.update store region image region' = some contents →
        region' = region ∧ contents ∈ image ∨ region' ≠ region ∧ store region' = some contents := by
    intro region' contents hlookup
    rcases eq_or_ne region' region with rfl | hne
    · rw [Function.update_self] at hlookup
      exact .inl ⟨rfl, hlookup⟩
    · rw [Function.update_of_ne hne] at hlookup
      exact .inr ⟨hne, hlookup⟩
  refine ⟨fun hlookup => ?_, fun hlookup => ?_, fun hlookup i hi => ?_⟩
  · rcases cases hlookup with ⟨rfl, -⟩ | ⟨-, hold⟩
    · exact hregion
    · exact h.known hold
  · rcases cases hlookup with ⟨rfl, hnew⟩ | ⟨-, hold⟩
    · exact (himage _ hnew).1
    · exact h.fits hold
  · rcases cases hlookup with ⟨rfl, hnew⟩ | ⟨hne, hold⟩
    · exact (himage _ hnew).2 i hi
    · have hmem := (h.known hold).mem_cells (h.fits hold) hi
      have hout := (h.known hold).not_mem_cells hregion hne hmem
      rw [hsame _ (hmem.2.trans_le (h.known hold).placed.end_le) hout]
      exact h.cells hold i hi

end Store

/-! ## Updates -/

/-- An update takes the store and the cells of the flash to new ones. -/
inductive Update : Store × (ℕ → UInt8) → Store × (ℕ → UInt8) → Prop where
  /-- A programming call of whatever process, over whatever device, at one of its moments. -/
  | cut {p : NorParams} {env : Env} {call : ProgramCall} {region : Region} {length : ℕ}
      {w : World (Nor p)} {d : Nor p} (store : Store) (h : Programs call region)
      (hfits : region.Contains length) (hdata : w.flashData = w.flashData.select region)
      (hfinds : env.Finds w.flashData.pathname length)
      (hd : d ∈ (call.run env w.filmed).2.bus.moments) :
      Update (store, w.bus.mem) (Function.update store region none, d.mem)
  /-- `kiflash_program_user` of whatever process, over whatever device, at one of its moments. -/
  | cutUser {p : NorParams} {env : Env} {length : ℕ} {w : World (Nor p)} {d : Nor p} (store : Store)
      (hfits : Region.user.Contains length) (hfinds : env.Finds userImagePath length)
      (hd : d ∈ (kiflashProgramUser env w.filmed).2.bus.moments) :
      Update (store, w.bus.mem) (Function.update store .user none, d.mem)
  /-- A programming call that nothing disturbs. -/
  | programmed {p : NorParams} {env : Env} {call : ProgramCall} {region : Region} {file : File}
      {w w' : World (Nor p)} {status : Xst} (store : Store) (hp : p.FaultFree)
      (hbusy : ∀ n, p.busy n < env.rounds) (h : Programs call region) (he : call.erase ≠ 0)
      (hfile : file.Regular) (hfits : region.Fits file)
      (hready : Ready (Nor.Answering env.rounds) w) (hflag : w.qspiInitFlag = true)
      (hdata : w.flashData = w.flashData.select region)
      (hopen : ∀ i, env.fopen i w.flashData.pathname = some file)
      (hrun : call.run env w = (.ret status, w')) :
      Update (store, w.bus.mem) (Function.update store region (some file.contents), w'.bus.mem)
  /-- `kiflash_program_user` of a new process, when nothing disturbs it. -/
  | programmedUser {p : NorParams} {env : Env} {file : File} {w w' : World (Nor p)} {status : Xst}
      (store : Store) (hp : p.FaultFree) (hbusy : ∀ n, p.busy n < env.rounds) (h : ComesUp env w)
      (hfile : file.Regular) (hfits : Region.user.Fits file)
      (hopen : ∀ i, env.fopen i userImagePath = some file)
      (hrun : kiflashProgramUser env w = (.ret status, w')) :
      Update (store, w.bus.mem) (Function.update store .user (some file.contents), w'.bus.mem)

section Updates

variable {p : NorParams} {env : Env} {call : ProgramCall} {region : Region} {length : ℕ}
variable {w : World (Nor p)} {d : Nor p} {file : File} {x : ℕ}

/-- At the beginning of a film there is one moment. -/
theorem always_filmed {P : Nor p → Prop} (h : P w.bus) : Always P w.filmed.bus := by
  intro d hd
  rwa [List.mem_singleton.mp hd]

/-- **At every moment of a programming call the cells outside of its region are as before.**
The frames of the call cannot change them, and each moment is the result of some of the
frames. -/
theorem Programs.moments_stay (h : Programs call region) (hfits : region.Contains length)
    (hdata : w.flashData = w.flashData.select region)
    (hfinds : env.Finds w.flashData.pathname length) (hx : x ∉ region.cells)
    (hd : d ∈ (call.run env w.filmed).2.bus.moments) : d.mem x = w.bus.mem x := by
  have hframes := h.run_frames (w := w.filmed) hfits hdata hfinds
  refine Always.of_busSteps (P := fun d : Nor p => d.mem x = w.bus.mem x)
    (fun h hd => (mem_of_framesIn hx (.single h)).trans hd) hframes.bus (always_filmed rfl) d hd

/-- The same for `kiflash_program_user`. -/
theorem kiflashProgramUser_moments_stay (hfits : Region.user.Contains length)
    (hfinds : env.Finds userImagePath length) (hx : x ∉ Region.user.cells)
    (hd : d ∈ (kiflashProgramUser env w.filmed).2.bus.moments) : d.mem x = w.bus.mem x := by
  refine kiflashProgramUser_keeps (I := Always fun d : Nor p => d.mem x = w.bus.mem x)
    (fun h hd => ?_) (fun address data d hd => ?_) hfits hfinds (always_filmed rfl) d hd
  · exact Always.of_busSteps (fun h hd => (mem_of_framesIn hx (.single h)).trans hd) (.single h) hd
  · exact hd.next hd.now

/-- One update.  Cut off, it takes its own image out of the store; finished, it puts a new
one.  The images of all other regions are outside of what the call can change. -/
theorem Update.stands {u u' : Store × (ℕ → UInt8)} (h : Update u u') (hu : Stands u.1 u.2) :
    Stands u'.1 u'.2 := by
  cases h with
  | cut store h hfits hdata hfinds hd =>
      exact hu.update ⟨_, h⟩ (fun x _ hx => h.moments_stay hfits hdata hfinds hx hd)
        fun _ hno => absurd hno (Option.not_mem_none _)
  | cutUser store hfits hfinds hd =>
      refine hu.update ⟨_, .user 1⟩ (fun x _ hx => ?_)
        fun _ hno => absurd hno (Option.not_mem_none _)
      exact kiflashProgramUser_moments_stay hfits hfinds hx hd
  | @programmed p env call region file w w' status store hp hbusy h he hfile hfits hready hflag hdata
      hopen hrun =>
      have hfinds : env.Finds w.flashData.pathname file.contents.length := finds_of_fopen hfile hopen
      have hstays := h.staysIn (h.placed.contains_of_fits hfits) p env w hdata hfinds
      obtain ⟨status', w'', hrun', hmem, -⟩ :=
        h.run_puts hp hbusy he hfile hfits hready hflag hdata hopen
      obtain ⟨-, rfl⟩ := Prod.mk.inj (hrun.symm.trans hrun')
      rw [hrun] at hstays
      refine hu.update ⟨_, h⟩ hstays fun contents hcontents => ?_
      obtain rfl := Option.mem_some_iff.mp hcontents
      exact ⟨hfits, hmem⟩
  | @programmedUser p env file w w' status store hp hbusy h hfile hfits hopen hrun =>
      have hfinds : env.Finds userImagePath file.contents.length := finds_of_fopen hfile hopen
      have hstays := kiflashProgramUser_stays ((Programs.user 1).placed.contains_of_fits hfits) p env
        w hfinds
      obtain ⟨status', w'', hrun', hmem, -⟩ :=
        exists_ret_of_wp (h.kiflashProgramUser hp hbusy hfile hfits hopen)
      obtain ⟨-, rfl⟩ := Prod.mk.inj (hrun.symm.trans hrun')
      rw [hrun] at hstays
      refine hu.update ⟨_, .user 1⟩ hstays fun contents hcontents => ?_
      obtain rfl := Option.mem_some_iff.mp hcontents
      exact ⟨hfits, hmem⟩

/-- Any number of updates. -/
theorem Update.run_stands {u u' : Store × (ℕ → UInt8)} (h : Relation.ReflTransGen Update u u')
    (hu : Stands u.1 u.2) : Stands u'.1 u'.2 := by
  induction h with
  | refl => exact hu
  | tail _ hstep ih => exact hstep.stands ih

end Updates

/-- **However many updates are cut off or go wrong, the images of the other regions stand, and
the first `kiflash_program_user` that nothing disturbs puts its image.**

The updates before it may be of any processes and on any devices, and may leave the cells of
their regions in any condition.  Their image files fit their regions, which is a part of
`Update`: a longer one runs into the region behind.  For the last update the device is without
faults and ready in time, and the driver comes up (`hup`). -/
theorem updates_recover {u u' : Store × (ℕ → UInt8)} (h : Relation.ReflTransGen Update u u')
    (hu : Stands u.1 u.2) {p : NorParams} {env : Env} {file : File} {w : World (Nor p)}
    (hmem : w.bus.mem = u'.2) (hp : p.FaultFree) (hbusy : ∀ n, p.busy n < env.rounds)
    (hup : ComesUp env w) (hfile : file.Regular) (hfits : Region.user.Fits file)
    (hopen : ∀ i, env.fopen i userImagePath = some file) :
    Stands u'.1 u'.2 ∧ ∃ status w', kiflashProgramUser env w = (.ret status, w') ∧
      Stands (Function.update u'.1 .user (some file.contents)) w'.bus.mem ∧
      (file.contents.length % 256 = 0 → status = .success) := by
  have hstands := Update.run_stands h hu
  obtain ⟨status, w', hrun, -, hok⟩ :=
    exists_ret_of_wp (hup.kiflashProgramUser hp hbusy hfile hfits hopen)
  refine ⟨hstands, status, w', hrun, ?_, hok⟩
  refine (Update.programmedUser u'.1 hp hbusy hup hfile hfits hopen hrun).stands ?_
  rw [hmem]
  exact hstands

/-- A flash with two bytes of a golden image. -/
def goldenCells : ℕ → UInt8 := fun x => if x = 0 then 0x47 else if x = 1 then 0x4F else 0xFF

/-- What it holds: the two bytes, and nothing in particular elsewhere. -/
def goldenStore : Store := Function.update (fun _ => none) .golden (some [0x47, 0x4F])

/-- The two bytes stand in the golden region. -/
theorem goldenCells_stand : Stands goldenStore goldenCells := by
  have hnothing : Stands (fun _ => none) goldenCells := by
    refine ⟨?_, ?_, ?_⟩ <;> intro region contents hno <;> cases hno
  refine hnothing.update ⟨_, .golden 1⟩ (fun _ _ _ => rfl) fun contents hcontents => ?_
  obtain rfl := Option.mem_some_iff.mp hcontents
  refine ⟨by decide, fun i hi => ?_⟩
  match i, hi with
  | 0, _ | 1, _ => rfl

/-- A device on which every write command goes wrong.  What it leaves in the cells depends on
when it is sent. -/
def NorParams.wild : NorParams :=
  { NorParams.swift with misfire := fun n => some fun x => .ofNat (n + x) }

/-- The flash as it is found with these cells: write enabled, busy, and in the other mode.
The next process knows nothing of what the last one has left. -/
def Nor.found (p : NorParams) (mem : ℕ → UInt8) : Nor p where
  mem := mem
  wip := 3
  wel := true
  fourByte := true
  clock := 0
  started := false

/-- A process in front of that device, with these cells. -/
def spoiler (mem : ℕ → UInt8) : World (Nor .wild) := World.fresh (Nor.found .wild mem)

/-- The cells behind `kiflash_program_user`, on a device where every write goes wrong. -/
@[irreducible]
def spoilt (w : World (Nor .wild)) : ℕ → UInt8 :=
  (kiflashProgramUser pageEnv w.filmed).2.bus.now.mem

theorem pageEnv_finds : pageEnv.Finds userImagePath 256 := by
  rintro i file ⟨⟩
  refine ⟨?_, List.length_replicate⟩
  rw [File.Regular, List.length_replicate]
  rfl

/-- A call on that device is an update that is cut off. -/
theorem update_spoilt (store : Store) (w : World (Nor .wild)) :
    Update (store, w.bus.mem) (Function.update store .user none, spoilt w) := by
  have hcontains : Region.user.Contains 256 := by
    rw [Region.Contains, pagesOf]
    decide
  rw [spoilt]
  exact .cutUser store hcontains pageEnv_finds (Filmed.now_mem_moments _)

/-- Two updates that go wrong, and one that does not.  The golden image is in place
throughout, and the user image at the end. -/
theorem updates_recover_page :
    ∃ status w', kiflashProgramUser pageEnv
        (World.fresh (Nor.found .swift (spoilt (spoiler (spoilt (spoiler goldenCells)))))) =
          (.ret status, w') ∧
      w'.bus.mem (Region.golden.baseAddr.toNat + 1) = 0x4F ∧
      w'.bus.mem (Region.user.baseAddr.toNat + 128) = 0x55 ∧ status = .success := by
  have hfile : File.Regular ⟨256, List.replicate 256 0x55⟩ := by
    rw [File.Regular, List.length_replicate]
    rfl
  have hfits : Region.user.Fits ⟨256, List.replicate 256 0x55⟩ := by
    rw [Region.Fits, List.length_replicate]
    decide
  have hopen : ∀ i, pageEnv.fopen i userImagePath = some ⟨256, List.replicate 256 0x55⟩ :=
    fun _ => rfl
  -- two updates with a device that spoils the user region, then one without
  have hwrong : ∀ store mem,
      Update (store, mem) (Function.update store .user none, spoilt (spoiler mem)) :=
    fun store mem => update_spoilt store (spoiler mem)
  have hbusy : ∀ n, NorParams.swift.busy n < pageEnv.rounds := fun _ => Nat.zero_lt_succ 299
  have hup : ∀ mem, ComesUp pageEnv (World.fresh (Nor.found .swift mem)) := fun mem =>
    ⟨rfl, Nat.lt_of_sub_ne_zero (Nat.succ_ne_zero 296), rfl, rfl, rfl⟩
  obtain ⟨-, status, w', hrun, hstands, hok⟩ := updates_recover
    (.tail (.single (hwrong goldenStore goldenCells)) (hwrong _ _)) goldenCells_stand rfl
    NorParams.swift_faultFree hbusy (hup _) hfile hfits hopen
  refine ⟨status, w', hrun, ?_, ?_, hok (by rw [List.length_replicate])⟩
  · have hne : Region.golden ≠ .user := by decide
    have hlookup : Function.update (Function.update (Function.update goldenStore .user none) .user
        none) .user (some (List.replicate 256 0x55)) .golden = some [0x47, 0x4F] := by
      simp only [Function.update_of_ne hne, goldenStore, Function.update_self]
    exact hstands.cells hlookup 1 (by decide)
  · have hlast : 128 < (List.replicate 256 (0x55 : UInt8)).length := by
      rw [List.length_replicate]
      decide
    exact (hstands.cells (Function.update_self _ _ _) 128 hlast)
      |>.trans (List.getElem_replicate hlast)

end Kiflash
