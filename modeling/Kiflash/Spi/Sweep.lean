import Kiflash.Spi.Fifo
import Mathlib.Data.List.Iterate

/-!
# The sweep over the PCI memory

`PciSweep` reads the mapped memory in words of eight bytes, from an address that a user types
to the end of the map.  It compares the address of a word with the size of the map, and not
its end: the last word lies inside only if whole words are left.

* `pciSweep` — the function, followed for a number of rounds.
* `Watched ε` — a device with the addresses that have been read.
* `pciSweep_reads` — the sweep ends, and the addresses it reads in closed form.
* `pciSweep_inside_iff` — when all of them lie in the map.

### The numbers of the source

`mapSize` is an `int`, the address an unsigned number of 32 bits, and the comparison of the
two is made in the unsigned type.  The model keeps the three types.  For a map of positive
size the conversion is faithful, and the address does not wrap around: it is below 2³¹ when
eight is added to it (`toNat_next`).

### Termination

The loop of the source has no bound of its own.  The sweep is followed for a number of rounds,
and what is claimed is that a number exists from which on every number of rounds gives a
return with the same reads.  It is the number of words that are left, and one more for the
test that fails.
-/

open Imperative Imperative.Prog

namespace Kiflash

/-- The mapped PCI memory; its descriptor and the place of the mapping do not matter here. -/
structure Pcimem where
  mapSize : Int32
  deriving DecidableEq, Repr

/-- The eight bytes from `address` on are in the map.  An access that begins in the map may
still end behind it. -/
def Pcimem.Inside (pci : Pcimem) (address : UInt64) : Prop :=
  (address.toNat : ℤ) + 8 ≤ pci.mapSize.toInt

namespace SpiCore

section Sweep

variable {ε : Type} [PciDevice ε]

/-- `read64`, which checks nothing: it dereferences the mapping at this address. -/
def read64 (address : UInt64) : Prog (SpiCore ε) UInt64 := fun s =>
  let access := PciDevice.read64 address s.device
  (.ret access.1, { s with device := access.2 })

/-- One round of the loop of `PciSweep`.  The comparison is one of unsigned numbers, and the
index wraps at its 32 bits. -/
def sweepRound (pci : Pcimem) (i : UInt32) : Prog (SpiCore ε) (UInt32 ⊕ Unit) :=
  if i < pci.mapSize.toUInt32 then do
    let _ ← read64 i.toUInt64
    pure (.inl (i + 8))
  else pure (.inr ())

/-- `PciSweep`; `pci` is what the driver instance points to. -/
def pciSweep (rounds : ℕ) (pci : Pcimem) (startadd : UInt32) : Prog (SpiCore ε) Xst := do
  let present ← gets fun s => s.spi.pci
  if present then do
    loop (sweepRound pci) rounds startadd
    pure .success
  else pure .failure

end Sweep

/-- A device and the addresses that have been read from it, in their order. -/
structure Watched (ε : Type) where
  device : ε
  reads : List UInt64

instance {ε : Type} [PciDevice ε] : PciDevice (Watched ε) where
  read64 address t :=
    let access := PciDevice.read64 address t.device
    (access.1, { device := access.2, reads := t.reads ++ [address] })
  write64 address data t := { t with device := PciDevice.write64 address data t.device }

/-- The addresses read between two states. -/
def newReads {ε : Type} (s s' : SpiCore (Watched ε)) : List UInt64 :=
  s'.device.reads.drop s.device.reads.length

/-- The words from `i` on that begin before `size`, of eight bytes each.  The last one may end
behind it. -/
def wordsFrom (size i : ℕ) : ℕ := (size - i + 7) / 8

/-- The addresses of `n` words from `i` on. -/
def wordAddresses (i : UInt32) (n : ℕ) : List UInt64 :=
  (List.iterate (· + 8) i n).map UInt32.toUInt64

/-- The first word, and the ones behind it. -/
theorem wordAddresses_succ (i : UInt32) (n : ℕ) :
    wordAddresses i (n + 1) = i.toUInt64 :: wordAddresses (i + 8) n := rfl

section Words

/-- A positive `int` is the number that its pattern stands for.  The size of the map is a
signed number, while the loop compares it as an unsigned one. -/
theorem toInt_of_pos {size : Int32} (h : 0 < size) :
    size.toInt = size.toUInt32.toNat ∧ size.toUInt32.toNat < 2 ^ 31 := by
  have hlt : (size.toUInt32).toNat < 2 ^ 32 := size.toUInt32.toNat_lt
  have hpos : 0 < size.toInt := Int32.lt_iff_toInt_lt.mp h
  change 0 < size.toUInt32.toBitVec.toInt at hpos
  have hsmall : size.toUInt32.toNat < 2 ^ 31 := by
    by_contra hge
    rw [BitVec.toInt_eq_toNat_cond] at hpos
    change 0 < (if 2 * size.toUInt32.toNat < 2 ^ 32 then _ else (size.toUInt32.toNat : ℤ) - _) at hpos
    rw [if_neg (by omega)] at hpos
    omega
  refine ⟨?_, hsmall⟩
  change size.toUInt32.toBitVec.toInt = _
  rw [BitVec.toInt_eq_toNat_of_lt (by change 2 * size.toUInt32.toNat < 2 ^ 32; omega)]
  rfl

/-- The addresses do not wrap around before the end of the map. -/
theorem toNat_next {i : UInt32} {size : ℕ} (hsize : size < 2 ^ 31) (hi : i.toNat < size) :
    (i + 8).toNat = i.toNat + 8 := by
  rw [UInt32.toNat_add]
  change (i.toNat + 8) % 2 ^ 32 = _
  omega

/-- The words of the sweep all lie in the map exactly if the last one does.  The words in
front of it end where the next one begins, so they are inside anyway. -/
theorem words_inside_iff {size : ℕ} (hsize : size < 2 ^ 31) (i : UInt32) :
    (∀ address ∈ wordAddresses i (wordsFrom size i.toNat), address.toNat + 8 ≤ size) ↔
      size ≤ i.toNat ∨ 8 ∣ size - i.toNat := by
  generalize hn : wordsFrom size i.toNat = n
  unfold wordsFrom at hn
  induction n generalizing i with
  | zero => exact iff_of_true (fun _ h => nomatch h) (.inl (by omega))
  | succ n ih =>
      have hi : i.toNat < size := by omega
      have hnext := toNat_next hsize hi
      rw [wordAddresses_succ, List.forall_mem_cons, UInt32.toNat_toUInt64, ih (i + 8) (by omega),
        hnext]
      omega

end Words

section Reads

variable {ε : Type} [PciDevice ε] {pci : Pcimem} {s : SpiCore (Watched ε)}

/-- A round before the end of the map. -/
theorem sweepRound_of_lt {i : UInt32} (h : i < pci.mapSize.toUInt32) :
    ∃ s', sweepRound pci i s = (.ret (.inl (i + 8)), s') ∧
      s'.device.reads = s.device.reads ++ [i.toUInt64] := by
  rw [sweepRound, if_pos h]
  exact ⟨_, rfl, rfl⟩

/-- **The loop ends behind the last word**, and has read every word once.  The induction is on
the words that are left, for any address.  The bound on the size keeps the index from wrapping
before it gets there. -/
theorem sweepLoop_reads (hsize : pci.mapSize.toUInt32.toNat < 2 ^ 31) {rounds : ℕ} (i : UInt32)
    (h : wordsFrom pci.mapSize.toUInt32.toNat i.toNat < rounds) :
    ∃ s', loop (sweepRound pci) rounds i s = (.ret (), s') ∧
      s'.device.reads = s.device.reads ++
        wordAddresses i (wordsFrom pci.mapSize.toUInt32.toNat i.toNat) := by
  generalize hn : wordsFrom pci.mapSize.toUInt32.toNat i.toNat = n at h ⊢
  unfold wordsFrom at hn
  -- the words left decide, and each round takes one of them
  induction n generalizing i s rounds with
  | zero =>
      obtain ⟨rounds, rfl⟩ := Nat.exists_eq_succ_of_ne_zero (Nat.ne_of_gt h)
      have hend : ¬ i < pci.mapSize.toUInt32 := by
        rw [UInt32.lt_iff_toNat_lt]
        omega
      refine ⟨s, bind_eq_ret.mpr ⟨.inr (), s, ?_, rfl⟩, ?_⟩
      · rw [sweepRound, if_neg hend]
        rfl
      · rw [wordAddresses, List.iterate, List.map_nil, List.append_nil]
  | succ n ih =>
      obtain ⟨rounds, rfl⟩ := Nat.exists_eq_succ_of_ne_zero (Nat.ne_zero_of_lt h)
      have hi : i.toNat < pci.mapSize.toUInt32.toNat := by omega
      have hnext := toNat_next hsize hi
      obtain ⟨s₁, hround, hreads⟩ :=
        sweepRound_of_lt (s := s) (UInt32.lt_iff_toNat_lt.mpr hi)
      obtain ⟨s', hrest, hreads'⟩ := ih (s := s₁) (i + 8) (by omega) (Nat.lt_of_succ_lt_succ h)
      refine ⟨s', bind_eq_ret.mpr ⟨.inl (i + 8), s₁, hround, hrest⟩, ?_⟩
      rw [hreads', hreads, wordAddresses_succ, List.append_assoc, List.singleton_append]

/-- A sweep with as many rounds as there are words, and one more, returns. -/
theorem pciSweep_reads (pci : Pcimem) (hsize : pci.mapSize.toUInt32.toNat < 2 ^ 31) {rounds : ℕ}
    (startadd : UInt32) (hpci : s.spi.pci = true)
    (h : wordsFrom pci.mapSize.toUInt32.toNat startadd.toNat < rounds) :
    ∃ s', pciSweep rounds pci startadd s = (.ret .success, s') ∧
      newReads s s' =
        wordAddresses startadd (wordsFrom pci.mapSize.toUInt32.toNat startadd.toNat) := by
  obtain ⟨s', hloop, hreads⟩ := sweepLoop_reads (s := s) hsize startadd h
  refine ⟨s', bind_eq_ret.mpr ⟨true, s, ?_, ?_⟩, ?_⟩
  · rw [← hpci]
    rfl
  · exact bind_eq_ret.mpr ⟨(), s', hloop, rfl⟩
  · rw [newReads, hreads, List.drop_left]

/-- **The sweep ends, and stays inside the map exactly if whole words are left**, or none: an
address behind the end of the map is not read at all.

`enough` depends on the map and the address alone, and any greater number of rounds gives the
same reads.  The device is arbitrary; the addresses do not depend on what it answers. -/
theorem pciSweep_inside_iff (pci : Pcimem) (hpos : 0 < pci.mapSize) (startadd : UInt32)
    (hpci : s.spi.pci = true) :
    ∃ enough, ∀ rounds, enough ≤ rounds → ∃ s',
      pciSweep rounds pci startadd s = (.ret .success, s') ∧
      ((∀ address ∈ newReads s s', pci.Inside address) ↔
        pci.mapSize.toInt ≤ startadd.toNat ∨ 8 ∣ pci.mapSize.toInt - startadd.toNat) := by
  obtain ⟨hint, hsize⟩ := toInt_of_pos hpos
  refine ⟨wordsFrom pci.mapSize.toUInt32.toNat startadd.toNat + 1, fun rounds hrounds => ?_⟩
  obtain ⟨s', hrun, hreads⟩ := pciSweep_reads pci hsize startadd hpci hrounds
  refine ⟨s', hrun, ?_⟩
  have hinside : ∀ address : UInt64,
      pci.Inside address ↔ address.toNat + 8 ≤ pci.mapSize.toUInt32.toNat := by
    intro address
    rw [Pcimem.Inside, hint]
    omega
  rw [hreads, hint]
  simp only [hinside]
  rw [words_inside_iff hsize]
  omega

/-- A map of 4096 bytes, swept from its last word on. -/
theorem pciSweep_inside_last :
    ∃ enough, ∀ rounds, enough ≤ rounds → ∃ s',
      pciSweep rounds ⟨4096⟩ 0xFF8 (idle ⟨Axi.reset false, []⟩) = (.ret .success, s') ∧
      ∀ address ∈ newReads (idle ⟨Axi.reset false, []⟩) s', Pcimem.Inside ⟨4096⟩ address := by
  obtain ⟨enough, h⟩ :=
    pciSweep_inside_iff (s := idle ⟨Axi.reset false, []⟩) ⟨4096⟩ (by decide) 0xFF8 rfl
  refine ⟨enough, fun rounds hrounds => ?_⟩
  obtain ⟨s', hrun, hiff⟩ := h rounds hrounds
  exact ⟨s', hrun, hiff.mpr (.inr (by decide))⟩

/-- The same map, swept from an address four bytes before its end: the one word that is
read lies half behind it. -/
theorem pciSweep_inside_counterexample :
    ∃ s', pciSweep 2 ⟨4096⟩ 0xFFC (idle ⟨Axi.reset false, []⟩) = (.ret .success, s') ∧
      newReads (idle ⟨Axi.reset false, []⟩) s' = [0xFFC] ∧ ¬ Pcimem.Inside ⟨4096⟩ 0xFFC := by
  obtain ⟨s', hrun, hreads⟩ := pciSweep_reads (s := idle ⟨Axi.reset false, []⟩)
    ⟨4096⟩ (by decide) 0xFFC rfl (Nat.lt_succ_self 1)
  refine ⟨s', hrun, hreads, ?_⟩
  rw [Pcimem.Inside]
  decide

end Reads

end SpiCore

end Kiflash
