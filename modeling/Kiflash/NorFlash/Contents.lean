import Mathlib.Tactic.Common
import Mathlib.Order.Interval.Set.Defs

/-!
# The contents of a NOR array

The array of a NOR flash is read cell by cell and changed in two ways only.  An **erase** sets
a whole block to the erased value.  A **program** burns data over what a page holds; it can
clear bits and never sets one.  Both act inside the aligned block around the address they are
given, which is why a program that runs over the end of its page wraps around in it.

* `Cell` — the values of a cell, with `burn old new` what a program leaves.
* `erase`, `program` — one operation, with its value inside and outside the block.
* `eraseBlocks`, `programPages` — a run of operations at the addresses `addr 0`, `addr 1`, …,
  which need not be distinct.

### Arrays as functions

The array is a function on all natural numbers.  A device has finitely many cells and takes
addresses modulo their number; this is left to the device, so that the lemmas here are about
blocks and nothing else.  Block sizes are arbitrary positive numbers.

### What is asked of a cell

Four laws: erased cells take the data, erased data leaves the cell, and the same with the
roles exchanged for cleared ones.  Bytes under bitwise conjunction satisfy them.  Nothing asks
that burning twice is burning once, as no result here programs the same page again.

### The order of a run

`eraseBlocks` and `programPages` recurse on the number of operations, and the last operation
is outermost.  Blocks that meet are allowed.  The results for consecutive blocks, which do
not, are at the end.
-/

namespace NorFlash

/-- The values that a cell of the array can hold.  Nothing is said of bits: the laws only say
that an erased cell takes any value, and that a cleared one keeps its own until the next
erase. -/
class Cell (α : Type) where
  /-- What an erase leaves. -/
  erased : α
  /-- What no program can change. -/
  cleared : α
  /-- What is left of `old` when `new` is programmed over it. -/
  burn : α → α → α
  erased_burn : ∀ new, burn erased new = new
  burn_erased : ∀ old, burn old erased = old
  cleared_burn : ∀ new, burn cleared new = cleared
  burn_cleared : ∀ old, burn old cleared = cleared

attribute [simp] Cell.erased_burn Cell.burn_erased Cell.cleared_burn Cell.burn_cleared

/-- Bytes are programmed by clearing bits. -/
instance : Cell UInt8 where
  erased := 0xFF
  cleared := 0
  burn old new := old &&& new
  erased_burn _ := UInt8.toBitVec_inj.mp BitVec.allOnes_and
  burn_erased _ := UInt8.toBitVec_inj.mp BitVec.and_allOnes
  cleared_burn _ := UInt8.zero_and
  burn_cleared _ := UInt8.and_zero

/-- The address `x` is in the aligned block of `size` cells around `a`.  Blocks of one size
are the classes of this relation. -/
def InBlock (size a x : ℕ) : Prop := x / size = a / size

instance (size a x : ℕ) : Decidable (InBlock size a x) :=
  inferInstanceAs (Decidable (x / size = a / size))

/-- The block that begins at an aligned address. -/
theorem inBlock_iff_of_dvd {size a x : ℕ} (hsize : 0 < size) (h : size ∣ a) :
    InBlock size a x ↔ a ≤ x ∧ x < a + size := by
  obtain ⟨q, rfl⟩ := h
  rw [InBlock, Nat.mul_div_cancel_left q hsize, Nat.div_eq_iff hsize, Nat.mul_comm q size]
  omega

variable {α : Type} [Cell α]

/-! ## One operation -/

/-- Erase the block of `size` cells around `a`.  Every address inside the block names it. -/
def erase (size a : ℕ) (m : ℕ → α) : ℕ → α := fun x =>
  if InBlock size a x then Cell.erased else m x

/-- Program `data` from `a` on, into the page of `size` cells around `a`.  Data that goes past
the end of the page goes on at its beginning, as in a real chip. -/
def program (size a : ℕ) (data : List α) (m : ℕ → α) : ℕ → α := fun x =>
  if InBlock size a x then
    Cell.burn (m x) (data[(x + size - a % size) % size]?.getD Cell.erased)
  else m x

section Operation

variable {size a x : ℕ} {data : List α} {m : ℕ → α}

/-- Inside its block, an erase leaves the erased value. -/
@[simp] theorem erase_of_inBlock (h : InBlock size a x) : erase size a m x = Cell.erased :=
  if_pos h

@[simp] theorem erase_of_not_inBlock (h : ¬ InBlock size a x) : erase size a m x = m x :=
  if_neg h

/-- Outside its page, a program leaves the cell. -/
@[simp] theorem program_of_not_inBlock (h : ¬ InBlock size a x) :
    program size a data m x = m x := if_neg h

/-- Data from the beginning of a page on. -/
theorem program_of_dvd (hsize : 0 < size) (h : size ∣ a) {k : ℕ} (hk : k < size) :
    program size a data m (a + k) = Cell.burn (m (a + k)) (data[k]?.getD Cell.erased) := by
  have hin : InBlock size a (a + k) := (inBlock_iff_of_dvd hsize h).mpr (by omega)
  obtain ⟨q, rfl⟩ := h
  have hoffset : (size * q + k + size - size * q % size) % size = k := by
    rw [Nat.mul_mod_right, Nat.sub_zero, Nat.add_mod_right, Nat.mul_add_mod, Nat.mod_eq_of_lt hk]
  rw [program, if_pos hin, hoffset]

/-- Data from anywhere in a page on, up to the end of the page. -/
theorem program_of_lt {k : ℕ} (hk : a % size + k < size) :
    program size a data m (a + k) = Cell.burn (m (a + k)) (data[k]?.getD Cell.erased) := by
  have hsize : 0 < size := by omega
  have hsplit := Nat.div_add_mod a size
  have hin : InBlock size a (a + k) := by
    rw [InBlock, Nat.div_eq_iff hsize, Nat.mul_comm]
    omega
  have hoffset : a + k + size - a % size = size * (a / size + 1) + k := by
    rw [Nat.mul_succ]
    omega
  rw [program, if_pos hin, hoffset, Nat.mul_add_mod, Nat.mod_eq_of_lt (by omega)]

/-- What runs over the end of the page goes on at its beginning. -/
theorem program_of_wrap {k : ℕ} (hk : k < size) (hwrap : size ≤ a % size + k) :
    program size a data m (a + k - size) =
      Cell.burn (m (a + k - size)) (data[k]?.getD Cell.erased) := by
  have hsize : 0 < size := by omega
  have hsplit := Nat.div_add_mod a size
  have hlt := Nat.mod_lt a hsize
  have hin : InBlock size a (a + k - size) := by
    rw [InBlock, Nat.div_eq_iff hsize, Nat.mul_comm]
    omega
  have hoffset : a + k - size + size - a % size = size * (a / size) + k := by omega
  rw [program, if_pos hin, hoffset, Nat.mul_add_mod, Nat.mod_eq_of_lt hk]

/-- The cells of a page, by the place of the data that goes there. -/
theorem exists_place (hsize : 0 < size) (h : InBlock size a x) :
    ∃ k < size, x = a + k ∧ a % size + k < size ∨ x + size = a + k ∧ size ≤ a % size + k := by
  have hlt := Nat.mod_lt a hsize
  have hsplit := Nat.div_add_mod a size
  rw [InBlock, Nat.div_eq_iff hsize, Nat.mul_comm] at h
  by_cases hle : a ≤ x
  · exact ⟨x - a, by omega, .inl (by omega)⟩
  · exact ⟨x + size - a, by omega, .inr (by omega)⟩

/-- No program brings a cleared cell back. -/
theorem program_cleared (h : m x = Cell.cleared) : program size a data m x = Cell.cleared := by
  unfold program
  split_ifs
  · rw [h, Cell.cleared_burn]
  · exact h

/-- A page of cleared cells clears the page. -/
theorem program_of_cleared (hsize : 0 < size) (hdata : ∀ k < size, data[k]? = some Cell.cleared)
    (h : InBlock size a x) : program size a data m x = Cell.cleared := by
  rw [program, if_pos h, hdata _ (Nat.mod_lt _ hsize), Option.getD_some, Cell.burn_cleared]

end Operation

/-! ## Runs of operations -/

/-- Erase the blocks around `addr 0`, …, `addr (n - 1)`, in this order. -/
def eraseBlocks (size : ℕ) (addr : ℕ → ℕ) : ℕ → (ℕ → α) → ℕ → α
  | 0, m => m
  | n + 1, m => erase size (addr n) (eraseBlocks size addr n m)

/-- Program `page 0`, …, `page (n - 1)` at `addr 0`, …, `addr (n - 1)`, in this order. -/
def programPages (size : ℕ) (addr : ℕ → ℕ) (page : ℕ → List α) : ℕ → (ℕ → α) → ℕ → α
  | 0, m => m
  | n + 1, m => program size (addr n) (page n) (programPages size addr page n m)

section Runs

variable {size n x : ℕ} {addr : ℕ → ℕ} {page : ℕ → List α} {m : ℕ → α}

/-- A cell in one of the blocks is erased, whichever came last.  Later erases leave an erased
cell erased. -/
theorem eraseBlocks_of_inBlock (h : ∃ i < n, InBlock size (addr i) x) :
    eraseBlocks size addr n m x = Cell.erased := by
  induction n with
  | zero => obtain ⟨i, hi, -⟩ := h; exact absurd hi (Nat.not_lt_zero i)
  | succ n ih =>
      rw [eraseBlocks]
      by_cases hn : InBlock size (addr n) x
      · exact erase_of_inBlock hn
      · obtain ⟨i, hi, hin⟩ := h
        rw [erase_of_not_inBlock hn]
        rcases Nat.lt_succ_iff_lt_or_eq.mp hi with hi | rfl
        · exact ih ⟨i, hi, hin⟩
        · exact absurd hin hn

/-- A cell in none of them is left alone. -/
theorem eraseBlocks_of_not_inBlock (h : ∀ i < n, ¬ InBlock size (addr i) x) :
    eraseBlocks size addr n m x = m x := by
  induction n with
  | zero => rfl
  | succ n ih =>
      rw [eraseBlocks, erase_of_not_inBlock (h n (Nat.lt_succ_self n))]
      exact ih fun i hi => h i (Nat.lt_succ_of_lt hi)

/-- A run of erases changes nothing exactly when its blocks were erased before.  It tells
whether an erase was needed at all. -/
theorem eraseBlocks_eq_self_iff :
    eraseBlocks size addr n m = m ↔ ∀ i < n, ∀ x, InBlock size (addr i) x → m x = Cell.erased := by
  constructor
  · intro h i hi x hin
    rw [← h]
    exact eraseBlocks_of_inBlock ⟨i, hi, hin⟩
  · intro h
    funext x
    by_cases hin : ∃ i < n, InBlock size (addr i) x
    · obtain ⟨i, hi, hx⟩ := hin
      rw [eraseBlocks_of_inBlock ⟨i, hi, hx⟩, h i hi x hx]
    · exact eraseBlocks_of_not_inBlock fun i hi hx => hin ⟨i, hi, hx⟩

/-- A cell in none of the pages is left alone. -/
theorem programPages_of_not_inBlock (h : ∀ i < n, ¬ InBlock size (addr i) x) :
    programPages size addr page n m x = m x := by
  induction n with
  | zero => rfl
  | succ n ih =>
      rw [programPages, program_of_not_inBlock (h n (Nat.lt_succ_self n))]
      exact ih fun i hi => h i (Nat.lt_succ_of_lt hi)

/-- The addresses matter as far as the run goes. -/
theorem programPages_congr {addr' : ℕ → ℕ} (h : ∀ i < n, addr i = addr' i) :
    programPages size addr page n m = programPages size addr' page n m := by
  induction n with
  | zero => rfl
  | succ n ih =>
      rw [programPages, programPages, h n (Nat.lt_succ_self n),
        ih fun i hi => h i (Nat.lt_succ_of_lt hi)]

/-- Only the page that covers a cell decides over it.  The induction is on the pages; those in
front of it and behind it do not reach the cell. -/
theorem programPages_of_unique {j : ℕ} (hj : j < n)
    (h : ∀ i < n, i ≠ j → ¬ InBlock size (addr i) x) :
    programPages size addr page n m x = program size (addr j) (page j) m x := by
  induction n with
  | zero => exact absurd hj (Nat.not_lt_zero j)
  | succ n ih =>
      rw [programPages]
      rcases Nat.lt_succ_iff_lt_or_eq.mp hj with hlt | rfl
      · rw [program_of_not_inBlock (h n (Nat.lt_succ_self n) (by omega))]
        exact ih hlt fun i hi => h i (Nat.lt_succ_of_lt hi)
      · have hrest : programPages size addr page j m x = m x :=
          programPages_of_not_inBlock fun i hi => h i (Nat.lt_succ_of_lt hi) (by omega)
        unfold program
        rw [hrest]

/-- Programming cleared pages clears what they cover.  Whatever is programmed over a cleared
cell later, it stays so. -/
theorem programPages_of_cleared (hsize : 0 < size)
    (hpage : ∀ i < n, ∀ k < size, (page i)[k]? = some Cell.cleared)
    (h : ∃ i < n, InBlock size (addr i) x) :
    programPages size addr page n m x = Cell.cleared := by
  induction n with
  | zero => obtain ⟨i, hi, -⟩ := h; exact absurd hi (Nat.not_lt_zero i)
  | succ n ih =>
      rw [programPages]
      by_cases hn : InBlock size (addr n) x
      · exact program_of_cleared hsize (hpage n (Nat.lt_succ_self n)) hn
      · obtain ⟨i, hi, hin⟩ := h
        refine program_cleared (ih (fun i hi => hpage i (Nat.lt_succ_of_lt hi)) ⟨i, ?_, hin⟩)
        rcases Nat.lt_succ_iff_lt_or_eq.mp hi with hi | rfl
        · exact hi
        · exact absurd hin hn

end Runs

/-! ## Consecutive blocks -/

section Consecutive

variable {size a n x : ℕ} {page : ℕ → List α} {m : ℕ → α}

/-- `n` blocks one after the other.  They fill the interval without gaps. -/
theorem exists_inBlock_iff (hsize : 0 < size) (h : size ∣ a) :
    (∃ i < n, InBlock size (a + size * i) x) ↔ a ≤ x ∧ x < a + size * n := by
  have hdvd : ∀ i, size ∣ a + size * i := fun i => Nat.dvd_add h (Nat.dvd_mul_right size i)
  constructor
  · rintro ⟨i, hi, hin⟩
    rw [inBlock_iff_of_dvd hsize (hdvd i)] at hin
    have hle : size * (i + 1) ≤ size * n := Nat.mul_le_mul_left size hi
    rw [Nat.mul_succ] at hle
    omega
  · rintro ⟨hle, hlt⟩
    refine ⟨(x - a) / size, (Nat.div_lt_iff_lt_mul hsize).mpr ?_, ?_⟩
    · rw [Nat.mul_comm]
      omega
    · rw [inBlock_iff_of_dvd hsize (hdvd _)]
      have hsplit := Nat.div_add_mod (x - a) size
      have hmod := Nat.mod_lt (x - a) hsize
      omega

/-- Consecutive blocks do not meet. -/
theorem not_inBlock_of_ne {i j : ℕ} (hsize : 0 < size) (h : size ∣ a)
    (hj : InBlock size (a + size * j) x) (hij : i ≠ j) : ¬ InBlock size (a + size * i) x := by
  intro hi
  obtain ⟨q, rfl⟩ := h
  rw [InBlock, ← Nat.mul_add, Nat.mul_div_cancel_left _ hsize] at hi hj
  omega

/-- Pages programmed one after the other over erased cells hold their data. -/
theorem programPages_consecutive (hsize : 0 < size) (h : size ∣ a) {j k : ℕ} (hj : j < n)
    (hk : k < size) (herased : m (a + size * j + k) = Cell.erased) :
    programPages size (fun i => a + size * i) page n m (a + size * j + k) =
      (page j)[k]?.getD Cell.erased := by
  have hdvd : size ∣ a + size * j := Nat.dvd_add h (Nat.dvd_mul_right size j)
  have hin : InBlock size (a + size * j) (a + size * j + k) :=
    (inBlock_iff_of_dvd hsize hdvd).mpr (by omega)
  rw [programPages_of_unique hj fun i _ hij => not_inBlock_of_ne hsize h hin hij,
    program_of_dvd hsize hdvd hk, herased, Cell.erased_burn]

end Consecutive

end NorFlash
