import Mathlib.Data.List.Basic
import Mathlib.Tactic.Common

/-!
# Arrays of C code as functions

A C array is a function from indices to its elements; the bound is the business of the code
that accesses it.  Two operations on such functions cover what frame-building code does.

* `bytesOf` — reads the first `n` elements.
* `overlay` — stores a list of consecutive elements.
* `bytesOf_overlay_zero` — what is read back of a stored list.

### Why not a list

An array of C code has elements that nobody has written.  Code that sends the first `n` bytes
of a buffer sends such elements if it has filled fewer than `n`, and whether it does is one of
the things to be proved.  With a function as the array nothing has to be said of these
elements, and a statement about what is sent can still name them.  The length of the array is
not a part of it either, because an access outside of the bounds is a stop of the program and
no value.
-/

namespace Imperative

variable {α : Type}

/-- The first `n` elements of the array, as the list that a function with a pointer and a
count gets to see. -/
def bytesOf (buf : ℕ → α) (n : ℕ) : List α := (List.range n).map buf

/-- Store the elements of `bs` from index `i` on; the other elements stay as they are.  An
array of the source is a function here, and its bounds are checked where it is written. -/
def overlay (buf : ℕ → α) (i : ℕ) (bs : List α) : ℕ → α := fun j =>
  if i ≤ j then (bs[j - i]?).getD (buf j) else buf j

@[simp] theorem bytesOf_length (buf : ℕ → α) (n : ℕ) : (bytesOf buf n).length = n := by
  simp [bytesOf]

@[simp] theorem bytesOf_zero (buf : ℕ → α) : bytesOf buf 0 = [] := rfl

/-- The elements that are read, one by one. -/
@[simp] theorem bytesOf_getElem? (buf : ℕ → α) (n i : ℕ) :
    (bytesOf buf n)[i]? = if i < n then some (buf i) else none := by
  by_cases h : i < n <;> simp [bytesOf, h]

/-- Reading can be split at any place. -/
theorem bytesOf_add (buf : ℕ → α) (m n : ℕ) :
    bytesOf buf (m + n) = bytesOf buf m ++ bytesOf (fun j => buf (m + j)) n := by
  simp [bytesOf, List.range_add, Function.comp_def]

@[simp] theorem overlay_nil (buf : ℕ → α) (i : ℕ) : overlay buf i [] = buf := by
  funext j
  simp [overlay]

/-- Behind the stored list nothing has changed. -/
theorem overlay_of_le (buf : ℕ → α) {i j : ℕ} {bs : List α} (h : i + bs.length ≤ j) :
    overlay buf i bs j = buf j := by
  have : bs.length ≤ j - i := by omega
  simp [overlay, this]

/-- Storing one element after another is storing the list.  The code stores byte by byte, and
proofs about it go over to lists with this equation. -/
theorem overlay_cons (buf : ℕ → α) (i : ℕ) (b : α) (bs : List α) :
    overlay (overlay buf i [b]) (i + 1) bs = overlay buf i (b :: bs) := by
  funext j
  rcases Nat.lt_trichotomy j i with h | rfl | h
  · simp [overlay, Nat.not_le.mpr h, Nat.not_le.mpr (Nat.lt_succ_of_lt h)]
  · simp only [overlay, Nat.le_refl, if_true, Nat.sub_self, List.getElem?_cons_zero,
      if_neg (Nat.not_succ_le_self j), Option.getD_some]
  · obtain ⟨k, rfl⟩ : ∃ k, j = i + 1 + k := ⟨j - (i + 1), by omega⟩
    have hsub : i + 1 + k - i = k + 1 := by omega
    simp [overlay, Nat.le_of_lt h, hsub]

/-- Two lists stored one behind the other are one stored list. -/
theorem overlay_append (buf : ℕ → α) (i : ℕ) (as bs : List α) :
    overlay (overlay buf i as) (i + as.length) bs = overlay buf i (as ++ bs) := by
  induction as generalizing buf i with
  | nil => simp
  | cons a as ih =>
      rw [List.cons_append, ← overlay_cons buf i a as, ← overlay_cons buf i a (as ++ bs),
        ← ih, List.length_cons]
      congr 1
      omega

/-- The stored list read back, with whatever stood behind it.  The second part is what the
code sends of a buffer that it has not filled. -/
theorem bytesOf_overlay_zero (buf : ℕ → α) (bs : List α) (n : ℕ) :
    bytesOf (overlay buf 0 bs) (bs.length + n) =
      bs ++ bytesOf (fun j => buf (bs.length + j)) n := by
  rw [bytesOf_add]
  congr 1
  · refine List.ext_getElem? fun i => ?_
    rw [bytesOf_getElem?]
    by_cases h : i < bs.length <;> simp [overlay, h]
  · congr 1
    funext j
    exact overlay_of_le buf (by omega)

/-- A prefix of what is read is a shorter read. -/
theorem bytesOf_take (buf : ℕ → α) (m n : ℕ) : (bytesOf buf (m + n)).take m = bytesOf buf m := by
  rw [bytesOf_add, List.take_left' (bytesOf_length buf m)]

/-- The first `n` elements, where a list was stored at the head.  In this form there is no
condition on `n`. -/
theorem bytesOf_overlay_take (buf : ℕ → α) (bs : List α) (n : ℕ) :
    bytesOf (overlay buf 0 bs) n =
      (bs ++ bytesOf (fun j => buf (bs.length + j)) n).take n := by
  rw [← bytesOf_overlay_zero, Nat.add_comm, bytesOf_take]

/-- A list that is stored and read with its own length is read as it is. -/
theorem bytesOf_overlay_length (buf : ℕ → α) (bs : List α) :
    bytesOf (overlay buf 0 bs) bs.length = bs := by
  simpa using bytesOf_overlay_zero buf bs 0

end Imperative
