import Mathlib.Data.List.Induction
import Mathlib.Tactic.Common

/-!
# Histories

A history is a list, oldest entry first.  Two properties of histories are followed here while
they grow.

* `Throughout P` — each entry was as `P` asks, given the entries before it.
* `Repeats pattern` — the entries are those of `pattern`, over and over again, where the last
  round may be unfinished.

### Growing on the right

Both properties are characterised for a history with one more entry at its end
(`throughout_concat`, `repeats_concat`), because that is what a step of a system does to it.
An invariant over runs that speaks of such a property is then a condition on the step that has
just been taken, with the history in front of it as a parameter.  Both characterisations are
equivalences: a proof that a property holds *exactly* under some condition on the steps uses
them in both directions.
-/

namespace Imperative

variable {α : Type}

/-- Of each entry and what is before it, `P` holds.  `P` so can say what an entry may be in
view of the past: that it has not occurred yet, or that something else has. -/
def Throughout (P : List α → α → Prop) (xs : List α) : Prop :=
  ∀ past x, past ++ [x] <+: xs → P past x

section Throughout

variable {P : List α → α → Prop} {xs ys : List α} {x : α}

/-- Nothing has happened, and nothing can have been wrong. -/
theorem throughout_nil : Throughout P [] := fun past x h => absurd h (by simp)

/-- A new entry has to be as `P` asks of it; nothing changes for the old ones. -/
theorem throughout_concat : Throughout P (xs ++ [x]) ↔ Throughout P xs ∧ P xs x := by
  constructor
  · exact fun h => ⟨fun past y hy => h past y (hy.trans (List.prefix_append xs [x])),
      h xs x List.prefix_rfl⟩
  · rintro ⟨hxs, hx⟩ past y hy
    rcases List.prefix_concat_iff.mp hy with heq | hy
    · obtain ⟨rfl, hlast⟩ := List.append_inj' heq rfl
      cases hlast
      exact hx
    · exact hxs past y hy

/-- Entries that meet `P` whatever was before them can be left out of consideration. -/
theorem throughout_append_iff (h : ∀ past, ∀ y ∈ ys, P past y) :
    Throughout P (xs ++ ys) ↔ Throughout P xs := by
  induction ys using List.reverseRecOn with
  | nil => rw [List.append_nil]
  | append_singleton ys y ih =>
      rw [← List.append_assoc, throughout_concat,
        ih fun past z hz => h past z (List.mem_append_left [y] hz)]
      exact and_iff_left (h _ y (by simp))

/-- By positions, each entry with what is in front of it.  This is the form that can be
decided. -/
theorem throughout_iff : Throughout P xs ↔ ∀ i, (h : i < xs.length) → P (xs.take i) xs[i] := by
  constructor
  · intro h i hi
    refine h _ _ ?_
    rw [List.take_append_getElem hi]
    exact List.take_prefix _ _
  · intro h past x hx
    obtain ⟨rest, rfl⟩ := hx
    simpa using h past.length (by simp)

instance [∀ past x, Decidable (P past x)] : Decidable (Throughout P xs) :=
  decidable_of_iff _ throughout_iff.symm

end Throughout

/-- The pattern over and over again, up to somewhere in a round.  An empty list repeats every
pattern. -/
def Repeats (pattern xs : List α) : Prop := ∃ n, xs <+: (List.replicate n pattern).flatten

section Repeats

variable {pattern xs : List α} {x : α}

/-- No entry is the beginning of the first round. -/
theorem repeats_nil : Repeats pattern [] := ⟨0, List.nil_prefix⟩

theorem length_flatten_replicate (pattern : List α) (n : ℕ) :
    (List.replicate n pattern).flatten.length = n * pattern.length := by simp

/-- The entries of the repeated pattern by their position in it.  The induction is on the
number of repetitions. -/
theorem getElem?_flatten_replicate (pattern : List α) {n i : ℕ} (h : i < n * pattern.length) :
    (List.replicate n pattern).flatten[i]? = pattern[i % pattern.length]? := by
  induction n generalizing i with
  | zero => simp at h
  | succ n ih =>
      rw [List.replicate_succ, List.flatten_cons]
      rcases Nat.lt_or_ge i pattern.length with hi | hi
      · rw [List.getElem?_append_left hi, Nat.mod_eq_of_lt hi]
      · have hrest : i - pattern.length < n * pattern.length := by
          rw [Nat.add_mul] at h
          omega
        rw [List.getElem?_append_right hi, ih hrest, ← Nat.mod_eq_sub_mod hi]

/-- The next entry is the next one of the pattern.  Where the pattern stands can be told from
the number of entries alone, so no position has to be carried along. -/
theorem repeats_concat (hpattern : pattern ≠ []) :
    Repeats pattern (xs ++ [x]) ↔
      Repeats pattern xs ∧ pattern[xs.length % pattern.length]? = some x := by
  have hpos : 0 < pattern.length := List.length_pos_iff.mpr hpattern
  constructor
  · rintro ⟨n, h⟩
    have hlen := h.length_le
    rw [List.length_append, List.length_singleton, length_flatten_replicate] at hlen
    refine ⟨⟨n, (List.prefix_append xs [x]).trans h⟩, ?_⟩
    rw [← getElem?_flatten_replicate pattern hlen]
    have hlast := List.prefix_iff_getElem?.mp h xs.length (by simp)
    simpa using hlast
  · rintro ⟨⟨n, h⟩, hx⟩
    -- one more round has room for the next entry
    have hroom : xs.length < (n + 1) * pattern.length := by
      have hlen := h.length_le
      rw [length_flatten_replicate] at hlen
      rw [Nat.add_mul]
      omega
    have hxs : xs <+: (List.replicate (n + 1) pattern).flatten := by
      rw [List.replicate_succ', List.flatten_append]
      exact h.trans (List.prefix_append _ _)
    refine ⟨n + 1, ?_⟩
    obtain ⟨rest, hrest⟩ := hxs
    rw [← hrest]
    refine (List.prefix_append_right_inj xs).mpr ?_
    have hhead : rest[0]? = some x := by
      rw [← hx, ← getElem?_flatten_replicate pattern hroom, ← hrest,
        List.getElem?_append_right (Nat.le_refl _), Nat.sub_self]
    cases rest with
    | nil => cases hhead
    | cons y rest =>
        cases hhead
        exact List.prefix_append [x] rest

end Repeats

end Imperative
