import Mathlib.Tactic.Common

/-!
# Layers on an array

Operations that overwrite parts of an array one after the other are like layers of paint: what
is seen at a place in the end is the last layer that reaches it.

* `Layer` — what an operation shows, as a relation: an operation that goes over a place more
  than once may name several values there.
* `Lays`, `LaysAll` — a layer, or a list of them from the first to the last, has been laid at
  a place.
* `top` — what the last layer over a place shows; `LaysAll.top_iff` says that this is what the
  array holds.

A layer is known from what an operation is found to have done, and not from what it did:
`Lays layer x m m'` compares two states.  If a layer names two values for one place, it cannot
have been laid there, and that it was is then a contradiction.  The places and the values are
arbitrary.
-/

namespace NorFlash

/-- What an operation shows at a place.  It is a relation and not a function, as an operation
that goes wrong may leave one of several values. -/
def Layer (ι α : Type) : Type := ι → α → Prop

section Layers

variable {ι α : Type} {layer : Layer ι α} {layers layers' : List (Layer ι α)}
variable {x : ι} {b : α} {m m' : ι → α}

/-- The layer reaches `x`.  Where it does not, what is below shows through. -/
def Layer.Covers (layer : Layer ι α) (x : ι) : Prop := ∃ b, layer x b

/-- From `m` to `m'` the layer has been laid at `x`: `m'` has what it shows there, and
what `m` had where it does not reach. -/
structure Lays (layer : Layer ι α) (x : ι) (m m' : ι → α) : Prop where
  shown : ∀ b, layer x b → m' x = b
  kept : ¬ layer.Covers x → m' x = m x

/-- The layers have been laid at `x`, the head of the list first.  The memory changes at each
step only in the way of that layer. -/
inductive LaysAll (x : ι) : List (Layer ι α) → (ι → α) → (ι → α) → Prop
  | nil (m : ι → α) : LaysAll x [] m m
  | cons {layer : Layer ι α} {layers : List (Layer ι α)} {m₁ m₂ m₃ : ι → α} :
      Lays layer x m₁ m₂ → LaysAll x layers m₂ m₃ → LaysAll x (layer :: layers) m₁ m₃

/-- What the last layer that reaches `x` shows there.  Later layers hide earlier ones, so the
recursion looks at the rest of the list first. -/
def top : List (Layer ι α) → ι → α → Prop
  | [], _, _ => False
  | layer :: layers, x, b => top layers x b ∨ layer x b ∧ ∀ c, ¬ top layers x c

/-- Some layer of the list reaches `x`.  A place that is not covered keeps what it held. -/
def Covered (layers : List (Layer ι α)) (x : ι) : Prop := ∃ layer ∈ layers, layer.Covers x

/-- The first layer, or one of the others. -/
theorem covered_cons : Covered (layer :: layers) x ↔ layer.Covers x ∨ Covered layers x := by
  simp [Covered]

/-- There is a last layer as soon as there is one.  The induction is on the list, from the
last layer on. -/
theorem exists_top_iff : (∃ b, top layers x b) ↔ Covered layers x := by
  induction layers with
  | nil => simp [top, Covered]
  | cons layer layers ih =>
      rw [covered_cons, ← ih]
      constructor
      · rintro ⟨b, hb | ⟨hb, -⟩⟩
        · exact .inr ⟨b, hb⟩
        · exact .inl ⟨b, hb⟩
      · intro h
        by_cases hlater : ∃ b, top layers x b
        · obtain ⟨b, hb⟩ := hlater
          exact ⟨b, .inl hb⟩
        · obtain ⟨b, hb⟩ := h.resolve_right hlater
          exact ⟨b, .inr ⟨hb, fun c hc => hlater ⟨c, hc⟩⟩⟩

/-- Under layers that reach `x`, an earlier one is not seen. -/
theorem top_cons_of_covered (h : Covered layers x) : top (layer :: layers) x b ↔ top layers x b := by
  obtain ⟨c, hc⟩ := exists_top_iff.mpr h
  exact ⟨fun hb => hb.resolve_right fun hlayer => hlayer.2 c hc, .inl⟩

/-- A layer that no later one reaches is seen. -/
theorem top_cons_of_not_covered (h : ¬ Covered layers x) : top (layer :: layers) x b ↔ layer x b := by
  have hnone : ∀ c, ¬ top layers x c := fun c hc => h (exists_top_iff.mp ⟨c, hc⟩)
  exact ⟨fun hb => (hb.resolve_left (hnone b)).1, fun hb => .inr ⟨hb, hnone⟩⟩

/-- Where no layer reaches, the array is as it was. -/
theorem LaysAll.kept (h : LaysAll x layers m m') (hno : ¬ Covered layers x) : m' x = m x := by
  induction h with
  | nil => rfl
  | cons hlays _ ih =>
      rw [covered_cons, not_or] at hno
      exact (ih hno.2).trans (hlays.kept hno.1)

/-- The array holds what the last layer shows. -/
theorem LaysAll.eq_of_top (h : LaysAll x layers m m') (hb : top layers x b) : m' x = b := by
  induction h with
  | nil => exact hb.elim
  | cons hlays hrest ih =>
      rcases hb with hb | ⟨hb, hnone⟩
      · exact ih hb
      · have hlater : ¬ Covered _ x := fun hcovered =>
          (exists_top_iff.mpr hcovered).elim fun c hc => hnone c hc
        exact (hrest.kept hlater).trans (hlays.shown b hb)

/-- **What is seen is the top layer**, wherever there is one.  With it a question about a
history of operations becomes one about a list. -/
theorem LaysAll.top_iff (h : LaysAll x layers m m') (hcovered : Covered layers x) :
    top layers x b ↔ m' x = b := by
  refine ⟨h.eq_of_top, fun hb => ?_⟩
  obtain ⟨c, hc⟩ := exists_top_iff.mpr hcovered
  rwa [← hb, h.eq_of_top hc]

end Layers

end NorFlash
