import Kiflash.Imperative.Prog

/-!
# Two programs side by side

Rules for a program and its image: the same steps over another state, the two states related
all the way.

* `Paired m m' Q R w w'` — the `wp` of two runs at once: both return, with `Q` of the values
  and of the final states, or both stop for the same reason, with `R` of the final states.
* `MirrorsUpTo V R m m'` — from states related by `R` to such states, with returned values
  related by `V`; `Mirrors R m m'` asks for the same value.
* `SameVerdict` — two statuses that `check` does not tell apart.

### Statuses that differ

Two implementations of one interface may fail for different reasons, and return different
failure codes.  Code that uses `check` does not notice: it goes on behind a success, and
returns its own failure otherwise.  So a program that checks every status mirrors its image
even if the statuses of the calls underneath are the same only up to `SameVerdict`
(`MirrorsUpTo.check`), and from there on the values are equal.  That is why the relation on
values is an argument of `MirrorsUpTo` and does not appear in the relation on states.

### Stops

Both runs must stop together, for the same reason.  A simulation that only had to follow the
runs that return would say nothing of a program that always spins.
-/

namespace Imperative.Prog

variable {ω ω' α β ι S : Type}

/-- Both runs return, or both stop for the same reason.  This is the relational form of `wp`,
for two programs over two kinds of state. -/
def Paired (m : Prog ω α) (m' : Prog ω' α) (Q : α → α → ω → ω' → Prop) (R : ω → ω' → Prop)
    (w : ω) (w' : ω') : Prop :=
  match m w, m' w' with
  | (.ret a, v), (.ret a', v') => Q a a' v v'
  | (.stop why, v), (.stop why', v') => why = why' ∧ R v v'
  | _, _ => False

section Rules

variable {m k : Prog ω α} {m' k' : Prog ω' α} {f : α → Prog ω β} {f' : α → Prog ω' β}
variable {Q Q' : α → α → ω → ω' → Prop} {R R' : ω → ω' → Prop} {w v : ω} {w' v' : ω'}

/-- Two runs that are known and returned. -/
theorem paired_of_ret {a a' : α} (h : m w = (.ret a, v)) (h' : m' w' = (.ret a', v')) :
    Paired m m' Q R w w' ↔ Q a a' v v' := by
  simp [Paired, h, h']

/-- Two runs that are known and stopped. -/
theorem paired_of_stop {why : Stop} (h : m w = (.stop why, v)) (h' : m' w' = (.stop why, v')) :
    Paired m m' Q R w w' ↔ R v v' := by
  simp [Paired, h, h']

/-- Only what the programs do from these two states matters. -/
theorem paired_congr {l : Prog ω α} {l' : Prog ω' α} (h : m w = l w) (h' : m' w' = l' w') :
    Paired m m' Q R w w' ↔ Paired l l' Q R w w' := by
  simp [Paired, h, h']

/-- The two ways in which two runs can be paired.  This is how a simulation is used: it takes
both runs apart at once. -/
theorem paired_cases (h : Paired m m' Q R w w') :
    (∃ a a' v v', m w = (.ret a, v) ∧ m' w' = (.ret a', v') ∧ Q a a' v v') ∨
      ∃ why v v', m w = (.stop why, v) ∧ m' w' = (.stop why, v') ∧ R v v' := by
  unfold Paired at h
  rcases hm : m w with ⟨a | why, v⟩ <;> rcases hm' : m' w' with ⟨a' | why', v'⟩ <;>
    simp only [hm, hm'] at h
  · exact .inl ⟨a, a', v, v', rfl, rfl, h⟩
  · obtain ⟨rfl, h⟩ := h
    exact .inr ⟨why, v, v', rfl, rfl, h⟩

/-- Consequence, for both kinds of ends. -/
theorem paired_mono (h : Paired m m' Q R w w') (hQ : ∀ a a' v v', Q a a' v v' → Q' a a' v v')
    (hR : ∀ v v', R v v' → R' v v') : Paired m m' Q' R' w w' := by
  rcases paired_cases h with ⟨a, a', v, v', hm, hm', hv⟩ | ⟨why, v, v', hm, hm', hv⟩
  · exact (paired_of_ret hm hm').mpr (hQ _ _ _ _ hv)
  · exact (paired_of_stop hm hm').mpr (hR _ _ hv)

/-- The rule for sequences.  The first parts may return different values, and what follows is
paired for all values that they can return together. -/
theorem paired_bind {Q : β → β → ω → ω' → Prop}
    (h : Paired m m' (fun a a' => Paired (f a) (f' a') Q R) R w w') :
    Paired (m >>= f) (m' >>= f') Q R w w' := by
  rcases paired_cases h with ⟨a, a', v, v', hm, hm', hv⟩ | ⟨why, v, v', hm, hm', hv⟩
  · unfold Paired
    rw [bind_of_ret hm, bind_of_ret hm']
    exact hv
  · exact (paired_of_stop (bind_of_stop hm) (bind_of_stop hm')).mpr hv

end Rules

/-! ## Statuses -/

/-- Both statuses are `ok`, or neither is.  The code tests its statuses against success only,
so this much has to agree. -/
def SameVerdict [StatusCode S] (status status' : S) : Prop :=
  status = StatusCode.ok ↔ status' = StatusCode.ok

/-- The rule for checked steps: one verdict takes both programs the same way. -/
theorem paired_check [DecidableEq S] [StatusCode S] {m k : Prog ω S} {m' k' : Prog ω' S}
    {Q : S → S → ω → ω' → Prop} {R : ω → ω' → Prop} {w : ω} {w' : ω'}
    (h : Paired m m' (fun status status' v v' => SameVerdict status status' ∧
      (status = StatusCode.ok → Paired k k' Q R v v') ∧
      (status ≠ StatusCode.ok → Q StatusCode.fail StatusCode.fail v v')) R w w') :
    Paired (check m k) (check m' k') Q R w w' := by
  refine paired_bind (paired_mono h (fun status status' v v' ⟨hsame, hok, hfail⟩ => ?_)
    fun _ _ => id)
  by_cases hs : status = StatusCode.ok
  · rw [if_pos hs, if_pos (hsame.mp hs)]
    exact hok hs
  · rw [if_neg hs, if_neg fun hs' => hs (hsame.mpr hs')]
    exact hfail hs

/-! ## Programs and their images -/

/-- From related states to related states, with related values.  The rules below build it
along the structure of the programs. -/
def MirrorsUpTo (V : α → α → Prop) (R : ω → ω' → Prop) (m : Prog ω α) (m' : Prog ω' α) : Prop :=
  ∀ w w', R w w' → Paired m m' (fun a a' v v' => V a a' ∧ R v v') R w w'

/-- From related states to related states, with the same value.  The relation is kept by a
stop as well. -/
abbrev Mirrors (R : ω → ω' → Prop) (m : Prog ω α) (m' : Prog ω' α) : Prop :=
  MirrorsUpTo Eq R m m'

section Mirrors

variable {V : α → α → Prop} {R : ω → ω' → Prop} {m : Prog ω α} {m' : Prog ω' α}
variable {f : α → Prog ω β} {f' : α → Prog ω' β}

theorem mirrors_pure (a : α) : Mirrors R (pure a : Prog ω α) (pure a) := fun _ _ h => ⟨rfl, h⟩

/-- What both programs read of their states is the same. -/
theorem mirrors_gets {g : ω → α} {g' : ω' → α} (h : ∀ w w', R w w' → g w = g' w') :
    Mirrors R (gets g) (gets g') := fun w w' hw => ⟨h w w' hw, hw⟩

/-- A change on both sides that keeps the relation. -/
theorem mirrors_modify {g : ω → ω} {g' : ω' → ω'} (h : ∀ w w', R w w' → R (g w) (g' w')) :
    Mirrors R (modify g) (modify g') := fun w w' hw => ⟨rfl, h w w' hw⟩

theorem mirrors_halt (why : Stop) : Mirrors R (halt why : Prog ω α) (halt why) :=
  fun _ _ h => ⟨rfl, h⟩

/-- A sequence mirrors its image if its second part makes no difference between related
values. -/
theorem MirrorsUpTo.bind (hm : MirrorsUpTo V R m m')
    (hf : ∀ a a', V a a' → Mirrors R (f a) (f' a')) : Mirrors R (m >>= f) (m' >>= f') :=
  fun w w' h => paired_bind (paired_mono (hm w w' h)
    (fun a a' v v' ⟨hV, hv⟩ => hf a a' hV v v' hv) fun _ _ => id)

/-- The same where the first parts return the same value. -/
theorem Mirrors.bind (hm : Mirrors R m m') (hf : ∀ a, Mirrors R (f a) (f' a)) :
    Mirrors R (m >>= f) (m' >>= f') :=
  MirrorsUpTo.bind hm fun a _ h => h ▸ hf a

theorem Mirrors.ite {c : Prop} [Decidable c] {k : Prog ω α} {k' : Prog ω' α}
    (hm : Mirrors R m m') (hk : Mirrors R k k') :
    Mirrors R (if c then m else k) (if c then m' else k') := by
  split
  · exact hm
  · exact hk

/-- The same status is the same verdict. -/
theorem Mirrors.upTo [StatusCode S] {m : Prog ω S} {m' : Prog ω' S} (h : Mirrors R m m') :
    MirrorsUpTo SameVerdict R m m' :=
  fun w w' hw => paired_mono (h w w' hw)
    (fun _ _ _ _ ⟨heq, hv⟩ => ⟨by rw [SameVerdict, heq], hv⟩) fun _ _ => id

/-- Behind a check the values are the same, though the statuses that were checked need not
be. -/
theorem MirrorsUpTo.check [DecidableEq S] [StatusCode S] {m k : Prog ω S} {m' k' : Prog ω' S}
    (hm : MirrorsUpTo SameVerdict R m m') (hk : Mirrors R k k') :
    Mirrors R (check m k) (check m' k') :=
  fun w w' h => paired_check (paired_mono (hm w w' h)
    (fun _ _ v v' ⟨hsame, hv⟩ => ⟨hsame, fun _ => hk v v' hv, fun _ => ⟨rfl, hv⟩⟩) fun _ _ => id)

theorem Mirrors.check [DecidableEq S] [StatusCode S] {m k : Prog ω S} {m' k' : Prog ω' S}
    (hm : Mirrors R m m') (hk : Mirrors R k k') : Mirrors R (check m k) (check m' k') :=
  hm.upTo.check hk

/-- A counted loop mirrors its image round by round. -/
theorem Mirrors.checkLoop [DecidableEq S] [StatusCode S] {body : ι → Prog ω S}
    {body' : ι → Prog ω' S} {next : ι → ι} (h : ∀ i, Mirrors R (body i) (body' i)) :
    ∀ n i, Mirrors R (checkLoop body next n i) (checkLoop body' next n i) := by
  intro n
  induction n with
  | zero => exact fun _ => mirrors_pure _
  | succ n ih => exact fun i => (h i).check (ih _)

/-- An unbounded loop mirrors its image for every budget: both are left in the same round, or
spin together. -/
theorem Mirrors.loop {body : ι → Prog ω (ι ⊕ α)} {body' : ι → Prog ω' (ι ⊕ α)}
    (h : ∀ i, Mirrors R (body i) (body' i)) :
    ∀ n i, Mirrors R (loop body n i) (loop body' n i) := by
  intro n
  induction n with
  | zero => exact fun _ => mirrors_halt _
  | succ n ih =>
      refine fun i => (h i).bind fun result => ?_
      cases result with
      | inl i' => exact ih i'
      | inr a => exact mirrors_pure a

end Mirrors

end Imperative.Prog
