import Mathlib.Data.List.Iterate
import Mathlib.Order.Defs.Unbundled
import Mathlib.Tactic.Common

/-!
# State-passing programs with stops

A shallow embedding of sequential imperative code.  A program over a state `ω` is a function
from states to an **outcome** and a final state; the final state is there for *every* outcome,
so that what a run had done before it got stuck can still be stated.

* `Outcome` — a returned value, or the reason (`Stop`) why there is none: an endless loop that
  was left after its budget of rounds, an access outside an array, or the end of the process.
* `check` — the early-exit idiom of code with status returns:
  `status = m; if (status != ok) return fail; k`.
* `checkLoop` — a counted loop whose body is checked the same way.
* `loop` — an unbounded loop followed for a budget of rounds.

### The two design decisions

**A stop keeps its state.**  The obvious type for code that can go wrong is
`ω → Option (α × ω)`, and it forgets what a run had done when it went wrong.  The statements
that this library is for are about exactly that: what has been sent, stored or written before
a loop was left, or before the process ended.  So the state stands outside of the outcome, and
a property of it (`wp_state_iff`) needs no case distinction on how the run ended.

**An unbounded loop has a budget.**  `loop` follows the rounds for a given number and stops
with `Stop.spin` behind it.  The budget is a parameter of the program and not a part of the
semantics: a result that holds for every budget is a result about the loop as it is, and one
that needs the loop to end says how many rounds are enough.

### How results are stated

Two notions carry the proofs.  `wp m Q R w` says what holds after running `m` from `w`: `Q` of
the returned value and the final state, `R` of the stop and the state it happened in.  With
`R := fun _ _ => False` it is total correctness, and with `R := fun _ _ => True` partial
correctness; the rules are the same for all of them.  `Moves r m` says that `m` only moves the
state along the preorder `r`, whatever its outcome; `Keeps P` is the preorder of the steps
that keep `P`.

The first one is for results about what a program comes to, the second one for what none of
its parts can do.  A proof of the second kind goes through a program construct by construct,
without ever looking at a state.
-/

namespace Imperative

/-- Why a run has no result.  The three reasons are kept apart because they mean different
things: a run that spins has not been followed any further, one that is wild has no meaning
from there on, and one that exits has ended as the program says. -/
inductive Stop where
  /-- A loop went on past the number of rounds it is followed for. -/
  | spin
  /-- An array was accessed outside its bounds. -/
  | wild
  /-- The process ended. -/
  | exit
  deriving DecidableEq, Repr

/-- The result of a run: a value, or a stop.  It stands beside the final state, which a run
has in either case. -/
inductive Outcome (α : Type) where
  | ret (value : α)
  | stop (why : Stop)
  deriving DecidableEq, Repr

/-- A program over the state `ω` that returns an `α`.  It is deterministic: what a device or a
user may answer is a part of the state. -/
def Prog (ω α : Type) : Type := ω → Outcome α × ω

/-- The two status values that `check` tells apart.  A status may have more values; every
value other than `ok` counts as a failure, and what `check` returns for it is `fail` whatever
it was. -/
class StatusCode (S : Type) where
  ok : S
  fail : S
  fail_ne_ok : fail ≠ ok

namespace Prog

variable {ω α β ι S : Type}

/-- Run `m`, and on a returned value go on with `f`.  A stop is the end of the whole sequence,
in the state where it happened. -/
def andThen (m : Prog ω α) (f : α → Prog ω β) : Prog ω β := fun w =>
  match m w with
  | (.ret a, w') => f a w'
  | (.stop why, w') => (.stop why, w')

instance : Monad (Prog ω) where
  pure a := fun w => (.ret a, w)
  bind := andThen

/-- Read a part of the state.  The state does not change. -/
def gets (f : ω → α) : Prog ω α := fun w => (.ret (f w), w)

/-- Change the state.  The function is total: what may go wrong is said with `halt`. -/
def modify (f : ω → ω) : Prog ω Unit := fun w => (.ret (), f w)

/-- Leave without a result.  The state is kept, as what a run has done before it stops has
been done. -/
def halt (why : Stop) : Prog ω α := fun w => (.stop why, w)

/-- `status = m; if (status != ok) return fail; k`.  The status itself is lost: the caller
learns that something has failed, and not what. -/
def check [DecidableEq S] [StatusCode S] (m k : Prog ω S) : Prog ω S :=
  m >>= fun status => if status = StatusCode.ok then k else pure StatusCode.fail

/-- `n` checked rounds of `body`, the loop variable moving along `next`.  The first round that
fails is the last one. -/
def checkLoop [DecidableEq S] [StatusCode S] (body : ι → Prog ω S) (next : ι → ι) : ℕ → ι → Prog ω S
  | 0, _ => pure StatusCode.ok
  | n + 1, i => check (body i) (checkLoop body next n (next i))

/-- An unbounded loop, followed for at most `n` rounds: the body answers with the next loop
variable or with the loop's result.  Behind the last of these rounds the run stops with
`Stop.spin`. -/
def loop (body : ι → Prog ω (ι ⊕ α)) : ℕ → ι → Prog ω α
  | 0, _ => halt .spin
  | n + 1, i => body i >>= fun
    | .inl i' => loop body n i'
    | .inr a => pure a

/-- The loop variable and the state at the beginning of each round of such a loop, in the
order of the rounds. -/
def visits (body : ι → Prog ω (ι ⊕ α)) : ℕ → ι → ω → List (ι × ω)
  | 0, _, _ => []
  | n + 1, i, w => (i, w) :: match body i w with
    | (.ret (.inl i'), w') => visits body n i' w'
    | _ => []

/-- The same of a counted loop; the rounds behind a failed one do not take place. -/
def checkVisits [DecidableEq S] [StatusCode S] (body : ι → Prog ω S) (next : ι → ι) :
    ℕ → ι → ω → List (ι × ω)
  | 0, _, _ => []
  | n + 1, i, w => (i, w) :: match body i w with
    | (.ret status, w') =>
      if status = StatusCode.ok then checkVisits body next n (next i) w' else []
    | _ => []

/-- Sequences can be nested either way. -/
theorem bind_bind (m : Prog ω α) (f : α → Prog ω β) {γ : Type} (g : β → Prog ω γ) :
    (m >>= f) >>= g = m >>= fun a => f a >>= g := by
  funext w
  change andThen (andThen m f) g w = andThen m (fun a => andThen (f a) g) w
  rcases hm : m w with ⟨a | why, w'⟩ <;> simp [andThen, hm]

/-- A value that is at hand need not be computed. -/
theorem pure_bind (a : α) (f : α → Prog ω β) : pure a >>= f = f a := rfl

/-- Returning what has just been returned adds nothing. -/
theorem bind_pure (m : Prog ω α) : m >>= pure = m := by
  funext w
  change andThen m pure w = m w
  rcases hm : m w with ⟨a | why, w'⟩ <;> simp [andThen, hm, pure]

/-- Work done before a checked step belongs to the step.  Read from right to left this pulls
the preparation of a call out of the call. -/
theorem bind_check [DecidableEq S] [StatusCode S] (m : Prog ω α) (f : α → Prog ω S)
    (k : Prog ω S) : (m >>= fun a => check (f a) k) = check (m >>= f) k := by
  funext w
  change andThen m (fun a => andThen (f a) _) w = andThen (andThen m f) _ w
  rcases hm : m w with ⟨a | why, w'⟩ <;> simp [andThen, hm]

/-- A run of a sequence that returned went through both parts.  This is the way to take a run
apart that is known to have returned, without unfolding anything. -/
theorem bind_eq_ret {m : Prog ω α} {f : α → Prog ω β} {w w' : ω} {b : β} :
    (m >>= f) w = (.ret b, w') ↔ ∃ a w₁, m w = (.ret a, w₁) ∧ f a w₁ = (.ret b, w') := by
  change andThen m f w = _ ↔ _
  rcases hm : m w with ⟨a | why, w₁⟩
  · simp [andThen, hm]
  · simp [andThen, hm]

/-- How a sequence goes on behind a first part whose run is known. -/
theorem bind_of_ret {m : Prog ω α} {f : α → Prog ω β} {w w' : ω} {a : α}
    (h : m w = (.ret a, w')) : (m >>= f) w = f a w' := by
  change andThen m f w = _
  simp [andThen, h]

/-- How a sequence ends with a first part that stops. -/
theorem bind_of_stop {m : Prog ω α} {f : α → Prog ω β} {w w' : ω} {why : Stop}
    (h : m w = (.stop why, w')) : (m >>= f) w = (.stop why, w') := by
  change andThen m f w = _
  simp [andThen, h]

/-- A step that succeeds hands over to what follows. -/
theorem check_of_ok [DecidableEq S] [StatusCode S] {m k : Prog ω S} {w w' : ω}
    (h : m w = (.ret StatusCode.ok, w')) : check m k w = k w' :=
  (bind_of_ret h).trans (by rw [if_pos rfl])

/-- A step that fails ends the sequence, in its own final state. -/
theorem check_of_ne [DecidableEq S] [StatusCode S] {m k : Prog ω S} {w w' : ω} {status : S}
    (h : m w = (.ret status, w')) (hs : status ≠ StatusCode.ok) :
    check m k w = (.ret StatusCode.fail, w') :=
  (bind_of_ret h).trans (by rw [if_neg hs]; rfl)

/-- A run of a checked step that went well went well in both parts: `check` never turns a
failure into a success. -/
theorem check_eq_ok [DecidableEq S] [StatusCode S] {m k : Prog ω S} {w w' : ω} :
    check m k w = (.ret StatusCode.ok, w') ↔
      ∃ w₁, m w = (.ret StatusCode.ok, w₁) ∧ k w₁ = (.ret StatusCode.ok, w') := by
  rw [check, bind_eq_ret]
  constructor
  · rintro ⟨status, w₁, hm, hk⟩
    by_cases hs : status = StatusCode.ok
    · rw [if_pos hs] at hk
      exact ⟨w₁, hs ▸ hm, hk⟩
    · rw [if_neg hs] at hk
      exact absurd (Outcome.ret.inj (congrArg Prod.fst hk)) StatusCode.fail_ne_ok
  · rintro ⟨w₁, hm, hk⟩
    exact ⟨StatusCode.ok, w₁, hm, by rwa [if_pos rfl]⟩

/-- A run of a checked step that returned: past the step, or with its failure.  This is how
the equation of a long chain of checks is taken apart, one step after the other. -/
theorem check_eq_ret [DecidableEq S] [StatusCode S] {m k : Prog ω S} {w w' : ω} {status : S} :
    check m k w = (.ret status, w') ↔
      (∃ w₁, m w = (.ret StatusCode.ok, w₁) ∧ k w₁ = (.ret status, w')) ∨
      ∃ status₁, m w = (.ret status₁, w') ∧ status₁ ≠ StatusCode.ok ∧ status = StatusCode.fail := by
  rw [check, bind_eq_ret]
  constructor
  · rintro ⟨status₁, w₁, hm, hk⟩
    by_cases hs : status₁ = StatusCode.ok
    · rw [if_pos hs] at hk
      exact .inl ⟨w₁, hs ▸ hm, hk⟩
    · rw [if_neg hs] at hk
      cases hk
      exact .inr ⟨status₁, hm, hs, rfl⟩
  · rintro (⟨w₁, hm, hk⟩ | ⟨status₁, hm, hs, rfl⟩)
    · exact ⟨StatusCode.ok, w₁, hm, by rwa [if_pos rfl]⟩
    · exact ⟨status₁, w', hm, by rw [if_neg hs]; rfl⟩

/-- A success that is checked goes unnoticed. -/
theorem check_pure_ok [DecidableEq S] [StatusCode S] (k : Prog ω S) :
    check (pure StatusCode.ok) k = k := if_pos rfl

/-- The work before a checked sequence and the first step of it can be checked together.  This
is what lets a long function be cut at any of its steps. -/
theorem check_assoc [DecidableEq S] [StatusCode S] (l m k : Prog ω S) :
    check (check l m) k = check l (check m k) := by
  rw [check, check, check, bind_bind]
  congr 1
  funext status
  by_cases hs : status = StatusCode.ok
  · rw [if_pos hs, if_pos hs]
    rfl
  · rw [if_neg hs, if_neg hs, pure_bind, if_neg StatusCode.fail_ne_ok]

/-- A counted loop has a later round where the first one went well.  Inductions on the rounds
use it in place of the definition. -/
theorem mem_checkVisits_succ [DecidableEq S] [StatusCode S] {body : ι → Prog ω S} {next : ι → ι}
    {n : ℕ} {i : ι} {w : ω} {r : ι × ω} :
    r ∈ checkVisits body next (n + 1) i w ↔ r = (i, w) ∨
      ∃ w', body i w = (.ret StatusCode.ok, w') ∧ r ∈ checkVisits body next n (next i) w' := by
  rw [checkVisits, List.mem_cons]
  refine or_congr_right ?_
  rcases body i w with ⟨status | why, w'⟩
  · by_cases hs : status = StatusCode.ok <;> simp [hs]
  · simp

/-- A counted loop that went well went through all of its rounds, with the loop variables that
the counting alone says. -/
theorem map_fst_checkVisits [DecidableEq S] [StatusCode S] {body : ι → Prog ω S} {next : ι → ι}
    {n : ℕ} {i : ι} {w w' : ω} (h : checkLoop body next n i w = (.ret StatusCode.ok, w')) :
    (checkVisits body next n i w).map Prod.fst = List.iterate next i n := by
  induction n generalizing i w with
  | zero => rfl
  | succ n ih =>
      obtain ⟨w₁, hbody, hrest⟩ := check_eq_ok.mp h
      have hround : checkVisits body next (n + 1) i w =
          (i, w) :: checkVisits body next n (next i) w₁ := by
        simp only [checkVisits, hbody, if_true]
      rw [hround, List.map_cons, ih hrest, List.iterate]

/-- What a later round is depends on where the first one leads. -/
theorem mem_visits_succ {body : ι → Prog ω (ι ⊕ α)} {n : ℕ} {i : ι} {w : ω} {r : ι × ω} :
    r ∈ visits body (n + 1) i w ↔
      r = (i, w) ∨ ∃ i' w', body i w = (.ret (.inl i'), w') ∧ r ∈ visits body n i' w' := by
  rw [visits, List.mem_cons]
  rcases body i w with ⟨⟨i' | a⟩ | why, w'⟩ <;> simp

/-- A loop returns what one of its rounds leaves it with.  With `eq_of_mem_visits` this is the
only round that does. -/
theorem loop_ret_iff {body : ι → Prog ω (ι ⊕ α)} {a : α} {w' : ω} {n : ℕ} {i : ι} {w : ω} :
    loop body n i w = (.ret a, w') ↔
      ∃ r ∈ visits body n i w, body r.1 r.2 = (.ret (.inr a), w') := by
  induction n generalizing i w with
  | zero => exact ⟨fun h => (nomatch h), fun ⟨_, h, _⟩ => (nomatch h)⟩
  | succ n ih =>
      rw [loop, bind_eq_ret]
      constructor
      · rintro ⟨i' | a', w₁, hbody, h⟩
        · obtain ⟨r, hr, hlast⟩ := ih.mp h
          exact ⟨r, mem_visits_succ.mpr (.inr ⟨i', w₁, hbody, hr⟩), hlast⟩
        · cases h
          exact ⟨(i, w), mem_visits_succ.mpr (.inl rfl), hbody⟩
      · rintro ⟨r, hr, hlast⟩
        rcases mem_visits_succ.mp hr with rfl | ⟨i', w₁, hbody, hr⟩
        · exact ⟨_, _, hlast, rfl⟩
        · exact ⟨_, _, hbody, ih.mpr ⟨r, hr, hlast⟩⟩

/-- Only the last round leaves the loop.  So there is one round in which a loop was left, and
what is known of it is known of that one. -/
theorem eq_of_mem_visits {body : ι → Prog ω (ι ⊕ α)} {n : ℕ} {i : ι} {w w₁ w₂ : ω} {a₁ a₂ : α}
    {r₁ r₂ : ι × ω} (h₁ : r₁ ∈ visits body n i w) (hlast₁ : body r₁.1 r₁.2 = (.ret (.inr a₁), w₁))
    (h₂ : r₂ ∈ visits body n i w) (hlast₂ : body r₂.1 r₂.2 = (.ret (.inr a₂), w₂)) : r₁ = r₂ := by
  induction n generalizing i w with
  | zero => exact nomatch h₁
  | succ n ih =>
      rcases mem_visits_succ.mp h₁ with rfl | ⟨i₁, _, hbody₁, h₁⟩ <;>
        rcases mem_visits_succ.mp h₂ with rfl | ⟨i₂, _, hbody₂, h₂⟩
      · rfl
      · exact nomatch hlast₁.symm.trans hbody₂
      · exact nomatch hlast₂.symm.trans hbody₁
      · cases hbody₁.symm.trans hbody₂
        exact ih h₁ h₂

/-! ## What holds after a run -/

/-- `Q` of a returned value and the final state, `R` of a stop and its state.  Both are
predicates on states that may mention the initial one, since `w` is fixed when they are
chosen. -/
def wp (m : Prog ω α) (Q : α → ω → Prop) (R : Stop → ω → Prop) (w : ω) : Prop :=
  match m w with
  | (.ret a, w') => Q a w'
  | (.stop why, w') => R why w'

section Rules

variable {m k : Prog ω α} {f : α → Prog ω β} {Q Q' : α → ω → Prop} {R R' : Stop → ω → Prop}
variable {w w' : ω}

/-- Along a run that is known and returned, `wp` is its postcondition. -/
theorem wp_of_ret {a : α} (h : m w = (.ret a, w')) : wp m Q R w ↔ Q a w' := by
  simp [wp, h]

/-- Along a run that is known and stopped, it is the condition on stops. -/
theorem wp_of_stop {why : Stop} (h : m w = (.stop why, w')) : wp m Q R w ↔ R why w' := by
  simp [wp, h]

/-- Total correctness gives a result.  It is the way from `wp` to a statement about the run
itself. -/
theorem exists_ret_of_wp (h : wp m Q (fun _ _ => False) w) :
    ∃ a w', m w = (.ret a, w') ∧ Q a w' := by
  rcases hm : m w with ⟨a | why, w'⟩
  · exact ⟨a, w', rfl, (wp_of_ret hm).mp h⟩
  · exact ((wp_of_stop hm).mp h).elim

/-- A condition on the final state alone, at whatever outcome.  The rules for `wp` so are
rules for final states as well. -/
theorem wp_state_iff {P : ω → Prop} :
    wp m (fun _ => P) (fun _ => P) w ↔ P (m w).2 := by
  rcases hm : m w with ⟨a | why, w'⟩ <;> simp [wp, hm]

/-- Consequence, for both kinds of ends. -/
theorem wp_mono (h : wp m Q R w) (hQ : ∀ a w', Q a w' → Q' a w')
    (hR : ∀ why w', R why w' → R' why w') : wp m Q' R' w := by
  rcases hm : m w with ⟨a | why, w'⟩
  · exact (wp_of_ret hm).mpr (hQ _ _ ((wp_of_ret hm).mp h))
  · exact (wp_of_stop hm).mpr (hR _ _ ((wp_of_stop hm).mp h))

/-- Two results about one run hold together, though they have been proved apart. -/
theorem wp_and (h : wp m Q R w) (h' : wp m Q' R' w) :
    wp m (fun a w' => Q a w' ∧ Q' a w') (fun why w' => R why w' ∧ R' why w') w := by
  rcases hm : m w with ⟨a | why, w'⟩
  · exact (wp_of_ret hm).mpr ⟨(wp_of_ret hm).mp h, (wp_of_ret hm).mp h'⟩
  · exact (wp_of_stop hm).mpr ⟨(wp_of_stop hm).mp h, (wp_of_stop hm).mp h'⟩

@[simp] theorem wp_pure {a : α} : wp (pure a : Prog ω α) Q R w ↔ Q a w := Iff.rfl

@[simp] theorem wp_gets {g : ω → α} : wp (gets g) Q R w ↔ Q (g w) w := Iff.rfl

@[simp] theorem wp_modify {g : ω → ω} {Q : Unit → ω → Prop} :
    wp (modify g) Q R w ↔ Q () (g w) := Iff.rfl

@[simp] theorem wp_halt {why : Stop} : wp (halt why : Prog ω α) Q R w ↔ R why w := Iff.rfl

/-- The rule for sequences: what has to hold behind the first part is what the second part
needs. -/
@[simp] theorem wp_bind {Q : β → ω → Prop} :
    wp (m >>= f) Q R w ↔ wp m (fun a => wp (f a) Q R) R w := by
  change wp (andThen m f) Q R w ↔ _
  rcases hm : m w with ⟨a | why, w'⟩ <;> simp [wp, andThen, hm]

/-- Of a sequence whose end always does, the beginning does not matter.  For conditions on
what is returned this spares a look at most of a function. -/
theorem wp_bind_of_forall {Q : β → ω → Prop} (hf : ∀ a w', wp (f a) Q (fun _ _ => True) w') :
    wp (m >>= f) Q (fun _ _ => True) w := by
  rw [wp_bind]
  rcases hm : m w with ⟨a | why, w'⟩
  · exact (wp_of_ret hm).mpr (hf a w')
  · exact (wp_of_stop hm).mpr trivial

/-- A branch has to meet the condition where it is taken. -/
@[simp] theorem wp_ite {c : Prop} [Decidable c] :
    wp (if c then m else k) Q R w ↔ (c → wp m Q R w) ∧ (¬ c → wp k Q R w) := by
  by_cases h : c <;> simp [h]

/-- The rule for checked steps.  The first conjunct is the way on, and the second one the
early exit; a proof that a function *cannot* fail closes the second one, and a proof about its
failures looks at nothing else. -/
theorem wp_check [DecidableEq S] [StatusCode S] {m k : Prog ω S} {Q : S → ω → Prop} :
    wp (check m k) Q R w ↔
      wp m (fun status w' => (status = StatusCode.ok → wp k Q R w') ∧
        (status ≠ StatusCode.ok → Q StatusCode.fail w')) R w := by
  rw [check, wp_bind]
  rcases hm : m w with ⟨status | why, w'⟩
  · simp [wp_of_ret hm]
  · simp [wp_of_stop hm]

/-- The counted loop, with an invariant on the rounds left to run.  The number of these rounds
is an argument of the invariant, which so can say how far the loop has come. -/
theorem wp_checkLoop [DecidableEq S] [StatusCode S] {body : ι → Prog ω S} {next : ι → ι}
    {Q : S → ω → Prop} (I : ℕ → ι → ω → Prop)
    (step : ∀ n i w, I (n + 1) i w → wp (body i)
      (fun status w' => (status = StatusCode.ok → I n (next i) w') ∧
        (status ≠ StatusCode.ok → Q StatusCode.fail w')) R w)
    (done : ∀ i w, I 0 i w → Q StatusCode.ok w) :
    ∀ n i w, I n i w → wp (checkLoop body next n i) Q R w := by
  intro n
  induction n with
  | zero => intro i w h; exact done i w h
  | succ n ih =>
      intro i w h
      refine wp_check.mpr (wp_mono (step n i w h) (fun status w' hw' => ?_) fun _ _ hR => hR)
      exact ⟨fun hok => ih _ _ (hw'.1 hok), hw'.2⟩

/-- The unbounded loop, with an invariant on the rounds still followed.  `out` is where the
budget is over: for total correctness the invariant must exclude it, which is the proof that
the loop ends in time. -/
theorem wp_loop {body : ι → Prog ω (ι ⊕ α)} (I : ℕ → ι → ω → Prop)
    (step : ∀ n i w, I (n + 1) i w → wp (body i)
      (fun r w' => match r with
        | .inl i' => I n i' w'
        | .inr a => Q a w') R w)
    (out : ∀ i w, I 0 i w → R .spin w) :
    ∀ n i w, I n i w → wp (loop body n i) Q R w := by
  intro n
  induction n with
  | zero => intro i w h; exact out i w h
  | succ n ih =>
      intro i w h
      refine wp_bind.mpr (wp_mono (step n i w h) (fun r w' hw' => ?_) fun _ _ hR => hR)
      cases r with
      | inl i' => exact ih _ _ hw'
      | inr a => exact hw'

/-- The unbounded loop once more, with something known of the rounds it goes through.  The
knowledge `P` comes from outside, from an assumption on the run as a whole, and the invariant
need not imply it. -/
theorem wp_loop_of_visits {body : ι → Prog ω (ι ⊕ α)} (I : ℕ → ι → ω → Prop) (P : ι × ω → Prop)
    (step : ∀ n i w, I (n + 1) i w → P (i, w) → wp (body i)
      (fun r w' => match r with
        | .inl i' => I n i' w'
        | .inr a => Q a w') R w)
    (out : ∀ i w, I 0 i w → R .spin w) :
    ∀ n i w, I n i w → (∀ r ∈ visits body n i w, P r) → wp (loop body n i) Q R w := by
  intro n
  induction n with
  | zero => intro i w h _; exact out i w h
  | succ n ih =>
      intro i w h hP
      have hstep := step n i w h (hP _ (mem_visits_succ.mpr (.inl rfl)))
      rw [loop, wp_bind]
      rcases hbody : body i w with ⟨⟨i' | a⟩ | why, w'⟩
      · refine (wp_of_ret hbody).mpr (ih i' w' ((wp_of_ret hbody).mp hstep) fun r hr => hP r ?_)
        exact mem_visits_succ.mpr (.inr ⟨i', w', hbody, hr⟩)
      · exact (wp_of_ret hbody).mpr ((wp_of_ret hbody).mp hstep)
      · exact (wp_of_stop hbody).mpr ((wp_of_stop hbody).mp hstep)

/-- What every round of a loop meets: an invariant for the loop variable and the state, kept
by each round that `P` holds of. -/
theorem forall_visits {body : ι → Prog ω (ι ⊕ α)} {I : ι → ω → Prop} {P : ι × ω → Prop}
    (step : ∀ i w, I i w → P (i, w) → wp (body i)
      (fun r w' => match r with
        | .inl i' => I i' w'
        | .inr _ => True) (fun _ _ => True) w) :
    ∀ n i w, I i w → (∀ r ∈ visits body n i w, P r) → ∀ r ∈ visits body n i w, I r.1 r.2 := by
  intro n
  induction n with
  | zero => exact fun _ _ _ _ r hr => (nomatch hr)
  | succ n ih =>
      intro i w h hP r hr
      rcases mem_visits_succ.mp hr with rfl | ⟨i', w', hbody, hr⟩
      · exact h
      · have hnext := (wp_of_ret hbody).mp (step i w h (hP _ (mem_visits_succ.mpr (.inl rfl))))
        exact ih i' w' hnext
          (fun r hr => hP r (mem_visits_succ.mpr (.inr ⟨i', w', hbody, hr⟩))) r hr

end Rules

/-! ## Programs that only move along a preorder -/

/-- Whatever its outcome, `m` moves the state along `r`.  The relation is a preorder in all
uses, so that what each part does adds up. -/
def Moves (r : ω → ω → Prop) (m : Prog ω α) : Prop := ∀ w, r w (m w).2

section Moves

variable {r r' : ω → ω → Prop} {m : Prog ω α} {f : α → Prog ω β}

/-- A program that moves along a relation moves along every larger one. -/
theorem Moves.mono (h : Moves r m) (hr : ∀ w w', r w w' → r' w w') : Moves r' m :=
  fun w => hr _ _ (h w)

/-- What a program moves along can be used as a postcondition. -/
theorem Moves.wp (h : Moves r m) (w : ω) :
    Prog.wp m (fun _ w' => r w w') (fun _ w' => r w w') w :=
  wp_state_iff.mpr (h w)

/-- The same of one run, given by its equation. -/
theorem Moves.of_eq (h : Moves r m) {w w' : ω} {o : Outcome α} (hm : m w = (o, w')) : r w w' := by
  have hw := h w
  rwa [hm] at hw

theorem moves_modify {g : ω → ω} (h : ∀ w, r w (g w)) : Moves r (modify g) := h

variable [IsPreorder ω r]

theorem moves_pure (a : α) : Moves r (pure a : Prog ω α) := fun w => refl_of r w

theorem moves_gets (g : ω → α) : Moves r (gets g) := fun w => refl_of r w

theorem moves_halt (why : Stop) : Moves r (halt why : Prog ω α) := fun w => refl_of r w

/-- A sequence moves along what both of its parts move along.  There is no condition on the
outcome of the first one: a stop leaves the second one out. -/
theorem Moves.bind (hm : Moves r m) (hf : ∀ a, Moves r (f a)) : Moves r (m >>= f) := by
  intro w
  refine wp_state_iff.mp (wp_bind.mpr (wp_mono (hm.wp w) (fun a w' hw' => ?_) fun _ _ h => h))
  exact wp_state_iff.mpr (trans_of r hw' (hf a w'))

/-- A part of a run that moves along `r`: what is behind it starts from a state that `r`
relates to the first, and so does a stop. -/
theorem wp_bind_along {w₀ w : ω} {Q : β → ω → Prop} {R : Stop → ω → Prop} (h : r w₀ w)
    (hm : r w (m w).2) (hf : ∀ a w', m w = (.ret a, w') → r w₀ w' → Prog.wp (f a) Q R w')
    (hR : ∀ why w', r w₀ w' → R why w') : Prog.wp (m >>= f) Q R w := by
  rw [wp_bind]
  rcases hrun : m w with ⟨a | why, w'⟩ <;> rw [hrun] at hm
  · exact (wp_of_ret hrun).mpr (hf a w' hrun (trans_of r h hm))
  · exact (wp_of_stop hrun).mpr (hR why w' (trans_of r h hm))

/-- The same of a checked part, whose failure is the failure of the whole.  A proof with this
rule carries one relation to the very first state through a function. -/
theorem wp_check_along [DecidableEq S] [StatusCode S] {m k : Prog ω S} {w₀ w : ω}
    {Q : S → ω → Prop} {R : Stop → ω → Prop} (h : r w₀ w) (hm : r w (m w).2)
    (hk : ∀ w', m w = (.ret StatusCode.ok, w') → r w₀ w' → Prog.wp k Q R w')
    (hfail : ∀ w', r w₀ w' → Q StatusCode.fail w') (hR : ∀ why w', r w₀ w' → R why w') :
    Prog.wp (check m k) Q R w := by
  refine wp_bind_along h hm (fun status w' hrun h' => wp_ite.mpr ⟨fun hok => ?_, fun _ => ?_⟩) hR
  · subst hok
    exact hk w' hrun h'
  · exact hfail w' h'

omit [IsPreorder ω r] in
theorem Moves.ite {c : Prop} [Decidable c] {m k : Prog ω α} (hm : Moves r m)
    (hk : Moves r k) : Moves r (if c then m else k) := by
  split
  · exact hm
  · exact hk

theorem Moves.check [DecidableEq S] [StatusCode S] {m k : Prog ω S} (hm : Moves r m) (hk : Moves r k) :
    Moves r (check m k) :=
  hm.bind fun _ => hk.ite (moves_pure _)

/-- A counted loop, by induction on its rounds. -/
theorem Moves.checkLoop [DecidableEq S] [StatusCode S] {body : ι → Prog ω S} {next : ι → ι}
    (h : ∀ i, Moves r (body i)) : ∀ n i, Moves r (checkLoop body next n i) := by
  intro n
  induction n with
  | zero => exact fun _ => moves_pure _
  | succ n ih => exact fun i => (h i).check (ih _)

/-- An unbounded loop, for every budget. -/
theorem Moves.loop {body : ι → Prog ω (ι ⊕ α)} (h : ∀ i, Moves r (body i)) :
    ∀ n i, Moves r (loop body n i) := by
  intro n
  induction n with
  | zero => exact fun _ => moves_halt _
  | succ n ih =>
      refine fun i => (h i).bind fun result => ?_
      cases result with
      | inl i' => exact ih i'
      | inr a => exact moves_pure a

/-- What comes behind the first part of a sequence moves on from it.  The first part itself
need not move along `r`. -/
theorem Moves.bind_left (hf : ∀ a, Moves r (f a)) (w : ω) : r (m w).2 ((m >>= f) w).2 := by
  rcases hm : m w with ⟨a | why, w'⟩
  · rw [bind_of_ret hm]
    exact hf a w'
  · rw [bind_of_stop hm]
    exact refl_of r w'

end Moves

/-! ## Programs that never stop for one reason -/

/-- No run of `m` stops for the reason `why`, from whatever state. -/
def Avoids (why : Stop) (m : Prog ω α) : Prop :=
  ∀ w, wp m (fun _ _ => True) (fun why' _ => why' ≠ why) w

section Avoids

variable {why : Stop} {m : Prog ω α} {f : α → Prog ω β}

theorem avoids_pure (a : α) : Avoids why (pure a : Prog ω α) := fun _ => trivial

theorem avoids_gets (g : ω → α) : Avoids why (gets g) := fun _ => trivial

theorem avoids_modify (g : ω → ω) : Avoids why (modify g) := fun _ => trivial

theorem avoids_halt {why' : Stop} (h : why' ≠ why) : Avoids why (halt why' : Prog ω α) := fun _ => h

/-- A sequence stops in one of its parts. -/
theorem Avoids.bind (hm : Avoids why m) (hf : ∀ a, Avoids why (f a)) : Avoids why (m >>= f) := by
  intro w
  exact wp_bind.mpr (wp_mono (hm w) (fun a w' _ => hf a w') fun _ _ h => h)

theorem Avoids.ite {c : Prop} [Decidable c] {m k : Prog ω α} (hm : Avoids why m)
    (hk : Avoids why k) : Avoids why (if c then m else k) := by
  split
  · exact hm
  · exact hk

theorem Avoids.check [DecidableEq S] [StatusCode S] {m k : Prog ω S} (hm : Avoids why m)
    (hk : Avoids why k) : Avoids why (check m k) :=
  hm.bind fun _ => hk.ite (avoids_pure _)

/-- A loop that is left after its rounds stops because it spins, and a round that stops does
so for a reason of its own. -/
theorem Avoids.loop {body : ι → Prog ω (ι ⊕ α)} (hspin : .spin ≠ why)
    (h : ∀ i, Avoids why (body i)) : ∀ n i, Avoids why (loop body n i) := by
  intro n
  induction n with
  | zero => exact fun _ => avoids_halt hspin
  | succ n ih =>
      refine fun i => (h i).bind fun result => ?_
      cases result with
      | inl i' => exact ih i'
      | inr a => exact avoids_pure a

end Avoids

/-! ## Programs that keep a property of the state -/

/-- The step keeps `P`.  As a relation it is a preorder, so `Moves (Keeps P) m` says that `P`
is an invariant of `m`. -/
def Keeps (P : ω → Prop) (w w' : ω) : Prop := P w → P w'

instance (P : ω → Prop) : IsPreorder ω (Keeps P) where
  refl _ := id
  trans _ _ _ h h' := h' ∘ h

/-- A part that keeps `P` hands it on to the next one. -/
theorem Moves.wp_bind {P : ω → Prop} {m : Prog ω α} {f : α → Prog ω β} {Q : β → ω → Prop}
    {R : Stop → ω → Prop} {w : ω} (hm : Moves (Keeps P) m) (h : P w)
    (hf : ∀ a w', P w' → Prog.wp (f a) Q R w') (hR : ∀ why w', P w' → R why w') :
    Prog.wp (m >>= f) Q R w :=
  Prog.wp_bind.mpr <|
    wp_mono (hm.wp w) (fun a w' hw' => hf a w' (hw' h)) fun why w' hw' => hR why w' (hw' h)

/-- What a part keeps holds besides what it comes to. -/
theorem Moves.wp_and {P : ω → Prop} {m : Prog ω α} {Q : α → ω → Prop} {R : Stop → ω → Prop} {w : ω}
    (hm : Moves (Keeps P) m) (h : P w) (hwp : Prog.wp m Q R w) :
    Prog.wp m (fun a w' => Q a w' ∧ P w') R w :=
  wp_mono (Prog.wp_and hwp (hm.wp w)) (fun _ _ ⟨hQ, hkeeps⟩ => ⟨hQ, hkeeps h⟩) fun _ _ h => h.1

end Prog

end Imperative
