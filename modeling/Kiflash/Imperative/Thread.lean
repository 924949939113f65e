import Kiflash.Imperative.Prog

/-!
# Threads

A `Prog` runs from its beginning to its end.  A `Thread` is such a program with its steps laid
open, so that something else can happen between any two of them: it is done, or it has one
**act** left to do on the state, and the state that it finds when it acts decides how it goes
on.

* `Thread.atomic` — a whole program as one act; the other constructions are those of `Prog`,
  built of such acts.
* `Thread.run` — the thread undisturbed.  It turns each construction of threads into the one
  of programs, so a program and its thread are compared by `simp`.
* `Interleaving` — two threads on one state, and the acts so far.  A schedule is a list of
  turns; a thread that is done passes its turn, and after the end of the process nothing
  happens.

### What an act is

How finely a program is cut into acts is decided where its thread is written, and not here.
The rules hold for any cut, so that a result about interleavings is the stronger the finer the
thread is: an act should be what nothing can come between, such as one access to a device or
to a shared variable.

### Two threads, one proof each

For invariants a thread is looked at on its own, with a **ghost** state that no other thread
touches.  `Follows r Q t c` says that from the ghost state `c` each act of `t` is a step of
`r`, whatever was done to the state since the act before, and that `Q` holds where the thread
ends.  The state is universally quantified at each act, so this needs no knowledge of the
other thread; what the thread does know, it has in its ghost state.  `Interleaving.invariant`
puts two of them together, for all schedules at once.
-/

namespace Imperative

/-- A program whose acts can be interleaved with those of another one.  An act sees the state
that the other program has left, and what follows may depend on it. -/
inductive Thread (ω α : Type) where
  /-- Nothing is left to do. -/
  | done (outcome : Outcome α)
  /-- The next act, and how the thread goes on from the state it found. -/
  | act (f : ω → ω) (next : ω → Thread ω α)

namespace Thread

variable {ω α β ι S : Type}

/-- Run `t`, and on a returned value go on with `k`.  The acts of both parts stay apart, so
that another thread may come between them. -/
def andThen : Thread ω α → (α → Thread ω β) → Thread ω β
  | done (.ret a), k => k a
  | done (.stop why), _ => done (.stop why)
  | act f next, k => act f fun w => andThen (next w) k

instance : Monad (Thread ω) where
  pure a := done (.ret a)
  bind := andThen

/-- A program that nothing can come between.  It is one act even if it stops.  How fine the
interleaving is, is decided by where this is used. -/
def atomic (m : Prog ω α) : Thread ω α := act (fun w => (m w).2) fun w => done (m w).1

/-- `status = m; if (status != ok) return fail; k`, with the acts of `m` and `k` laid open. -/
def check [DecidableEq S] [StatusCode S] (m k : Thread ω S) : Thread ω S :=
  m >>= fun status => if status = StatusCode.ok then k else pure StatusCode.fail

/-- `n` checked rounds of `body`, the loop variable moving along `next`. -/
def checkLoop [DecidableEq S] [StatusCode S] (body : ι → Thread ω S) (next : ι → ι) :
    ℕ → ι → Thread ω S
  | 0, _ => pure StatusCode.ok
  | n + 1, i => check (body i) (checkLoop body next n (next i))

/-- An unbounded loop, followed for at most `n` rounds.  Something else can happen between its
rounds and within them. -/
def loop (body : ι → Thread ω (ι ⊕ α)) : ℕ → ι → Thread ω α
  | 0, _ => done (.stop .spin)
  | n + 1, i => body i >>= fun
    | .inl i' => loop body n i'
    | .inr a => pure a

/-! ## A thread on its own -/

/-- The thread with nothing between its acts.  It is how the threads are compared with the
sequential programs. -/
def run : Thread ω α → Prog ω α
  | done outcome => fun w => (outcome, w)
  | act f next => fun w => run (next w) (f w)

@[simp] theorem run_pure (a : α) : run (pure a : Thread ω α) = pure a := rfl

@[simp] theorem run_atomic (m : Prog ω α) : run (atomic m) = m := rfl

/-- Undisturbed, a sequence of threads is the sequence of the programs. -/
@[simp] theorem run_bind (t : Thread ω α) (k : α → Thread ω β) :
    run (t >>= k) = run t >>= fun a => run (k a) := by
  change run (andThen t k) = Prog.andThen (run t) _
  funext w
  induction t generalizing w with
  | done outcome => cases outcome <;> rfl
  | act f next ih => exact ih w (f w)

@[simp] theorem run_ite {c : Prop} [Decidable c] (t u : Thread ω α) :
    run (if c then t else u) = if c then run t else run u := apply_ite run c t u

/-- Undisturbed, a checked thread is the checked program. -/
@[simp] theorem run_check [DecidableEq S] [StatusCode S] (t u : Thread ω S) :
    run (check t u) = Prog.check (run t) (run u) := by
  simp [check, Prog.check]

/-- Undisturbed, a counted loop is the counted loop of the program. -/
@[simp] theorem run_checkLoop [DecidableEq S] [StatusCode S] (body : ι → Thread ω S)
    (next : ι → ι) (n : ℕ) (i : ι) :
    run (checkLoop body next n i) = Prog.checkLoop (fun i => run (body i)) next n i := by
  induction n generalizing i with
  | zero => rfl
  | succ n ih => simp [checkLoop, Prog.checkLoop, ih]

/-- Undisturbed, an unbounded loop is that of the program. -/
@[simp] theorem run_loop (body : ι → Thread ω (ι ⊕ α)) (n : ℕ) (i : ι) :
    run (loop body n i) = Prog.loop (fun i => run (body i)) n i := by
  induction n generalizing i with
  | zero => rfl
  | succ n ih =>
      rw [loop, Prog.loop, run_bind]
      congr 1
      funext result
      cases result with
      | inl i' => exact ih i'
      | inr a => rfl

/-! ## Acts along a relation -/

/-- Every act of the thread moves the state along `r`, whatever state it finds.  This is the
thread's side of a rely and guarantee argument. -/
def Only (r : ω → ω → Prop) : Thread ω α → Prop
  | done _ => True
  | act f next => ∀ w, r w (f w) ∧ Only r (next w)

section Only

variable {r r' : ω → ω → Prop} {t u : Thread ω α} {k : α → Thread ω β}

theorem only_pure (a : α) : Only r (pure a : Thread ω α) := trivial

theorem Only.atomic {m : Prog ω α} (h : Prog.Moves r m) : Only r (atomic m) :=
  fun w => ⟨h w, trivial⟩

/-- A sequence has the acts of its two parts. -/
theorem Only.bind (ht : Only r t) (hk : ∀ a, Only r (k a)) : Only r (t >>= k) := by
  change Only r (andThen t k)
  induction t with
  | done outcome =>
      cases outcome with
      | ret a => exact hk a
      | stop why => trivial
  | act f next ih => exact fun w => ⟨(ht w).1, ih w (ht w).2⟩

theorem Only.ite {c : Prop} [Decidable c] (ht : Only r t) (hu : Only r u) :
    Only r (if c then t else u) := by
  split
  · exact ht
  · exact hu

theorem Only.check [DecidableEq S] [StatusCode S] {t u : Thread ω S} (ht : Only r t)
    (hu : Only r u) : Only r (check t u) :=
  ht.bind fun _ => hu.ite (only_pure _)

theorem Only.checkLoop [DecidableEq S] [StatusCode S] {body : ι → Thread ω S} {next : ι → ι}
    (h : ∀ i, Only r (body i)) (n : ℕ) (i : ι) : Only r (checkLoop body next n i) := by
  induction n generalizing i with
  | zero => exact only_pure _
  | succ n ih => exact (h i).check (ih _)

/-- All rounds of a loop, by induction on the budget. -/
theorem Only.loop {body : ι → Thread ω (ι ⊕ α)} (h : ∀ i, Only r (body i)) (n : ℕ) (i : ι) :
    Only r (loop body n i) := by
  induction n generalizing i with
  | zero => trivial
  | succ n ih =>
      refine (h i).bind fun result => ?_
      cases result with
      | inl i' => exact ih i'
      | inr a => exact only_pure a

end Only

/-! ## Acts with a ghost state -/

variable {γ δ : Type}

/-- From the ghost state `c` on, every act of the thread is a step of `r`, whatever state it
finds, and `Q` holds of its end.  The ghost state behind an act may depend on the state that
the act found. -/
def Follows (r : γ → ω → ω → γ → Prop) (Q : Outcome α → γ → Prop) : Thread ω α → γ → Prop
  | done outcome, c => Q outcome c
  | act f next, c => ∀ w, ∃ c', r c w (f w) c' ∧ Follows r Q (next w) c'

section Follows

variable {r : γ → ω → ω → γ → Prop} {Q : Outcome α → γ → Prop} {Q' : Outcome β → γ → Prop}
variable {t u : Thread ω α} {k : α → Thread ω β} {c : γ}

theorem follows_pure {a : α} (h : Q (.ret a) c) : Follows r Q (pure a) c := h

/-- One act, and the end of the thread with it. -/
theorem Follows.atomic {m : Prog ω α} (h : ∀ w, ∃ c', r c w (m w).2 c' ∧ Q (m w).1 c') :
    Follows r Q (atomic m) c := h

/-- Consequence. -/
theorem Follows.mono {Q₁ : Outcome α → γ → Prop} (h : Follows r Q t c)
    (hQ : ∀ outcome c', Q outcome c' → Q₁ outcome c') : Follows r Q₁ t c := by
  induction t generalizing c with
  | done outcome => exact hQ _ _ h
  | act f next ih =>
      intro w
      obtain ⟨c', hstep, hnext⟩ := h w
      exact ⟨c', hstep, ih w hnext⟩

/-- The rule for sequences: the ghost state is handed on. -/
theorem Follows.bind
    (h : Follows r (fun outcome c' => match outcome with
      | .ret a => Follows r Q' (k a) c'
      | .stop why => Q' (.stop why) c') t c) : Follows r Q' (t >>= k) c := by
  change Follows r Q' (andThen t k) c
  induction t generalizing c with
  | done outcome => cases outcome <;> exact h
  | act f next ih =>
      intro w
      obtain ⟨c', hstep, hnext⟩ := h w
      exact ⟨c', hstep, ih w hnext⟩

theorem Follows.ite {p : Prop} [Decidable p] (ht : Follows r Q t c) (hu : Follows r Q u c) :
    Follows r Q (if p then t else u) c := by
  split
  · exact ht
  · exact hu

/-- The rule for checked threads.  As for programs, the early exit ends in the ghost state of
the first part. -/
theorem Follows.check [DecidableEq S] [StatusCode S] {t u : Thread ω S} {Q : Outcome S → γ → Prop}
    (h : Follows r (fun outcome c' => match outcome with
      | .ret status => (status = StatusCode.ok → Follows r Q u c') ∧
        (status ≠ StatusCode.ok → Q (.ret StatusCode.fail) c')
      | .stop why => Q (.stop why) c') t c) : Follows r Q (check t u) c := by
  refine .bind (h.mono fun outcome c' h => ?_)
  cases outcome with
  | ret status =>
      obtain ⟨hok, hne⟩ := h
      by_cases hs : status = StatusCode.ok
      · simpa only [if_pos hs] using hok hs
      · simpa only [if_neg hs] using follows_pure (hne hs)
  | stop why => exact h

/-- Acts that leave the ghost state where it is. -/
theorem Only.follows {r₀ : ω → ω → Prop} (h : Only r₀ t) (hr : ∀ w w', r₀ w w' → r c w w' c)
    (hQ : ∀ outcome, Q outcome c) : Follows r Q t c := by
  induction t with
  | done outcome => exact hQ outcome
  | act f next ih => exact fun w => ⟨c, hr _ _ (h w).1, ih w (h w).2⟩

/-- A first part of this kind: the rest goes on from the same ghost state, whatever the first
part returned. -/
theorem Only.follows_bind {r₀ : ω → ω → Prop} (h : Only r₀ t)
    (hr : ∀ w w', r₀ w w' → r c w w' c) (hk : ∀ a, Follows r Q' (k a) c)
    (hstop : ∀ why, Q' (.stop why) c) : Follows r Q' (t >>= k) c := by
  refine .bind (h.follows hr fun outcome => ?_)
  cases outcome with
  | ret a => exact hk a
  | stop why => exact hstop why

/-- A checked first part of this kind. -/
theorem Only.follows_check [DecidableEq S] [StatusCode S] {r₀ : ω → ω → Prop} {t u : Thread ω S}
    {Q : Outcome S → γ → Prop} (h : Only r₀ t) (hr : ∀ w w', r₀ w w' → r c w w' c)
    (hu : Follows r Q u c) (hfail : Q (.ret StatusCode.fail) c) (hstop : ∀ why, Q (.stop why) c) :
    Follows r Q (Thread.check t u) c :=
  h.follows_bind hr (fun _ => hu.ite (follows_pure hfail)) hstop

end Follows

end Thread

/-! ## Two threads on one state -/

/-- Whose turn it is.  A schedule is a list of these. -/
inductive Turn where
  | left
  | right
  deriving DecidableEq, Repr

/-- The other thread. -/
def Turn.other : Turn → Turn
  | left => right
  | right => left

/-- There are two threads. -/
theorem Turn.ne_other (turn : Turn) : turn ≠ turn.other := by cases turn <;> decide

/-- An act that a thread did, with the states around it.  The past of an interleaving is a
list of them. -/
structure Act (ω : Type) where
  turn : Turn
  before : ω
  after : ω

/-- Two threads, the state they share, and what they have done to it.  All the schedules start
from the same one. -/
structure Interleaving (ω α β : Type) where
  left : Thread ω α
  right : Thread ω β
  state : ω
  past : List (Act ω)

namespace Interleaving

variable {ω α β : Type}

/-- One of the threads has ended the process, and nothing more will happen.  An `exit` ends
both, where a return ends one. -/
def exited (x : Interleaving ω α β) : Bool :=
  match x.left, x.right with
  | .done (.stop .exit), _ => true
  | _, .done (.stop .exit) => true
  | _, _ => false

/-- A turn of one of the threads.  The act is done on the state as the other thread has left
it.  A thread that is done lets its turn pass. -/
def step (x : Interleaving ω α β) (turn : Turn) : Interleaving ω α β :=
  if x.exited then x
  else
    match turn with
    | .left =>
      match x.left with
      | .done _ => x
      | .act f next =>
        { x with
          left := next x.state
          state := f x.state
          past := x.past ++ [⟨.left, x.state, f x.state⟩] }
    | .right =>
      match x.right with
      | .done _ => x
      | .act f next =>
        { x with
          right := next x.state
          state := f x.state
          past := x.past ++ [⟨.right, x.state, f x.state⟩] }

/-- The threads after the turns of a schedule.  Schedules may be of any length, and unfair. -/
def run (x : Interleaving ω α β) (schedule : List Turn) : Interleaving ω α β :=
  schedule.foldl step x

/-- Two threads that have not begun. -/
def start (left : Thread ω α) (right : Thread ω β) (w : ω) : Interleaving ω α β :=
  ⟨left, right, w, []⟩

/-- What a turn can do: nothing, or the next act of its thread.  All results about
interleavings look at a turn through this lemma. -/
theorem step_cases (x : Interleaving ω α β) (turn : Turn) :
    x.step turn = x ∨
      (∃ f next, x.left = .act f next ∧ x.step turn = { x with
        left := next x.state
        state := f x.state
        past := x.past ++ [⟨.left, x.state, f x.state⟩] }) ∨
      ∃ f next, x.right = .act f next ∧ x.step turn = { x with
        right := next x.state
        state := f x.state
        past := x.past ++ [⟨.right, x.state, f x.state⟩] } := by
  unfold step
  split
  · exact .inl rfl
  · cases turn with
    | left =>
        rcases hleft : x.left with outcome | ⟨f, next⟩
        · exact .inl rfl
        · exact .inr (.inl ⟨f, next, rfl, rfl⟩)
    | right =>
        rcases hright : x.right with outcome | ⟨f, next⟩
        · exact .inl rfl
        · exact .inr (.inr ⟨f, next, rfl, rfl⟩)

/-- **Two threads keep what the steps of both keep.**  `I` is an invariant on the two ghost
states, the acts and the state.  The induction is on the schedule, and the two `Follows` are
what is left of the threads. -/
theorem invariant {γ δ : Type} {r : γ → ω → ω → γ → Prop} {r' : δ → ω → ω → δ → Prop}
    {Q : Outcome α → γ → Prop} {Q' : Outcome β → δ → Prop}
    {I : γ → δ → List (Act ω) → ω → Prop}
    (hleft : ∀ {c d past w w' c'}, I c d past w → r c w w' c' →
      I c' d (past ++ [⟨.left, w, w'⟩]) w')
    (hright : ∀ {c d past w w' d'}, I c d past w → r' d w w' d' →
      I c d' (past ++ [⟨.right, w, w'⟩]) w')
    (schedule : List Turn) :
    ∀ {x : Interleaving ω α β} {c : γ} {d : δ}, x.left.Follows r Q c → x.right.Follows r' Q' d →
      I c d x.past x.state → ∃ c' d', I c' d' (x.run schedule).past (x.run schedule).state := by
  induction schedule with
  | nil => exact fun _ _ hI => ⟨_, _, hI⟩
  | cons turn schedule ih =>
      intro x c d hl hr hI
      change ∃ c' d', I c' d' ((x.step turn).run schedule).past ((x.step turn).run schedule).state
      rcases step_cases x turn with hstep | ⟨f, next, hx, hstep⟩ | ⟨f, next, hx, hstep⟩
      · rw [hstep]
        exact ih hl hr hI
      · rw [hx] at hl
        obtain ⟨c', hact, hnext⟩ := hl x.state
        rw [hstep]
        exact ih hnext hr (hleft hI hact)
      · rw [hx] at hr
        obtain ⟨d', hact, hnext⟩ := hr x.state
        rw [hstep]
        exact ih hl hnext (hright hI hact)

/-- The left thread, left alone for long enough, does what it does on its own.  The other
thread may be anywhere, as long as it has not ended the process. -/
theorem exists_alone (left : Thread ω α) (right : Thread ω β) (past : List (Act ω)) (w : ω)
    (hright : right ≠ .done (.stop .exit)) :
    ∃ n past', run ⟨left, right, w, past⟩ (List.replicate n .left) =
      ⟨.done (left.run w).1, right, (left.run w).2, past'⟩ := by
  induction left generalizing w past with
  | done outcome => exact ⟨0, past, rfl⟩
  | act f next ih =>
      obtain ⟨n, past', h⟩ := ih w (past ++ [⟨.left, w, f w⟩]) (f w)
      refine ⟨n + 1, past', Eq.trans ?_ h⟩
      have hgo : (⟨.act f next, right, w, past⟩ : Interleaving ω α β).exited = false := by
        unfold exited
        grind
      rw [List.replicate_succ, run, List.foldl_cons, step, if_neg (by rw [hgo]; exact Bool.false_ne_true)]
      rfl

end Interleaving

end Imperative
