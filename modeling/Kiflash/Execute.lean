import Kiflash.Blank
import Kiflash.Progress
import Kiflash.Spi.Axi

/-!
# The worker and the flashing thread

`Kiflash::Execute` runs `kiflash_program_user` in a thread of its own and polls
`kiflash_getprogress` until it reads 100.  The worker writes nothing that the flashing thread
reads, so the flashing thread does what `kiflashProgramUser` does, and an interleaving is a
choice of the events behind which the polls come.

* `Execution` — the two threads in the course of one `Execute`.
* `launches` — the `Execute` calls of a process, one after the other.
* `Stale` — the worker polls before the flashing thread has reset a percentage of 100 that an
  earlier run left behind.
* `hundred_means_done_iff` — when a message of 100 can be believed.
* `failed_run_exits_iff` — when the worker of a failed run comes to its end.

### The flashing thread as its events

The worker sees of the other thread no more than the percentage, and the percentage is a
function of the events that have been recorded (`Tracks`).  So the flashing thread is
represented by the events of its run: those that it has done, and those that it has still to
do.  `work` takes one from the second list to the first, and `poll` reads the percentage
behind the first.  The run itself is taken from the model of the function, with any driver,
host and outcome.

### The percentage outlives the run

`percentage` is a static variable, and the first thing that `kiflash_program_user` does is to
reset it, in its own thread.  A worker that polls before that reads what the run before has
left.  This is the one way to a wrong 100: behind the reset, 100 is only stored by a
verification that has passed (`Earned`), and a run that fails stores none (`execute_n_ne`).

### Hypotheses

`env.progress` says that the library reports its progress, as the one that the module loads
does.  `IntPages` says that the page counts of the images fit into an `int`: the report of a
page loop converts its counts to `int` before it divides.
-/

open Imperative Imperative.Prog

namespace Kiflash

/-! ## One `Execute` -/

/-- What the scheduler runs next.  A schedule is a list of these, of any length. -/
inductive Action where
  /-- A round of the worker's polling loop, with what follows it when it was the last. -/
  | poll
  /-- The flashing thread, up to its next event. -/
  | work
  deriving DecidableEq

/-- The two threads of an `Execute`.  The flashing thread runs over its record, so that the
worker can look in at any point of it. -/
structure Execution (σ : Type) where
  /-- `N`. -/
  n : UInt32
  /-- The percentage that the flashing thread found. -/
  start : UInt32
  /-- What the flashing thread has done. -/
  past : List (Event σ)
  /-- What it has still to do. -/
  future : List (Event σ)
  /-- The messages to the JavaScript side. -/
  sent : List UInt32

namespace Execution

variable {σ : Type}

/-- `func_flashprogress()`: the symbol `kiflash_getprogress` of the library.  It reads what
the flashing thread has stored last. -/
def percentage (x : Execution σ) : UInt32 := percentageAfter x.start x.past

/-- A round of `while (N != 100)`; behind the loop, 100 is sent once more.  A value that has
not changed is not sent. -/
def poll (x : Execution σ) : Execution σ :=
  if x.n = 100 ∨ x.percentage = x.n then x
  else
    { x with
      n := x.percentage
      sent := x.sent ++ if x.percentage = 100 then [100, 100] else [x.percentage] }

/-- The next event of the flashing thread, unless it has returned.  Returning stores
nothing. -/
def work (x : Execution σ) : Execution σ :=
  match x.future with
  | [] => x
  | e :: es => { x with past := x.past ++ [e], future := es }

/-- What one action does.  The two threads share the percentage, and nothing else. -/
def step (x : Execution σ) : Action → Execution σ
  | .poll => x.poll
  | .work => x.work

/-- The threads under a schedule, from a state in the middle of things or from the
beginning. -/
def run (x : Execution σ) (actions : List Action) : Execution σ := actions.foldl step x

/-- A message of 100 means that the run it belongs to has been verified.  This is what the
JavaScript side takes it for. -/
def Honest (x : Execution σ) : Prop := 100 ∈ x.sent → .verifyPassed ∈ x.past

/-- The worker leaves its loop sooner or later, if it goes on polling.  Until it does, the
`Execute` does not return. -/
def Exits (x : Execution σ) : Prop := ∃ k, (x.run (List.replicate k .poll)).n = 100

end Execution

section Definitions

variable {σ : Type} [XSpiDriver σ]

/-- An `Execute` that starts in the state `w`.  The worker has sent its first zero, and the
flashing thread has done nothing yet. -/
def execute (env : Env) (w : World σ) : Execution σ where
  n := 0
  start := w.flashData.percentage
  past := []
  future := newEvents w (kiflashProgramUser env w).2
  sent := [0]

/-- An `Execute`: what is called since the one before, and the schedule of its threads.  The
operations in between may leave any percentage behind. -/
structure Launch where
  between : List Operation
  actions : List Action

/-- The `Execute` calls of a process from the state `w` on, each with the state in which it
starts; `fut.get()` keeps them apart. -/
def launches (env : Env) : List Launch → World σ → List (World σ × List Action)
  | [], _ => []
  | launch :: session, w =>
    let w' := (runAll env launch.between w).2
    (w', launch.actions) :: launches env session (kiflashProgramUser env w').2

end Definitions

/-- The worker polls first, and finds the 100 of an earlier run.  It is a condition on the
state before and on the schedule. -/
def Stale {σ : Type} (w : World σ) (actions : List Action) : Prop :=
  w.flashData.percentage = 100 ∧ actions.head? = some .poll

/-! ## What the flashing thread lets the worker see -/

/-- Nothing stores 100 before the verification has passed.  This is a property of the record
alone. -/
def Earned {σ : Type} (es : List (Event σ)) : Prop :=
  ∀ past, past <+: es → .percentage 100 ∈ past → .verifyPassed ∈ past

section Events

variable {σ : Type} {env : Env} {w w' : World σ}

/-- A run that only stores percentages below 100. -/
theorem Emits.hundred_not_mem (h : Emits belowHundred w w') : .percentage 100 ∉ newEvents w w' :=
  fun hmem => h.mem_newEvents hmem rfl

/-- Without a 100 there is nothing to earn. -/
theorem earned_of_not_mem {es : List (Event σ)} (h : .percentage 100 ∉ es) : Earned es :=
  fun _ hpast hmem => absurd (hpast.subset hmem) h

/-- A run that passes stores its 100 behind the verification.  What was recorded in front of
the verification holds no 100, so a prefix with one reaches behind it. -/
theorem Passes.earned (h : Passes w w') : Earned (newEvents w w') := by
  obtain ⟨w₁, hbelow, hpassed, es₂, hes₂, -⟩ := h
  have hnot := hbelow.hundred_not_mem
  obtain ⟨es₁, hes₁, -⟩ := hbelow
  rw [newEvents_of_eq hes₁] at hpassed hnot
  rw [hes₁, List.append_assoc] at hes₂
  rw [newEvents_of_eq hes₂]
  intro past hpast hmem
  rcases List.prefix_or_prefix_of_prefix hpast (List.prefix_append es₁ es₂) with h | h
  · exact absurd (h.subset hmem) hnot
  · exact h.subset hpassed

/-- What a poll reads was there before or has been stored. -/
theorem percentageAfter_eq {percentage value : UInt32} {es : List (Event σ)}
    (h : percentageAfter percentage es = value) : percentage = value ∨ .percentage value ∈ es := by
  fun_induction percentageAfter percentage es with
  | case1 => exact .inl h
  | case2 _ _ _ ih =>
      rcases ih h with rfl | hmem
      · exact .inr List.mem_cons_self
      · exact .inr (List.mem_cons_of_mem _ hmem)
  | case3 _ _ _ _ ih => exact (ih h).imp_right (List.mem_cons_of_mem _)

variable [XSpiDriver σ]

/-- Every run of `kiflash_program_user` earns its 100. -/
theorem kiflashProgramUser_earned (hpages : IntPages env) (w : World σ) :
    Earned (newEvents w (kiflashProgramUser env w).2) := by
  refine (wp_state_iff (P := fun w' => Earned (newEvents w w'))).mp
    (wp_mono (kiflashProgramUser_events hpages w) (fun status w' h => ?_)
      fun _ w' h => earned_of_not_mem h.hundred_not_mem)
  by_cases hok : status = .success
  · exact (h.1 hok).earned
  · exact earned_of_not_mem (h.2 hok).hundred_not_mem

end Events

/-! ## Interleavings -/

namespace Execution

variable {σ : Type} {x : Execution σ} {es : List (Event σ)}

/-- A schedule in two parts. -/
theorem run_append (x : Execution σ) (actions actions' : List Action) :
    x.run (actions ++ actions') = (x.run actions).run actions' := List.foldl_append

/-- The first action of a schedule. -/
theorem run_cons (x : Execution σ) (action : Action) (actions : List Action) :
    x.run (action :: actions) = (x.step action).run actions := rfl

/-- What has been done and what is left make up the run, from the percentage `start` on.
Every action keeps it. -/
structure Follows (start : UInt32) (es : List (Event σ)) (x : Execution σ) : Prop where
  start : x.start = start
  events : x.past ++ x.future = es

/-- Neither action loses an event.  `poll` touches neither list, and `work` moves the head of
one to the end of the other. -/
theorem Follows.step {start : UInt32} (h : Follows start es x) (action : Action) :
    Follows start es (x.step action) := by
  cases action with
  | poll =>
      rw [Execution.step, poll]
      split
      · exact h
      · exact ⟨h.start, h.events⟩
  | work =>
      rw [Execution.step, work]
      split
      · exact h
      · rename_i e es' hfuture
        have hevents := h.events
        rw [hfuture] at hevents
        exact ⟨h.start, by simpa using hevents⟩

/-- Nor does a schedule. -/
theorem Follows.run {start : UInt32} (h : Follows start es x) (actions : List Action) :
    Follows start es (x.run actions) := by
  induction actions generalizing x with
  | nil => exact h
  | cons action actions ih => exact ih (h.step action)

/-- An old 100 is out of the worker's sight: there is none, or the flashing thread has begun.
Its first store is a zero. -/
def Fresh (x : Execution σ) : Prop := x.start ≠ 100 ∨ x.past ≠ []

/-- It stays out of sight.  The first list only grows, and `start` never changes. -/
theorem Fresh.step (h : x.Fresh) (action : Action) : (x.step action).Fresh := by
  cases action with
  | poll =>
      rw [Execution.step, poll]
      split
      · exact h
      · exact h
  | work =>
      rw [Execution.step, work]
      split
      · exact h
      · exact .inr (by simp)

/-- What such a poll reads as 100 has been stored in this run.  The percentage is that of the
last store, and the first event of the run is one. -/
theorem stored_of_percentage {start : UInt32} (hes : ∃ rest, es = .percentage 0 :: rest)
    (h : Follows start es x) (hfresh : x.Fresh) (hread : x.percentage = 100) :
    .percentage 100 ∈ x.past := by
  obtain ⟨rest, hrest⟩ := hes
  have hprefix : x.past <+: es := ⟨x.future, h.events⟩
  rw [percentage] at hread
  rw [Fresh] at hfresh
  rcases hpast : x.past with _ | ⟨e, past⟩ <;> rw [hpast] at hread hfresh hprefix
  · exact absurd hread (hfresh.resolve_right fun hne => hne rfl)
  · rw [hrest, List.cons_prefix_cons] at hprefix
    obtain ⟨rfl, -⟩ := hprefix
    have hstored : (0 : UInt32) = 100 ∨ _ := percentageAfter_eq hread
    rcases hstored with h0 | hmem
    · exact absurd h0 (by decide)
    · exact List.mem_cons_of_mem _ hmem

/-- A worker that has read 100 polls no more.  From then on it is not in its loop any more,
whatever the flashing thread does. -/
theorem run_n_hundred (h : x.n = 100) (actions : List Action) : (x.run actions).n = 100 := by
  induction actions generalizing x with
  | nil => exact h
  | cons action actions ih =>
      refine ih ?_
      cases action with
      | poll => rw [step, poll, if_pos (.inl h), h]
      | work =>
          rw [step, work]
          split
          · exact h
          · exact h

/-- The flashing thread leaves the worker's variable alone. -/
theorem run_work_n (x : Execution σ) (k : ℕ) : (x.run (List.replicate k .work)).n = x.n := by
  induction k generalizing x with
  | zero => rfl
  | succ k ih =>
      rw [List.replicate_succ, run_cons, ih, step, work]
      split
      · rfl
      · rfl

/-- Left alone, the flashing thread comes to its end. -/
theorem run_work_future (x : Execution σ) :
    (x.run (List.replicate x.future.length .work)).future = [] := by
  rcases hfuture : x.future with _ | ⟨e, es⟩
  · exact hfuture
  · have hwork : x.work = { x with past := x.past ++ [e], future := es } := by rw [work, hfuture]
    rw [List.length_cons, List.replicate_succ, run_cons, step, hwork]
    exact run_work_future { x with past := x.past ++ [e], future := es }
termination_by x.future.length
decreasing_by rw [hfuture]; exact Nat.lt_succ_self _

end Execution

section Execute

open Execution

variable {σ : Type} [XSpiDriver σ] {env : Env}

/-- An `Execute` begins with nothing done. -/
theorem execute_follows (env : Env) (w : World σ) :
    Follows w.flashData.percentage (newEvents w (kiflashProgramUser env w).2) (execute env w) :=
  ⟨rfl, rfl⟩

omit [XSpiDriver σ] in
/-- `percentage` is what `kiflash_getprogress` returns in the state that has these events behind
it. -/
theorem kiflashGetprogress_of_tracks {x : Execution σ} {w w' : World σ} (htracks : Tracks w w')
    (hstart : x.start = w.flashData.percentage) (hpast : x.past = newEvents w w') :
    kiflashGetprogress w' = (.ret x.percentage, w') := by
  obtain ⟨es, hes, hpercentage⟩ := htracks
  rw [percentage, hstart, hpast, newEvents_of_eq hes, ← hpercentage]
  rfl

/-- When the flashing thread has returned, the worker reads what it left behind. -/
theorem execute_percentage (w : World σ) (actions : List Action)
    (hdone : ((execute env w).run actions).future = []) :
    ((execute env w).run actions).percentage = (kiflashProgramUser env w).2.flashData.percentage := by
  have hrun := (execute_follows env w).run actions
  have hevents := hrun.events
  rw [hdone, List.append_nil] at hevents
  have hread := kiflashGetprogress_of_tracks (carries_tracks.kiflashProgramUser w) hrun.start hevents
  exact (Outcome.ret.inj (congrArg Prod.fst hread)).symm

/-- A fresh process with a blank flash. -/
def blankProcess : World BlankFlash := World.fresh .blank

theorem blankEnv_intPages : IntPages blankEnv := by
  rintro _ _ ⟨⟩
  decide

/-- A poll that comes first sends whatever percentage there is. -/
theorem execute_poll_stale {w : World σ} (h : w.flashData.percentage = 100) :
    (execute env w).poll = { execute env w with n := 100, sent := [0, 100, 100] } := by
  have hread : (execute env w).percentage = 100 := h
  rw [poll, if_neg (by rw [hread]; simp [execute]), hread, if_pos rfl]
  rfl

/-- The flashing thread runs to its end, and then the worker polls.  On this schedule every
message is the last one. -/
def wholeRun (env : Env) (w : World σ) : List Action :=
  List.replicate (execute env w).future.length .work ++ [.poll]

/-- What such a schedule leaves the worker with. -/
theorem wholeRun_n (env : Env) (w : World σ) :
    ((execute env w).run (wholeRun env w)).n = (kiflashProgramUser env w).2.flashData.percentage := by
  rw [wholeRun, run_append]
  have hread := execute_percentage w _ (run_work_future (execute env w))
  set x := (execute env w).run (List.replicate (execute env w).future.length .work) with hx
  have hn : x.n = 0 := run_work_n (execute env w) _
  rw [run_cons, step, run, List.foldl_nil, poll, ← hread]
  split
  · rename_i h
    exact (h.resolve_left (by rw [hn]; decide)).symm
  · rfl

/-- And with what it has been sent, if that is 100. -/
theorem hundred_mem_wholeRun {env : Env} {w : World σ}
    (h : (kiflashProgramUser env w).2.flashData.percentage = 100) :
    100 ∈ ((execute env w).run (wholeRun env w)).sent := by
  rw [wholeRun, run_append]
  have hread := execute_percentage w _ (run_work_future (execute env w))
  set x := (execute env w).run (List.replicate (execute env w).future.length .work) with hx
  have hn : x.n = 0 := run_work_n (execute env w) _
  have hgoes : ¬ (x.n = 100 ∨ x.percentage = x.n) := by
    rw [hread, h, hn]
    decide
  rw [run_cons, step, run, List.foldl_nil, poll, if_neg hgoes, hread, if_pos h]
  simp

/-- The rule for what every interleaving keeps from which no worker reads an old 100: the
flashing thread keeps it anyway, and so does a poll that cannot see what was there before.

The first action is looked at by itself: if it is a poll, the percentage is not 100, and if it
is a step of the flashing thread, the first event is the reset. -/
theorem execute_invariant {I : Execution σ → Prop} (hprogress : env.progress = true) {w : World σ}
    {actions : List Action} (hstale : ¬ Stale w actions) (init : I (execute env w))
    (work : ∀ x, I x → I x.work)
    (poll : ∀ x, Follows w.flashData.percentage (newEvents w (kiflashProgramUser env w).2) x →
      x.Fresh → I x → I x.poll) : I ((execute env w).run actions) := by
  have fresh : ∀ actions x, Follows w.flashData.percentage
      (newEvents w (kiflashProgramUser env w).2) x → x.Fresh → I x → I (x.run actions) := by
    intro actions
    induction actions with
    | nil => exact fun x _ _ hx => hx
    | cons action actions ih =>
        intro x h hfresh hx
        refine ih _ (h.step action) (hfresh.step action) ?_
        cases action with
        | poll => exact poll x h hfresh hx
        | work => exact work x hx
  -- with an old 100 the flashing thread must come first, and its first act is to store zero
  by_cases hstart : w.flashData.percentage = 100
  · rcases actions with _ | ⟨action, actions⟩
    · exact init
    · obtain rfl : action = .work := by
        cases action with
        | poll => exact absurd ⟨hstart, rfl⟩ hstale
        | work => rfl
      refine fresh actions _ ((execute_follows env w).step .work) (.inr ?_) (work _ init)
      obtain ⟨rest, hrest⟩ := kiflashProgramUser_restarts hprogress w
      rw [step, Execution.work, execute, newEvents_of_eq hrest]
      exact List.cons_ne_nil _ _
  · exact fresh actions _ (execute_follows env w) (.inl hstart) init

/-- Without an old 100 to read, every message is honest.  Such a message has been stored in
this run, and the run earns what it stores. -/
theorem execute_honest (hprogress : env.progress = true) (hpages : IntPages env) {w : World σ}
    {actions : List Action} (hstale : ¬ Stale w actions) :
    ((execute env w).run actions).Honest := by
  refine execute_invariant hprogress hstale (fun hsent => absurd hsent (by simp [execute]))
    (fun x hx => ?_) fun x h hfresh hx => ?_
  · rw [work]
    split
    · exact hx
    · exact fun hsent => List.mem_append_left _ (hx hsent)
  · rw [poll]
    split
    · exact hx
    · intro hsent
      rcases List.mem_append.mp hsent with hsent | hsent
      · exact hx hsent
      · have hread : x.percentage = 100 := by
          split at hsent
          · assumption
          · exact (List.mem_singleton.mp hsent).symm
        obtain ⟨es, hes⟩ := kiflashProgramUser_restarts hprogress w
        have hstored := stored_of_percentage ⟨es, newEvents_of_eq hes⟩ h hfresh hread
        exact kiflashProgramUser_earned hpages w x.past ⟨x.future, h.events⟩ hstored

/-- A run that stores no 100 keeps the worker polling.  It is the invariant that `N` is not
100, by the rule for all interleavings. -/
theorem execute_n_ne (hprogress : env.progress = true) {w : World σ}
    (hnone : .percentage 100 ∉ newEvents w (kiflashProgramUser env w).2) {actions : List Action}
    (hstale : ¬ Stale w actions) : ((execute env w).run actions).n ≠ 100 := by
  refine execute_invariant (I := fun x => x.n ≠ 100) hprogress hstale (by simp [execute])
    (fun x hx => ?_) fun x h hfresh hx => ?_
  · rw [work]
    split
    · exact hx
    · exact hx
  · rw [poll]
    split
    · exact hx
    · intro hread
      obtain ⟨es, hes⟩ := kiflashProgramUser_restarts hprogress w
      have hstored := stored_of_percentage ⟨es, newEvents_of_eq hes⟩ h hfresh hread
      exact hnone (List.IsPrefix.subset ⟨x.future, h.events⟩ hstored)

/-- **100 percent means done exactly when no worker reads an old 100.**  Over the `Execute`
calls of a process, a message of 100 comes behind the verification of the run it belongs to,
in every state of every call, if and only if no call begins with a poll while the percentage
is 100.

The condition is on the percentage in front of the call and on the first action of its
schedule.  The percentage is a static variable of the library, and the flashing thread sets it
to zero when it begins; the worker may look before.  The schedule of each call is arbitrary.
`hprogress` says that the library is the one that keeps the percentage, and `hpages` that its
page counts fit an `int`. -/
theorem hundred_means_done_iff (env : Env) (hprogress : env.progress = true) (hpages : IntPages env)
    (session : List Launch) (w : World σ) :
    (∀ launch ∈ launches env session w, ∀ actions, actions <+: launch.2 →
      ((execute env launch.1).run actions).Honest) ↔
      ∀ launch ∈ launches env session w, ¬ Stale launch.1 launch.2 := by
  refine forall_congr' fun launch => forall_congr' fun _ => ⟨fun hhonest hstale => ?_,
    fun hstale actions hprefix => execute_honest hprogress hpages fun h => hstale ⟨h.1, ?_⟩⟩
  · obtain ⟨hstart, hhead⟩ := hstale
    obtain ⟨rest, hrest⟩ := List.head?_eq_some_iff.mp hhead
    have hpoll := hhonest [.poll] (by rw [hrest]; exact List.prefix_append [_] rest)
    rw [run_cons, Execution.step, execute_poll_stale hstart] at hpoll
    exact absurd (hpoll (by simp [Execution.run])) (by simp [Execution.run, execute])
  · obtain ⟨later, hlater⟩ := hprefix
    have hhead := h.2
    rw [← hlater, List.head?_append, hhead]
    rfl

/-- The first `Execute` of a process, on a blank flash: 100 is sent, behind the verification.
The schedule lets the flashing thread run to its end, and then polls once. -/
theorem hundred_means_done_first :
    100 ∈ ((execute blankEnv blankProcess).run (wholeRun blankEnv blankProcess)).sent ∧
      ((execute blankEnv blankProcess).run (wholeRun blankEnv blankProcess)).Honest := by
  have hopen : ∀ i, blankEnv.fopen i userImagePath = some blankFile := fun _ => rfl
  obtain ⟨w, hrun, -, hpercentage, -⟩ := kiflashProgramUser_blank (w := blankProcess) Nat.one_pos rfl
    hopen blankFile_bytes (fun _ _ => rfl) rfl
  refine ⟨hundred_mem_wholeRun ?_, ?_⟩
  · rw [hrun]
    exact hpercentage rfl
  refine (hundred_means_done_iff blankEnv rfl blankEnv_intPages
    [⟨[], wholeRun blankEnv blankProcess⟩] blankProcess).mpr ?_
    (blankProcess, wholeRun blankEnv blankProcess) List.mem_cons_self _ (List.prefix_refl _)
  intro launch hlaunch
  obtain rfl := List.mem_singleton.mp hlaunch
  rintro ⟨hstart, -⟩
  exact absurd hstart (by decide)

/-- Two `Execute` calls with nothing in between. -/
theorem launches_pair (env : Env) (first second : List Action) (w : World σ) :
    launches env [⟨[], first⟩, ⟨[], second⟩] w =
      [(w, first), ((kiflashProgramUser env w).2, second)] := rfl

/-- The second `Execute` of a process, after one that succeeded: its worker polls at once
and sends 100 before the flashing thread has done anything. -/
theorem hundred_means_done_counterexample :
    ∃ w, kiflashProgramUser blankEnv blankProcess = (.ret .success, w) ∧
      ((execute blankEnv blankProcess).run
        (wholeRun blankEnv blankProcess)).n = 100 ∧
      (w, [.poll]) ∈ launches blankEnv
        [⟨[], wholeRun blankEnv blankProcess⟩, ⟨[], [.poll]⟩] blankProcess ∧
      100 ∈ ((execute blankEnv w).run [.poll]).sent ∧ ((execute blankEnv w).run [.poll]).past = [] := by
  have hopen : ∀ i, blankEnv.fopen i userImagePath = some blankFile := fun _ => rfl
  obtain ⟨w, hrun, -, hpercentage, -⟩ := kiflashProgramUser_blank (w := blankProcess) Nat.one_pos rfl
    hopen blankFile_bytes (fun _ _ => rfl) rfl
  refine ⟨w, hrun, ?_, ?_, ?_⟩
  · rw [wholeRun_n, hrun]
    exact hpercentage rfl
  · rw [launches_pair, hrun]
    exact List.mem_cons_of_mem _ (List.mem_singleton_self _)
  · rw [run_cons, step, execute_poll_stale (hpercentage rfl)]
    exact ⟨by simp [run], rfl⟩

/-- A failed run stores no 100. -/
theorem hundred_not_mem_of_failure (hpages : IntPages env) {w w' : World σ}
    (hrun : kiflashProgramUser env w = (.ret .failure, w')) :
    .percentage 100 ∉ newEvents w (kiflashProgramUser env w).2 := by
  have hevents := (wp_of_ret hrun).mp (kiflashProgramUser_events hpages w)
  rw [hrun]
  exact (hevents.2 (by decide)).hundred_not_mem

/-- However long the worker polls behind a failed run, it reads no 100 but an old one. -/
theorem n_ne_of_failure (hprogress : env.progress = true) (hpages : IntPages env) {w w' : World σ}
    (hrun : kiflashProgramUser env w = (.ret .failure, w')) (hstart : w.flashData.percentage ≠ 100)
    (actions : List Action) : ((execute env w).run actions).n ≠ 100 :=
  execute_n_ne hprogress (hundred_not_mem_of_failure hpages hrun) fun hstale => hstart hstale.1

/-- **A failed run ends the worker exactly when the worker had read an old 100 before it.**
Otherwise the worker polls for ever: nothing that a failed run leaves behind is 100.

The schedule is any one in which the flashing thread has returned (`hreturned`), and `Exits`
asks whether the worker leaves its loop if it goes on polling from there.  It leaves the loop
at 100 and nowhere else, so that the status of the run does not reach it. -/
theorem failed_run_exits_iff (env : Env) (hprogress : env.progress = true) (hpages : IntPages env)
    (w w' : World σ) (hrun : kiflashProgramUser env w = (.ret .failure, w')) (actions : List Action)
    (hreturned : ((execute env w).run actions).future = []) :
    ((execute env w).run actions).Exits ↔ Stale w actions := by
  have hnone := hundred_not_mem_of_failure hpages hrun
  constructor
  · rintro ⟨k, hk⟩
    by_contra hstale
    rw [← run_append] at hk
    refine execute_n_ne hprogress hnone (fun h => hstale ⟨h.1, ?_⟩) hk
    rcases actions with _ | ⟨action, actions⟩
    · obtain ⟨es, hes⟩ := kiflashProgramUser_restarts hprogress w
      rw [run, List.foldl_nil, execute, newEvents_of_eq hes] at hreturned
      exact absurd hreturned (List.cons_ne_nil _ _)
    · simpa using h.2
  · rintro ⟨hstart, hhead⟩
    obtain ⟨rest, rfl⟩ := List.head?_eq_some_iff.mp hhead
    refine ⟨0, run_n_hundred ?_ _⟩
    rw [run_cons, step, execute_poll_stale hstart]
    exact run_n_hundred rfl rest

/-- A process whose SPI core is halted.  Its first transfer times out, and with it the
startup. -/
def haltedProcess : World (SpiCore Axi) := World.fresh (SpiCore.blank (Axi.reset true))

theorem patientEnv_intPages : IntPages patientEnv := fun _ _ h => nomatch h

theorem haltedProcess_fails : kiflashProgramUser patientEnv haltedProcess =
    (.ret .failure, (kiflashProgramUser patientEnv haltedProcess).2) := by
  have hfailed : (kiflashProgramUser patientEnv haltedProcess).1 = .ret .failure := by
    decide +kernel
  rw [← hfailed]

/-- On a halted core every run fails, and its worker does not end. -/
theorem failed_run_exits_halted :
    ¬ ((execute patientEnv haltedProcess).run
      (List.replicate (execute patientEnv haltedProcess).future.length .work)).Exits := by
  rw [failed_run_exits_iff patientEnv rfl patientEnv_intPages haltedProcess _ haltedProcess_fails _
    (run_work_future _)]
  rintro ⟨hstart, -⟩
  exact absurd hstart (by decide)

/-- The call has returned `XST_FAILURE`, and no number of polls ends the worker. -/
theorem failed_run_exits_counterexample :
    (kiflashProgramUser patientEnv haltedProcess).1 = .ret .failure ∧
      ((execute patientEnv haltedProcess).run
        (List.replicate (execute patientEnv haltedProcess).future.length .work)).future = [] ∧
      ∀ k, ((execute patientEnv haltedProcess).run
        (List.replicate (execute patientEnv haltedProcess).future.length .work ++
          List.replicate k .poll)).n ≠ 100 :=
  ⟨congrArg Prod.fst haltedProcess_fails, run_work_future _,
    fun k => n_ne_of_failure rfl patientEnv_intPages haltedProcess_fails (by decide) _⟩

end Execute

end Kiflash
