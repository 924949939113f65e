import Kiflash.Imperative.Prog

/-!
# Programs that wait for signals

A program attends to signals, each with a step of its own, and lists what the steps report.
What it can rely on is the order in which the signals come, and no more of it than that they
all come again and again.

* `attend` — the steps for a list of signals.
* `Fair` — a list in which every signal comes again so many times.
* `Ranked` — a program that waits for one signal at a time: the right one takes it closer to
  its goal, and the others do nothing.

`Ranked.safe` is what holds behind any list of signals, `Ranked.reaches` that a fair list
takes the program to its goal.

### Safety and arrival apart

`Ranked` is one set of obligations for two kinds of results.  What holds behind *any* list of
signals needs no fairness, and `Ranked.safe` is stated without it; what the program comes to
in the end is `Ranked.reaches`, and needs nothing but fairness in addition.  Fairness is a
property of the list of signals alone, and does not mention the program: how often each signal
has to come again is compared with the rank, which bounds how many of them the program still
waits for.

The obligations ask for total correctness of each step, since a handler that does not return
would never attend to the next signal.
-/

namespace Imperative.Prog

variable {ω ι ρ : Type}

/-- Attend to the signals, one after the other, and collect the reports.  The order of the
reports is the order of the signals. -/
def attend (step : ι → Prog ω (List ρ)) : List ι → Prog ω (List ρ)
  | [] => pure []
  | signal :: signals => do
    let reports ← step signal
    let others ← attend step signals
    pure (reports ++ others)

/-- The first signal, and the others behind it. -/
theorem wp_attend_cons {step : ι → Prog ω (List ρ)} {signal : ι} {signals : List ι}
    {Q : List ρ → ω → Prop} {R : Stop → ω → Prop} {w : ω} :
    wp (attend step (signal :: signals)) Q R w ↔
      wp (step signal)
        (fun reports => wp (attend step signals) (fun others => Q (reports ++ others)) R) R w := by
  rw [attend, wp_bind]
  constructor <;> intro h
  · exact wp_mono h (fun _ _ => wp_bind.mp) fun _ _ => id
  · exact wp_mono h (fun _ _ h' => wp_bind.mpr (wp_mono h' (fun _ _ => id) fun _ _ => id))
      fun _ _ => id

/-- Two lists of signals, one behind the other. -/
theorem wp_attend_append {step : ι → Prog ω (List ρ)} {signals signals' : List ι}
    {Q : List ρ → ω → Prop} {R : Stop → ω → Prop} {w : ω} :
    wp (attend step (signals ++ signals')) Q R w ↔
      wp (attend step signals)
        (fun reports => wp (attend step signals') (fun others => Q (reports ++ others)) R) R w := by
  induction signals generalizing Q w with
  | nil => exact Iff.rfl
  | cons signal signals ih =>
      rw [List.cons_append, wp_attend_cons, wp_attend_cons]
      constructor <;> intro h <;> refine wp_mono h (fun reports w' h' => ?_) fun _ _ => id
      · simpa only [List.append_assoc] using ih.mp h'
      · exact ih.mpr (by simpa only [List.append_assoc] using h')

/-- Every signal comes, and then every signal comes again, `n` times.  Within each of these
blocks the order is free. -/
inductive Fair : ℕ → List ι → Prop where
  | zero (signals : List ι) : Fair 0 signals
  | succ {n : ℕ} {block signals : List ι} (every : ∀ signal, signal ∈ block)
      (rest : Fair n signals) : Fair (n + 1) (block ++ signals)

/-- Any block with all the signals, repeated often enough, is fair. -/
theorem Fair.flatten_replicate {block : List ι} (every : ∀ signal, signal ∈ block) (n : ℕ) :
    Fair n (List.replicate n block).flatten := by
  induction n with
  | zero => exact .zero _
  | succ n ih =>
      rw [List.replicate_succ, List.flatten_cons]
      exact .succ every ih

/-- In a state of `Waits signal rank` the program waits for the signal.  With `advance` it
comes closer to its goal or reaches it; `ignore` says that no other signal does anything, and
`rest` that nothing does behind the goal. -/
structure Ranked (step : ι → Prog ω (List ρ)) (Waits : ι → ℕ → ω → Prop)
    (Goal : List ρ → ω → Prop) : Prop where
  advance : ∀ {signal rank w}, Waits signal rank w → wp (step signal)
    (fun reports w' => (reports = [] ∧ ∃ signal' rank', rank' < rank ∧ Waits signal' rank' w') ∨
      Goal reports w') (fun _ _ => False) w
  ignore : ∀ {signal rank w signal'}, Waits signal rank w → signal' ≠ signal → wp (step signal')
    (fun reports w' => reports = [] ∧ Waits signal rank w') (fun _ _ => False) w
  rest : ∀ {reports w} signal, Goal reports w →
    wp (step signal) (fun others w' => others = [] ∧ Goal reports w') (fun _ _ => False) w

namespace Ranked

variable {step : ι → Prog ω (List ρ)} {Waits : ι → ℕ → ω → Prop} {Goal : List ρ → ω → Prop}
variable (h : Ranked step Waits Goal) {reports : List ρ} {signal : ι} {rank : ℕ} {w : ω}
include h

/-- Behind the goal nothing is reported any more, whatever signals still come. -/
theorem stays (hgoal : Goal reports w) (signals : List ι) :
    wp (attend step signals) (fun others w' => Goal (reports ++ others) w')
      (fun _ _ => False) w := by
  induction signals generalizing w with
  | nil =>
      change Goal (reports ++ []) w
      rwa [List.append_nil]
  | cons first signals ih =>
      refine wp_attend_cons.mpr (wp_mono (h.rest first hgoal) ?_ fun _ _ => id)
      rintro _ w' ⟨rfl, hgoal'⟩
      exact ih hgoal'

/-- Whatever signals come, the program is at its goal, or waits and has reported nothing; with
the signal that it waits for, it has come closer.  The induction is on the signals, and the
awaited one may change on the way. -/
theorem safe (hwaits : Waits signal rank w) (signals : List ι) :
    wp (attend step signals)
      (fun reports w' => (reports = [] ∧ ∃ signal' rank', rank' ≤ rank ∧
        (signal ∈ signals → rank' < rank) ∧ Waits signal' rank' w') ∨ Goal reports w')
      (fun _ _ => False) w := by
  induction signals generalizing signal rank w with
  | nil => exact .inl ⟨rfl, signal, rank, le_rfl, fun hno => absurd hno List.not_mem_nil, hwaits⟩
  | cons first signals ih =>
      refine wp_attend_cons.mpr ?_
      by_cases hfirst : first = signal
      · -- the awaited signal: from here on the rank is below `rank`
        subst hfirst
        refine wp_mono (h.advance hwaits) ?_ fun _ _ => id
        rintro _ w' (⟨rfl, signal', rank', hless, hwaits'⟩ | hgoal)
        · refine wp_mono (ih hwaits') ?_ fun _ _ => id
          rintro others w'' (⟨rfl, signal'', rank'', hle, -, hwaits''⟩ | hgoal)
          · have hless' : rank'' < rank := hle.trans_lt hless
            exact .inl ⟨rfl, signal'', rank'', hless'.le, fun _ => hless', hwaits''⟩
          · exact .inr hgoal
        · exact wp_mono (h.stays hgoal signals) (fun _ _ => .inr) fun _ _ => id
      · -- any other signal leaves the program waiting
        refine wp_mono (h.ignore hwaits hfirst) ?_ fun _ _ => id
        rintro _ w' ⟨rfl, hwaits'⟩
        refine wp_mono (ih hwaits') ?_ fun _ _ => id
        rintro others w'' (⟨rfl, signal'', rank'', hle, hless, hwaits''⟩ | hgoal)
        · refine .inl ⟨rfl, signal'', rank'', hle, fun hmem => hless ?_, hwaits''⟩
          exact (List.mem_cons.mp hmem).resolve_left (Ne.symm hfirst)
        · exact .inr hgoal

/-- Signals that come again often enough take the program to its goal.  Each block of a fair
list has the awaited signal in it, so the rank falls at least once a block. -/
theorem reaches {n : ℕ} {signals : List ι} (hfair : Fair n signals) (hwaits : Waits signal rank w)
    (hrank : rank < n) : wp (attend step signals) Goal (fun _ _ => False) w := by
  induction hfair generalizing signal rank w with
  | zero => exact absurd hrank (Nat.not_lt_zero rank)
  | @succ n block signals every _ ih =>
      refine wp_attend_append.mpr (wp_mono (h.safe hwaits block) ?_ fun _ _ => id)
      rintro reports w' (⟨rfl, signal', rank', -, hless, hwaits'⟩ | hgoal)
      · -- the awaited signal is in the block, whichever it is
        exact ih hwaits' ((hless (every signal)).trans_le (Nat.le_of_lt_succ hrank))
      · exact h.stays hgoal signals

end Ranked

end Imperative.Prog
