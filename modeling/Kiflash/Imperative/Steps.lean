import Kiflash.Imperative.Prog

/-!
# Runs of calls

A client calls the functions of a component one after the other, whatever they return.
`steps run calls w` is what it sees: for each call the state before it, the value returned,
and the state after it.  The list ends with the first call that does not return.

`forall_steps_iff` is the rule about invariants of such runs: when exactly a property holds
after every call.

### An invariant with a condition

The usual rule for invariants is an implication: what every call keeps holds after every call.
For a component that keeps a property under a condition only, this gives a sufficient
condition on runs.  The rule here gives an equivalence: if a call keeps the property *exactly*
under the condition, then the property holds after every call exactly if the condition is met
by every call.  The point of its proof is that the calls in front of the first violation have
kept the property, so that the equivalence for one call can be applied to the very call that
breaks it.
-/

namespace Imperative.Prog

variable {ω α ι : Type} {run : ι → Prog ω α} {calls : List ι} {w : ω}

/-- A call that returned, with the states around it.  A condition on the steps of a run is a
condition on these. -/
structure Returned (ω ι α : Type) where
  call : ι
  before : ω
  value : α
  after : ω

/-- The calls of a run that returned, in their order.  A call that stops ends the run, and is
not among them. -/
def steps (run : ι → Prog ω α) : List ι → ω → List (Returned ω ι α)
  | [], _ => []
  | call :: calls, w => match run call w with
    | (.ret value, w') => ⟨call, w, value, w'⟩ :: steps run calls w'
    | (.stop _, _) => []

/-- A call that returned is the first step of the run. -/
theorem steps_cons_of_ret {call : ι} {value : α} {w' : ω} (h : run call w = (.ret value, w')) :
    steps run (call :: calls) w = ⟨call, w, value, w'⟩ :: steps run calls w' := by
  rw [steps, h]

/-- A step of a run is that of the first call, or one of the others. -/
theorem mem_steps_cons {call : ι} {step : Returned ω ι α} (h : step ∈ steps run (call :: calls) w) :
    ∃ value w', run call w = (.ret value, w') ∧
      (step = ⟨call, w, value, w'⟩ ∨ step ∈ steps run calls w') := by
  rcases hrun : run call w with ⟨value | why, w'⟩
  · rw [steps_cons_of_ret hrun] at h
    exact ⟨value, w', rfl, List.mem_cons.mp h⟩
  · rw [steps, hrun] at h
    cases h

/-- A step is a run of its call. -/
theorem run_of_mem_steps {step : Returned ω ι α} (h : step ∈ steps run calls w) :
    run step.call step.before = (.ret step.value, step.after) := by
  induction calls generalizing w with
  | nil => cases h
  | cons call calls ih =>
      obtain ⟨value, w', hrun, rfl | h⟩ := mem_steps_cons h
      · exact hrun
      · exact ih h

/-- A property `A` that a call establishes under the condition `C` only.  What the next call
starts from, `P`, is there as long as `A` is.  The two are different where `A` is about the
state and `P` has further conditions on it that nothing breaks. -/
theorem forall_steps_iff_of {P A : ω → Prop} {C : ι → ω → Prop}
    (hiff : ∀ call w value w', P w → run call w = (.ret value, w') →
      (A w' ↔ C call w) ∧ (A w' → P w')) (h : P w) :
    (∀ step ∈ steps run calls w, A step.after) ↔ ∀ step ∈ steps run calls w, C step.call step.before := by
  induction calls generalizing w with
  | nil => exact iff_of_true (fun step hstep => nomatch hstep) fun step hstep => nomatch hstep
  | cons call calls ih =>
      rcases hrun : run call w with ⟨value | why, w'⟩
      · rw [steps_cons_of_ret hrun, List.forall_mem_cons, List.forall_mem_cons]
        obtain ⟨hcall, hkeep⟩ := hiff call w value w' h hrun
        by_cases hnext : A w'
        · rw [ih (hkeep hnext)]
          exact and_congr_left fun _ => hcall
        · exact iff_of_false (fun hall => hnext hall.1) fun hall => hnext (hcall.mpr hall.1)
      · have hnil : steps run (call :: calls) w = [] := by rw [steps, hrun]
        rw [hnil]
        exact iff_of_true (fun step hstep => nomatch hstep) fun step hstep => nomatch hstep

/-- The same of a property that the next call starts from. -/
theorem forall_steps_iff {P : ω → Prop} {C : ι → ω → Prop}
    (hiff : ∀ call w value w', P w → run call w = (.ret value, w') → (P w' ↔ C call w)) (h : P w) :
    (∀ step ∈ steps run calls w, P step.after) ↔ ∀ step ∈ steps run calls w, C step.call step.before :=
  forall_steps_iff_of (fun call w value w' hw hrun => ⟨hiff call w value w' hw hrun, id⟩) h

end Imperative.Prog
