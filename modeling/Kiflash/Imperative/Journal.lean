import Kiflash.Imperative.Prog
import Mathlib.Data.Set.Basic

/-!
# Failures that are not swallowed

A program keeps a journal: entries are appended to it and never removed.  Some entries are
failures, and some do harm.  This module is about programs with status returns whose steps
leave such entries, and about the question whether a failure in the journal shows in the
status.

* `Journal.Heeds` — the run ends with the first failure in its journal: its outcome says so,
  and no harmful entry follows.
* `Journal.Blames` — the way back: a bad status has a failure in the journal behind it.
* `Journal.givesUp_iff` — with both, the outcome tells exactly whether an entry failed.
* `Journal.StopsShort` — a program gives up, and has done no harm.
* `Journal.Opens` — the part of a program in front of its first harmful entry, which decides
  this.

### The idiom, and where it is broken

Code with status returns heeds its failures as long as it checks every status.  The rules for
`Journal.HeedsFrom` follow that idiom construct by construct, so that a proof about such code
only has to look at the places where a status is dropped.  `excused` are the states from which
such a place starts; what fails behind it counts as excused, and nothing else does.

`excused` is an argument of the notion and not of the rules: a function without such places is
proved to heed its failures for *every* `excused`, and can then be used in the proof of a
function that has them.

### What a dropped status costs

A failure that is swallowed does no harm if the program is about to give up anyway.
`Journal.StopsShort` says this of the rest of the program.  It cannot be read off the journal,
since the rest may do anything; but it is decided by the part in front of the next harmful
entry, and `Journal.Opens` has the rules to find that part.
-/

namespace Imperative.Prog

variable {ω ε S ι α : Type} [StatusCode S]

/-- The entries of a state, and those that are failures or do harm.  An entry can be both: a
write that fails may have been carried out. -/
structure Journal (ω ε : Type) where
  entries : ω → List ε
  failed : Set ε
  harmful : Set ε

/-- The outcome of a program that notices a failure: its status says so, or the run has left
the bounds of an array and means nothing.  A run that spins does *not* give up. -/
def GivesUp (outcome : Outcome S) : Prop :=
  (∃ status, outcome = .ret status ∧ status ≠ StatusCode.ok) ∨ outcome = .stop .wild

/-- A program that returns the good status has not given up. -/
theorem not_givesUp_ok : ¬ GivesUp (.ret StatusCode.ok : Outcome S) := by
  rintro (⟨status, hret, hne⟩ | hwild)
  · exact hne (Outcome.ret.inj hret).symm
  · exact nomatch hwild

/-- Any other status is a way of giving up. -/
theorem givesUp_of_ne {status : S} (h : status ≠ StatusCode.ok) : GivesUp (.ret status) :=
  .inl ⟨status, rfl, h⟩

/-- A sequence gives up in its first part, or behind it.  A first part that returns another
status makes the sequence fail, and one that stops makes it stop. -/
theorem givesUp_check_iff [DecidableEq S] {m k : Prog ω S} {w : ω} :
    GivesUp (check m k w).1 ↔
      GivesUp (m w).1 ∨ ∃ w₁, m w = (.ret StatusCode.ok, w₁) ∧ GivesUp (k w₁).1 := by
  rcases hrun : m w with ⟨status | why, w₁⟩
  · by_cases hok : status = StatusCode.ok
    · subst hok
      rw [check_of_ok hrun]
      refine ⟨fun h => .inr ⟨w₁, rfl, h⟩, ?_⟩
      rintro (h | ⟨_, hret, h⟩)
      · exact absurd h not_givesUp_ok
      · cases hret
        exact h
    · rw [check_of_ne hrun hok]
      exact iff_of_true (givesUp_of_ne StatusCode.fail_ne_ok) (.inl (givesUp_of_ne hok))
  · rw [check, bind_of_stop hrun]
    refine ⟨.inl, ?_⟩
    rintro (h | ⟨_, hret, -⟩)
    · exact h
    · cases hret

/-- A counted loop gives up where one of its rounds does.  The rounds are those that take place,
so all of them in front of this one have gone well. -/
theorem givesUp_checkLoop [DecidableEq S] {body : ι → Prog ω S} {next : ι → ι} {n : ℕ} {i : ι}
    {w : ω} {v : ι × ω} (hv : v ∈ checkVisits body next n i w) (h : GivesUp (body v.1 v.2).1) :
    GivesUp (checkLoop body next n i w).1 := by
  induction n generalizing i w with
  | zero => cases hv
  | succ n ih =>
      rcases mem_checkVisits_succ.mp hv with rfl | ⟨w₁, hbody, hv⟩
      · exact givesUp_check_iff.mpr (.inl h)
      · exact givesUp_check_iff.mpr (.inr ⟨w₁, hbody, ih hv⟩)

namespace Journal

variable (J : Journal ω ε)

/-- The run has appended entries of `E` only.  With `Set.univ` for `E` it says no more than
that the journal has grown. -/
def Appends (E : Set ε) (w w' : ω) : Prop :=
  ∃ es, J.entries w' = J.entries w ++ es ∧ ∀ e ∈ es, e ∈ E

/-- The entries that neither fail nor do harm.  A step that adds only these can stand anywhere
in a run that heeds its failures. -/
def harmless : Set ε := {e | e ∉ J.failed ∧ e ∉ J.harmful}

/-- At a failure among the entries of the run, it gives up and does no more harm, or the
failure is behind an excused state.  Harm is looked for behind the failed entry: what was
written before it is not the matter of this notion. -/
def Heeds (excused : ω → Prop) (w : ω) (outcome : Outcome S) (w' : ω) : Prop :=
  ∃ es, J.entries w' = J.entries w ++ es ∧ ∀ pre e post, es = pre ++ e :: post → e ∈ J.failed →
    (GivesUp outcome ∧ ∀ e' ∈ post, e' ∉ J.harmful) ∨
      ∃ w₁, excused w₁ ∧ J.entries w₁ <+: J.entries w ++ pre

/-- The program heeds its failures when it is run from `w`.  The state is an argument, because
the excused states of a call depend on where it starts. -/
def HeedsFrom (excused : ω → Prop) (m : Prog ω S) (w : ω) : Prop :=
  J.Heeds excused w (m w).1 (m w).2

end Journal

/-- An entry of two appended lists is in the first or in the second.  All rules for sequences
split the journal of the whole run with it. -/
theorem append_eq_append_cons {es₁ es₂ pre post : List ε} {e : ε}
    (h : es₁ ++ es₂ = pre ++ e :: post) :
    (∃ post₁, es₁ = pre ++ e :: post₁ ∧ post = post₁ ++ es₂) ∨
      ∃ pre₂, pre = es₁ ++ pre₂ ∧ es₂ = pre₂ ++ e :: post := by
  rcases List.append_eq_append_iff.mp h with ⟨pre₂, hpre, hes₂⟩ | ⟨rest, hes₁, hrest⟩
  · exact .inr ⟨pre₂, hpre, hes₂⟩
  · cases rest with
    | nil =>
        refine .inr ⟨[], ?_, by simpa using hrest.symm⟩
        simpa using hes₁.symm
    | cons e' post₁ =>
        rw [List.cons_append, List.cons.injEq] at hrest
        obtain ⟨rfl, hpost⟩ := hrest
        exact .inl ⟨post₁, hes₁, hpost⟩

section Rules

variable {J : Journal ω ε} {excused : ω → Prop} {w w₁ w' : ω} {outcome : Outcome S}

/-- A run whose entries are harmless has nothing to heed. -/
theorem Journal.Heeds.of_appends (h : J.Appends J.harmless w w') : J.Heeds excused w outcome w' := by
  obtain ⟨es, hes, hharmless⟩ := h
  refine ⟨es, hes, fun pre e post hsplit hfailed => ?_⟩
  exact absurd hfailed (hharmless e (by rw [hsplit]; simp)).1

/-- Behind a part that went well, the rest of the run decides.  A failure in the first part
would have made it give up, so an unexcused one is not there. -/
theorem Journal.Heeds.trans (h : J.Heeds excused w (.ret (StatusCode.ok : S)) w₁)
    (h' : J.Heeds excused w₁ outcome w') : J.Heeds excused w outcome w' := by
  obtain ⟨es, hes, hheeds⟩ := h
  obtain ⟨es', hes', hheeds'⟩ := h'
  refine ⟨es ++ es', by rw [hes', hes, List.append_assoc], fun pre e post hsplit hfailed => ?_⟩
  rcases append_eq_append_cons hsplit with ⟨post₁, hpre, -⟩ | ⟨pre₂, rfl, hpre₂⟩
  · rcases hheeds pre e post₁ hpre hfailed with ⟨hgives, -⟩ | hexcused
    · exact absurd hgives not_givesUp_ok
    · exact .inr hexcused
  · rcases hheeds' pre₂ e post hpre₂ hfailed with hgives | ⟨w₂, hw₂, hprefix⟩
    · exact .inl hgives
    · refine .inr ⟨w₂, hw₂, ?_⟩
      rwa [hes, List.append_assoc] at hprefix

/-- Harmless entries in front of a run, or behind one that gives up. -/
theorem Journal.Heeds.of_appends_left (h : J.Appends J.harmless w w₁)
    (h' : J.Heeds excused w₁ outcome w') : J.Heeds excused w outcome w' :=
  Journal.Heeds.trans (S := S) (.of_appends h) h'

/-- Harmless entries behind a run: it may also make a worse outcome of what it was given, but
not a better one. -/
theorem Journal.Heeds.append_right {outcome' : Outcome S} (h : J.Heeds excused w outcome w₁)
    (h' : J.Appends J.harmless w₁ w') (hgives : GivesUp outcome → GivesUp outcome') :
    J.Heeds excused w outcome' w' := by
  obtain ⟨es, hes, hheeds⟩ := h
  obtain ⟨es', hes', hharmless⟩ := h'
  refine ⟨es ++ es', by rw [hes', hes, List.append_assoc], fun pre e post hsplit hfailed => ?_⟩
  rcases append_eq_append_cons hsplit with ⟨post₁, hpre, rfl⟩ | ⟨pre₂, -, hpre₂⟩
  · refine (hheeds pre e post₁ hpre hfailed).imp_left fun h => ⟨hgives h.1, fun e' he' => ?_⟩
    exact (List.mem_append.mp he').elim (h.2 e') fun he' => (hharmless e' he').2
  · exact absurd hfailed (hharmless e (by rw [hpre₂]; simp)).1

/-- A first part that is read for its result, and does nothing to heed. -/
theorem Journal.HeedsFrom.bind {m : Prog ω α} {f : α → Prog ω S}
    (hm : J.Appends J.harmless w (m w).2)
    (hf : ∀ a w₁, m w = (.ret a, w₁) → J.HeedsFrom excused (f a) w₁) :
    J.HeedsFrom excused (m >>= f) w := by
  rcases hrun : m w with ⟨a | why, w₁⟩ <;> rw [hrun] at hm
  · rw [HeedsFrom, bind_of_ret hrun]
    exact .of_appends_left hm (hf a w₁ hrun)
  · have hstop : (m >>= f) w = (.stop why, w₁) := by
      change andThen m f w = _
      simp [andThen, hrun]
    rw [HeedsFrom, hstop]
    exact .of_appends hm

/-- A first part whose status `f` acts on: it goes on behind a success, and gives up
otherwise.  `check` is the usual `f`; code that tidies up before it returns the failure is
another. -/
theorem Journal.HeedsFrom.seq {m : Prog ω S} {f : S → Prog ω S} (hm : J.HeedsFrom excused m w)
    (hok : ∀ w₁, m w = (.ret StatusCode.ok, w₁) → J.HeedsFrom excused (f StatusCode.ok) w₁)
    (hno : ∀ status w₁, status ≠ StatusCode.ok →
      GivesUp (f status w₁).1 ∧ J.Appends J.harmless w₁ (f status w₁).2) :
    J.HeedsFrom excused (m >>= f) w := by
  rcases hrun : m w with ⟨status | why, w₁⟩ <;> rw [HeedsFrom, hrun] at hm
  · rw [HeedsFrom, bind_of_ret hrun]
    by_cases hs : status = StatusCode.ok
    · subst hs
      exact hm.trans (hok w₁ hrun)
    · obtain ⟨hgives, happends⟩ := hno status w₁ hs
      exact hm.append_right happends fun _ => hgives
  · have hstop : (m >>= f) w = (.stop why, w₁) := by
      change andThen m f w = _
      simp [andThen, hrun]
    rw [HeedsFrom, hstop]
    exact hm

/-- A program that does nothing has nothing to heed, whatever it returns. -/
theorem Journal.HeedsFrom.pure (status : S) : J.HeedsFrom excused (Pure.pure status) w :=
  .of_appends ⟨[], by simp [Pure.pure], by simp⟩

/-- The idiom itself: the next step is reached through a success only, and a failure is
returned at once. -/
theorem Journal.HeedsFrom.check [DecidableEq S] {m k : Prog ω S} (hm : J.HeedsFrom excused m w)
    (hk : ∀ w₁, m w = (.ret StatusCode.ok, w₁) → J.HeedsFrom excused k w₁) :
    J.HeedsFrom excused (Prog.check m k) w := by
  refine hm.seq (fun w₁ hrun => ?_) fun status w₁ hs => ?_
  · rw [if_pos rfl]
    exact hk w₁ hrun
  · rw [if_neg hs]
    exact ⟨givesUp_of_ne StatusCode.fail_ne_ok, [], by simp [Pure.pure], by simp⟩

theorem Journal.HeedsFrom.ite {c : Prop} [Decidable c] {m k : Prog ω S}
    (hm : J.HeedsFrom excused m w) (hk : J.HeedsFrom excused k w) :
    J.HeedsFrom excused (if c then m else k) w := by
  split
  · exact hm
  · exact hk

/-- A counted loop, by the rounds it goes through.  The rounds are given with their states, so
that a round from an excused state can be told from the others. -/
theorem Journal.HeedsFrom.checkLoop [DecidableEq S] {body : ι → Prog ω S} {next : ι → ι} {n : ℕ}
    {i : ι}
    (h : ∀ v ∈ checkVisits body next n i w, J.HeedsFrom excused (body v.1) v.2) :
    J.HeedsFrom excused (Prog.checkLoop body next n i) w := by
  induction n generalizing i w with
  | zero => exact .pure _
  | succ n ih =>
      refine .check (h _ (mem_checkVisits_succ.mpr (.inl rfl))) fun w₁ hbody => ih fun v hv => ?_
      exact h v (mem_checkVisits_succ.mpr (.inr ⟨w₁, hbody, hv⟩))

end Rules

/-! ## Where a failure comes from

`HeedsFrom` leads from a failed entry to the status.  `Blames` is the way back: the status tells
of a failed entry.  It needs an invariant of the states, since code with status returns may keep
errors in a variable as well, and report one that was there before. -/

/-- A status other than the good one comes with a failed entry of the run; the run ends in `I`
whatever it returns.  The invariant is a part of the notion, since otherwise a sequence could
not use it. -/
def Journal.BlamesFrom (J : Journal ω ε) (I : ω → Prop) (m : Prog ω S) (w : ω) : Prop :=
  wp m (fun status w' => I w' ∧ ∃ es, J.entries w' = J.entries w ++ es ∧
    (status ≠ StatusCode.ok → ∃ e ∈ es, e ∈ J.failed)) (fun _ _ => True) w

/-- The program blames its failed entries from every state of `I`: where it gives up, one of
them is the reason. -/
def Journal.Blames (J : Journal ω ε) (I : ω → Prop) (m : Prog ω S) : Prop :=
  ∀ w, I w → J.BlamesFrom I m w

/-- An entry of the run of `m` from `w` is a failure.  This is about the entries alone: the
program may or may not notice. -/
def Journal.FailsIn (J : Journal ω ε) (m : Prog ω α) (w : ω) : Prop :=
  ∃ es, J.entries (m w).2 = J.entries w ++ es ∧ ∃ e ∈ es, e ∈ J.failed

section Blames

variable {J : Journal ω ε} {I : ω → Prop} {w : ω}

/-- The good status blames nothing. -/
theorem Journal.BlamesFrom.pure_ok (hw : I w) :
    J.BlamesFrom I (Pure.pure StatusCode.ok : Prog ω S) w :=
  ⟨hw, [], (List.append_nil _).symm, fun hne => absurd rfl hne⟩

/-- A first part that returns no status: it stays in `I`, and what it records does not matter. -/
theorem Journal.BlamesFrom.bind {m : Prog ω α} {f : α → Prog ω S}
    (hm : wp m (fun _ w' => I w' ∧ J.Appends Set.univ w w') (fun _ _ => True) w)
    (hf : ∀ a w', m w = (.ret a, w') → I w' → J.BlamesFrom I (f a) w') :
    J.BlamesFrom I (m >>= f) w := by
  refine wp_bind.mpr ?_
  rcases hrun : m w with ⟨a | why, w₁⟩
  · obtain ⟨hw₁, es, hes, -⟩ := (wp_of_ret hrun).mp hm
    refine (wp_of_ret hrun).mpr (wp_mono (hf a w₁ hrun hw₁) (fun status w₂ h₂ => ?_) fun _ _ => id)
    obtain ⟨hw₂, es', hes', hblames⟩ := h₂
    refine ⟨hw₂, es ++ es', by rw [hes', hes, List.append_assoc], fun hne => ?_⟩
    obtain ⟨e, he, hfailed⟩ := hblames hne
    exact ⟨e, List.mem_append_right es he, hfailed⟩
  · exact (wp_of_stop hrun).mpr trivial

/-- A checked part: if it is the one that fails, the failed entry is among its own, and
otherwise the second part answers for its status. -/
theorem Journal.BlamesFrom.check [DecidableEq S] {m k : Prog ω S} (hm : J.BlamesFrom I m w)
    (hk : ∀ w', m w = (.ret StatusCode.ok, w') → I w' → J.BlamesFrom I k w') :
    J.BlamesFrom I (Prog.check m k) w := by
  rcases hrun : m w with ⟨status | why, w₁⟩
  · obtain ⟨hw₁, es, hes, hblames⟩ := (wp_of_ret hrun).mp hm
    by_cases hok : status = StatusCode.ok
    · subst hok
      refine BlamesFrom.bind ((wp_of_ret hrun).mpr ⟨hw₁, es, hes, fun _ _ => trivial⟩) ?_
      intro status w' hrun' hw'
      cases hrun.symm.trans hrun'
      rw [if_pos rfl]
      exact hk w₁ hrun hw'
    · refine wp_check.mpr ((wp_of_ret hrun).mpr ⟨fun h => absurd h hok, fun _ => ?_⟩)
      exact ⟨hw₁, es, hes, fun _ => hblames hok⟩
  · exact wp_check.mpr ((wp_of_stop hrun).mpr trivial)

/-- A counted loop, by the rounds that take place. -/
theorem Journal.BlamesFrom.checkLoop [DecidableEq S] {body : ι → Prog ω S} {next : ι → ι} {n : ℕ}
    {i : ι} (hw : I w)
    (h : ∀ v ∈ checkVisits body next n i w, I v.2 → J.BlamesFrom I (body v.1) v.2) :
    J.BlamesFrom I (Prog.checkLoop body next n i) w := by
  induction n generalizing i w with
  | zero => exact .pure_ok hw
  | succ n ih =>
      refine .check (h _ (mem_checkVisits_succ.mpr (.inl rfl)) hw) fun w₁ hbody hw₁ =>
        ih hw₁ fun v hv => ?_
      exact h v (mem_checkVisits_succ.mpr (.inr ⟨w₁, hbody, hv⟩))

theorem Journal.Blames.pure_ok : J.Blames I (Pure.pure StatusCode.ok : Prog ω S) :=
  fun _ => .pure_ok

/-- The same rules for programs that blame their failures from every state of `I`. -/
theorem Journal.Blames.bind {m : Prog ω α} {f : α → Prog ω S}
    (hm : ∀ w, I w → wp m (fun _ w' => I w' ∧ J.Appends Set.univ w w') (fun _ _ => True) w)
    (hf : ∀ a, J.Blames I (f a)) : J.Blames I (m >>= f) :=
  fun w hw => .bind (hm w hw) fun a w' _ => hf a w'

theorem Journal.Blames.check [DecidableEq S] {m k : Prog ω S} (hm : J.Blames I m)
    (hk : J.Blames I k) : J.Blames I (Prog.check m k) :=
  fun w hw => (hm w hw).check fun w' _ => hk w'

/-- **A program that heeds its failures and blames nothing else gives up exactly where an
entry fails**, or where it leaves the bounds of an array.  The left side is what a caller
sees, and the right side is what the device did. -/
theorem Journal.givesUp_iff {m : Prog ω S} (hheeds : J.HeedsFrom (fun _ => False) m w)
    (hblames : J.BlamesFrom I m w) :
    GivesUp (m w).1 ↔ J.FailsIn m w ∨ (m w).1 = .stop .wild := by
  constructor
  · rintro (⟨status, hstatus, hne⟩ | hwild)
    · have hrun : m w = (.ret status, (m w).2) := Prod.ext hstatus rfl
      obtain ⟨-, es, hes, hfailed⟩ := (wp_of_ret hrun).mp hblames
      exact .inl ⟨es, hes, hfailed hne⟩
    · exact .inr hwild
  · rintro (⟨es, hes, e, he, hfailed⟩ | hwild)
    · obtain ⟨es', hes', hheeds⟩ := hheeds
      obtain rfl : es = es' := List.append_cancel_left (hes.symm.trans hes')
      obtain ⟨pre, post, hsplit⟩ := List.append_of_mem he
      obtain ⟨hgives, -⟩ | ⟨_, hfalse, -⟩ := hheeds pre e post hsplit hfailed
      · exact hgives
      · exact hfalse.elim
    · exact .inr hwild

end Blames

/-! ## Giving up without harm

A failure that is swallowed does no damage if the program is about to give up anyway.  Whether it
is can be told from the part of the program that lies in front of its next harmful entry. -/

/-- The program gives up, and has done no harm from its first entry on.  It is said of what is
left of a run when a failure has been missed. -/
def Journal.StopsShort (J : Journal ω ε) (m : Prog ω S) (w : ω) : Prop :=
  GivesUp (m w).1 ∧ J.Appends J.harmfulᶜ w (m w).2

/-- `opening` is what `m` does up to its first harmful entry: `m` stops short where `opening`
gives up.  Only its verdict matters, so `opening` may return the good status where `m` goes on
to do harm. -/
structure Journal.Opens (J : Journal ω ε) (opening m : Prog ω S) : Prop where
  grows : ∀ w, J.Appends Set.univ w (m w).2
  iff : ∀ w, J.StopsShort m w ↔ GivesUp (opening w).1

section Opens

variable {J : Journal ω ε} {w w₁ w₂ : ω}

/-- Entries of `E` are entries of every larger set. -/
theorem Journal.Appends.mono {E E' : Set ε} (h : J.Appends E w w₁) (hE : E ⊆ E') :
    J.Appends E' w w₁ :=
  h.imp fun _ h => ⟨h.1, fun e he => hE (h.2 e he)⟩

/-- What two runs append, one behind the other, is in `E` if what each of them appends is. -/
theorem Journal.Appends.trans {E : Set ε} (h : J.Appends E w w₁) (h' : J.Appends E w₁ w₂) :
    J.Appends E w w₂ := by
  obtain ⟨es, hes, hE⟩ := h
  obtain ⟨es', hes', hE'⟩ := h'
  refine ⟨es ++ es', by rw [hes', hes, List.append_assoc], fun e he => ?_⟩
  exact (List.mem_append.mp he).elim (hE e) (hE' e)

/-- Entries of the whole run that are in `E` are so in its last part. -/
theorem Journal.Appends.right {E E' : Set ε} (h : J.Appends E' w w₁)
    (hgrows : J.Appends Set.univ w₁ w₂) (h' : J.Appends E w w₂) : J.Appends E w₁ w₂ := by
  obtain ⟨es, hes, -⟩ := h
  obtain ⟨es₁, hes₁, -⟩ := hgrows
  obtain ⟨es₂, hes₂, hE⟩ := h'
  have hsplit : es₂ = es ++ es₁ := by
    rw [hes₁, hes, List.append_assoc] at hes₂
    exact (List.append_cancel_left hes₂).symm
  exact ⟨es₁, hes₁, fun e he => hE e (hsplit ▸ List.mem_append_right es he)⟩

/-- A part without harm in front does not change whether the rest stops short. -/
theorem Journal.StopsShort.iff_of_appends {m k : Prog ω S} (h : J.Appends J.harmfulᶜ w w₁)
    (hrun : m w = k w₁) (hgrows : J.Appends Set.univ w₁ (k w₁).2) :
    J.StopsShort m w ↔ J.StopsShort k w₁ := by
  rw [StopsShort, hrun]
  exact and_congr_right fun _ => ⟨h.right hgrows, h.trans⟩

/-- A program without harmful entries is its own opening. -/
theorem Journal.Opens.of_harmless {m : Prog ω S} (h : ∀ w, J.Appends J.harmfulᶜ w (m w).2) :
    J.Opens m m :=
  ⟨fun w => (h w).mono (Set.subset_univ _), fun w => and_iff_left (h w)⟩

theorem Journal.Opens.pure (status : S) : J.Opens (Pure.pure status) (Pure.pure status) :=
  .of_harmless fun _ => ⟨[], (List.append_nil _).symm, fun _ he => absurd he List.not_mem_nil⟩

/-- At a harmful entry the opening is over: the program has not stopped short, and an opening
that succeeds says so. -/
theorem Journal.Opens.of_harm {m : Prog ω S} (hgrows : ∀ w, J.Appends Set.univ w (m w).2)
    (h : ∀ w, ¬ J.Appends J.harmfulᶜ w (m w).2) : J.Opens (Pure.pure StatusCode.ok) m :=
  ⟨hgrows, fun w => iff_of_false (fun hshort => h w hshort.2) not_givesUp_ok⟩

/-- A harmless first part belongs to the opening; what it returns, the rest may depend on.
The rule is used for what an opening reads and stores before its first transfer. -/
theorem Journal.Opens.bind {m : Prog ω α} {f g : α → Prog ω S}
    (hm : ∀ w, J.Appends J.harmfulᶜ w (m w).2) (h : ∀ a, J.Opens (f a) (g a)) :
    J.Opens (m >>= f) (m >>= g) := by
  have hboth : ∀ w, J.Appends Set.univ w ((m >>= g) w).2 ∧
      (J.StopsShort (m >>= g) w ↔ GivesUp ((m >>= f) w).1) := by
    intro w
    have hfirst := hm w
    rcases hrun : m w with ⟨a | why, w₁⟩ <;> rw [hrun] at hfirst
    · have hrest := (h a).grows w₁
      rw [bind_of_ret (f := f) hrun]
      refine ⟨?_, ?_⟩
      · rw [bind_of_ret hrun]
        exact (hfirst.mono (Set.subset_univ _)).trans hrest
      · exact (StopsShort.iff_of_appends hfirst (bind_of_ret hrun) hrest).trans ((h a).iff w₁)
    · rw [StopsShort, bind_of_stop (f := g) hrun, bind_of_stop (f := f) hrun]
      exact ⟨hfirst.mono (Set.subset_univ _), and_iff_left hfirst⟩
  exact ⟨fun w => (hboth w).1, fun w => (hboth w).2⟩

/-- The same of a checked first part, whose failure is a failure of the opening. -/
theorem Journal.Opens.check [DecidableEq S] {m k o : Prog ω S}
    (hm : ∀ w, J.Appends J.harmfulᶜ w (m w).2) (h : J.Opens o k) :
    J.Opens (Prog.check m o) (Prog.check m k) := by
  refine .bind hm fun status => ?_
  by_cases hok : status = StatusCode.ok
  · rw [if_pos hok, if_pos hok]
    exact h
  · rw [if_neg hok, if_neg hok]
    exact .pure _

/-- The opening is the whole first part, if harm follows wherever that part succeeds.  This is
how a list of preparations in front of a command becomes an opening. -/
theorem Journal.Opens.seq {m : Prog ω S} {f : S → Prog ω S}
    (hm : ∀ w, J.Appends J.harmfulᶜ w (m w).2)
    (hok : J.Opens (Pure.pure StatusCode.ok) (f StatusCode.ok))
    (hno : ∀ status, status ≠ StatusCode.ok → ∀ w, J.StopsShort (f status) w) :
    J.Opens m (m >>= f) := by
  have hopens : J.Opens (m >>= Pure.pure) (m >>= f) := by
    refine .bind hm fun status => ?_
    by_cases h : status = StatusCode.ok
    · rw [h]
      exact hok
    · exact ⟨fun w => (hno status h w).2.mono (Set.subset_univ _),
        fun w => iff_of_true (hno status h w) (givesUp_of_ne h)⟩
  rwa [bind_pure] at hopens

/-- A program that only returns a failure stops short. -/
theorem Journal.StopsShort.pure {status : S} (h : status ≠ StatusCode.ok) :
    J.StopsShort (Pure.pure status) w :=
  ⟨givesUp_of_ne h, [], (List.append_nil _).symm, fun _ he => absurd he List.not_mem_nil⟩

end Opens

end Imperative.Prog
