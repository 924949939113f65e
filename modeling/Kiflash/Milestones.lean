import Kiflash.Blank
import Kiflash.Progress
import Kiflash.Writing
import Kiflash.Imperative.History

/-!
# What the percentage promises

Six functions store to `FlashData.percentage` in a run of `kiflash_program_user`, two of them
a fraction of their page count.  To a client the percentage is a promise: it only climbs, from
60 on the image is programmed, and at 100 it is verified.

* `Honest` — the record of a run keeps the promise.
* `Climbed` — it does, and nothing above a level has been stored; a store at or above the
  level raises it.
* `pageLoop_climbs` — the page reports of an image function climb through their forty percent.
* `kiflashProgramUser_honest` — a run with an image that 32-bit offsets reach is honest,
  whatever comes of its erases, page programs and page reads.
* `kiflashProgramUser_honest_iff` — and of every greater length there is an image whose run is
  not: `zeroTailed`.

### Levels

Each function stores its values without looking at what is there, so that a run climbs is a
matter of the order of the calls.  `Upto file w₀ level w` says that the record since `w₀` is
honest and has nothing above `level`.  It goes from one level to the next with each part of
the code, and a store needs a warrant: that it is not below the level, and that what it
promises has been done.

### What a page program is to the record

The promise of 60 is about frames that the flash has accepted, with the bytes of the file in
them.  It is read off the record, so it does not depend on what the flash made of the frames;
for the same reason `kiflashProgramUser_honest` needs no assumption on the bus.

### Longer images

An image of more than `2 ^ 32` bytes has bytes that no 32-bit offset reaches, and no frame can
contain them.  `zeroTailed` is blank as far as the offsets go, so that programming and
verifying succeed on a blank flash, and zero behind.  The program of the first page behind
them would have a zero in front, and no page program of the run has.
-/

open Imperative Imperative.Prog

namespace Kiflash

/-! ## The promise -/

section Honest

variable {σ : Type} {file : File} {es es' : List (Event σ)} {e : Event σ} {level p : UInt32}

/-- The value of a store to the percentage. -/
def Event.percentage? : Event σ → Option UInt32
  | percentage value => some value
  | _ => none

/-- The values stored to the percentage, in their order.  A poll finds the last of them. -/
def stores (es : List (Event σ)) : List UInt32 := es.filterMap Event.percentage?

/-- The flash has accepted the program of page `j` of the file, into the user region.  Behind
the end of the file the page may have anything. -/
def PageProgrammed (file : File) (j : ℕ) (es : List (Event σ)) : Prop :=
  ∃ before page,
    .transfer before (writeFrame command4bytePageProgram
      (UInt32.ofNat (256 * j) + Region.user.baseAddr) pageSize page) (some .success) ∈ es ∧
    ∀ k < 256, ∀ h : 256 * j + k < file.contents.length, page k = file.contents[256 * j + k]

/-- The flash has accepted every page of the file.  A page is accepted when its program
command has returned success. -/
def AllProgrammed (file : File) (es : List (Event σ)) : Prop :=
  ∀ j, 256 * j < file.contents.length → PageProgrammed file j es

/-- The stores climb within 100; those from 60 on come behind the programs of all pages,
and a 100 behind a verification that passed. -/
structure Honest (file : File) (es : List (Event σ)) : Prop where
  climbs : (stores es).Pairwise (· ≤ ·)
  le_hundred : ∀ p ∈ stores es, p ≤ 100
  programmed : Throughout
    (fun past e => ∀ p, e = .percentage p → 60 ≤ p → AllProgrammed file past) es
  verified : Throughout (fun past e => e = .percentage 100 → .verifyPassed ∈ past) es

/-- What has been recorded stays recorded. -/
theorem PageProgrammed.mono {j : ℕ} (h : PageProgrammed file j es) (hes : es ⊆ es') :
    PageProgrammed file j es' := by
  obtain ⟨before, page, hmem, hpage⟩ := h
  exact ⟨before, page, hes hmem, hpage⟩

/-- For all pages. -/
theorem AllProgrammed.mono (h : AllProgrammed file es) (hes : es ⊆ es') :
    AllProgrammed file es' :=
  fun j hj => (h j hj).mono hes

/-- The stores are those of the record. -/
theorem mem_stores : p ∈ stores es ↔ .percentage p ∈ es := by
  rw [stores, List.mem_filterMap]
  constructor
  · rintro ⟨e, he, hp⟩
    cases e with
    | percentage value =>
        cases hp
        exact he
    | _ => cases hp
  · exact fun h => ⟨_, h, rfl⟩

/-- Stores in two parts. -/
theorem stores_append : stores (es ++ es') = stores es ++ stores es' := List.filterMap_append

/-- The events that store nothing to the percentage.  Most stages have no others. -/
def storeless : Set (Event σ) := {e | ∀ p, e ≠ .percentage p}

theorem stores_of_storeless (h : ∀ e ∈ es, e ∈ (storeless : Set (Event σ))) : stores es = [] :=
  List.eq_nil_iff_forall_not_mem.mpr fun p hp => h _ (mem_stores.mp hp) p rfl

/-- The record is honest, and nothing above `level` has been stored.  It is the invariant of a
run, and the level rises from stage to stage. -/
structure Climbed (file : File) (level : UInt32) (es : List (Event σ)) : Prop where
  honest : Honest file es
  le_level : ∀ p ∈ stores es, p ≤ level

/-- Nothing has been promised yet. -/
theorem climbed_nil (file : File) (level : UInt32) : Climbed file level ([] : List (Event σ)) where
  honest :=
    ⟨List.Pairwise.nil, fun _ h => absurd h List.not_mem_nil, throughout_nil, throughout_nil⟩
  le_level := fun _ h => absurd h List.not_mem_nil

/-- A level may be raised without a store. -/
theorem Climbed.mono (h : Climbed file level es) (hle : level ≤ p) : Climbed file p es :=
  ⟨h.honest, fun q hq => UInt32.le_trans (h.le_level q hq) hle⟩

/-- Events without a store neither promise anything nor take anything back.  A prefix with
such a store ends in front of them. -/
theorem Climbed.append_storeless (h : Climbed file level es)
    (hes' : ∀ e ∈ es', e ∈ (storeless : Set (Event σ))) : Climbed file level (es ++ es') := by
  have hstores : stores (es ++ es') = stores es := by
    rw [stores_append, stores_of_storeless hes', List.append_nil]
  refine ⟨⟨?_, ?_, ?_, ?_⟩, ?_⟩
  · rw [hstores]
    exact h.honest.climbs
  · rw [hstores]
    exact h.honest.le_hundred
  · exact (throughout_append_iff fun _ e he p heq => absurd heq (hes' e he p)).mpr
      h.honest.programmed
  · exact (throughout_append_iff fun _ e he heq => absurd heq (hes' e he 100)).mpr
      h.honest.verified
  · rw [hstores]
    exact h.le_level

/-- A store may raise the level, if what it promises has been done: from 60 on the pages, at
100 the verification. -/
structure Warranted (file : File) (level p : UInt32) (es : List (Event σ)) : Prop where
  le : level ≤ p
  le_hundred : p ≤ 100
  programmed : 60 ≤ p → AllProgrammed file es
  verified : p = 100 → .verifyPassed ∈ es

/-- A warranted store raises the level to its value.  What is promised at the new level is
promised of the whole record, so it must hold when the store is made. -/
theorem Climbed.concat (h : Climbed file level es) (hp : Warranted file level p es) :
    Climbed file p (es ++ [.percentage p]) := by
  have hstores : stores (es ++ [.percentage p]) = stores es ++ [p] := stores_append
  have hle : ∀ q ∈ stores es, q ≤ p := fun q hq => UInt32.le_trans (h.le_level q hq) hp.le
  refine ⟨⟨?_, ?_, ?_, ?_⟩, ?_⟩
  · rw [hstores, List.pairwise_append]
    refine ⟨h.honest.climbs, List.pairwise_singleton _ _, fun q hq r hr => ?_⟩
    rw [List.mem_singleton.mp hr]
    exact hle q hq
  · rw [hstores]
    intro q hq
    rcases List.mem_append.mp hq with hq | hq
    · exact h.honest.le_hundred q hq
    · rw [List.mem_singleton.mp hq]
      exact hp.le_hundred
  · refine throughout_concat.mpr ⟨h.honest.programmed, fun q hq hsixty => ?_⟩
    cases hq
    exact hp.programmed hsixty
  · refine throughout_concat.mpr ⟨h.honest.verified, fun hq => ?_⟩
    cases hq
    exact hp.verified rfl
  · rw [hstores]
    intro q hq
    rcases List.mem_append.mp hq with hq | hq
    · exact hle q hq
    · rw [List.mem_singleton.mp hq]
      exact UInt32.le_refl p

/-- The events that store nothing but `p`, as the stages of `program_user` do. -/
def storing (p : UInt32) : Set (Event σ) := {e | ∀ q, e = .percentage q → q = p}

/-- One value stored any number of times.  The first of them is warranted, and the others
promise no more than it does. -/
theorem Climbed.append_storing (h : Climbed file level es) (hp : Warranted file level p es)
    (hes' : ∀ e ∈ es', e ∈ (storing p : Set (Event σ))) : Climbed file p (es ++ es') := by
  induction es' using List.reverseRecOn with
  | nil =>
      rw [List.append_nil]
      exact h.mono hp.le
  | append_singleton es' e ih =>
      have hbefore := ih fun e' he' => hes' e' (List.mem_append_left _ he')
      have hlast : e ∈ (storing p : Set (Event σ)) := hes' e (by simp)
      rw [← List.append_assoc]
      by_cases hstore : e = .percentage p
      · subst hstore
        exact hbefore.concat ⟨UInt32.le_refl p, hp.le_hundred,
          fun hsixty => (hp.programmed hsixty).mono (List.subset_append_left _ _),
          fun hhundred => List.mem_append_left _ (hp.verified hhundred)⟩
      · refine hbefore.append_storeless fun e' he' q heq => hstore ?_
        rw [List.mem_singleton.mp he'] at heq
        rw [heq, hlast q heq]

end Honest

/-! ## The page reports -/

section Reported

variable {base n m : ℕ} {totalPage : UInt32}

/-- The part of the image that is done when `n` pages are left.  It is a rational number, as
the source computes with doubles. -/
def share (totalPage : UInt32) (n : ℕ) : ℚ := ((totalPage.toNat : ℚ) - n) / totalPage.toNat

/-- The part that is done lies between nothing and all. -/
theorem share_nonneg (h : n ≤ totalPage.toNat) : 0 ≤ share totalPage n := by
  have hn : (n : ℚ) ≤ totalPage.toNat := by exact_mod_cast h
  exact div_nonneg (by linarith) (Nat.cast_nonneg _)

theorem share_le_one (totalPage : UInt32) (n : ℕ) : share totalPage n ≤ 1 := by
  have hn : (0 : ℚ) ≤ n := Nat.cast_nonneg _
  exact div_le_one_of_le₀ (by linarith) (Nat.cast_nonneg _)

/-- It is not all before the last page. -/
theorem share_lt_one (h : n ≤ totalPage.toNat) (hpos : 0 < n) : share totalPage n < 1 := by
  have hn : (0 : ℚ) < n := by exact_mod_cast hpos
  have htotal : (0 : ℚ) < totalPage.toNat := by exact_mod_cast hpos.trans_le h
  rw [share, div_lt_one htotal]
  linarith

/-- It grows as the pages left become fewer. -/
theorem share_le_share (totalPage : UInt32) (h : m ≤ n) :
    share totalPage n ≤ share totalPage m := by
  have hmn : (m : ℚ) ≤ n := by exact_mod_cast h
  exact div_le_div_of_nonneg_right (by linarith) (Nat.cast_nonneg _)

/-- A report is the base and forty percent of the share, rounded down.  The sum stays below
100, so nothing is cut off by the conversion. -/
theorem reported_toNat (hbase : base ≤ 60) (hpages : totalPage.toNat < 2 ^ 31)
    (h : n ≤ totalPage.toNat) :
    (reported base totalPage (UInt32.ofNat n)).toNat = ⌊(base : ℚ) + share totalPage n * 40⌋₊ := by
  have hn : (UInt32.ofNat n).toNat = n := by
    rw [UInt32.toNat_ofNat', Nat.mod_eq_of_lt (by omega)]
  have hbase' : (base : ℚ) ≤ 60 := by exact_mod_cast hbase
  have hbase₀ : (0 : ℚ) ≤ base := Nat.cast_nonneg _
  have hcur : curPercentage totalPage (UInt32.ofNat n) = share totalPage n * 100 := by
    rw [curPercentage, intToDouble_of_lt hpages, intToDouble_of_lt (by omega), hn, share]
  have hreport : (base : ℚ) + curPercentage totalPage (UInt32.ofNat n) * 40 / 100 =
      base + share totalPage n * 40 := by
    rw [hcur]
    ring
  have hnonneg := share_nonneg h
  have hone := share_le_one totalPage n
  rw [reported, hreport, doubleToU32_toNat (by linarith) (by linarith)]

/-- The reports climb as the pages left become fewer. -/
theorem reported_le_reported (hbase : base ≤ 60) (hpages : totalPage.toNat < 2 ^ 31)
    (h : n ≤ totalPage.toNat) (hmn : m ≤ n) :
    reported base totalPage (UInt32.ofNat n) ≤ reported base totalPage (UInt32.ofNat m) := by
  rw [UInt32.le_iff_toNat_le, reported_toNat hbase hpages h,
    reported_toNat hbase hpages (hmn.trans h)]
  have hshare := share_le_share totalPage hmn
  exact Nat.floor_mono (by linarith)

/-- A report is at least the base of its function. -/
theorem le_reported (hbase : base ≤ 60) (hpages : totalPage.toNat < 2 ^ 31)
    (h : n ≤ totalPage.toNat) :
    base ≤ (reported base totalPage (UInt32.ofNat n)).toNat := by
  rw [reported_toNat hbase hpages h]
  have hshare := share_nonneg h
  exact Nat.le_floor (by linarith)

/-- It is at most forty percent above it. -/
theorem reported_le (hbase : base ≤ 60) (hpages : totalPage.toNat < 2 ^ 31)
    (h : n ≤ totalPage.toNat) :
    (reported base totalPage (UInt32.ofNat n)).toNat ≤ base + 40 := by
  rw [reported_toNat hbase hpages h]
  have hshare := share_le_one totalPage n
  refine Nat.floor_le_of_le ?_
  push_cast
  linarith

/-- The forty percent are not full before the last page is done. -/
theorem reported_lt (hbase : base ≤ 60) (hpages : totalPage.toNat < 2 ^ 31)
    (h : n ≤ totalPage.toNat) (hpos : 0 < n) :
    (reported base totalPage (UInt32.ofNat n)).toNat < base + 40 := by
  rw [reported_toNat hbase hpages h]
  have hnonneg := share_nonneg h
  have hshare := share_lt_one h hpos
  have hbase₀ : (0 : ℚ) ≤ base := Nat.cast_nonneg _
  rw [Nat.floor_lt (by linarith)]
  push_cast
  linarith

end Reported

/-! ## Runs -/

section Upto

variable {σ : Type} {env : Env} {file : File} {w₀ w w' : World σ} {level p : UInt32}
variable {E E' : Set (Event σ)}

theorem Emits.newEvents_subset (h : Emits E w₀ w) (h' : Emits E' w w') :
    newEvents w₀ w ⊆ newEvents w₀ w' := by
  obtain ⟨es, hes, -⟩ := h'
  rw [newEvents_append h.grows hes]
  exact List.subset_append_left _ _

/-- The record since `w₀` has climbed to `level`.  Each stage takes such a state to one with a
higher level. -/
structure Upto (file : File) (w₀ : World σ) (level : UInt32) (w : World σ) : Prop where
  later : Emits Set.univ w₀ w
  climbed : Climbed file level (newEvents w₀ w)

/-- A record begins honest. -/
theorem upto_refl (file : File) (w₀ : World σ) (level : UInt32) : Upto file w₀ level w₀ := by
  refine ⟨refl_of _ w₀, ?_⟩
  rw [newEvents, List.drop_length]
  exact climbed_nil file level

/-- A level may be raised. -/
theorem Upto.mono (h : Upto file w₀ level w) (hle : level ≤ p) : Upto file w₀ p w :=
  ⟨h.later, h.climbed.mono hle⟩

/-- A part without stores. -/
theorem Upto.storeless (h : Upto file w₀ level w) (he : Emits storeless w w') :
    Upto file w₀ level w' := by
  refine ⟨trans_of _ h.later (he.mono (Set.subset_univ _)), ?_⟩
  obtain ⟨es, hes, hstoreless⟩ := he
  rw [newEvents_append h.later.grows hes]
  exact h.climbed.append_storeless hstoreless

/-- A part that stores one value. -/
theorem Upto.storing (h : Upto file w₀ level w) (hp : Warranted file level p (newEvents w₀ w))
    (he : Emits (storing p) w w') : Upto file w₀ p w' := by
  refine ⟨trans_of _ h.later (he.mono (Set.subset_univ _)), ?_⟩
  obtain ⟨es, hes, hstoring⟩ := he
  rw [newEvents_append h.later.grows hes]
  exact h.climbed.append_storing hp hstoring

theorem transfers_storeless : Transfers (storeless : Set (Event σ)) := fun _ _ _ _ h => nomatch h

theorem transfers_storing : Transfers (storing p : Set (Event σ)) := fun _ _ _ _ h => nomatch h

theorem percentage_storing : (.percentage p : Event σ) ∈ (storing p : Set (Event σ)) :=
  fun _ h => (Event.percentage.inj h).symm

theorem setPercentage_storing : Moves (Emits (storing p)) (setPercentage (σ := σ) env p) :=
  Moves.ite (moves_modify fun _ => .of_mem rfl percentage_storing) (moves_pure _)

/-- The report at the head of a round with `n` pages left. -/
theorem reportProgress_storing {base n : ℕ} {totalPage : UInt32} {it : PageLoop}
    (hit : it.Left totalPage n) :
    Moves (Emits (storing (reported base totalPage (UInt32.ofNat n))))
      (reportProgress (σ := σ) env base totalPage it) := by
  unfold reportProgress
  rw [show UInt32.ofNat n = it.noOfPage by rw [← hit.noOfPage, UInt32.ofNat_toNat]]
  exact setPercentage_storing.ite (moves_pure _)

/-- A store below 60 promises nothing. -/
theorem Warranted.of_lt {es : List (Event σ)} (hle : level ≤ p) (hp : p.toNat < 60) :
    Warranted file level p es := by
  have hlt : ¬ 60 ≤ p := by
    rw [UInt32.le_iff_toNat_le]
    exact Nat.not_le.mpr hp
  refine ⟨hle, ?_, fun h => absurd h hlt, fun h => ?_⟩
  · rw [UInt32.le_iff_toNat_le]
    exact (hp.trans (by decide)).le
  · rw [h] at hp
    exact absurd hp (by decide)

/-- A store below 100 promises that the image is programmed. -/
theorem Warranted.of_programmed {es : List (Event σ)} (hle : level ≤ p) (hp : p.toNat < 100)
    (h : AllProgrammed file es) : Warranted file level p es := by
  refine ⟨hle, ?_, fun _ => h, fun heq => ?_⟩
  · rw [UInt32.le_iff_toNat_le]
    exact hp.le
  · rw [heq] at hp
    exact absurd hp (by decide)

/-! ### The page loop -/

/-- What the rounds of an image function do for the promise when `n` pages are left: `I` is
about the events so far, and whatever else happens keeps it.  For the programming `I` says
that the other pages are programmed, and for the verification that all are. -/
structure Serving (file : File) (base : ℕ) (page : UInt32 → Prog (World σ) Xst)
    (totalPage : UInt32) (I : ℕ → List (Event σ) → Prop) : Prop where
  storeless : ∀ startAddr, Moves (Emits storeless) (page startAddr)
  append : ∀ {n es es'}, I n es → I n (es ++ es')
  next : ∀ {n w w' es}, n + 1 ≤ totalPage.toNat → I (n + 1) es →
    page (UInt32.ofNat (256 * (totalPage.toNat - (n + 1)))) w = (.ret .success, w') →
    I n (es ++ newEvents w w')
  promise : ∀ {n es}, 60 ≤ base → I n es → AllProgrammed file es

/-- What has been recorded stays recorded. -/
theorem Serving.kept {base n : ℕ} {page : UInt32 → Prog (World σ) Xst} {totalPage : UInt32}
    {I : ℕ → List (Event σ) → Prop} (hserving : Serving file base page totalPage I)
    (hw : Upto file w₀ level w) (hI : I n (newEvents w₀ w)) (h : Emits E w w') :
    I n (newEvents w₀ w') := by
  obtain ⟨es, hes, -⟩ := h
  rw [newEvents_append hw.later.grows hes]
  exact hserving.append hI

/-- **The page reports of an image function climb through its forty percent.**  The level
behind the report of a round is that report, and the next one is at least as high. -/
theorem pageLoop_climbs {base : ℕ} {page : UInt32 → Prog (World σ) Xst} {totalPage : UInt32}
    {I : ℕ → List (Event σ) → Prop} (hserving : Serving file base page totalPage I)
    (hbase : base = 20 ∨ base = 60) (hpages : totalPage.toNat < 2 ^ 31)
    (hw : Upto file w₀ (UInt32.ofNat base) w) (hstart : I totalPage.toNat (newEvents w₀ w)) :
    wp (pageLoop (reportProgress env base) page totalPage)
      (fun status w' => Upto file w₀ (UInt32.ofNat (base + 40)) w' ∧
        (status = .success → I 0 (newEvents w₀ w')))
      (fun _ w' => Upto file w₀ (UInt32.ofNat (base + 40)) w') w := by
  have hbase' : base ≤ 60 := by omega
  have hfull : ∀ {n w₁}, n ≤ totalPage.toNat →
      Upto file w₀ (reported base totalPage (UInt32.ofNat n)) w₁ →
      Upto file w₀ (UInt32.ofNat (base + 40)) w₁ := by
    intro n w₁ hn h₁
    refine h₁.mono ?_
    rw [UInt32.le_iff_toNat_le, UInt32.toNat_ofNat', Nat.mod_eq_of_lt (by omega)]
    exact reported_le hbase' hpages hn
  -- the level is what the round before would have reported
  refine wp_pageLoop (fun n w₁ => n ≤ totalPage.toNat ∧
      Upto file w₀ (reported base totalPage (UInt32.ofNat n)) w₁ ∧ I n (newEvents w₀ w₁))
    ⟨le_rfl, hw.mono ?_, hstart⟩ (fun n it w₁ hit h₁ => ?_) fun w₁ h₁ => ?_
  · rw [UInt32.le_iff_toNat_le, UInt32.toNat_ofNat', Nat.mod_eq_of_lt (by omega)]
    exact le_reported hbase' hpages le_rfl
  · obtain ⟨hle, hup, hI⟩ := h₁
    set p := reported base totalPage (UInt32.ofNat (n + 1))
    have hlt : p.toNat < base + 40 := reported_lt hbase' hpages hle (Nat.succ_pos n)
    have hdue : Warranted file p p (newEvents w₀ w₁) := by
      rcases hbase with rfl | rfl
      · exact .of_lt (UInt32.le_refl p) hlt
      · exact .of_programmed (UInt32.le_refl p) hlt (hserving.promise le_rfl hI)
    refine wp_mono ((reportProgress_storing hit).wp w₁) (fun _ w₂ h₂ => ?_) fun _ w₂ h₂ =>
      hfull hle (hup.storing hdue h₂)
    have hup₂ := hup.storing hdue h₂
    have hI₂ := hserving.kept hup hI h₂
    rcases hpage : page (UInt32.ofNat (256 * (totalPage.toNat - (n + 1)))) w₂
      with ⟨status | why, w₃⟩
    · have hquiet := (hserving.storeless _).of_eq hpage
      have hup₃ := hup₂.storeless hquiet
      refine (wp_of_ret hpage).mpr ⟨fun hok => ?_, fun _ => ⟨hfull hle hup₃, fun h => nomatch h⟩⟩
      subst hok
      refine ⟨by omega, hup₃.mono (reported_le_reported hbase' hpages hle (Nat.le_succ n)), ?_⟩
      obtain ⟨es, hes, -⟩ := hquiet
      rw [newEvents_append hup₂.later.grows hes, ← newEvents_of_eq hes]
      exact hserving.next hle hI₂ hpage
    · exact (wp_of_stop hpage).mpr (hfull hle (hup₂.storeless ((hserving.storeless _).of_eq hpage)))
  · exact ⟨hfull (Nat.zero_le _) h₁.2.1, fun _ => h₁.2.2⟩

/-! ### The image functions -/

variable [XSpiDriver σ]

/-- An image function with its one file.  The reports of its rounds climb with the pages, and
each is warranted by the pages in front. -/
theorem imageFile_climbs {filename : String} {base : ℕ}
    {page : File → UInt32 → Prog (World σ) Xst} {finish : Prog (World σ) Unit}
    {I : ℕ → List (Event σ) → Prop}
    (hopen : ∀ i f, env.fopen i filename = some f → f = file)
    (hserving : Serving file base (page file) (pageCount file.ftell) I)
    (hbase : base = 20 ∨ base = 60) (hpages : (pageCount file.ftell).toNat < 2 ^ 31)
    (hfinish : Moves (Emits storeless) finish) (hw : Upto file w₀ (UInt32.ofNat base) w)
    (hstart : I (pageCount file.ftell).toNat (newEvents w₀ w)) :
    wp (imageFile env filename (reportProgress env base) page finish)
      (fun status w' => Upto file w₀ (UInt32.ofNat (base + 40)) w' ∧
        (status = .success → I 0 (newEvents w₀ w')))
      (fun _ w' => Upto file w₀ (UInt32.ofNat (base + 40)) w') w := by
  have hraise : ∀ {w₁ : World σ}, Upto file w₀ (UInt32.ofNat base) w₁ →
      Upto file w₀ (UInt32.ofNat (base + 40)) w₁ := by
    refine fun h₁ => h₁.mono ?_
    rcases hbase with rfl | rfl <;> decide
  have hopened : ∀ answer, Emits storeless w (w.opened answer) := fun _ => .of_eq rfl
  have htalked : ∀ {answer w₁}, Talks statusFrames (w.opened answer) w₁ → Emits storeless w w₁ :=
    fun h₁ => trans_of _ (hopened _) (h₁.emits transfers_storeless.admits)
  -- without the file and in front of the loop nothing is stored
  refine wp_imageFile (fun _ => ⟨hraise (hw.storeless (hopened none)), fun h => nomatch h⟩)
    (fun f w₁ _ h₁ => ?_) fun f w₁ hfile h₁ => ?_
  · have hup := hraise (hw.storeless (htalked h₁))
    exact ⟨⟨hup, fun h => nomatch h⟩, fun _ => hup⟩
  · obtain rfl := hopen _ f hfile
    have hI₁ := hserving.kept hw hstart (htalked h₁)
    refine wp_mono (pageLoop_climbs hserving hbase hpages (hw.storeless (htalked h₁)) hI₁)
      (fun status w₂ h₂ => ⟨fun hok => ?_, fun _ => ⟨h₂.1, fun h => nomatch h⟩⟩) fun _ _ h => h
    refine wp_mono (hfinish.wp w₂) (fun _ w₃ h₃ => ?_) fun _ w₃ h₃ => h₂.1.storeless h₃
    have hclosed : Emits storeless w₂ { w₃ with streams := w₃.streams - 1 } :=
      trans_of _ h₃ (.of_eq rfl)
    exact ⟨h₂.1.storeless hclosed, fun _ => hserving.kept h₂.1 (h₂.2 hok) hclosed⟩

/-- A page that was programmed: its frame, with the bytes of the file over heap memory.  The
address is that of the page in the flash, and the bytes behind the end of the file are those
of the buffer. -/
theorem programPage_frame {baseAddr startAddr : UInt32}
    (h : programPage env baseAddr file startAddr w = (.ret .success, w')) :
    ∃ before, .transfer before (writeFrame command4bytePageProgram (startAddr + baseAddr) pageSize
      (fread file startAddr (env.malloc w.mallocs))) (some .success) ∈ newEvents w w' := by
  obtain ⟨_, _, ⟨⟩, h⟩ := bind_eq_ret.mp h
  obtain ⟨w₁, henable, hwrite⟩ := check_eq_ok.mp h
  obtain ⟨es, hes, -⟩ := ((spiFlashWriteEnable_talks (Set.subset_univ _)).of_eq henable).events
  obtain ⟨before, es₁, es₂, hevents, -⟩ := spiFlashWriteFile_frame (by decide) hwrite
  refine ⟨before, ?_⟩
  have hall : w'.events = w.events ++ (es ++ (es₁ ++ .transfer before (writeFrame
      command4bytePageProgram (startAddr + baseAddr) pageSize
      (fread file startAddr (env.malloc w.mallocs))) (some .success) :: es₂)) := by
    rw [hevents, hes, List.append_assoc]
  rw [newEvents_of_eq hall]
  simp

variable (env) in
/-- The rounds of `qspi_program_bin`: the pages before the ones left are programmed. -/
theorem programPage_serving (hpages : 256 * (pageCount file.ftell).toNat ≤ 2 ^ 32) :
    Serving (σ := σ) file 20 (programPage env Region.user.baseAddr file) (pageCount file.ftell)
      fun n es => ∀ j < (pageCount file.ftell).toNat - n, PageProgrammed file j es where
  storeless _ := Moves.mono (r := Reports Set.univ storeless)
    (programPage_reports (Set.subset_univ _) transfers_storeless.admits fun _ => trivial)
    fun _ _ => Reports.emits
  append h j hj := (h j hj).mono (List.subset_append_left _ _)
  next {n w w' es} hle h hpage j hj := by
    rcases Nat.lt_or_ge j ((pageCount file.ftell).toNat - (n + 1)) with hlt | hge
    · exact (h j hlt).mono (List.subset_append_left _ _)
    · obtain rfl : j = (pageCount file.ftell).toNat - (n + 1) := by omega
      obtain ⟨before, hmem⟩ := programPage_frame hpage
      refine ⟨before, _, List.mem_append_right _ hmem, fun k hk hlen => ?_⟩
      show filePage file (fun _ => env.malloc w.mallocs) _ k = _
      exact filePage_of_lt hk (by omega) hlen
  promise h := absurd h (by decide)

variable (env) in
/-- The rounds of `qspi_verify_bin`: what is programmed stays so. -/
theorem verifyPage_serving (baseAddr : UInt32) :
    Serving (σ := σ) file 60 (verifyPage env baseAddr file) (pageCount file.ftell)
      fun _ es => AllProgrammed file es where
  storeless _ := Moves.mono (r := Reports Set.univ storeless)
    (verifyPage_reports (Set.subset_univ _) transfers_storeless.admits (says_univ _))
    fun _ _ => Reports.emits
  append h := h.mono (List.subset_append_left _ _)
  next _ h _ := h.mono (List.subset_append_left _ _)
  promise _ h := h

/-! ### `program_user` and `kiflash_program_user` -/

/-- The pages of an image that 32-bit offsets reach. -/
theorem pageCount_of_le (hreg : file.Regular) (hlen : file.contents.length ≤ 2 ^ 32) :
    (pageCount file.ftell).toNat = (file.contents.length + 255) / 256 := by
  rw [pageCount_toNat, hreg]
  omega

/-- `qspi_program_bin` climbs from 20 to 60. -/
theorem qspiProgramBin_climbs (hreg : file.Regular) (hlen : file.contents.length ≤ 2 ^ 32)
    (hopen : ∀ i f, env.fopen i w.flashData.pathname = some f → f = file)
    (hbase : w.flashData.baseAddr = Region.user.baseAddr) (hw : Upto file w₀ 20 w) :
    wp (qspiProgramBin env)
      (fun status w' => Upto file w₀ 60 w' ∧
        (status = .success → AllProgrammed file (newEvents w₀ w')))
      (fun _ w' => Upto file w₀ 60 w') w := by
  have hcount := pageCount_of_le hreg hlen
  refine wp_bind.mpr (wp_gets.mpr ?_)
  rw [hbase]
  have climbs := imageFile_climbs hopen (programPage_serving env (by omega)) (.inl rfl) (by omega)
    (moves_pure ()) hw fun j hj => absurd hj (by omega)
  refine wp_mono climbs (fun status w' h' => ⟨h'.1, fun hok j hj => ?_⟩) fun _ _ h => h
  exact h'.2 hok j (by omega)

/-- `qspi_verify_bin` climbs from 60 to 100, and behind its success the 100 of `program_user`
is warranted. -/
theorem qspiVerifyBin_climbs (hreg : file.Regular) (hlen : file.contents.length ≤ 2 ^ 32)
    (hopen : ∀ i f, env.fopen i w.flashData.pathname = some f → f = file)
    (hw : Upto file w₀ 60 w) (hall : AllProgrammed file (newEvents w₀ w)) :
    wp (qspiVerifyBin env)
      (fun status w' => Upto file w₀ 100 w' ∧
        (status = .success → AllProgrammed file (newEvents w₀ w') ∧
          .verifyPassed ∈ newEvents w₀ w'))
      (fun _ w' => Upto file w₀ 100 w') w := by
  have hcount := pageCount_of_le hreg hlen
  have hpassed : Moves (Emits storeless) (emit (σ := σ) .verifyPassed) :=
    moves_modify fun _ => .of_mem rfl fun _ h => nomatch h
  have climbs := imageFile_climbs hopen (verifyPage_serving env w.flashData.baseAddr) (.inr rfl)
    (by omega) hpassed hw hall
  rcases hrun : qspiVerifyBin env w with ⟨status | why, w'⟩
  · have hclimbed := (wp_of_ret hrun).mp (wp_bind.mpr (wp_gets.mpr climbs))
    refine (wp_of_ret hrun).mpr ⟨hclimbed.1, fun hok => ⟨hclimbed.2 hok, ?_⟩⟩
    subst hok
    have hlater := (qspiVerifyBin_moves.of_eq hrun).emits
    exact hw.later.mem_newEvents_right hlater (qspiVerifyBin_passed hrun)
  · exact (wp_of_stop hrun).mpr ((wp_of_stop hrun).mp (wp_bind.mpr (wp_gets.mpr climbs)))

/-- A store that is warranted, in front of the rest. -/
theorem wp_setPercentage_climbs {k : Prog (World σ) Xst} {Q : Xst → World σ → Prop}
    {R : Stop → World σ → Prop} (hw : Upto file w₀ level w)
    (hp : Warranted file level p (newEvents w₀ w))
    (hk : ∀ w₁, Upto file w₀ p w₁ → newEvents w₀ w ⊆ newEvents w₀ w₁ →
      Reports Set.univ Set.univ w w₁ → wp k Q R w₁) :
    wp (setPercentage env p >>= fun _ => k) Q R w := by
  obtain ⟨percentage, events, hstore⟩ := setPercentage_eq env p w
  have hstoring := setPercentage_storing.of_eq hstore
  exact wp_bind.mpr ((wp_of_ret hstore).mpr (hk _ (hw.storing hp hstoring)
    (hw.later.newEvents_subset hstoring) (setPercentage_moves.of_eq hstore)))

/-- `program_user` climbs from 0 to 100, one stage after the other.  The levels are those of
the source: 1, 20, 60 and 100, with the reports of the page loops in between. -/
theorem programUser_climbs (hreg : file.Regular) (hlen : file.contents.length ≤ 2 ^ 32)
    (hopen : ∀ i f, env.fopen i w.flashData.pathname = some f → f = file)
    (hbase : w.flashData.baseAddr = Region.user.baseAddr) (hw : Upto file w₀ 0 w) :
    wp (programUser env 1)
      (fun status w' => Upto file w₀ 100 w' ∧
        (status = .success → AllProgrammed file (newEvents w₀ w') ∧
          .verifyPassed ∈ newEvents w₀ w'))
      (fun _ w' => Upto file w₀ 100 w') w := by
  show wp (eraseProgramVerify env (setPercentage env) _ _) _ _ w
  refine wp_setPercentage_climbs hw (.of_lt (by decide) (by decide)) fun w₁ h₁ _ hreports₁ => ?_
  -- the erase stores 20 and nothing else, also when it fails
  have herase : Reports Set.univ (storing 20) w₁ (eraseStage env ((ProgramCall.user 1).mark env)
      (ProgramCall.user 1).eraseFrom (ProgramCall.user 1).erase w₁).2 :=
    eraseStage_reports (Set.subset_univ _) transfers_storing.admits (fun _ _ _ => trivial)
      percentage_storing
  have herased : ∀ {w₂}, Reports Set.univ (storing 20) w₁ w₂ → Upto file w₀ 20 w₂ := fun h₂ =>
    h₁.storing (.of_lt (by decide) (by decide)) h₂.emits
  refine wp_check.mpr (wp_mono (wp_state_iff.mpr herase) (fun _ w₂ h₂ => ?_)
    fun _ _ h₂ => (herased h₂).mono (by decide))
  have hup₂ := herased h₂
  refine ⟨fun _ => ?_, fun _ => ⟨hup₂.mono (by decide), fun h => nomatch h⟩⟩
  refine wp_setPercentage_climbs hup₂ (.of_lt (by decide) (by decide)) fun w₃ h₃ _ hreports₃ => ?_
  -- the target is still the one selected
  have hname : w₃.flashData.pathname = w.flashData.pathname := by
    rw [hreports₃.target.2.2.2, h₂.target.2.2.2, hreports₁.target.2.2.2]
  have hbase₃ : w₃.flashData.baseAddr = Region.user.baseAddr := by
    rw [hreports₃.target.1, h₂.target.1, hreports₁.target.1, hbase]
  refine wp_check.mpr (wp_mono (wp_and (qspiProgramBin_moves.wp w₃)
    (qspiProgramBin_climbs hreg hlen (hname ▸ hopen) hbase₃ h₃)) (fun _ w₄ h₄ => ?_)
    fun _ _ h₄ => h₄.2.mono (by decide))
  obtain ⟨hreports₄, hup₄, hall₄⟩ := h₄
  refine ⟨fun hok => ?_, fun _ => ⟨hup₄.mono (by decide), fun h => nomatch h⟩⟩
  -- 60 is due: all pages are programmed, and stay so through the verification
  refine wp_setPercentage_climbs hup₄ (.of_programmed (by decide) (by decide) (hall₄ hok))
    fun w₅ h₅ hsub₅ hreports₅ => ?_
  have hname₅ : w₅.flashData.pathname = w.flashData.pathname := by
    rw [hreports₅.target.2.2.2, hreports₄.target.2.2.2, hname]
  refine wp_check.mpr (wp_mono (qspiVerifyBin_climbs hreg hlen (hname₅ ▸ hopen) h₅
    ((hall₄ hok).mono hsub₅)) (fun _ w₆ h₆ => ?_) fun _ _ h₆ => h₆)
  refine ⟨fun hok₆ => ?_, fun _ => ⟨h₆.1, fun h => nomatch h⟩⟩
  obtain ⟨hall₆, hpassed₆⟩ := h₆.2 hok₆
  refine wp_setPercentage_climbs h₆.1 ⟨by decide, by decide, fun _ => hall₆, fun _ => hpassed₆⟩
    fun w₇ h₇ hsub₇ _ => ?_
  exact ⟨h₇, fun _ => ⟨hall₆.mono hsub₇, hsub₇ hpassed₆⟩⟩

/-- **The percentage keeps its promise** in a run whose image is reached by 32-bit offsets:
on any bus, whatever comes of the erases, the page programs and the page reads. -/
theorem kiflashProgramUser_honest (hreg : file.Regular) (hlen : file.contents.length ≤ 2 ^ 32)
    (hopen : ∀ i f, env.fopen i userImagePath = some f → f = file) (w : World σ) :
    Honest file (newEvents w (kiflashProgramUser env w).2) := by
  have hinit : ∀ {w₁}, Emits (storing 0) w w₁ → Upto file w 0 w₁ := fun h =>
    (upto_refl file w 0).storing (.of_lt (by decide) (by decide)) h
  have hup : Upto file w 100 (kiflashProgramUser env w).2 := by
    refine wp_state_iff.mp (wp_kiflashProgramUser (transfers_storing (p := 0)).admits
      percentage_storing (fun _ w₁ _ h₁ => (hinit h₁).mono (by decide))
      fun w₁ _ h₁ hname hselect => ?_)
    refine wp_mono (programUser_climbs hreg hlen (hname ▸ hopen)
      (congrArg FlashData.baseAddr hselect) (hinit h₁)) (fun status w₂ h₂ => ?_) fun _ _ h => h
    refine ⟨fun hok => ?_, fun _ => h₂.1⟩
    obtain ⟨hall, hpassed⟩ := h₂.2 hok
    -- `icap` stores nothing, and the last store is the 100 once more
    obtain ⟨w₃, hicap, hquiet⟩ := icap_emits (E := storeless) (fun _ _ _ _ h => nomatch h) 0 w₂
    have hsub := h₂.1.later.newEvents_subset hquiet
    exact (wp_of_ret hicap).mpr ((h₂.1.storeless hquiet).storing
      ⟨by decide, by decide, fun _ => hall.mono hsub, fun _ => hsub hpassed⟩
      (setPercentage_storing w₃))
  exact hup.climbed.honest

end Upto

/-! ## Longer images -/

/-- An image that is blank as far as 32-bit offsets reach, and zero from there on. -/
def zeroTailed (length : UInt64) : File :=
  ⟨length, List.replicate (2 ^ 32) 0xFF ++ List.replicate (length.toNat - 2 ^ 32) 0⟩

/-- The frames that program no page with a zero in front.  The image of the counterexample has
such a page, and it is never sent. -/
def noLeadingZero : Set (List UInt8) :=
  {frame | frame.head? = some command4bytePageProgram → frame[5]? ≠ some 0}

section Long

variable {length : UInt64} {j k : ℕ}

/-- The file is as long as it says. -/
theorem zeroTailed_length (h : 2 ^ 32 < length.toNat) :
    (zeroTailed length).contents.length = length.toNat := by
  rw [zeroTailed, List.length_append, List.length_replicate, List.length_replicate]
  omega

theorem zeroTailed_regular (h : 2 ^ 32 < length.toNat) : (zeroTailed length).Regular :=
  (zeroTailed_length h).symm

theorem zeroTailed_take (length : UInt64) :
    (zeroTailed length).contents.take (2 ^ 32) = List.replicate (2 ^ 32) 0xFF := by
  rw [zeroTailed, List.take_append_of_le_length (List.length_replicate ▸ le_rfl),
    List.take_of_length_le (List.length_replicate ▸ le_rfl)]

/-- What the code can read of it is blank. -/
theorem zeroTailed_bytes (length : UInt64) :
    ∀ b ∈ (zeroTailed length).contents.take (2 ^ 32), b = 0xFF := by
  intro b hb
  rw [zeroTailed_take] at hb
  exact List.eq_of_mem_replicate hb

/-- The bytes that no 32-bit offset reaches. -/
theorem zeroTailed_getElem {i : ℕ} (h : 2 ^ 32 ≤ i)
    (hi : i < (zeroTailed length).contents.length) : (zeroTailed length).contents[i] = 0 := by
  have hlen : (List.replicate (2 ^ 32) (0xFF : UInt8)).length ≤ i := List.length_replicate ▸ h
  exact (List.getElem_append_right hlen).trans (List.getElem_replicate _)

/-- Every page read from the file begins with `0xFF`. -/
theorem fread_zeroTailed (offset : UInt32) (buffer : ℕ → UInt8) :
    fread (zeroTailed length) offset buffer 0 = 0xFF := by
  have hlen : offset.toNat < (List.replicate (2 ^ 32) (0xFF : UInt8)).length :=
    List.length_replicate ▸ offset.toNat_lt
  have hhead : (((zeroTailed length).contents.drop offset.toNat).take 256)[0]? = some 0xFF := by
    rw [List.getElem?_take_of_lt (by decide), List.getElem?_drop, Nat.add_zero, zeroTailed,
      List.getElem?_append_left hlen, List.getElem?_eq_getElem hlen, List.getElem_replicate]
  rw [fread, overlay, if_pos (Nat.le_refl 0), Nat.sub_zero, hhead, Option.getD_some]

/-- Only page programs have a byte of the file in them. -/
theorem housekeeping_noLeadingZero : housekeeping ⊆ noLeadingZero := by
  intro frame hframe hhead
  have hcmd : command4bytePageProgram ∈ housekeepingCommands := hframe _ hhead
  exact absurd hcmd (by simp [housekeepingCommands]; decide)

theorem says_noLeadingZero {cmd : UInt8} (h : cmd ≠ command4bytePageProgram) :
    Says noLeadingZero cmd := by
  intro rest n
  cases n with
  | zero => exact fun hhead => nomatch hhead
  | succ n => exact fun hhead => absurd (Option.some.inj hhead) h

theorem pageFrame_getElem? (cmd : UInt8) (addr : UInt32) (page : ℕ → UInt8) :
    (cmd :: addrBytes addr ++ bytesOf page 256)[5]? = some (page 0) := by
  have hlen : (cmd :: addrBytes addr).length ≤ 5 := by rw [List.length_cons, addrBytes_length]
  rw [List.getElem?_append_right hlen, List.length_cons, addrBytes_length, bytesOf_getElem?]
  rfl

/-- The events of a run that programs no page with a zero in front. -/
def sendsNoLeadingZero {σ : Type} : Set (Event σ) :=
  {e | ∀ before frame status, e = .transfer before frame status → frame ∈ noLeadingZero}

theorem admits_sendsNoLeadingZero {σ : Type} :
    Admits noLeadingZero (sendsNoLeadingZero : Set (Event σ)) := by
  rintro before frame status hframe _ _ _ ⟨⟩
  exact hframe

/-- And their first byte is one that the code has read. -/
theorem pageFrames_zeroTailed (baseAddr : UInt32) (length : UInt64) :
    PageFrames noLeadingZero baseAddr (zeroTailed length) := by
  intro j _ buffer _ hzero
  rw [pageFrame_getElem?, fread_zeroTailed] at hzero
  exact absurd hzero (by decide)

/-- A run with such an image.  Only the pages that 32-bit offsets reach are sent, and these
are blank. -/
theorem kiflashProgramUser_sendsNoLeadingZero {σ : Type} [XSpiDriver σ] {env : Env}
    (hopen : ∀ i file, env.fopen i userImagePath = some file → file = zeroTailed length)
    (w : World σ) : Emits sendsNoLeadingZero w (kiflashProgramUser env w).2 := by
  have hpercentage : ∀ value, (.percentage value : Event σ) ∈ sendsNoLeadingZero :=
    fun _ _ _ _ h => nomatch h
  have hA : Admits housekeeping (sendsNoLeadingZero : Set (Event σ)) := fun _ _ _ hframe =>
    admits_sendsNoLeadingZero _ _ _ (housekeeping_noLeadingZero hframe)
  refine wp_state_iff.mp (wp_kiflashProgramUser hA (hpercentage 0) (fun _ _ _ h => h)
    fun w₁ _ h₁ hname _ => ?_)
  have hrun : Reports noLeadingZero sendsNoLeadingZero w₁ ((ProgramCall.user 1).run env w₁).2 := by
    refine (ProgramCall.user 1).run_reports housekeeping_noLeadingZero admits_sendsNoLeadingZero
      (fun _ _ _ hhead => ?_) (fun i file hfile => ?_) (says_noLeadingZero (by decide)) hpercentage
      fun _ _ _ h => nomatch h
    · exact absurd (Option.some.inj hhead) (by decide)
    · rw [hname] at hfile
      rw [hopen i file hfile]
      exact pageFrames_zeroTailed _ length
  refine wp_mono (wp_state_iff.mpr hrun) (fun _ w₂ h₂ => ?_) fun _ w₂ h₂ => trans_of _ h₁ h₂.emits
  have h₂ := trans_of _ h₁ h₂.emits
  refine ⟨fun _ => ?_, fun _ => h₂⟩
  obtain ⟨w₃, hicap, hquiet⟩ :=
    icap_emits (E := sendsNoLeadingZero) (fun _ _ _ _ _ _ h => nomatch h) 0 w₂
  have hlast : Emits sendsNoLeadingZero w₃ (setPercentage env 100 w₃).2 :=
    (setPercentage_reports (A := Set.univ) (hpercentage 100) w₃).emits
  exact (wp_of_ret hicap).mpr (trans_of _ h₂ (trans_of _ hquiet hlast))

theorem setPercentage_events {σ : Type} {env : Env} (hprogress : env.progress = true)
    {value : UInt32} {w w' : World σ} (h : setPercentage env value w = (.ret (), w')) :
    w'.events = w.events ++ [.percentage value] := by
  rw [setPercentage, if_pos hprogress] at h
  cases h
  rfl

/-- A host with this image, and fresh memory as blank as a flash.  The pages beyond what 32
bits reach are then never compared. -/
def zeroTailedEnv (length : UInt64) : Env := .plain (some (zeroTailed length)) 0xFF

theorem fopen_zeroTailedEnv {i : ℕ} {filename : String} {file : File}
    (h : (zeroTailedEnv length).fopen i filename = some file) : file = zeroTailed length :=
  (Option.some.inj h).symm

/-- The run with this image on a blank flash ends with 100. -/
theorem zeroTailed_hundred (length : UInt64) :
    ∃ past, newEvents (World.fresh BlankFlash.blank)
      (kiflashProgramUser (zeroTailedEnv length) (World.fresh .blank)).2 =
        past ++ [.percentage 100] := by
  have hrounds : 0 < (zeroTailedEnv length).rounds := Nat.one_pos
  obtain ⟨w', hrun, -⟩ := kiflashProgramUser_blank (w := World.fresh .blank) hrounds rfl
    (fun _ => rfl) (zeroTailed_bytes length) (fun _ _ => rfl) rfl
  obtain ⟨_, _, _, _, wd, -, -, -, -, hlast⟩ := kiflashProgramUser_stages hrun
  refine ⟨wd.events, ?_⟩
  rw [hrun]
  exact setPercentage_events rfl hlast

/-- No run with it programs the page behind the first `2 ^ 32` bytes. -/
theorem zeroTailed_not_programmed {σ : Type} [XSpiDriver σ] {env : Env}
    (h : 2 ^ 32 < length.toNat)
    (hopen : ∀ i file, env.fopen i userImagePath = some file → file = zeroTailed length)
    (w : World σ) :
    ¬ PageProgrammed (zeroTailed length) (2 ^ 24) (newEvents w (kiflashProgramUser env w).2) := by
  rintro ⟨before, page, hmem, hpage⟩
  have hlen : 256 * 2 ^ 24 + 0 < (zeroTailed length).contents.length := by
    rw [zeroTailed_length h]
    exact h
  have hzero : page 0 = 0 := (hpage 0 (by decide) hlen).trans (zeroTailed_getElem (by decide) hlen)
  refine (kiflashProgramUser_sendsNoLeadingZero hopen w).mem_newEvents hmem _ _ _ rfl rfl ?_
  rw [writeFrame]
  exact (pageFrame_getElem? _ _ page).trans (congrArg some hzero)

/-- With such an image, 60 and 100 come before the last pages.  No page program with a zero in
front has been sent, so those pages are not in the flash. -/
theorem zeroTailed_not_honest (h : 2 ^ 32 < length.toNat) :
    ¬ Honest (zeroTailed length) (newEvents (World.fresh BlankFlash.blank)
      (kiflashProgramUser (zeroTailedEnv length) (World.fresh .blank)).2) := by
  intro hhonest
  obtain ⟨past, hpast⟩ := zeroTailed_hundred length
  have hprefix : past ++ [.percentage 100] <+: newEvents (World.fresh BlankFlash.blank)
      (kiflashProgramUser (zeroTailedEnv length) (World.fresh .blank)).2 :=
    ⟨[], by rw [List.append_nil, hpast]⟩
  have hall := hhonest.programmed past _ hprefix 100 rfl (by decide)
  have hpage : PageProgrammed (zeroTailed length) (2 ^ 24) past := by
    refine hall (2 ^ 24) ?_
    rw [zeroTailed_length h]
    exact h
  have hsub := (List.prefix_append past _).trans hprefix
  exact zeroTailed_not_programmed h (fun _ _ => fopen_zeroTailedEnv) _ (hpage.mono hsub.subset)

/-- **The percentage keeps its promise for exactly the lengths that 32-bit offsets reach**:
for a longer image the offsets start over at 0, and the loop ends with pages left out.

`Honest` is the promise: the values climb within 100, those from 60 on come behind the
programs of all pages, and 100 behind a verification that has passed.  It is asked of every
bus and host, so that the condition is on the length alone; for a length beyond, one bus and
one host are shown on which the promise is broken. -/
theorem kiflashProgramUser_honest_iff (length : UInt64) :
    (∀ (σ : Type) [XSpiDriver σ] (env : Env) (file : File) (w : World σ),
      file.Regular → file.ftell = length →
      (∀ i f, env.fopen i userImagePath = some f → f = file) →
      Honest file (newEvents w (kiflashProgramUser env w).2)) ↔ length.toNat ≤ 2 ^ 32 := by
  constructor
  · intro h
    by_contra hlong
    have hlong := Nat.lt_of_not_le hlong
    exact zeroTailed_not_honest hlong (h BlankFlash _ _ _ (zeroTailed_regular hlong) rfl
      fun _ _ => fopen_zeroTailedEnv)
  · rintro hlen σ _ env file w hreg rfl hopen
    refine kiflashProgramUser_honest hreg ?_ hopen w
    rw [← hreg]
    exact hlen

/-- One byte more: 100 is stored, and the page that the byte is on is not programmed. -/
theorem kiflashProgramUser_honest_counterexample :
    let file := zeroTailed 0x100000001
    let es := newEvents (World.fresh BlankFlash.blank)
      (kiflashProgramUser (.plain (some file) 0xFF) (World.fresh .blank)).2
    file.Regular ∧ .percentage 100 ∈ es ∧ ¬ PageProgrammed file (2 ^ 24) es ∧ ¬ Honest file es := by
  intro file es
  have hlong : 2 ^ 32 < (0x100000001 : UInt64).toNat := by decide
  refine ⟨zeroTailed_regular hlong, ?_, ?_, zeroTailed_not_honest hlong⟩
  · obtain ⟨past, hpast⟩ := zeroTailed_hundred 0x100000001
    show _ ∈ newEvents _ (kiflashProgramUser (zeroTailedEnv 0x100000001) _).2
    rw [hpast]
    exact List.mem_append_right past List.mem_cons_self
  · exact zeroTailed_not_programmed hlong (fun _ _ => fopen_zeroTailedEnv) _

end Long

end Kiflash
