import Kiflash.Mirroring

/-!
# Every moment of a run

A run of the flash code takes the device behind the driver from one state to the next, and it
can be cut off in each of them.  `Filmed σ` is a driver together with the states that it has
left behind.

* `Filmed.moments` — the states that the driver has been in.
* `run_filmed` — an operation does the same whether it is filmed or not.
* `Always.of_busSteps` — what every step keeps holds at every moment.

### Why a driver of its own

The result of a run is its last state, and the record of the run holds the state of the bus
only before each transfer.  A power failure may come behind any call of the driver.  Instead
of running the code step by step, the camera is put into the driver: the functions are generic
in it, so the same definitions run on `Filmed σ` and leave the film behind.  That nothing else
changes is an instance of the simulation of `Kiflash.Mirroring`.
-/

open Imperative Imperative.Prog

namespace Kiflash

variable {σ τ : Type}

/-! ## The driver -/

/-- A driver with the states that it has left behind, oldest first.  Every driver can be
filmed, and the flash code does not notice. -/
structure Filmed (σ : Type) where
  now : σ
  film : List σ

namespace Filmed

/-- The driver moves on, and the state it has left is on the film.  Nothing is ever taken off
it. -/
def next (f : Filmed σ) (d : σ) : Filmed σ := ⟨d, f.film ++ [f.now]⟩

/-- The states that the driver has been in, up to the present one.  The power can fail at each
of them. -/
def moments (f : Filmed σ) : List σ := f.film ++ [f.now]

/-- The present is one of the moments. -/
theorem now_mem_moments (f : Filmed σ) : f.now ∈ f.moments :=
  List.mem_append_right _ (List.mem_singleton_self _)

/-- A call of the driver, in front of the camera.  It is the same call on the present
state. -/
def step {α : Type} (call : σ → α × σ) (f : Filmed σ) : α × Filmed σ :=
  ((call f.now).1, f.next (call f.now).2)

end Filmed

variable [XSpiDriver σ] {A : Set (List UInt8)} {f f' : Filmed σ}

instance : XSpiDriver (Filmed σ) where
  xspiPciInitialize f := f.next (XSpiDriver.xspiPciInitialize f.now)
  xspiCfgInitialize config := Filmed.step (XSpiDriver.xspiCfgInitialize config)
  xspiSetOptions options := Filmed.step (XSpiDriver.xspiSetOptions options)
  xspiSetSlaveSelect mask := Filmed.step (XSpiDriver.xspiSetSlaveSelect mask)
  xspiStart := Filmed.step XSpiDriver.xspiStart
  xspiTransfer rounds frame recv := Filmed.step (XSpiDriver.xspiTransfer rounds frame recv)
  pciWriteReg address data f := f.next (XSpiDriver.pciWriteReg address data f.now)

/-- A step in front of the camera is a step. -/
theorem Filmed.busStep (h : BusStep A f f') : ∃ d, BusStep A f.now d ∧ f' = f.next d := by
  cases h with
  | transfer rounds frame recv _ hframe => exact ⟨_, .transfer rounds frame recv f.now hframe, rfl⟩
  | pciInitialize => exact ⟨_, .pciInitialize f.now, rfl⟩
  | cfgInitialize config => exact ⟨_, .cfgInitialize config f.now, rfl⟩
  | setOptions => exact ⟨_, .setOptions f.now, rfl⟩
  | setSlaveSelect mask => exact ⟨_, .setSlaveSelect mask f.now, rfl⟩
  | start => exact ⟨_, .start f.now, rfl⟩

/-- Everything has been the case so far.  A property of the moments is proved as one of the
calls. -/
def Always (P : σ → Prop) (f : Filmed σ) : Prop := ∀ d ∈ f.moments, P d

omit [XSpiDriver σ] in
/-- So it is the case now. -/
theorem Always.now {P : σ → Prop} (h : Always P f) : P f.now := h _ f.now_mem_moments

omit [XSpiDriver σ] in
/-- One moment more. -/
theorem Always.next {P : σ → Prop} (h : Always P f) {d : σ} (hd : P d) : Always P (f.next d) := by
  intro d' hd'
  rcases List.mem_append.mp hd' with hold | hnew
  · exact h d' hold
  · rwa [List.mem_singleton.mp hnew]

/-- **What every step keeps holds at every moment.**  The induction is on the steps of the
filmed driver, each of which adds one moment to the film. -/
theorem Always.of_busSteps {P : σ → Prop} (hstep : ∀ {d d'}, BusStep A d d' → P d → P d')
    (h : Relation.ReflTransGen (BusStep A) f f') (hf : Always P f) : Always P f' := by
  induction h with
  | refl => exact hf
  | tail _ h ih =>
      obtain ⟨d, hd, rfl⟩ := Filmed.busStep h
      exact ih.next (hstep hd ih.now)

/-! ## The flash code -/

/-- The event in front of another driver.  Only the states that it carries are changed. -/
def Event.map (g : σ → τ) : Event σ → Event τ
  | .transfer before frame status => .transfer (g before) frame status
  | .pciWrite before address word => .pciWrite (g before) address word
  | .percentage value => .percentage value
  | .verifyPassed => .verifyPassed
  | .label address => .label address
  | .data value => .data value

/-- The process, from here on in front of the camera.  The film is empty, and the record of
the events is kept. -/
def World.filmed (w : World σ) : World (Filmed σ) :=
  { w with
    bus := ⟨w.bus, []⟩
    events := w.events.map (Event.map fun d => ⟨d, []⟩) }

/-- The same call, in front of the camera: the same status, and the same state behind it. -/
def Films (call : Filmed σ → Xst × Filmed σ) (call' : σ → Xst × σ) : Prop :=
  ∀ f, (call f).1 = (call' f.now).1 ∧ (call f).2.now = (call' f.now).2

omit [XSpiDriver σ] in
/-- Two calls, one behind the other. -/
theorem Films.thenCall {call₁ call₂ : Filmed σ → Xst × Filmed σ} {call₁' call₂' : σ → Xst × σ}
    (h₁ : Films call₁ call₁') (h₂ : Films call₂ call₂') :
    Films (thenCall call₁ call₂) (thenCall call₁' call₂') := by
  intro f
  obtain ⟨hstatus, hnow⟩ := h₁ f
  by_cases hok : (call₁ f).1 = .success
  · rw [thenCall_of_success hok, thenCall_of_success (hstatus.symm.trans hok), ← hnow]
    exact h₂ _
  · rw [thenCall_of_ne hok, thenCall_of_ne fun hok' => hok (hstatus.trans hok')]
    exact ⟨rfl, hnow⟩

/-- The calls of the startup. -/
theorem bootCalls_films (configPtr : XSpiConfig) :
    Films (bootCalls (σ := Filmed σ) configPtr) (bootCalls configPtr) :=
  Films.thenCall (fun _ => ⟨rfl, rfl⟩) <| Films.thenCall (fun _ => ⟨rfl, rfl⟩) <|
    Films.thenCall (fun _ => ⟨rfl, rfl⟩) fun _ => ⟨rfl, rfl⟩

/-- The camera changes nothing.  The relation looks at the present state only; how long the
film is makes no difference. -/
def filming (σ : Type) [XSpiDriver σ] (rounds : ℕ) : Mirroring (Filmed σ) σ rounds where
  rel _ f d := f.now = d
  anyway h := h
  empty := True
  transfer := by
    rintro _ frame recv f _ - - rfl
    exact sameAnswer_of rfl
  select := by
    rintro f _ rfl
    exact ⟨Iff.rfl, rfl⟩
  start := by
    rintro f _ rfl
    rfl
  boot := by
    rintro _ configPtr f _ - rfl
    obtain ⟨hstatus, hnow⟩ := bootCalls_films configPtr f
    rw [hstatus]
    exact ⟨Iff.rfl, hnow, fun _ => hnow⟩
  write := by
    rintro _ register data f _ - rfl
    rfl

/-- A process and the same process in front of the camera.  They are related by the mirroring
of the filmed drivers, so every result on mirrored runs applies. -/
theorem filmed_mirrored (w : World σ) (rounds : ℕ) :
    Mirrored (filming σ rounds).rel false w.filmed w := by
  refine ⟨rfl, rfl, fun _ => rfl, ?_⟩
  change List.Forall₂ _ (w.events.map _) w.events
  rw [List.forall₂_map_left_iff, List.forall₂_same]
  intro e _
  cases e with
  | transfer before frame status =>
      refine .transfer rfl ?_
      cases status with
      | none => exact .none
      | some status => exact .some Iff.rfl
  | pciWrite => exact .pciWrite rfl
  | percentage => exact .percentage _
  | verifyPassed => exact .verifyPassed
  | label => exact .label _
  | data => exact .data _

/-- A filmed operation ends like the operation. -/
theorem run_filmed (env : Env) (operation : Operation) (w : World σ) :
    (operation.run env w.filmed).1 = (operation.run env w).1 ∧
      (operation.run env w.filmed).2.bus.now = (operation.run env w).2.bus := by
  have hmirrors : Mirrors (Mirrored (filming σ env.rounds).rel false) (operation.run env)
      (operation.run env) := (filming σ env.rounds).run false (.inr trivial)
  rcases paired_cases (hmirrors _ _ (filmed_mirrored w env.rounds)) with
    ⟨a, a', v, v', hrun, hrun', rfl, hv⟩ | ⟨why, v, v', hrun, hrun', hv⟩
  · rw [hrun, hrun']
    exact ⟨rfl, hv.bus⟩
  · rw [hrun, hrun']
    exact ⟨rfl, hv.bus⟩

end Kiflash
