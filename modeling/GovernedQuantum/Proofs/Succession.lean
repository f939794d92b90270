import GovernedQuantum.Proofs.Domains

/-!
# Runs in succession

A run begins with an empty console and without findings, and it ends with a scan. Everything else is
handed over from one run to the next. So, while the clock stands still, a program may be cut
anywhere: its parts, run one after another, come to the same as the whole.

* `Session.completed`: the end of a run in which requests are decided by themselves.
* `Domain.whole`: the machine as a domain of its own.
* `Session.ends_completed`: **a run is its turns**, whatever program they are taken from.
* `runs_compose`: **runs compose.**
-/

namespace GovernedQuantum

/-! ## The whole machine -/

namespace Domain

variable {π γ κ : Type}

/-- **The whole machine**, which sees everything. -/
def whole : Domain π κ := ⟨fun _ => true, true, fun p => p, fun c => c, fun n => n, fun t => t⟩

theorem whole_lawful [Physics π] [Coordinator κ] : (whole : Domain π κ).Lawful γ where
  timers _ _ := rfl
  requests _ := rfl
  entities _ _ := rfl
  attempt s i _ := by
    show s.attempt i = (s.attempt i).map fun t => t
    cases s.attempt i <;> rfl
  checkAfter _ _ _ _ := rfl
  unseen _ _ uncovered := absurd uncovered (by simp [whole])

/-- What the whole machine cannot tell apart, no part of it can. -/
theorem Same.of_whole {D : Domain π κ} {now : Nat} {s s' : Session π γ κ}
    (h : whole.Same now s s') : D.Same now s s' :=
  { h with
    gateway := fun _ => h.gateway rfl
    reviews := fun _ => h.reviews rfl
    physics := congrArg D.physics h.physics
    coordinator := congrArg D.coordinator h.coordinator
    nextHandle := congrArg D.nextHandle h.nextHandle
    tables := congrArg D.tables h.tables }

end Domain

/-! ## Runs -/

namespace Session

open Domain (whole whole_lawful)

variable {π γ κ : Type} {now : Nat} {s t r : Session π γ κ}

/-- A session at the start of a run is still if it was so before. -/
theorem Still.start (delays : s.delays = {}) (clock : s.clock.Reads now) (program : Program) :
    (s.start program none).Still now :=
  ⟨rfl, delays, clock⟩

/-- **`r` is what is left of a run** whose last turn ended with `t`. -/
structure Ends (now : Nat) (t r : Session π γ κ) : Prop where
  same : whole.Same now t.fireTimers r
  console : r.console.toList = t.console.toList
  errors : r.diagnostics.errors.toList = t.diagnostics.errors.toList

theorem ends_scan (still : t.Still now) (inOrder : t.InOrder) : Ends now t t.finalScan.halt where
  same := by
    have fired := still.keeps t.fireTimers_sameCourse t.fireTimers_keeps
    have scanned := still.keeps t.finalScan_sameCourse t.finalScan_keeps
    rw [finalScan_eq] at scanned ⊢
    exact { Domain.Same.refl fired with still' := scanned }
  console := by
    rw [finalScan_eq]
    rfl
  errors := by
    show t.finalScan.diagnostics.errors.toList = t.diagnostics.errors.toList
    rw [(finalScan_gains inOrder.scan).errors_eq]

variable [Physics π] [Gateway γ] [Coordinator κ] (decide : Request → Decision)

omit [Gateway γ] in
/-- A run starts in the same way, whatever its program is. -/
theorem inStep_start {D : Domain π κ} (law : D.Lawful γ) (delays : s.delays = {})
    (clock : s.clock.Reads now) (program : Program) :
    D.InStep now (s.start {} none) (s.start program none) :=
  Domain.Same.fireTimers law { Domain.Same.refl (Still.start delays clock {}) with }

/-- The end of a run in which requests are decided by themselves. -/
def completed (s : Session π γ κ) (program : Program) : Session π γ κ :=
  (s.runToCompletion program none fun _ r => decide r).2

theorem completed_settings {program : Program} (room : program.length ≤ s.settings.maxSteps) :
    (s.completed decide program).settings = s.settings := by
  have turned := (Roomy.start s room).settings decide
  rw [completed, completion_eq decide s room]
  exact (finalScan_sameCourse _).halt.2.1.trans turned

/-- **A run is its turns**, whatever program they are taken from. -/
theorem ends_completed (inOrder : s.InOrder) (delays : s.delays = {}) (clock : s.clock.Reads now)
    {program : Program} (room : program.length ≤ s.settings.maxSteps) :
    Ends now (program.instructions.foldl (turn decide) (s.start {} none))
      (s.completed decide program) := by
  obtain ⟨together, lines, found, plain, real⟩ :=
    (inStep_start whole_lawful delays clock program).turns decide whole_lawful program.instructions
      fun _ _ => rfl
  have kept :=
    (Roomy.start s room).kept decide inOrder_kept (inOrder_kept.start inOrder program none)
  have ends := ends_scan together.still' kept
  rw [completed, completion_eq decide s room]
  exact
    { same := together.trans ends.same
      console := by rw [ends.console, real.1, plain.1]; rfl
      errors := by rw [ends.errors, real.errors, plain.errors]; rfl }

omit [Gateway γ] in
/-- The next run starts in step with the last turn. -/
theorem Ends.inStep (h : Ends now t r) (program : Program) :
    whole.InStep now t (r.start program none) := by
  have started : whole.Same now t.fireTimers (r.start program none) :=
    { h.same with still' := Still.start h.same.still'.delays h.same.still'.clock program }
  exact (Domain.Same.fired (s := t) h.same.still).trans (started.fireTimers whole_lawful)

end Session

open Session

variable {π γ κ : Type} [Physics π] [Gateway γ] [Coordinator κ]

/-- **Runs compose.** From any session that a fresh one reaches, and while the clock stands still:
whether two programs are run as one or one after the other, all tables, the log of reviews and all
collaborators end in the same state. The consoles of the two runs make up that of the one, and so do
their errors. -/
theorem runs_compose {s₀ s : Session π γ κ} (fresh : s₀.IsFresh)
    (reached : s₀.Reaches s) {now : Nat} (clock : s.clock.Reads now) (delays : s.delays = {})
    (decide : Request → Decision) (p q : Program)
    (room : p.length + q.length ≤ s.settings.maxSteps) :
    let first := s.completed decide p
    let second := first.completed decide q
    let both := s.completed decide ⟨p.instructions ++ q.instructions⟩
    both.tables = second.tables ∧ both.reviews = second.reviews ∧ both.gateway = second.gateway ∧
      both.physics = second.physics ∧ both.coordinator = second.coordinator ∧
      both.nextHandle = second.nextHandle ∧
      both.console.toList = first.console.toList ++ second.console.toList ∧
      both.diagnostics.errors.toList =
        first.diagnostics.errors.toList ++ second.diagnostics.errors.toList := by
  intro first second both
  have inOrder := inOrder_kept.reaches fresh.inOrder reached
  have inOrder' : first.InOrder :=
    inOrder_kept.reaches fresh.inOrder (reaches_runToCompletion reached p none fun _ r => decide r)
  have roomFirst : p.length ≤ s.settings.maxSteps := Nat.le_of_add_right_le room
  have roomBoth : (⟨p.instructions ++ q.instructions⟩ : Program).length ≤ s.settings.maxSteps := by
    rw [Program.length, List.length_append]
    exact room
  have roomSecond : q.length ≤ first.settings.maxSteps := by
    rw [s.completed_settings decide roomFirst]
    exact Nat.le_of_add_left_le room
  have endsFirst : Ends now _ first := ends_completed decide inOrder delays clock roomFirst
  have still := endsFirst.same.still'
  have endsSecond : Ends now _ second :=
    ends_completed decide inOrder' still.delays still.clock roomSecond
  have endsBoth : Ends now _ both := ends_completed decide inOrder delays clock roomBoth
  rw [List.foldl_append] at endsBoth
  -- from the cut on, the turns of the whole program and those of the second run are in step
  obtain ⟨together, lines, found, whole, part⟩ :=
    (endsFirst.inStep {}).turns decide Domain.whole_lawful q.instructions fun _ _ => rfl
  have same := endsBoth.same.symm.trans (together.trans endsSecond.same)
  refine ⟨same.tables.symm, (same.reviews rfl).symm, (same.gateway rfl).symm, same.physics.symm,
    same.coordinator.symm, same.nextHandle.symm, ?_, ?_⟩
  · rw [endsBoth.console, whole.1, endsFirst.console, endsSecond.console, part.1]
    rfl
  · rw [endsBoth.errors, whole.errors, endsFirst.errors, endsSecond.errors, part.errors]
    rfl

/-- The first request is approved, all others are rejected. -/
def onlyFirst (r : Request) : Decision := if r.id = 1 then .approve else .reject

/-- A session with three qudits in a row. -/
def chained : Session SeededPhysics MemoryGateway Loopback :=
  (standard 1 {}).completed onlyFirst chain

theorem chained_reached : (standard 1 {}).Reaches chained :=
  reaches_runToCompletion (.refl _) chain none fun _ r => onlyFirst r

theorem chained_still : chained.Still 0 := by
  have fresh : (standard 1 {}).IsFresh := rfl
  exact (ends_completed onlyFirst fresh.inOrder rfl (fun _ => rfl) (by decide)).same.still'

theorem chained_settings : chained.settings = {} := completed_settings onlyFirst (by decide)

/-- A contract that is deployed with the approval of a human, and what comes after. -/
def opening : Program where
  instructions :=
    [⟨.declareContract, ["m"], ⟨1, 1⟩⟩, ⟨.setExplainability, ["m", "0.5"], ⟨2, 1⟩⟩,
      ⟨.setOversight, ["m", "approval"], ⟨3, 1⟩⟩, ⟨.deploy, ["m", "field"], ⟨4, 1⟩⟩,
      ⟨.measure, ["a"], ⟨5, 1⟩⟩]

def closing : Program where
  instructions :=
    [⟨.release, ["a"], ⟨6, 1⟩⟩, ⟨.deploy, ["m", "town"], ⟨7, 1⟩⟩,
      ⟨.disentangle, ["b", "c"], ⟨8, 1⟩⟩]

/-- The cut lies between the two requests. Both errors, a qudit that is gone and a rejection, are of
the second run. -/
theorem runs_compose_opening :
    let first := chained.completed onlyFirst opening
    let second := first.completed onlyFirst closing
    let both := chained.completed onlyFirst ⟨opening.instructions ++ closing.instructions⟩
    (standard 1 {}).IsFresh ∧ (standard 1 {}).Reaches chained ∧ chained.clock.Reads 0 ∧
      chained.delays = {} ∧ opening.length + closing.length ≤ chained.settings.maxSteps ∧
      both.reviews = second.reviews ∧ second.reviews.size = 2 ∧
      both.diagnostics.errors.toList =
        first.diagnostics.errors.toList ++ second.diagnostics.errors.toList ∧
      second.diagnostics.errors.size = 2 := by
  intro first second both
  have fresh : (standard 1 {}).IsFresh := rfl
  have room : opening.length + closing.length ≤ chained.settings.maxSteps := by
    rw [chained_settings]
    decide
  obtain ⟨-, reviews, -, -, -, -, -, errors⟩ :=
    runs_compose fresh chained_reached chained_still.clock chained_still.delays onlyFirst opening
      closing room
  exact ⟨fresh, chained_reached, chained_still.clock, chained_still.delays, room, reviews,
    by decide +kernel, errors, by decide +kernel⟩

end GovernedQuantum
