import GovernedQuantum.Proofs.Twins
import GovernedQuantum.Scripted
import GovernedQuantum.Session.Result

/-!
# Physics and explainers decide nothing

A session records the numbers of its physics and prints the words of its explainer. It never looks
at them again: no constraint, no gate and no fault hangs on them. Two runs of a program with other
numbers and other words therefore go the same way, from instruction to instruction and from request
to request.

* `Session.Abreast.step`, `Session.Abreast.drive`: **twins stay abreast** over an instruction and
  over all that are left.
* `Session.Abreast.resume`, `Session.Abreast.answerAll`: and over the answers to their requests.
* `Result.Alike`: what two results have in common.
* `Session.collaborator_opacity`: **twins run every program to like results.**
-/

namespace GovernedQuantum

/-- Steps that end alike: both are ready for the next instruction, or both wait for the same
answer. -/
inductive Stepped.Alike {σ σ' : Type} (R : σ → σ' → Prop) : Stepped σ → Stepped σ' → Prop
  | next {s : σ} {s' : σ'} (h : R s s') : Alike R (.next s) (.next s')
  | suspended (request : Request) {s : σ} {s' : σ'} (h : R s s') :
      Alike R (.suspended request s) (.suspended request s')

namespace Session.Abreast

variable {π π' γ κ : Type} {is : List Instruction} {s : Session π γ κ} {s' : Session π' γ κ}

/-! ## The cycle -/

section Cycle

variable (h : Abreast is s s')
include h

theorem fireTimers [Physics π] [Physics π'] : Abreast is s.fireTimers s'.fireTimers :=
  h.of_kin ((h.kin (s.clock.taken + 1)).fireTimers (Nat.lt_succ_self _)) s.fireTimers_keeps
    s.fireTimers_sameCourse s'.fireTimers_keeps s'.fireTimers_sameCourse

theorem report (d : Diagnostic) : Abreast is (s.report d) (s'.report d) :=
  { h with diagnostics := congrArg (·.push d) h.diagnostics }

theorem record (f : Fault) (location : Location) :
    Abreast is (s.record f location) (s'.record f location) :=
  h.report _

theorem say (line : String) : Abreast is (s.say line) (s'.say line) :=
  { h with console := forall₂_push h.console (.same line) }

theorem evaluate (c : Constraint) :
    ∃ found t t', s.evaluate c = (found, t) ∧ s'.evaluate c = (found, t') ∧ Abreast is t t' := by
  unfold Session.evaluate
  dsimp only [Session.readClock]
  rw [h.clock.now, h.tables.context]
  split
  · exact ⟨_, _, _, rfl, rfl, { h with clock := h.clock.read }⟩
  · exact ⟨_, _, _, rfl, rfl, h⟩

theorem validateAll (location : Location) (cs : List Constraint) :
    ∃ passed t t', Session.validateAll location cs s = (passed, t) ∧
      Session.validateAll location cs s' = (passed, t') ∧ Abreast is t t' := by
  induction cs generalizing s s' with
  | nil => exact ⟨true, s, s', rfl, rfl, h⟩
  | cons c rest ih =>
    obtain ⟨found, t, t', here, there, h⟩ := h.evaluate c
    unfold Session.validateAll
    rw [here, there]
    cases found with
    | none => exact ih h
    | some v =>
      obtain ⟨passed, u, u', here, there, h⟩ := ih (h.report (v.diagnostic location c.required))
      dsimp only
      rw [here, there]
      exact ⟨_, u, u', rfl, rfl, h⟩

theorem validate (index : Nat) (phase : Phase) (location : Location) :
    ∃ passed t t', s.validate index phase location = (passed, t) ∧
      s'.validate index phase location = (passed, t') ∧ Abreast is t t' := by
  have same : s'.constraintsAt index phase = s.constraintsAt index phase := by
    rw [constraintsAt, constraintsAt, h.annotations]
  unfold Session.validate
  rw [same]
  exact h.validateAll location _

theorem gate (i : Instruction) (profile : Profile) : s'.gate i profile = s.gate i profile := by
  unfold Session.gate
  rw [h.tables.entities]

theorem file [Gateway γ] (i : Instruction) (filing : Filing) :
    ∃ request t t', s.file i filing = (request, t) ∧ s'.file i filing = (request, t') ∧
      Abreast is t t' := by
  unfold Session.file
  rw [h.gateway, h.reviews]
  refine ⟨_, _, _, rfl, rfl, .say ?_ _⟩
  exact { h with gateway := rfl, reviews := rfl }

variable [Physics π] [Physics π']

theorem checkAfter (i : Instruction) (approved : Bool) :
    Abreast is (s.checkAfter i approved) (s'.checkAfter i approved) :=
  h.of_kin ((h.kin (s.clock.taken + 1)).checkAfter i approved (Nat.lt_succ_self _))
    (s.checkAfter_keeps i approved) (s.checkAfter_untouched i approved).toSameCourse
    (s'.checkAfter_keeps i approved) (s'.checkAfter_untouched i approved).toSameCourse

variable [Coordinator κ]

theorem settle {i : Instruction} (mem : i ∈ is) (index : Nat) (approved : Bool) :
    Abreast is (s.settle index i approved) (s'.settle index i approved) := by
  have alike := h.attempt mem
  unfold Session.settle
  generalize s.attempt i = a at alike
  generalize s'.attempt i = a' at alike
  cases alike with
  | failed f h => exact h.record f i.location
  | done h =>
    obtain ⟨passed, t, t', here, there, h⟩ := h.validate index .post i.location
    dsimp only
    rw [here, there]
    exact h.checkAfter i approved

/-- **Twins take a step alike**: what one is asked to have reviewed, so is the other. -/
theorem step [Gateway γ] {i : Instruction} (mem : i ∈ is) (index : Nat) :
    Stepped.Alike (Abreast is) (s.step index i) (s'.step index i) := by
  unfold Session.step
  obtain ⟨passed, t, t', here, there, h⟩ := h.fireTimers.validate index .pre i.location
  rw [here, there]
  cases passed with
  | false => exact .next h
  | true =>
    dsimp only
    rw [(h.kin 0).profile, h.gate]
    split
    · cases t.gate i (Profile.ofInstruction i t.tables.entities t.settings) with
      | passed => exact .next (h.settle mem index false)
      | closed f => exact .next (h.record f i.location)
      | review filing =>
        obtain ⟨request, u, u', here, there, h⟩ := h.file i filing
        dsimp only
        rw [here, there]
        exact .suspended request h
    · exact .next (h.settle mem index false)

end Cycle

/-! ## Runs -/

section Runs

theorem halt (h : Abreast is s s') : Abreast is s.halt s'.halt := by
  refine { h with status := ?_ }
  show (if s'.diagnostics.hasErrors then Status.haltedError else .haltedSuccess) = _
  rw [h.diagnostics]
  rfl

/-- Neither waits any longer. -/
theorem idle (h : Abreast is s s') :
    Abreast is { s with suspension := none, status := .running }
      { s' with suspension := none, status := .running } :=
  { h with
    suspension := rfl, status := rfl,
    waits := fun op waits => absurd waits (Option.not_mem_none op) }

variable [Physics π] [Physics π']

theorem finalScan (h : Abreast is s s') : Abreast is s.finalScan s'.finalScan :=
  h.of_kin ((h.kin s.finalScan.clock.taken).finalScan h.program (Nat.le_refl _)) s.finalScan_keeps
    s.finalScan_sameCourse s'.finalScan_keeps s'.finalScan_sameCourse

variable [Gateway γ] [Coordinator κ]

/-- **Twins stay abreast to the end of a run**, or to the request that both wait for. -/
theorem drive (h : Abreast is s s') {rest : List Instruction} (sub : ∀ i ∈ rest, i ∈ is) :
    Abreast is (Session.drive rest s) (Session.drive rest s') := by
  induction rest generalizing s s' with
  | nil => exact h.finalScan.halt
  | cons i rest ih =>
    have mem : i ∈ is := sub i (.head rest)
    have counted : Abreast is { s with steps := s.steps + 1 } { s' with steps := s'.steps + 1 } :=
      { h with steps := congrArg (· + 1) h.steps }
    unfold Session.drive
    generalize { s with steps := s.steps + 1 } = t at counted ⊢
    generalize { s' with steps := s'.steps + 1 } = t' at counted ⊢
    dsimp only
    have alike := counted.step mem t.position
    have maxSteps : t'.settings.maxSteps = t.settings.maxSteps := by rw [counted.settings]
    rw [maxSteps, counted.steps, counted.position]
    split
    · exact (counted.record _ _).halt
    · generalize t.step t.position i = a at alike ⊢
      generalize t'.step t.position i = a' at alike ⊢
      cases alike with
      | @suspended request u u' h =>
        have same : some (Suspension.mk request i u'.position) = some ⟨request, i, u.position⟩ := by
          rw [h.position]
        refine { h with status := rfl, suspension := same, waits := ?_ }
        rintro op ⟨⟩
        exact mem
      | @next u u' h =>
        have moved : Abreast is { u with position := u.position + 1 }
            { u' with position := u'.position + 1 } :=
          { h with position := congrArg (· + 1) h.position }
        have fatal : u'.diagnostics.hasFatal = u.diagnostics.hasFatal := by rw [h.diagnostics]
        dsimp only
        rw [fatal]
        split
        · exact moved.halt
        · exact ih moved fun j hj => sub j (.tail i hj)

theorem driveAfter (h : Abreast is s s') (index : Nat) :
    Abreast is (s.driveAfter index) (s'.driveAfter index) := by
  have moved : Abreast is { s with position := index + 1 } { s' with position := index + 1 } :=
    { h with position := rfl }
  have same : s'.program.instructions = s.program.instructions := by rw [h.program]
  unfold Session.driveAfter
  rw [same]
  refine moved.drive fun i hi => ?_
  rw [← h.runs]
  exact List.mem_of_mem_drop hi

/-- The answer is taken by both, or refused to both for the same reason. -/
theorem resume (h : Abreast is s s') (id : Nat) (d : Decision) :
    ∃ answer t t', s.resume id d = (answer, t) ∧ s'.resume id d = (answer, t') ∧
      Abreast is t t' := by
  unfold Session.resume
  cases waits : s.suspension with
  | none =>
    rw [h.suspension.trans waits]
    exact ⟨_, s, s', rfl, rfl, h⟩
  | some op =>
    have mem : op.instruction ∈ is := h.waits op waits
    rw [h.suspension.trans waits, h.gateway]
    dsimp only
    split
    · exact ⟨_, s, s', rfl, rfl, h⟩
    · obtain ⟨taken, gateway⟩ := Gateway.answer s.gateway id d
      cases taken with
      | error e =>
        refine ⟨.error e, _, _, rfl, rfl, { h with gateway := rfl, suspension := rfl, waits := ?_ }⟩
        rintro _ ⟨⟩
        exact mem
      | ok _ =>
        have decided : (decideLast id d s'.reviews.toList).toArray =
            (decideLast id d s.reviews.toList).toArray := by
          rw [h.reviews]
        have answered : Abreast is
            { s with
              gateway, suspension := none, status := .running
              reviews := (decideLast id d s.reviews.toList).toArray }
            { s' with
              gateway, suspension := none, status := .running
              reviews := (decideLast id d s'.reviews.toList).toArray } :=
          { h.idle with gateway := rfl, reviews := decided }
        refine ⟨.ok (), _, _, rfl, rfl, .driveAfter ?_ op.index⟩
        cases d with
        | approve => exact (answered.say _).settle mem op.index true
        | reject => exact answered.record _ op.instruction.location

theorem abandon (h : Abreast is s s') (op : Suspension) (e : ReviewError) :
    Abreast is (s.abandon op e) (s'.abandon op e) :=
  (h.idle.report _).driveAfter op.index

/-- **Twins are asked the same requests**, and stay abreast through the answers. -/
theorem answerAll (h : Abreast is s s') (decide : List Request → Request → Decision) (fuel : Nat)
    (asked : List Request) :
    ∃ all t t', Session.answerAll decide fuel asked s = (all, t) ∧
      Session.answerAll decide fuel asked s' = (all, t') ∧ Abreast is t t' := by
  induction fuel generalizing asked s s' with
  | zero => exact ⟨asked, s, s', rfl, rfl, h⟩
  | succ fuel ih =>
    unfold Session.answerAll
    rw [h.suspension]
    cases s.suspension with
    | none => exact ⟨asked, s, s', rfl, rfl, h⟩
    | some op =>
      obtain ⟨answer, t, t', here, there, h⟩ := h.resume op.request.id (decide asked op.request)
      dsimp only
      rw [here, there]
      cases answer with
      | ok _ => exact ih h (op.request :: asked)
      | error e => exact ih (h.abandon op e) (op.request :: asked)

end Runs

end Session.Abreast

/-! ## Results -/

/-- Results of two runs of `is` that agree in all but a physics' numbers and an explainer's
words. -/
structure Result.Alike (is : List Instruction) (r r' : Result) : Prop where
  success : r'.success = r.success
  status : r'.status = r.status
  console : List.Forall₂ (SameLine is) r.console r'.console
  errors : r'.errors = r.errors
  warnings : r'.warnings = r.warnings
  handles : r'.handles = r.handles
  groups : r'.groups = r.groups
  entities : r'.entities = r.entities
  values : r'.values = r.values
  records : List.Forall₂ Record.Alike r.records r'.records
  delegations : List.Forall₂ Ticket.Alike r.delegations r'.delegations
  barriers : r'.barriers = r.barriers
  windows : r'.windows = r.windows
  reviews : r'.reviews = r.reviews
  sessionId : r'.sessionId = r.sessionId

namespace Session

variable {π π' γ κ : Type} {s : Session π γ κ} {s' : Session π' γ κ}

theorem Abreast.result {is : List Instruction} (h : Abreast is s s') :
    s.result.Alike is s'.result where
  success := by rw [Session.result, Session.result, h.diagnostics]
  status := h.status
  console := h.console
  errors := congrArg (·.errors.toList) h.diagnostics
  warnings := congrArg (·.warnings.toList) h.diagnostics
  handles := by rw [Session.result, Session.result, h.tables.register]
  groups := congrArg (·.groups.values) h.tables.register
  entities := congrArg (·.values) h.tables.entities
  values := h.tables.values
  records := h.tables.records
  delegations := h.tables.delegations
  barriers := congrArg (·.values) h.tables.barriers
  windows := congrArg (·.values) h.tables.windows
  reviews := congrArg (·.toList) h.reviews
  sessionId := h.id

/-- A run starts twins abreast, whatever ran before. -/
theorem Twin.start (twins : s.Twin s') (program : Program)
    (annotations : Option (List InferredType)) :
    Abreast program.instructions (s.start program annotations) (s'.start program annotations) := by
  have fresh : Abreast program.instructions (s.start program none) (s'.start program none) :=
    { twins with
      status := rfl, program := rfl, annotations := rfl, position := rfl, steps := rfl
      suspension := rfl, diagnostics := rfl, console := .nil, runs := rfl
      waits := fun op waits => absurd waits (Option.not_mem_none op) }
  cases annotations with
  | none => exact fresh
  | some types =>
    unfold Session.start
    dsimp only
    split
    · exact { fresh with annotations := rfl }
    · exact fresh.report _

variable [Physics π] [Physics π'] [Gateway γ] [Coordinator κ]

theorem Twin.runToCompletion (twins : s.Twin s') (program : Program)
    (annotations : Option (List InferredType)) (decide : List Request → Request → Decision) :
    ∃ asked t t', s.runToCompletion program annotations decide = (asked, t) ∧
      s'.runToCompletion program annotations decide = (asked, t') ∧
      Abreast program.instructions t t' := by
  have run :
      Abreast program.instructions (s.run program annotations) (s'.run program annotations) :=
    (twins.start program annotations).drive fun _ hi => hi
  obtain ⟨asked, t, t', here, there, h⟩ := run.answerAll decide program.length []
  unfold Session.runToCompletion
  rw [here, there]
  exact ⟨asked.reverse, t, t', rfl, rfl, h⟩

/-- **Twins run every program to like results**, for any annotations and any way to decide on
requests. They are asked the same, what they show differs in numbers and words alone, and they are
twins again for the next run. -/
theorem collaborator_opacity (twins : s.Twin s') (program : Program)
    (annotations : Option (List InferredType)) (decide : List Request → Request → Decision) :
    (s'.runToCompletion program annotations decide).1 =
        (s.runToCompletion program annotations decide).1 ∧
      (s.runToCompletion program annotations decide).2.result.Alike program.instructions
        (s'.runToCompletion program annotations decide).2.result ∧
      (s.runToCompletion program annotations decide).2.Twin
        (s'.runToCompletion program annotations decide).2 := by
  obtain ⟨asked, t, t', here, there, h⟩ := twins.runToCompletion program annotations decide
  rw [here, there]
  exact ⟨rfl, h.result, h.toTwin⟩

/-- A program with a measurement, a verification and a decision that a human is asked about. -/
def recital : Program where
  instructions :=
    [⟨.allocQudit, ["d", "2"], ⟨1, 1⟩⟩, ⟨.measure, ["d"], ⟨2, 1⟩⟩,
      ⟨.declareContract, ["m"], ⟨3, 1⟩⟩, ⟨.setExplainability, ["m", "0.5"], ⟨4, 1⟩⟩,
      ⟨.setOversight, ["m", "approval"], ⟨5, 1⟩⟩, ⟨.verify, ["m"], ⟨6, 1⟩⟩,
      ⟨.decide, ["m", "go"], ⟨7, 1⟩⟩]

/-- A session whose physics always gives the same numbers, without an explainer. -/
def rehearsal : Session Scripted.PhysicsScript MemoryGateway Loopback where
  id := sessionName 1
  settings := {}
  clock := .stopped 0
  physics := .constant {}
  gateway := {}
  coordinator := {}

/-- An explainer with an answer to everything. -/
def orator : Provider :=
  Scripted.provider true (some "plain") (some (.list [.text "clear", .int 1]))

/-- Another outcome and an explainer: the request is the same, and three lines differ. -/
theorem collaborator_opacity_recital :
    let s := rehearsal
    let s' :=
      rehearsal.staffed (Scripted.PhysicsScript.constant { outcome := 1 }) (some orator) {} 7
    let t := (s.runToCompletion recital none fun _ _ => .approve).2.result
    let t' := (s'.runToCompletion recital none fun _ _ => .approve).2.result
    s.Twin s' ∧ t.Alike recital.instructions t' ∧
      ((t.console.zip t'.console).filter fun lines => lines.1 != lines.2).length = 3 := by
  intro s s' t t'
  have twins : s.Twin s' := twin_staffed _ _ _ _ _ rfl
  exact ⟨twins, (collaborator_opacity twins recital none _).2.1, by decide +kernel⟩

-- An explainer that moves the clock is no twin of one that leaves it alone: here a qudit decoheres
-- while the explainer is at work, and the gate on it fails.
example :
    let program : Program :=
      ⟨[⟨.allocQudit, ["d", "2"], ⟨1, 1⟩⟩, ⟨.declareContract, ["m"], ⟨2, 1⟩⟩,
        ⟨.verify, ["m"], ⟨3, 1⟩⟩, ⟨.applyGate, ["x", "d"], ⟨4, 1⟩⟩]⟩
    let slow := { rehearsal with delays := { explainer := 20000 } }
    (slow.run program none).status = .haltedSuccess ∧
      ({ slow with explainer := some orator }.run program none).status = .haltedError := by
  decide +kernel

end Session

end GovernedQuantum
