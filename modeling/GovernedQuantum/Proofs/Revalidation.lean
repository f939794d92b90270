import GovernedQuantum.Proofs.StaticSoundness
import GovernedQuantum.Proofs.Validation

/-!
# Declarations at run time

The checker judges an entity by its attributes as they end, after all modifiers of the program. A
session judges it by the same constraints right after its declaration, when it has its defaults. The
two differ in one place only: a default score that is below the threshold is blamed at run time,
even if the program raises it in the next line.

* `Instruction.isDeclarative`: declarations and modifiers of entities.
* `Instruction.blame`: what the session says of a declaration.
* `Session.Declaring`: a session in the middle of such a program. `Session.Declaring.step`: one
  statement further.
* `Session.revalidation_blames_defaults`: **a run of declarations reports exactly these errors**, so
  none at all where the threshold is within reach of the default score.
-/

namespace GovernedQuantum

namespace Instruction

/-- Declarations of entities, and modifiers. -/
def isDeclarative (i : Instruction) : Bool :=
  match i.opcode with
  | .declareContract | .setExplainability | .setOversight | .setCriticality | .approve => true
  | _ => false

/-- **What a session says of a declaration** under a threshold that the default score does not
reach. -/
def blame (threshold : Binary64) (i : Instruction) : List Diagnostic :=
  if i.opcode = .declareContract ∧ threshold.le defaultScore = false then
    let name := i.arg 0
    let score := defaultScore.toFixed 2
    let bound := threshold.toFixed 2
    let exact := threshold.toText
    [{ severity := .error
       category := .aiSafety
       location := i.location
       message := s!"explainability {score} of '{name}' is below the required {bound}"
       suggestion := some
         s!"raise it with `explain {name} {exact}` or add `oversee {name} supervision`" }]
  else []

variable {i : Instruction}

theorem isGated_of_isDeclarative (h : i.isDeclarative = true) :
    i.opcode.operationKind.isGated = false := by
  unfold isDeclarative at h
  cases op : i.opcode with
  | declareContract | setExplainability | setOversight | setCriticality | approve => rfl
  | _ =>
    rw [op] at h
    exact absurd h (by decide)

theorem resources_of_isDeclarative (h : i.isDeclarative = true) : i.resources = [] := by
  unfold isDeclarative at h
  cases op : i.opcode with
  | declareContract | setExplainability | setOversight | setCriticality | approve =>
    rw [resources, op]
  | _ =>
    rw [op] at h
    exact absurd h (by decide)

theorem interactionOperands_of_isDeclarative (h : i.isDeclarative = true) :
    i.interactionOperands = [] := by
  unfold isDeclarative at h
  cases op : i.opcode with
  | declareContract | setExplainability | setOversight | setCriticality | approve =>
    rw [interactionOperands, op]
  | _ =>
    rw [op] at h
    exact absurd h (by decide)

theorem blame_fatal {threshold : Binary64} {d : Diagnostic} (h : d ∈ i.blame threshold) :
    d.severity = .error ∧ d.fatal = false := by
  unfold blame at h
  split at h
  · rw [List.mem_singleton.1 h]
    exact ⟨rfl, rfl⟩
  · exact absurd h List.not_mem_nil

/-- Nothing is to be blamed exactly where the default score will do, or nothing is declared. -/
theorem flatMap_blame_eq_nil_iff {threshold : Binary64} {is : List Instruction} :
    is.flatMap (·.blame threshold) = [] ↔
      threshold.le defaultScore = true ∨ ∀ i ∈ is, i.opcode ≠ .declareContract := by
  rw [List.flatMap_eq_nil_iff]
  constructor
  · intro silent
    by_cases within : threshold.le defaultScore = true
    · exact .inl within
    · rw [Bool.not_eq_true] at within
      refine .inr fun i hi declares => ?_
      have said := silent i hi
      rw [blame, if_pos ⟨declares, within⟩] at said
      exact absurd said (by simp)
  · intro fine i hi
    rw [blame, if_neg]
    rintro ⟨declares, short⟩
    rcases fine with within | none
    · exact absurd (short.symm.trans within) (by simp)
    · exact none i hi declares

/-- Before a declaration or a modifier nothing is owed, and after a modifier neither. -/
theorem owed_of_isDeclarative {threshold : Binary64} {views : EntityViews} {partners : Partners}
    {c : Constraint} (h : i.isDeclarative = true) (hc : c ∈ owed threshold views partners i) :
    i.opcode = .declareContract ∧ c.phase = .post := by
  have none := resources_of_isDeclarative h
  have free := isGated_of_isDeclarative h
  cases owes_of_mem hc with
  | explainable op | compliant op | overseen op => exact ⟨op, rfl⟩
  | tracked operand | unused operand | coherent operand =>
    rw [none] at operand
    exact absurd operand List.not_mem_nil
  | total op | backed op | entangled op =>
    rw [isDeclarative, op] at h
    exact absurd h (by decide)
  | stillExplainable op | stillCompliant op =>
    rcases op with op | op <;> rw [op] at free <;> exact absurd free (by decide)
  | stillOverseen op | approved op =>
    rw [op] at free
    exact absurd free (by decide)

end Instruction

namespace Session

variable {π γ κ : Type}

/-! ## One statement -/

/-- Declarations and modifiers fail only for reasons that checking rules out. -/
theorem Fails.isStatic_of_isDeclarative [Coordinator κ] {s t : Session π γ κ} {i : Instruction}
    {f : Fault} (h : s.Fails i f t) (declarative : i.isDeclarative = true) : f.isStatic = true := by
  have none := Instruction.resources_of_isDeclarative declarative
  cases h with
  | unresolved gets operand | decoherent gets operand =>
    rw [none] at operand
    exact absurd operand (by simp)
  | selfEntanglement op | refused op =>
    rcases op with op | op <;> rw [Instruction.isDeclarative, op] at declarative <;>
      exact absurd declarative (by decide)
  | alreadyEntangled op | notEntangled op | invertedWindow op | swapRefused op =>
    rw [Instruction.isDeclarative, op] at declarative
    exact absurd declarative (by decide)
  | _ => rfl

/-- Declarations and modifiers write their entity, a declaration with its defaults. -/
theorem Effect.writes [Physics π] [Coordinator κ] {s t : Session π γ κ} {i : Instruction}
    (h : s.Effect i t) (declarative : i.isDeclarative = true) :
    ∃ e line, (i.opcode = .declareContract → e = .declare (i.arg 0)) ∧
      t = (s.withTables (s.tables.putEntity (i.arg 0) e)).say line := by
  cases h with
  | declare op unknown => exact ⟨_, _, fun _ => rfl, rfl⟩
  | govern known change =>
    cases change with
    | explainability op | oversight op | criticality op | approve op =>
      exact ⟨_, _, fun other => absurd (op.symm.trans other) (by simp), rfl⟩
    | deploy op | verify op | decide op =>
      rw [Instruction.isDeclarative, op] at declarative
      exact absurd declarative (by decide)
  | allocate op | entangle op | disentangle op | applyGate op | measure op | release op | bind op
  | print op | targetNode op | channel op | barrier op | window op | entangleRemote op | teleport op
  | swap op =>
    rw [Instruction.isDeclarative, op] at declarative
    exact absurd declarative (by decide)

/-- There is nothing to look at behind a declaration or a modifier but its constraints. -/
theorem checkAfter_of_isDeclarative {s : Session π γ κ} {i : Instruction}
    (h : i.isDeclarative = true) (approved : Bool) : s.checkAfter i approved = s.readClock.2 := by
  have nothing : (s.readClock.2).checkOversight i approved = s.readClock.2 := by
    unfold checkOversight
    rw [Instruction.isGated_of_isDeclarative h, Bool.and_false]
    rfl
  unfold checkAfter
  rw [Instruction.interactionOperands_of_isDeclarative h]
  exact nothing

/-- A declared entity, judged by its defaults, falls short in its score or in nothing. -/
theorem findings_of_declared {s : Session π γ κ} {i : Instruction} {threshold : Binary64}
    {views : EntityViews} {partners : Partners} (op : i.opcode = .declareContract)
    (known : s.tables.entities.find? (i.arg 0) = some (.declare (i.arg 0))) :
    findings i.location (owed threshold views partners i) s = i.blame threshold := by
  have view : (s.tables.context s.clock.now).entity (i.arg 0) = some {} := by
    show (s.tables.entities.find? (i.arg 0)).map Entity.view = _
    rw [known]
    rfl
  have timeless : ∀ c ∈ owed threshold views partners i, c.isTimeless = true := by
    intro c hc
    rw [owed, op] at hc
    rcases List.mem_append.1 hc with hc | hc
    · rcases List.mem_pair.1 hc with rfl | rfl <;> rfl
    · split at hc
      · rw [List.mem_singleton.1 hc]
        rfl
      · exact absurd hc List.not_mem_nil
  have compliance : (Constraint.compliance (i.arg 0) .post).finding?
      (s.tables.context s.clock.now) i.location = none := by
    simp [Constraint.finding?, Constraint.evaluate, Constraint.compliance, Constraint.violation?,
      Constraint.onEntity, view]
  have oversight : (Constraint.humanOversight (i.arg 0) .post).finding?
      (s.tables.context s.clock.now) i.location = none := by
    have low : Criticality.medium.requiresOversight = false := rfl
    simp [Constraint.finding?, Constraint.evaluate, Constraint.humanOversight,
      Constraint.violation?, Constraint.onEntity, view, low]
  have score : ((Constraint.explainability (i.arg 0) threshold .post).finding?
      (s.tables.context s.clock.now) i.location).toList = i.blame threshold := by
    by_cases within : threshold.le defaultScore = true <;>
      simp [Constraint.finding?, Constraint.evaluate, Constraint.explainability,
        Constraint.violation?, Constraint.onEntity, view, within, Oversight.isHumanInLoop,
        Instruction.blame, op, Violation.diagnostic]
  rw [findings_of_isTimeless _ _ timeless, owed, op, ← score]
  dsimp only
  rw [List.filterMap_append]
  have nothing (stake : Bool) : (if stake = true then [Constraint.humanOversight (i.arg 0) .post]
      else []).filterMap (·.finding? (s.tables.context s.clock.now) i.location) = [] := by
    cases stake <;> simp [oversight]
  rw [nothing, List.append_nil]
  cases hf : (Constraint.explainability (i.arg 0) threshold .post).finding?
    (s.tables.context s.clock.now) i.location <;> simp [hf, compliance]

/-! ## A program of declarations -/

/-- **A session in the middle of a program of declarations**: it has said of those behind it what
there is to say, and nothing else. -/
structure Declaring (threshold : Binary64) (is : List Instruction) (types : List InferredType)
    (before : List Instruction) (s : Session π γ κ) : Prop where
  program : s.program.instructions = is
  annotations : s.annotations = some types.toArray
  idle : s.suspension = none
  backed : s.tables.Backed before s.nextHandle
  /-- No qudit has come into being. -/
  register : s.tables.register = {}
  diagnostics : s.diagnostics = { errors := (before.flatMap (·.blame threshold)).toArray }

/-- The types carry what the instructions owe under the threshold. -/
def Typed (threshold : Binary64) (types : List InferredType) (is : List Instruction) : Prop :=
  ∀ before i after, is = before ++ i :: after → ∃ t views partners,
    types[before.length]? = some t ∧ t.constraints = owed threshold views partners i

end Session

theorem Diagnostics.pushAll_errors {ds : Diagnostics} {found : List Diagnostic}
    (errors : ∀ d ∈ found, d.severity = .error) :
    ds.pushAll found = { ds with errors := ds.errors ++ found.toArray } := by
  induction found generalizing ds with
  | nil => simp [pushAll]
  | cons d rest ih =>
    obtain ⟨head, tail⟩ := List.forall_mem_cons.1 errors
    rw [pushAll, List.foldl_cons, ← pushAll, ih tail, push, head]
    simp

namespace Session

variable {π γ κ : Type}

namespace Declaring

variable {threshold : Binary64} {is before after : List Instruction} {types : List InferredType}
  {i : Instruction} {s : Session π γ κ}

/-- Noting deadlines is nothing where there are no qudits. -/
theorem fireTimers (h : s.Declaring threshold is types before) :
    s.fireTimers.Declaring threshold is types before where
  program := h.program
  annotations := h.annotations
  idle := h.idle
  backed := h.backed.of_same s.fireTimers_sameQudits rfl rfl
  register := by
    show s.tables.register.mapHandles _ = _
    rw [h.register]
    rfl
  diagnostics := h.diagnostics

/-- No constraint stops a declaration or a modifier. -/
theorem prepared (h : s.Declaring threshold is types before) (typed : Typed threshold types is)
    (split : is = before ++ i :: after) (declarative : i.isDeclarative = true) :
    s.prepared before.length i = (true, s.fireTimers) := by
  obtain ⟨t, views, partners, ht, owes⟩ := typed before i after split
  have none : s.fireTimers.constraintsAt before.length .pre = [] := by
    rw [constraintsAt, h.fireTimers.annotations, Option.bind_some, List.getElem?_toArray, ht,
      List.eq_nil_iff_forall_not_mem]
    intro c hc
    obtain ⟨hc, pre⟩ := InferredType.mem_constraintsIn.1 hc
    rw [owes] at hc
    exact absurd (pre.symm.trans (Instruction.owed_of_isDeclarative declarative hc).2) (by simp)
  rw [Session.prepared, Session.validate, none]
  rfl

/-- What is found after a statement that has written its entity. -/
theorem findings_after (h : s.Declaring threshold is types before)
    (typed : Typed threshold types is) (split : is = before ++ i :: after)
    (declarative : i.isDeclarative = true) {e : Entity}
    (declares : i.opcode = .declareContract → e = .declare (i.arg 0)) (line : String) :
    findings i.location
      (((s.withTables (s.tables.putEntity (i.arg 0) e)).say line).constraintsAt before.length .post)
      ((s.withTables (s.tables.putEntity (i.arg 0) e)).say line) = i.blame threshold := by
  obtain ⟨type, views, partners, htype, owes⟩ := typed before i after split
  have constraints : s.constraintsAt before.length .post = owed threshold views partners i := by
    rw [constraintsAt, h.annotations, Option.bind_some, List.getElem?_toArray, htype]
    show type.constraints.filter _ = _
    rw [owes, List.filter_eq_self]
    intro c hc
    exact decide_eq_true (Instruction.owed_of_isDeclarative declarative hc).2
  rw [show ((s.withTables (s.tables.putEntity (i.arg 0) e)).say line).constraintsAt
    before.length .post =
    s.constraintsAt before.length .post from rfl, constraints]
  by_cases op : i.opcode = .declareContract
  · refine findings_of_declared op ?_
    show (s.tables.entities.insert (i.arg 0) e).find? (i.arg 0) = _
    rw [Table.find?_insert, if_pos rfl, declares op]
  · have nothing : owed threshold views partners i = [] := by
      rw [List.eq_nil_iff_forall_not_mem]
      exact fun c hc => op (Instruction.owed_of_isDeclarative declarative hc).1
    rw [nothing, Instruction.blame, if_neg (fun both => op both.1)]
    rfl

variable [Physics π] [Coordinator κ]

/-- A statement takes effect, and what is said of it is its blame. -/
theorem settle (h : s.Declaring threshold is types before) (wf : WellFormed threshold is)
    (typed : Typed threshold types is) (split : is = before ++ i :: after)
    (declarative : i.isDeclarative = true) :
    (s.settle before.length i false).Declaring threshold is types (before ++ [i]) := by
  cases ends : s.attempt i with
  | failed f t =>
    -- what checking rules out does not happen
    have fails := attempt_failed_iff.1 ends
    obtain ⟨dynamic, -⟩ :=
      h.backed.fault (wf.resolved.of_append split) (wf.linear.of_append split) fails
    have static := fails.isStatic_of_isDeclarative declarative
    exact absurd (dynamic.symm.trans static) (by simp)
  | done t =>
    have effect := attempt_done_iff.1 ends
    have backed := h.backed.effect effect
    obtain ⟨e, line, declares, rfl⟩ := effect.writes declarative
    obtain ⟨n, validated⟩ := validateAll_eq_findings i.location
      (((s.withTables (s.tables.putEntity (i.arg 0) e)).say line).constraintsAt before.length .post)
      ((s.withTables (s.tables.putEntity (i.arg 0) e)).say line)
    rw [h.findings_after typed split declarative declares line] at validated
    rw [Session.settle, ends]
    dsimp only
    rw [Session.validate, validated, checkAfter_of_isDeclarative declarative]
    refine ⟨h.program, h.annotations, h.idle, backed, h.register, ?_⟩
    show s.diagnostics.pushAll _ = _
    rw [h.diagnostics, Diagnostics.pushAll_errors fun d hd => (Instruction.blame_fatal hd).1,
      List.flatMap_append, List.flatMap_singleton, List.append_toArray]

/-- **One statement further.** -/
theorem step [Gateway γ] (h : s.Declaring threshold is types before) (wf : WellFormed threshold is)
    (typed : Typed threshold types is) (split : is = before ++ i :: after)
    (declarative : i.isDeclarative = true) :
    ∃ t, s.step before.length i = .next t ∧ s.SameCourse t ∧
      t.Declaring threshold is types (before ++ [i]) := by
  have free := Instruction.isGated_of_isDeclarative declarative
  have passed := h.prepared typed split declarative
  have course := s.step_sameCourse before.length i
  rcases s.step_cases before.length i with ⟨stopped, -⟩ | ⟨-, -, gated, -⟩ | ⟨-, -, gated, -⟩ |
    ⟨-, -, he⟩
  · rw [passed] at stopped
    exact absurd stopped (by simp)
  · exact absurd (gated.symm.trans free) (by simp)
  · exact absurd (gated.symm.trans free) (by simp)
  · rw [he] at course
    refine ⟨_, he, course, ?_⟩
    rw [passed]
    exact h.fireTimers.settle wf typed split declarative

omit [Physics π] [Coordinator κ] in
/-- At the end there is nothing to find. -/
theorem finalScan (h : s.Declaring threshold is types before) : s.finalScan = s.fireTimers := by
  have empty := h.fireTimers.register
  unfold Session.finalScan
  dsimp only
  rw [empty]
  show s.fireTimers.tables.register.inconsistencies.foldl _ s.fireTimers = _
  rw [empty]
  rfl

omit [Physics π] [Coordinator κ] in
theorem hasFatal (h : s.Declaring threshold is types before) : s.diagnostics.hasFatal = false := by
  rw [h.diagnostics, Diagnostics.hasFatal]
  simp only [List.any_toArray, List.any_eq_false, List.mem_flatMap]
  rintro d ⟨i, -, hd⟩
  simp [(Instruction.blame_fatal hd).2]

/-- **The whole program**: what is said in the end is the blame of its declarations. -/
theorem drive [Gateway γ] (wf : WellFormed threshold is) (typed : Typed threshold types is)
    (declarative : ∀ i ∈ is, i.isDeclarative = true) {rest : List Instruction}
    (h : s.Declaring threshold is types before) (split : is = before ++ rest)
    (position : s.position = before.length) (room : s.steps + rest.length ≤ s.settings.maxSteps) :
    (Session.drive rest s).diagnostics = { errors := (is.flatMap (·.blame threshold)).toArray } ∧
      (Session.drive rest s).suspension = none := by
  -- on what is left of the program; what is behind grows by one statement a cycle
  induction rest generalizing before s with
  | nil =>
    rw [List.append_nil] at split
    rw [Session.drive, h.finalScan, split]
    exact ⟨h.diagnostics, h.idle⟩
  | cons i rest ih =>
    have counted : s.counted.Declaring threshold is types before :=
      ⟨h.program, h.annotations, h.idle, h.backed, h.register, h.diagnostics⟩
    have mine : i.isDeclarative = true := declarative i (by rw [split]; simp)
    obtain ⟨t, he, course, ht⟩ := counted.step wf typed split mine
    rw [List.length_cons] at room
    have within : ¬ s.settings.maxSteps < s.steps + 1 := by omega
    rw [← position] at he
    rw [Session.drive]
    dsimp only
    rw [if_neg within, show ({ s with steps := s.steps + 1 } : Session π γ κ) =
      s.counted from rfl, he]
    dsimp only
    rw [if_neg (by simp [ht.hasFatal])]
    have further : t.position + 1 = (before ++ [i]).length := by
      rw [course.position, List.length_append]
      exact congrArg (· + 1) position
    have steps : t.steps = s.steps + 1 := course.steps
    have settings : t.settings = s.settings := course.settings
    refine ih (s := { t with position := t.position + 1 })
      ⟨ht.program, ht.annotations, ht.idle, ht.backed, ht.register, ht.diagnostics⟩ ?_ further ?_
    · rw [split, List.append_assoc, List.singleton_append]
    · show t.steps + rest.length ≤ t.settings.maxSteps
      rw [steps, settings]
      omega

end Declaring

/-- A fresh session at the start of such a program. -/
theorem IsFresh.declaring {s : Session π γ κ} (fresh : s.IsFresh) (threshold : Binary64)
    {is : List Instruction} {types : List InferredType}
    (fits : types.length = (⟨is⟩ : Program).length) :
    (s.start ⟨is⟩ (some types)).Declaring threshold is types [] := by
  have empty : s.tables = {} := fresh
  rw [s.start_of_fits fits]
  refine ⟨rfl, rfl, rfl, ?_, ?_, rfl⟩
  · show s.tables.Backed [] s.nextHandle
    rw [empty]
    exact .empty _
  · show s.tables.register = {}
    rw [empty]

variable [Physics π] [Gateway γ] [Coordinator κ]

/-- **Revalidation blames defaults.** A fresh session runs a compiled program of declarations and
modifiers, with the checker's types as annotations and with room for its steps. It asks nobody. It
reports the blame of each declaration, in order, and nothing else: one error a declaration where the
default score is below the threshold, whatever the modifiers, and none where it is not. -/
theorem revalidation_blames_defaults {source : String} {limits : Limits} {s : Session π γ κ}
    (compiled : (compile source limits).success = true)
    (declarative : ∀ i ∈ (compile source limits).program.instructions, i.isDeclarative = true)
    (fresh : s.IsFresh) (room : (compile source limits).program.length ≤ s.settings.maxSteps)
    (decide : List Request → Request → Decision) :
    s.runToCompletion (compile source limits).program (some (compile source limits).types) decide =
      ([], s.run (compile source limits).program (some (compile source limits).types)) ∧
    (s.run (compile source limits).program (some (compile source limits).types)).diagnostics =
      { errors := ((compile source limits).program.instructions.flatMap
          (·.blame limits.explainabilityThreshold)).toArray } ∧
    ((s.run (compile source limits).program
        (some (compile source limits).types)).diagnostics.hasErrors = false ↔
      limits.explainabilityThreshold.le defaultScore = true ∨
        ∀ i ∈ (compile source limits).program.instructions, i.opcode ≠ .declareContract) := by
  obtain ⟨is, program, isOk, types⟩ := Compilation.checked_of_success compiled
  have wf := wellFormed_of_isOk isOk
  rw [show (compile source limits).program = ⟨is⟩ from program] at declarative room ⊢
  have fits : (compile source limits).types.length = (⟨is⟩ : Program).length := by
    rw [compile, types]
    exact (length_types _ _ _).trans (List.length_map _)
  have typed : Typed limits.explainabilityThreshold (compile source limits).types is := by
    intro before i after split
    rw [compile, types]
    exact constraints_check source limits.toCheckOptions wf.resolved split
  have start := fresh.declaring limits.explainabilityThreshold fits
  have position : (s.start ⟨is⟩ (some (compile source limits).types)).position = 0 ∧
      (s.start ⟨is⟩ (some (compile source limits).types)).steps = 0 ∧
      (s.start ⟨is⟩ (some (compile source limits).types)).settings = s.settings := by
    rw [s.start_of_fits fits]
    exact ⟨rfl, rfl, rfl⟩
  obtain ⟨said, idle⟩ := start.drive wf typed declarative rfl position.1 (by
    rw [position.2.1, position.2.2, Nat.zero_add]
    exact room)
  refine ⟨?_, said, ?_⟩
  · have ends (fuel : Nat) : answerAll decide fuel []
        (s.run ⟨is⟩ (some (compile source limits).types)) =
          ([], s.run ⟨is⟩ (some (compile source limits).types)) := by
      cases fuel with
      | zero => rfl
      | succ fuel =>
        rw [answerAll, show (s.run ⟨is⟩ (some (compile source limits).types)).suspension =
          none from idle]
    rw [runToCompletion, ends]
    rfl
  · rw [show (s.run ⟨is⟩ (some (compile source limits).types)).diagnostics = _ from said,
      Diagnostics.hasErrors, ← Instruction.flatMap_blame_eq_nil_iff]
    simp only [Bool.not_eq_false', List.isEmpty_toArray, List.isEmpty_iff]

/-- A contract whose score is raised above a strict threshold in the next line. -/
def amended : String := "contract c explain c 0.95"

def strict : Limits := { explainabilityThreshold := 0.9 }

/-- The checker accepts it, and a session blames it all the same. -/
theorem revalidation_blames_defaults_amended :
    (compile amended strict).success = true ∧
    (∀ i ∈ (compile amended strict).program.instructions, i.isDeclarative = true) ∧
    (Session.standard 1 {}).IsFresh ∧
    (compile amended strict).program.length ≤ (Session.standard 1 {}).settings.maxSteps ∧
    ((Session.standard 1 {}).run (compile amended strict).program
      (some (compile amended strict).types)).diagnostics.errors.toList.map (·.message) =
        ["explainability 0.85 of 'c' is below the required 0.90"] ∧
    ((Session.standard 1 {}).run (compile amended strict).program
      (some (compile amended strict).types)).diagnostics =
        { errors := ((compile amended strict).program.instructions.flatMap
          (·.blame strict.explainabilityThreshold)).toArray } := by
  have compiled : (compile amended strict).success = true := by decide +kernel
  have declarative :
      ∀ i ∈ (compile amended strict).program.instructions, i.isDeclarative = true := by
    decide +kernel
  have fresh : (Session.standard 1 {}).IsFresh := rfl
  have room :
      (compile amended strict).program.length ≤ (Session.standard 1 {}).settings.maxSteps := by
    decide +kernel
  exact ⟨compiled, declarative, fresh, room, by decide +kernel,
    (revalidation_blames_defaults compiled declarative fresh room fun _ _ => .reject).2.1⟩

end Session

end GovernedQuantum
