import GovernedQuantum.Proofs.Acceptance
import GovernedQuantum.Proofs.Accounting
import GovernedQuantum.Proofs.Escalation

/-!
# One policy, judged twice

Whether a governed action may take effect is judged in two places, by two rules. The gate judges the
profile of the action, in which a target can raise what is at stake, by thresholds of the session.
Constraints judge the entity alone: those that the checker attaches to a deployment, by a threshold
of its own and with a human in the loop in place of a score, and the one on oversight that the
session looks at behind the action. This file shows that the gate is the stricter judge.

* `Session.exists_done_of_passed`: what passes the gate is carried out.
* `Session.settle_errors_of_passes`: **the checks behind an instruction add no error** where the
  gate has let it through.
* `preConstraints_deploy`: the constraints that the checker attaches to a deployment.
* `Session.holds_deployConstraints`: **they hold where the gate opens**, if the checker asks for no
  higher score.
* `Session.verdict_implies_constraints`: the two judges together.
-/

namespace GovernedQuantum

/-! ## What the checker attaches to a deployment -/

/-- The constraints before a deployment. -/
def deployConstraints (entity : String) (threshold : Binary64) : List Constraint :=
  [.explainability entity threshold .pre, .compliance entity .pre, .humanOversight entity .pre]

/-- **The checker attaches them to every deployment of an entity that it knows**, and nothing to any
other. -/
theorem preConstraints_deploy {i : Instruction} (op : i.opcode = .deploy) (views : EntityViews)
    (options : CheckOptions) (σ : Symbols) (lines : Array (List Char)) (partners : Partners) :
    (infer views options σ (i.node lines partners)).type.constraintsIn .pre =
      if σ.entities.contains (i.arg 0) then
        deployConstraints (i.arg 0) options.explainabilityThreshold
      else [] := by
  have metadata : (i.node lines partners).metadata = .governed (i.arg 0) (.deploy (i.arg 1)) := by
    simp only [Instruction.node, Metadata.ofInstruction, op]
  unfold infer
  rw [metadata]
  dsimp only [Typing.ofEntity]
  split <;> rfl

/-- A required constraint holds just if it is upheld. -/
theorem Constraint.holds_iff_upheld {c : Constraint} {ctx : Context}
    (required : c.required = true) : c.evaluate ctx = none ↔ c.Upheld ctx :=
  ⟨fun holds _ => holds, fun upheld => upheld required⟩

/-! ## Where the gate opens -/

namespace Session

variable {π γ κ : Type} {s t : Session π γ κ} {i : Instruction}

theorem known_of_passed (gated : i.opcode.operationKind.isGated = true)
    (passed : (s.verdictOn i).passed = true) : ∃ e, s.tables.entities.find? (i.arg 0) = some e := by
  unfold verdictOn at passed
  dsimp only at passed
  rw [Profile.entity_of_gated gated, Option.bind_some] at passed
  cases known : s.tables.entities.find? (i.arg 0) with
  | some e => exact ⟨e, rfl⟩
  | none =>
    rw [known, Profile.verdict, Profile.entity_of_gated gated] at passed
    exact absurd passed (by simp [Verdict.passed])

/-- Where the gate opens for a deployment, the constraints before it hold just if the score is
enough for them too, or a human is in the loop. -/
theorem holds_deployConstraints_iff (op : i.opcode = .deploy)
    (passed : (s.verdictOn i).passed = true) {e : Entity}
    (known : s.tables.entities.find? (i.arg 0) = some e) (threshold : Binary64) (now : Nat) :
    (∀ c ∈ deployConstraints (i.arg 0) threshold, c.evaluate (s.tables.context now) = none) ↔
      threshold.le e.explainability = true ∨ e.oversight.isHumanInLoop = true := by
  have entity := context_entity known now
  obtain ⟨e', known', -, compliant, -⟩ := (Settings.admits_deploy_iff op).1 passed
  obtain rfl := Option.some.inj (known.symm.trans known')
  have gated : i.opcode.operationKind.isGated = true := by rw [op]; rfl
  have overseen := holds_humanOversight known (overseen_of_passed gated known passed) .pre now
  have complies : (Constraint.compliance (i.arg 0) .pre).evaluate (s.tables.context now) = none :=
    Constraint.upheld_compliance entity compliant rfl
  rw [deployConstraints, List.forall_mem_cons, List.forall_mem_cons, List.forall_mem_singleton,
    and_iff_left ⟨complies, overseen⟩, Constraint.holds_iff_upheld rfl,
    Constraint.upheld_explainability entity]
  rfl

/-- **The constraints before a deployment hold where the gate opens**, if the score that they ask
for is not above the one that the gate asks for. -/
theorem holds_deployConstraints (op : i.opcode = .deploy) (passed : (s.verdictOn i).passed = true)
    {threshold : Binary64}
    (lower : threshold.le (Profile.ofInstruction i s.tables.entities s.settings).threshold = true)
    (number : ∀ e, s.tables.entities.find? (i.arg 0) = some e → e.explainability.isNaN = false)
    (now : Nat) :
    ∀ c ∈ deployConstraints (i.arg 0) threshold, c.evaluate (s.tables.context now) = none := by
  obtain ⟨e, known, score, -⟩ := (Settings.admits_deploy_iff op).1 passed
  have selected : (Profile.ofInstruction i s.tables.entities s.settings).threshold =
      s.settings.threshold (e.stake (i.arg 1)) := by
    simp only [Profile.ofInstruction, op, Opcode.operationKind, OperationKind.isGoverned, if_true,
      Option.bind_some, known, true_and]
    rfl
  rw [selected] at lower
  refine (holds_deployConstraints_iff op passed known threshold now).2 (.inl ?_)
  exact Binary64.le_trans lower
    (Binary64.le_of_not_lt (number e known) (Binary64.le_iff.1 lower).2.1 score)

/-- Constraints that hold, and take no reading of the clock, are not noticed. -/
theorem validateAll_of_holds {cs : List Constraint} (holds : ∀ c ∈ cs, s.evaluate c = (none, s))
    (l : Location) : validateAll l cs s = (true, s) := by
  induction cs with
  | nil => rfl
  | cons c rest ih =>
    obtain ⟨first, later⟩ := List.forall_mem_cons.1 holds
    rw [validateAll, first]
    exact ih later

theorem evaluate_deployConstraints {entity : String} {threshold : Binary64} {c : Constraint}
    (hc : c ∈ deployConstraints entity threshold) :
    s.evaluate c = (c.evaluate (s.tables.context s.clock.now), s) := by
  simp only [deployConstraints, List.mem_cons, List.not_mem_nil, or_false] at hc
  rcases hc with rfl | rfl | rfl <;> rfl

/-! ## Behind the gate -/

variable [Physics π] [Coordinator κ]

/-- **What passes the gate is carried out.** -/
theorem exists_done_of_passed (gated : i.opcode.operationKind.isGated = true)
    (passed : (s.verdictOn i).passed = true) : ∃ t, s.attempt i = .done t := by
  obtain ⟨e, known⟩ := known_of_passed gated passed
  rcases Opcode.eq_of_isGated gated with op | op
  · simp only [attempt, op, deploy, updateEntity, known]
    exact ⟨_, rfl⟩
  · simp only [attempt, op, decide, known]
    exact ⟨_, rfl⟩

/-- **The checks behind an instruction add no error** to what constraints find there, where the gate
has let it through. -/
theorem settle_errors_of_passes (passes : s.passes i = true) (done : s.attempt i = .done t)
    (index : Nat) :
    (s.settle index i false).diagnostics.errors =
      (t.validate index .post i.location).2.diagnostics.errors := by
  rw [settle, done]
  exact checkAfter_errors (.inr passes) done (t.validate_untouched index .post i.location).tables

variable [Gateway γ]

/-- **A cycle in which an instruction takes effect reports no more errors than its constraints
find.** -/
theorem step_errors_of_log {index : Nat} (log : s.stepLog index i = [i]) :
    ∃ t, (s.prepared index i).2.attempt i = .done t ∧
      (s.step index i).session.diagnostics.errors =
        (t.validate index .post i.location).2.diagnostics.errors := by
  have opened : (s.prepared index i).2.passes i = true := by
    rw [stepLog] at log
    split at log
    · rename_i both
      exact (Bool.and_eq_true _ _ ▸ both).2
    · exact absurd log (by simp)
  rcases s.step_cases index i with ⟨-, idle, -⟩ | ⟨-, idle, -⟩ | ⟨-, idle, -⟩ | ⟨-, took, stepped⟩
  · exact absurd (log.symm.trans idle) (by simp)
  · exact absurd (log.symm.trans idle) (by simp)
  · exact absurd (log.symm.trans idle) (by simp)
  · rcases (s.prepared index i).2.settle_cases index i false with ⟨f, t, -, idle, -⟩ |
        ⟨t, done, -, -⟩
    · exact absurd ((log.symm.trans took).trans idle) (by simp)
    · rw [stepped]
      exact ⟨t, done, settle_errors_of_passes opened done index⟩

/-- **Where the gate opens, constraints hold.**

An instruction that takes effect in its own cycle, so that no human has approved it, has no error
reported by the checks behind it. In particular a deployment or a decision that passes verification
is carried out, and the constraint on oversight of its entity holds then. A deployment that passes
also meets the constraints that the checker attaches to it, in the state in which it passed, if the
checker asks for a score that is not above the one that verification selects, and the score of the
entity is a number at all. -/
theorem verdict_implies_constraints (s : Session π γ κ) (i : Instruction) :
    (∀ index, s.stepLog index i = [i] → ∃ t, (s.prepared index i).2.attempt i = .done t ∧
      (s.step index i).session.diagnostics.errors =
        (t.validate index .post i.location).2.diagnostics.errors) ∧
    (i.opcode = .deploy ∨ i.opcode = .decide → (s.verdictOn i).passed = true →
      (∃ t, s.attempt i = .done t ∧
        (∀ now, (Constraint.humanOversight (i.arg 0) .post).evaluate (t.tables.context now) =
          none) ∧
        ∀ index, (s.settle index i false).diagnostics.errors =
          (t.validate index .post i.location).2.diagnostics.errors) ∧
      (i.opcode = .deploy → ∀ (views : EntityViews) (options : CheckOptions) (σ : Symbols)
        (lines : Array (List Char)) (partners : Partners),
        σ.entities.contains (i.arg 0) = true →
        options.explainabilityThreshold.le
          (Profile.ofInstruction i s.tables.entities s.settings).threshold = true →
        (∀ e, s.tables.entities.find? (i.arg 0) = some e → e.explainability.isNaN = false) →
        let cs := (infer views options σ (i.node lines partners)).type.constraintsIn .pre
        cs = [.explainability (i.arg 0) options.explainabilityThreshold .pre,
            .compliance (i.arg 0) .pre, .humanOversight (i.arg 0) .pre] ∧
          (∀ c ∈ cs, ∀ now, c.evaluate (s.tables.context now) = none) ∧
          ∀ l, validateAll l cs s = (true, s))) := by
  refine ⟨fun index log => step_errors_of_log log, fun governed passed => ⟨?_, ?_⟩⟩
  · have gated : i.opcode.operationKind.isGated = true := by
      rcases governed with op | op <;> rw [op] <;> rfl
    obtain ⟨t, done⟩ := exists_done_of_passed gated passed
    obtain ⟨e, e', known, known', criticality, oversight⟩ := entity_of_done gated done
    have overseen := overseen_of_passed gated known passed
    rw [← criticality, ← oversight] at overseen
    exact ⟨t, done, holds_humanOversight known' overseen .post,
      settle_errors_of_passes ((s.passes_iff i).2 fun _ => passed) done⟩
  · intro op views options σ lines partners typed lower number cs
    have attached : cs = deployConstraints (i.arg 0) options.explainabilityThreshold :=
      (preConstraints_deploy op views options σ lines partners).trans (if_pos typed)
    have holds := holds_deployConstraints op passed lower number
    rw [attached]
    refine ⟨rfl, fun c hc now => holds now c hc, validateAll_of_holds fun c hc => ?_⟩
    rw [evaluate_deployConstraints hc, holds _ c hc]

/-- A session that knows one entity, which a human supervises and for which little is at stake. -/
def supervising : Session SeededPhysics MemoryGateway Loopback :=
  { Session.standard 1 {} with
    tables := (Session.standard 1 {}).tables.putEntity "bot" (.supervised 0.96) }

/-- The entity is deployed to a target of high risk, and has the score for it; the checker asks for
less. -/
theorem verdict_implies_constraints_toHighRisk :
    supervising.stepLog 0 toHighRisk = [toHighRisk] ∧
    (supervising.verdictOn toHighRisk).passed = true ∧
    (Profile.ofInstruction toHighRisk supervising.tables.entities supervising.settings).threshold =
      0.95 ∧
    (∃ t, (supervising.prepared 0 toHighRisk).2.attempt toHighRisk = .done t ∧
      (supervising.step 0 toHighRisk).session.diagnostics.errors =
        (t.validate 0 .post toHighRisk.location).2.diagnostics.errors) ∧
    (∃ t, supervising.attempt toHighRisk = .done t ∧
      ∀ now, (Constraint.humanOversight "bot" .post).evaluate (t.tables.context now) = none) ∧
    ∀ l, validateAll l [.explainability "bot" 0.9 .pre, .compliance "bot" .pre,
      .humanOversight "bot" .pre]
      supervising = (true, supervising) := by
  have logged : supervising.stepLog 0 toHighRisk = [toHighRisk] := by decide +kernel
  have passed : (supervising.verdictOn toHighRisk).passed = true := by decide +kernel
  obtain ⟨cycle, judged⟩ := verdict_implies_constraints supervising toHighRisk
  obtain ⟨⟨t, done, overseen, -⟩, deployed⟩ := judged (.inl rfl) passed
  obtain ⟨attached, -, unnoticed⟩ := deployed rfl .empty { explainabilityThreshold := 0.9 }
    { entities := ["bot"] } #[] .empty rfl (by decide +kernel) (by
      rintro e ⟨⟩
      decide +kernel)
  rw [attached] at unnoticed
  exact ⟨logged, passed, by decide +kernel, cycle 0 logged, ⟨t, done, overseen⟩, unnoticed⟩

end Session

end GovernedQuantum
