import GovernedQuantum.Configuration
import GovernedQuantum.Verification

/-!
# Escalation

A deployment to a target that is marked as high risk is escalated: it counts as `critical` at least.
This has two effects. A human must be in the loop, however little is at stake for the entity itself,
which can only stop a deployment. And the score is held to the high-risk threshold **in place of**
the other one, which can let a deployment through, since the two thresholds are configured apart
from each other.

* `Settings.admits`: verification lets an instruction through by itself.
* `Settings.admits_deploy_iff`: what it takes to deploy.
* `Escalated i j`: `i` deploys to a marked target what `j` deploys to an unmarked one.
* `Escalated.admits_iff`: where `i` is let through, `j` fails for its score or not at all.
* `escalation_tightens_iff`: **escalation is never more permissive** exactly where the thresholds
  are in order.
-/

namespace GovernedQuantum

/-! ## Numbers and levels -/

namespace Binary64

theorem lt_false_of_le {x y z : Binary64} (h : x.lt y = false) (le : z.le y = true) :
    x.lt z = false := by
  rw [Bool.eq_false_iff]
  intro below
  obtain ⟨hx, -, hlt⟩ := lt_iff.1 below
  obtain ⟨-, hy, hle⟩ := le_iff.1 le
  rw [lt_iff.2 ⟨hx, hy, Int.lt_of_lt_of_le hlt hle⟩] at h
  exact Bool.noConfusion h

theorem lt_irrefl (x : Binary64) : x.lt x = false := by
  rw [Bool.eq_false_iff]
  intro below
  exact Int.lt_irrefl _ (lt_iff.1 below).2.2

/-- Scores are numbers. -/
theorem isNaN_of_inUnit {x : Binary64} (h : x.inUnit = true) : x.isNaN = false := by
  rw [inUnit, Bool.and_eq_true] at h
  exact (le_iff.1 h.1).2.1

end Binary64

namespace Criticality

theorem isHighRisk_max_critical (c : Criticality) : (c.max .critical).isHighRisk = true := by
  cases c <;> rfl

theorem requiresOversight_of_isHighRisk {c : Criticality} (h : c.isHighRisk = true) :
    c.requiresOversight = true := by
  cases c with
  | critical | safety => rfl
  | low | medium | high => exact absurd h (by decide)

end Criticality

/-- The thresholds of a configuration that is accepted are scores. -/
theorem Configuration.inUnit_of_validate {c : Configuration} (valid : c.validate = .ok c) :
    c.session.explainabilityThreshold.inUnit = true ∧
    c.session.highRiskThreshold.inUnit = true := by
  have fits {key : String} {x : Binary64} (none : thresholdProblem? key x = none) :
      x.inUnit = true := by
    unfold thresholdProblem? at none
    cases fit : x.inUnit with
    | true => rfl
    | false => exact absurd none (by simp [fit])
  unfold validate at valid
  split at valid
  · exact absurd valid (by simp)
  · rename_i clean
    unfold problem? at clean
    simp only [Option.or_eq_none_iff] at clean
    exact ⟨fits clean.2.1, fits clean.2.2.1⟩

/-! ## What is let through -/

/-- **Verification lets the instruction through by itself**, given the declared entities. -/
def Settings.admits (settings : Settings) (entities : Entities) (i : Instruction) : Bool :=
  let profile := Profile.ofInstruction i entities settings
  (profile.verdict (profile.entity.bind entities.find?)).passed

/-- What is at stake when an entity is deployed to a target. -/
def Entity.stake (e : Entity) (target : String) : Criticality :=
  if isHighRiskTarget target then e.criticality.max .critical else e.criticality

theorem Entity.isHighRisk_stake (e : Entity) {target : String}
    (marked : isHighRiskTarget target = true) : (e.stake target).isHighRisk = true := by
  rw [stake, if_pos marked]
  exact e.criticality.isHighRisk_max_critical

/-- **What it takes to deploy**: a declared entity with the score for what is at stake, that has not
failed verification, and a human in the loop if as much is at stake. -/
theorem Settings.admits_deploy_iff {settings : Settings} {entities : Entities} {i : Instruction}
    (op : i.opcode = .deploy) :
    settings.admits entities i = true ↔
      ∃ e, entities.find? (i.arg 0) = some e ∧
        e.explainability.lt (settings.threshold (e.stake (i.arg 1))) = false ∧
        e.compliance ≠ .nonCompliant ∧
        ((e.stake (i.arg 1)).requiresOversight = true → e.oversight.isHumanInLoop = true) := by
  have kind : i.opcode.operationKind = .deployment := by rw [op]; rfl
  unfold admits Profile.ofInstruction
  simp only [kind, OperationKind.isGoverned, if_true, Option.bind_some, true_and]
  cases known : entities.find? (i.arg 0) with
  | none => simp [Profile.verdict, Verdict.passed]
  | some e =>
    simp only [Profile.verdict, Verdict.passed, Profile.objections, List.isEmpty_iff,
      List.append_eq_nil_iff, ite_eq_right_iff, List.cons_ne_nil, imp_false, Option.some.injEq,
      exists_eq_left', Bool.and_eq_true, Bool.not_eq_true', not_and, Bool.not_eq_false,
      Bool.not_eq_true, and_assoc]
    rfl

/-- **Escalation**: `i` deploys to a marked target what `j` deploys to an unmarked one. -/
structure Escalated (i j : Instruction) : Prop where
  deploys : i.opcode = .deploy
  deploys' : j.opcode = .deploy
  same : j.arg 0 = i.arg 0
  marked : isHighRiskTarget (i.arg 1) = true
  unmarked : isHighRiskTarget (j.arg 1) = false

namespace Escalated

variable {i j : Instruction} {settings : Settings} {entities : Entities}

/-- A deployment that is let through although it is escalated has all that it takes without, the
score apart. The score was held to the high-risk threshold; it is held to the other one now, unless
the entity is critical by itself. -/
theorem admits_iff (h : Escalated i j) (admitted : settings.admits entities i = true) :
    settings.admits entities j = true ↔
      ∀ e, entities.find? (i.arg 0) = some e →
        e.criticality.isHighRisk = true ∨
        e.explainability.lt settings.explainabilityThreshold = false := by
  obtain ⟨e, known, score, compliant, overseen⟩ := (Settings.admits_deploy_iff h.deploys).1 admitted
  have high := e.isHighRisk_stake h.marked
  have human := overseen (Criticality.requiresOversight_of_isHighRisk high)
  have stake : e.stake (j.arg 1) = e.criticality := if_neg (by simp [h.unmarked])
  rw [Settings.threshold, if_pos high] at score
  rw [Settings.admits_deploy_iff h.deploys', h.same]
  constructor
  · rintro ⟨e', known', score', -⟩ e'' known''
    obtain rfl := Option.some.inj (known'.symm.trans known'')
    obtain rfl := Option.some.inj (known.symm.trans known')
    rw [stake, Settings.threshold] at score'
    cases risk : e.criticality.isHighRisk with
    | true => exact .inl rfl
    | false =>
      rw [risk] at score'
      exact .inr score'
  · intro enough
    refine ⟨e, known, ?_, compliant, fun _ => human⟩
    rw [stake, Settings.threshold]
    split
    · exact score
    · rename_i risk
      exact (enough e known).resolve_left risk

/-- Where the thresholds are in order the score is enough for both. -/
theorem admits_of_le (h : Escalated i j)
    (ordered : settings.explainabilityThreshold.le settings.highRiskThreshold = true)
    (admitted : settings.admits entities i = true) : settings.admits entities j = true := by
  refine (h.admits_iff admitted).2 fun e known => .inr ?_
  obtain ⟨e', known', score, -⟩ := (Settings.admits_deploy_iff h.deploys).1 admitted
  obtain rfl := Option.some.inj (known.symm.trans known')
  have high := e.isHighRisk_stake h.marked
  rw [Settings.threshold, if_pos high] at score
  exact Binary64.lt_false_of_le score ordered

end Escalated

/-! ## Thresholds that are not in order -/

/-- An entity of a given score that a human supervises, and for which little is at stake. -/
def Entity.supervised (score : Binary64) : Entity :=
  { name := "bot", explainability := score, oversight := .supervision, criticality := .low }

/-- A deployment to a marked target, and the same to an unmarked one. -/
def toHighRisk : Instruction := ⟨.deploy, ["bot", "EU-High-Risk-zone"], ⟨4, 1⟩⟩

def toStaging : Instruction := ⟨.deploy, ["bot", "staging"], ⟨5, 1⟩⟩

theorem escalated_toHighRisk : Escalated toHighRisk toStaging :=
  ⟨rfl, rfl, rfl, by decide +kernel, by decide +kernel⟩

/-- An entity whose score is the high-risk threshold is let through to a marked target. -/
theorem admits_toHighRisk (settings : Settings) :
    settings.admits (Table.empty.insert "bot" (.supervised settings.highRiskThreshold)) toHighRisk =
      true := by
  refine (Settings.admits_deploy_iff rfl).2 ⟨_, rfl, ?_, Compliance.noConfusion, fun _ => rfl⟩
  rw [Settings.threshold, if_pos (Entity.isHighRisk_stake _ escalated_toHighRisk.marked)]
  exact Binary64.lt_irrefl _

/-- **Escalation is never more permissive, exactly where the thresholds are in order.** Under every
configuration that is accepted: a deployment that is let through to a marked target can fail to an
unmarked one only for the score of an entity that is not critical by itself. It never fails,
whatever the entities, if and only if the threshold of ordinary operations is at most that of
high-risk ones. -/
theorem escalation_tightens_iff {c : Configuration} (valid : c.validate = .ok c) :
    (∀ (entities : Entities) (i j : Instruction), Escalated i j →
      c.session.admits entities i = true →
      (c.session.admits entities j = true ↔
        ∀ e, entities.find? (i.arg 0) = some e → e.criticality.isHighRisk = true ∨
          e.explainability.lt c.session.explainabilityThreshold = false)) ∧
    ((∀ (entities : Entities) (i j : Instruction), Escalated i j →
      c.session.admits entities i = true →
        c.session.admits entities j = true) ↔
      c.session.explainabilityThreshold.le c.session.highRiskThreshold = true) := by
  refine ⟨fun entities i j h admitted => h.admits_iff admitted, fun law => ?_,
    fun ordered entities i j h =>
    h.admits_of_le ordered⟩
  obtain ⟨unit, unit'⟩ := Configuration.inUnit_of_validate valid
  have admitted := admits_toHighRisk c.session
  have tight := (escalated_toHighRisk.admits_iff admitted).1
    (law _ _ _ escalated_toHighRisk admitted) _ rfl
  -- the entity is not critical by itself, so its score must be enough for ordinary operations
  exact Binary64.le_of_not_lt (Binary64.isNaN_of_inUnit unit') (Binary64.isNaN_of_inUnit unit)
    (tight.resolve_left Bool.noConfusion)

/-- The defaults are accepted and in order. -/
theorem escalation_tightens_iff_default :
    ({} : Configuration).validate = .ok {} ∧
      ∀ (entities : Entities) (i j : Instruction), Escalated i j →
        ({} : Configuration).session.admits entities i = true →
        ({} : Configuration).session.admits entities j = true := by
  have valid : ({} : Configuration).validate = .ok {} := by rfl
  exact ⟨valid, (escalation_tightens_iff valid).2.2 (by decide +kernel)⟩

/-- A configuration in which high-risk operations are held to a lower threshold than others. -/
def inverted : Configuration := { session := { highRiskThreshold := 0.5 } }

/-- **The order is not checked**: a configuration is accepted under which an entity may be deployed
to a marked target and not to an unmarked one. -/
theorem escalation_can_be_more_permissive :
    ¬ ∀ (c : Configuration), c.validate = .ok c → ∀ (entities : Entities) (i j : Instruction),
      Escalated i j → c.session.admits entities i = true → c.session.admits entities j = true := by
  intro law
  have valid : inverted.validate = .ok inverted := by rfl
  have refused :
      inverted.session.admits (Table.empty.insert "bot" (.supervised 0.5)) toStaging = false := by
    decide +kernel
  have admitted :=
    law inverted valid _ _ _ escalated_toHighRisk (admits_toHighRisk inverted.session)
  exact absurd (refused.symm.trans admitted) (by simp)

end GovernedQuantum
