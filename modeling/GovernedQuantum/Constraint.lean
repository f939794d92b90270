import GovernedQuantum.Diagnostic
import GovernedQuantum.Level
import GovernedQuantum.Number.Fixed
import GovernedQuantum.Number.Shortest

/-!
# Constraints

A constraint is a condition on the state of a program at one of three moments: before a node takes
effect, after it, or at the end. It is evaluated against a **context**, five questions about names;
the checker answers them from its replay of a program and a session from its live tables, so both
judge by the same rule.

* `Constraint.evaluate` gives the violation of a constraint, if it fails in a context.
* A violation of a required constraint is an error, of any other a warning.
-/

namespace GovernedQuantum

/-- When a constraint must hold. -/
inductive Phase where
  /-- Before the node takes effect. -/
  | pre
  /-- After it. -/
  | post
  /-- Once, at the end of the program; only the checker looks at these. -/
  | final
deriving DecidableEq, Repr

def Phase.name : Phase → String
  | pre => "pre"
  | post => "post"
  | final => "final"

/-- What a no-cloning constraint counts over. -/
inductive UsageScope where
  /-- At most one consuming use in the whole program. -/
  | program
  /-- No consuming use so far. -/
  | operation
deriving DecidableEq, Repr

def UsageScope.name : UsageScope → String
  | program => "program"
  | operation => "operation"

inductive ConstraintKind where
  | noCloning (resource : String) (scope : UsageScope)
  | memorySafety (resource : String)
  | entanglementConsistency (resource : String) (partners : List String)
  | coherencePreservation (resource : String)
  | explainability (entity : String) (threshold : Binary64)
  | compliance (entity : String)
  | humanOversight (entity : String)
  | humanApproval (entity : String)
deriving DecidableEq, Repr

structure Constraint where
  kind : ConstraintKind
  phase : Phase
  description : String
  /-- Failure is an error, and only a warning where this is off. -/
  required : Bool
deriving DecidableEq, Repr

/-- Safety attributes of an entity. -/
structure EntityView where
  explainability : Binary64 := defaultScore
  oversight : Oversight := .notification
  criticality : Criticality := .medium
  compliance : Compliance := .pending
  /-- A human has signed the entity off. -/
  approved : Bool := false
deriving DecidableEq, Repr, Inhabited

/-- The state that constraints are evaluated against. -/
structure Context where
  /-- Consuming operations on a qudit so far. -/
  consumedCount : String → Nat
  /-- The qudit has an allocation behind it. -/
  isTracked : String → Bool
  isCoherent : String → Bool
  /-- The qudit has taken part in an entanglement. -/
  wasEntangled : String → Bool
  entity : String → Option EntityView

/-- A constraint that failed. -/
structure Violation where
  category : Category
  message : String
  suggestion : Option String := none
deriving DecidableEq, Repr

def Violation.diagnostic (v : Violation) (location : Location) (required : Bool) : Diagnostic where
  severity := if required then .error else .warning
  category := v.category
  location := location
  message := v.message
  suggestion := v.suggestion

namespace Constraint

/-! ## The eight kinds -/

def noCloning (resource : String) (scope : UsageScope) : Constraint :=
  match scope with
  | .program => ⟨.noCloning resource scope, .final, s!"'{resource}' is consumed at most once", true⟩
  | .operation => ⟨.noCloning resource scope, .pre, s!"'{resource}' has not been consumed", true⟩

def memorySafety (resource : String) (phase : Phase) : Constraint :=
  ⟨.memorySafety resource, phase, s!"'{resource}' is backed by a tracked allocation", true⟩

def entanglementConsistency (resource : String) (partners : List String) : Constraint :=
  ⟨.entanglementConsistency resource partners, .final,
    s!"every partner of '{resource}' is entangled", true⟩

def coherencePreservation (resource : String) : Constraint :=
  ⟨.coherencePreservation resource, .pre, s!"'{resource}' is still coherent", false⟩

def explainability (entity : String) (threshold : Binary64) (phase : Phase) : Constraint :=
  let bound := threshold.toFixed 2
  ⟨.explainability entity threshold, phase, s!"'{entity}' is explainable to {bound}", true⟩

def compliance (entity : String) (phase : Phase) : Constraint :=
  ⟨.compliance entity, phase, s!"'{entity}' has not failed verification", true⟩

def humanOversight (entity : String) (phase : Phase) : Constraint :=
  ⟨.humanOversight entity, phase, s!"'{entity}' has a human in the loop when critical", true⟩

def humanApproval (entity : String) : Constraint :=
  ⟨.humanApproval entity, .pre, s!"'{entity}' carries an explicit human approval", true⟩

/-! ## Evaluation -/

/-- Category of the findings that the kind's own rule gives. -/
def category (c : Constraint) : Category :=
  match c.kind with
  | .noCloning .. | .memorySafety .. | .entanglementConsistency .. | .coherencePreservation .. =>
    .quantumViolation
  | .explainability .. | .compliance .. | .humanOversight .. | .humanApproval .. => .aiSafety

/-- What is said of an entity that nobody declared. -/
def undeclared (entity : String) : Violation :=
  ⟨.typing, s!"entity '{entity}' is not declared", some s!"declare it with `contract {entity}`"⟩

/-- Judges a declared entity by `rule`. -/
def onEntity (ctx : Context) (entity : String) (rule : EntityView → Option Violation) :
    Option Violation :=
  match ctx.entity entity with
  | none => some (undeclared entity)
  | some view => rule view

/-- The violation of the kind's condition in a context, if it fails there. -/
def violation? (ctx : Context) : ConstraintKind → Option Violation
  | .noCloning r .program =>
    let used := ctx.consumedCount r
    if 1 < used then
      some ⟨.quantumViolation, s!"resource '{r}' is consumed {used} times",
        some "declare a separate qudit for each measure, release or teleport"⟩
    else none
  | .noCloning r .operation =>
    if 0 < ctx.consumedCount r then
      some ⟨.quantumViolation, s!"resource '{r}' was already consumed",
        some "a qudit cannot be used after it is measured, released or teleported"⟩
    else none
  | .memorySafety r =>
    if ctx.isTracked r then none
    else some ⟨.quantumViolation, s!"resource '{r}' is not backed by a live allocation", none⟩
  | .entanglementConsistency r partners =>
    match partners.find? fun p => !ctx.wasEntangled p with
    | none => none
    | some p =>
      some ⟨.quantumViolation, s!"partner '{p}' of '{r}' is not entangled",
        some s!"declare '{p}' before entangling it with '{r}'"⟩
  | .coherencePreservation r =>
    if ctx.isCoherent r then none
    else
      some ⟨.quantumViolation, s!"resource '{r}' may have decohered",
        some "measure the qudit sooner or use a fresh one"⟩
  | .explainability e threshold =>
    onEntity ctx e fun view =>
      if threshold.le view.explainability || view.oversight.isHumanInLoop then none
      else
        let score := view.explainability.toFixed 2
        let bound := threshold.toFixed 2
        let exact := threshold.toText
        some ⟨.aiSafety, s!"explainability {score} of '{e}' is below the required {bound}",
          some s!"raise it with `explain {e} {exact}` or add `oversee {e} supervision`"⟩
  | .compliance e =>
    onEntity ctx e fun view =>
      if view.compliance = .nonCompliant then
        some ⟨.aiSafety, s!"entity '{e}' failed verification", none⟩
      else none
  | .humanOversight e =>
    onEntity ctx e fun view =>
      if !view.criticality.requiresOversight || view.oversight.isHumanInLoop then none
      else
        let stake := view.criticality.name
        let level := view.oversight.name
        some ⟨.aiSafety, s!"'{e}' is classified {stake} but its oversight level is {level}",
          some s!"add `oversee {e} approval`"⟩
  | .humanApproval e =>
    onEntity ctx e fun view =>
      if view.approved then none
      else
        some ⟨.aiSafety, s!"decision by '{e}' requires explicit human approval",
          some s!"add `approve {e}` before the decision"⟩

/-- The violation of a constraint in a context, if it fails there. -/
def evaluate (c : Constraint) (ctx : Context) : Option Violation := violation? ctx c.kind

/-- The finding of a constraint that fails in a context. -/
def finding? (c : Constraint) (ctx : Context) (location : Location) : Option Diagnostic :=
  (c.evaluate ctx).map fun v => v.diagnostic location c.required

end Constraint

end GovernedQuantum
