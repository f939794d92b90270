import GovernedQuantum.Opcode
import GovernedQuantum.Diagnostic

/-!
# What inference can reject

Names that do not resolve, names declared twice, and arguments that mean nothing where they stand.
-/

namespace GovernedQuantum

/-- The three kinds of names. -/
inductive Namespace where
  | resource | entity | binding
deriving DecidableEq, Repr

def Namespace.name : Namespace → String
  | resource => "resource"
  | entity => "entity"
  | binding => "variable"

inductive TypeIssue where
  | unresolved (space : Namespace) (name : String)
  | redeclared (space : Namespace) (name : String)
  | invalidDimension (name : String)
  | invalidScore (entity : String)
  | invalidOversight (entity : String)
  | invalidCriticality (entity : String)
  | invalidDeadline (name : String)
  | selfInteraction (opcode : Opcode) (name : String)
deriving DecidableEq, Repr

namespace TypeIssue

def message : TypeIssue → String
  | unresolved space name => s!"unresolved {space.name} '{name}'"
  | redeclared space name => s!"{space.name} '{name}' is already declared"
  | invalidDimension name => s!"invalid dimension for qudit '{name}'"
  | invalidScore entity => s!"invalid explainability score for '{entity}'"
  | invalidOversight entity => s!"invalid oversight level for '{entity}'"
  | invalidCriticality entity => s!"invalid criticality level for '{entity}'"
  | invalidDeadline name => s!"invalid deadline for '{name}'"
  | selfInteraction op name => s!"'{op.keyword}' needs two distinct resources, got '{name}' twice"

def category : TypeIssue → Category
  | selfInteraction .. => .quantumViolation
  | _ => .typing

def suggestion : TypeIssue → Option String
  | unresolved .resource name => some s!"declare it first with `qudit {name} 2`"
  | unresolved .entity name => some s!"declare it first with `contract {name}`"
  | unresolved .binding name => some s!"bind it first with `let {name} <value>`"
  | redeclared .. => some "choose a different name"
  | invalidDimension _ => some "use an integer dimension of at least 2"
  | invalidScore _ => some "use a score between 0.0 and 1.0"
  | invalidOversight _ => some "use one of none, notification, supervision, approval, control"
  | invalidCriticality _ => some "use one of low, medium, high, critical, safety"
  | invalidDeadline _ => some "deadlines are whole milliseconds"
  | selfInteraction .. => none

def diagnostic (issue : TypeIssue) (location : Location) : Diagnostic where
  severity := .error
  category := issue.category
  location := location
  message := issue.message
  suggestion := issue.suggestion

end TypeIssue

end GovernedQuantum
