import GovernedQuantum.Constraint
import GovernedQuantum.Table

/-!
# Inferred types

What the checker finds out about a node: a kind and a name, properties as texts in the order of
their keys, the constraints it lives under and the names it depends on.
-/

namespace GovernedQuantum

inductive TypeKind where
  | quantum | ai | primitive | compound
  /-- The node did not resolve; it carries no constraints. -/
  | unknown
deriving DecidableEq, Repr

def TypeKind.name : TypeKind → String
  | quantum => "quantum"
  | ai => "ai"
  | primitive => "primitive"
  | compound => "compound"
  | unknown => "unknown"

structure InferredType where
  kind : TypeKind
  name : String
  properties : Table String String := .empty
  constraints : List Constraint := []
  dependencies : List String := []

namespace InferredType

/-- The type of a node that did not resolve. -/
def unknown : InferredType := { kind := .unknown, name := "Unknown" }

instance : Inhabited InferredType := ⟨unknown⟩

def isUnknown (t : InferredType) : Bool := t.kind = .unknown

def withProperty (t : InferredType) (key value : String) : InferredType :=
  { t with properties := t.properties.insert key value }

def withFlag (t : InferredType) (key : String) (value : Bool) : InferredType :=
  t.withProperty key (if value then "true" else "false")

def withConstraint (t : InferredType) (c : Constraint) : InferredType :=
  { t with constraints := t.constraints ++ [c] }

def withDependency (t : InferredType) (name : String) : InferredType :=
  { t with dependencies := t.dependencies ++ [name] }

/-- The constraints of one phase, in the order they were attached. -/
def constraintsIn (t : InferredType) (phase : Phase) : List Constraint :=
  t.constraints.filter fun c => c.phase = phase

end InferredType

end GovernedQuantum
