import GovernedQuantum.Check.Fold
import GovernedQuantum.Check.Issue
import GovernedQuantum.InferredType
import GovernedQuantum.Limits

/-!
# Type inference

Nodes are typed in program order against the names declared so far, so a use before the declaration
does not resolve. A node that does not resolve has the unknown type; one with an argument that means
nothing is reported and typed as far as possible.

`infer` types one node: its type, the names after it and what is to be reported.
-/

namespace GovernedQuantum

/-- The names declared so far. -/
structure Symbols where
  resources : List String := []
  entities : List String := []
  values : Table String InferredType := .empty

/-- What inferring one node gives. -/
structure Typing where
  type : InferredType
  symbols : Symbols
  findings : List Diagnostic := []

namespace Typing

/-- A node that is typed without a finding and declares nothing. -/
def plain (symbols : Symbols) (type : InferredType) : Typing := ⟨type, symbols, []⟩

/-- A node that is typed with findings at its place. -/
def reporting (symbols : Symbols) (location : Location) (type : InferredType)
    (issues : List TypeIssue) : Typing :=
  ⟨type, symbols, issues.map fun issue => issue.diagnostic location⟩

/-- A node that does not resolve. -/
def rejected (symbols : Symbols) (location : Location) (issues : List TypeIssue) : Typing :=
  reporting symbols location .unknown issues

/-- A node about an entity, which must have been declared. -/
def ofEntity (symbols : Symbols) (location : Location) (entity : String)
    (typing : Typing) : Typing :=
  if symbols.entities.contains entity then typing
  else rejected symbols location [.unresolved .entity entity]

end Typing

/-- The type of a qudit's declaration. -/
def resourceType (name : String) (dimension : Option Nat) (partners : List String) : InferredType :=
  let typeName :=
    match dimension with
    | some d => if 2 ≤ d then s!"Qudit<{d}>" else "Qudit"
    | none => "Qudit"
  let type : InferredType :=
    ((({ kind := .quantum, name := typeName } : InferredType).withFlag "entangled"
      (!partners.isEmpty)).withConstraint (.noCloning name .program)).withConstraint
        (.memorySafety name .post)
  let type :=
    match dimension with
    | some d => type.withProperty "dimension" (toString d)
    | none => type
  if partners.isEmpty then type
  else
    partners.foldl InferredType.withDependency
      ((type.withProperty "partners" (",".intercalate partners)).withConstraint
        (.entanglementConsistency name partners))

/-- Adds to an operation's type what it owes to one operand. -/
def withOperand (opcode : Opcode) (type : InferredType) (resource : String) : InferredType :=
  let type :=
    ((type.withDependency resource).withConstraint (.memorySafety resource .pre)).withConstraint
      (.noCloning resource .operation)
  if opcode = .measure then type else type.withConstraint (.coherencePreservation resource)

/-- The type of an operation on qudits. -/
def operationType (opcode : Opcode) (operands : List String) (gate remote : Option String)
    (consuming : Bool) : InferredType :=
  let type : InferredType :=
    if opcode = .measure then { kind := .primitive, name := "MeasurementOutcome" }
    else { kind := .quantum, name := "QuantumOperation" }
  let type := (type.withProperty "operation" opcode.mnemonic).withFlag "consuming" consuming
  let type :=
    match gate with
    | some g => type.withProperty "gate" g
    | none => type
  let type :=
    match remote with
    | some r => type.withProperty "remote_node" r
    | none => type
  operands.foldl (withOperand opcode) type

/-- The type of an entity's declaration, from the attributes it ends with. -/
def entityType (threshold : Binary64) (name : String) (view : EntityView) : InferredType :=
  let type : InferredType := { kind := .ai, name := "AIContract" }
  let type :=
    ((type.withProperty "explainability" view.explainability.toText).withProperty "oversight"
      view.oversight.name).withProperty "criticality" view.criticality.name
  let type := (type.withConstraint (.explainability name threshold .post)).withConstraint
    (.compliance name .post)
  if view.criticality.requiresOversight then type.withConstraint (.humanOversight name .post)
  else type

/-- The type of a modifier, or what is wrong with it. -/
def modifierType (entity : String) (m : Modifier) : InferredType × List TypeIssue :=
  let type : InferredType :=
    ({ kind := .ai, name := "ContractModifier" } : InferredType).withDependency entity
  match m with
  | .explainability score =>
    match score.filter Binary64.inUnit with
    | some s => (type.withProperty "explainability" s.toText, [])
    | none => (type, [.invalidScore entity])
  | .oversight (some level) => (type.withProperty "oversight" level.name, [])
  | .oversight none => (type, [.invalidOversight entity])
  | .criticality (some level) => (type.withProperty "criticality" level.name, [])
  | .criticality none => (type, [.invalidCriticality entity])
  | .approval => (type.withFlag "approved" true, [])

/-- The type of a governed action. -/
def actionType (threshold : Binary64) (entity : String) : Action → InferredType
  | .deploy target =>
    let type : InferredType := { kind := .ai, name := "Deployment" }
    ((((type.withProperty "target" target).withDependency entity).withConstraint
      (.explainability entity threshold .pre)).withConstraint
        (.compliance entity .pre)).withConstraint (.humanOversight entity .pre)
  | .verify => ({ kind := .ai, name := "VerificationCheck" } : InferredType).withDependency entity

/-- The type of a decision; one by an entity that needs oversight needs an approval as well. -/
def decisionType (threshold : Binary64) (entity action : String) (view : EntityView) :
    InferredType :=
  let oversight := view.criticality.requiresOversight
  let type : InferredType := { kind := .ai, name := "Decision" }
  let type := (((type.withProperty "action" action).withFlag "requires_oversight"
    oversight).withDependency entity).withConstraint (.explainability entity threshold .pre)
  let type := type.withConstraint (.compliance entity .pre)
  if oversight then type.withConstraint (.humanApproval entity) else type

/-- The type of a directive, and what is to be reported about it. -/
def directiveType (location : Location) : Directive → InferredType × List Diagnostic
  | .targetNode node =>
    (({ kind := .compound, name := "TargetNode" } : InferredType).withProperty "node" node, [])
  | .channel channel =>
    (({ kind := .compound, name := "Channel" } : InferredType).withProperty "channel" channel, [])
  | .barrier name deadline =>
    let type : InferredType := { kind := .compound, name := "Barrier" }
    match deadline with
    | some ms => (type.withProperty "deadline_ms" (toString ms), [])
    | none => (type, [(TypeIssue.invalidDeadline name).diagnostic location])
  | .window name soft hard =>
    let type : InferredType := { kind := .compound, name := "ExecutionWindow" }
    match soft, hard with
    | some soft, some hard =>
      let type :=
        (type.withProperty "soft_ms" (toString soft)).withProperty "hard_ms" (toString hard)
      if hard < soft then
        let message := s!"window '{name}' has a soft deadline after its hard deadline"
        (type, [{ severity := .warning, category := .typing, location, message }])
      else (type, [])
    | _, _ => (type, [(TypeIssue.invalidDeadline name).diagnostic location])

/-- A resource needs a dimension of at least two. -/
def dimensionIssues (name : String) (dimension : Option Nat) : List TypeIssue :=
  match dimension with
  | some d => if 2 ≤ d then [] else [.invalidDimension name]
  | none => [.invalidDimension name]

/-- The operands of a pair must differ. -/
def selfIssues (opcode : Opcode) : List String → List TypeIssue
  | [a, b] => if a = b then [.selfInteraction opcode a] else []
  | _ => []

/-- Types one node. -/
def infer (views : EntityViews) (options : CheckOptions) (σ : Symbols) (node : Node) : Typing :=
  let threshold := options.explainabilityThreshold
  match node.metadata with
  | .resource name dimension partners =>
    if σ.resources.contains name then .rejected σ node.location [.redeclared .resource name]
    else
      .reporting { σ with resources := name :: σ.resources } node.location
        (resourceType name dimension partners) (dimensionIssues name dimension)
  | .operation operands gate remote consuming =>
    let missing := operands.filter fun r => !σ.resources.contains r
    if missing.isEmpty then
      .reporting σ node.location (operationType node.opcode operands gate remote consuming)
        (selfIssues node.opcode operands)
    else .rejected σ node.location (missing.map (.unresolved .resource ·))
  | .entity name _ _ _ =>
    if σ.entities.contains name then .rejected σ node.location [.redeclared .entity name]
    else .plain { σ with entities := name :: σ.entities }
      (entityType threshold name (views.getD name {}))
  | .modifier entity m =>
    let (type, issues) := modifierType entity m
    .ofEntity σ node.location entity (.reporting σ node.location type issues)
  | .governed entity action =>
    .ofEntity σ node.location entity (.plain σ (actionType threshold entity action))
  | .decision entity action =>
    let type := decisionType threshold entity action (views.getD entity {})
    .ofEntity σ node.location entity (.plain σ type)
  | .literal name value =>
    let type := ({ kind := .primitive, name := value.typeName } : InferredType).withProperty "value"
      value.display
    .plain { σ with values := σ.values.insert name type } type
  | .reference name =>
    match σ.values.find? name with
    | some bound =>
      .plain σ { kind := bound.kind, name := bound.name, properties := bound.properties,
                 dependencies := [name] }
    | none => .rejected σ node.location [.unresolved .binding name]
  | .directive d =>
    let (type, findings) := directiveType node.location d
    ⟨type, σ, findings⟩

/-- The types of the nodes so far, and what was found. -/
structure Inference where
  symbols : Symbols := {}
  types : Array InferredType := #[]
  findings : Array Diagnostic := #[]

def Inference.step (views : EntityViews) (options : CheckOptions) (s : Inference) (node : Node) :
    Inference :=
  let typing := infer views options s.symbols node
  ⟨typing.symbols, s.types.push typing.type, s.findings ++ typing.findings⟩

/-- Types every node in order. -/
def inferAll (views : EntityViews) (options : CheckOptions) (nodes : List Node) : Inference :=
  nodes.foldl (Inference.step views options) {}

end GovernedQuantum
