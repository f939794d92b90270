import GovernedQuantum.Compilation
import GovernedQuantum.Json

/-!
# Reports on programs

The JSON form of diagnostics, instructions, nodes, types and whole compilations.
-/

namespace GovernedQuantum

def Location.json (l : Location) : Json :=
  .object [("line", .nat l.line), ("column", .nat l.column)]

def Diagnostic.json (d : Diagnostic) : Json :=
  .object
    [("severity", .text d.severity.name), ("category", .text d.category.name),
      ("location", d.location.json), ("message", .text d.message),
      ("suggestion", .option .text d.suggestion), ("fatal", .bool d.fatal)]

def Diagnostics.json (ds : Diagnostics) : Json :=
  .object
    [("errors", .list (ds.errors.toList.map Diagnostic.json)),
      ("warnings", .list (ds.warnings.toList.map Diagnostic.json))]

/-- The name of an operation in reports: its mnemonic in mixed case. -/
def Opcode.label : Opcode → String
  | allocQudit => "AllocQudit"
  | entangle => "Entangle"
  | disentangle => "Disentangle"
  | applyGate => "ApplyGate"
  | measure => "Measure"
  | release => "Release"
  | declareContract => "DeclareContract"
  | setExplainability => "SetExplainability"
  | setOversight => "SetOversight"
  | setCriticality => "SetCriticality"
  | approve => "Approve"
  | deploy => "Deploy"
  | verify => "Verify"
  | decide => "Decide"
  | bind => "Let"
  | print => "Print"
  | setTargetNode => "SetTargetNode"
  | setChannel => "SetChannel"
  | entangleRemote => "EntangleRemote"
  | teleport => "Teleport"
  | entanglementSwap => "EntanglementSwap"
  | barrier => "Barrier"
  | scheduleWindow => "ScheduleWindow"

def Instruction.json (i : Instruction) : Json :=
  .object
    [("opcode", .text i.opcode.label), ("args", .texts i.args), ("location", i.location.json)]

def Program.json (p : Program) : Json :=
  .object [("instructions", .list (p.instructions.map Instruction.json))]

def Value.json : Value → Json
  | int n => .object [("type", .text "int"), ("value", .int n)]
  | float x => .object [("type", .text "float"), ("value", .float x)]
  | bool b => .object [("type", .text "bool"), ("value", .bool b)]
  | text s => .object [("type", .text "text"), ("value", .text s)]

/-! ## Nodes -/

def Modifier.json : Modifier → Json
  | explainability score =>
    .object [("modifier", .text "explainability"), ("score", .option .float score)]
  | oversight level =>
    .object [("modifier", .text "oversight"), ("level", .option (fun l => .text l.name) level)]
  | criticality level =>
    .object [("modifier", .text "criticality"), ("level", .option (fun l => .text l.name) level)]
  | approval => .object [("modifier", .text "approval")]

def Action.json : Action → Json
  | deploy target => .object [("action", .text "deploy"), ("target", .text target)]
  | verify => .object [("action", .text "verify")]

def Directive.fields : Directive → List (String × Json)
  | targetNode node => [("directive", .text "target_node"), ("node", .text node)]
  | channel link => [("directive", .text "channel"), ("channel", .text link)]
  | barrier name deadline =>
    [("directive", .text "barrier"), ("name", .text name), ("deadline_ms", .option .nat deadline)]
  | window name soft hard =>
    [("directive", .text "window"), ("name", .text name), ("soft_ms", .option .nat soft),
      ("hard_ms", .option .nat hard)]

def Metadata.json : Metadata → Json
  | resource name dimension partners =>
    .object
      [("kind", .text "resource"), ("name", .text name), ("dimension", .option .nat dimension),
        ("partners", .texts partners)]
  | operation operands gate remote consuming =>
    .object
      [("kind", .text "operation"), ("operands", .texts operands), ("gate", .option .text gate),
        ("remote_node", .option .text remote), ("consuming", .bool consuming)]
  | entity name score oversight criticality =>
    .object
      [("kind", .text "entity"), ("name", .text name), ("explainability", .float score),
        ("oversight", .text oversight.name), ("criticality", .text criticality.name)]
  | modifier e m =>
    .object [("kind", .text "modifier"), ("entity", .text e), ("modifier", m.json)]
  | governed e action =>
    .object [("kind", .text "governed"), ("entity", .text e), ("action", action.json)]
  | decision e action =>
    .object [("kind", .text "decision"), ("entity", .text e), ("action", .text action)]
  | literal name value =>
    .object [("kind", .text "literal"), ("name", .text name), ("value", value.json)]
  | reference name => .object [("kind", .text "reference"), ("name", .text name)]
  | directive d => .object (("kind", .text "directive") :: d.fields)

def Node.json (n : Node) : Json :=
  .object
    [("kind", .text n.kind.name), ("opcode", .text n.opcode.label), ("location", n.location.json),
      ("value", .text n.text), ("metadata", n.metadata.json)]

/-! ## Types -/

def ConstraintKind.json : ConstraintKind → Json
  | noCloning r scope =>
    .object
      [("constraint", .text "no_cloning"), ("resource", .text r), ("scope", .text scope.name)]
  | memorySafety r => .object [("constraint", .text "memory_safety"), ("resource", .text r)]
  | entanglementConsistency r partners =>
    .object
      [("constraint", .text "entanglement_consistency"), ("resource", .text r),
        ("partners", .texts partners)]
  | coherencePreservation r =>
    .object [("constraint", .text "coherence_preservation"), ("resource", .text r)]
  | explainability e threshold =>
    .object
      [("constraint", .text "explainability"), ("entity", .text e), ("threshold", .float threshold)]
  | compliance e => .object [("constraint", .text "compliance"), ("entity", .text e)]
  | humanOversight e => .object [("constraint", .text "human_oversight"), ("entity", .text e)]
  | humanApproval e => .object [("constraint", .text "human_approval"), ("entity", .text e)]

def Constraint.json (c : Constraint) : Json :=
  .object
    [("kind", c.kind.json), ("phase", .text c.phase.name), ("description", .text c.description),
      ("required", .bool c.required)]

def InferredType.json (t : InferredType) : Json :=
  .object
    [("kind", .text t.kind.name), ("name", .text t.name),
      ("properties", .object (t.properties.entries.map fun (k, v) => (k, .text v))),
      ("constraints", .list (t.constraints.map Constraint.json)),
      ("dependencies", .texts t.dependencies)]

def EntityView.json (v : EntityView) : Json :=
  .object
    [("explainability", .float v.explainability), ("oversight", .text v.oversight.name),
      ("criticality", .text v.criticality.name), ("compliance", .text v.compliance.name),
      ("approved", .bool v.approved)]

def Compilation.json (c : Compilation) : Json :=
  .object
    [("success", .bool c.success), ("bytecode", .texts c.bytecode), ("program", c.program.json),
      ("ast", .list (c.nodes.map Node.json)), ("types", .list (c.types.map InferredType.json)),
      ("errors", .list (c.diagnostics.errors.toList.map Diagnostic.json)),
      ("warnings", .list (c.diagnostics.warnings.toList.map Diagnostic.json)),
      ("digest", .option .text c.digest)]

end GovernedQuantum
