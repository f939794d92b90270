import GovernedQuantum.Entity
import GovernedQuantum.Instruction
import GovernedQuantum.Number.Shortest
import GovernedQuantum.Settings
import GovernedQuantum.Text.Blank

/-!
# Verification of operations

Before a governed action takes effect it is classified: what kind of operation it is, on which
entity, and how much is at stake. The **verdict** on it is the list of reasons that speak against
it, and whether a human may decide in spite of them.

* `Profile.ofInstruction` classifies an instruction. A deployment to a target marked as high risk is
  `critical` at least.
* `Profile.verdict` judges a profile by the state of its entity.
-/

namespace GovernedQuantum

/-! ## Kinds of operations -/

inductive OperationKind where
  | contract | deployment | quantumOp | verificationCheck | decision | configuration
deriving DecidableEq, Repr

namespace OperationKind

def all : List OperationKind :=
  [contract, deployment, quantumOp, verificationCheck, decision, configuration]

/-- The kind in plain words. -/
def title : OperationKind → String
  | contract => "contract"
  | deployment => "deployment"
  | quantumOp => "quantum-op"
  | verificationCheck => "verification-check"
  | decision => "decision"
  | configuration => "configuration"

/-- The kind as it stands in records. -/
def name : OperationKind → String
  | contract => "contract"
  | deployment => "deployment"
  | quantumOp => "quantum_op"
  | verificationCheck => "verification_check"
  | decision => "decision"
  | configuration => "configuration"

/-- Kinds that have to pass verification before they take effect. -/
def isGated : OperationKind → Bool
  | deployment | decision => true
  | contract | quantumOp | verificationCheck | configuration => false

/-- Kinds that act on an entity. -/
def isGoverned : OperationKind → Bool
  | contract | deployment | verificationCheck | decision => true
  | quantumOp | configuration => false

/-- Criticality where no declared entity gives one. -/
def baseCriticality (k : OperationKind) : Criticality := if k.isGoverned then .medium else .low

end OperationKind

def Opcode.operationKind : Opcode → OperationKind
  | declareContract | setExplainability | setOversight | setCriticality | approve => .contract
  | deploy => .deployment
  | verify => .verificationCheck
  | decide => .decision
  | allocQudit | entangle | disentangle | applyGate | measure | release | entangleRemote | teleport
  | entanglementSwap => .quantumOp
  | bind | print | setTargetNode | setChannel | barrier | scheduleWindow => .configuration

/-! ## Profiles -/

/-- Markers in the name of a deployment target that make it high risk. -/
def highRiskMarkers : List String := ["high-risk", "high_risk"]

/-- The target carries a marker, in any case of its letters. -/
def isHighRiskTarget (target : String) : Bool :=
  let letters := target.toList.map Char.toLower
  highRiskMarkers.any fun marker => Text.occursIn marker.toList letters

/-- An operation as verification sees it. -/
structure Profile where
  kind : OperationKind
  /-- Name of the entity that it acts on, declared or not. -/
  entity : Option String
  criticality : Criticality
  /-- Score that the entity needs. -/
  threshold : Binary64
deriving DecidableEq, Repr

/-- Why an operation may not take effect by itself. -/
structure Verdict where
  reasons : List String
  /-- A failure can be put to a human. -/
  requiresOversight : Bool
deriving DecidableEq, Repr

def Verdict.passed (v : Verdict) : Bool := v.reasons.isEmpty

namespace Profile

/-- Classifies an instruction in the presence of the declared entities. -/
def ofInstruction (i : Instruction) (entities : Entities) (settings : Settings) : Profile :=
  let kind := i.opcode.operationKind
  let entity := if kind.isGoverned then some (i.arg 0) else none
  let base :=
    match entity.bind entities.find? with
    | some e => e.criticality
    | none => kind.baseCriticality
  let criticality :=
    if kind = .deployment ∧ isHighRiskTarget (i.arg 1) = true then base.max .critical else base
  { kind, entity, criticality, threshold := settings.threshold criticality }

/-- Everything that speaks against the operation, given its declared entity. -/
def objections (p : Profile) (e : Entity) : List String :=
  let score := e.explainability.toText
  let stake := p.criticality.name
  let bound := p.threshold.toText
  (if e.explainability.lt p.threshold then
    [s!"explainability {score} is below the {stake} threshold {bound}"] else []) ++
  (if e.compliance = .nonCompliant then [s!"entity '{e.name}' is non-compliant"] else []) ++
  (if p.criticality.requiresOversight && !e.oversight.isHumanInLoop then
    [s!"'{e.name}' is classified {stake} but its oversight level is {e.oversight.name}"] else [])

/-- Judges the operation by the state of its entity, if that is declared. -/
def verdict (p : Profile) : Option Entity → Verdict
  | some e =>
    ⟨p.objections e, p.criticality.requiresOversight || e.oversight.isHumanInLoop⟩
  | none =>
    match p.entity with
    | some name => ⟨[s!"entity '{name}' is not declared"], false⟩
    | none => ⟨[], false⟩

end Profile

end GovernedQuantum
