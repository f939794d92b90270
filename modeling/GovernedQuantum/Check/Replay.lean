import GovernedQuantum.Check.Fold
import GovernedQuantum.InferredType

/-!
# Replaying a program against its constraints

Node by node, the constraints before it are evaluated, then its effect on the usage of qudits is
applied, then the constraints after it are evaluated; those on the end of the program come last, in
the final state. A qudit whose reuse was reported where it happened is not reported again by the
count over the whole program.
-/

namespace GovernedQuantum

/-- What the replay knows of a qudit. -/
structure Facts where
  consumed : Nat := 0
  interactions : Nat := 0
  entangled : Bool := false
deriving DecidableEq, Repr, Inhabited

/-- An interaction with a qudit. -/
def Facts.interact (f : Facts) (consuming entangles : Bool) : Facts where
  consumed := if consuming then f.consumed + 1 else f.consumed
  interactions := f.interactions + 1
  entangled := f.entangled || entangles

/-- Qudits by name. -/
abbrev FactTable := Table String Facts

/-- The effect of a node that is well typed. -/
def FactTable.apply (facts : FactTable) (node : Node) : FactTable :=
  match node.metadata with
  | .resource name _ _ => facts.insert name {}
  | .operation operands _ _ consuming =>
    let entangles := node.opcode = .entangle || node.opcode = .entangleRemote
    operands.foldl (fun t r => t.modify r fun f => f.interact consuming entangles) facts
  | _ => facts

/-- The state of a program as constraints see it. -/
def FactTable.context (facts : FactTable) (views : EntityViews) (budget : Nat) : Context where
  consumedCount r := ((facts.find? r).map Facts.consumed).getD 0
  isTracked r := facts.contains r
  isCoherent r := (facts.find? r).any fun f => f.interactions < budget
  wasEntangled r := (facts.find? r).any Facts.entangled
  entity name := views.find? name

/-- Findings so far, and the qudits whose reuse is among them. -/
structure Findings where
  diagnostics : Array Diagnostic := #[]
  reused : List String := []

namespace Findings

/-- The constraint would report a reuse that is already reported. -/
def covers (f : Findings) : ConstraintKind → Bool
  | .noCloning r .program => f.reused.contains r
  | _ => false

/-- The qudits known to be reused once a constraint has failed. -/
def note (f : Findings) : ConstraintKind → List String
  | .noCloning r .operation => r :: f.reused
  | _ => f.reused

/-- Evaluates one constraint of a node. -/
def judge (ctx : Context) (location : Location) (f : Findings) (c : Constraint) : Findings :=
  if f.covers c.kind then f
  else
    match c.finding? ctx location with
    | none => f
    | some d => ⟨f.diagnostics.push d, f.note c.kind⟩

/-- Evaluates the constraints of a node in one phase. -/
def judgeAll (ctx : Context) (node : Node) (type : InferredType) (phase : Phase) (f : Findings) :
    Findings :=
  (type.constraintsIn phase).foldl (judge ctx node.location) f

end Findings

/-- A point of the replay. -/
structure Replay where
  facts : FactTable := .empty
  findings : Findings := {}

/-- One node; nodes that did not resolve have no effect. -/
def Replay.step (views : EntityViews) (budget : Nat) (s : Replay) (nt : Node × InferredType) :
    Replay :=
  let (node, type) := nt
  if type.isUnknown then s
  else
    let findings := s.findings.judgeAll (s.facts.context views budget) node type .pre
    let facts := s.facts.apply node
    ⟨facts, findings.judgeAll (facts.context views budget) node type .post⟩

/-- The findings of a whole program. -/
def replay (views : EntityViews) (budget : Nat) (nodes : List (Node × InferredType)) : Findings :=
  let final := nodes.foldl (Replay.step views budget) {}
  let ctx := final.facts.context views budget
  nodes.foldl (fun f (node, type) => f.judgeAll ctx node type .final) final.findings

end GovernedQuantum
