import GovernedQuantum.Instruction
import GovernedQuantum.Level
import GovernedQuantum.Table
import GovernedQuantum.Value
import GovernedQuantum.Text.Lines

/-!
# Syntax nodes

One node an instruction, in the same order. Its metadata says by kind what the arguments mean; an
argument that means nothing where it stands, such as a dimension that is no number, is left out, so
that the checker can report it at the node.

`Node.ofInstructions` builds the nodes of a program. A resource node also lists the names its qudit
is entangled with anywhere in the program.
-/

namespace GovernedQuantum

/-- Coarse class of a node. -/
inductive NodeKind where
  | resourceDeclaration | resourceOperation | entityDeclaration | entityModifier | governedAction
  | decisionCall | primitiveLiteral | variableReference | directive
deriving DecidableEq, Repr

namespace NodeKind

def name : NodeKind → String
  | resourceDeclaration => "resource_declaration"
  | resourceOperation => "resource_operation"
  | entityDeclaration => "entity_declaration"
  | entityModifier => "entity_modifier"
  | governedAction => "governed_action"
  | decisionCall => "decision_call"
  | primitiveLiteral => "primitive_literal"
  | variableReference => "variable_reference"
  | directive => "directive"

end NodeKind

def Opcode.nodeKind : Opcode → NodeKind
  | allocQudit => .resourceDeclaration
  | entangle | disentangle | applyGate | measure | release | entangleRemote | teleport
  | entanglementSwap => .resourceOperation
  | declareContract => .entityDeclaration
  | setExplainability | setOversight | setCriticality | approve => .entityModifier
  | deploy | verify => .governedAction
  | decide => .decisionCall
  | bind => .primitiveLiteral
  | print => .variableReference
  | setTargetNode | setChannel | barrier | scheduleWindow => .directive

/-- A change to one attribute of an entity. -/
inductive Modifier where
  | explainability (score : Option Binary64)
  | oversight (level : Option Oversight)
  | criticality (level : Option Criticality)
  | approval
deriving DecidableEq, Repr

/-- An action that verification governs. -/
inductive Action where
  | deploy (target : String)
  | verify
deriving DecidableEq, Repr

/-- A setting of the distributed layer. Times are in milliseconds. -/
inductive Directive where
  | targetNode (node : String)
  | channel (channel : String)
  | barrier (name : String) (deadline : Option Nat)
  | window (name : String) (soft hard : Option Nat)
deriving DecidableEq, Repr

/-- What the arguments of a node mean. -/
inductive Metadata where
  | resource (name : String) (dimension : Option Nat) (partners : List String)
  | operation (operands : List String) (gate remoteNode : Option String) (consuming : Bool)
  | entity (name : String) (explainability : Binary64) (oversight : Oversight)
      (criticality : Criticality)
  | modifier (entity : String) (modifier : Modifier)
  | governed (entity : String) (action : Action)
  | decision (entity action : String)
  | literal (name : String) (value : Value)
  | reference (name : String)
  | directive (directive : Directive)
deriving DecidableEq, Repr

structure Node where
  opcode : Opcode
  location : Location
  /-- The statement as it was written. -/
  text : String
  metadata : Metadata
deriving DecidableEq, Repr

namespace Node

def kind (n : Node) : NodeKind := n.opcode.nodeKind

/-- The qudits the node works on, in argument order. -/
def operands (n : Node) : List String :=
  match n.metadata with
  | .operation operands _ _ _ => operands
  | _ => []

/-- The entity the node is about. -/
def entity? (n : Node) : Option String :=
  match n.metadata with
  | .entity name _ _ _ => some name
  | .modifier entity _ | .governed entity _ | .decision entity _ => some entity
  | _ => none

end Node

/-! ## Building nodes -/

/-- For each name, the names it is entangled with, in the order of first mention. -/
abbrev Partners := Table String (List String)

/-- Adds one direction of an entanglement. -/
def Partners.note (p : Partners) (name partner : String) : Partners :=
  let known := p.getD name []
  p.insert name (if known.contains partner then known else known ++ [partner])

/-- The partners that the entangling instructions of a program make. -/
def Partners.ofInstructions (is : List Instruction) : Partners :=
  is.foldl (fun p i =>
    if i.opcode = .entangle then (p.note (i.arg 0) (i.arg 1)).note (i.arg 1) (i.arg 0)
    else p) .empty

/-- What the arguments of an instruction mean. -/
def Metadata.ofInstruction (partners : Partners) (i : Instruction) : Metadata :=
  let a := i.arg 0
  let b := i.arg 1
  let consuming := i.opcode.isConsuming
  match i.opcode with
  | .allocQudit => .resource a (Number.unsigned? Number.maxWord32 b) (partners.getD a [])
  | .entangle | .disentangle | .entanglementSwap => .operation [a, b] none none consuming
  | .applyGate => .operation [b] (some a) none consuming
  | .measure | .release => .operation [a] none none consuming
  | .entangleRemote | .teleport => .operation [a] none (some b) consuming
  | .declareContract => .entity a defaultScore .notification .medium
  | .setExplainability =>
    .modifier a (.explainability ((Number.real? b).filter Binary64.isFinite))
  | .setOversight => .modifier a (.oversight (Oversight.parse b).toOption)
  | .setCriticality => .modifier a (.criticality (Criticality.parse b).toOption)
  | .approve => .modifier a .approval
  | .deploy => .governed a (.deploy b)
  | .verify => .governed a .verify
  | .decide => .decision a b
  | .bind => .literal a (Value.ofLiteral b)
  | .print => .reference a
  | .setTargetNode => .directive (.targetNode a)
  | .setChannel => .directive (.channel a)
  | .barrier => .directive (.barrier a (Number.unsigned? Number.maxWord64 b))
  | .scheduleWindow =>
    .directive (.window a (Number.unsigned? Number.maxWord64 b)
      (Number.unsigned? Number.maxWord64 (i.arg 2)))

/-- The source line an instruction stands on, without blanks around it; an instruction that stands
on no line of the source is shown as bytecode. -/
def Instruction.sourceText (lines : Array (List Char)) (i : Instruction) : String :=
  match i.location.line with
  | 0 => i.line
  | n + 1 =>
    match lines[n]? with
    | some line => String.ofList (Text.trim line)
    | none => i.line

/-- One node an instruction; `source` is the text they were written in. -/
def Node.ofInstructions (is : List Instruction) (source : String) : List Node :=
  let lines := (Text.lines source.toList).toArray
  let partners := Partners.ofInstructions is
  is.map fun i => ⟨i.opcode, i.location, i.sourceText lines, .ofInstruction partners i⟩

end GovernedQuantum
