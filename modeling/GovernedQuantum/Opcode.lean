import GovernedQuantum.Text.Blank

/-!
# Opcodes

The registry of operations: for each its keyword in source text, its mnemonic in bytecode, how many
arguments it takes and which part of the machine it belongs to.

* `Opcode.ofKeyword?` finds an operation by its keyword, whatever the case of ASCII letters.
* `Opcode.ofMnemonic?` finds it by its exact mnemonic, and inverts `Opcode.mnemonic`.
-/

namespace GovernedQuantum

/-- What an instruction does. -/
inductive Opcode where
  /- Qudits: allocate, entangle, act on, and give up. -/
  | allocQudit | entangle | disentangle | applyGate | measure | release
  /- Governance of AI entities. -/
  | declareContract | setExplainability | setOversight | setCriticality | approve | deploy | verify
  | decide
  /- Classical values. -/
  | bind | print
  /- Distributed execution. -/
  | setTargetNode | setChannel | entangleRemote | teleport | entanglementSwap | barrier
  | scheduleWindow
deriving DecidableEq, Repr, Inhabited

/-- The part of the machine an operation works on. -/
inductive OpcodeGroup where
  | resource | governance | classical | distributed
deriving DecidableEq, Repr

namespace OpcodeGroup

def name : OpcodeGroup → String
  | resource => "resource"
  | governance => "governance"
  | classical => "classical"
  | distributed => "distributed"

end OpcodeGroup

namespace Opcode

/-- Every operation, in the order of listings. -/
def all : List Opcode :=
  [allocQudit, entangle, disentangle, applyGate, measure, release, declareContract,
    setExplainability, setOversight, setCriticality, approve, deploy, verify, decide, bind, print,
    setTargetNode, setChannel, entangleRemote, teleport, entanglementSwap, barrier, scheduleWindow]

theorem mem_all (op : Opcode) : op ∈ all := by cases op <;> decide

/-- The word that introduces the statement in source text. -/
def keyword : Opcode → String
  | allocQudit => "qudit"
  | entangle => "entangle"
  | disentangle => "disentangle"
  | applyGate => "apply"
  | measure => "measure"
  | release => "release"
  | declareContract => "contract"
  | setExplainability => "explain"
  | setOversight => "oversee"
  | setCriticality => "classify"
  | approve => "approve"
  | deploy => "deploy"
  | verify => "verify"
  | decide => "decide"
  | bind => "let"
  | print => "print"
  | setTargetNode => "node"
  | setChannel => "channel"
  | entangleRemote => "entangle_remote"
  | teleport => "teleport"
  | entanglementSwap => "swap"
  | barrier => "barrier"
  | scheduleWindow => "window"

/-- The word that starts the line in bytecode. -/
def mnemonic : Opcode → String
  | allocQudit => "ALLOC_QUDIT"
  | entangle => "ENTANGLE"
  | disentangle => "DISENTANGLE"
  | applyGate => "APPLY_GATE"
  | measure => "MEASURE"
  | release => "RELEASE"
  | declareContract => "DECLARE_CONTRACT"
  | setExplainability => "SET_EXPLAINABILITY"
  | setOversight => "SET_OVERSIGHT"
  | setCriticality => "SET_CRITICALITY"
  | approve => "APPROVE"
  | deploy => "DEPLOY"
  | verify => "VERIFY"
  | decide => "DECIDE"
  | bind => "LET"
  | print => "PRINT"
  | setTargetNode => "SET_TARGET_NODE"
  | setChannel => "SET_CHANNEL"
  | entangleRemote => "ENTANGLE_REMOTE"
  | teleport => "TELEPORT"
  | entanglementSwap => "ENTANGLEMENT_SWAP"
  | barrier => "BARRIER"
  | scheduleWindow => "SCHEDULE_WINDOW"

/-- How many arguments follow. -/
def arity : Opcode → Nat
  | measure | release | declareContract | approve | verify | print | setTargetNode | setChannel => 1
  | scheduleWindow => 3
  | _ => 2

theorem arity_pos (op : Opcode) : 0 < op.arity := by cases op <;> decide

def group : Opcode → OpcodeGroup
  | allocQudit | entangle | disentangle | applyGate | measure | release => .resource
  | declareContract | setExplainability | setOversight | setCriticality | approve | deploy | verify
  | decide => .governance
  | bind | print => .classical
  | setTargetNode | setChannel | entangleRemote | teleport | entanglementSwap | barrier
  | scheduleWindow => .distributed

/-- The name under which listings show what carries the operation out. -/
def handler (op : Opcode) : String :=
  "exec_" ++ String.ofList (op.mnemonic.toList.map Char.toLower)

/-- Operations after which their qudit is gone. -/
def isConsuming : Opcode → Bool
  | measure | release | teleport => true
  | _ => false

def ofKeyword? (word : String) : Option Opcode :=
  all.find? fun op => Text.sameLetters op.keyword word

def ofMnemonic? (word : String) : Option Opcode := all.find? fun op => op.mnemonic == word

theorem ofMnemonic?_mnemonic (op : Opcode) : ofMnemonic? op.mnemonic = some op := by
  cases op <;> decide

theorem mnemonic_of_ofMnemonic? {word : String} {op : Opcode} (h : ofMnemonic? word = some op) :
    op.mnemonic = word := by
  simpa using List.find?_some h

end Opcode

end GovernedQuantum
