import GovernedQuantum.Table

/-!
# Delegation to other nodes

Remote work is handed to a **coordinator**. A ticket says that the coordinator has accepted the
work, not that the remote side has done it.

* `Coordinator`: what a session needs from a coordinator.
* `Loopback`: accepts everything and numbers its tickets from 1.
* `Network`: what a session knows about its surroundings.
-/

namespace GovernedQuantum

inductive DelegationKind where
  | remoteEntanglement | teleport | entanglementSwap
deriving DecidableEq, Repr

namespace DelegationKind

def all : List DelegationKind := [remoteEntanglement, teleport, entanglementSwap]

/-- The kind in plain words. -/
def title : DelegationKind → String
  | remoteEntanglement => "remote entanglement"
  | teleport => "teleport"
  | entanglementSwap => "entanglement swap"

/-- The kind as it stands in records. -/
def name : DelegationKind → String
  | remoteEntanglement => "remote_entanglement"
  | teleport => "teleport"
  | entanglementSwap => "entanglement_swap"

end DelegationKind

structure DelegationRequest where
  kind : DelegationKind
  resources : List String
  /-- Numbers of the resources' handles. -/
  handles : List Nat
  localNode : String
  remoteNode : Option String
  channel : Option String
  sessionId : String
deriving DecidableEq, Repr

/-- Proof that a coordinator has accepted a request. -/
structure Ticket where
  id : Nat
  request : DelegationRequest
  /-- What the local side adds: a key's fingerprint or a fidelity. -/
  detail : Option String := none
deriving DecidableEq, Repr

/-- Why a coordinator refused. -/
inductive CoordinationError where
  | unreachable (node : String)
  | noChannel
deriving DecidableEq, Repr

def CoordinationError.message : CoordinationError → String
  | unreachable node => s!"node '{node}' is unreachable"
  | noChannel => "no channel is configured"

class Coordinator (κ : Type) where
  delegate : κ → DelegationRequest → Except CoordinationError Ticket × κ

/-- Accepts every request and remembers it. -/
structure Loopback where
  /-- Number of the last ticket. -/
  next : Nat := 0
  accepted : Array DelegationRequest := #[]
deriving DecidableEq, Repr, Inhabited

namespace Loopback

def delegate (c : Loopback) (request : DelegationRequest) : Ticket × Loopback :=
  let next := c.next + 1
  (⟨next, request, none⟩, ⟨next, c.accepted.push request⟩)

instance : Coordinator Loopback where
  delegate c request :=
    let (ticket, c) := c.delegate request
    (.ok ticket, c)

end Loopback

/-! ## Surroundings of a session -/

/-- A meeting point in time. -/
structure Barrier where
  name : String
  deadline : Nat
  /-- Nodes that take part. -/
  participants : List String
  createdAt : Nat
deriving DecidableEq, Repr

/-- A span of time with a soft and a hard end. -/
structure Window where
  name : String
  soft : Nat
  hard : Nat
  registeredAt : Nat
deriving DecidableEq, Repr

structure Network where
  targetNode : Option String := none
  channel : Option String := none
  barriers : Table String Barrier := .empty
  windows : Table String Window := .empty
  /-- Accepted tickets, in order. -/
  delegations : Array Ticket := #[]
deriving Inhabited

end GovernedQuantum
