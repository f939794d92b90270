import GovernedQuantum.Delegation
import GovernedQuantum.Explanation
import GovernedQuantum.Physics
import GovernedQuantum.Review

/-!
# Collaborators that follow a script

Stand-ins with which a session can be rehearsed: a physics that always gives the same numbers, a
coordinator that refuses, a gateway that loses answers, a provider with fixed words.
-/

namespace GovernedQuantum.Scripted

/-! ## Physics -/

/-- The numbers that a scripted physics gives. -/
structure Numbers where
  outcome : Nat := 0
  probability : Binary64 := 1.0
  fidelity : Binary64 := 1.0
  /-- Added to the number of raw qubits. -/
  bits : Nat := 0
  /-- Stands before the names of the two nodes. -/
  fingerprint : String := ""
deriving DecidableEq, Repr

inductive PhysicsScript where
  | seeded (physics : SeededPhysics)
  | constant (numbers : Numbers)
deriving DecidableEq, Repr

namespace PhysicsScript

def measure : PhysicsScript → Nat → Measurement × PhysicsScript
  | seeded p, d =>
    let (m, p) := p.measure d
    (m, seeded p)
  | constant n, _ => (⟨n.outcome, n.probability⟩, constant n)

def fidelity : PhysicsScript → Binary64 × PhysicsScript
  | seeded p =>
    let (x, p) := p.fidelity
    (x, seeded p)
  | constant n => (n.fidelity, constant n)

def distributeKey : PhysicsScript → String → String → Nat → KeyMaterial × PhysicsScript
  | seeded p, a, b, qubits =>
    let (key, p) := p.distributeKey a b qubits
    (key, seeded p)
  | constant n, a, b, qubits =>
    ({ nodeA := a
       nodeB := b
       bits := n.bits + qubits
       fingerprint := n.fingerprint ++ a ++ ">" ++ b
       errorRate := 0.0 },
      constant n)

instance : Physics PhysicsScript := ⟨measure, fun p _ _ => p.fidelity, distributeKey⟩

end PhysicsScript

/-! ## Coordinators -/

inductive CoordinatorScript where
  | loopback (coordinator : Loopback)
  /-- No node can be reached. -/
  | refusing
  /-- Accepts only requests over a channel. -/
  | needingChannel (coordinator : Loopback)
deriving DecidableEq, Repr

namespace CoordinatorScript

def accept (c : Loopback) (wrap : Loopback → CoordinatorScript) (request : DelegationRequest) :
    Except CoordinationError Ticket × CoordinatorScript :=
  let (ticket, c) := c.delegate request
  (.ok ticket, wrap c)

def delegate (s : CoordinatorScript) (request : DelegationRequest) :
    Except CoordinationError Ticket × CoordinatorScript :=
  match s with
  | loopback c => accept c loopback request
  | refusing => (.error (.unreachable (request.remoteNode.getD "")), refusing)
  | needingChannel c =>
    match request.channel with
    | none => (.error .noChannel, needingChannel c)
    | some _ => accept c needingChannel request

instance : Coordinator CoordinatorScript := ⟨delegate⟩

end CoordinatorScript

/-! ## Gateways -/

inductive GatewayScript where
  | memory (gateway : MemoryGateway)
  /-- Knows of no request when it is answered. -/
  | deaf (gateway : MemoryGateway)
  /-- Takes the first answer only; every other counts as a second one. -/
  | once (gateway : MemoryGateway) (used : Bool)

namespace GatewayScript

def file : GatewayScript → Filing → Nat × GatewayScript
  | memory g, f =>
    let (id, g) := g.file f
    (id, memory g)
  | deaf g, f =>
    let (id, g) := g.file f
    (id, deaf g)
  | once g used, f =>
    let (id, g) := g.file f
    (id, once g used)

def answer : GatewayScript → Nat → Decision → Except ReviewError Unit × GatewayScript
  | memory g, id, d =>
    let (result, g) := g.answer id d
    (result, memory g)
  | deaf g, id, _ => (.error (.unknownRequest id), deaf g)
  | once g true, id, _ => (.error (.alreadyAnswered id), once g true)
  | once g false, id, d =>
    let (result, g) := g.answer id d
    (result, once g true)

instance : Gateway GatewayScript := ⟨file, answer⟩

end GatewayScript

/-! ## Providers -/

/-- Puts `word` in the place of every pair of braces. -/
def fillBraces (word : List Char) : List Char → List Char
  | '\x7b' :: '\x7d' :: rest => word ++ fillBraces word rest
  | c :: rest => c :: fillBraces word rest
  | [] => []

/-- A provider with fixed answers; one that is left out is refused. -/
def provider (isAvailable : Bool) (text : Option String) (json : Option Json) : Provider where
  name := "custom"
  isAvailable := isAvailable
  text prompt _ :=
    match text with
    | some pattern => .ok (String.ofList (fillBraces prompt.toList pattern.toList))
    | none => .error (.unavailable "custom")
  json _ _ :=
    match json with
    | some answer => .ok answer
    | none => .error (.unavailable "custom")

end GovernedQuantum.Scripted
