import GovernedQuantum.Digest.Blake3
import GovernedQuantum.Number.Binary64
import GovernedQuantum.Random.ChaCha

/-!
# Physics

A session logs and forwards the numbers of its physics, and nothing else hangs on them.

* `Physics`: what a session asks of a physics.
* `SeededPhysics`: reproducible numbers from a seed.
-/

namespace GovernedQuantum

/-- The outcome of a measurement and how likely it was. -/
structure Measurement where
  outcome : Nat
  probability : Binary64
deriving DecidableEq, Repr

/-- A key shared by two nodes. -/
structure KeyMaterial where
  nodeA : String
  nodeB : String
  bits : Nat
  /-- The first digits of the key's digest. -/
  fingerprint : String
  errorRate : Binary64
deriving DecidableEq, Repr

class Physics (π : Type) where
  /-- Collapses a qudit with a number of levels. -/
  measure : π → Nat → Measurement × π
  /-- Estimated fidelity of moving a state from one node to another. -/
  fidelity : π → String → String → Binary64 × π
  /-- Distributes a key between two nodes over a number of raw qubits. -/
  distributeKey : π → String → String → Nat → KeyMaterial × π

/-- Reproducible physics. -/
structure SeededPhysics where
  stream : Random.Stream
deriving DecidableEq, Repr

namespace SeededPhysics

def ofSeed (seed : Nat) : SeededPhysics := ⟨.ofSeed seed⟩

/-- Every level is equally likely; a qudit has at least one. -/
def measure (p : SeededPhysics) (dimension : Nat) : Measurement × SeededPhysics :=
  let d := max dimension 1
  let (outcome, stream) := p.stream.below d
  (⟨outcome, .ofFloat (1.0 / d.toFloat)⟩, ⟨stream⟩)

def fidelity (p : SeededPhysics) : Binary64 × SeededPhysics :=
  let (x, stream) := p.stream.between 0.90 0.99
  (.ofFloat x, ⟨stream⟩)

/-- The bits that survive: a coin for each raw qubit, and the lowest bit of a word if it falls
right. The newest bit comes first. -/
def sift : Nat → List UInt8 → Random.Stream → List UInt8 × Random.Stream
  | 0, kept, s => (kept, s)
  | n + 1, kept, s =>
    let (keep, s) := s.coin
    if keep then
      let (w, s) := s.word
      sift n ((w % 2).toUInt8 :: kept) s
    else sift n kept s

def distributeKey (p : SeededPhysics) (a b : String) (qubits : Nat) : KeyMaterial × SeededPhysics :=
  let (kept, stream) := sift qubits [] p.stream
  let (rate, stream) := stream.between 0.0 0.05
  ({ nodeA := a
     nodeB := b
     bits := kept.length
     fingerprint := Blake3.toHex ((Blake3.digest kept.reverse).take 8)
     errorRate := .ofFloat rate },
    ⟨stream⟩)

instance : Physics SeededPhysics := ⟨measure, fun p _ _ => p.fidelity, distributeKey⟩

end SeededPhysics

end GovernedQuantum
