import GovernedQuantum.Clock
import GovernedQuantum.Delegation
import GovernedQuantum.Entity
import GovernedQuantum.Explanation
import GovernedQuantum.Fault
import GovernedQuantum.InferredType
import GovernedQuantum.Physics
import GovernedQuantum.Program
import GovernedQuantum.Register
import GovernedQuantum.Review
import GovernedQuantum.Value

/-!
# Sessions

A **session** runs programs, one after another, over tables that outlive each run. It holds its
tables, its collaborators, the program under way and what the run has written so far.

* `Tables`: what instructions act on; a failed instruction leaves them alone.
* `Tables.context`: the questions of constraints, answered from the tables.
* `Attempt`: what becomes of one instruction.
-/

namespace GovernedQuantum

/-! ## Tables -/

/-- What remains of a qudit after its measurement. -/
structure Record where
  name : String
  handle : Nat
  dimension : Nat
  outcome : Nat
  probability : Binary64
  measuredAt : Nat
  /-- Handles that were entangled with it when it collapsed. -/
  releasedPartners : List Nat
deriving DecidableEq, Repr

/-- The state that instructions act on. -/
structure Tables where
  register : Register := {}
  /-- Handle of each name, kept after the qudit is consumed. -/
  bindings : Table String Nat := .empty
  /-- Consuming uses of each name. -/
  usage : Table String Nat := .empty
  /-- Names that have taken part in an entanglement. -/
  entangled : Table String Unit := .empty
  entities : Entities := .empty
  values : Table String Value := .empty
  records : Array Record := #[]
  network : Network := {}
deriving Inhabited

namespace Tables

/-- The live handle bound to a name. -/
def handle? (t : Tables) (name : String) : Option Handle :=
  (t.bindings.find? name).bind t.register.handle?

def usageOf (t : Tables) (name : String) : Nat := t.usage.getD name 0

/-- The number of the live handle bound to a name. -/
def resolve (t : Tables) (name : String) : Except Fault Nat :=
  match t.bindings.find? name with
  | none => .error (.unknownHandle name)
  | some id =>
    if 0 < t.usageOf name ∨ t.register.contains id = false then .error (.consumedHandle name)
    else .ok id

/-- Counts a consuming use. -/
def countUse (t : Tables) (name : String) : Tables :=
  { t with usage := t.usage.insert name (t.usageOf name + 1) }

def modifyHandle (t : Tables) (id : Nat) (f : Handle → Handle) : Tables :=
  { t with register := t.register.modify id f }

def putEntity (t : Tables) (name : String) (e : Entity) : Tables :=
  { t with entities := t.entities.insert name e }

/-- The questions of constraints at a moment. -/
def context (t : Tables) (now : Nat) : Context where
  consumedCount := t.usageOf
  isTracked name := (t.handle? name).isSome
  isCoherent name := (t.handle? name).any (·.isCoherentAt now)
  wasEntangled := t.entangled.contains
  entity name := (t.entities.find? name).map Entity.view

end Tables

/-! ## Sessions -/

inductive Status where
  | notStarted | running
  /-- Waits for a human decision. -/
  | suspended
  | haltedSuccess | haltedError
deriving DecidableEq, Repr

def Status.name : Status → String
  | notStarted => "not_started"
  | running => "running"
  | suspended => "suspended"
  | haltedSuccess => "halted_success"
  | haltedError => "halted_error"

/-- An instruction that waits for a human decision. -/
structure Suspension where
  request : Request
  instruction : Instruction
  /-- Place of the instruction in the program, from 0. -/
  index : Nat
deriving DecidableEq, Repr

/-- Milliseconds by which the clock moves at each call of a collaborator. -/
structure Delays where
  physics : Nat := 0
  coordinator : Nat := 0
  explainer : Nat := 0
deriving DecidableEq, Repr, Inhabited

/-- A session over a physics `π`, a gateway `γ` and a coordinator `κ`. -/
structure Session (π γ κ : Type) where
  id : String
  settings : Settings
  clock : Clock
  delays : Delays := {}
  physics : π
  gateway : γ
  coordinator : κ
  /-- Writes explanations in place of the template. -/
  explainer : Option Provider := none
  /-- Number of the next handle. -/
  nextHandle : Nat := 1
  tables : Tables := {}
  status : Status := .notStarted
  program : Program := {}
  /-- The checker's type of each instruction, where the run is annotated. -/
  annotations : Option (Array InferredType) := none
  /-- Place of the instruction under way, from 0. -/
  position : Nat := 0
  steps : Nat := 0
  suspension : Option Suspension := none
  console : Array String := #[]
  diagnostics : Diagnostics := {}
  reviews : Array LogEntry := #[]

/-- What became of an instruction: it took effect, or it failed. -/
inductive Attempt (σ : Type) where
  | done (session : σ)
  | failed (fault : Fault) (session : σ)

namespace Session

variable {π γ κ : Type}

def say (s : Session π γ κ) (line : String) : Session π γ κ :=
  { s with console := s.console.push line }

def report (s : Session π γ κ) (d : Diagnostic) : Session π γ κ :=
  { s with diagnostics := s.diagnostics.push d }

/-- Reports a fault at a place. -/
def record (s : Session π γ κ) (f : Fault) (location : Location) : Session π γ κ :=
  s.report (f.diagnostic location)

/-- Takes a reading of the clock. -/
def readClock (s : Session π γ κ) : Nat × Session π γ κ :=
  (s.clock.now, { s with clock := s.clock.read.2 })

def wait (s : Session π γ κ) (ms : Nat) : Session π γ κ := { s with clock := s.clock.advance ms }

def withTables (s : Session π γ κ) (t : Tables) : Session π γ κ := { s with tables := t }

/-- Notes every coherence deadline that has passed. -/
def fireTimers (s : Session π γ κ) : Session π γ κ :=
  let (now, s) := s.readClock
  let register := s.tables.register.mapHandles (·.expire now)
  s.withTables { s.tables with register }

end Session

end GovernedQuantum
