import GovernedQuantum.Session.Distribution
import GovernedQuantum.Session.Governance
import GovernedQuantum.Session.Values

/-!
# One instruction

The cycle of an instruction: coherence deadlines, constraints before, the verification gate, the
effect, constraints and checks after. A failure is reported at the instruction's place and the run
moves on.

* `Session.gate` decides whether a governed action takes effect, fails, or is put to a human.
* `Session.settle` carries an instruction out and looks at what it left behind.
* `Session.step` is the whole cycle.
-/

namespace GovernedQuantum

/-- Qudits that an instruction works on without consuming them. -/
def Instruction.interactionOperands (i : Instruction) : List String :=
  match i.opcode with
  | .entangle | .disentangle | .entanglementSwap => [i.arg 0, i.arg 1]
  | .applyGate => [i.arg 1]
  | .entangleRemote => [i.arg 0]
  | _ => []

/-- An instruction as it is put to a human. -/
def Instruction.describe (i : Instruction) : String :=
  let (a, b) := (i.arg 0, i.arg 1)
  match i.opcode with
  | .deploy => s!"deploy '{a}' to '{b}'"
  | .decide => s!"decision '{b}' by '{a}'"
  | _ => i.line

/-- What the verification gate says of an operation. -/
inductive Gate where
  | passed
  | closed (fault : Fault)
  /-- A human decides. -/
  | review (filing : Filing)
deriving DecidableEq, Repr

/-- A session after one step: ready for the next instruction, or waiting for an answer. -/
inductive Stepped (σ : Type) where
  | next (session : σ)
  | suspended (request : Request) (session : σ)

namespace Session

variable {π γ κ : Type}

/-! ## Constraints -/

/-- Evaluates a constraint; one on coherence takes a reading of the clock. -/
def evaluate (s : Session π γ κ) (c : Constraint) : Option Violation × Session π γ κ :=
  match c.kind with
  | .coherencePreservation _ =>
    let (now, s) := s.readClock
    (c.evaluate (s.tables.context now), s)
  | _ => (c.evaluate (s.tables.context s.clock.now), s)

/-- Evaluates constraints in order and reports what they find; whether every required one held. -/
def validateAll (location : Location) : List Constraint → Session π γ κ → Bool × Session π γ κ
  | [], s => (true, s)
  | c :: rest, s =>
    match s.evaluate c with
    | (none, s) => validateAll location rest s
    | (some v, s) =>
      let (passed, s) := validateAll location rest (s.report (v.diagnostic location c.required))
      (!c.required && passed, s)

/-- The constraints of one phase on the instruction at `index`. -/
def constraintsAt (s : Session π γ κ) (index : Nat) (phase : Phase) : List Constraint :=
  match s.annotations.bind (·[index]?) with
  | none => []
  | some t => t.constraintsIn phase

def validate (s : Session π γ κ) (index : Nat) (phase : Phase) (location : Location) :
    Bool × Session π γ κ :=
  validateAll location (s.constraintsAt index phase) s

/-! ## The gate -/

/-- Decides on a governed action by the verdict on it. -/
def gate (s : Session π γ κ) (i : Instruction) (profile : Profile) : Gate :=
  let entity := profile.entity.bind s.tables.entities.find?
  let verdict := profile.verdict entity
  if verdict.passed then .passed
  else
    let operation := i.describe
    match entity with
    | some e =>
      if verdict.requiresOversight ∧ e.oversight ≠ .none then
        let why := "; ".intercalate verdict.reasons
        .review
          { operationId := s!"{i.opcode.keyword}:{i.location.line}"
            kind := profile.kind
            criticality := profile.criticality
            details := s!"{operation}: {why}"
            level := e.oversight }
      else
        let more :=
          if verdict.requiresOversight then
            profile.entity.toList.map fun name => s!"'{name}' has no human oversight"
          else []
        .closed (.verificationFailed operation (verdict.reasons ++ more))
    | none => .closed (.verificationFailed operation verdict.reasons)

/-- Files a request for review. -/
def file [Gateway γ] (s : Session π γ κ) (i : Instruction) (filing : Filing) :
    Request × Session π γ κ :=
  let (id, gateway) := Gateway.file s.gateway filing
  let request : Request := { filing with id }
  let label := Request.label id
  let operation := i.describe
  (request,
    { s with gateway, reviews := s.reviews.push ⟨request, none⟩ }.say
      s!"oversight {label} requested: {operation}")

/-! ## The effect -/

/-- Carries an instruction out. -/
def attempt [Physics π] [Coordinator κ] (s : Session π γ κ) (i : Instruction) :
    Attempt (Session π γ κ) :=
  match i.opcode with
  | .allocQudit => s.allocate (i.arg 0) (i.arg 1)
  | .entangle => s.entangle (i.arg 0) (i.arg 1)
  | .disentangle => s.disentangle (i.arg 0) (i.arg 1)
  | .applyGate => s.applyGate (i.arg 0) (i.arg 1)
  | .measure => s.measure (i.arg 0)
  | .release => s.release (i.arg 0)
  | .declareContract => s.declareContract (i.arg 0)
  | .setExplainability => s.setExplainability (i.arg 0) (i.arg 1)
  | .setOversight => s.setOversight (i.arg 0) (i.arg 1)
  | .setCriticality => s.setCriticality (i.arg 0) (i.arg 1)
  | .approve => s.approve (i.arg 0)
  | .deploy => s.deploy (i.arg 0) (i.arg 1)
  | .verify => s.verify i
  | .decide => s.decide (i.arg 0) (i.arg 1)
  | .bind => s.bindVariable (i.arg 0) (i.arg 1)
  | .print => s.print (i.arg 0)
  | .setTargetNode => s.setTargetNode (i.arg 0)
  | .setChannel => s.setChannel (i.arg 0)
  | .entangleRemote => s.entangleRemote (i.arg 0) (i.arg 1)
  | .teleport => s.teleport (i.arg 0) (i.arg 1)
  | .entanglementSwap => s.swap (i.arg 0) (i.arg 1)
  | .barrier => s.registerBarrier (i.arg 0) (i.arg 1)
  | .scheduleWindow => s.scheduleWindow (i.arg 0) (i.arg 1) (i.arg 2)

/-- Warns of an operand that is no longer coherent. -/
def checkOperand (i : Instruction) (now : Nat) (s : Session π γ κ) (name : String) :
    Session π γ κ :=
  if (s.tables.handle? name).any fun h => !h.isCoherentAt now then
    s.report
      { severity := .warning
        category := .quantumViolation
        location := i.location
        message := s!"resource '{name}' lost coherence during {i.opcode.keyword}"
        suggestion := some s!"measure or release '{name}' soon" }
  else s

/-- The oversight rule on a governed action that no human has approved. -/
def checkOversight (s : Session π γ κ) (i : Instruction) (approved : Bool) : Session π γ κ :=
  if !approved && i.opcode.operationKind.isGated then
    match (Constraint.humanOversight (i.arg 0) .post).evaluate (s.tables.context s.clock.now) with
    | some v => s.report (v.diagnostic i.location true)
    | none => s
  else s

/-- Looks at what an instruction left behind. -/
def checkAfter (s : Session π γ κ) (i : Instruction) (approved : Bool) : Session π γ κ :=
  let (now, s) := s.readClock
  (i.interactionOperands.foldl (checkOperand i now) s).checkOversight i approved

/-- Carries out an instruction that the gate let through, or that a human approved. -/
def settle [Physics π] [Coordinator κ] (s : Session π γ κ) (index : Nat) (i : Instruction)
    (approved : Bool) : Session π γ κ :=
  match s.attempt i with
  | .failed f s => s.record f i.location
  | .done s => (s.validate index .post i.location).2.checkAfter i approved

/-! ## The cycle -/

/-- One instruction, from its deadlines to its checks. -/
def step [Physics π] [Gateway γ] [Coordinator κ] (s : Session π γ κ) (index : Nat)
    (i : Instruction) : Stepped (Session π γ κ) :=
  match s.fireTimers.validate index .pre i.location with
  | (false, s) => .next s
  | (true, s) =>
    let profile := Profile.ofInstruction i s.tables.entities s.settings
    if profile.kind.isGated then
      match s.gate i profile with
      | .passed => .next (s.settle index i false)
      | .closed f => .next (s.record f i.location)
      | .review filing =>
        let (request, s) := s.file i filing
        .suspended request s
    else .next (s.settle index i false)

end Session

end GovernedQuantum
