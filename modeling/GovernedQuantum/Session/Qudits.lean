import GovernedQuantum.Number.Fixed
import GovernedQuantum.Number.Reading
import GovernedQuantum.Session

/-!
# Instructions on qudits

Allocation, entanglement, gates, and the uses that consume a qudit. Each instruction checks its
operands before it changes a table.
-/

namespace GovernedQuantum

/-- The dimension that a token stands for: a number of 32 bits, at least 2. -/
def dimension? (token : String) : Option Nat :=
  (Number.unsigned? Number.maxWord32 token).filter fun d => decide (2 ≤ d)

/-! ## What is said -/

namespace Line

def allocated (name : String) (dimension id : Nat) : String :=
  s!"allocated qudit {name} (dimension {dimension}) as {Handle.label id}"

def entangled (a b : String) (group : Nat) : String :=
  s!"entangled {a} and {b} in group {Group.label group}"

def disentangled (a b : String) (group : Nat) : String :=
  s!"disentangled {a} and {b} (group {Group.label group} removed)"

def dissolved (group : Nat) : String := s!"entanglement group {Group.label group} dissolved"

def gateApplied (gate name : String) : String := s!"applied {gate} to {name}"

def measured (name : String) (m : Measurement) : String :=
  let chance := m.probability.toFixed 3
  s!"measured {name}: outcome {m.outcome} (p={chance})"

def released (name : String) : String := s!"released {name}"

end Line

/-! ## What is done -/

namespace Session

variable {π γ κ : Type}

/-- The number of the live handle bound to a name, which must be coherent at the next reading. -/
def resolveCoherent (s : Session π γ κ) (name : String) : Except Fault Nat × Session π γ κ :=
  match s.tables.resolve name with
  | .error f => (.error f, s)
  | .ok id =>
    let (now, s) := s.readClock
    if (s.tables.register.handle? id).any (·.isCoherentAt now) then (.ok id, s)
    else (.error (.decoherent name), s)

def sayDissolved (s : Session π γ κ) (groups : List Nat) : Session π γ κ :=
  { s with console := groups.foldl (fun console id => console.push (Line.dissolved id)) s.console }

/-- Takes a live handle out of the register for good and counts the use. -/
def consume (s : Session π γ κ) (name : String) (id : Nat) : Option (Handle × Session π γ κ) :=
  (s.tables.register.remove id).map fun (handle, dissolved, register) =>
    (handle, (s.withTables ({ s.tables with register }.countUse name)).sayDissolved dissolved)

/-- The session after a call of the physics, which takes its time. -/
def consult (s : Session π γ κ) (physics : π) : Session π γ κ :=
  { s with physics }.wait s.delays.physics

def allocate (s : Session π γ κ) (name token : String) : Attempt (Session π γ κ) :=
  if s.tables.bindings.contains name then .failed (.alreadyBound name) s
  else
    match dimension? token with
    | none => .failed (.invalidDimension token) s
    | some dimension =>
      let (now, s) := s.readClock
      let id := s.nextHandle
      let handle := Handle.allocate id name dimension now s.settings.coherenceTime
      let tables :=
        { s.tables with
          register := s.tables.register.insert handle
          bindings := s.tables.bindings.insert name id }
      .done (({ s with nextHandle := id + 1 }.withTables tables).say
        (Line.allocated name dimension id))

def entangle (s : Session π γ κ) (a b : String) : Attempt (Session π γ κ) :=
  if a = b then .failed (.selfEntanglement a) s
  else
    match s.resolveCoherent a with
    | (.error f, s) => .failed f s
    | (.ok x, s) =>
      match s.resolveCoherent b with
      | (.error f, s) => .failed f s
      | (.ok y, s) =>
        match s.tables.register.between? x y with
        | some _ => .failed (.alreadyEntangled a b) s
        | none =>
          let (now, s) := s.readClock
          let life := s.settings.coherenceTime
          let (id, register) := s.tables.register.join [x, y] now life
          let register := (register.modify x (·.resetDeadline now life)).modify y
            (·.resetDeadline now life)
          let entangled := (s.tables.entangled.insert a ()).insert b ()
          .done ((s.withTables { s.tables with register, entangled }).say (Line.entangled a b id))

def disentangle (s : Session π γ κ) (a b : String) : Attempt (Session π γ κ) :=
  match s.tables.resolve a with
  | .error f => .failed f s
  | .ok x =>
    match s.tables.resolve b with
    | .error f => .failed f s
    | .ok y =>
      match s.tables.register.between? x y with
      | none => .failed (.notEntangled a b) s
      | some id =>
        let (now, s) := s.readClock
        let register := ((s.tables.register.removeGroup id).modify x (·.touch now)).modify y
          (·.touch now)
        .done ((s.withTables { s.tables with register }).say (Line.disentangled a b id))

def applyGate (s : Session π γ κ) (gate name : String) : Attempt (Session π γ κ) :=
  match s.resolveCoherent name with
  | (.error f, s) => .failed f s
  | (.ok id, s) =>
    let (now, s) := s.readClock
    .done ((s.withTables (s.tables.modifyHandle id fun h => (h.applyGate gate).touch now)).say
      (Line.gateApplied gate name))

/-- Collapses a qudit, coherent or not. -/
def measure [Physics π] (s : Session π γ κ) (name : String) : Attempt (Session π γ κ) :=
  match s.tables.resolve name with
  | .error f => .failed f s
  | .ok id =>
    let releasedPartners := s.tables.register.partners id
    let dimension := ((s.tables.register.handle? id).map (·.dimension)).getD 0
    let (m, physics) := Physics.measure s.physics dimension
    let s := s.consult physics
    match s.consume name id with
    | none => .failed (.consumedHandle name) s
    | some (handle, s) =>
      let (now, s) := s.readClock
      let entry : Record :=
        { name, handle := id, dimension := handle.dimension, outcome := m.outcome,
          probability := m.probability, measuredAt := now, releasedPartners }
      .done ((s.withTables { s.tables with records := s.tables.records.push entry }).say
        (Line.measured name m))

/-- Gives a qudit up, coherent or not. -/
def release (s : Session π γ κ) (name : String) : Attempt (Session π γ κ) :=
  match s.tables.resolve name with
  | .error f => .failed f s
  | .ok id =>
    match s.consume name id with
    | none => .failed (.consumedHandle name) s
    | some (_, s) => .done (s.say (Line.released name))

end Session

end GovernedQuantum
