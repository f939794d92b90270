import GovernedQuantum.Session.Qudits

/-!
# Distributed instructions

The surroundings of a session, and the operations that it hands to its coordinator. Operands are
checked before the coordinator is asked, and tables change only when it has accepted.
-/

namespace GovernedQuantum

/-- Raw qubits spent on the key of a remote entanglement. -/
def keyQubits : Nat := 256

/-- The deadline that a token stands for: milliseconds in 64 bits. -/
def deadline? (token : String) : Option Nat := Number.unsigned? Number.maxWord64 token

/-! ## What is said -/

namespace Line

def targetNodeSet (node : String) : String := s!"target node set to {node}"

def channelSet (channel : String) : String := s!"channel set to {channel}"

def delegated (ticket : Ticket) : String :=
  let kind := ticket.request.kind.title
  let names := " and ".intercalate ticket.request.resources
  let target := ticket.request.remoteNode.getD "(unset)"
  s!"delegated {kind} of {names} to {target} (ticket {ticket.id})"

def barrierRegistered (name : String) (deadline : Nat) : String :=
  s!"barrier {name} registered (deadline {deadline}ms)"

def windowScheduled (name : String) (soft hard : Nat) : String :=
  s!"window {name} scheduled (soft {soft}ms, hard {hard}ms)"

end Line

namespace Ticket

/-- The ticket of a remote entanglement, with its key. -/
def withKey (ticket : Ticket) (key : KeyMaterial) : Ticket :=
  { ticket with detail := some s!"key {key.fingerprint} ({key.bits} bits)" }

/-- The ticket of a teleport, with its fidelity. -/
def withFidelity (ticket : Ticket) (fidelity : Binary64) : Ticket :=
  let text := fidelity.toFixed 3
  { ticket with detail := some s!"fidelity {text}" }

end Ticket

/-! ## What is done -/

namespace Session

variable {π γ κ : Type}

def setTargetNode (s : Session π γ κ) (node : String) : Attempt (Session π γ κ) :=
  let network := { s.tables.network with targetNode := some node }
  .done ((s.withTables { s.tables with network }).say (Line.targetNodeSet node))

def setChannel (s : Session π γ κ) (channel : String) : Attempt (Session π γ κ) :=
  let network := { s.tables.network with channel := some channel }
  .done ((s.withTables { s.tables with network }).say (Line.channelSet channel))

def delegationRequest (s : Session π γ κ) (kind : DelegationKind) (resources : List String)
    (handles : List Nat) (remoteNode : Option String) : DelegationRequest :=
  { kind, resources, handles, localNode := s.settings.localNode, remoteNode,
    channel := s.tables.network.channel, sessionId := s.id }

/-- The session after a call of the coordinator, which takes its time. -/
def entrust (s : Session π γ κ) (coordinator : κ) : Session π γ κ :=
  { s with coordinator }.wait s.delays.coordinator

/-- Asks the coordinator. -/
def delegate [Coordinator κ] (s : Session π γ κ) (request : DelegationRequest) :
    Except CoordinationError Ticket × Session π γ κ :=
  let (answer, coordinator) := Coordinator.delegate s.coordinator request
  (answer, s.entrust coordinator)

/-- Files an accepted ticket. -/
def acceptTicket (s : Session π γ κ) (ticket : Ticket) : Session π γ κ :=
  let network := s.tables.network
  let network := { network with delegations := network.delegations.push ticket }
  (s.withTables { s.tables with network }).say (Line.delegated ticket)

/-- Takes a handle out of the register, if it is there, and counts the use in any case. -/
def discard (s : Session π γ κ) (name : String) (id : Nat) : Session π γ κ :=
  let s :=
    match s.tables.register.remove id with
    | none => s
    | some (_, dissolved, register) =>
      (s.withTables { s.tables with register }).sayDissolved dissolved
  s.withTables (s.tables.countUse name)

def entangleRemote [Physics π] [Coordinator κ] (s : Session π γ κ) (name node : String) :
    Attempt (Session π γ κ) :=
  match s.resolveCoherent name with
  | (.error f, s) => .failed f s
  | (.ok id, s) =>
    match s.delegate (s.delegationRequest .remoteEntanglement [name] [id] (some node)) with
    | (.error e, s) => .failed (.delegationRefused e) s
    | (.ok ticket, s) =>
      let (key, physics) := Physics.distributeKey s.physics s.settings.localNode node keyQubits
      let (now, s) := (s.consult physics).readClock
      .done ((s.withTables (s.tables.modifyHandle id (·.touch now))).acceptTicket
        (ticket.withKey key))

/-- Moves a qudit away: it is gone once the coordinator has accepted. -/
def teleport [Physics π] [Coordinator κ] (s : Session π γ κ) (name node : String) :
    Attempt (Session π γ κ) :=
  match s.resolveCoherent name with
  | (.error f, s) => .failed f s
  | (.ok id, s) =>
    match s.delegate (s.delegationRequest .teleport [name] [id] (some node)) with
    | (.error e, s) => .failed (.delegationRefused e) s
    | (.ok ticket, s) =>
      let (fidelity, physics) := Physics.fidelity s.physics s.settings.localNode node
      .done (((s.consult physics).discard name id).acceptTicket (ticket.withFidelity fidelity))

def swap [Coordinator κ] (s : Session π γ κ) (a b : String) : Attempt (Session π γ κ) :=
  if a = b then .failed (.selfEntanglement a) s
  else
    match s.tables.resolve a with
    | .error f => .failed f s
    | .ok x =>
      match s.tables.resolve b with
      | .error f => .failed f s
      | .ok y =>
        let remote := s.tables.network.targetNode
        match s.delegate (s.delegationRequest .entanglementSwap [a, b] [x, y] remote) with
        | (.error e, s) => .failed (.delegationRefused e) s
        | (.ok ticket, s) =>
          let (now, s) := s.readClock
          .done ((s.withTables ((s.tables.modifyHandle x (·.touch now)).modifyHandle y
            (·.touch now))).acceptTicket ticket)

def registerBarrier (s : Session π γ κ) (name token : String) : Attempt (Session π γ κ) :=
  match deadline? token with
  | none => .failed (.invalidDeadline token) s
  | some deadline =>
    let (now, s) := s.readClock
    let barrier : Barrier :=
      { name, deadline, participants := [s.settings.localNode], createdAt := now }
    let network := s.tables.network
    let network := { network with barriers := network.barriers.insert name barrier }
    .done ((s.withTables { s.tables with network }).say (Line.barrierRegistered name deadline))

def scheduleWindow (s : Session π γ κ) (name soft hard : String) : Attempt (Session π γ κ) :=
  match deadline? soft with
  | none => .failed (.invalidDeadline soft) s
  | some first =>
    match deadline? hard with
    | none => .failed (.invalidDeadline hard) s
    | some last =>
      if last < first then .failed (.invertedWindow name first last) s
      else
        let (now, s) := s.readClock
        let window : Window := { name, soft := first, hard := last, registeredAt := now }
        let network := s.tables.network
        let network := { network with windows := network.windows.insert name window }
        .done ((s.withTables { s.tables with network }).say (Line.windowScheduled name first last))

end Session

end GovernedQuantum
