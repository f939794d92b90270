import GovernedQuantum.Session.Step
import GovernedQuantum.Text.Utf8

/-!
# Runs

A run takes the instructions of a program in order until the program ends, a fatal finding stops
it, or an operation waits for a human. At the end the live tables are scanned for leaks and
inconsistencies.

* `Session.run` starts a program; tables are kept, output and findings begin anew.
* `Session.resume` answers the request that the session waits for and goes on.
* `Session.runToCompletion` answers every request as it comes.
* `Session.execute` runs encoded programs and rejects every request.
-/

namespace GovernedQuantum

/-- How a fresh session of this number is called. -/
def sessionName (n : Nat) : String := s!"session-{n}"

namespace Session

variable {π γ κ : Type}

/-! ## The end of a run -/

/-- Ends a run; it has failed if an error was found. -/
def halt (s : Session π γ κ) : Session π γ κ :=
  { s with status := if s.diagnostics.hasErrors then .haltedError else .haltedSuccess }

/-- Names of the live qudits that are not coherent, with a reading of the clock for each. -/
def leaks : List Handle → Session π γ κ → List String × Session π γ κ
  | [], s => ([], s)
  | h :: rest, s =>
    let (now, s) := s.readClock
    let (names, s) := leaks rest s
    (if h.isCoherentAt now then names else h.name :: names, s)

/-- Looks for leaked qudits and for groups that do not fit the live handles. -/
def finalScan (s : Session π γ κ) : Session π γ κ :=
  let s := s.fireTimers
  let location := (s.program.instructions.getLast?.map (·.location)).getD {}
  let (names, s) := leaks s.tables.register.handles.values s
  let s := names.foldl (fun s name => s.record (.decoheredLeak name) location) s
  s.tables.register.inconsistencies.foldl
    (fun s (group, detail) => s.record (.inconsistentGroup group detail) location) s

variable [Physics π] [Gateway γ] [Coordinator κ]

/-! ## Driving -/

/-- Runs the instructions that are left. -/
def drive : List Instruction → Session π γ κ → Session π γ κ
  | [], s => s.finalScan.halt
  | i :: rest, s =>
    let s := { s with steps := s.steps + 1 }
    if s.settings.maxSteps < s.steps then
      (s.record (.stepLimit s.settings.maxSteps) i.location).halt
    else
      match s.step s.position i with
      | .suspended request s =>
        { s with status := .suspended, suspension := some ⟨request, i, s.position⟩ }
      | .next s =>
        let s := { s with position := s.position + 1 }
        if s.diagnostics.hasFatal then s.halt else drive rest s

/-- Goes on behind the instruction at `index`. -/
def driveAfter (s : Session π γ κ) (index : Nat) : Session π γ κ :=
  drive (s.program.instructions.drop (index + 1)) { s with position := index + 1 }

/-- The session at the start of a run. Annotations count only if there is one per instruction. -/
def start (s : Session π γ κ) (program : Program) (annotations : Option (List InferredType)) :
    Session π γ κ :=
  let fresh : Session π γ κ :=
    { s with
      program
      annotations := none
      position := 0
      steps := 0
      suspension := none
      console := #[]
      diagnostics := {}
      status := .running }
  match annotations with
  | none => fresh
  | some types =>
    if types.length = program.length then { fresh with annotations := some types.toArray }
    else
      fresh.report
        { severity := .warning
          category := .execution
          location := {}
          message := s!"ignoring {types.length} annotations for {program.length} instructions" }

/-- Runs a program from its start. -/
def run (s : Session π γ κ) (program : Program) (annotations : Option (List InferredType)) :
    Session π γ κ :=
  drive program.instructions (s.start program annotations)

/-! ## Answers -/

/-- Notes a decision at the last entry on a request. -/
def decideLast (id : Nat) (d : Decision) : List LogEntry → List LogEntry
  | [] => []
  | e :: rest =>
    if e.request.id = id ∧ rest.all (·.request.id ≠ id) then { e with decision := some d } :: rest
    else e :: decideLast id d rest

/-- Answers the request that the session waits for, and goes on. A session that refuses the answer
waits on. -/
def resume (s : Session π γ κ) (id : Nat) (d : Decision) :
    Except ReviewError Unit × Session π γ κ :=
  match s.suspension with
  | none => (.error .notSuspended, s)
  | some op =>
    if op.request.id ≠ id then (.error (.unknownRequest id), s)
    else
      match Gateway.answer s.gateway id d with
      | (.error e, gateway) => (.error e, { s with gateway })
      | (.ok (), gateway) =>
        let s : Session π γ κ :=
          { s with
            gateway
            suspension := none
            status := .running
            reviews := (decideLast id d s.reviews.toList).toArray }
        let s :=
          match d with
          | .approve =>
            let label := Request.label id
            (s.say s!"oversight {label} approved: {op.request.details}").settle op.index
              op.instruction true
          | .reject => s.record (.oversightRejected id op.request.details) op.instruction.location
        (.ok (), s.driveAfter op.index)

/-- Gives a waiting instruction up because its answer was not taken, and goes on. -/
def abandon (s : Session π γ κ) (op : Suspension) (e : ReviewError) : Session π γ κ :=
  let s := { s with suspension := none, status := .running }
  (s.report
    { severity := .error
      category := .execution
      location := op.instruction.location
      message := e.message }).driveAfter op.index

/-- Answers at most `fuel` requests, each by what was asked before it and itself: the requests, the
newest first, and the session. -/
def answerAll (decide : List Request → Request → Decision) :
    Nat → List Request → Session π γ κ → List Request × Session π γ κ
  | 0, asked, s => (asked, s)
  | fuel + 1, asked, s =>
    match s.suspension with
    | none => (asked, s)
    | some op =>
      let s :=
        match s.resume op.request.id (decide asked op.request) with
        | (.ok (), s) => s
        | (.error e, s) => s.abandon op e
      answerAll decide fuel (op.request :: asked) s

/-- Runs a program to its end: the requests that were asked, in order, and the session. No
instruction waits twice, so a program has at most as many requests as instructions. -/
def runToCompletion (s : Session π γ κ) (program : Program)
    (annotations : Option (List InferredType)) (decide : List Request → Request → Decision) :
    List Request × Session π γ κ :=
  let (asked, s) := answerAll decide program.length [] (s.run program annotations)
  (asked.reverse, s)

/-! ## Encoded programs -/

/-- Ends a run that cannot begin. -/
def rejectInput (s : Session π γ κ) (f : Fault) (location : Location) : Session π γ κ :=
  { s.record f location with status := .haltedError }

/-- Runs an encoded program without annotations and rejects every request. -/
def execute (s : Session π γ κ) (text : String) : Session π γ κ :=
  match Program.decode text with
  | .ok program => (s.runToCompletion program none fun _ _ => .reject).2
  | .error e => s.rejectInput (.malformedBytecode e) e.location

/-- The same from bytes, which must be text. -/
def executeBytes (s : Session π γ κ) (bytes : List UInt8) : Session π γ κ :=
  match Text.decodeUtf8 bytes with
  | .ok text => s.execute text
  | .error defect => s.rejectInput (.notText defect.validUpTo) {}

end Session

/-- A session with the built-in collaborators and a clock that stands still. -/
def Session.standard (number : Nat) (settings : Settings) :
    Session SeededPhysics MemoryGateway Loopback where
  id := sessionName number
  settings := settings
  clock := .stopped 0
  physics := .ofSeed settings.seed
  gateway := {}
  coordinator := {}

end GovernedQuantum
