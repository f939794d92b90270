import GovernedQuantum.Session

/-!
# Results

What a session shows of itself: its tables in a fixed order and what the last run has written.
-/

namespace GovernedQuantum

/-- A live handle with its entanglement. -/
structure Snapshot where
  handle : Handle
  purity : Purity
  partners : List Nat
deriving DecidableEq, Repr

structure Result where
  success : Bool
  status : Status
  console : List String
  errors : List Diagnostic
  warnings : List Diagnostic
  /-- In ascending order of their numbers. -/
  handles : List Snapshot
  /-- In ascending order of their numbers. -/
  groups : List Group
  /-- In ascending order of their names. -/
  entities : List Entity
  values : Table String Value
  records : List Record
  delegations : List Ticket
  /-- In ascending order of their names. -/
  barriers : List Barrier
  /-- In ascending order of their names. -/
  windows : List Window
  reviews : List LogEntry
  sessionId : String

/-- Where a run has got to. -/
inductive Outcome where
  | finished (result : Result)
  | suspended (suspension : Suspension)

def Register.snapshot (r : Register) (h : Handle) : Snapshot := ⟨h, r.purity h.id, r.partners h.id⟩

namespace Session

variable {π γ κ : Type}

def result (s : Session π γ κ) : Result where
  success := !s.diagnostics.hasErrors
  status := s.status
  console := s.console.toList
  errors := s.diagnostics.errors.toList
  warnings := s.diagnostics.warnings.toList
  handles := s.tables.register.handles.values.map s.tables.register.snapshot
  groups := s.tables.register.groups.values
  entities := s.tables.entities.values
  values := s.tables.values
  records := s.tables.records.toList
  delegations := s.tables.network.delegations.toList
  barriers := s.tables.network.barriers.values
  windows := s.tables.network.windows.values
  reviews := s.reviews.toList
  sessionId := s.id

def outcome (s : Session π γ κ) : Outcome :=
  match s.suspension with
  | some op => .suspended op
  | none => .finished s.result

end Session

end GovernedQuantum
