/-!
# Diagnostics

A finding is data: every stage collects them, and whoever called the stage decides what to show.
Errors and warnings are kept apart, each in the order of their discovery; only a fatal error stops
a stage early.
-/

namespace GovernedQuantum

/-- A position in a text, counted from 1; `0:0` belongs to no position. -/
structure Location where
  line : Nat := 0
  column : Nat := 0
deriving DecidableEq, Repr, Inhabited

def Location.display (l : Location) : String := s!"{l.line}:{l.column}"

inductive Severity where
  | error | warning
deriving DecidableEq, Repr

def Severity.name : Severity → String
  | error => "error"
  | warning => "warning"

/-- What a finding is about. -/
inductive Category where
  /-- Malformed input. -/
  | lexical
  /-- A name, literal or level that does not check. -/
  | typing
  /-- A qudit used twice, or an entanglement that does not hold. -/
  | quantumViolation
  /-- Explainability or oversight that is missing. -/
  | aiSafety
  | execution
  /-- A decohered qudit that nobody released. -/
  | memoryLeak
  | performance
deriving DecidableEq, Repr

namespace Category

def name : Category → String
  | lexical => "syntax"
  | typing => "type"
  | quantumViolation => "quantum_violation"
  | aiSafety => "ai_safety"
  | execution => "execution"
  | memoryLeak => "memory_leak"
  | performance => "performance"

def all : List Category :=
  [lexical, typing, quantumViolation, aiSafety, execution, memoryLeak, performance]

end Category

/-- One error or warning. -/
structure Diagnostic where
  severity : Severity
  category : Category
  location : Location
  message : String
  /-- How to mend it, where that is known. -/
  suggestion : Option String := none
  /-- Stops the stage that raised it. -/
  fatal : Bool := false
deriving DecidableEq, Repr

def Diagnostic.display (d : Diagnostic) : String :=
  let head := s!"{d.severity.name}[{d.category.name}] {d.location.display}: {d.message}"
  match d.suggestion with
  | some help => s!"{head} (help: {help})"
  | none => head

/-- The findings of a stage. -/
structure Diagnostics where
  errors : Array Diagnostic := #[]
  warnings : Array Diagnostic := #[]
deriving DecidableEq, Repr, Inhabited

namespace Diagnostics

def push (ds : Diagnostics) (d : Diagnostic) : Diagnostics :=
  match d.severity with
  | .error => { ds with errors := ds.errors.push d }
  | .warning => { ds with warnings := ds.warnings.push d }

/-- Both parts of `more` after those of `ds`. -/
def extend (ds more : Diagnostics) : Diagnostics :=
  ⟨ds.errors ++ more.errors, ds.warnings ++ more.warnings⟩

/-- The findings pushed one by one. -/
def pushAll (ds : Diagnostics) (found : List Diagnostic) : Diagnostics := found.foldl push ds

def hasErrors (ds : Diagnostics) : Bool := !ds.errors.isEmpty

def hasFatal (ds : Diagnostics) : Bool := ds.errors.any (·.fatal)

def isEmpty (ds : Diagnostics) : Bool := ds.errors.isEmpty && ds.warnings.isEmpty

/-- Errors, then warnings. -/
def toList (ds : Diagnostics) : List Diagnostic := ds.errors.toList ++ ds.warnings.toList

end Diagnostics

end GovernedQuantum
