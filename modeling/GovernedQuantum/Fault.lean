import GovernedQuantum.Delegation
import GovernedQuantum.Diagnostic
import GovernedQuantum.Level
import GovernedQuantum.Program

/-!
# Faults

Everything that an instruction, the final scan or a run as a whole can fail with. A fault becomes a
diagnostic at the instruction's place; only a fatal one stops the run.
-/

namespace GovernedQuantum

inductive Fault where
  /-- No qudit was ever bound to this name. -/
  | unknownHandle (name : String)
  /-- The qudit was measured, released or teleported. -/
  | consumedHandle (name : String)
  | alreadyBound (name : String)
  | decoherent (name : String)
  | invalidDimension (token : String)
  | selfEntanglement (name : String)
  | alreadyEntangled (a b : String)
  | notEntangled (a b : String)
  | unknownEntity (name : String)
  | entityExists (name : String)
  | invalidScore (token : String)
  | invalidLevel (error : UnknownLevel)
  | unboundVariable (name : String)
  | invalidDeadline (token : String)
  | invertedWindow (name : String) (soft hard : Nat)
  | delegationRefused (error : CoordinationError)
  /-- A governed operation that may not take effect and cannot be put to a human. -/
  | verificationFailed (operation : String) (reasons : List String)
  | oversightRejected (request : Nat) (operation : String)
  | stepLimit (limit : Nat)
  | malformedBytecode (error : DecodeError)
  | notText (offset : Nat)
  /-- A group that failed the final scan. -/
  | inconsistentGroup (group : Nat) (detail : String)
  /-- A decoherent qudit that is still live at the end of a run. -/
  | decoheredLeak (name : String)
deriving DecidableEq, Repr

namespace Fault

def message : Fault → String
  | unknownHandle name => s!"no resource handle named '{name}'"
  | consumedHandle name => s!"resource '{name}' was already consumed"
  | alreadyBound name => s!"a resource named '{name}' already exists"
  | decoherent name => s!"resource '{name}' has decohered"
  | invalidDimension token => s!"invalid qudit dimension '{token}'"
  | selfEntanglement name => s!"cannot entangle resource '{name}' with itself"
  | alreadyEntangled a b => s!"resources '{a}' and '{b}' are already entangled"
  | notEntangled a b => s!"resources '{a}' and '{b}' are not entangled"
  | unknownEntity name => s!"no AI entity named '{name}'"
  | entityExists name => s!"AI entity '{name}' already exists"
  | invalidScore token => s!"invalid explainability score '{token}'"
  | invalidLevel error => s!"invalid {error.kind} level '{error.token}'"
  | unboundVariable name => s!"variable '{name}' is not bound"
  | invalidDeadline token => s!"invalid deadline '{token}'"
  | invertedWindow name soft hard =>
    s!"window '{name}' has soft deadline {soft}ms after hard deadline {hard}ms"
  | delegationRefused error =>
    let why := error.message
    s!"delegation refused: {why}"
  | verificationFailed operation reasons =>
    let why := "; ".intercalate reasons
    s!"{operation} failed verification: {why}"
  | oversightRejected request operation => s!"oversight request {request} rejected: {operation}"
  | stepLimit limit => s!"execution exceeded its step limit of {limit}"
  | malformedBytecode error =>
    let why := error.message
    s!"malformed bytecode: {why}"
  | notText offset => s!"input is not valid UTF-8 text (first bad byte at offset {offset})"
  | inconsistentGroup group detail => s!"entanglement group {group} is inconsistent: {detail}"
  | decoheredLeak name => s!"resource '{name}' decohered and was never released"

def category : Fault → Category
  | unknownHandle .. | consumedHandle .. | alreadyBound .. | selfEntanglement ..
  | alreadyEntangled .. | notEntangled .. | inconsistentGroup .. => .quantumViolation
  | verificationFailed .. | oversightRejected .. => .aiSafety
  | decoheredLeak .. => .memoryLeak
  | malformedBytecode .. | notText .. => .lexical
  | decoherent .. | invalidDimension .. | unknownEntity .. | entityExists .. | invalidScore ..
  | invalidLevel .. | unboundVariable .. | invalidDeadline .. | invertedWindow ..
  | delegationRefused .. | stepLimit .. => .execution

/-- Faults that stop a run. -/
def isFatal : Fault → Bool
  | stepLimit .. | malformedBytecode .. | notText .. | inconsistentGroup .. => true
  | _ => false

def severity : Fault → Severity
  | decoheredLeak .. => .warning
  | _ => .error

/-- How to mend it, where that is known. -/
def suggestion : Fault → Option String
  | unknownHandle name => some s!"declare it with `qudit {name} 2`"
  | consumedHandle .. => some "measure, release or teleport each qudit at most once"
  | decoherent .. => some "operate on the qudit sooner or entangle it to extend coherence"
  | unknownEntity name => some s!"declare it with `contract {name}`"
  | verificationFailed .. => some "raise the explainability score or assign a human oversight level"
  | invertedWindow .. => some "the soft deadline must not exceed the hard deadline"
  | decoheredLeak name => some s!"measure or release '{name}' before it decoheres"
  | _ => none

def diagnostic (f : Fault) (location : Location) : Diagnostic where
  severity := f.severity
  category := f.category
  location := location
  message := f.message
  suggestion := f.suggestion
  fatal := f.isFatal

end Fault

end GovernedQuantum
