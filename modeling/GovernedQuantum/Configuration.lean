import GovernedQuantum.Configuration.Toml
import GovernedQuantum.Json
import GovernedQuantum.Limits
import GovernedQuantum.Settings

/-!
# Configuration

The limits of the compiler and the settings of sessions, as a configuration file gives them. Every
field is optional, and names that mean nothing are passed over.

* `Configuration.problem?` is the first rule that a configuration breaks.
* `Configuration.read` reads a file's text and holds it to the rules.
-/

namespace GovernedQuantum

structure Configuration where
  compiler : Limits := {}
  session : Settings := {}
deriving Inhabited

inductive ConfigurationError where
  /-- The text is no document, or a value in it has the wrong type. -/
  | malformed
  | invalid (reason : String)
deriving DecidableEq, Repr

def ConfigurationError.message : ConfigurationError → String
  | malformed => "malformed configuration"
  | invalid reason => s!"invalid configuration: {reason}"

namespace Configuration

/-! ## Rules -/

/-- A threshold must be a score. -/
def thresholdProblem? (key : String) (x : Binary64) : Option String :=
  let text := x.toText
  if x.inUnit then none else some s!"{key} must be within 0..=1, got {text}"

/-- The first rule that is broken. -/
def problem? (c : Configuration) : Option String :=
  (thresholdProblem? "compiler.explainability_threshold" c.compiler.explainabilityThreshold).or <|
  (thresholdProblem? "vm.explainability_threshold" c.session.explainabilityThreshold).or <|
  (thresholdProblem? "vm.high_risk_threshold" c.session.highRiskThreshold).or <|
  if c.compiler.maxSourceBytes = 0 then some "compiler.max_source_bytes must be non-zero"
  else if c.session.coherenceTime = 0 then some "vm.coherence_time_ms must be non-zero"
  else if c.session.localNode.isEmpty then some "vm.local_node must be set"
  else none

def validate (c : Configuration) : Except ConfigurationError Configuration :=
  match c.problem? with
  | some reason => .error (.invalid reason)
  | none => .ok c

/-! ## Reading -/

/-- The value at a path, or nothing there at all. -/
def scalar? (d : Toml.Document) (path : Toml.Path) :
    Except ConfigurationError (Option Toml.Scalar) :=
  if d.isTable path then .error .malformed else .ok (d.find? path)

def natural (d : Toml.Document) (path : Toml.Path) (fallback : Nat) :
    Except ConfigurationError Nat := do
  match ← scalar? d path with
  | none => return fallback
  | some (.int n) => if 0 ≤ n then return n.toNat else throw .malformed
  | some _ => throw .malformed

def number (d : Toml.Document) (path : Toml.Path) (fallback : Binary64) :
    Except ConfigurationError Binary64 := do
  match ← scalar? d path with
  | none => return fallback
  | some (.int n) => return .ofInt n
  | some (.float x) => return x
  | some _ => throw .malformed

def text (d : Toml.Document) (path : Toml.Path) (fallback : String) :
    Except ConfigurationError String := do
  match ← scalar? d path with
  | none => return fallback
  | some (.text s) => return s
  | some _ => throw .malformed

/-- The configuration that a document holds, by whatever rules. -/
def ofDocument (d : Toml.Document) : Except ConfigurationError Configuration := do
  if (d.find? ["compiler"]).isSome ∨ (d.find? ["vm"]).isSome then throw .malformed
  let limits : Limits := {}
  let settings : Settings := {}
  let compiler : Limits :=
    { maxSourceBytes := ← natural d ["compiler", "max_source_bytes"] limits.maxSourceBytes
      performanceWarningTokens :=
        ← natural d ["compiler", "performance_warning_tokens"] limits.performanceWarningTokens
      maxUnknownKeywordWarnings :=
        ← natural d ["compiler", "max_unknown_keyword_warnings"] limits.maxUnknownKeywordWarnings
      maxCoherentOperations :=
        ← natural d ["compiler", "max_coherent_operations"] limits.maxCoherentOperations
      explainabilityThreshold :=
        ← number d ["compiler", "explainability_threshold"] limits.explainabilityThreshold }
  let session : Settings :=
    { coherenceTime := ← natural d ["vm", "coherence_time_ms"] settings.coherenceTime
      seed := ← natural d ["vm", "seed"] settings.seed
      explainabilityThreshold :=
        ← number d ["vm", "explainability_threshold"] settings.explainabilityThreshold
      highRiskThreshold := ← number d ["vm", "high_risk_threshold"] settings.highRiskThreshold
      localNode := ← text d ["vm", "local_node"] settings.localNode
      maxSteps := ← natural d ["vm", "max_steps"] settings.maxSteps }
  return { compiler, session }

/-- The configuration in a file's text. -/
def read (text : String) : Except ConfigurationError Configuration :=
  match Toml.parse? text with
  | none => .error .malformed
  | some d => do (← ofDocument d).validate

end Configuration

/-! ## As JSON -/

def Limits.json (l : Limits) : Json :=
  .object
    [("max_source_bytes", .nat l.maxSourceBytes),
      ("performance_warning_tokens", .nat l.performanceWarningTokens),
      ("max_unknown_keyword_warnings", .nat l.maxUnknownKeywordWarnings),
      ("max_coherent_operations", .nat l.maxCoherentOperations),
      ("explainability_threshold", .float l.explainabilityThreshold)]

def Settings.json (s : Settings) : Json :=
  .object
    [("coherence_time_ms", .nat s.coherenceTime), ("seed", .nat s.seed),
      ("explainability_threshold", .float s.explainabilityThreshold),
      ("high_risk_threshold", .float s.highRiskThreshold), ("local_node", .text s.localNode),
      ("max_steps", .nat s.maxSteps)]

def Configuration.json (c : Configuration) : Json :=
  .object [("compiler", c.compiler.json), ("vm", c.session.json)]

end GovernedQuantum
