import GovernedQuantum.Number.Reading
import GovernedQuantum.Session
import GovernedQuantum.Verification

/-!
# Instructions on entities

A contract declares an entity, modifiers set its attributes, and deployments and decisions are
added to its trail. Whether a deployment or a decision may take effect is settled before these
instructions are reached.
-/

namespace GovernedQuantum

/-- The score that a token stands for: a number from 0 to 1. -/
def score? (token : String) : Option Binary64 := (Number.real? token).filter Binary64.inUnit

/-! ## What is said -/

namespace Line

def declared (name : String) : String := s!"declared contract {name}"

def explainabilitySet (name : String) (score : Binary64) : String :=
  let text := score.toText
  s!"{name} explainability set to {text}"

def oversightSet (name : String) (level : Oversight) : String :=
  s!"{name} oversight set to {level.name}"

def criticalitySet (name : String) (level : Criticality) : String :=
  s!"{name} criticality set to {level.name}"

def approved (name : String) : String := s!"{name} approved"

def deployed (name target : String) : String := s!"deployed {name} to {target}"

/-- On a verification, with the explainer's words. -/
def verified (name : String) (passed : Bool) (summary : String) : String :=
  let word := if passed then "passed" else "failed"
  s!"verification of {name} {word} ({summary})"

/-- On a decision, with the explainer's words. -/
def decided (name action summary : String) : String := s!"{name} decided {action}: {summary}"

end Line

/-- The warning of a verification that failed. -/
def verificationWarning (name : String) (reasons : List String) (location : Location) :
    Diagnostic :=
  let why := "; ".intercalate reasons
  ⟨.warning, .aiSafety, location, s!"verification of '{name}' failed: {why}", none, false⟩

/-! ## What is done -/

namespace Session

variable {π γ κ : Type}

/-- Changes a declared entity and says so. -/
def updateEntity (s : Session π γ κ) (name : String) (f : Entity → Entity) (line : String) :
    Attempt (Session π γ κ) :=
  match s.tables.entities.find? name with
  | none => .failed (.unknownEntity name) s
  | some e => .done ((s.withTables (s.tables.putEntity name (f e))).say line)

def declareContract (s : Session π γ κ) (name : String) : Attempt (Session π γ κ) :=
  if s.tables.entities.contains name then .failed (.entityExists name) s
  else
    .done ((s.withTables (s.tables.putEntity name (.declare name))).say (Line.declared name))

def setExplainability (s : Session π γ κ) (name token : String) : Attempt (Session π γ κ) :=
  match score? token with
  | none => .failed (.invalidScore token) s
  | some score =>
    s.updateEntity name (fun e => { e with explainability := score })
      (Line.explainabilitySet name score)

def setOversight (s : Session π γ κ) (name token : String) : Attempt (Session π γ κ) :=
  match Oversight.parse token with
  | .error e => .failed (.invalidLevel e) s
  | .ok level =>
    s.updateEntity name (fun e => { e with oversight := level }) (Line.oversightSet name level)

def setCriticality (s : Session π γ κ) (name token : String) : Attempt (Session π γ κ) :=
  match Criticality.parse token with
  | .error e => .failed (.invalidLevel e) s
  | .ok level =>
    s.updateEntity name (fun e => { e with criticality := level }) (Line.criticalitySet name level)

def approve (s : Session π γ κ) (name : String) : Attempt (Session π γ κ) :=
  s.updateEntity name (fun e => { e with approved := true }) (Line.approved name)

def deploy (s : Session π γ κ) (name target : String) : Attempt (Session π γ κ) :=
  s.updateEntity name (fun e => { e with deployments := e.deployments.push target })
    (Line.deployed name target)

/-- A call of the explainer takes its time, if there is one to call. -/
def awaitExplainer (s : Session π γ κ) : Session π γ κ :=
  { s with
    clock :=
      if s.explainer.any (·.isAvailable) then s.clock.advance s.delays.explainer else s.clock }

/-- Reports a finding if something was amiss. -/
def reportUnless (s : Session π γ κ) (passed : Bool) (d : Diagnostic) : Session π γ κ :=
  { s with diagnostics := if passed then s.diagnostics else s.diagnostics.push d }

/-- Verifies an entity. A failure is a warning here, and blocks later governed actions. -/
def verify (s : Session π γ κ) (i : Instruction) : Attempt (Session π γ κ) :=
  let name := i.arg 0
  match s.tables.entities.find? name with
  | none => .failed (.unknownEntity name) s
  | some e =>
    let verdict := (Profile.ofInstruction i s.tables.entities s.settings).verdict (some e)
    let summary := summarizeVerification s.explainer name verdict.passed verdict.reasons
    let compliance : Compliance := if verdict.passed then .compliant else .nonCompliant
    let warning := verificationWarning name verdict.reasons i.location
    let s := s.awaitExplainer.withTables (s.tables.putEntity name { e with compliance })
    .done ((s.reportUnless verdict.passed warning).say (Line.verified name verdict.passed summary))

def decide (s : Session π γ κ) (name action : String) : Attempt (Session π γ κ) :=
  match s.tables.entities.find? name with
  | none => .failed (.unknownEntity name) s
  | some e =>
    let summary := (explainDecision s.explainer name action).summary
    let e := { e with decisions := e.decisions.push action }
    .done ((s.awaitExplainer.withTables (s.tables.putEntity name e)).say
      (Line.decided name action summary))

end Session

end GovernedQuantum
