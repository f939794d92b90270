import GovernedQuantum.Text.Blank
import GovernedQuantum.Number.Binary64

/-!
# Safety levels

Three attributes of a governed entity: how far a human is involved, how much is at stake, and what
its last verification found. The first two are ordinal, and are written by name in any case.
-/

namespace GovernedQuantum

/-- Score that an operation needs by default. -/
def defaultThreshold : Binary64 := 0.85

/-- Score that an operation of `critical` or above needs by default. -/
def defaultHighRiskThreshold : Binary64 := 0.95

/-- Score of an entity that has just been declared. -/
def defaultScore : Binary64 := 0.85

/-- The score meets the default threshold. -/
def isHighExplainability (score : Binary64) : Bool := defaultThreshold.le score

/-- A level name that matches nothing. -/
structure UnknownLevel where
  kind : String
  token : String
deriving DecidableEq, Repr

def UnknownLevel.message (e : UnknownLevel) : String := s!"unknown {e.kind} level '{e.token}'"

/-- Human involvement, from none to full control. -/
inductive Oversight where
  | none | notification | supervision | approval | control
deriving DecidableEq, Repr

namespace Oversight

def all : List Oversight := [none, notification, supervision, approval, control]

def name : Oversight → String
  | none => "none"
  | notification => "notification"
  | supervision => "supervision"
  | approval => "approval"
  | control => "control"

instance : Inhabited Oversight := ⟨notification⟩

/-- A human takes part: supervision, approval or control. -/
def isHumanInLoop : Oversight → Bool
  | none | notification => false
  | supervision | approval | control => true

def parse (token : String) : Except UnknownLevel Oversight :=
  match all.find? fun level => Text.sameLetters level.name token with
  | some level => .ok level
  | Option.none => .error ⟨"oversight", token⟩

end Oversight

/-- What is at stake. -/
inductive Criticality where
  | low | medium | high | critical | safety
deriving DecidableEq, Repr

namespace Criticality

def all : List Criticality := [low, medium, high, critical, safety]

def name : Criticality → String
  | low => "low"
  | medium => "medium"
  | high => "high"
  | critical => "critical"
  | safety => "safety"

instance : Inhabited Criticality := ⟨medium⟩

/-- Place on the scale, from 0. -/
def rank : Criticality → Nat
  | low => 0
  | medium => 1
  | high => 2
  | critical => 3
  | safety => 4

/-- The higher of two levels. -/
def max (a b : Criticality) : Criticality := if a.rank ≤ b.rank then b else a

/-- `high` and above never go without a human. -/
def requiresOversight (c : Criticality) : Bool := high.rank ≤ c.rank

/-- `critical` and above are held to the high-risk threshold. -/
def isHighRisk (c : Criticality) : Bool := critical.rank ≤ c.rank

/-- Default threshold at this level. -/
def threshold (c : Criticality) : Binary64 :=
  if c.isHighRisk then defaultHighRiskThreshold else defaultThreshold

def parse (token : String) : Except UnknownLevel Criticality :=
  match all.find? fun level => Text.sameLetters level.name token with
  | some level => .ok level
  | none => .error ⟨"criticality", token⟩

end Criticality

/-- What verification has found about an entity. -/
inductive Compliance where
  | pending | compliant | nonCompliant
deriving DecidableEq, Repr

namespace Compliance

def name : Compliance → String
  | pending => "pending"
  | compliant => "compliant"
  | nonCompliant => "non_compliant"

instance : Inhabited Compliance := ⟨pending⟩

def all : List Compliance := [pending, compliant, nonCompliant]

end Compliance

end GovernedQuantum
