import GovernedQuantum.Level

/-!
# Settings of a session
-/

namespace GovernedQuantum

structure Settings where
  /-- Milliseconds until a qudit decoheres, counted anew when it is entangled. -/
  coherenceTime : Nat := 10000
  /-- Seed of the built-in physics. -/
  seed : Nat := 42
  explainabilityThreshold : Binary64 := defaultThreshold
  /-- Threshold of operations classified `critical` or above. -/
  highRiskThreshold : Binary64 := defaultHighRiskThreshold
  /-- Name of the node that the session runs on. -/
  localNode : String := "local"
  /-- A run stops when it has taken more steps than this. -/
  maxSteps : Nat := 1000000
deriving DecidableEq, Repr, Inhabited

namespace Settings

/-- Score that an operation of the given criticality needs. -/
def threshold (s : Settings) (c : Criticality) : Binary64 :=
  if c.isHighRisk then s.highRiskThreshold else s.explainabilityThreshold

end Settings

end GovernedQuantum
