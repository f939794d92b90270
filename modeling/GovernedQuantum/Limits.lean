import GovernedQuantum.Level

/-!
# Limits of a compilation
-/

namespace GovernedQuantum

/-- What the checker is told: the score that entities need, and how many interactions a qudit
stands before a warning. -/
structure CheckOptions where
  explainabilityThreshold : Binary64 := defaultThreshold
  maxCoherentOperations : Nat := 64
deriving DecidableEq, Repr, Inhabited

/-- Ceilings of a compilation, and what its checker is told. -/
structure Limits extends CheckOptions where
  /-- Longer sources are refused unread. -/
  maxSourceBytes : Nat := 1048576
  /-- More tokens than this draw a warning. -/
  performanceWarningTokens : Nat := 10000
  /-- Unrecognized keywords reported one by one; the others are only counted. -/
  maxUnknownKeywordWarnings : Nat := 20
deriving DecidableEq, Repr, Inhabited

end GovernedQuantum
