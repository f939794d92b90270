import GovernedQuantum.Check.Infer
import GovernedQuantum.Check.Replay

/-!
# Checking a program

Three passes: the entities' modifiers are folded in, every node is typed, and the program is
replayed against the constraints of its types. All findings are collected, those of inference first.
-/

namespace GovernedQuantum

/-- One type a node, and the findings. -/
structure CheckReport where
  types : List InferredType
  diagnostics : Diagnostics

/-- Nothing was found but warnings. -/
def CheckReport.isOk (r : CheckReport) : Bool := !r.diagnostics.hasErrors

def check (nodes : List Node) (options : CheckOptions) : CheckReport :=
  let views := foldEntities nodes
  let inference := inferAll views options nodes
  let types := inference.types.toList
  let found := replay views options.maxCoherentOperations (nodes.zip types)
  ⟨types, (({} : Diagnostics).pushAll inference.findings.toList).pushAll found.diagnostics.toList⟩

end GovernedQuantum
