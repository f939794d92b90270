import GovernedQuantum.Constraint
import GovernedQuantum.Table

/-!
# Governed entities

The entities that a session knows, with the safety attributes that constraints judge and the trail
of what each was let to do.
-/

namespace GovernedQuantum

structure Entity extends EntityView where
  name : String
  /-- Targets it was deployed to, in order. -/
  deployments : Array String := #[]
  /-- Decisions it took, in order. -/
  decisions : Array String := #[]
deriving DecidableEq, Repr, Inhabited

namespace Entity

/-- An entity as it is declared. -/
def declare (name : String) : Entity := { name }

/-- The attributes that constraints judge. -/
def view (e : Entity) : EntityView := e.toEntityView

end Entity

/-- Entities by name. -/
abbrev Entities := Table String Entity

end GovernedQuantum
