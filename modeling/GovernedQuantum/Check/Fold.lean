import GovernedQuantum.Node
import GovernedQuantum.Constraint

/-!
# Entities at the end of a program

Constraints on entities are checked against the attributes that an entity has once all its modifiers
have been applied, so that the order of modifiers does not change the verdict. The first declaration
of a name counts; a modifier of an entity that is not declared yet changes nothing.
-/

namespace GovernedQuantum

/-- Entities by name. -/
abbrev EntityViews := Table String EntityView

/-- The attributes of an entity after a modifier; one that says nothing valid changes nothing. -/
def EntityView.modified (view : EntityView) : Modifier → EntityView
  | .explainability (some score) =>
    if score.inUnit then { view with explainability := score } else view
  | .oversight (some level) => { view with oversight := level }
  | .criticality (some level) => { view with criticality := level }
  | .approval => { view with approved := true }
  | _ => view

/-- The effect of one node on the entities. -/
def EntityViews.step (views : EntityViews) (node : Node) : EntityViews :=
  match node.metadata with
  | .entity name explainability oversight criticality =>
    if views.contains name then views
    else views.insert name { explainability, oversight, criticality }
  | .modifier entity m => views.modify entity fun view => view.modified m
  | _ => views

/-- Every entity of a program with its modifiers folded in. -/
def foldEntities (nodes : List Node) : EntityViews := nodes.foldl EntityViews.step .empty

end GovernedQuantum
