import GovernedQuantum.Session

/-!
# Instructions on classical values
-/

namespace GovernedQuantum.Session

variable {π γ κ : Type}

/-- Binds a variable to a literal, in place of what it was bound to. -/
def bindVariable (s : Session π γ κ) (name literal : String) : Attempt (Session π γ κ) :=
  let values := s.tables.values.insert name (Value.ofLiteral literal)
  .done (s.withTables { s.tables with values })

def print (s : Session π γ κ) (name : String) : Attempt (Session π γ κ) :=
  match s.tables.values.find? name with
  | none => .failed (.unboundVariable name) s
  | some v => .done (s.say v.display)

end GovernedQuantum.Session
