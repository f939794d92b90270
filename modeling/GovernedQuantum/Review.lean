import GovernedQuantum.Level
import GovernedQuantum.Table
import GovernedQuantum.Verification

/-!
# Human review

An operation that may not take effect by itself is put to a human. The session files a request with
a **gateway** and waits; who is asked, and how, is the gateway's business.

* `Gateway`: what a session needs from a gateway.
* `MemoryGateway`: keeps requests and answers; an answer is final.
-/

namespace GovernedQuantum

inductive Decision where
  | approve | reject
deriving DecidableEq, Repr

def Decision.name : Decision → String
  | approve => "approve"
  | reject => "reject"

/-- What is put to a human. -/
structure Filing where
  operationId : String
  kind : OperationKind
  criticality : Criticality
  details : String
  /-- Oversight level of the entity when the request was filed. -/
  level : Oversight
deriving DecidableEq, Repr

/-- A filing with the number that the gateway gave it. -/
structure Request extends Filing where
  id : Nat
deriving DecidableEq, Repr

/-- How the request with this number is written. -/
def Request.label (id : Nat) : String := s!"#{id}"

/-- Why an answer was not taken. -/
inductive ReviewError where
  | unknownRequest (id : Nat)
  | alreadyAnswered (id : Nat)
  | notSuspended
deriving DecidableEq, Repr

def ReviewError.message : ReviewError → String
  | unknownRequest id => s!"unknown oversight request {id}"
  | alreadyAnswered id => s!"oversight request {id} was already answered"
  | notSuspended => "session is not waiting for an oversight decision"

/-- One line of a session's trail of reviews. -/
structure LogEntry where
  request : Request
  decision : Option Decision := none
deriving DecidableEq, Repr

/-- Where requests are filed and answered. -/
class Gateway (γ : Type) where
  /-- Files a request and gives its number. -/
  file : γ → Filing → Nat × γ
  /-- Answers the request with a number. -/
  answer : γ → Nat → Decision → Except ReviewError Unit × γ

/-- Requests and answers kept by number; the first request is number 1. -/
structure MemoryGateway where
  last : Nat := 0
  requests : Table Nat Request := .empty
  decisions : Table Nat Decision := .empty
deriving Inhabited

namespace MemoryGateway

def request? (g : MemoryGateway) (id : Nat) : Option Request := g.requests.find? id

def decision? (g : MemoryGateway) (id : Nat) : Option Decision := g.decisions.find? id

/-- Requests without an answer, in the order they were filed. -/
def pending (g : MemoryGateway) : List Request :=
  g.requests.values.filter fun r => !g.decisions.contains r.id

def file (g : MemoryGateway) (f : Filing) : Nat × MemoryGateway :=
  let id := g.last + 1
  (id, { g with last := id, requests := g.requests.insert id { f with id } })

def answer (g : MemoryGateway) (id : Nat) (d : Decision) :
    Except ReviewError Unit × MemoryGateway :=
  if !g.requests.contains id then (.error (.unknownRequest id), g)
  else if g.decisions.contains id then (.error (.alreadyAnswered id), g)
  else (.ok (), { g with decisions := g.decisions.insert id d })

instance : Gateway MemoryGateway := ⟨file, answer⟩

end MemoryGateway

end GovernedQuantum
