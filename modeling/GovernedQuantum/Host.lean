import GovernedQuantum.Session.Run

/-!
# Hosts

Several sessions side by side. They share one clock, and the numbers of their handles are drawn
from one supply, so that no two sessions have a handle of the same number.
-/

namespace GovernedQuantum

structure Host (π γ κ : Type) where
  clock : Clock := .stopped 0
  /-- Number of the next handle of any session. -/
  nextHandle : Nat := 1
  sessions : Array (Session π γ κ) := #[]

namespace Host

variable {π γ κ : Type}

/-- Opens sessions made by their number, counted from 1. -/
def openSessions (count : Nat) (session : Nat → Session π γ κ) : Host π γ κ where
  sessions := ((List.range count).map fun n => session (n + 1)).toArray

/-- The session at `index` with the host's clock and supply of numbers. -/
def session? (h : Host π γ κ) (index : Nat) : Option (Session π γ κ) :=
  (h.sessions[index]?).map fun s => { s with clock := h.clock, nextHandle := h.nextHandle }

/-- The host after a session of it has gone on. -/
def put (h : Host π γ κ) (index : Nat) (s : Session π γ κ) : Host π γ κ where
  clock := s.clock
  nextHandle := s.nextHandle
  sessions := h.sessions.setIfInBounds index s

def advance (h : Host π γ κ) (ms : Nat) : Host π γ κ := { h with clock := h.clock.advance ms }

def setClock (h : Host π γ κ) (time : Nat) : Host π γ κ := { h with clock := h.clock.set time }

end Host

end GovernedQuantum
