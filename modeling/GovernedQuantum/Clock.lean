/-!
# Clocks

A session reads the time one reading after another, and nothing is assumed about what the readings
show. A **clock** is therefore a sequence of readings together with how many of them were taken. It
can be moved by hand, which adds to every later reading; times are milliseconds in 64 bits, so the
sum wraps.
-/

namespace GovernedQuantum

structure Clock where
  /-- What the `n`-th reading shows when nobody moves the clock. -/
  source : Nat → Nat
  /-- Readings taken so far. -/
  taken : Nat := 0
  /-- How far the clock was moved by hand. -/
  offset : Nat := 0

namespace Clock

/-- Times are below this bound. -/
def span : Nat := 0x10000000000000000

/-- What the next reading shows. -/
def now (c : Clock) : Nat := (c.source c.taken + c.offset) % span

/-- Takes a reading. -/
def read (c : Clock) : Nat × Clock := (c.now, { c with taken := c.taken + 1 })

/-- The clock that stands still at `time` until it is moved. -/
def stopped (time : Nat) : Clock := { source := fun _ => time }

instance : Inhabited Clock := ⟨stopped 0⟩

/-- Moves the clock forward, around the end of the span. -/
def advance (c : Clock) (ms : Nat) : Clock := { c with offset := (c.offset + ms) % span }

/-- Stops the clock at `time`. -/
def set (c : Clock) (time : Nat) : Clock := { c with source := fun _ => time, offset := 0 }

end Clock

end GovernedQuantum
