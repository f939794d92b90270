import GovernedQuantum.Number.Binary64
import GovernedQuantum.Number.Reading
import GovernedQuantum.Table

/-!
# The register of live qudits

A **handle** stands for one live qudit, and an entanglement **group** lists the handles it joins.
Whether a qudit is entangled, and with whom, is read off the groups and stored nowhere else.

* `Register.partners`: every handle that shares a group with a given one.
* `Register.detach`, `Register.remove`: a handle leaves all of its groups; a group left with fewer
  than two members is dissolved.
* `Register.inconsistencies`: groups that do not fit the live handles, with the reason.
-/

namespace GovernedQuantum

/-! ## Handles -/

inductive Coherence where
  | coherent | decoherent
deriving DecidableEq, Repr

def Coherence.name : Coherence → String
  | coherent => "coherent"
  | decoherent => "decoherent"

inductive MeasurementStatus where
  | unmeasured | measured
deriving DecidableEq, Repr

def MeasurementStatus.name : MeasurementStatus → String
  | unmeasured => "unmeasured"
  | measured => "measured"

/-- A live qudit. Times are in milliseconds. -/
structure Handle where
  id : Nat
  name : String
  dimension : Nat
  coherence : Coherence := .coherent
  measurement : MeasurementStatus := .unmeasured
  createdAt : Nat
  lastInteraction : Nat
  coherenceDeadline : Nat
  /-- Gates applied so far, in order. -/
  gates : Array String := #[]
deriving DecidableEq, Repr

namespace Handle

/-- How the handle with this number is written. -/
def label (id : Nat) : String := s!"q#{id}"

/-- The moment `life` after `now`, or the last moment there is. -/
def deadline (now life : Nat) : Nat := min (now + life) Number.maxWord64

/-- A qudit allocated at `now`, coherent for `life`. -/
def allocate (id : Nat) (name : String) (dimension now life : Nat) : Handle :=
  { id, name, dimension, createdAt := now, lastInteraction := now,
    coherenceDeadline := deadline now life }

/-- A deadline that has passed counts, whether or not it has been noted. -/
def isCoherentAt (h : Handle) (now : Nat) : Bool :=
  h.coherence = .coherent && decide (now < h.coherenceDeadline)

/-- Notes an interaction. -/
def touch (h : Handle) (now : Nat) : Handle := { h with lastInteraction := now }

/-- Notes an interaction that renews the coherence. -/
def resetDeadline (h : Handle) (now life : Nat) : Handle :=
  { h with lastInteraction := now, coherenceDeadline := deadline now life }

/-- Notes that the deadline has passed. -/
def expire (h : Handle) (now : Nat) : Handle :=
  if h.coherence = .coherent ∧ h.coherenceDeadline ≤ now then { h with coherence := .decoherent }
  else h

def decohere (h : Handle) : Handle := { h with coherence := .decoherent }

def applyGate (h : Handle) (gate : String) : Handle := { h with gates := h.gates.push gate }

end Handle

/-! ## Groups -/

inductive GroupKind where
  | bipartite | multipartite
deriving DecidableEq, Repr

namespace GroupKind

def name : GroupKind → String
  | bipartite => "bipartite"
  | multipartite => "multipartite"

def ofSize (participants : Nat) : GroupKind := if participants ≤ 2 then bipartite else multipartite

end GroupKind

/-- An entanglement between handles. -/
structure Group where
  id : Nat
  participants : List Nat
  kind : GroupKind
  /-- From 0 to 1; a new group has full strength. -/
  strength : Binary64 := 1.0
  coherenceTime : Nat
  createdAt : Nat
deriving DecidableEq, Repr

namespace Group

/-- How the group with this number is written. -/
def label (id : Nat) : String := s!"g#{id}"

def contains (g : Group) (handle : Nat) : Bool := decide (handle ∈ g.participants)

/-- The group without one handle. -/
def without (g : Group) (handle : Nat) : Group :=
  { g with participants := g.participants.filter (· ≠ handle) }

/-- Too few members to be an entanglement. -/
def isBroken (g : Group) : Bool := decide (g.participants.length < 2)

/-- Why the group does not fit the live handles, one reason after another. -/
def defects (g : Group) (isLive : Nat → Bool) : List String :=
  let size := g.participants.length
  (if size < 2 then [s!"{size} member(s), at least 2 required"] else []) ++
    (if g.participants.Nodup then [] else ["duplicate member"]) ++
    (g.participants.filter (!isLive ·)).map fun m =>
      let member := Handle.label m
      s!"member {member} is not live"

end Group

inductive Purity where
  | pure | entangled
deriving DecidableEq, Repr

def Purity.name : Purity → String
  | pure => "pure"
  | entangled => "entangled"

/-! ## The register -/

/-- Live handles, the groups over them, and the number of the last group ever made. -/
structure Register where
  handles : Table Nat Handle := .empty
  groups : Table Nat Group := .empty
  lastGroup : Nat := 0
deriving Inhabited

namespace Register

def handle? (r : Register) (id : Nat) : Option Handle := r.handles.find? id

def contains (r : Register) (id : Nat) : Bool := r.handles.contains id

def insert (r : Register) (h : Handle) : Register := { r with handles := r.handles.insert h.id h }

def modify (r : Register) (id : Nat) (f : Handle → Handle) : Register :=
  { r with handles := r.handles.modify id f }

/-- Changes every live handle. -/
def mapHandles (r : Register) (f : Handle → Handle) : Register :=
  { r with handles := r.handles.map fun _ h => f h }

/-- The groups that hold `id`, in ascending order of their numbers. -/
def groupsOf (r : Register) (id : Nat) : List Group := r.groups.values.filter (·.contains id)

/-- Every handle that shares a group with `id`, in ascending order. -/
def partners (r : Register) (id : Nat) : List Nat :=
  let others := ((r.groupsOf id).flatMap (·.participants)).filter (· ≠ id)
  (Table.ofList (others.map (·, ()))).keys

def purity (r : Register) (id : Nat) : Purity :=
  if r.groups.values.any (·.contains id) then .entangled else .pure

/-- The first group that holds both handles. -/
def between? (r : Register) (a b : Nat) : Option Nat :=
  (r.groups.values.find? fun g => g.contains a && g.contains b).map (·.id)

/-- Joins handles in a new group. -/
def join (r : Register) (participants : List Nat) (now life : Nat) : Nat × Register :=
  let id := r.lastGroup + 1
  let g : Group :=
    { id, participants, kind := .ofSize participants.length, coherenceTime := life,
      createdAt := now }
  (id, { r with groups := r.groups.insert id g, lastGroup := id })

def removeGroup (r : Register) (id : Nat) : Register := { r with groups := r.groups.erase id }

/-- Takes a handle out of every group and dissolves the groups that are broken then: their numbers,
in ascending order, and the register. -/
def detach (r : Register) (id : Nat) : List Nat × Register :=
  let groups := r.groups.map fun _ g => g.without id
  (((groups.filter fun _ g => g.isBroken).values).map (·.id),
    { r with groups := groups.filter fun _ g => !g.isBroken })

/-- Takes a live handle out of the register, with the numbers of the groups that dissolve. -/
def remove (r : Register) (id : Nat) : Option (Handle × List Nat × Register) :=
  (r.handle? id).map fun h =>
    let (dissolved, rest) := { r with handles := r.handles.erase id : Register }.detach id
    (h, dissolved, rest)

/-- Every defect of every group, in the order of the groups. -/
def inconsistencies (r : Register) : List (Nat × String) :=
  r.groups.values.flatMap fun g => (g.defects r.contains).map (g.id, ·)

end Register

end GovernedQuantum
