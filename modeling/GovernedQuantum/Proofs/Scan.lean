import GovernedQuantum.Proofs.Validation

/-!
# The scan at the end of a run

At its end a run notes the deadlines that have passed, and then looks at one live handle after
another, each with a reading of its own. What it finds is a function of the tables and of these
readings.

* `Clock.leaked`: the handles that are not coherent when their turn comes.
* `Session.scanned`: what the scan finds.
* `Session.finalScan_eq`: **the scan reads the clock and reports**, and does nothing else.
-/

namespace GovernedQuantum

/-- Names of the handles that are not coherent, each looked at with a reading of its own. -/
def Clock.leaked (c : Clock) : List Handle → List String
  | [] => []
  | h :: rest =>
    if h.isCoherentAt c.now then (c.after 1).leaked rest else h.name :: (c.after 1).leaked rest

namespace Session

variable {π γ κ : Type}

theorem leaks_eq (hs : List Handle) (s : Session π γ κ) :
    leaks hs s = (s.clock.leaked hs, { s with clock := s.clock.after hs.length }) := by
  induction hs generalizing s with
  | nil => rfl
  | cons h rest ih =>
    have later : leaks rest s.readClock.2 =
        ((s.clock.after 1).leaked rest, { s with clock := s.clock.after (h :: rest).length }) := by
      rw [ih, List.length_cons, Nat.add_comm, ← Clock.after_after]
      rfl
    unfold leaks
    dsimp only
    rw [later]
    rfl

theorem records_eq {α : Type} (f : α → Fault) (l : Location) (xs : List α) (s : Session π γ κ) :
    xs.foldl (fun s x => s.record (f x) l) s =
      { s with diagnostics := s.diagnostics.pushAll (xs.map fun x => (f x).diagnostic l) } := by
  induction xs generalizing s with
  | nil => rfl
  | cons x rest ih =>
    rw [List.foldl_cons, ih]
    rfl

/-- Where the findings of the scan are put. -/
def scanLocation (s : Session π γ κ) : Location :=
  (s.program.instructions.getLast?.map (·.location)).getD {}

/-- **What the scan finds**, once the deadlines are noted: leaks, then defects of groups. -/
def scanned (s : Session π γ κ) : List Diagnostic :=
  (s.clock.leaked s.tables.register.handles.values).map
      (fun name => (Fault.decoheredLeak name).diagnostic s.scanLocation) ++
    s.tables.register.inconsistencies.map
      fun (group, detail) => (Fault.inconsistentGroup group detail).diagnostic s.scanLocation

/-- **The scan reads the clock and reports**, and does nothing else. -/
theorem finalScan_eq (s : Session π γ κ) :
    s.finalScan =
      { s.fireTimers with
        clock := s.fireTimers.clock.after s.fireTimers.tables.register.handles.values.length
        diagnostics := s.diagnostics.pushAll s.fireTimers.scanned } := by
  unfold finalScan
  dsimp only
  rw [leaks_eq]
  dsimp only
  rw [records_eq Fault.decoheredLeak]
  dsimp only
  rw [records_eq fun x : Nat × String => Fault.inconsistentGroup x.1 x.2]
  simp only [Diagnostics.pushAll, scanned, List.foldl_append]
  rfl

end Session

end GovernedQuantum
