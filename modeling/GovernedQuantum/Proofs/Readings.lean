import GovernedQuantum.Proofs.History
import GovernedQuantum.Proofs.Scan

/-!
# The readings of a session

A session takes readings of its clock: to note deadlines, for constraints, for operands that must be
coherent, for what it writes down, for the checks after an instruction, and for each live handle at
the end. This file lists them, in the order in which they are taken, for every call.

* `Session.attemptReadings`, `Session.stepReadings`: what the clock shows in a cycle.
  `Trace.readings`: what it has shown in a call.
* `Session.Ages`: what becomes of a session, with all readings on the way.
* `Session.Timely`: laws about sessions and their readings that single moves keep.
  `Session.Timely.ages`: **they hold for life.**
-/

namespace GovernedQuantum

namespace Clock

/-- What the clock shows at its `n`-th reading, as long as it is not moved. -/
def reading (c : Clock) (n : Nat) : Nat := (c.source n + c.offset) % span

/-- What it has shown from its `n`-th reading on, if it was not moved in between. -/
def since (c : Clock) (n : Nat) : List Nat := (List.range' n (c.taken - n)).map c.reading

theorem since_self (c : Clock) : c.since c.taken = [] := by
  rw [since, Nat.sub_self]
  rfl

theorem since_after (c : Clock) (n : Nat) :
    (c.after n).since c.taken = (List.range' c.taken n).map c.reading := by
  unfold since after
  rw [Nat.add_sub_cancel_left]
  rfl

theorem since_after_succ (c : Clock) (n : Nat) :
    (c.after (n + 1)).since c.taken = (c.after n).since c.taken ++ [(c.after n).now] := by
  rw [since_after, since_after, List.range'_1_concat, List.map_append]
  rfl

/-- The first of the readings that were taken. -/
theorem since_after_cons (c : Clock) (n : Nat) :
    ((c.after 1).after n).since c.taken = c.now :: ((c.after 1).after n).since (c.taken + 1) := by
  have later := since_after (c.after 1) n
  rw [after_after, since_after, Nat.add_comm, List.range'_succ, List.map_cons, Nat.add_comm n 1,
    ← after_after]
  exact congrArg (List.cons _) later.symm

theorem mem_since_after (c : Clock) {k n : Nat} (h : k < n) :
    (c.after k).now ∈ (c.after n).since c.taken := by
  rw [since_after]
  exact List.mem_map.2 ⟨c.taken + k, List.mem_range'_1.2 (by omega), rfl⟩

end Clock

namespace Session

variable {π γ κ : Type}

/-! ## What the clock has shown -/

section Lists

variable [Physics π] [Coordinator κ]

/-- The readings while an instruction is carried out. Where a collaborator is called, its time
passes before the readings for what is written down; only the operand that a coordinator is asked
about is looked at before. -/
def attemptReadings (s : Session π γ κ) (i : Instruction) : List Nat :=
  let clock := (s.attempt i).session.clock
  match i.opcode with
  | .entangleRemote | .teleport =>
    if clock.taken = s.clock.taken then [] else s.clock.now :: clock.since (s.clock.taken + 1)
  | _ => clock.since s.clock.taken

/-- And while what it left behind is looked at. -/
def settleReadings (s : Session π γ κ) (index : Nat) (i : Instruction)
    (approved : Bool) : List Nat :=
  s.attemptReadings i ++ (s.settle index i approved).clock.since (s.attempt i).session.clock.taken

/-- The readings of a cycle. -/
def stepReadings (s : Session π γ κ) (index : Nat) (i : Instruction) : List Nat :=
  let t := (s.prepared index i).2
  t.clock.since s.clock.taken ++
    if (s.prepared index i).1 && t.passes i then t.settleReadings index i false else []

/-- The readings of the scan at the end. -/
def scanReadings (s : Session π γ κ) : List Nat := s.finalScan.clock.since s.clock.taken

omit [Physics π] [Coordinator κ] in
/-- The scan reads the clock once for the deadlines, and then once for each live handle. -/
theorem scanReadings_eq (s : Session π γ κ) :
    s.scanReadings = [s.clock.now] ++
      (s.fireTimers.clock.after s.fireTimers.tables.register.handles.values.length).since
        s.fireTimers.clock.taken := by
  rw [scanReadings, finalScan_eq]
  exact s.clock.since_after_cons _

/-- The readings while an answer is acted on. -/
def actedReadings (s : Session π γ κ) (op : Suspension) : Decision → List Nat
  | .approve => s.settleReadings op.index op.instruction true
  | .reject => []

end Lists

end Session

section Traces

variable {π γ κ : Type} [Physics π] [Coordinator κ]

/-- The readings of an event. -/
def Event.readings : Event π γ κ → List Nat
  | .cycle s index i => s.stepReadings index i
  | .answer s op gateway d => (s.answered op gateway d).actedReadings op d

/-- **The readings of a call**: those of its events, and those of the scan if it comes to its
end. -/
def Trace.readings (t : Trace π γ κ) : List Nat :=
  t.events.flatMap Event.readings ++ (t.ended.map Session.scanReadings).getD []

end Traces

namespace Session

variable {π γ κ : Type}

section Calls

variable [Physics π] [Gateway γ] [Coordinator κ]

/-- The readings of a run. -/
def runReadings (s : Session π γ κ) (program : Program) (annotations : Option (List InferredType)) :
    List Nat :=
  (s.trace (.run program annotations)).readings

/-- The readings when an answer comes in. -/
def resumeReadings (s : Session π γ κ) (id : Nat) (d : Decision) : List Nat :=
  (s.trace (.resume id d)).readings

/-- An instruction is carried out in its cycle, or the session only reports and asks. -/
theorem step_parts (s : Session π γ κ) (index : Nat) (i : Instruction) :
    (((s.prepared index i).1 && (s.prepared index i).2.passes i) = true ∧
      s.step index i = .next ((s.prepared index i).2.settle index i false)) ∨
    (((s.prepared index i).1 && (s.prepared index i).2.passes i) = false ∧
      (s.prepared index i).2.Untouched (s.step index i).session) := by
  unfold step
  rw [show s.fireTimers.validate index .pre i.location = s.prepared index i from rfl]
  obtain ⟨passed, t⟩ := s.prepared index i
  cases passed with
  | false => exact .inr ⟨rfl, .refl t⟩
  | true =>
    dsimp only [passes]
    by_cases gated : (Profile.ofInstruction i t.tables.entities t.settings).kind.isGated = true
    · simp only [gated, if_true]
      cases t.gate i (Profile.ofInstruction i t.tables.entities t.settings) with
      | passed => exact .inl ⟨rfl, rfl⟩
      | closed f => exact .inr ⟨rfl, t.record_untouched f i.location⟩
      | review filing => exact .inr ⟨rfl, t.file_untouched i filing⟩
    · rw [Bool.not_eq_true] at gated
      rw [gated]
      exact .inl ⟨rfl, rfl⟩

end Calls

/-! ## Laws -/

variable [Physics π] [Coordinator κ]

/-- **Laws about a session and its readings** that single moves keep: the session is set aside and
taken up again, with whatever has changed that is not in its tables; a reading is taken; deadlines
are noted; an instruction is carried out. -/
structure Timely (P : List Nat → Session π γ κ → Prop) : Prop where
  still {l : List Nat} {s t : Session π γ κ} : P l s → s.Alike t → P l t
  look {l : List Nat} {s : Session π γ κ} : P l s → P (l ++ [s.clock.now]) s.readClock.2
  timers {l : List Nat} {s : Session π γ κ} : P l s → P (l ++ [s.clock.now]) s.fireTimers
  attempt {l : List Nat} {s : Session π γ κ} (i : Instruction) :
    P l s → P (l ++ s.attemptReadings i) (s.attempt i).session

/-- A stable law that does not ask what took effect is timely, whatever the readings. -/
theorem Stable.timely {P : Session π γ κ → Prop} (hP : Stable fun _ => P) : Timely fun _ => P where
  still hs alike := hP.still (h := []) hs alike
  look hs := hP.still (h := []) hs (readClock_untouched _).alike
  timers hs := hP.timers (h := []) hs
  attempt {_ s} i hs := by
    cases ha : s.attempt i with
    | done t => exact hP.effect (h := []) hs ha
    | failed f t => exact hP.still (h := []) hs (attempt_failed_iff.1 ha).untouched.alike

namespace Timely

variable {P : List Nat → Session π γ κ → Prop} {l : List Nat} {s t : Session π γ κ}

theorem and {Q : List Nat → Session π γ κ → Prop} (hP : Timely P) (hQ : Timely Q) :
    Timely fun l s => P l s ∧ Q l s where
  still h alike := ⟨hP.still h.1 alike, hQ.still h.2 alike⟩
  look h := ⟨hP.look h.1, hQ.look h.2⟩
  timers h := ⟨hP.timers h.1, hQ.timers h.2⟩
  attempt i h := ⟨hP.attempt i h.1, hQ.attempt i h.2⟩

theorem looks (hP : Timely P) (hs : P l s) (n : Nat) :
    P (l ++ (s.clock.after n).since s.clock.taken) { s with clock := s.clock.after n } := by
  induction n with
  | zero =>
    rw [Clock.after_zero, Clock.since_self, List.append_nil]
    exact hs
  | succ n ih =>
    rw [Clock.since_after_succ, ← List.append_assoc]
    exact hP.look ih

/-- The session only looks at its clock, and reports. -/
theorem watch (hP : Timely P) (hs : P l s) {n : Nat} (clock : t.clock = s.clock.after n)
    (alike : s.Alike t) : P (l ++ t.clock.since s.clock.taken) t := by
  rw [clock]
  exact hP.still (hP.looks hs n) ⟨alike.tables, alike.supply⟩

theorem settle (hP : Timely P) (hs : P l s) (index : Nat) (i : Instruction) (approved : Bool) :
    P (l ++ s.settleReadings index i approved) (s.settle index i approved) := by
  have attempted := hP.attempt i hs
  unfold settleReadings
  rw [← List.append_assoc]
  rcases s.settle_cases index i approved with ⟨f, t, ha, -, he⟩ | ⟨t, ha, -, he⟩ <;>
    rw [ha] at attempted ⊢ <;> rw [he]
  · exact hP.watch attempted (n := 0) rfl (t.record_untouched f i.location).alike
  · obtain ⟨n, validated⟩ := validateAll_eq_findings i.location (t.constraintsAt index .post) t
    have clock : ((t.validate index .post i.location).2.checkAfter i approved).clock =
        t.clock.after (n + 1) := by
      rw [checkAfter_clock, validate, validated]
      exact t.clock.after_after n 1
    exact hP.watch attempted clock ((t.validate_untouched index .post i.location).trans
      (checkAfter_untouched _ i approved)).alike

theorem prepared (hP : Timely P) (hs : P l s) (index : Nat) (i : Instruction) :
    P (l ++ (s.prepared index i).2.clock.since s.clock.taken) (s.prepared index i).2 := by
  obtain ⟨n, validated⟩ :=
    validateAll_eq_findings i.location (s.fireTimers.constraintsAt index .pre) s.fireTimers
  have clock : (s.prepared index i).2.clock = s.fireTimers.clock.after n := by
    rw [Session.prepared, validate, validated]
  have watched := hP.watch (hP.timers hs) clock (s.prepared_untouched index i).alike
  rw [List.append_assoc] at watched
  have first : (s.prepared index i).2.clock.since s.clock.taken =
      [s.clock.now] ++ (s.prepared index i).2.clock.since s.fireTimers.clock.taken := by
    rw [clock]
    exact s.clock.since_after_cons n
  rw [first]
  exact watched

theorem acted (hP : Timely P) (hs : P l s) (op : Suspension) (d : Decision) :
    P (l ++ s.actedReadings op d) (s.acted op d) := by
  cases d with
  | approve => exact hP.settle hs op.index op.instruction true
  | reject =>
    rw [actedReadings, List.append_nil]
    exact hs

theorem scan (hP : Timely P) (hs : P l s) : P (l ++ s.scanReadings) s.finalScan := by
  have clock := congrArg Session.clock s.finalScan_eq
  have watched := hP.watch (hP.timers hs) clock s.finalScan_untouched.alike
  rw [List.append_assoc, clock] at watched
  rw [scanReadings_eq]
  exact watched

variable [Gateway γ]

theorem step (hP : Timely P) (hs : P l s) (index : Nat) (i : Instruction) :
    P (l ++ s.stepReadings index i) (s.step index i).session := by
  have prepared := hP.prepared hs index i
  unfold stepReadings
  dsimp only
  rw [← List.append_assoc]
  rcases s.step_parts index i with ⟨carried, he⟩ | ⟨stopped, untouched⟩
  · rw [if_pos carried, he]
    exact hP.settle prepared index i false
  · rw [if_neg (Bool.eq_false_iff.1 stopped), List.append_nil]
    exact hP.still prepared untouched.alike

theorem event (hP : Timely P) {e : Event π γ κ} (hs : P l e.before) :
    P (l ++ e.readings) e.after := by
  cases e with
  | cycle s index i => exact hP.step hs index i
  | answer s op gateway d => exact hP.acted (hP.still hs (s.answered_alike op gateway d)) op d

/-- The rest of a program, up to the scan at its end if it comes to that. -/
theorem drives (hP : Timely P) {rest : List Instruction} {trace : Trace π γ κ}
    (drives : Drives rest s trace t) (hs : P l s) :
    ∃ u, P (l ++ trace.events.flatMap Event.readings) u ∧
      (trace.ended = some u ∧ t = u.finalScan.halt ∨ trace.ended = none ∧ t = u) := by
  have cycle {l : List Nat} {s : Session π γ κ} {i : Instruction} (hs : P l s) :
      P (l ++ (Event.cycle s.counted s.position i).readings)
        (Event.cycle s.counted s.position i).after :=
    hP.event (e := .cycle s.counted s.position i) (hP.still hs ⟨rfl, Nat.le_refl _⟩)
  induction drives generalizing l with
  | finish s => exact ⟨s, by rwa [List.flatMap_nil, List.append_nil], .inl ⟨rfl, rfl⟩⟩
  | exhaust =>
    refine ⟨_, ?_, .inr ⟨rfl, rfl⟩⟩
    rw [List.flatMap_nil, List.append_nil]
    exact hP.still hs ⟨rfl, Nat.le_refl _⟩
  | @ask s t i rest request within asked =>
    have stepped := cycle (i := i) hs
    rw [Event.after, asked] at stepped
    refine ⟨_, ?_, .inr ⟨rfl, rfl⟩⟩
    rw [List.flatMap_singleton]
    exact hP.still stepped ⟨rfl, Nat.le_refl _⟩
  | @collapse s t i rest within passed =>
    have stepped := cycle (i := i) hs
    rw [Event.after, passed] at stepped
    refine ⟨_, ?_, .inr ⟨rfl, rfl⟩⟩
    rw [List.flatMap_singleton]
    exact hP.still stepped ⟨rfl, Nat.le_refl _⟩
  | @pass s t u i rest trace within passed mild further ih =>
    have stepped := cycle (i := i) hs
    rw [Event.after, passed] at stepped
    rw [Trace.cons, List.flatMap_cons, ← List.append_assoc]
    exact ih (hP.still stepped ⟨rfl, Nat.le_refl _⟩)

/-- A call, up to the scan at its end if it comes to that. -/
theorem serve (hP : Timely P) (hs : P l s) (c : Call) :
    ∃ u, P (l ++ (s.trace c).events.flatMap Event.readings) u ∧
      ((s.trace c).ended = some u ∧ s.serve c = u.finalScan.halt ∨
        (s.trace c).ended = none ∧ s.serve c = u) := by
  cases c with
  | run program annotations =>
    exact hP.drives (driven _ _) (hP.still hs (s.start_alike program annotations))
  | abandon op e => exact hP.drives (driven _ _) (hP.still hs ⟨rfl, Nat.le_refl _⟩)
  | resume id d =>
    rcases s.resume_cases id d with ⟨traced, e, gateway, he⟩ | ⟨op, gateway, -, traced, he⟩ <;>
      rw [traced, Session.serve, he]
    · refine ⟨_, ?_, .inr ⟨rfl, rfl⟩⟩
      rw [List.flatMap_nil, List.append_nil]
      exact hP.still hs ⟨rfl, Nat.le_refl _⟩
    · have acted := hP.event (e := .answer s op gateway d) hs
      rw [Trace.cons, List.flatMap_cons, ← List.append_assoc]
      exact hP.drives (driven _ _) (hP.still acted ⟨rfl, Nat.le_refl _⟩)

/-- **A call keeps a timely law.** -/
theorem call (hP : Timely P) (hs : P l s) (c : Call) :
    P (l ++ (s.trace c).readings) (s.serve c) := by
  rw [Trace.readings, ← List.append_assoc]
  obtain ⟨u, hu, ⟨ends, served⟩ | ⟨ends, served⟩⟩ := hP.serve hs c <;> rw [ends, served]
  · exact hP.still (hP.scan hu) (halt_alike _)
  · rw [Option.map_none, Option.getD_none, List.append_nil]
    exact hu

/-- At the end of a program the readings that are left are those of the scan. -/
theorem ended (hP : Timely P) (hs : P l s) {c : Call} (ends : (s.trace c).ended = some t) :
    ∃ l', (s.trace c).readings = l' ++ t.scanReadings ∧ P (l ++ l') t := by
  obtain ⟨u, hu, ⟨ends', -⟩ | ⟨unended, -⟩⟩ := hP.serve hs c
  · obtain rfl := Option.some.inj (ends.symm.trans ends')
    exact ⟨_, by rw [Trace.readings, ends]; rfl, hu⟩
  · exact absurd (ends.symm.trans unended) (by simp)

end Timely

/-- What happens to a session in between and within calls, with the readings: it is set aside and
taken up again, its clock is read, deadlines are noted, and an instruction is carried out. -/
inductive Shows (s : Session π γ κ) : List Nat → Session π γ κ → Prop
  | still {t : Session π γ κ} (alike : s.Alike t) : Shows s [] t
  | look : Shows s [s.clock.now] s.readClock.2
  | timers : Shows s [s.clock.now] s.fireTimers
  | attempt (i : Instruction) : Shows s (s.attemptReadings i) (s.attempt i).session

/-- **What becomes of a session**, with all readings on the way: programs are run, requests are
answered or given up, and between calls and within them its clock is read or moved, deadlines are
noted and instructions are carried out. -/
abbrev Ages [Gateway γ] (s₀ : Session π γ κ) : List Nat → Session π γ κ → Prop :=
  s₀.History { calls := fun _ _ => True, notes := Trace.readings, meanwhile := Shows }

theorem Ages.run [Gateway γ] {s₀ s : Session π γ κ} {l : List Nat} (life : s₀.Ages l s)
    (program : Program) (annotations : Option (List InferredType)) :
    s₀.Ages (l ++ s.runReadings program annotations) (s.run program annotations) :=
  life.call (c := .run program annotations) trivial

/-- **A timely law holds for life.** -/
theorem Timely.ages [Gateway γ] {P : List Nat → Session π γ κ → Prop} (hP : Timely P)
    {s₀ s : Session π γ κ} {l : List Nat} (h₀ : P [] s₀) (life : s₀.Ages l s) : P l s := by
  induction life with
  | new => exact h₀
  | call before comes ih => exact hP.call ih _
  | meanwhile before change ih =>
    cases change with
    | still alike =>
      rw [List.append_nil]
      exact hP.still ih alike
    | look => exact hP.look ih
    | timers => exact hP.timers ih
    | attempt i => exact hP.attempt i ih

end Session

end GovernedQuantum
