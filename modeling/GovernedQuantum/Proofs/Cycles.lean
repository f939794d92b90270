import GovernedQuantum.Proofs.Attempts

/-!
# The cycle of an instruction

What happens to a session while one instruction is stepped, and when a request about it is answered.
A law about sessions that is kept by the few moves of which a cycle is made is kept by every cycle.

* `Session.step_cases`: **the four ways in which the cycle of an instruction can end.**
* `Session.stepLog`: the instruction, if it takes effect in its cycle.
* `Session.answered`, `Session.acted`: a session that takes an answer, and acts on it.
* `Session.Stable`: laws that the moves of a cycle keep. `Session.Stable.step`: cycles keep them.
-/

namespace GovernedQuantum

/-- The session after a cycle, ready or waiting. -/
def Stepped.session {σ : Type} : Stepped σ → σ
  | .next s => s
  | .suspended _ s => s

namespace Session

variable {π γ κ : Type}

/-! ## Moves that leave the tables alone -/

theorem readClock_untouched (s : Session π γ κ) : s.Untouched s.readClock.2 :=
  .of_update s _ _

theorem report_untouched (s : Session π γ κ) (d : Diagnostic) : s.Untouched (s.report d) :=
  ⟨.of_update s _ _ _ _ _ _ _, rfl, rfl⟩

theorem record_untouched (s : Session π γ κ) (f : Fault) (l : Location) :
    s.Untouched (s.record f l) :=
  s.report_untouched _

theorem evaluate_untouched (s : Session π γ κ) (c : Constraint) : s.Untouched (s.evaluate c).2 := by
  unfold evaluate
  split
  · exact s.readClock_untouched
  · exact .refl s

theorem validateAll_untouched (l : Location) (cs : List Constraint) (s : Session π γ κ) :
    s.Untouched (validateAll l cs s).2 := by
  induction cs generalizing s with
  | nil => exact .refl s
  | cons c rest ih =>
    have hc := s.evaluate_untouched c
    rw [validateAll]
    split
    · rename_i t h
      rw [h] at hc
      exact hc.trans (ih t)
    · rename_i v t h
      rw [h] at hc
      exact hc.trans ((t.report_untouched _).trans (ih _))

theorem validate_untouched (s : Session π γ κ) (index : Nat) (phase : Phase) (l : Location) :
    s.Untouched (s.validate index phase l).2 :=
  validateAll_untouched l _ s

theorem checkOperand_untouched (i : Instruction) (now : Nat) (s : Session π γ κ) (name : String) :
    s.Untouched (checkOperand i now s name) := by
  unfold checkOperand
  split
  · exact s.report_untouched _
  · exact .refl s

theorem checkOperands_untouched (i : Instruction) (now : Nat) (names : List String)
    (s : Session π γ κ) : s.Untouched (names.foldl (checkOperand i now) s) := by
  induction names generalizing s with
  | nil => exact .refl s
  | cons name rest ih => exact (checkOperand_untouched i now s name).trans (ih _)

theorem checkOversight_untouched (s : Session π γ κ) (i : Instruction) (approved : Bool) :
    s.Untouched (s.checkOversight i approved) := by
  unfold checkOversight
  split
  · split
    · exact s.report_untouched _
    · exact .refl s
  · exact .refl s

theorem checkAfter_untouched (s : Session π γ κ) (i : Instruction) (approved : Bool) :
    s.Untouched (s.checkAfter i approved) :=
  s.readClock_untouched.trans
    ((checkOperands_untouched i _ _ _).trans (checkOversight_untouched _ i approved))

theorem leaks_untouched (hs : List Handle) (s : Session π γ κ) : s.Untouched (leaks hs s).2 := by
  induction hs generalizing s with
  | nil => exact .refl s
  | cons h rest ih => exact s.readClock_untouched.trans (ih _)

theorem records_untouched {α : Type} (f : α → Fault) (l : Location) (xs : List α)
    (s : Session π γ κ) : s.Untouched (xs.foldl (fun s x => s.record (f x) l) s) := by
  induction xs generalizing s with
  | nil => exact .refl s
  | cons x rest ih => exact (s.record_untouched _ l).trans (ih _)

/-- The final scan notes deadlines and reports. -/
theorem finalScan_untouched (s : Session π γ κ) : s.fireTimers.Untouched s.finalScan :=
  (leaks_untouched _ _).trans ((records_untouched _ _ _ _).trans (records_untouched _ _ _ _))

theorem fireTimers_sameCourse (s : Session π γ κ) : s.SameCourse s.fireTimers :=
  .of_update s _ _ _ _ _ _ _

theorem finalScan_sameCourse (s : Session π γ κ) : s.SameCourse s.finalScan :=
  s.fireTimers_sameCourse.trans s.finalScan_untouched.toSameCourse

/-! ## The cycle of an instruction -/

theorem file_untouched [Gateway γ] (s : Session π γ κ) (i : Instruction) (filing : Filing) :
    s.Untouched (s.file i filing).2 :=
  ⟨⟨rfl, rfl, rfl, rfl, rfl, rfl, rfl, rfl, rfl, rfl⟩, rfl, rfl⟩

/-- A gate closes with a failed verification. -/
theorem gate_closed {s : Session π γ κ} {i : Instruction} {p : Profile} {f : Fault}
    (h : s.gate i p = .closed f) :
    ∃ operation reasons, f = .verificationFailed operation reasons := by
  unfold gate at h
  dsimp only at h
  split at h
  · exact absurd h (by simp)
  · split at h
    · split at h
      · exact absurd h (by simp)
      · exact ⟨_, _, (Gate.closed.inj h).symm⟩
    · exact ⟨_, _, (Gate.closed.inj h).symm⟩

/-- A session whose instruction is about to be let through: deadlines are noted and the constraints
before it have been evaluated. -/
def prepared (s : Session π γ κ) (index : Nat) (i : Instruction) : Bool × Session π γ κ :=
  s.fireTimers.validate index .pre i.location

theorem prepared_untouched (s : Session π γ κ) (index : Nat) (i : Instruction) :
    s.fireTimers.Untouched (s.prepared index i).2 :=
  validate_untouched _ _ _ _

/-- The gate lets the instruction through without asking anybody. -/
def passes (s : Session π γ κ) (i : Instruction) : Bool :=
  let profile := Profile.ofInstruction i s.tables.entities s.settings
  !profile.kind.isGated || s.gate i profile == .passed

variable [Physics π] [Coordinator κ]

/-- The instruction, if it takes effect now. -/
def took (s : Session π γ κ) (i : Instruction) : List Instruction :=
  match s.attempt i with
  | .done _ => [i]
  | .failed _ _ => []

/-- The instruction, if it takes effect in its cycle. -/
def stepLog (s : Session π γ κ) (index : Nat) (i : Instruction) : List Instruction :=
  if (s.prepared index i).1 && (s.prepared index i).2.passes i then (s.prepared index i).2.took i
  else []

theorem settle_cases (s : Session π γ κ) (index : Nat) (i : Instruction) (approved : Bool) :
    (∃ f t, s.attempt i = .failed f t ∧ s.took i = [] ∧
      s.settle index i approved = t.record f i.location) ∨
    ∃ t, s.attempt i = .done t ∧ s.took i = [i] ∧
      s.settle index i approved = (t.validate index .post i.location).2.checkAfter i approved := by
  unfold settle took
  cases h : s.attempt i with
  | failed f t => exact .inl ⟨f, t, rfl, rfl, rfl⟩
  | done t => exact .inr ⟨t, rfl, rfl, rfl⟩

theorem settle_sameCourse (s : Session π γ κ) (index : Nat) (i : Instruction) (approved : Bool) :
    s.SameCourse (s.settle index i approved) := by
  rcases s.settle_cases index i approved with ⟨f, t, ha, -, he⟩ | ⟨t, ha, -, he⟩ <;> rw [he]
  · exact ((attempt_failed_iff.1 ha).untouched.trans (t.record_untouched f i.location)).toSameCourse
  · exact (attempt_done_iff.1 ha).sameCourse.trans
      ((t.validate_untouched index .post i.location).trans
        (checkAfter_untouched _ i approved)).toSameCourse

/-- **The four ends of a cycle.** The constraints before the instruction stop it, the gate closes, a
human is asked, or it is carried out. -/
theorem step_cases [Gateway γ] (s : Session π γ κ) (index : Nat) (i : Instruction) :
    ((s.prepared index i).1 = false ∧ s.stepLog index i = [] ∧
      s.step index i = .next (s.prepared index i).2) ∨
    ((s.prepared index i).1 = true ∧ s.stepLog index i = [] ∧
      i.opcode.operationKind.isGated = true ∧ ∃ operation reasons,
        s.step index i = .next ((s.prepared index i).2.record
          (.verificationFailed operation reasons) i.location)) ∨
    ((s.prepared index i).1 = true ∧ s.stepLog index i = [] ∧
      i.opcode.operationKind.isGated = true ∧ ∃ filing,
        s.step index i = .suspended ((s.prepared index i).2.file i filing).1
          ((s.prepared index i).2.file i filing).2) ∨
    ((s.prepared index i).1 = true ∧ s.stepLog index i = (s.prepared index i).2.took i ∧
      s.step index i = .next ((s.prepared index i).2.settle index i false)) := by
  unfold step stepLog
  rw [show s.fireTimers.validate index .pre i.location = s.prepared index i from rfl]
  obtain ⟨passed, t⟩ := s.prepared index i
  cases passed with
  | false => exact .inl ⟨rfl, rfl, rfl⟩
  | true =>
    right
    dsimp only [passes]
    by_cases hg : (Profile.ofInstruction i t.tables.entities t.settings).kind.isGated = true
    · simp only [hg, if_true]
      cases h : t.gate i (Profile.ofInstruction i t.tables.entities t.settings) with
      | passed => exact .inr (.inr ⟨trivial, by simp, rfl⟩)
      | closed f =>
        obtain ⟨operation, reasons, rfl⟩ := gate_closed h
        exact .inl ⟨trivial, by simp, hg, operation, reasons, rfl⟩
      | review filing => exact .inr (.inl ⟨trivial, by simp, hg, filing, rfl⟩)
    · rw [Bool.not_eq_true] at hg
      exact .inr (.inr ⟨rfl, by simp [hg], by rw [hg]; rfl⟩)

/-- A cycle in which the instruction takes no effect notes deadlines and leaves the tables alone. -/
theorem tables_step_of_idle [Gateway γ] {s : Session π γ κ} {index : Nat} {i : Instruction}
    (idle : s.stepLog index i = []) : (s.step index i).session.tables = s.fireTimers.tables := by
  have prepared := (s.prepared_untouched index i).tables
  rcases s.step_cases index i with ⟨-, -, he⟩ | ⟨-, -, -, o, r, he⟩ | ⟨-, -, -, filing, he⟩ |
    ⟨-, hl, he⟩ <;> rw [he]
  · exact prepared
  · exact prepared
  · exact prepared
  · rw [idle] at hl
    rcases (s.prepared index i).2.settle_cases index i false with ⟨f, t, ha, -, he⟩ | ⟨t, -, ht, -⟩
    · rw [he]
      exact (attempt_failed_iff.1 ha).untouched.tables.trans prepared
    · exact absurd (hl.trans ht) (by simp)

/-- A cycle in which the instruction takes effect does no more to the tables than the
instruction. -/
theorem tables_step_of_log [Gateway γ] {s : Session π γ κ} {index : Nat} {i : Instruction}
    (log : s.stepLog index i = [i]) :
    ∃ t, (s.prepared index i).2.attempt i = .done t ∧
      (s.step index i).session.tables = t.tables := by
  rcases s.step_cases index i with ⟨-, hl, -⟩ | ⟨-, hl, -⟩ | ⟨-, hl, -⟩ | ⟨-, hl, he⟩
  · exact absurd (log.symm.trans hl) (by simp)
  · exact absurd (log.symm.trans hl) (by simp)
  · exact absurd (log.symm.trans hl) (by simp)
  · rw [log] at hl
    rcases (s.prepared index i).2.settle_cases index i false with ⟨f, t, -, ht, -⟩ | ⟨t, ha, -, hs⟩
    · exact absurd (hl.trans ht) (by simp)
    · refine ⟨t, ha, ?_⟩
      rw [he, hs]
      exact ((t.validate_untouched index .post i.location).trans
        (checkAfter_untouched _ i false)).tables

/-! ## Answers -/

/-- A waiting session that has taken its answer and is about to act on it. -/
def answered (s : Session π γ κ) (op : Suspension) (gateway : γ) (d : Decision) : Session π γ κ :=
  let s : Session π γ κ :=
    { s with
      gateway
      suspension := none
      status := .running
      reviews := (decideLast op.request.id d s.reviews.toList).toArray }
  match d with
  | .approve =>
    let label := Request.label op.request.id
    s.say s!"oversight {label} approved: {op.request.details}"
  | .reject =>
    s.record (.oversightRejected op.request.id op.request.details) op.instruction.location

/-- A session that acts on its answer. -/
def acted (s : Session π γ κ) (op : Suspension) : Decision → Session π γ κ
  | .approve => s.settle op.index op.instruction true
  | .reject => s

def actedLog (s : Session π γ κ) (op : Suspension) : Decision → List Instruction
  | .approve => s.took op.instruction
  | .reject => []

/-! ## Laws -/

section Alike

omit [Physics π] [Coordinator κ]

/-- Two sessions over the same tables. Clocks, collaborators and the course of the run may differ,
and handle numbers in between may have been given away elsewhere. -/
structure Alike (s t : Session π γ κ) : Prop where
  tables : t.tables = s.tables
  supply : s.nextHandle ≤ t.nextHandle

theorem Untouched.alike {s t : Session π γ κ} (h : s.Untouched t) : s.Alike t :=
  ⟨h.tables, Nat.le_of_eq h.nextHandle.symm⟩

theorem halt_alike (s : Session π γ κ) : s.Alike s.halt := ⟨rfl, Nat.le_refl _⟩

theorem start_alike (s : Session π γ κ) (program : Program)
    (annotations : Option (List InferredType)) : s.Alike (s.start program annotations) := by
  unfold start
  dsimp only
  split
  · exact ⟨rfl, Nat.le_refl _⟩
  · split <;> exact ⟨rfl, Nat.le_refl _⟩

theorem answered_alike (s : Session π γ κ) (op : Suspension) (gateway : γ) (d : Decision) :
    s.Alike (s.answered op gateway d) := by
  cases d <;> exact ⟨rfl, Nat.le_refl _⟩

end Alike

/-- **Laws that the moves of a session keep.** A law speaks of the session and of the instructions
that have taken effect so far. -/
structure Stable (P : List Instruction → Session π γ κ → Prop) : Prop where
  still {h : List Instruction} {s t : Session π γ κ} : P h s → s.Alike t → P h t
  timers {h : List Instruction} {s : Session π γ κ} : P h s → P h s.fireTimers
  effect {h : List Instruction} {s t : Session π γ κ} {i : Instruction} :
    P h s → s.attempt i = .done t → P (h ++ [i]) t

namespace Stable

variable {P : List Instruction → Session π γ κ → Prop} {h : List Instruction} {s : Session π γ κ}

theorem settle (hP : Stable P) (hs : P h s) (index : Nat) (i : Instruction) (approved : Bool) :
    P (h ++ s.took i) (s.settle index i approved) := by
  rcases s.settle_cases index i approved with ⟨f, t, ha, hl, he⟩ | ⟨t, ha, hl, he⟩
  · rw [hl, he, List.append_nil]
    exact hP.still hs
      ((attempt_failed_iff.1 ha).untouched.trans (t.record_untouched f i.location)).alike
  · rw [hl, he]
    exact hP.still (hP.effect hs ha)
      ((t.validate_untouched index .post i.location).trans
        (checkAfter_untouched _ i approved)).alike

theorem prepared (hP : Stable P) (hs : P h s) (index : Nat) (i : Instruction) :
    P h (s.prepared index i).2 :=
  hP.still (hP.timers hs) (s.prepared_untouched index i).alike

theorem acted (hP : Stable P) (hs : P h s) (op : Suspension) (d : Decision) :
    P (h ++ s.actedLog op d) (s.acted op d) := by
  cases d with
  | approve => exact hP.settle hs op.index op.instruction true
  | reject =>
    rw [actedLog, List.append_nil]
    exact hs

/-- A cycle keeps a stable law, however it ends. -/
theorem step [Gateway γ] (hP : Stable P) (hs : P h s) (index : Nat) (i : Instruction) :
    P (h ++ s.stepLog index i) (s.step index i).session := by
  have hp := hP.prepared hs index i
  rcases s.step_cases index i with ⟨-, hl, he⟩ | ⟨-, hl, -, o, r, he⟩ | ⟨-, hl, -, filing, he⟩ |
    ⟨-, hl, he⟩ <;> rw [hl, he]
  · rwa [List.append_nil]
  · rw [List.append_nil]
    exact hP.still hp (record_untouched _ _ _).alike
  · rw [List.append_nil]
    exact hP.still hp (file_untouched _ i filing).alike
  · exact hP.settle hp index i false

end Stable

end Session

end GovernedQuantum
