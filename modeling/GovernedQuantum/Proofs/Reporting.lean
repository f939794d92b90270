import GovernedQuantum.Proofs.Pace

/-!
# What a session reports

Findings are only added in the course of a run. This file says of which kind they are: what a cycle
adds to the errors stands at its instruction and stops nothing, and the scan at the end adds no
errors where the groups fit the live handles.

* `Diagnostics.Gains A`: findings of the kind `A` were added, and nothing else has changed.
* `Instruction.Minor`: a warning, or an error at the instruction that is not fatal.
* `Session.step_gains`, `Session.acted_gains`: **all that comes of an instruction is minor.**
* `Session.finalScan_gains`: a scan that finds every group in order only warns.
-/

namespace GovernedQuantum

/-! ## Findings that are added -/

namespace Diagnostics

/-- Findings of the kind `A` were added, in some order, and nothing else has changed. -/
def Gains (A : Diagnostic → Prop) (ds more : Diagnostics) : Prop :=
  ∃ found, more = ds.pushAll found ∧ ∀ d ∈ found, A d

namespace Gains

variable {A B : Diagnostic → Prop} {ds more most : Diagnostics}

theorem refl (A : Diagnostic → Prop) (ds : Diagnostics) : Gains A ds ds :=
  ⟨[], rfl, fun _ h => absurd h List.not_mem_nil⟩

theorem of_eq (h : more = ds) : Gains A ds more :=
  h ▸ refl A ds

theorem push {d : Diagnostic} (h : A d) : Gains A ds (ds.push d) :=
  ⟨[d], rfl, fun _ hd => List.mem_singleton.1 hd ▸ h⟩

theorem trans (h : Gains A ds more) (g : Gains A more most) : Gains A ds most := by
  obtain ⟨found, rfl, hf⟩ := h
  obtain ⟨found', rfl, hf'⟩ := g
  refine ⟨found ++ found', (List.foldl_append ..).symm, fun d hd => ?_⟩
  rcases List.mem_append.1 hd with hd | hd
  · exact hf d hd
  · exact hf' d hd

theorem mono (h : Gains A ds more) (le : ∀ d, A d → B d) : Gains B ds more := by
  obtain ⟨found, he, hf⟩ := h
  exact ⟨found, he, fun d hd => le d (hf d hd)⟩

/-- An error was there before, or it is of the kind that was added. -/
theorem of_mem_errors (h : Gains A ds more) {d : Diagnostic} (hd : d ∈ more.errors) :
    d ∈ ds.errors ∨ d.severity = .error ∧ A d := by
  obtain ⟨found, rfl, hf⟩ := h
  induction found generalizing ds with
  | nil => exact .inl hd
  | cons e rest ih =>
    rcases ih (fun d hd => hf d (List.mem_cons_of_mem e hd)) hd with hd | hd
    · have he := hf e List.mem_cons_self
      unfold Diagnostics.push at hd
      split at hd
      · rename_i severity
        rcases Array.mem_push.1 hd with hd | rfl
        · exact .inl hd
        · exact .inr ⟨severity, he⟩
      · exact .inl hd
    · exact .inr hd

/-- Warnings do not add to the errors. -/
theorem errors_eq (h : Gains (·.severity = .warning) ds more) : more.errors = ds.errors := by
  obtain ⟨found, rfl, hf⟩ := h
  induction found generalizing ds with
  | nil => rfl
  | cons e rest ih =>
    refine (ih fun d hd => hf d (List.mem_cons_of_mem e hd)).trans ?_
    rw [Diagnostics.push, hf e List.mem_cons_self]

end Gains

end Diagnostics

/-- **A minor finding on an instruction**: it warns, or it is an error at the instruction's place
that does not stop the run. -/
def Instruction.Minor (i : Instruction) (d : Diagnostic) : Prop :=
  d.severity = .warning ∨ d.location = i.location ∧ d.fatal = false

namespace Session

variable {π γ κ : Type}

open Diagnostics (Gains)

/-! ## The cycle of an instruction -/

theorem report_gains {A : Diagnostic → Prop} (s : Session π γ κ) (d : Diagnostic) (h : A d) :
    Gains A s.diagnostics (s.report d).diagnostics :=
  .push h

/-- What is given up is reported at its place. -/
theorem givenUp_gains (s : Session π γ κ) (op : Suspension) (e : ReviewError) :
    Gains op.instruction.Minor s.diagnostics (s.givenUp op e).diagnostics := by
  rw [givenUp]
  exact report_gains _ _ (.inr ⟨rfl, rfl⟩)

theorem evaluate_diagnostics (s : Session π γ κ) (c : Constraint) :
    (s.evaluate c).2.diagnostics = s.diagnostics := by
  unfold evaluate
  split <;> rfl

theorem validateAll_gains (i : Instruction) (cs : List Constraint) (s : Session π γ κ) :
    Gains i.Minor s.diagnostics (validateAll i.location cs s).2.diagnostics := by
  induction cs generalizing s with
  | nil => exact .refl _ _
  | cons c rest ih =>
    have same := s.evaluate_diagnostics c
    rw [validateAll]
    split
    · rename_i t h
      rw [h] at same
      exact same ▸ ih t
    · rename_i v t h
      rw [h] at same
      rw [← same]
      exact (t.report_gains _ (.inr ⟨rfl, rfl⟩)).trans (ih _)

/-- Operands that are no longer coherent are only warned of. -/
theorem checkOperands_gains (i : Instruction) (now : Nat) (names : List String)
    (s : Session π γ κ) :
    Gains (·.severity = .warning) s.diagnostics
      (names.foldl (checkOperand i now) s).diagnostics := by
  induction names generalizing s with
  | nil => exact .refl _ _
  | cons name rest ih =>
    refine Gains.trans ?_ (ih (checkOperand i now s name))
    unfold checkOperand
    split
    · exact s.report_gains _ rfl
    · exact .refl _ _

theorem checkAfter_gains (s : Session π γ κ) (i : Instruction) (approved : Bool) :
    Gains i.Minor s.diagnostics (s.checkAfter i approved).diagnostics := by
  refine Gains.trans ((checkOperands_gains i s.readClock.1 i.interactionOperands s.readClock.2).mono
    fun _ => .inl) ?_
  show Gains i.Minor _ (checkOversight _ i approved).diagnostics
  unfold checkOversight
  split
  · split
    · exact report_gains _ _ (.inr ⟨rfl, rfl⟩)
    · exact .refl _ _
  · exact .refl _ _

theorem prepared_gains (s : Session π γ κ) (index : Nat) (i : Instruction) :
    Gains i.Minor s.diagnostics (s.prepared index i).2.diagnostics :=
  validateAll_gains i _ s.fireTimers

section

variable [Physics π] [Coordinator κ]

/-- An instruction that takes effect adds at most a warning by itself. -/
theorem diagnostics_of_done {s t : Session π γ κ} {i : Instruction} (done : s.attempt i = .done t) :
    Gains (·.severity = .warning) s.diagnostics t.diagnostics := by
  rcases (attempt_done_iff.1 done).diagnostics with same | ⟨d, warning, -, pushed⟩
  · exact .of_eq same
  · exact pushed ▸ Gains.push warning

theorem settle_gains (s : Session π γ κ) (index : Nat) (i : Instruction) (approved : Bool) :
    Gains i.Minor s.diagnostics (s.settle index i approved).diagnostics := by
  rcases s.settle_cases index i approved with ⟨f, t, failed, -, he⟩ | ⟨t, done, -, he⟩ <;> rw [he]
  · have fails := attempt_failed_iff.1 failed
    rw [← fails.diagnostics]
    exact t.report_gains _ (.inr ⟨rfl, fails.isFatal⟩)
  · exact ((diagnostics_of_done done).mono fun _ => .inl).trans
      ((validateAll_gains i _ t).trans (checkAfter_gains _ i approved))

/-- **All that a cycle reports is minor.** -/
theorem step_gains [Gateway γ] (s : Session π γ κ) (index : Nat) (i : Instruction) :
    Gains i.Minor s.diagnostics (s.step index i).session.diagnostics := by
  have prepared := s.prepared_gains index i
  rcases s.step_cases index i with ⟨-, -, he⟩ | ⟨-, -, -, o, r, he⟩ | ⟨-, -, -, filing, he⟩ |
    ⟨-, -, he⟩ <;> rw [he]
  · exact prepared
  · exact prepared.trans (report_gains _ _ (.inr ⟨rfl, rfl⟩))
  · exact prepared
  · exact prepared.trans (settle_gains _ index i false)

/-- **All that an answer leads to is minor.** -/
theorem acted_gains (s : Session π γ κ) (op : Suspension) (gateway : γ) (d : Decision) :
    Gains op.instruction.Minor s.diagnostics
      ((s.answered op gateway d).acted op d).diagnostics := by
  cases d with
  | approve => exact settle_gains (s.answered op gateway .approve) op.index op.instruction true
  | reject => exact s.report_gains _ (.inr ⟨rfl, rfl⟩)

end

/-! ## The end of a run -/

theorem leaks_diagnostics (hs : List Handle) (s : Session π γ κ) :
    (leaks hs s).2.diagnostics = s.diagnostics := by
  induction hs generalizing s with
  | nil => rfl
  | cons h rest ih => exact ih s.readClock.2

/-- A scan that finds every group in order only warns, of qudits that nobody released in time. -/
theorem finalScan_gains {s : Session π γ κ}
    (consistent : s.fireTimers.tables.register.inconsistencies = []) :
    Gains (·.severity = .warning) s.diagnostics s.finalScan.diagnostics := by
  have recorded (names : List String) (l : Location) (t : Session π γ κ) :
      Gains (·.severity = .warning) t.diagnostics
        (names.foldl (fun t name => t.record (.decoheredLeak name) l) t).diagnostics := by
    induction names generalizing t with
    | nil => exact .refl _ _
    | cons name rest ih =>
      refine Gains.trans ?_ (ih (t.record (.decoheredLeak name) l))
      exact t.report_gains _ rfl
  have leaked := leaks_diagnostics s.fireTimers.tables.register.handles.values s.fireTimers
  have untouched := leaks_untouched s.fireTimers.tables.register.handles.values s.fireTimers
  unfold finalScan
  dsimp only
  rw [(records_untouched _ _ _ _).tables, untouched.tables, consistent]
  rw [show s.diagnostics = s.fireTimers.diagnostics from rfl, ← leaked]
  exact recorded _ _ _

end Session

end GovernedQuantum
