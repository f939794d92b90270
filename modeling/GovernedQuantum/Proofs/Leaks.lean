import GovernedQuantum.Proofs.Readings

/-!
# Warnings of leaked qudits

A session warns of a leak at the end of a program and at no other time: neither what comes of an
instruction nor an answer is reported as one.

* `Diagnostics.memoryLeaks`: the warnings of leaked qudits, in the order of their discovery.
* `Session.leakWarnings`: what the scan at the end of a program adds to them.
* `Session.memoryLeaks_run`, `Session.memoryLeaks_resume`: **a call warns of what its scan finds
  leaked**, and of nothing if it does not come to the end.
-/

namespace GovernedQuantum

namespace Diagnostics

/-- The warnings of leaked qudits. -/
def memoryLeaks (ds : Diagnostics) : List Diagnostic :=
  ds.warnings.toList.filter (·.category = .memoryLeak)

theorem memoryLeaks_push (ds : Diagnostics) (d : Diagnostic) :
    (ds.push d).memoryLeaks =
      ds.memoryLeaks ++ [d].filter fun d => d.severity = .warning ∧ d.category = .memoryLeak := by
  unfold memoryLeaks push
  cases severity : d.severity with
  | error => simp [severity]
  | warning =>
    rw [Array.toList_push, List.filter_append]
    simp [List.filter_cons, severity]

theorem memoryLeaks_pushAll (ds : Diagnostics) (found : List Diagnostic) :
    (ds.pushAll found).memoryLeaks =
      ds.memoryLeaks ++ found.filter fun d => d.severity = .warning ∧ d.category = .memoryLeak := by
  induction found generalizing ds with
  | nil => exact (List.append_nil _).symm
  | cons d rest ih =>
    have last := ih (ds.push d)
    rw [memoryLeaks_push, List.append_assoc, ← List.filter_append] at last
    exact last

/-- Findings of other kinds are no leaks. -/
theorem Gains.memoryLeaks {ds more : Diagnostics} (h : Gains (·.category ≠ .memoryLeak) ds more) :
    more.memoryLeaks = ds.memoryLeaks := by
  obtain ⟨found, rfl, other⟩ := h
  have none : (found.filter fun d => d.severity = .warning ∧ d.category = .memoryLeak) = [] :=
    List.filter_eq_nil_iff.2 fun d hd => by simp [other d hd]
  rw [memoryLeaks_pushAll, none, List.append_nil]

end Diagnostics

/-- No constraint finds a leak. -/
theorem Constraint.category_of_finding {c : Constraint} {ctx : Context} {l : Location}
    {d : Diagnostic} (h : c.finding? ctx l = some d) : d.category ≠ .memoryLeak := by
  obtain ⟨v, hv, rfl⟩ := Option.map_eq_some_iff.1 h
  show v.category ≠ .memoryLeak
  have entity (e : String) (rule : EntityView → Option Violation)
      (lawful : ∀ view v, rule view = some v → v.category = .aiSafety)
      (he : onEntity ctx e rule = some v) : v.category ≠ .memoryLeak := by
    unfold onEntity at he
    split at he
    · rw [← Option.some.inj he]
      simp [undeclared]
    · simp [lawful _ v he]
  unfold evaluate violation? at hv
  split at hv
  · rw [Option.ite_none_right_eq_some] at hv
    simp [← Option.some.inj hv.2]
  · rw [Option.ite_none_right_eq_some] at hv
    simp [← Option.some.inj hv.2]
  · rw [Option.ite_none_left_eq_some] at hv
    simp [← Option.some.inj hv.2]
  · split at hv
    · exact absurd hv (by simp)
    · simp [← Option.some.inj hv]
  · rw [Option.ite_none_left_eq_some] at hv
    simp [← Option.some.inj hv.2]
  all_goals
    refine entity _ _ (fun view w hw => ?_) hv
    simp only [Option.ite_none_left_eq_some, Option.ite_none_right_eq_some, Option.some.injEq] at hw
    rw [← hw.2]

/-- No instruction fails with a leak. -/
theorem Session.Fails.category {π γ κ : Type} [Coordinator κ] {s t : Session π γ κ}
    {i : Instruction} {f : Fault} (h : s.Fails i f t) : f.category ≠ .memoryLeak := by
  cases h with
  | unresolved _ _ cause =>
    rcases Tables.resolve_error cause with rfl | rfl <;> simp [Fault.category]
  | _ => simp [Fault.category]

namespace Session

variable {π γ κ : Type}

open Diagnostics (Gains)

/-! ## What is not a leak -/

theorem validate_unleaked (s : Session π γ κ) (index : Nat) (phase : Phase) (l : Location) :
    Gains (·.category ≠ .memoryLeak) s.diagnostics (s.validate index phase l).2.diagnostics := by
  obtain ⟨n, validated⟩ := validateAll_eq_findings l (s.constraintsAt index phase) s
  rw [validate, validated]
  refine ⟨_, rfl, fun d hd => ?_⟩
  obtain ⟨c, -, now, found⟩ := found_of_mem_findings hd
  exact Constraint.category_of_finding found

theorem checkAfter_unleaked (s : Session π γ κ) (i : Instruction) (approved : Bool) :
    Gains (·.category ≠ .memoryLeak) s.diagnostics (s.checkAfter i approved).diagnostics := by
  have operands (names : List String) (now : Nat) (t : Session π γ κ) :
      Gains (·.category ≠ .memoryLeak) t.diagnostics
        (names.foldl (checkOperand i now) t).diagnostics := by
    induction names generalizing t with
    | nil => exact .refl _ _
    | cons name rest ih =>
      refine Gains.trans ?_ (ih (checkOperand i now t name))
      unfold checkOperand
      split
      · exact t.report_gains _ (by simp)
      · exact .refl _ _
  refine (operands i.interactionOperands s.readClock.1 s.readClock.2).trans ?_
  show Gains _ _ (checkOversight _ i approved).diagnostics
  unfold checkOversight
  split
  · split
    · rename_i v found
      refine report_gains _ _
        (Constraint.category_of_finding (Option.map_eq_some_iff.2 ⟨v, found, rfl⟩))
    · exact .refl _ _
  · exact .refl _ _

section

variable [Physics π] [Coordinator κ]

theorem settle_unleaked (s : Session π γ κ) (index : Nat) (i : Instruction) (approved : Bool) :
    Gains (·.category ≠ .memoryLeak) s.diagnostics (s.settle index i approved).diagnostics := by
  rcases s.settle_cases index i approved with ⟨f, t, ha, -, he⟩ | ⟨t, ha, -, he⟩ <;> rw [he]
  · have fails := attempt_failed_iff.1 ha
    rw [← fails.diagnostics]
    exact t.report_gains _ fails.category
  · have attempted : Gains (·.category ≠ .memoryLeak) s.diagnostics t.diagnostics := by
      rcases (attempt_done_iff.1 ha).diagnostics with same | ⟨d, -, category, pushed⟩
      · exact .of_eq same
      · rw [pushed]
        exact .push (by simp [category])
    exact attempted.trans ((t.validate_unleaked index .post i.location).trans
      (checkAfter_unleaked _ i approved))

theorem acted_unleaked (s : Session π γ κ) (op : Suspension) (gateway : γ) (d : Decision) :
    Gains (·.category ≠ .memoryLeak) s.diagnostics
      ((s.answered op gateway d).acted op d).diagnostics := by
  cases d with
  | approve => exact settle_unleaked (s.answered op gateway .approve) op.index op.instruction true
  | reject => exact s.report_gains _ (by simp [Fault.diagnostic, Fault.category])

theorem step_unleaked [Gateway γ] (s : Session π γ κ) (index : Nat) (i : Instruction) :
    Gains (·.category ≠ .memoryLeak) s.diagnostics (s.step index i).session.diagnostics := by
  have prepared :
      Gains (·.category ≠ .memoryLeak) s.diagnostics (s.prepared index i).2.diagnostics :=
    s.fireTimers.validate_unleaked index .pre i.location
  rcases s.step_cases index i with ⟨-, -, he⟩ | ⟨-, -, -, o, r, he⟩ | ⟨-, -, -, filing, he⟩ |
    ⟨-, -, he⟩ <;> rw [he]
  · exact prepared
  · exact prepared.trans (report_gains _ _ (by simp [Fault.diagnostic, Fault.category]))
  · exact prepared
  · exact prepared.trans (settle_unleaked _ index i false)

end

/-! ## The scan -/

/-- What the scan at the end warns of: the live qudits that are not coherent when their turn
comes. -/
def leakWarnings (s : Session π γ κ) : List Diagnostic :=
  (s.fireTimers.clock.leaked s.fireTimers.tables.register.handles.values).map
    fun name => (Fault.decoheredLeak name).diagnostic s.scanLocation

/-- A defect of a group is no leak. -/
theorem memoryLeaks_finalScan (s : Session π γ κ) :
    s.finalScan.diagnostics.memoryLeaks = s.diagnostics.memoryLeaks ++ s.leakWarnings := by
  have leaks : (s.leakWarnings.filter fun d => d.severity = .warning ∧ d.category = .memoryLeak) =
      s.leakWarnings := by
    refine List.filter_eq_self.2 fun d hd => ?_
    obtain ⟨name, -, rfl⟩ := List.mem_map.1 hd
    rfl
  have found : s.fireTimers.scanned = s.leakWarnings ++
      s.fireTimers.tables.register.inconsistencies.map
        fun x => (Fault.inconsistentGroup x.1 x.2).diagnostic s.scanLocation := rfl
  rw [finalScan_eq]
  show (s.diagnostics.pushAll s.fireTimers.scanned).memoryLeaks = _
  rw [Diagnostics.memoryLeaks_pushAll, found, List.filter_append, leaks,
    List.filter_eq_nil_iff.2 fun d hd => ?_, List.append_nil]
  obtain ⟨x, -, rfl⟩ := List.mem_map.1 hd
  simp [Fault.diagnostic, Fault.category]

/-! ## Calls -/

theorem halt_diagnostics (s : Session π γ κ) : s.halt.diagnostics = s.diagnostics := rfl

theorem memoryLeaks_start (s : Session π γ κ) (program : Program)
    (annotations : Option (List InferredType)) :
    (s.start program annotations).diagnostics.memoryLeaks = [] := by
  unfold start
  dsimp only
  split
  · rfl
  · split <;> rfl

variable [Physics π] [Gateway γ] [Coordinator κ]

/-- A cycle does not warn of leaks. -/
theorem memoryLeaks_cycle (s : Session π γ κ) (i : Instruction) :
    (s.counted.step s.position i).session.diagnostics.memoryLeaks = s.diagnostics.memoryLeaks :=
  (step_unleaked s.counted s.position i).memoryLeaks

theorem Drives.memoryLeaks {rest : List Instruction} {s t : Session π γ κ} {trace : Trace π γ κ}
    (drives : Drives rest s trace t) :
    t.diagnostics.memoryLeaks =
      s.diagnostics.memoryLeaks ++ (trace.ended.map leakWarnings).getD [] := by
  induction drives with
  | finish s =>
    rw [halt_diagnostics]
    exact s.memoryLeaks_finalScan
  | @exhaust s i rest spent =>
    have limited : Gains (·.category ≠ .memoryLeak) s.diagnostics
        (s.diagnostics.push ((Fault.stepLimit s.settings.maxSteps).diagnostic i.location)) :=
      .push (by simp [Fault.diagnostic, Fault.category])
    exact limited.memoryLeaks.trans (List.append_nil _).symm
  | @ask s t i rest request within asked =>
    have stepped := s.memoryLeaks_cycle i
    rw [asked] at stepped
    exact stepped.trans (List.append_nil _).symm
  | @collapse s t i rest within passed =>
    have stepped := s.memoryLeaks_cycle i
    rw [passed] at stepped
    exact stepped.trans (List.append_nil _).symm
  | @pass s t u i rest trace within passed mild further ih =>
    have stepped := s.memoryLeaks_cycle i
    rw [passed] at stepped
    rw [ih]
    exact congrArg (· ++ _) stepped

/-- **A run warns of what its scan finds leaked**, if it comes to that, and of nothing else. -/
theorem memoryLeaks_run (s : Session π γ κ) (program : Program)
    (annotations : Option (List InferredType)) :
    (s.run program annotations).diagnostics.memoryLeaks =
      ((s.runEnd program annotations).map leakWarnings).getD [] := by
  rw [run, (driven _ _).memoryLeaks, memoryLeaks_start]
  rfl

/-- **An answer adds the warnings of the scan**, if it comes to that, and no others. -/
theorem memoryLeaks_resume (s : Session π γ κ) (id : Nat) (d : Decision) :
    (s.resume id d).2.diagnostics.memoryLeaks =
      s.diagnostics.memoryLeaks ++ ((s.resumeEnd id d).map leakWarnings).getD [] := by
  rcases s.resume_cases id d with ⟨traced, e, gateway, he⟩ | ⟨op, gateway, -, traced, he⟩ <;>
    rw [resumeEnd, traced, he]
  · exact (List.append_nil _).symm
  · rw [driveAfter, (driven _ _).memoryLeaks]
    exact congrArg (· ++ _) (s.acted_unleaked op gateway d).memoryLeaks

end Session

end GovernedQuantum
