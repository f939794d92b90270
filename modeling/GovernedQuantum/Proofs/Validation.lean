import GovernedQuantum.Proofs.Reporting

/-!
# Constraints in a session

A session evaluates the constraints on an instruction one after another. Each has a moment of its
own, since one on coherence takes a reading of the clock; beyond that the session only reports.

* `Session.findings`: what a list of constraints finds, in order.
* `Session.validateAll_eq_findings`: **to validate is to read the clock and to report the
  findings**, and an instruction is stopped by the errors among them, not by anything else.
* `Session.found_of_mem_findings`, `Session.mem_findings`: findings are those of the constraints,
  each at its moment.
-/

namespace GovernedQuantum

theorem Constraint.severity_of_finding {c : Constraint} {ctx : Context} {l : Location}
    {d : Diagnostic} (h : c.finding? ctx l = some d) :
    d.severity = if c.required then Severity.error else .warning := by
  obtain ⟨v, -, rfl⟩ := Option.map_eq_some_iff.1 h
  rfl

/-- Evaluated without a look at the clock. -/
def Constraint.isTimeless (c : Constraint) : Bool :=
  match c.kind with
  | .coherencePreservation _ => false
  | _ => true

namespace Session

variable {π γ κ : Type}

/-- What constraints find, each at its moment. -/
def findings (l : Location) : List Constraint → Session π γ κ → List Diagnostic
  | [], _ => []
  | c :: rest, s =>
    match s.evaluate c with
    | (none, s) => findings l rest s
    | (some v, s) =>
      v.diagnostic l c.required :: findings l rest (s.report (v.diagnostic l c.required))

/-- To evaluate a constraint is to ask it at a moment, and perhaps to read the clock. -/
theorem evaluate_at (s : Session π γ κ) (c : Constraint) :
    ∃ now n, s.evaluate c =
      (c.evaluate (s.tables.context now), { s with clock := s.clock.after n }) := by
  unfold evaluate
  split
  · exact ⟨s.clock.now, 1, rfl⟩
  · exact ⟨s.clock.now, 0, rfl⟩

/-- **To validate is to read the clock and to report the findings.** What stops an instruction is an
error among them. -/
theorem validateAll_eq_findings (l : Location) (cs : List Constraint) (s : Session π γ κ) :
    ∃ n, validateAll l cs s = ((findings l cs s).all (·.severity != .error),
      { s with
        clock := s.clock.after n
        diagnostics := s.diagnostics.pushAll (findings l cs s) }) := by
  induction cs generalizing s with
  | nil => exact ⟨0, rfl⟩
  | cons c rest ih =>
    obtain ⟨now, n, he⟩ := s.evaluate_at c
    rw [validateAll, findings, he]
    cases c.evaluate (s.tables.context now) with
    | none =>
      obtain ⟨m, ih⟩ := ih { s with clock := s.clock.after n }
      refine ⟨n + m, ?_⟩
      dsimp only
      rw [ih, Clock.after_after]
    | some v =>
      obtain ⟨m, ih⟩ := ih <|
        ({ s with clock := s.clock.after n } : Session π γ κ).report (v.diagnostic l c.required)
      refine ⟨n + m, ?_⟩
      dsimp only
      rw [ih]
      cases required : c.required <;>
        simp [report, Diagnostics.pushAll, Clock.after_after, Violation.diagnostic]

/-- A finding is that of a constraint at its moment. -/
theorem found_of_mem_findings {l : Location} {cs : List Constraint} {s : Session π γ κ}
    {d : Diagnostic} (h : d ∈ findings l cs s) :
    ∃ c ∈ cs, ∃ now, c.finding? (s.tables.context now) l = some d := by
  induction cs generalizing s with
  | nil => exact absurd h List.not_mem_nil
  | cons c rest ih =>
    obtain ⟨now, n, he⟩ := s.evaluate_at c
    have later {t : Session π γ κ} (hd : d ∈ findings l rest t) (tables : t.tables = s.tables) :
        ∃ c' ∈ c :: rest, ∃ now, c'.finding? (s.tables.context now) l = some d := by
      obtain ⟨c', hc', now, found⟩ := ih hd
      exact ⟨c', List.mem_cons_of_mem c hc', now, tables ▸ found⟩
    rw [findings, he] at h
    cases hv : c.evaluate (s.tables.context now) with
    | none =>
      rw [hv] at h
      exact later h rfl
    | some v =>
      rw [hv] at h
      rcases List.mem_cons.1 h with rfl | h
      · exact ⟨c, List.mem_cons_self, now, by rw [Constraint.finding?, hv]; rfl⟩
      · exact later h rfl

/-- Every constraint has a moment at which its finding counts. -/
theorem mem_findings (l : Location) {cs : List Constraint} (s : Session π γ κ) {c : Constraint}
    (hc : c ∈ cs) :
    ∃ now, ∀ d, c.finding? (s.tables.context now) l = some d → d ∈ findings l cs s := by
  induction cs generalizing s with
  | nil => exact absurd hc List.not_mem_nil
  | cons c' rest ih =>
    obtain ⟨now, n, he⟩ := s.evaluate_at c'
    rw [findings, he]
    rcases List.mem_cons.1 hc with rfl | hc
    · refine ⟨now, fun d hd => ?_⟩
      obtain ⟨v, hv, rfl⟩ := Option.map_eq_some_iff.1 hd
      rw [hv]
      exact List.mem_cons_self
    · cases c'.evaluate (s.tables.context now) with
      | none => exact ih { s with clock := s.clock.after n } hc
      | some v =>
        obtain ⟨now', found⟩ :=
          ih (({ s with clock := s.clock.after n } : Session π γ κ).report
            (v.diagnostic l c'.required)) hc
        exact ⟨now', fun d hd => List.mem_cons_of_mem _ (found d hd)⟩

/-- Constraints that do not look at the clock all have the same moment. -/
theorem findings_of_isTimeless (l : Location) {cs : List Constraint} (s : Session π γ κ)
    (timeless : ∀ c ∈ cs, c.isTimeless = true) :
    findings l cs s = cs.filterMap (·.finding? (s.tables.context s.clock.now) l) := by
  induction cs generalizing s with
  | nil => rfl
  | cons c rest ih =>
    obtain ⟨head, tail⟩ := List.forall_mem_cons.1 timeless
    have he : s.evaluate c = (c.evaluate (s.tables.context s.clock.now), s) := by
      unfold evaluate
      split
      · rename_i kind
        rw [Constraint.isTimeless, kind] at head
        exact absurd head (by simp)
      · rfl
    rw [findings, he, List.filterMap_cons, Constraint.finding?]
    cases c.evaluate (s.tables.context s.clock.now) with
    | none => exact ih s tail
    | some v => exact congrArg (List.cons _) (ih (s.report (v.diagnostic l c.required)) tail)

/-- A required constraint that fails at every moment stops the instruction. -/
theorem not_passed_of_violated {l : Location} {cs : List Constraint} {s : Session π γ κ}
    {c : Constraint} (hc : c ∈ cs) (required : c.required = true)
    (violated : ∀ now, c.evaluate (s.tables.context now) ≠ none) :
    (validateAll l cs s).1 = false := by
  obtain ⟨n, he⟩ := validateAll_eq_findings l cs s
  obtain ⟨now, found⟩ := mem_findings l s hc
  obtain ⟨v, hv⟩ := Option.ne_none_iff_exists'.1 (violated now)
  have error := found (v.diagnostic l c.required) (by rw [Constraint.finding?, hv]; rfl)
  rw [he, List.all_eq_false]
  exact ⟨_, error, by simp [Violation.diagnostic, required]⟩

/-- The checks after an instruction take one reading. -/
theorem checkAfter_clock (s : Session π γ κ) (i : Instruction) (approved : Bool) :
    (s.checkAfter i approved).clock = s.clock.after 1 := by
  have operands (names : List String) (now : Nat) (t : Session π γ κ) :
      (names.foldl (checkOperand i now) t).clock = t.clock := by
    induction names generalizing t with
    | nil => rfl
    | cons name rest ih =>
      refine (ih _).trans ?_
      unfold checkOperand
      split <;> rfl
  have oversight (t : Session π γ κ) : (t.checkOversight i approved).clock = t.clock := by
    unfold checkOversight
    split
    · split <;> rfl
    · rfl
  exact (oversight _).trans (operands i.interactionOperands s.readClock.1 s.readClock.2)

end Session

end GovernedQuantum
