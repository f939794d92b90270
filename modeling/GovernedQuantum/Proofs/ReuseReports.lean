import GovernedQuantum.Proofs.Tallies

/-!
# Reports of reuse

A qudit is reused where an instruction works on it after another one has consumed it. The checker
reports that at the instruction, and counts once more at the end; a count that was answered for by a
report is passed over. This file shows that nothing is left for the count to say: **the checker
reports reuse exactly once for each operand that is reused**, whatever else is wrong with the
program. Instructions that are not typed neither consume nor report.

* `Findings.diagnostics_foldl`: what a sequence of evaluations finds, if its counts are answered
  for.
* `usesBehind`: how often a qudit has been consumed. `usesBehind_succ`: the replay adds up the uses
  of the typed nodes.
* `exists_reuse_of_twice`: a qudit that is consumed twice is reused.
* `reuseReports`: what is to be reported. `noCloning_errors_check`: **and is.**
-/

namespace GovernedQuantum

/-! ## Findings of a sequence of evaluations -/

/-- The qudit that must not have been consumed yet. -/
def ConstraintKind.unused? : ConstraintKind → Option String
  | .noCloning r .operation => some r
  | _ => none

/-- The qudit whose uses in the whole program are counted. -/
def ConstraintKind.total? : ConstraintKind → Option String
  | .noCloning r .program => some r
  | _ => none

theorem ConstraintKind.unused?_eq_some {kind : ConstraintKind} {r : String} :
    kind.unused? = some r ↔ kind = .noCloning r .operation := by
  unfold unused?
  split <;> simp_all

theorem ConstraintKind.total?_eq_some {kind : ConstraintKind} {r : String} :
    kind.total? = some r ↔ kind = .noCloning r .program := by
  unfold total?
  split <;> simp_all

section

variable (views : EntityViews) (budget : Nat) (nodes : List (Node × InferredType))

namespace Findings

/-- Reuse is noted exactly where it is found. -/
theorem mem_reused_evaluate (f : Findings) (ev : Evaluation) (r : String) :
    r ∈ (f.evaluate views budget nodes ev).reused ↔
      r ∈ f.reused ∨ ev.constraint.kind.unused? = some r ∧
      ev.finding? views budget nodes ≠ none := by
  unfold evaluate judge
  rw [ConstraintKind.unused?_eq_some]
  split
  · -- a count that is passed over
    rename_i covered
    refine ⟨.inl, Or.rec id ?_⟩
    rintro ⟨kind, -⟩
    rw [kind] at covered
    exact absurd covered (by simp [covers])
  · split
    · rename_i silent
      refine ⟨.inl, Or.rec id ?_⟩
      rintro ⟨-, found⟩
      exact absurd silent found
    · rename_i d found
      have some : ev.finding? views budget nodes ≠ none := by
        rw [Evaluation.finding?, found]
        exact Option.some_ne_none d
      show r ∈ f.note ev.constraint.kind ↔ _
      unfold note
      split
      · rename_i r' kind
        rw [List.mem_cons, kind, or_comm]
        refine or_congr_right ⟨fun same => ⟨same ▸ rfl, some⟩, ?_⟩
        rintro ⟨same, -⟩
        exact (ConstraintKind.noCloning.inj same).1.symm
      · rename_i other
        exact ⟨.inl, Or.rec id fun h => absurd h.1 (other r)⟩

theorem mem_reused_foldl (f : Findings) (evs : List Evaluation) (r : String) :
    r ∈ (evs.foldl (evaluate views budget nodes) f).reused ↔
      r ∈ f.reused ∨
        ∃ ev ∈ evs, ev.constraint.kind.unused? = some r ∧
        ev.finding? views budget nodes ≠ none := by
  induction evs generalizing f with
  | nil => simp
  | cons ev rest ih =>
    rw [List.foldl_cons, ih, mem_reused_evaluate, or_assoc]
    simp only [List.mem_cons, or_and_right, exists_or, exists_eq_left]

/-- What an evaluation adds where the count over the whole program is answered for. -/
theorem diagnostics_evaluate {f : Findings} {ev : Evaluation}
    (answered : ∀ r, ev.constraint.kind.total? = some r → ev.finding? views budget nodes ≠ none →
      r ∈ f.reused) :
    (f.evaluate views budget nodes ev).diagnostics.toList =
      f.diagnostics.toList ++
        if ev.constraint.kind.total?.isSome then []
        else (ev.finding? views budget nodes).toList := by
  unfold evaluate judge
  cases total : ev.constraint.kind.total? with
  | some r =>
    rw [Option.isSome_some, if_pos rfl, List.append_nil]
    split
    · rfl
    · rename_i uncovered
      split
      · rfl
      · rename_i d found
        have reused : r ∈ f.reused := by
          apply answered r total
          rw [Evaluation.finding?, found]
          exact Option.some_ne_none d
        rw [ConstraintKind.total?_eq_some.1 total] at uncovered
        exact absurd (List.contains_iff_mem.2 reused) uncovered
  | none =>
    have uncovered : ¬ f.covers ev.constraint.kind = true := by
      unfold covers
      split
      · rename_i r kind
        rw [kind] at total
        exact absurd total (by simp [ConstraintKind.total?])
      · exact Bool.false_ne_true
    rw [if_neg uncovered, Evaluation.finding?]
    split
    · rename_i silent
      simp [silent]
    · rename_i d found
      simp [found]

/-- **What a sequence of evaluations finds**, if its counts over the whole program are answered for:
all that its evaluations find, but for these counts. -/
theorem diagnostics_foldl {f : Findings} {evs : List Evaluation}
    (answered : ∀ ev ∈ evs, ∀ r, ev.constraint.kind.total? = some r →
      ev.finding? views budget nodes ≠ none → r ∈ f.reused) :
    (evs.foldl (evaluate views budget nodes) f).diagnostics.toList =
      f.diagnostics.toList ++ evs.flatMap fun ev =>
        if ev.constraint.kind.total?.isSome then []
        else (ev.finding? views budget nodes).toList := by
  induction evs generalizing f with
  | nil => simp
  | cons ev rest ih =>
    obtain ⟨first, others⟩ := List.forall_mem_cons.1 answered
    rw [List.foldl_cons, ih, diagnostics_evaluate views budget nodes first, List.flatMap_cons,
      List.append_assoc]
    intro ev' hev' r total found
    exact (mem_reused_evaluate views budget nodes f ev r).2 (.inl (others ev' hev' r total found))

end Findings

end

/-! ## Adding up uses -/

theorem Facts.counts_consumed : Facts.Counts Facts.consumed Bool.toNat where
  none := rfl
  interact f consuming entangles := by cases consuming <;> rfl

section

variable (views : EntityViews) (options : CheckOptions) (budget : Nat) {nodes : List Node}

/-- The uses behind the first `k` nodes of a program. -/
def usesBehind (views : EntityViews) (options : CheckOptions) (budget : Nat)
    (nodes : List Node) (k : Nat) (r : String) : Nat :=
  (replayBehind views budget (annotated views options nodes) k).facts.tally Facts.consumed r

/-- **The replay adds up the uses of the typed nodes.** -/
theorem usesBehind_succ {k : Nat} {nt : Node × InferredType}
    (here : (annotated views options nodes)[k]? = some nt) (r : String) :
    usesBehind views options budget nodes (k + 1) r =
      usesBehind views options budget nodes k r +
        if nt.2.isUnknown then 0 else nt.1.weigh Bool.toNat r :=
  tally_replayBehind_succ Facts.counts_consumed views options budget here r

/-- **A qudit that is consumed twice is reused**, where no node consumes it twice by itself. -/
theorem exists_reuse_of_twice (single : ∀ node ∈ nodes, ∀ r, node.weigh Bool.toNat r ≤ 1) {n : Nat}
    (hn : n ≤ nodes.length) {r : String} (twice : 1 < usesBehind views options budget nodes n r) :
    ∃ k < n, ∃ nt, (annotated views options nodes)[k]? = some nt ∧ nt.2.isUnknown = false ∧
      0 < nt.1.weigh Bool.toNat r ∧ 0 < usesBehind views options budget nodes k r := by
  induction n with
  | zero => exact absurd twice (Nat.not_lt_zero 1)
  | succ n ih =>
    have hn' : n < (annotated views options nodes).length := by
      rw [length_annotated]
      omega
    obtain ⟨nt, here⟩ : ∃ nt, (annotated views options nodes)[n]? = some nt :=
      ⟨_, List.getElem?_eq_getElem hn'⟩
    rw [usesBehind_succ views options budget here] at twice
    by_cases before : 1 < usesBehind views options budget nodes n r
    · obtain ⟨k, hk, rest⟩ := ih (by omega) before
      exact ⟨k, by omega, rest⟩
    · -- the second use is the one of this node
      have once := single nt.1 (List.mem_of_getElem? (getElem?_annotated views options here).1) r
      cases typed : nt.2.isUnknown with
      | true =>
        rw [typed, if_pos rfl] at twice
        omega
      | false =>
        rw [typed, if_neg Bool.false_ne_true] at twice
        exact ⟨n, by omega, nt, here, typed, by omega, by omega⟩

end

/-! ## Operands -/

/-- **A typed node must find its operands unused**, one constraint an operand and in their order. -/
theorem unused_infer {views : EntityViews} {options : CheckOptions} {σ : Symbols} {node : Node} :
    (infer views options σ node).type.constraints.filterMap (·.kind.unused?) =
      if (infer views options σ node).type.isUnknown then [] else node.operands := by
  have silent (c : Constraint) (other : c.kind.operand? = none) (_ : c.required = true) :
      c.kind.unused? = none := by
    cases unused : c.kind.unused? with
    | none => rfl
    | some r =>
      rw [ConstraintKind.unused?_eq_some.1 unused] at other
      exact absurd other (by simp [ConstraintKind.operand?])
  have each (r : String) : ((Constraint.noCloning r .operation).kind.unused?).toList ++
      (if node.opcode = .measure then []
        else ((Constraint.coherencePreservation r).kind.unused?).toList) = [r] := by
    split <;> rfl
  rw [filterMap_infer silent]
  simp only [each, List.flatMap_singleton']

/-! ## Findings on reuse -/

/-- **Reuse as it is reported.** -/
def alreadyConsumed (r : String) (l : Location) : Diagnostic where
  severity := .error
  category := .quantumViolation
  location := l
  message := s!"resource '{r}' was already consumed"
  suggestion := some "a qudit cannot be used after it is measured, released or teleported"

theorem Constraint.finding?_unused (r : String) (ctx : Context) (l : Location) :
    (Constraint.noCloning r .operation).finding? ctx l =
      if 0 < ctx.consumedCount r then some (alreadyConsumed r l) else none := by
  unfold finding? evaluate noCloning violation?
  dsimp only
  split <;> rfl

theorem isNoCloning_alreadyConsumed (r : String) (l : Location) :
    (alreadyConsumed r l).IsNoCloning := by
  let ctx : Context := ⟨fun _ => 1, fun _ => true, fun _ => true, fun _ => true, fun _ => none⟩
  exact ⟨r, .operation, ctx, l, (Constraint.finding?_unused r ctx l).trans (if_pos Nat.one_pos)⟩

/-- The finding of a count comes with other advice. -/
theorem Constraint.suggestion_total {r : String} {ctx : Context} {l : Location} {d : Diagnostic}
    (found : (Constraint.noCloning r .program).finding? ctx l = some d) :
    d.suggestion = some "declare a separate qudit for each measure, release or teleport" := by
  obtain ⟨v, hv, rfl⟩ := Option.map_eq_some_iff.1 found
  simp only [evaluate, noCloning, violation?, Option.ite_none_right_eq_some,
    Option.some.injEq] at hv
  rw [← hv.2]
  rfl

/-- What findings on reuse look like. -/
theorem Diagnostic.IsNoCloning.shape {d : Diagnostic} (h : d.IsNoCloning) :
    d.category = .quantumViolation ∧ Opens "resource '" d.message ∧
      d.suggestion ∈ [some "a qudit cannot be used after it is measured, released or teleported",
        some "declare a separate qudit for each measure, release or teleport"] := by
  obtain ⟨r, scope, ctx, l, found⟩ := h
  cases scope with
  | operation =>
    rw [Constraint.finding?_unused, Option.ite_none_right_eq_some] at found
    obtain ⟨-, same⟩ := found
    obtain rfl := Option.some.inj same
    refine ⟨rfl, ?_, List.mem_cons_self⟩
    unfold alreadyConsumed
    simp only [String.append_assoc]
    exact Opens.append (by decide +kernel) _
  | program =>
    have advice := Constraint.suggestion_total found
    obtain ⟨v, hv, rfl⟩ := Option.map_eq_some_iff.1 found
    simp only [Constraint.evaluate, Constraint.noCloning, Constraint.violation?,
      Option.ite_none_right_eq_some, Option.some.injEq] at hv
    obtain ⟨-, rfl⟩ := hv
    refine ⟨rfl, ?_, List.mem_cons_of_mem _ (List.mem_singleton.2 advice)⟩
    simp only [Violation.diagnostic, String.append_assoc]
    exact Opens.append (by decide +kernel) _

/-- **No other constraint finds reuse.** -/
theorem Constraint.not_isNoCloning {c : Constraint} {ctx : Context} {l : Location} {d : Diagnostic}
    (other : ∀ r scope, c.kind ≠ .noCloning r scope) (found : c.finding? ctx l = some d) :
    ¬ d.IsNoCloning := by
  intro reuse
  obtain ⟨category, opens, advice⟩ := reuse.shape
  obtain ⟨v, hv, rfl⟩ := Option.map_eq_some_iff.1 found
  obtain ⟨kind, phase, description, required⟩ := c
  cases kind with
  | noCloning r scope => exact other r scope rfl
  | memorySafety r =>
    simp only [evaluate, violation?, Option.ite_none_left_eq_some, Option.some.injEq] at hv
    obtain ⟨-, rfl⟩ := hv
    exact absurd advice (by simp [Violation.diagnostic])
  | coherencePreservation r =>
    simp only [evaluate, violation?, Option.ite_none_left_eq_some, Option.some.injEq] at hv
    obtain ⟨-, rfl⟩ := hv
    exact absurd advice (by simp [Violation.diagnostic])
  | entanglementConsistency r partners =>
    simp only [evaluate, violation?] at hv
    split at hv
    · exact absurd hv (by simp)
    · rename_i p _
      obtain rfl := Option.some.inj hv
      have opens' : Opens "partner '" s!"partner '{p}' of '{r}' is not entangled" := by
        simp only [String.append_assoc]
        exact Opens.append (by decide +kernel) _
      have apart : ¬ Opens "partner '" "resource '" ∧ ¬ Opens "resource '" "partner '" := by
        decide +kernel
      exact (List.prefix_or_prefix_of_prefix opens' opens).elim apart.1 apart.2
  | explainability e | compliance e | humanOversight e | humanApproval e =>
    have quantum : v.category = .quantumViolation := category
    simp only [evaluate, violation?, onEntity] at hv
    split at hv
    · obtain rfl := Option.some.inj hv
      exact absurd quantum (by simp [undeclared])
    · simp only [Option.ite_none_left_eq_some, Option.ite_none_right_eq_some,
        Option.some.injEq] at hv
      rw [← hv.2] at quantum
      exact absurd quantum (by simp)

/-- Nor does inference. -/
theorem Reported.not_isNoCloning {l : Location} {d : Diagnostic} (h : Reported l d) :
    ¬ d.IsNoCloning := by
  intro reuse
  obtain ⟨category, -, advice⟩ := reuse.shape
  cases h with
  | window message => exact absurd category (by simp)
  | issue i =>
    cases i with
    | selfInteraction op name =>
      exact absurd advice (by simp [TypeIssue.diagnostic, TypeIssue.suggestion])
    | _ => exact absurd category (by simp [TypeIssue.diagnostic, TypeIssue.category])

/-! ## Reports of a replay -/

section

variable (views : EntityViews) (options : CheckOptions) (budget : Nat) {nodes : List Node}

/-- The reuse that an evaluation reports. -/
def Evaluation.reuse (nodes : List Node) (ev : Evaluation) : List Diagnostic :=
  ev.constraint.kind.unused?.elim [] fun r =>
    if 0 < usesBehind views options budget nodes ev.behind r then
      [alreadyConsumed r ev.node.location]
    else []

theorem constraint_of_unused {ev : Evaluation}
    (hev : ev ∈ evaluations (annotated views options nodes)) {r : String}
    (unused : ev.constraint.kind.unused? = some r) : ev.constraint = .noCloning r .operation := by
  obtain ⟨k, -, -, founded⟩ := founded_of_mem_evaluations views options hev
  exact founded.counted r .operation (ConstraintKind.unused?_eq_some.1 unused)

theorem finding?_of_unused {ev : Evaluation}
    (hev : ev ∈ evaluations (annotated views options nodes)) {r : String}
    (unused : ev.constraint.kind.unused? = some r) :
    ev.finding? views budget (annotated views options nodes) =
      if 0 < usesBehind views options budget nodes ev.behind r then
        some (alreadyConsumed r ev.node.location) else none := by
  rw [Evaluation.finding?, constraint_of_unused views options hev unused,
    Constraint.finding?_unused]
  rfl

open Classical in
/-- Of what an evaluation finds, a count apart, the rest is not on reuse. -/
theorem filter_finding? {ev : Evaluation} (hev : ev ∈ evaluations (annotated views options nodes)) :
    (if ev.constraint.kind.total?.isSome then []
      else (ev.finding? views budget (annotated views options nodes)).toList).filter
        (fun d => d.IsNoCloning) = ev.reuse views options budget nodes := by
  unfold Evaluation.reuse
  cases unused : ev.constraint.kind.unused? with
  | some r =>
    have kind := ConstraintKind.unused?_eq_some.1 unused
    have finding := finding?_of_unused views options budget hev unused
    have total : ev.constraint.kind.total? = none := by rw [kind]; rfl
    rw [total, Option.isSome_none, if_neg Bool.false_ne_true, finding, Option.elim_some]
    split
    · simp [isNoCloning_alreadyConsumed]
    · rfl
  | none =>
    apply List.filter_eq_nil_iff.2
    intro d hd
    rw [decide_eq_true_eq]
    cases total : ev.constraint.kind.total? with
    | some r =>
      rw [total] at hd
      exact absurd hd List.not_mem_nil
    | none =>
      rw [total, Option.isSome_none, if_neg Bool.false_ne_true] at hd
      refine Constraint.not_isNoCloning (fun r scope kind => ?_) (Option.mem_toList.1 hd)
      cases scope with
      | operation =>
        rw [kind] at unused
        exact absurd unused (by simp [ConstraintKind.unused?])
      | program =>
        rw [kind] at total
        exact absurd total (by simp [ConstraintKind.total?])

/-- Every operand of a typed node is asked for before the node takes effect. -/
theorem exists_evaluation_of_operand {j : Nat} {nt : Node × InferredType}
    (here : (annotated views options nodes)[j]? = some nt) (typed : nt.2.isUnknown = false)
    {r : String} (operand : r ∈ nt.1.operands) :
    ∃ c : Constraint, c.kind.unused? = some r ∧
      (⟨j, nt.1, c⟩ : Evaluation) ∈ walkEvaluations nodes.length
        (annotated views options nodes) := by
  obtain ⟨-, type⟩ := getElem?_annotated views options here
  have owed : r ∈ nt.2.constraints.filterMap (·.kind.unused?) := by
    rw [type] at typed ⊢
    rw [typeAfter, unused_infer, ← typeAfter, typed]
    exact operand
  obtain ⟨c, hc, unused⟩ := List.mem_filterMap.1 owed
  have counted : c = .noCloning r .operation := by
    rw [type] at hc
    exact (founded_of_mem_constraints hc).counted r .operation
      (ConstraintKind.unused?_eq_some.1 unused)
  refine ⟨c, unused, List.mem_flatMap.2 ⟨(nt, j), List.mk_mem_zipIdx_iff_getElem?.2 here, ?_⟩⟩
  exact List.mem_append_left _ (Evaluation.mem_ofNode.2 ⟨hc, by rw [counted]; rfl, rfl, rfl⟩)

/-- **Every count over the whole program is answered for** by a report of reuse. -/
theorem answered_of_single (single : ∀ node ∈ nodes, ∀ r, node.weigh Bool.toNat r ≤ 1)
    {ev : Evaluation} (hev : ev ∈ evaluations (annotated views options nodes)) {r : String}
    (total : ev.constraint.kind.total? = some r)
    (found : ev.finding? views budget (annotated views options nodes) ≠ none) :
    ∃ ev' ∈ walkEvaluations nodes.length (annotated views options nodes),
      ev'.constraint.kind.unused? = some r ∧
        ev'.finding? views budget (annotated views options nodes) ≠ none := by
  obtain ⟨k, -, behind, founded⟩ := founded_of_mem_evaluations views options hev
  have count := founded.counted r .program (ConstraintKind.total?_eq_some.1 total)
  rw [count] at behind
  have twice : 1 < usesBehind views options budget nodes nodes.length r := by
    by_contra once
    apply found
    rw [Evaluation.finding?, count, behind]
    exact Option.map_eq_none_iff.2 (Constraint.upheld_total.2 (Nat.le_of_not_lt once) rfl)
  obtain ⟨j, hj, nt, here, typed, used, before⟩ :=
    exists_reuse_of_twice views options budget single (Nat.le_refl _) twice
  -- the node at `j` must find its operand unused, and does not
  obtain ⟨c, unused, mem⟩ :=
    exists_evaluation_of_operand views options here typed (Node.mem_operands_of_weigh used)
  have walked : (⟨j, nt.1, c⟩ : Evaluation) ∈ evaluations (annotated views options nodes) := by
    rw [evaluations, length_annotated]
    exact List.mem_append_left _ mem
  refine ⟨_, mem, unused, ?_⟩
  rw [finding?_of_unused views options budget walked unused, if_pos before]
  exact Option.some_ne_none _

/-- Counts over the whole program are left to the last pass. -/
theorem total?_of_mem_walk {ev : Evaluation}
    (hev : ev ∈ walkEvaluations nodes.length (annotated views options nodes)) :
    ev.constraint.kind.total? = none := by
  have walked : ev ∈ evaluations (annotated views options nodes) := by
    rw [evaluations, length_annotated]
    exact List.mem_append_left _ hev
  obtain ⟨k, -, -, founded⟩ := founded_of_mem_evaluations views options walked
  cases total : ev.constraint.kind.total? with
  | none => rfl
  | some r =>
    have count := founded.counted r .program (ConstraintKind.total?_eq_some.1 total)
    obtain ⟨x, -, hev⟩ := List.mem_flatMap.1 hev
    rcases List.mem_append.1 hev with hev | hev
    · exact absurd (Evaluation.mem_ofNode.1 hev).2.1 (by simp [count])
    · exact absurd (Evaluation.mem_ofNode.1 hev).2.1 (by simp [count])

open Classical in
/-- **The reuse that a replay reports is what its evaluations report.** -/
theorem filter_replay (single : ∀ node ∈ nodes, ∀ r, node.weigh Bool.toNat r ≤ 1) :
    (replay views budget (annotated views options nodes)).diagnostics.toList.filter
        (fun d => d.IsNoCloning) =
      (evaluations (annotated views options nodes)).flatMap fun ev =>
        ev.reuse views options budget nodes := by
  have walk : ∀ ev ∈ walkEvaluations nodes.length (annotated views options nodes), ∀ r,
      ev.constraint.kind.total? = some r →
        ev.finding? views budget (annotated views options nodes) ≠ none →
        r ∈ ({} : Findings).reused := by
    intro ev hev r total
    exact absurd (total.symm.trans (total?_of_mem_walk views options hev)) (by simp)
  have last : ∀ ev ∈ lastEvaluations (annotated views options nodes), ∀ r,
      ev.constraint.kind.total? = some r →
        ev.finding? views budget (annotated views options nodes) ≠ none →
          r ∈ ((walkEvaluations nodes.length (annotated views options nodes)).foldl
            (Findings.evaluate views budget (annotated views options nodes)) {}).reused := by
    intro ev hev r total found
    apply (Findings.mem_reused_foldl ..).2
    exact .inr
      (answered_of_single views options budget single (List.mem_append_right _ hev) total found)
  rw [replay_eq_foldl _ _ _ (silent_annotated views options nodes), evaluations, length_annotated,
    List.foldl_append, Findings.diagnostics_foldl _ _ _ last, Findings.diagnostics_foldl _ _ _ walk,
    List.nil_append, ← List.flatMap_append, List.filter_flatMap]
  apply List.flatMap_congr
  intro ev hev
  exact filter_finding? views options budget (by rwa [evaluations, length_annotated])

/-- A typed node of `before` consumes the qudit. -/
def consumedIn (before : List (Node × InferredType)) (r : String) : Bool :=
  before.any fun nt => !nt.2.isUnknown && decide (0 < nt.1.weigh Bool.toNat r)

/-- A qudit has been consumed where a typed node before consumes it. -/
theorem usesBehind_pos_iff {k : Nat} (hk : k ≤ nodes.length) (r : String) :
    0 < usesBehind views options budget nodes k r ↔
      consumedIn ((annotated views options nodes).take k) r = true := by
  induction k with
  | zero => exact iff_of_false (Nat.lt_irrefl 0) Bool.false_ne_true
  | succ k ih =>
    have hk' : k < (annotated views options nodes).length := by
      rw [length_annotated]
      omega
    have here := List.getElem?_eq_getElem hk'
    rw [usesBehind_succ views options budget here, Nat.add_pos_iff_pos_or_pos,
      ih (by omega), consumedIn, consumedIn, List.take_add_one, here, Option.toList_some,
      List.any_append, Bool.or_eq_true]
    refine or_congr_right ?_
    cases unknown : (annotated views options nodes)[k].2.isUnknown with
    | true => simp [unknown]
    | false => simp [unknown]

/-- The reuse that is reported at a node behind `before`. -/
def nodeReuse (before : List (Node × InferredType)) (nt : Node × InferredType) : List Diagnostic :=
  if nt.2.isUnknown then []
  else (nt.1.operands.filter fun r => consumedIn before r).map (alreadyConsumed · nt.1.location)

theorem flatMap_reuse {k : Nat} {nt : Node × InferredType}
    (here : (annotated views options nodes)[k]? = some nt) :
    (nt.2.constraints.flatMap fun c =>
        (⟨k, nt.1, c⟩ : Evaluation).reuse views options budget nodes) =
      nodeReuse ((annotated views options nodes).take k) nt := by
  obtain ⟨hn, type⟩ := getElem?_annotated views options here
  have operands : nt.2.constraints.filterMap (·.kind.unused?) =
      if nt.2.isUnknown then [] else nt.1.operands := by
    rw [type]
    exact unused_infer
  have hk : k ≤ nodes.length := Nat.le_of_lt (List.getElem?_eq_some_iff.1 hn).1
  simp only [Evaluation.reuse, usesBehind_pos_iff views options budget hk]
  rw [flatMap_elim, operands, nodeReuse]
  split
  · rfl
  · exact flatMap_ite_singleton _ _ _

open Classical in
/-- **The reuse that a replay reports**, node by node. -/
theorem filter_replay_eq (single : ∀ node ∈ nodes, ∀ r, node.weigh Bool.toNat r ≤ 1) :
    (replay views budget (annotated views options nodes)).diagnostics.toList.filter
        (fun d => d.IsNoCloning) =
      alongside nodeReuse (annotated views options nodes) := by
  have pre : ∀ nt ∈ annotated views options nodes, ∀ c ∈ nt.2.constraints, c.phase ≠ .pre → ∀ k,
      (⟨k, nt.1, c⟩ : Evaluation).reuse views options budget nodes = [] := by
    rintro ⟨node, type⟩ hnt c hc phase k
    obtain ⟨j, here⟩ := List.getElem?_of_mem hnt
    obtain ⟨-, rfl⟩ := getElem?_annotated views options here
    unfold Evaluation.reuse
    cases unused : c.kind.unused? with
    | none => rfl
    | some r =>
      have counted := (founded_of_mem_constraints hc).counted r .operation
        (ConstraintKind.unused?_eq_some.1 unused)
      exact absurd (congrArg Constraint.phase counted) phase
  rw [filter_replay views options budget single, flatMap_evaluations pre]
  apply List.flatMap_congr
  intro x hx
  exact flatMap_reuse views options budget (List.mk_mem_zipIdx_iff_getElem?.1 hx)

end

/-! ## Programs -/

namespace Instruction

/-- The operands that an instruction of `before` has consumed, as they are reported. -/
def reuse (before : List Instruction) (i : Instruction) : List Diagnostic :=
  (i.resources.filter fun r => Consumed before r).map (alreadyConsumed · i.location)

variable (lines : Array (List Char)) (partners : Partners) (i : Instruction)

theorem weigh_node_pos_iff (r : String) :
    0 < (i.node lines partners).weigh Bool.toNat r ↔ i.Consumes r := by
  unfold node Node.weigh Consumes resources
  cases op : i.opcode <;> simp [Metadata.ofInstruction, op, Opcode.isConsuming]

/-- What consumes a qudit has no other operand. -/
theorem weigh_node_le (r : String) : (i.node lines partners).weigh Bool.toNat r ≤ 1 := by
  unfold node Node.weigh
  cases op : i.opcode with
  | measure | release | teleport =>
    simp only [Metadata.ofInstruction, op, Opcode.isConsuming, Bool.toNat_true, Nat.one_mul]
    exact List.count_le_length
  | _ => simp [Metadata.ofInstruction, op, Opcode.isConsuming]

end Instruction

/-- **What is to be reported** of operations: each operand of each that one before it has
consumed. -/
def reuseReports (operations : List Instruction) : List Diagnostic :=
  alongside Instruction.reuse operations

section

variable {lines : Array (List Char)} {partners : Partners}

/-- Among typed instructions, those that consume are operations. -/
theorem consumedIn_instructions (before : List (Instruction × InferredType)) (r : String) :
    consumedIn (before.map (Prod.map (·.node lines partners) id)) r =
      decide (Consumed ((before.filter isTypedOperation).map Prod.fst) r) := by
  rw [Bool.eq_iff_iff, decide_eq_true_eq, consumedIn, List.any_map, List.any_eq_true]
  simp only [Function.comp_apply, Prod.map_fst, Prod.map_snd, id_eq, Bool.and_eq_true,
    Bool.not_eq_true', decide_eq_true_eq, Instruction.weigh_node_pos_iff]
  constructor
  · rintro ⟨x, hx, typed, consumes⟩
    have operation : isTypedOperation x = true := by
      simp [isTypedOperation, typed, List.ne_nil_of_mem consumes.2]
    exact ⟨x.1, List.mem_map_of_mem (List.mem_filter.2 ⟨hx, operation⟩), consumes⟩
  · rintro ⟨i, hi, consumes⟩
    obtain ⟨x, hx, rfl⟩ := List.mem_map.1 hi
    obtain ⟨hx, operation⟩ := List.mem_filter.1 hx
    exact ⟨x, hx, by simpa using (Bool.and_eq_true_iff.1 operation).1, consumes⟩

/-- What is reported at the node of an instruction, if that is a typed operation. -/
theorem nodeReuse_instruction (before : List (Instruction × InferredType))
    (x : Instruction × InferredType) :
    nodeReuse (before.map (Prod.map (·.node lines partners) id))
        (Prod.map (·.node lines partners) id x) =
      if isTypedOperation x then x.1.reuse ((before.filter isTypedOperation).map Prod.fst)
      else [] := by
  have location : (x.1.node lines partners).location = x.1.location := rfl
  simp only [nodeReuse, Prod.map_fst, Prod.map_snd, id_eq, Instruction.operands_node, location,
    consumedIn_instructions, Instruction.reuse]
  cases unknown : x.2.isUnknown with
  | true => simp [isTypedOperation, unknown]
  | false =>
    by_cases operation : x.1.resources = []
    · simp [isTypedOperation, operation]
    · simp [isTypedOperation, unknown, operation]

variable {views : EntityViews} {options : CheckOptions} {is : List Instruction}

open Classical in
/-- The reuse that the replay of a program reports is what is to be reported of its typed
operations. -/
theorem filter_replay_instructions (budget : Nat) :
    (replay views budget (annotated views options
        (is.map (·.node lines partners)))).diagnostics.toList.filter (fun d => d.IsNoCloning) =
      reuseReports (typedOperations is) := by
  have single : ∀ node ∈ is.map (·.node lines partners), ∀ r, node.weigh Bool.toNat r ≤ 1 := by
    intro node hn r
    obtain ⟨i, -, rfl⟩ := List.mem_map.1 hn
    exact i.weigh_node_le lines partners r
  rw [filter_replay_eq views options budget single, annotated_instructions, alongside_map,
    alongside_filter nodeReuse_instruction, map_filter_typedInstructions]
  rfl

end

open Classical in
/-- **The checker reports reuse exactly once for each operand that is reused.** Of all programs,
whatever else is wrong with them: an operation on qudits is typed exactly where its operands are
allocated before it. The errors on reuse are, in the order of the instructions, one for each operand
of a typed operation that a typed operation before it has consumed, and stand where that operation
stands. The count at the end adds nothing: no finding is one of a count. -/
theorem noCloning_errors_check (is : List Instruction) (source : String) (options : CheckOptions) :
    let report := check (Node.ofInstructions is source) options
    report.TypesOperations is ∧
      report.diagnostics.errors.toList.filter (fun d => d.IsNoCloning) =
        reuseReports (typedOperations is) ∧
      ∀ d, d ∈ report.diagnostics.errors ∨ d ∈ report.diagnostics.warnings → ∀ r ctx l,
        (Constraint.noCloning r .program).finding? ctx l ≠ some d := by
  intro report
  have found : (foundIn (Node.ofInstructions is source) options).filter (fun d => d.IsNoCloning) =
      reuseReports (typedOperations is) := by
    rw [foundIn, List.filter_append, List.filter_eq_nil_iff.2, List.nil_append]
    · exact filter_replay_instructions options.maxCoherentOperations
    · intro d hd
      obtain ⟨node, -, reported⟩ := reported_inferAll hd
      simpa using reported.not_isNoCloning
  have errors : report.diagnostics.errors.toList.filter (fun d => d.IsNoCloning) =
      (foundIn (Node.ofInstructions is source) options).filter (fun d => d.IsNoCloning) := by
    rw [errors_check, List.filter_filter]
    apply List.filter_congr
    intro d _
    by_cases reuse : d.IsNoCloning
    · simp [reuse, reuse.severity]
    · simp [reuse]
  refine ⟨typesOperations_check is source options, errors.trans found, ?_⟩
  intro d hd r ctx l count
  have reuse : d.IsNoCloning := ⟨r, .program, ctx, l, count⟩
  have listed : d ∈ reuseReports (typedOperations is) := by
    rw [← found, List.mem_filter]
    exact ⟨mem_foundIn_iff.1 hd, decide_eq_true reuse⟩
  obtain ⟨x, -, hd⟩ := List.mem_flatMap.1 listed
  obtain ⟨r', -, rfl⟩ := List.mem_map.1 hd
  exact absurd (Constraint.suggestion_total count) (by simp [alreadyConsumed])

/-- A qudit is named twice after it was measured; another is released before it is allocated. -/
def twiceAfter : List Instruction :=
  [⟨.allocQudit, ["a", "2"], ⟨1, 1⟩⟩, ⟨.measure, ["a"], ⟨2, 1⟩⟩, ⟨.release, ["b"], ⟨3, 1⟩⟩,
    ⟨.entangle, ["a", "a"], ⟨4, 1⟩⟩, ⟨.allocQudit, ["b", "2"], ⟨5, 1⟩⟩, ⟨.measure, ["b"], ⟨6, 1⟩⟩]

open Classical in
/-- Each mention is reported, and the release that was not typed has consumed nothing. -/
theorem noCloning_errors_check_twiceAfter :
    let report := check (Node.ofInstructions twiceAfter "") {}
    report.types.map (·.isUnknown) = [false, false, true, false, false, false] ∧
      report.diagnostics.errors.toList.filter (fun d => d.IsNoCloning) =
        [alreadyConsumed "a" ⟨4, 1⟩, alreadyConsumed "a" ⟨4, 1⟩] ∧
      report.diagnostics.errors.toList.map (fun d => (d.location, d.message)) =
        [(⟨3, 1⟩, "unresolved resource 'b'"),
          (⟨4, 1⟩, "'entangle' needs two distinct resources, got 'a' twice"),
          (⟨4, 1⟩, "resource 'a' was already consumed"),
          (⟨4, 1⟩, "resource 'a' was already consumed")] := by
  obtain ⟨-, errors, -⟩ := noCloning_errors_check twiceAfter "" {}
  refine ⟨by decide +kernel, errors.trans ?_, by decide +kernel⟩
  decide +kernel

end GovernedQuantum
