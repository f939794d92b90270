import GovernedQuantum.Proofs.Statements
import GovernedQuantum.Proofs.Tallies

/-!
# The coherence budget

The checker allows each qudit a number of interactions, and warns of every operation on a qudit that
has had them all. Each mention of a qudit by a typed operation is one interaction, whatever the
operation does with it; a measurement counts, but needs no coherence itself. This file shows that
the warnings are exactly these, and that nothing else depends on the budget.

* `Constraint.warns`, `warns_infer`: **the constraints that only warn are those on coherence**, one
  for each operand of a typed operation that is no measurement.
* `interactions_replayBehind`: the replay counts the mentions in typed nodes.
* `budgetReports`: what is to be reported. `warnings_replay_instructions`: and is.
* `errors_replay`, `Compilation.ofTokens_budget`: **errors and bytecode do not depend on the
  budget.**
* `coherence_budget`: the budget of a whole program.
-/

namespace GovernedQuantum

/-! ## Constraints on coherence -/

/-- **A qudit past its budget as it is reported.** -/
def mayHaveDecohered (r : String) (l : Location) : Diagnostic where
  severity := .warning
  category := .quantumViolation
  location := l
  message := s!"resource '{r}' may have decohered"
  suggestion := some "measure the qudit sooner or use a fresh one"

/-- A finding of a constraint on coherence. -/
def Diagnostic.IsCoherence (d : Diagnostic) : Prop :=
  ∃ r ctx l, (Constraint.coherencePreservation r).finding? ctx l = some d

namespace Constraint

/-- The kind asks for coherence, or a failure is no error. -/
def warns (c : Constraint) : Bool :=
  match c.kind with
  | .coherencePreservation _ => true
  | _ => !c.required

theorem finding?_coherencePreservation (r : String) (ctx : Context) (l : Location) :
    (coherencePreservation r).finding? ctx l =
      if ctx.isCoherent r then none else some (mayHaveDecohered r l) := by
  unfold finding? evaluate coherencePreservation violation?
  dsimp only
  split <;> rfl

/-- A finding of a constraint that does more than warn is an error. -/
theorem severity_of_not_warns {c : Constraint} (strict : c.warns = false) {ctx : Context}
    {l : Location} {d : Diagnostic} (found : c.finding? ctx l = some d) : d.severity = .error := by
  obtain ⟨kind, phase, description, required⟩ := c
  obtain ⟨v, -, rfl⟩ := Option.map_eq_some_iff.1 found
  have required : required = true := by
    cases kind with
    | coherencePreservation r => exact absurd strict (by simp [warns])
    | _ => simpa [warns] using strict
  rw [Violation.diagnostic, if_pos required]

/-- Such a constraint sees nothing of the budget. -/
theorem finding?_budget {c : Constraint} (strict : c.warns = false) (facts : FactTable)
    (views : EntityViews) (budget budget' : Nat) (l : Location) :
    c.finding? (facts.context views budget) l = c.finding? (facts.context views budget') l := by
  obtain ⟨kind, phase, description, required⟩ := c
  cases kind with
  | coherencePreservation r => exact absurd strict (by simp [warns])
  | noCloning r scope => cases scope <;> rfl
  | _ => rfl

end Constraint

theorem Diagnostic.isCoherence_iff {d : Diagnostic} :
    d.IsCoherence ↔ ∃ r l, d = mayHaveDecohered r l := by
  constructor
  · rintro ⟨r, ctx, l, found⟩
    rw [Constraint.finding?_coherencePreservation, Option.ite_none_left_eq_some] at found
    exact ⟨r, l, (Option.some.inj found.2).symm⟩
  · rintro ⟨r, l, rfl⟩
    let ctx : Context := ⟨fun _ => 0, fun _ => true, fun _ => false, fun _ => true, fun _ => none⟩
    exact ⟨r, ctx, l, Constraint.finding?_coherencePreservation r ctx l⟩

/-- What inference reports is an error or not about qudits. -/
theorem Reported.not_isCoherence {l : Location} {d : Diagnostic} (h : Reported l d) :
    ¬ d.IsCoherence := by
  rw [Diagnostic.isCoherence_iff]
  rintro ⟨r, l', rfl⟩
  generalize hd : mayHaveDecohered r l' = d at h
  cases h with
  | window message => exact absurd (congrArg Diagnostic.category hd) (by simp [mayHaveDecohered])
  | issue i =>
    exact absurd (congrArg Diagnostic.severity hd)
      (by simp [mayHaveDecohered, TypeIssue.diagnostic])

/-- **The constraints that only warn** ask for the coherence of the operands, in their order. -/
theorem warns_infer {views : EntityViews} {options : CheckOptions} {σ : Symbols} {node : Node} :
    (infer views options σ node).type.constraints.filter (·.warns) =
      if (infer views options σ node).type.isUnknown ∨ node.opcode = .measure then []
      else node.operands.map .coherencePreservation := by
  have silent (c : Constraint) (other : c.kind.operand? = none) (required : c.required = true) :
      Option.guard Constraint.warns c = none := by
    obtain ⟨kind, phase, description, needed⟩ := c
    obtain rfl : needed = true := required
    cases kind with
    | coherencePreservation r => exact absurd other (by simp [ConstraintKind.operand?])
    | _ => rfl
  have each (r : String) : (Option.guard Constraint.warns (.noCloning r .operation)).toList ++
      (if node.opcode = .measure then []
        else (Option.guard Constraint.warns (.coherencePreservation r)).toList) =
      if node.opcode = .measure then [] else [Constraint.coherencePreservation r] := by
    split <;> rfl
  rw [← List.filterMap_eq_filter, filterMap_infer silent]
  simp only [each]
  by_cases unknown : (infer views options σ node).type.isUnknown = true
  · rw [if_pos unknown, if_pos (.inl unknown)]
  · by_cases measure : node.opcode = .measure
    · simp [measure]
    · simp [unknown, measure, List.map_eq_flatMap]

theorem eq_of_warns {views : EntityViews} {options : CheckOptions} {σ : Symbols} {node : Node}
    {c : Constraint} (hc : c ∈ (infer views options σ node).type.constraints)
    (warns : c.warns = true) : ∃ r, c = .coherencePreservation r := by
  have owed := List.mem_filter.2 ⟨hc, warns⟩
  rw [warns_infer] at owed
  split at owed
  · exact absurd owed List.not_mem_nil
  · obtain ⟨r, -, rfl⟩ := List.mem_map.1 owed
    exact ⟨r, rfl⟩

theorem eq_of_warns_of_mem_evaluations {views : EntityViews} {options : CheckOptions}
    {nodes : List Node} {ev : Evaluation} (hev : ev ∈ evaluations (annotated views options nodes))
    (warns : ev.constraint.warns = true) : ∃ r, ev.constraint = .coherencePreservation r := by
  obtain ⟨k, type, here, hc, -⟩ := exists_of_mem_evaluations hev
  obtain ⟨-, rfl⟩ := getElem?_annotated views options here
  exact eq_of_warns hc warns

/-! ## Mentions -/

theorem Facts.counts_interactions : Facts.Counts Facts.interactions fun _ => 1 where
  none := rfl
  interact _ _ _ := rfl

theorem Node.weigh_one (node : Node) (r : String) :
    node.weigh (fun _ => 1) r = node.operands.count r := by
  obtain ⟨opcode, location, text, metadata⟩ := node
  cases metadata with
  | operation operands gate remote consuming => exact Nat.one_mul _
  | _ => rfl

section

variable (views : EntityViews) (options : CheckOptions) (budget : Nat) {nodes : List Node}

/-- The mentions of a qudit in typed nodes. -/
def mentions (typed : List (Node × InferredType)) (r : String) : Nat :=
  ((typed.filter fun nt => !nt.2.isUnknown).flatMap (·.1.operands)).count r

/-- **The replay counts the mentions** in the typed nodes behind it. -/
theorem interactions_replayBehind {k : Nat} (hk : k ≤ nodes.length) (r : String) :
    (replayBehind views budget (annotated views options nodes) k).facts.tally Facts.interactions r =
      mentions ((annotated views options nodes).take k) r := by
  induction k with
  | zero => rfl
  | succ k ih =>
    have hk' : k < (annotated views options nodes).length := by
      rw [length_annotated]
      omega
    have here := List.getElem?_eq_getElem hk'
    have next : (annotated views options nodes).take (k + 1) =
        (annotated views options nodes).take k ++ [(annotated views options nodes)[k]] := by
      rw [List.take_add_one, here]
      rfl
    rw [tally_replayBehind_succ Facts.counts_interactions views options budget here,
      ih (by omega), next, mentions, mentions, List.filter_append, List.flatMap_append,
      List.count_append, Node.weigh_one]
    cases unknown : (annotated views options nodes)[k].2.isUnknown with
    | true => simp [unknown]
    | false => simp [unknown]

/-- A known qudit is coherent while its mentions are below the budget. -/
theorem isCoherent_contextBehind {k : Nat} {nt : Node × InferredType}
    (here : (annotated views options nodes)[k]? = some nt) (typed : nt.2.isUnknown = false)
    {r : String} (operand : r ∈ nt.1.operands) :
    (contextBehind views budget (annotated views options nodes) k).isCoherent r =
      decide (mentions ((annotated views options nodes).take k) r < budget) := by
  obtain ⟨hn, type⟩ := getElem?_annotated views options here
  have hk : k < nodes.length := (List.getElem?_eq_some_iff.1 hn).1
  have known :
      (replayBehind views budget (annotated views options nodes) k).facts.contains r = true := by
    rw [inStep_replayBehind views options budget nodes k r]
    rw [type] at typed
    unfold Node.operands at operand
    split at operand
    · rename_i hm
      exact mem_resources_of_typed hm typed r operand
    · exact absurd operand List.not_mem_nil
  obtain ⟨f, hf⟩ := Table.contains_eq_true_iff.1 known
  have tally := interactions_replayBehind views options budget (Nat.le_of_lt hk) r
  rw [FactTable.tally, hf, Option.map_some, Option.getD_some] at tally
  show (Table.find? _ r).any _ = _
  rw [hf, Option.any_some, tally]

/-! ## Warnings of a replay -/

/-- A coherence constraint adds a warning or nothing, and notes nothing. -/
theorem Findings.judge_coherencePreservation (f : Findings) (ctx : Context) (l : Location)
    (r : String) :
    f.judge ctx l (.coherencePreservation r) =
      if ctx.isCoherent r then f else ⟨f.diagnostics.push (mayHaveDecohered r l), f.reused⟩ := by
  have uncovered : ¬ f.covers (Constraint.coherencePreservation r).kind = true := Bool.false_ne_true
  rw [judge, if_neg uncovered, Constraint.finding?_coherencePreservation]
  split <;> rename_i coherent
  · split at coherent
    · rename_i lasts
      rw [if_pos lasts]
    · exact absurd coherent (by simp)
  · obtain ⟨lapsed, same⟩ := Option.ite_none_left_eq_some.1 coherent
    rw [if_neg lapsed, Option.some.inj same]
    rfl

/-- The warning of an evaluation. -/
def Evaluation.warning (nodes : List (Node × InferredType)) (ev : Evaluation) : List Diagnostic :=
  if ev.constraint.warns then (ev.finding? views budget nodes).toList else []

/-- What an evaluation adds to the warnings. -/
theorem Findings.warnings_evaluate {typed : List (Node × InferredType)} {ev : Evaluation}
    (coherence : ev.constraint.warns = true → ∃ r, ev.constraint = .coherencePreservation r)
    (f : Findings) :
    (f.evaluate views budget typed ev).diagnostics.toList.filter (fun d => d.severity = .warning) =
      f.diagnostics.toList.filter (fun d => d.severity = .warning) ++
        ev.warning views budget typed := by
  unfold evaluate Evaluation.warning
  cases warns : ev.constraint.warns with
  | true =>
    obtain ⟨r, constraint⟩ := coherence warns
    rw [if_pos rfl, Evaluation.finding?, constraint, Constraint.finding?_coherencePreservation,
      judge_coherencePreservation]
    split
    · simp
    · simp [mayHaveDecohered]
  | false =>
    rw [if_neg Bool.false_ne_true, List.append_nil, judge]
    split
    · rfl
    · split
      · rfl
      · rename_i d found
        have error := Constraint.severity_of_not_warns warns found
        simp [error]

theorem Findings.warnings_foldl {typed : List (Node × InferredType)} {evs : List Evaluation}
    (coherence : ∀ ev ∈ evs, ev.constraint.warns = true →
      ∃ r, ev.constraint = .coherencePreservation r) (f : Findings) :
    (evs.foldl (evaluate views budget typed) f).diagnostics.toList.filter
        (fun d => d.severity = .warning) =
      f.diagnostics.toList.filter (fun d => d.severity = .warning) ++
        evs.flatMap fun ev => ev.warning views budget typed := by
  induction evs generalizing f with
  | nil => simp
  | cons ev rest ih =>
    obtain ⟨first, others⟩ := List.forall_mem_cons.1 coherence
    rw [List.foldl_cons, ih others, warnings_evaluate views budget first, List.flatMap_cons,
      List.append_assoc]

/-- The warnings at a node behind `before`. -/
def nodeWarnings (before : List (Node × InferredType)) (nt : Node × InferredType) :
    List Diagnostic :=
  if nt.2.isUnknown ∨ nt.1.opcode = .measure then []
  else (nt.1.operands.filter fun r => budget ≤ mentions before r).map
    (mayHaveDecohered · nt.1.location)

theorem flatMap_warning {k : Nat} {nt : Node × InferredType}
    (here : (annotated views options nodes)[k]? = some nt) :
    (nt.2.constraints.flatMap fun c =>
        (⟨k, nt.1, c⟩ : Evaluation).warning views budget (annotated views options nodes)) =
      nodeWarnings budget ((annotated views options nodes).take k) nt := by
  obtain ⟨-, type⟩ := getElem?_annotated views options here
  have owed : nt.2.constraints.filter (·.warns) =
      if nt.2.isUnknown ∨ nt.1.opcode = .measure then []
      else nt.1.operands.map .coherencePreservation := by
    rw [type]
    exact warns_infer
  have only : (nt.2.constraints.flatMap fun c =>
        (⟨k, nt.1, c⟩ : Evaluation).warning views budget (annotated views options nodes)) =
      (nt.2.constraints.filter (·.warns)).flatMap fun c =>
        (⟨k, nt.1, c⟩ : Evaluation).warning views budget (annotated views options nodes) := by
    refine (flatMap_filter_of_nil fun c _ strict => ?_).symm
    rw [Evaluation.warning, if_neg (by simp [strict])]
  rw [only, owed, nodeWarnings]
  split
  · rfl
  · rename_i counts
    have typed : nt.2.isUnknown = false := by
      rw [← Bool.not_eq_true]
      exact fun unknown => counts (.inl unknown)
    rw [List.flatMap_map, ← flatMap_ite_singleton]
    apply List.flatMap_congr
    intro r operand
    have coherent := isCoherent_contextBehind views options budget here typed operand
    rw [Evaluation.warning,
      if_pos (show (Constraint.coherencePreservation r).warns = true from rfl), Evaluation.finding?,
      Constraint.finding?_coherencePreservation, coherent]
    by_cases below : mentions ((annotated views options nodes).take k) r < budget
    · simp [below]
    · simp [below, Nat.le_of_not_lt below]

/-- **The warnings of a replay**, node by node. -/
theorem warnings_replay :
    (replay views budget (annotated views options nodes)).diagnostics.toList.filter
        (fun d => d.severity = .warning) =
      alongside (nodeWarnings budget) (annotated views options nodes) := by
  have pre : ∀ nt ∈ annotated views options nodes, ∀ c ∈ nt.2.constraints, c.phase ≠ .pre → ∀ k,
      (⟨k, nt.1, c⟩ : Evaluation).warning views budget (annotated views options nodes) = [] := by
    rintro ⟨node, type⟩ hnt c hc phase k
    obtain ⟨j, here⟩ := List.getElem?_of_mem hnt
    obtain ⟨-, rfl⟩ := getElem?_annotated views options here
    rw [Evaluation.warning, if_neg]
    intro warns
    obtain ⟨r, rfl⟩ := eq_of_warns hc warns
    exact phase rfl
  rw [replay_eq_foldl _ _ _ (silent_annotated views options nodes),
    Findings.warnings_foldl views budget fun ev hev => eq_of_warns_of_mem_evaluations hev,
    flatMap_evaluations pre]
  apply List.flatMap_congr
  intro x hx
  exact flatMap_warning views options budget (List.mk_mem_zipIdx_iff_getElem?.1 hx)

end

/-! ## Errors of a replay -/

section

variable (views : EntityViews) (options : CheckOptions) (budget budget' : Nat)

/-- The counts do not depend on the budget. -/
theorem facts_replayBehind_budget (typed : List (Node × InferredType)) (k : Nat) :
    (replayBehind views budget typed k).facts = (replayBehind views budget' typed k).facts := by
  unfold replayBehind
  induction typed.take k using List.reverseRecOn with
  | nil => rfl
  | append_singleton front nt ih =>
    rw [List.foldl_concat, List.foldl_concat, Replay.facts_step, Replay.facts_step, ih]

/-- Findings that **differ in warnings alone**. -/
structure Findings.SameErrors (f g : Findings) : Prop where
  errors : f.diagnostics.toList.filter (fun d => d.severity = .error) =
    g.diagnostics.toList.filter (fun d => d.severity = .error)
  reused : f.reused = g.reused

/-- A coherence constraint adds no error. -/
theorem Findings.sameErrors_judge (f : Findings) (ctx : Context) (l : Location) (r : String) :
    (f.judge ctx l (.coherencePreservation r)).SameErrors f := by
  rw [judge_coherencePreservation]
  split
  · exact ⟨rfl, rfl⟩
  · exact ⟨by simp [mayHaveDecohered], rfl⟩

/-- **One evaluation under two budgets.** -/
theorem Findings.SameErrors.evaluate {f g : Findings} (h : f.SameErrors g)
    {typed : List (Node × InferredType)} {ev : Evaluation}
    (coherence : ev.constraint.warns = true → ∃ r, ev.constraint = .coherencePreservation r) :
    (f.evaluate views budget typed ev).SameErrors (g.evaluate views budget' typed ev) := by
  unfold Findings.evaluate
  cases warns : ev.constraint.warns with
  | true =>
    obtain ⟨r, constraint⟩ := coherence warns
    rw [constraint]
    have here := sameErrors_judge f (contextBehind views budget typed ev.behind) ev.node.location r
    have there :=
      sameErrors_judge g (contextBehind views budget' typed ev.behind) ev.node.location r
    exact ⟨here.errors.trans (h.errors.trans there.errors.symm),
      here.reused.trans (h.reused.trans there.reused.symm)⟩
  | false =>
    have same :
        ev.constraint.finding? (contextBehind views budget typed ev.behind) ev.node.location =
          ev.constraint.finding? (contextBehind views budget' typed ev.behind)
            ev.node.location := by
      rw [contextBehind, contextBehind, facts_replayBehind_budget views budget budget' typed]
      exact Constraint.finding?_budget warns _ views budget budget' _
    have covers : f.covers ev.constraint.kind = g.covers ev.constraint.kind := by
      unfold Findings.covers
      rw [h.reused]
    have note : f.note ev.constraint.kind = g.note ev.constraint.kind := by
      unfold Findings.note
      rw [h.reused]
    unfold judge
    rw [covers, same]
    split
    · exact h
    · split
      · exact h
      · exact ⟨by simp [h.errors], note⟩

/-- A sequence of evaluations under two budgets. -/
theorem Findings.SameErrors.foldl {f g : Findings} (h : f.SameErrors g)
    {typed : List (Node × InferredType)} {evs : List Evaluation}
    (coherence : ∀ ev ∈ evs, ev.constraint.warns = true →
      ∃ r, ev.constraint = .coherencePreservation r) :
    (evs.foldl (Findings.evaluate views budget typed) f).SameErrors
      (evs.foldl (Findings.evaluate views budget' typed) g) := by
  induction evs generalizing f g with
  | nil => exact h
  | cons ev rest ih =>
    obtain ⟨first, others⟩ := List.forall_mem_cons.1 coherence
    exact ih (h.evaluate views budget budget' first) others

/-- **The errors of a replay do not depend on the budget.** -/
theorem errors_replay (nodes : List Node) :
    (replay views budget (annotated views options nodes)).SameErrors
      (replay views budget' (annotated views options nodes)) := by
  have silent := silent_annotated views options nodes
  have start : Findings.SameErrors {} {} := ⟨rfl, rfl⟩
  rw [replay_eq_foldl views budget _ silent, replay_eq_foldl views budget' _ silent]
  exact start.foldl views budget budget' fun ev hev => eq_of_warns_of_mem_evaluations hev

end

/-- Nor do the types of a check. -/
theorem types_check_budget (nodes : List Node) (options : CheckOptions) (m : Nat) :
    (check nodes { options with maxCoherentOperations := m }).types = (check nodes options).types :=
  rfl

/-- Nor do its errors. -/
theorem errors_check_budget (nodes : List Node) (options : CheckOptions) (m : Nat) :
    (check nodes { options with maxCoherentOperations := m }).diagnostics.errors =
      (check nodes options).diagnostics.errors := by
  apply Array.toList_inj.1
  rw [errors_check, errors_check, foundIn, foundIn, List.filter_append, List.filter_append]
  exact congrArg (_ ++ ·) (errors_replay _ options m options.maxCoherentOperations nodes).errors

/-- **Nor does bytecode.** -/
theorem Compilation.ofTokens_budget (stream : Token.Stream) (source : String)
    (limits : Limits) (m : Nat) :
    (ofTokens stream source { limits with maxCoherentOperations := m }).success =
        (ofTokens stream source limits).success ∧
      (ofTokens stream source { limits with maxCoherentOperations := m }).program =
        (ofTokens stream source limits).program := by
  have parsed : parse stream.tokens { limits with maxCoherentOperations := m } =
    parse stream.tokens limits := rfl
  rw [ofTokens_eq, ofTokens_eq, parsed]
  split
  · exact ⟨rfl, rfl⟩
  · have same (ds : Diagnostics) (nodes : List Node) :
        (ds.extend (check nodes
          { limits.toCheckOptions with maxCoherentOperations := m }).diagnostics).hasErrors =
          (ds.extend (check nodes limits.toCheckOptions).diagnostics).hasErrors := by
      unfold Diagnostics.hasErrors Diagnostics.extend
      rw [errors_check_budget nodes limits.toCheckOptions m]
    dsimp only at same ⊢
    rw [same]
    split <;> exact ⟨rfl, rfl⟩

/-! ## Programs -/

/-- The operands of an instruction, unless it measures, that `before` mentions `m` times or more, as
they are reported. -/
def Instruction.overBudget (m : Nat) (before : List Instruction) (i : Instruction) :
    List Diagnostic :=
  if i.opcode = .measure then []
  else (i.resources.filter fun r => m ≤ (before.flatMap Instruction.resources).count r).map
    (mayHaveDecohered · i.location)

/-- **What is to be reported** of operations under a budget of `m`: each operand of each, unless it
measures, that those before it mention that often. -/
def budgetReports (m : Nat) (operations : List Instruction) : List Diagnostic :=
  alongside (Instruction.overBudget m) operations

section

variable {lines : Array (List Char)} {partners : Partners}

/-- What typed instructions mention, typed operations do. -/
theorem mentions_instructions (before : List (Instruction × InferredType)) (r : String) :
    mentions (before.map (Prod.map (·.node lines partners) id)) r =
      (((before.filter isTypedOperation).map Prod.fst).flatMap Instruction.resources).count r := by
  have typed : (before.filter isTypedOperation).flatMap (·.1.resources) =
      (before.filter fun x => !x.2.isUnknown).flatMap (·.1.resources) := by
    unfold isTypedOperation
    rw [← List.filter_filter, List.filter_comm]
    refine flatMap_filter_of_nil fun x _ empty => ?_
    simpa using empty
  rw [mentions, List.filter_map, List.flatMap_map, List.flatMap_map, typed]
  simp only [Prod.map_fst, Instruction.operands_node]
  rfl

/-- The warnings at the node of an instruction, if that is a typed operation. -/
theorem nodeWarnings_instruction (m : Nat) (before : List (Instruction × InferredType))
    (x : Instruction × InferredType) :
    nodeWarnings m (before.map (Prod.map (·.node lines partners) id))
        (Prod.map (·.node lines partners) id x) =
      if isTypedOperation x then x.1.overBudget m ((before.filter isTypedOperation).map Prod.fst)
      else [] := by
  have location : (x.1.node lines partners).location = x.1.location := rfl
  have opcode : (x.1.node lines partners).opcode = x.1.opcode := rfl
  simp only [nodeWarnings, Prod.map_fst, Prod.map_snd, id_eq, Instruction.operands_node,
    location, opcode, mentions_instructions, Instruction.overBudget]
  cases unknown : x.2.isUnknown with
  | true => simp [isTypedOperation, unknown]
  | false =>
    by_cases operation : x.1.resources = []
    · simp [isTypedOperation, operation]
    · simp [isTypedOperation, unknown, operation]

/-- The warnings of the replay of a program are what is to be reported of its typed operations. -/
theorem warnings_replay_instructions {views : EntityViews} {options : CheckOptions}
    {is : List Instruction} (budget : Nat) :
    (replay views budget (annotated views options
        (is.map (·.node lines partners)))).diagnostics.toList.filter
        (fun d => d.severity = .warning) =
      budgetReports budget (typedOperations is) := by
  rw [warnings_replay, annotated_instructions, alongside_map,
    alongside_filter (nodeWarnings_instruction budget), map_filter_typedInstructions]
  rfl

end

open Classical in
/-- The warnings on coherence of a check are what is to be reported of the typed operations. -/
theorem coherence_warnings_check (is : List Instruction) (source : String)
    (options : CheckOptions) :
    (check (Node.ofInstructions is source) options).diagnostics.warnings.toList.filter
        (fun d => d.IsCoherence) =
      budgetReports options.maxCoherentOperations (typedOperations is) := by
  have inference : ((inferAll (foldEntities (Node.ofInstructions is source)) options
      (Node.ofInstructions is source)).findings.toList.filter fun d => d.severity = .warning).filter
        (fun d => d.IsCoherence) = [] := by
    rw [List.filter_filter, List.filter_eq_nil_iff]
    intro d hd
    obtain ⟨node, -, reported⟩ := reported_inferAll hd
    simp [reported.not_isCoherence]
  have listed : (budgetReports options.maxCoherentOperations (typedOperations is)).filter
      (fun d => d.IsCoherence) =
      budgetReports options.maxCoherentOperations (typedOperations is) := by
    rw [List.filter_eq_self]
    intro d hd
    obtain ⟨x, -, hd⟩ := List.mem_flatMap.1 hd
    unfold Instruction.overBudget at hd
    split at hd
    · exact absurd hd List.not_mem_nil
    · obtain ⟨r, -, rfl⟩ := List.mem_map.1 hd
      exact decide_eq_true (Diagnostic.isCoherence_iff.2 ⟨r, _, rfl⟩)
  have replayed :
      (replay (foldEntities (Node.ofInstructions is source)) options.maxCoherentOperations
          (annotated (foldEntities (Node.ofInstructions is source)) options
            (Node.ofInstructions is source))).diagnostics.toList.filter
          (fun d => d.severity = .warning) =
        budgetReports options.maxCoherentOperations (typedOperations is) :=
    warnings_replay_instructions options.maxCoherentOperations
  rw [warnings_check, foundIn, List.filter_append, List.filter_append, inference, List.nil_append]
  exact (congrArg _ replayed).trans listed

open Classical in
/-- **The coherence budget is exact.** Of all programs, whatever else is wrong with them: an
operation on qudits is typed exactly where its operands are allocated before it. The warnings on
coherence are, in the order of the instructions, one for each operand of a typed operation, unless
it measures, that typed operations before it mention as often as the budget allows or more often.
None of them is an error: types, errors and the verdict do not depend on the budget, nor do the
success of a compilation and its bytecode. -/
theorem coherence_budget (is : List Instruction) (source : String) (options : CheckOptions) :
    let report := check (Node.ofInstructions is source) options
    report.TypesOperations is ∧
      report.diagnostics.warnings.toList.filter (fun d => d.IsCoherence) =
        budgetReports options.maxCoherentOperations (typedOperations is) ∧
      (∀ d ∈ report.diagnostics.errors, ¬ d.IsCoherence) ∧
      (∀ m,
        let other := check (Node.ofInstructions is source)
          { options with maxCoherentOperations := m }
        other.types = report.types ∧ other.diagnostics.errors = report.diagnostics.errors ∧
          other.isOk = report.isOk) ∧
      ∀ (text : String) (limits : Limits) (m : Nat),
        let other := compile text { limits with maxCoherentOperations := m }
        other.success = (compile text limits).success ∧
          other.bytecode = (compile text limits).bytecode := by
  intro report
  refine ⟨typesOperations_check is source options,
    coherence_warnings_check is source options, ?_, ?_, ?_⟩
  · intro d hd coherence
    rw [← Array.mem_toList_iff, errors_check, List.mem_filter] at hd
    obtain ⟨r, l, rfl⟩ := Diagnostic.isCoherence_iff.1 coherence
    exact absurd (of_decide_eq_true hd.2) (by simp [mayHaveDecohered])
  · intro m
    have errors := errors_check_budget (Node.ofInstructions is source) options m
    refine ⟨types_check_budget _ options m, errors, ?_⟩
    unfold CheckReport.isOk Diagnostics.hasErrors
    rw [errors]
  · intro text limits m
    obtain ⟨success, program⟩ :=
      Compilation.ofTokens_budget (Token.tokenize text limits) text limits m
    exact ⟨success, congrArg Program.lines program⟩

/-- A qudit is mentioned six times; what was not allocated does not count. -/
def sixMentions : List Instruction :=
  [⟨.allocQudit, ["a", "2"], ⟨1, 1⟩⟩, ⟨.applyGate, ["H", "a"], ⟨2, 1⟩⟩,
    ⟨.entangle, ["a", "b"], ⟨3, 1⟩⟩, ⟨.applyGate, ["H", "a"], ⟨4, 1⟩⟩,
    ⟨.entangle, ["a", "a"], ⟨5, 1⟩⟩, ⟨.measure, ["a"], ⟨6, 1⟩⟩, ⟨.release, ["a"], ⟨7, 1⟩⟩]

open Classical in
/-- With a budget of two, the third mention is the first that is too many, and the third and the
fourth stand in one instruction. The measurement, the fifth, is not reported, but the release behind
it is. -/
theorem coherence_budget_sixMentions :
    let report := check (Node.ofInstructions sixMentions "") { maxCoherentOperations := 2 }
    report.types.map (·.isUnknown) = [false, false, true, false, false, false, false] ∧
      report.diagnostics.warnings.toList.filter (fun d => d.IsCoherence) =
        [mayHaveDecohered "a" ⟨5, 1⟩, mayHaveDecohered "a" ⟨5, 1⟩, mayHaveDecohered "a" ⟨7, 1⟩] ∧
      report.diagnostics.warnings.toList.map (fun d => (d.location, d.message)) =
        [(⟨5, 1⟩, "resource 'a' may have decohered"), (⟨5, 1⟩, "resource 'a' may have decohered"),
          (⟨7, 1⟩, "resource 'a' may have decohered")] := by
  obtain ⟨-, warnings, -⟩ := coherence_budget sixMentions "" { maxCoherentOperations := 2 }
  refine ⟨by decide +kernel, warnings.trans ?_, by decide +kernel⟩
  decide +kernel

end GovernedQuantum
