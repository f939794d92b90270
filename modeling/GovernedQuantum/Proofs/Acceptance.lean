import GovernedQuantum.Proofs.Replaying

/-!
# What the checker accepts

Folding, inference and replay together accept a program exactly when it belongs to the language: no
pass rejects a program for a reason of its own.

* `find?_foldEntities`: the folded entities of a resolved program are its final attributes.
* `Constraint.upheld_*`: what each kind of constraint asks of a context.
* `WellFormed.upholds`, `WellFormed.upholds_final`: well-formed programs uphold what they owe.
* `isOk_iff_wellFormed`: **the checker accepts exactly the well-formed programs.**
-/

namespace GovernedQuantum

/-! ## Entities -/

/-- The attributes of an entity at the end of a program. -/
def finalView (is : List Instruction) (e : String) : EntityView where
  explainability := finalScore is e
  oversight := finalOversight is e
  criticality := finalCriticality is e
  approved := decide (∃ j ∈ is, j.Approves e)

section

variable {is : List Instruction} {i : Instruction} {e : String}

theorem finalView_nil : finalView [] e = {} := by
  simp [finalView, finalScore, finalOversight, finalCriticality, lastSetting]

/-- An entity is as it was behind an instruction that does not modify it. -/
theorem finalView_concat_of_ne
    (h : i.arg 0 ≠ e ∨ (i.opcode ≠ .setExplainability ∧ i.opcode ≠ .setOversight ∧
      i.opcode ≠ .setCriticality ∧ i.opcode ≠ .approve)) :
      finalView (is ++ [i]) e = finalView is e := by
  have other (op : Opcode) (hop : i.arg 0 ≠ e ∨ i.opcode ≠ op) :
      lastSetting op (is ++ [i]) e = lastSetting op is e := by
    rw [lastSetting_concat, if_neg]
    rintro ⟨h₁, h₂⟩
    exact hop.elim (absurd h₂) (absurd h₁)
  have approves : ¬ i.Approves e := by
    rintro ⟨h₁, h₂⟩
    exact h.elim (absurd h₂) fun h => absurd h₁ h.2.2.2
  unfold finalView finalScore finalOversight finalCriticality
  rw [other _ (h.imp_right fun h => h.1), other _ (h.imp_right fun h => h.2.1),
    other _ (h.imp_right fun h => h.2.2.1)]
  simp only [exists_mem_concat, approves, or_false]

/-- An entity that nobody has declared has not been modified either. -/
theorem finalView_of_not_declared (h : Resolved is) (he : ¬ Declared is e) :
    finalView is e = {} := by
  induction is using List.reverseRecOn with
  | nil => exact finalView_nil
  | append_singleton is i ih =>
    obtain ⟨before, resolves⟩ := everywhere_concat.1 h
    rw [declared_concat, not_or] at he
    rw [finalView_concat_of_ne, ih before he.1]
    by_contra hi
    rw [not_or, not_not] at hi
    obtain ⟨rfl, hi⟩ := hi
    refine he.1 (resolves.declared _ ?_)
    unfold Instruction.entity?
    cases op : i.opcode <;> simp_all

/-- The final attributes behind one more instruction. -/
theorem finalView_concat (h : i.arg 0 = e) :
    finalView (is ++ [i]) e =
      { explainability :=
          if i.opcode = .setExplainability then (score? (i.arg 1)).getD defaultScore
          else finalScore is e
        oversight :=
          if i.opcode = .setOversight then (Oversight.parse (i.arg 1)).toOption.getD .notification
          else finalOversight is e
        criticality :=
          if i.opcode = .setCriticality then (Criticality.parse (i.arg 1)).toOption.getD .medium
          else finalCriticality is e
        approved := decide ((∃ j ∈ is, j.Approves e) ∨ i.opcode = .approve) } := by
  unfold finalView finalScore finalOversight finalCriticality
  simp only [lastSetting_concat, exists_mem_concat, Instruction.Approves, h, and_true]
  congr 1 <;> split <;> rfl

/-- A modifier does to the final attributes what it says. -/
theorem modified_finalView (resolves : i.Resolves is) {partners : Partners} {m : Modifier}
    (hm : Metadata.ofInstruction partners i = .modifier e m) :
    (finalView is e).modified m = finalView (is ++ [i]) e := by
  have same : i.arg 0 = e := by
    cases op : i.opcode <;> simp_all [Metadata.ofInstruction]
  rw [finalView_concat same]
  cases op : i.opcode with
  | setExplainability =>
    obtain ⟨x, hx, finite, unit⟩ := resolves.score op
    simp only [Metadata.ofInstruction, op, Metadata.modifier.injEq] at hm
    obtain ⟨-, rfl⟩ := hm
    simp [EntityView.modified, finalView, score?, hx, Option.filter, finite, unit]
  | setOversight =>
    obtain ⟨l, hl⟩ := resolves.oversight op
    simp only [Metadata.ofInstruction, op, Metadata.modifier.injEq] at hm
    obtain ⟨-, rfl⟩ := hm
    simp [EntityView.modified, finalView, hl, Except.toOption]
  | setCriticality =>
    obtain ⟨l, hl⟩ := resolves.criticality op
    simp only [Metadata.ofInstruction, op, Metadata.modifier.injEq] at hm
    obtain ⟨-, rfl⟩ := hm
    simp [EntityView.modified, finalView, hl, Except.toOption]
  | approve =>
    simp only [Metadata.ofInstruction, op, Metadata.modifier.injEq] at hm
    obtain ⟨-, rfl⟩ := hm
    simp [EntityView.modified, finalView]
  | _ => simp [Metadata.ofInstruction, op] at hm

/-- **The folded entities** of a resolved program are the declared ones, with their final
attributes. -/
theorem find?_foldEntities (lines : Array (List Char)) (partners : Partners) (h : Resolved is) :
    ∀ e, (foldEntities (is.map (·.node lines partners))).find? e =
      if Declared is e then some (finalView is e) else none := by
  induction is using List.reverseRecOn with
  | nil =>
    intro e
    simp [foldEntities, Declared]
  | append_singleton is i ih =>
    intro e
    obtain ⟨before, resolves⟩ := everywhere_concat.1 h
    have ih := ih before
    rw [List.map_append, List.map_singleton, foldEntities, List.foldl_append, List.foldl_cons,
      List.foldl_nil, ← foldEntities]
    generalize foldEntities (is.map (·.node lines partners)) = views at ih
    have same (op : i.opcode ≠ .declareContract) : Declared (is ++ [i]) e ↔ Declared is e := by
      rw [declared_concat, or_iff_left fun hi => op hi.1]
    cases op : i.opcode with
    | declareContract =>
      have new : ¬ Declared is (i.arg 0) := resolves.newEntity op
      have unknown : views.contains (i.arg 0) = false := by
        rw [Table.contains_eq_false_iff, ih, if_neg new]
      simp only [EntityViews.step, Instruction.node, Metadata.ofInstruction, op, unknown]
      rw [if_neg (by simp), Table.find?_insert]
      by_cases he : i.arg 0 = e
      · subst he
        rw [if_pos rfl, if_pos (declared_concat.2 (.inr ⟨op, rfl⟩)),
          finalView_concat_of_ne (.inr (by simp [op])), finalView_of_not_declared before new]
      · have same : Declared (is ++ [i]) e ↔ Declared is e := by
          rw [declared_concat, or_iff_left fun hi => he hi.2]
        rw [if_neg he, ih, finalView_concat_of_ne (.inl he)]
        simp only [same]
    | setExplainability | setOversight | setCriticality | approve =>
      have known : Declared is (i.arg 0) :=
        resolves.declared _ (by rw [Instruction.entity?, op]; rfl)
      obtain ⟨m, hm⟩ : ∃ m, Metadata.ofInstruction partners i = .modifier (i.arg 0) m := by
        rw [Metadata.ofInstruction, op]
        exact ⟨_, rfl⟩
      simp only [EntityViews.step, Instruction.node, hm]
      rw [Table.find?_modify, ih]
      by_cases he : e = i.arg 0
      · subst he
        rw [if_pos rfl, if_pos known, if_pos ((same (by simp [op])).2 known), Option.map_some,
          modified_finalView resolves hm]
      · rw [if_neg he, finalView_concat_of_ne (.inl (Ne.symm he))]
        simp only [same (by simp [op])]
    | _ =>
      rw [finalView_concat_of_ne (.inr (by simp [op]))]
      simp only [EntityViews.step, Instruction.node, Metadata.ofInstruction, op,
        same (by simp [op])]
      exact ih e

end

/-! ## What constraints ask for -/

namespace Constraint

variable {ctx : Context} {e r : String} {view : EntityView} {threshold : Binary64} {phase : Phase}

theorem upheld_memorySafety : (memorySafety r phase).Upheld ctx ↔ ctx.isTracked r = true := by
  simp [Upheld, evaluate, memorySafety, violation?]

theorem upheld_unused : (noCloning r .operation).Upheld ctx ↔ ctx.consumedCount r = 0 := by
  simp [Upheld, evaluate, noCloning, violation?]

theorem upheld_total : (noCloning r .program).Upheld ctx ↔ ctx.consumedCount r ≤ 1 := by
  simp [Upheld, evaluate, noCloning, violation?]

/-- Decoherence is at most a warning. -/
theorem upheld_coherencePreservation : (coherencePreservation r).Upheld ctx := by
  simp [Upheld, coherencePreservation]

theorem upheld_entanglementConsistency {partners : List String}
    (h : ∀ p ∈ partners, ctx.wasEntangled p = true) :
    (entanglementConsistency r partners).Upheld ctx := by
  intro _
  have none : partners.find? (fun p => !ctx.wasEntangled p) = none :=
    List.find?_eq_none.2 fun p hp => by simp [h p hp]
  simp [evaluate, entanglementConsistency, violation?, none]

theorem upheld_explainability (h : ctx.entity e = some view) :
    (Constraint.explainability e threshold phase).Upheld ctx ↔
      threshold.le view.explainability = true ∨ view.oversight.isHumanInLoop = true := by
  by_cases hs : threshold.le view.explainability = true <;>
    simp [Upheld, evaluate, Constraint.explainability, violation?, onEntity, h, hs]

theorem upheld_compliance (h : ctx.entity e = some view) (hc : view.compliance ≠ .nonCompliant) :
    (Constraint.compliance e phase).Upheld ctx := by
  simp [Upheld, evaluate, Constraint.compliance, violation?, onEntity, h, hc]

theorem upheld_humanOversight (h : ctx.entity e = some view) :
    (humanOversight e phase).Upheld ctx ↔
      (view.criticality.requiresOversight = true → view.oversight.isHumanInLoop = true) := by
  simp [Upheld, evaluate, humanOversight, violation?, onEntity, h]

theorem upheld_humanApproval (h : ctx.entity e = some view) :
    (humanApproval e).Upheld ctx ↔ view.approved = true := by
  simp [Upheld, evaluate, humanApproval, violation?, onEntity, h]

end Constraint

/-! ## Partners -/

/-- The partners of a qudit are operands of entangling instructions. -/
theorem exists_entangle_of_mem_partners {is : List Instruction} {name p : String}
    (h : p ∈ (Partners.ofInstructions is).getD name []) :
    ∃ i ∈ is, i.opcode = .entangle ∧ p ∈ i.resources := by
  have noted (ps : Partners) (a b : String) {n : String} (hn : p ∈ (ps.note a b).getD n []) :
      p ∈ ps.getD n [] ∨ p = b := by
    rw [Partners.note, Table.getD, Table.find?_insert] at hn
    split at hn
    · rename_i ha
      subst ha
      rw [Option.getD_some] at hn
      split at hn
      · exact .inl hn
      · rw [List.mem_append, List.mem_singleton] at hn
        exact hn
    · exact .inl hn
  induction is using List.reverseRecOn generalizing name with
  | nil => exact absurd h (by simp [Partners.ofInstructions, Table.getD])
  | append_singleton is i ih =>
    have earlier (hp : p ∈ (Partners.ofInstructions is).getD name []) :
        ∃ j ∈ is ++ [i], j.opcode = .entangle ∧ p ∈ j.resources := by
      obtain ⟨j, hj, hr⟩ := ih hp
      exact ⟨j, List.mem_append_left _ hj, hr⟩
    rw [Partners.ofInstructions, List.foldl_append, List.foldl_cons, List.foldl_nil,
      ← Partners.ofInstructions] at h
    split at h
    · rename_i op
      have here (hp : p = i.arg 0 ∨ p = i.arg 1) :
          ∃ j ∈ is ++ [i], j.opcode = .entangle ∧ p ∈ j.resources := by
        refine ⟨i, List.mem_append_right _ (List.mem_singleton.2 rfl), op, ?_⟩
        rw [Instruction.resources, op]
        exact List.mem_pair.2 hp
      rcases noted _ _ _ h with h | h
      · rcases noted _ _ _ h with h | h
        · exact earlier h
        · exact here (.inr h)
      · exact here (.inl h)
    · exact earlier h

/-! ## The language -/

section

variable {is before : List Instruction} {i : Instruction} (options : CheckOptions)
  (lines : Array (List Char)) (partners : Partners)

/-- The folded entities of a program. -/
def viewsOf (lines : Array (List Char)) (partners : Partners) (is : List Instruction) :
    EntityViews :=
  foldEntities (is.map (·.node lines partners))

theorem Resolved.declared {is : List Instruction} (h : Resolved is) {i : Instruction} (hi : i ∈ is)
    {e : String} (he : i.entity? = some e) : Declared is e := by
  obtain ⟨before, after, rfl⟩ := List.append_of_mem hi
  obtain ⟨j, hj, hd⟩ := (h.of_append rfl).declared e he
  exact ⟨j, List.mem_append_left _ hj, hd⟩

theorem find?_viewsOf (resolved : Resolved is) {e : String} (h : Declared is e) :
    (viewsOf lines partners is).find? e = some (finalView is e) := by
  rw [viewsOf, find?_foldEntities lines partners resolved, if_pos h]

/-- Constraints ask for oversight by the final criticality. -/
theorem criticality_viewsOf (resolved : Resolved is) {e : String} (h : Declared is e) :
    ((viewsOf lines partners is).getD e {}).criticality = finalCriticality is e := by
  rw [Table.getD, find?_viewsOf lines partners resolved h, Option.getD_some]
  rfl

/-- At any point of the replay, a declared entity has its final attributes. -/
theorem entity_contextAfter (resolved : Resolved is) {e : String} (h : Declared is e)
    (front : List Instruction) :
    (contextAfter (viewsOf lines partners is) options lines partners front).entity e =
      some (finalView is e) :=
  find?_viewsOf lines partners resolved h

variable {views : EntityViews}

theorem isTracked_contextAfter (resolved : Resolved is) (r : String) :
    (contextAfter views options lines partners is).isTracked r = true ↔ Allocated is r :=
  (tracks_replayed views options lines partners resolved).tracked r

theorem consumedCount_contextAfter (resolved : Resolved is) (r : String) :
    (contextAfter views options lines partners is).consumedCount r = 0 ↔ ¬ Consumed is r := by
  have tracks := tracks_replayed views options lines partners resolved
  change
    (((replayed views options lines partners is).facts.find? r).map Facts.consumed).getD 0 = 0 ↔ _
  cases hf : (replayed views options lines partners is).facts.find? r with
  | none =>
    refine iff_of_true rfl fun hc => ?_
    have live := (tracks.tracked r).2 (resolved.allocated_of_consumed hc)
    rw [Table.contains_eq_false_iff.2 hf] at live
    exact absurd live (by simp)
  | some f =>
    rw [← tracks.consumed hf, Option.map_some, Option.getD_some]
    omega

theorem consumedCount_le_one (resolved : Resolved is) (linear : Linear is) (r : String) :
    (contextAfter views options lines partners is).consumedCount r ≤ 1 := by
  have tracks := tracks_replayed views options lines partners resolved
  change (((replayed views options lines partners is).facts.find? r).map Facts.consumed).getD 0 ≤ 1
  cases hf : (replayed views options lines partners is).facts.find? r with
  | none => exact Nat.zero_le 1
  | some f => exact tracks.once linear hf

theorem wasEntangled_contextAfter (resolved : Resolved is) (hi : i ∈ is) (op : i.opcode = .entangle)
    {r : String} (hr : r ∈ i.resources) :
    (contextAfter views options lines partners is).wasEntangled r = true := by
  obtain ⟨f, hf, he⟩ :=
    (tracks_replayed views options lines partners resolved).entangled i hi op r hr
  change ((replayed views options lines partners is).facts.find? r).any Facts.entangled = true
  rw [hf]
  exact he

/-- **A well-formed program upholds** what its instructions owe before and after them. -/
theorem WellFormed.upholds (wf : WellFormed options.explainabilityThreshold is)
    (hp : before ++ [i] <+: is) :
    i.Upholds (viewsOf lines partners is) options partners .pre
        (contextAfter (viewsOf lines partners is) options lines partners before) ∧
      i.Upholds (viewsOf lines partners is) options partners .post
        (contextAfter (viewsOf lines partners is) options lines partners (before ++ [i])) := by
  have here : i ∈ is := hp.subset (List.mem_append_right _ (List.mem_singleton.2 rfl))
  have resolved : Resolved (before ++ [i]) := wf.resolved.of_prefix hp
  obtain ⟨resolved', resolves⟩ := everywhere_concat.1 resolved
  have declares (op : i.opcode = .declareContract) : Declared is (i.arg 0) := ⟨i, here, op, rfl⟩
  have mentions (op : i.opcode = .deploy ∨ i.opcode = .decide) : Declared is (i.arg 0) := by
    refine wf.resolved.declared here ?_
    rcases op with op | op <;> rw [Instruction.entity?, op]
  have entity {e : String} (he : Declared is e) :=
    entity_contextAfter options lines partners wf.resolved he
  constructor
  · intro c hc phase
    cases owes_of_mem hc with
    | total | backed | entangled | explainable | compliant | overseen =>
      exact absurd phase (by simp)
    | tracked operand =>
      exact Constraint.upheld_memorySafety.2 ((isTracked_contextAfter options lines partners
        resolved' _).2 (resolves.allocated _ operand))
    | unused operand =>
      exact Constraint.upheld_unused.2 ((consumedCount_contextAfter options lines partners
        resolved' _).2 (wf.linear before i hp _ operand))
    | coherent operand => exact Constraint.upheld_coherencePreservation
    | stillExplainable op =>
      exact (Constraint.upheld_explainability (entity (mentions op) _)).2
        (wf.explainable _ (mentions op))
    | stillCompliant op =>
      exact Constraint.upheld_compliance (entity (mentions op) _) (by simp [finalView])
    | stillOverseen op =>
      exact (Constraint.upheld_humanOversight (entity (mentions (.inl op)) _)).2
        (wf.overseen _ (mentions (.inl op)))
    | approved op stake =>
      rw [criticality_viewsOf lines partners wf.resolved (mentions (.inr op))] at stake
      exact (Constraint.upheld_humanApproval (entity (mentions (.inr op)) _)).2
        (decide_eq_true (wf.approved i here op stake))
  · intro c hc phase
    cases owes_of_mem hc with
    | total | entangled | tracked | unused | coherent | stillExplainable | stillCompliant
    | stillOverseen | approved => exact absurd phase (by simp)
    | backed op =>
      exact Constraint.upheld_memorySafety.2 ((isTracked_contextAfter options lines partners
        resolved _).2 (allocated_concat.2 (.inr ⟨op, rfl⟩)))
    | explainable op =>
      exact (Constraint.upheld_explainability (entity (declares op) _)).2
        (wf.explainable _ (declares op))
    | compliant op =>
      exact Constraint.upheld_compliance (entity (declares op) _) (by simp [finalView])
    | overseen op stake =>
      exact (Constraint.upheld_humanOversight (entity (declares op) _)).2
        (wf.overseen _ (declares op))

/-- Nothing that is owed at the end of a well-formed program fails: uses are counted where they
happen, and every partner has been entangled. -/
theorem WellFormed.upholds_final (wf : WellFormed options.explainabilityThreshold is)
    (i : Instruction) :
    i.Upholds (viewsOf lines (.ofInstructions is) is) options (.ofInstructions is) .final
      (contextAfter (viewsOf lines (.ofInstructions is) is) options lines
        (.ofInstructions is) is) := by
  intro c hc phase
  cases owes_of_mem hc with
  | total op =>
    exact Constraint.upheld_total.2 (consumedCount_le_one options lines _ wf.resolved wf.linear _)
  | entangled op =>
    refine Constraint.upheld_entanglementConsistency fun p hp => ?_
    obtain ⟨j, hj, jop, hr⟩ := exists_entangle_of_mem_partners hp
    exact wasEntangled_contextAfter options lines _ wf.resolved hj jop hr
  | _ => exact absurd phase (by simp)

/-- A resolved program in which the replay finds no error is well formed. -/
theorem wellFormed_of_quiet (resolved : Resolved is)
    (quiet : Quiet (replayed (viewsOf lines partners is) options lines partners
      is).findings.diagnostics.toList) : WellFormed options.explainabilityThreshold is := by
  have upholds := (quiet_replayed_iff _ options lines partners resolved).1 quiet
  have entity {e : String} (he : Declared is e) :=
    entity_contextAfter options lines partners resolved he
  refine ⟨resolved, ?_, ?_, ?_, ?_⟩
  · intro before i hp r hr
    have unused := (upholds before i hp).1 _ (mem_owed_unused hr) rfl
    exact (consumedCount_contextAfter options lines partners
      (everywhere_concat.1 (resolved.of_prefix hp)).1 r).1 (Constraint.upheld_unused.1 unused)
  · intro e he
    obtain ⟨i, hi, op, rfl⟩ := id he
    obtain ⟨before, after, hs⟩ := List.append_of_mem hi
    have explained := (upholds.of_append hs).2 _ (mem_owed_explainable op) rfl
    exact (Constraint.upheld_explainability (entity he _)).1 explained
  · intro e he stake
    obtain ⟨i, hi, op, rfl⟩ := id he
    obtain ⟨before, after, hs⟩ := List.append_of_mem hi
    have stake' := stake
    rw [← criticality_viewsOf lines partners resolved he] at stake'
    have overseen := (upholds.of_append hs).2 _ (mem_owed_overseen op stake') rfl
    exact (Constraint.upheld_humanOversight (entity he _)).1 overseen stake
  · intro i hi op stake
    have he : Declared is (i.arg 0) := resolved.declared hi (by rw [Instruction.entity?, op])
    obtain ⟨before, after, hs⟩ := List.append_of_mem hi
    have stake' := stake
    rw [← criticality_viewsOf lines partners resolved he] at stake'
    have approved := (upholds.of_append hs).1 _ (mem_owed_approved op stake') rfl
    exact of_decide_eq_true ((Constraint.upheld_humanApproval (entity he _)).1 approved)

end

/-- The two passes that report, of the nodes of a program. -/
theorem isOk_check_iff (nodes : List Node) (options : CheckOptions) :
    (check nodes options).isOk = true ↔
      Quiet (inferAll (foldEntities nodes) options nodes).findings.toList ∧
        Quiet (replay (foldEntities nodes) options.maxCoherentOperations
          (annotated (foldEntities nodes) options nodes)).diagnostics.toList := by
  rw [CheckReport.isOk, Bool.not_eq_true', check]
  simp only [hasErrors_pushAll]
  exact and_congr_left' (and_iff_right rfl)

theorem wellFormed_of_isOk {is : List Instruction} {source : String} {options : CheckOptions}
    (h : (check (Node.ofInstructions is source) options).isOk = true) :
    WellFormed options.explainabilityThreshold is := by
  obtain ⟨quiet, replay⟩ := (isOk_check_iff _ options).1 h
  have resolved := (quiet_inferAll_iff _ options _ _ is).1 quiet
  exact wellFormed_of_quiet options _ _ resolved (quiet_of_quiet_final _ replay)

theorem isOk_of_wellFormed {is : List Instruction} (source : String) {options : CheckOptions}
    (wf : WellFormed options.explainabilityThreshold is) :
    (check (Node.ofInstructions is source) options).isOk = true := by
  refine (isOk_check_iff _ options).2 ⟨(quiet_inferAll_iff _ options _ _ is).2 wf.resolved,
    quiet_final _ ?_ ?_⟩
  · exact (quiet_replayed_iff _ options _ _ wf.resolved).2
      fun before i hp => wf.upholds options _ _ hp
  · intro nt hnt c hc
    obtain ⟨hc, phase⟩ := InferredType.mem_constraintsIn.1 hc
    obtain ⟨i, -, owes⟩ := owed_of_mem_annotated _ options _ _ wf.resolved hnt
    exact wf.upholds_final options _ i c (owes ▸ hc) phase

/-- **The checker accepts exactly the well-formed programs.** -/
theorem isOk_iff_wellFormed (is : List Instruction) (source : String) (options : CheckOptions) :
    (check (Node.ofInstructions is source) options).isOk = true ↔
      WellFormed options.explainabilityThreshold is :=
  ⟨wellFormed_of_isOk, isOk_of_wellFormed source⟩

end GovernedQuantum
