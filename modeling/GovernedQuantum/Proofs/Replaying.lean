import GovernedQuantum.Proofs.Inference

/-!
# What the replay finds

The replay counts the uses of qudits and evaluates what every instruction owes. This file says what
the counts mean in a resolved program, and that the replay finds no error exactly where everything
that is owed is upheld.

* `FactTable.Tracks`: the counts tell which qudits are allocated, consumed and entangled.
* `Instruction.Upholds`: what an instruction owes in a phase holds in a context.
* `quiet_replayed_iff`: **the replay finds no error** before its last pass exactly where every
  instruction upholds what it owes before and after it.
-/

namespace GovernedQuantum

/-! ## Resolved programs -/

theorem Resolved.allocated {is : List Instruction} (h : Resolved is) {i : Instruction} (hi : i ∈ is)
    {r : String} (hr : r ∈ i.resources) : Allocated is r := by
  obtain ⟨before, after, rfl⟩ := List.append_of_mem hi
  obtain ⟨j, hj, ha⟩ := (h.of_append rfl).allocated r hr
  exact ⟨j, List.mem_append_left _ hj, ha⟩

theorem Resolved.allocated_of_consumed {is : List Instruction} (h : Resolved is) {r : String}
    (hc : Consumed is r) : Allocated is r := by
  obtain ⟨i, hi, -, hr⟩ := hc
  exact h.allocated hi hr

/-- The operands of a resolved instruction are all different. -/
theorem Instruction.Resolves.nodup {before : List Instruction} {i : Instruction}
    (h : i.Resolves before) : i.resources.Nodup := by
  have distinct := h.distinct
  unfold Instruction.resources
  cases op : i.opcode with
  | entangle | disentangle | entanglementSwap =>
    have hne : i.arg 0 ≠ i.arg 1 := distinct (by rw [Instruction.isPaired, op])
    simp [hne]
  | _ => simp

/-! ## Counting uses -/

namespace FactTable

theorem find?_modifyAll (g : Facts → Facts) {names : List String} (hn : names.Nodup)
    (facts : FactTable) (r : String) :
    (names.foldl (fun t name => t.modify name g) facts).find? r =
      if r ∈ names then (facts.find? r).map g else facts.find? r := by
  induction names generalizing facts with
  | nil => rfl
  | cons name rest ih =>
    obtain ⟨hname, hrest⟩ := List.nodup_cons.1 hn
    rw [List.foldl_cons, ih hrest, Table.find?_modify]
    by_cases hr : r = name
    · subst hr
      rw [if_neg hname, if_pos rfl, if_pos List.mem_cons_self]
    · rw [if_neg hr]
      exact if_congr ⟨List.mem_cons_of_mem _, fun h => (List.mem_cons.1 h).resolve_left hr⟩ rfl rfl

/-- The effect of an instruction: a qudit is new, or its operands have interacted. -/
theorem apply_node (facts : FactTable) (lines : Array (List Char)) (partners : Partners)
    (i : Instruction) :
    facts.apply (i.node lines partners) =
      if i.opcode = .allocQudit then facts.insert (i.arg 0) {}
      else i.resources.foldl (fun t r => t.modify r fun f => f.interact i.opcode.isConsuming
        (i.opcode = .entangle || i.opcode = .entangleRemote)) facts := by
  unfold apply Instruction.node Instruction.resources
  cases op : i.opcode <;> simp [Metadata.ofInstruction, op]

/-- **What the counts mean**: a qudit is known once it is allocated, and its uses tell whether it is
consumed and whether it has been entangled. -/
structure Tracks (facts : FactTable) (is : List Instruction) : Prop where
  tracked : ∀ r, facts.contains r = true ↔ Allocated is r
  consumed : ∀ {r f}, facts.find? r = some f → (0 < f.consumed ↔ Consumed is r)
  once : Linear is → ∀ {r f}, facts.find? r = some f → f.consumed ≤ 1
  entangled : ∀ i ∈ is, i.opcode = .entangle → ∀ r ∈ i.resources,
    ∃ f, facts.find? r = some f ∧ f.entangled = true

theorem tracks_nil : Tracks (.empty : FactTable) [] where
  tracked r := by simp [Allocated]
  consumed h := absurd h (by simp)
  once _ _ _ h := absurd h (by simp)
  entangled i hi := absurd hi (by simp)

variable {facts : FactTable} {is : List Instruction} {i : Instruction}

theorem contains_of_find? {r : String} {f : Facts} (h : facts.find? r = some f) :
    facts.contains r = true :=
  Table.contains_eq_true_iff.2 ⟨f, h⟩

/-- A new qudit has no uses, and no other qudit notices. -/
theorem Tracks.allocate (h : facts.Tracks is) (resolved : Resolved (is ++ [i]))
    (op : i.opcode = .allocQudit) : Tracks (facts.insert (i.arg 0) {}) (is ++ [i]) := by
  obtain ⟨before, resolves⟩ := everywhere_concat.1 resolved
  have new : ¬ Allocated is (i.arg 0) := resolves.newResource op
  have none : i.resources = [] := by rw [Instruction.resources, op]
  have still {r : String} : Consumed (is ++ [i]) r ↔ Consumed is r := by
    rw [consumed_concat, Instruction.Consumes, none]
    simp
  have other {r : String} {f : Facts} (hf : facts.find? r = some f) : i.arg 0 ≠ r := by
    rintro rfl
    exact new ((h.tracked _).1 (contains_of_find? hf))
  constructor
  · intro r
    rw [Table.contains_insert, allocated_concat, Bool.or_eq_true, h.tracked, decide_eq_true_eq,
      Instruction.Allocates, or_comm]
    simp [op]
  · intro r f hf
    rw [Table.find?_insert] at hf
    rw [still]
    split at hf
    · rename_i hr
      subst hr
      obtain rfl := Option.some.inj hf
      exact iff_of_false (by simp) fun hc => new (Resolved.allocated_of_consumed before hc)
    · exact h.consumed hf
  · intro linear r f hf
    rw [Table.find?_insert] at hf
    split at hf
    · obtain rfl := Option.some.inj hf
      exact Nat.zero_le 1
    · exact h.once (everywhere_concat.1 linear).1 hf
  · intro j hj jop r hr
    rcases List.mem_append.1 hj with hj | hj
    · obtain ⟨f, hf, he⟩ := h.entangled j hj jop r hr
      exact ⟨f, by rw [Table.find?_insert, if_neg (other hf), hf], he⟩
    · rw [List.mem_singleton.1 hj, op] at jop
      exact absurd jop (by simp)

/-- The operands have interacted, and no other qudit notices. -/
theorem Tracks.interact (h : facts.Tracks is) (resolves : i.Resolves is)
    (op : i.opcode ≠ .allocQudit) :
    Tracks (i.resources.foldl (fun t r => t.modify r fun f => f.interact i.opcode.isConsuming
      (i.opcode = .entangle || i.opcode = .entangleRemote)) facts) (is ++ [i]) := by
  have find := fun r => find?_modifyAll (fun f => f.interact i.opcode.isConsuming
    (i.opcode = .entangle || i.opcode = .entangleRemote)) resolves.nodup facts r
  constructor
  · intro r
    have same : i.Allocates r ↔ False := iff_false_intro fun ha => op ha.1
    rw [allocated_concat, same, or_false, ← h.tracked, Table.contains, Table.contains, find]
    split
    · rw [Option.isSome_map]
    · rfl
  · intro r f hf
    rw [find] at hf
    rw [consumed_concat, Instruction.Consumes]
    split at hf
    · rename_i hr
      obtain ⟨g, hg, rfl⟩ := Option.map_eq_some_iff.1 hf
      rw [← h.consumed hg, Facts.interact]
      by_cases hc : i.opcode.isConsuming = true <;> simp [hc, hr]
    · rename_i hr
      rw [← h.consumed hf]
      simp [hr]
  · intro linear r f hf
    obtain ⟨linear, free⟩ := everywhere_concat.1 linear
    rw [find] at hf
    split at hf
    · rename_i hr
      obtain ⟨g, hg, rfl⟩ := Option.map_eq_some_iff.1 hf
      have unused : ¬ 0 < g.consumed := fun hc => free r hr ((h.consumed hg).1 hc)
      rw [Facts.interact]
      dsimp only
      split <;> omega
    · exact h.once linear hf
  · intro j hj jop r hr
    rw [find]
    rcases List.mem_append.1 hj with hj | hj
    · obtain ⟨f, hf, he⟩ := h.entangled j hj jop r hr
      split
      · exact ⟨_, by rw [hf]; rfl, by simp [Facts.interact, he]⟩
      · exact ⟨f, hf, he⟩
    · obtain rfl := List.mem_singleton.1 hj
      obtain ⟨f, hf⟩ := Table.contains_eq_true_iff.1 ((h.tracked r).2 (resolves.allocated r hr))
      rw [if_pos hr, hf]
      exact ⟨_, rfl, by simp [Facts.interact, jop]⟩

/-- Every resolved instruction keeps the counts. -/
theorem Tracks.concat (h : facts.Tracks is) (resolved : Resolved (is ++ [i]))
    (lines : Array (List Char)) (partners : Partners) :
    (facts.apply (i.node lines partners)).Tracks (is ++ [i]) := by
  rw [apply_node]
  split
  · rename_i op
    exact h.allocate resolved op
  · rename_i op
    exact h.interact (everywhere_concat.1 resolved).2 op

end FactTable

/-! ## Judging -/

/-- A constraint does not make an error in a context. -/
def Constraint.Upheld (c : Constraint) (ctx : Context) : Prop :=
  c.required = true → c.evaluate ctx = none

namespace Findings

variable {ctx : Context} {location : Location} {f : Findings}

theorem severity_of_finding? {c : Constraint} {d : Diagnostic}
    (h : c.finding? ctx location = some d) :
    c.evaluate ctx ≠ none ∧ (d.severity = .error ↔ c.required = true) := by
  obtain ⟨v, hv, rfl⟩ := Option.map_eq_some_iff.1 h
  refine ⟨by simp [hv], ?_⟩
  rw [Violation.diagnostic]
  cases c.required <;> simp

/-- Judging a constraint adds an error only where it is not upheld. -/
theorem quiet_judge {c : Constraint} (hf : Quiet f.diagnostics.toList) (hc : c.Upheld ctx) :
    Quiet (f.judge ctx location c).diagnostics.toList := by
  unfold judge
  split
  · exact hf
  · split
    · exact hf
    · rename_i d hd
      obtain ⟨violated, severe⟩ := severity_of_finding? hd
      rw [Array.toList_push, quiet_append]
      refine ⟨hf, fun e he => ?_⟩
      obtain rfl := List.mem_singleton.1 he
      exact fun error => violated (hc (severe.1 error))

/-- Judging a constraint adds an error wherever it is not upheld, unless it counts the uses in the
whole program. -/
theorem upheld_of_quiet_judge {c : Constraint}
    (h : Quiet (f.judge ctx location c).diagnostics.toList) :
    Quiet f.diagnostics.toList ∧ ((∀ r, c.kind ≠ .noCloning r .program) → c.Upheld ctx) := by
  unfold judge at h
  split at h
  · rename_i hc
    refine ⟨h, fun kind => ?_⟩
    unfold covers at hc
    split at hc
    · rename_i r hk
      exact absurd hk (kind r)
    · exact absurd hc (by simp)
  · split at h
    · rename_i hd
      exact ⟨h, fun _ _ => Option.map_eq_none_iff.1 hd⟩
    · rename_i d hd
      obtain ⟨-, severe⟩ := severity_of_finding? hd
      rw [Array.toList_push, quiet_append] at h
      exact ⟨h.1, fun _ required => absurd (severe.2 required) (h.2 d (List.mem_singleton.2 rfl))⟩

theorem quiet_judgeAll {node : Node} {type : InferredType} {phase : Phase}
    (hf : Quiet f.diagnostics.toList) (hc : ∀ c ∈ type.constraintsIn phase, c.Upheld ctx) :
    Quiet (f.judgeAll ctx node type phase).diagnostics.toList := by
  unfold judgeAll
  generalize type.constraintsIn phase = cs at hc
  induction cs generalizing f with
  | nil => exact hf
  | cons c rest ih =>
    obtain ⟨first, others⟩ := List.forall_mem_cons.1 hc
    exact ih (quiet_judge hf first) others

theorem upheld_of_quiet_judgeAll {node : Node} {type : InferredType} {phase : Phase}
    (h : Quiet (f.judgeAll ctx node type phase).diagnostics.toList) :
    Quiet f.diagnostics.toList ∧ ∀ c ∈ type.constraintsIn phase,
      (∀ r, c.kind ≠ .noCloning r .program) → c.Upheld ctx := by
  unfold judgeAll at h
  generalize type.constraintsIn phase = cs at h
  induction cs generalizing f with
  | nil => exact ⟨h, fun c hc => absurd hc (by simp)⟩
  | cons c rest ih =>
    obtain ⟨first, others⟩ := ih h
    obtain ⟨quiet, upheld⟩ := upheld_of_quiet_judge first
    exact ⟨quiet, List.forall_mem_cons.2 ⟨upheld, others⟩⟩

end Findings

/-! ## Replays -/

theorem InferredType.mem_constraintsIn {t : InferredType} {phase : Phase} {c : Constraint} :
    c ∈ t.constraintsIn phase ↔ c ∈ t.constraints ∧ c.phase = phase := by
  rw [constraintsIn, List.mem_filter, decide_eq_true_eq]

section

variable (views : EntityViews) (options : CheckOptions) (lines : Array (List Char))
  (partners : Partners)

/-- What an instruction owes in a phase is upheld. -/
def Instruction.Upholds (i : Instruction) (phase : Phase) (ctx : Context) : Prop :=
  ∀ c ∈ owed options.explainabilityThreshold views partners i, c.phase = phase → c.Upheld ctx

/-- The uses in the whole program are judged last. -/
theorem phase_of_mem_owed {threshold : Binary64} {i : Instruction} {c : Constraint} {r : String}
    (hc : c ∈ owed threshold views partners i) (hk : c.kind = .noCloning r .program) :
    c.phase = .final := by
  cases owes_of_mem hc with
  | total => rfl
  | _ => exact absurd hk (by simp [Constraint.noCloning, Constraint.memorySafety,
      Constraint.entanglementConsistency, Constraint.coherencePreservation,
      Constraint.explainability, Constraint.compliance, Constraint.humanOversight,
      Constraint.humanApproval])

/-- The replay up to the end of a program, before its last pass. -/
def replayed (is : List Instruction) : Replay :=
  (annotated views options (is.map (·.node lines partners))).foldl
    (Replay.step views options.maxCoherentOperations) {}

/-- The context at the end of a program. -/
def contextAfter (is : List Instruction) : Context :=
  (replayed views options lines partners is).facts.context views options.maxCoherentOperations

theorem replayed_concat {is : List Instruction} {i : Instruction} (h : i.Resolves is) :
    ∃ type : InferredType, type.constraints =
      owed options.explainabilityThreshold views partners i ∧
      replayed views options lines partners (is ++ [i]) =
        ⟨(replayed views options lines partners is).facts.apply (i.node lines partners),
          ((replayed views options lines partners is).findings.judgeAll
            (contextAfter views options lines partners is) (i.node lines partners) type
              .pre).judgeAll
              (((replayed views options lines partners is).facts.apply
                (i.node lines partners)).context views options.maxCoherentOperations)
              (i.node lines partners) type .post⟩ := by
  obtain ⟨typed, constraints⟩ := typeAfter_of_resolves views options lines partners h
  refine ⟨_, constraints, ?_⟩
  rw [replayed, List.map_append, List.map_singleton, annotated_concat, List.foldl_append,
    List.foldl_cons, List.foldl_nil, Replay.step]
  simp only [typed]
  rfl

/-- In a resolved program the counts mean what they should. -/
theorem tracks_replayed {is : List Instruction} (h : Resolved is) :
    (replayed views options lines partners is).facts.Tracks is := by
  induction is using List.reverseRecOn with
  | nil => exact FactTable.tracks_nil
  | append_singleton is i ih =>
    obtain ⟨before, resolves⟩ := everywhere_concat.1 h
    obtain ⟨type, -, hr⟩ := replayed_concat views options lines partners resolves
    rw [hr]
    exact (ih before).concat h lines partners

/-- **The replay finds no error** before its last pass exactly where every instruction upholds what
it owes before and after it. -/
theorem quiet_replayed_iff {is : List Instruction} (h : Resolved is) :
    Quiet (replayed views options lines partners is).findings.diagnostics.toList ↔
      Everywhere (fun before i =>
        i.Upholds views options partners .pre (contextAfter views options lines partners before) ∧
        i.Upholds views options partners .post
          (contextAfter views options lines partners (before ++ [i]))) is := by
  induction is using List.reverseRecOn with
  | nil => exact iff_of_true (by simp [replayed, annotated, inferAll]) (everywhere_nil _)
  | append_singleton is i ih =>
    obtain ⟨before, resolves⟩ := everywhere_concat.1 h
    obtain ⟨type, constraints, hr⟩ := replayed_concat views options lines partners resolves
    have after : contextAfter views options lines partners (is ++ [i]) =
        ((replayed views options lines partners is).facts.apply (i.node lines partners)).context
        views
          options.maxCoherentOperations := by
      rw [contextAfter, hr]
    rw [everywhere_concat, ← ih before, after, hr]
    constructor
    · intro quiet
      obtain ⟨quiet, post⟩ := Findings.upheld_of_quiet_judgeAll quiet
      obtain ⟨quiet, pre⟩ := Findings.upheld_of_quiet_judgeAll quiet
      simp only [InferredType.mem_constraintsIn, constraints] at pre post
      refine ⟨quiet, fun c hc hp => pre c ⟨hc, hp⟩ fun r hk => ?_, fun c hc hp =>
        post c ⟨hc, hp⟩ fun r hk => ?_⟩
      · rw [phase_of_mem_owed views partners hc hk] at hp
        exact absurd hp (by simp)
      · rw [phase_of_mem_owed views partners hc hk] at hp
        exact absurd hp (by simp)
    · rintro ⟨quiet, pre, post⟩
      refine Findings.quiet_judgeAll (Findings.quiet_judgeAll quiet fun c hc => ?_) fun c hc => ?_
      · obtain ⟨hc, hp⟩ := InferredType.mem_constraintsIn.1 hc
        exact pre c (constraints ▸ hc) hp
      · obtain ⟨hc, hp⟩ := InferredType.mem_constraintsIn.1 hc
        exact post c (constraints ▸ hc) hp

/-! ## The last pass -/

theorem quiet_of_quiet_final {ctx : Context} (nodes : List (Node × InferredType)) {f : Findings}
    (h : Quiet (nodes.foldl (fun f (node, type) => f.judgeAll ctx node type .final)
      f).diagnostics.toList) : Quiet f.diagnostics.toList := by
  induction nodes generalizing f with
  | nil => exact h
  | cons nt rest ih => exact (Findings.upheld_of_quiet_judgeAll (ih h)).1

theorem quiet_final {ctx : Context} (nodes : List (Node × InferredType)) {f : Findings}
    (hf : Quiet f.diagnostics.toList)
    (h : ∀ nt ∈ nodes, ∀ c ∈ nt.2.constraintsIn .final, c.Upheld ctx) :
    Quiet (nodes.foldl (fun f (node, type) => f.judgeAll ctx node type .final)
      f).diagnostics.toList := by
  induction nodes generalizing f with
  | nil => exact hf
  | cons nt rest ih =>
    obtain ⟨first, others⟩ := List.forall_mem_cons.1 h
    exact ih (Findings.quiet_judgeAll hf first) others

/-- In a resolved program every annotation is what some instruction owes. -/
theorem owed_of_mem_annotated {is : List Instruction} (h : Resolved is)
    {nt : Node × InferredType}
    (hnt : nt ∈ annotated views options (is.map (·.node lines partners))) :
    ∃ i ∈ is, nt.2.constraints = owed options.explainabilityThreshold views partners i := by
  induction is using List.reverseRecOn with
  | nil => exact absurd hnt (by simp [annotated])
  | append_singleton is i ih =>
    obtain ⟨before, resolves⟩ := everywhere_concat.1 h
    rw [List.map_append, List.map_singleton, annotated_concat, List.mem_append,
      List.mem_singleton] at hnt
    rcases hnt with hnt | rfl
    · obtain ⟨j, hj, hc⟩ := ih before hnt
      exact ⟨j, List.mem_append_left _ hj, hc⟩
    · exact ⟨i, List.mem_append_right _ (List.mem_singleton.2 rfl),
        (typeAfter_of_resolves views options lines partners resolves).2⟩

end

end GovernedQuantum
