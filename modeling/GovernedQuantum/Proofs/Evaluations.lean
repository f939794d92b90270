import GovernedQuantum.Proofs.ModifierOrder
import GovernedQuantum.Proofs.Reuse

/-!
# The evaluations of a replay

A replay is a sequence of evaluations, each of one constraint in one state: before a node takes
effect, after it, or at the end. Inference has been over the same nodes before, with tables of its
own. This file shows that the two walks never part, whatever the nodes are: a node that inference
rejects has no effect on the replay, and one that it accepts has the same effect on both. So a
constraint that was attached to a node finds its qudits and its entity where it is evaluated.

* `evaluations`: what a replay evaluates, in order. `replay_eq_foldl`: **the replay is the sequence
  of its evaluations.**
* `FactTable.InStep`: the replay tracks the qudits that inference knows. `inStep_replayBehind`: at
  every point of the two walks.
* `Constraint.Founded`: what the attachment of a constraint says about its names.
* `replay_in_step`: **every evaluation finds its names known**, so no finding tells of a name that
  is not.
-/

namespace GovernedQuantum

/-! ## Evaluations -/

/-- The number of nodes that have taken effect when a constraint of the node at `k` of `n` is
evaluated. -/
def Phase.behind (n k : Nat) : Phase → Nat
  | pre => k
  | post => k + 1
  | final => n

/-- A constraint of a node is evaluated when some nodes have taken effect. -/
structure Evaluation where
  behind : Nat
  node : Node
  constraint : Constraint

namespace Evaluation

/-- The evaluations of the node at `k` of `n` in one phase. -/
def ofNode (n k : Nat) (nt : Node × InferredType) (phase : Phase) : List Evaluation :=
  (nt.2.constraintsIn phase).map fun c => ⟨phase.behind n k, nt.1, c⟩

variable {n k : Nat} {nt : Node × InferredType} {phase : Phase}

theorem mem_ofNode {ev : Evaluation} :
    ev ∈ ofNode n k nt phase ↔
      ev.constraint ∈ nt.2.constraints ∧ ev.constraint.phase = phase ∧ ev.node = nt.1 ∧
        ev.behind = phase.behind n k := by
  obtain ⟨behind, node, c⟩ := ev
  simp only [ofNode, List.mem_map, InferredType.mem_constraintsIn, Evaluation.mk.injEq]
  constructor
  · rintro ⟨c', ⟨hc, hp⟩, rfl, rfl, rfl⟩
    exact ⟨hc, hp, rfl, rfl⟩
  · rintro ⟨hc, hp, rfl, rfl⟩
    exact ⟨c, ⟨hc, hp⟩, rfl, rfl, rfl⟩

theorem ofNode_of_constraints_nil (h : nt.2.constraints = []) : ofNode n k nt phase = [] := by
  simp [ofNode, InferredType.constraintsIn, h]

end Evaluation

/-- What the replay evaluates when it comes to the nodes of `front`, of `n` in all. -/
def walkEvaluations (n : Nat) (front : List (Node × InferredType)) : List Evaluation :=
  front.zipIdx.flatMap
    fun x => Evaluation.ofNode n x.2 x.1 .pre ++ Evaluation.ofNode n x.2 x.1 .post

/-- What the last pass evaluates. -/
def lastEvaluations (nodes : List (Node × InferredType)) : List Evaluation :=
  nodes.zipIdx.flatMap fun x => Evaluation.ofNode nodes.length x.2 x.1 .final

/-- **What a replay evaluates**, in order. -/
def evaluations (nodes : List (Node × InferredType)) : List Evaluation :=
  walkEvaluations nodes.length nodes ++ lastEvaluations nodes

/-- An evaluation of a replay belongs to a node, at a point that its phase says. -/
theorem exists_of_mem_evaluations {nodes : List (Node × InferredType)} {ev : Evaluation}
    (h : ev ∈ evaluations nodes) :
    ∃ k type, nodes[k]? = some (ev.node, type) ∧ ev.constraint ∈ type.constraints ∧
      ev.behind = ev.constraint.phase.behind nodes.length k := by
  have located {x : (Node × InferredType) × Nat} {phase : Phase} (hx : x ∈ nodes.zipIdx)
      (hev : ev ∈ Evaluation.ofNode nodes.length x.2 x.1 phase) :
      ∃ k type, nodes[k]? = some (ev.node, type) ∧ ev.constraint ∈ type.constraints ∧
        ev.behind = ev.constraint.phase.behind nodes.length k := by
    obtain ⟨hc, hp, hn, hb⟩ := Evaluation.mem_ofNode.1 hev
    refine ⟨x.2, x.1.2, ?_, hc, hp ▸ hb⟩
    rw [hn]
    exact List.mk_mem_zipIdx_iff_getElem?.1 hx
  rcases List.mem_append.1 h with h | h
  · obtain ⟨x, hx, hev⟩ := List.mem_flatMap.1 h
    rcases List.mem_append.1 hev with hev | hev
    · exact located hx hev
    · exact located hx hev
  · obtain ⟨x, hx, hev⟩ := List.mem_flatMap.1 h
    exact located hx hev

section

variable (views : EntityViews) (budget : Nat) (nodes : List (Node × InferredType))

/-- The state that constraints see when `k` nodes have taken effect. -/
def contextBehind (k : Nat) : Context :=
  (replayBehind views budget nodes k).facts.context views budget

/-- What an evaluation finds. -/
def Evaluation.finding? (ev : Evaluation) : Option Diagnostic :=
  ev.constraint.finding? (contextBehind views budget nodes ev.behind) ev.node.location

/-- One evaluation in a replay. -/
def Findings.evaluate (f : Findings) (ev : Evaluation) : Findings :=
  f.judge (contextBehind views budget nodes ev.behind) ev.node.location ev.constraint

theorem Findings.foldl_ofNode (f : Findings) (n k : Nat) (nt : Node × InferredType)
    (phase : Phase) :
    (Evaluation.ofNode n k nt phase).foldl (Findings.evaluate views budget nodes) f =
      f.judgeAll (contextBehind views budget nodes (phase.behind n k)) nt.1 nt.2 phase := by
  rw [Evaluation.ofNode, List.foldl_map]
  rfl

variable {nodes} in
theorem replayBehind_succ {nt : Node × InferredType} {k : Nat} (here : nodes[k]? = some nt) :
    replayBehind views budget nodes (k + 1) =
      (replayBehind views budget nodes k).step views budget nt := by
  rw [replayBehind, List.take_add_one, here]
  exact List.foldl_concat ..

/-- The findings behind the first nodes are those of the evaluations there. -/
theorem findings_replayBehind (silent : ∀ nt ∈ nodes, nt.2.isUnknown = true → nt.2.constraints = [])
    (n k : Nat) :
    (replayBehind views budget nodes k).findings =
      (walkEvaluations n (nodes.take k)).foldl (Findings.evaluate views budget nodes) {} := by
  induction k with
  | zero => rfl
  | succ k ih =>
    cases here : nodes[k]? with
    | none =>
      have all : nodes.take (k + 1) = nodes.take k := by simp [List.take_add_one, here]
      rw [replayBehind, all]
      exact ih
    | some nt =>
      have next : nodes.take (k + 1) = nodes.take k ++ [nt] := by simp [List.take_add_one, here]
      have length : (nodes.take k).length = k := by
        have := (List.getElem?_eq_some_iff.1 here).1
        rw [List.length_take]
        omega
      have step := replayBehind_succ views budget here
      rw [next, walkEvaluations, List.zipIdx_append, List.flatMap_append, List.foldl_append,
        ← walkEvaluations, ← ih, length, Nat.zero_add, List.zipIdx_singleton,
        List.flatMap_singleton]
      by_cases unknown : nt.2.isUnknown = true
      · -- nothing is evaluated, and the node has no effect
        have none := silent nt (List.mem_of_getElem? here) unknown
        rw [Evaluation.ofNode_of_constraints_nil none,
          Evaluation.ofNode_of_constraints_nil none, step, Replay.step, if_pos unknown]
        rfl
      · have facts : (replayBehind views budget nodes (k + 1)).facts =
            (replayBehind views budget nodes k).facts.apply nt.1 := by
          rw [step, Replay.step, if_neg unknown]
        rw [List.foldl_append, Findings.foldl_ofNode, Findings.foldl_ofNode, step, Replay.step,
          if_neg unknown, Phase.behind, Phase.behind, contextBehind, contextBehind, facts]

theorem foldl_lastEvaluations (front : List (Node × InferredType)) (f : Findings) (start : Nat) :
    ((front.zipIdx start).flatMap fun x => Evaluation.ofNode nodes.length x.2 x.1 .final).foldl
        (Findings.evaluate views budget nodes) f =
      front.foldl (fun f nt =>
        f.judgeAll (contextBehind views budget nodes nodes.length) nt.1 nt.2 .final) f := by
  induction front generalizing f start with
  | nil => rfl
  | cons nt rest ih =>
    rw [List.zipIdx_cons, List.flatMap_cons, List.foldl_append, Findings.foldl_ofNode, ih]
    rfl

/-- **The replay is the sequence of its evaluations**, where rejected nodes carry no constraints. -/
theorem replay_eq_foldl (silent : ∀ nt ∈ nodes, nt.2.isUnknown = true → nt.2.constraints = []) :
    replay views budget nodes =
      (evaluations nodes).foldl (Findings.evaluate views budget nodes) {} := by
  have walk := findings_replayBehind views budget nodes silent nodes.length nodes.length
  rw [List.take_length] at walk
  rw [evaluations, List.foldl_append, ← walk, lastEvaluations, foldl_lastEvaluations]
  unfold replay contextBehind replayBehind
  rw [List.take_length]

end

/-! ## What an attachment says -/

/-- **What the attachment of a constraint says about its names**, if `σ` is known before the node
and `τ` after it. -/
structure Constraint.Founded (σ τ : Symbols) (c : Constraint) : Prop where
  entity : ∀ e ∈ c.kind.entity?, e ∈ τ.entities
  backed : ∀ r, c.kind = .memorySafety r →
    c.phase = .pre ∧ r ∈ σ.resources ∨ c.phase = .post ∧ r ∈ τ.resources
  /-- No other constraint counts uses. -/
  counted : ∀ r scope, c.kind = .noCloning r scope → c = .noCloning r scope

section

variable {views : EntityViews} {options : CheckOptions} {σ τ : Symbols} {node : Node}
  {c : Constraint}

theorem Constraint.founded_of_entity {e : String} (known : e ∈ τ.entities)
    (kind : c.kind.entity? = some e) : c.Founded σ τ where
  entity e' he' := Option.some.inj (kind.symm.trans he') ▸ known
  backed r hk := absurd kind (by simp [hk, ConstraintKind.entity?])
  counted r scope hk := absurd kind (by simp [hk, ConstraintKind.entity?])

theorem Constraint.founded_memorySafety {r : String} {phase : Phase}
    (known : phase = .pre ∧ r ∈ σ.resources ∨ phase = .post ∧ r ∈ τ.resources) :
    (Constraint.memorySafety r phase).Founded σ τ where
  entity e he := absurd he (by simp [memorySafety, ConstraintKind.entity?])
  backed r' hk := ConstraintKind.memorySafety.inj hk ▸ known
  counted r' scope hk := ConstraintKind.noConfusion hk

theorem Constraint.kind_noCloning (r : String) (scope : UsageScope) :
    (Constraint.noCloning r scope).kind = .noCloning r scope := by
  cases scope <;> rfl

theorem Constraint.founded_noCloning (r : String) (scope : UsageScope) :
    (Constraint.noCloning r scope).Founded σ τ where
  entity e he := absurd he (by simp [kind_noCloning, ConstraintKind.entity?])
  backed r' hk := absurd hk (by simp [kind_noCloning])
  counted r' scope' hk := by
    rw [kind_noCloning] at hk
    obtain ⟨rfl, rfl⟩ := ConstraintKind.noCloning.inj hk
    rfl

/-- Coherence and entanglement say nothing more about the names. -/
theorem Constraint.founded_of_other (entity : c.kind.entity? = none)
    (memory : ∀ r, c.kind ≠ .memorySafety r) (count : ∀ r scope, c.kind ≠ .noCloning r scope) :
    c.Founded σ τ where
  entity e he := absurd (entity.symm.trans he) (by simp)
  backed r hk := absurd hk (memory r)
  counted r scope hk := absurd hk (count r scope)

/-- A constraint that mentions an entity and nothing else is on that entity. -/
theorem Constraint.founded_of_mentions {e : String}
    (mentions : ∀ m ∈ c.kind.mentions, m ∈ [.entity e]) (known : e ∈ τ.entities) :
    c.Founded σ τ := by
  obtain ⟨kind, phase, description, required⟩ := c
  cases kind with
  | explainability | compliance | humanOversight | humanApproval =>
    refine founded_of_entity ?_ rfl
    have same := List.mem_singleton.1 (mentions _ List.mem_cons_self)
    exact Mention.entity.inj same ▸ known
  | noCloning | memorySafety | entanglementConsistency | coherencePreservation =>
    exact Mention.noConfusion (List.mem_singleton.1 (mentions _ List.mem_cons_self))

theorem founded_of_mem_resourceType {name : String} {dimension : Option Nat}
    {partners : List String} (hc : c ∈ (resourceType name dimension partners).constraints)
    (known : name ∈ τ.resources) : c.Founded σ τ := by
  rw [(constraints_resourceType name dimension partners).2] at hc
  rcases List.mem_append.1 hc with hc | hc
  · rcases List.mem_pair.1 hc with rfl | rfl
    · exact Constraint.founded_noCloning name .program
    · exact Constraint.founded_memorySafety (.inr ⟨rfl, known⟩)
  · split at hc
    · exact absurd hc List.not_mem_nil
    · rw [List.mem_singleton.1 hc]
      exact Constraint.founded_of_other rfl (fun _ => ConstraintKind.noConfusion)
        fun _ _ => ConstraintKind.noConfusion

theorem founded_of_mem_operationType {opcode : Opcode} {operands : List String}
    {gate remote : Option String} {consuming : Bool}
    (hc : c ∈ (operationType opcode operands gate remote consuming).constraints)
    (known : ∀ r ∈ operands, r ∈ σ.resources) : c.Founded σ τ := by
  rw [(constraints_operationType opcode operands gate remote consuming).2] at hc
  obtain ⟨r, hr, hc⟩ := List.mem_flatMap.1 hc
  rcases List.mem_append.1 hc with hc | hc
  · rcases List.mem_pair.1 hc with rfl | rfl
    · exact Constraint.founded_memorySafety (.inl ⟨rfl, known r hr⟩)
    · exact Constraint.founded_noCloning r .operation
  · split at hc
    · exact absurd hc List.not_mem_nil
    · rw [List.mem_singleton.1 hc]
      exact Constraint.founded_of_other rfl (fun _ => ConstraintKind.noConfusion)
        fun _ _ => ConstraintKind.noConfusion

theorem mem_entities_of_ofEntity {location : Location} {entity : String} {typing : Typing}
    (hc : c ∈ (Typing.ofEntity σ location entity typing).type.constraints) :
    entity ∈ σ.entities := by
  unfold Typing.ofEntity at hc
  split at hc
  · rename_i known
    exact List.contains_iff_mem.1 known
  · exact absurd hc List.not_mem_nil

/-- **A constraint is attached to a node only where its names are known.** -/
theorem founded_of_mem_constraints (hc : c ∈ (infer views options σ node).type.constraints) :
    c.Founded σ (infer views options σ node).symbols := by
  have mentions := mentions_of_mem_constraints views options σ node hc
  rw [symbols_infer]
  obtain ⟨opcode, location, text, metadata⟩ := node
  cases metadata with
  | resource name dimension partners =>
    simp only [infer] at hc
    by_cases known : name ∈ σ.resources
    · rw [if_pos (List.contains_iff_mem.2 known)] at hc
      exact absurd hc List.not_mem_nil
    · rw [if_neg (mt List.contains_iff_mem.1 known)] at hc
      simp only [if_neg known]
      exact founded_of_mem_resourceType hc List.mem_cons_self
  | operation operands gate remote consuming =>
    simp only [infer] at hc
    split at hc
    · rename_i found
      exact founded_of_mem_operationType hc (by simpa using found)
    · exact absurd hc List.not_mem_nil
  | entity name explainability oversight criticality =>
    refine Constraint.founded_of_mentions mentions ?_
    dsimp only
    split
    · assumption
    · exact List.mem_cons_self
  | modifier entity m => exact Constraint.founded_of_mentions mentions (mem_entities_of_ofEntity hc)
  | governed entity action =>
    exact Constraint.founded_of_mentions mentions (mem_entities_of_ofEntity hc)
  | decision entity action =>
    exact Constraint.founded_of_mentions mentions (mem_entities_of_ofEntity hc)
  | literal name value => exact absurd hc List.not_mem_nil
  | reference name =>
    simp only [infer] at hc
    split at hc
    · exact absurd hc List.not_mem_nil
    · exact absurd hc List.not_mem_nil
  | directive d =>
    have hc : c ∈ (directiveType location d).1.constraints := hc
    rw [(constraints_directiveType location d).2] at hc
    exact absurd hc List.not_mem_nil

/-- A node is typed, or it carries no constraints. -/
theorem isUnknown_or_constraints_nil :
    (infer views options σ node).type.isUnknown = false ∨
      (infer views options σ node).type.constraints = [] := by
  obtain ⟨opcode, location, text, metadata⟩ := node
  have about {entity : String} {typing : Typing} (known : typing.type.isUnknown = false) :
      (Typing.ofEntity σ location entity typing).type.isUnknown = false ∨
        (Typing.ofEntity σ location entity typing).type.constraints = [] := by
    unfold Typing.ofEntity
    split
    · exact .inl known
    · exact .inr rfl
  cases metadata with
  | resource name dimension partners =>
    simp only [infer]
    split
    · exact .inr rfl
    · exact .inl (constraints_resourceType name dimension partners).1
  | operation operands gate remote consuming =>
    simp only [infer]
    split
    · exact .inl (constraints_operationType opcode operands gate remote consuming).1
    · exact .inr rfl
  | entity name explainability oversight criticality =>
    simp only [infer]
    split
    · exact .inr rfl
    · exact .inl (constraints_entityType _ name _).1
  | modifier entity m => exact about (constraints_modifierType entity m).1
  | governed entity action =>
    cases action with
    | deploy target => exact about rfl
    | verify => exact about rfl
  | decision entity action => exact about (constraints_decisionType _ entity action _).1
  | literal name value => exact .inr rfl
  | reference name =>
    simp only [infer]
    split <;> exact .inr rfl
  | directive d => exact .inl (constraints_directiveType location d).1

end

/-! ## In step -/

/-- **The replay and inference know the same qudits.** -/
def FactTable.InStep (facts : FactTable) (σ : Symbols) : Prop :=
  ∀ r, facts.contains r = true ↔ r ∈ σ.resources

/-- A change of qudits that are known makes no other known. -/
theorem FactTable.contains_modifyAll (g : Facts → Facts) (names : List String) (facts : FactTable)
    (r : String) :
    (names.foldl (fun t name => t.modify name g) facts).contains r = facts.contains r := by
  induction names generalizing facts with
  | nil => rfl
  | cons name rest ih => rw [List.foldl_cons, ih, Table.contains_modify]

theorem Replay.facts_step (views : EntityViews) (budget : Nat) (s : Replay)
    (nt : Node × InferredType) :
    (s.step views budget nt).facts = if nt.2.isUnknown then s.facts else s.facts.apply nt.1 := by
  unfold Replay.step
  dsimp only
  split <;> rfl

section

variable {views : EntityViews} {options : CheckOptions} {σ : Symbols} {node : Node}

/-- A qudit that is typed was not known before. -/
theorem not_mem_resources_of_typed {name : String} {dimension : Option Nat} {partners : List String}
    (hm : node.metadata = .resource name dimension partners)
    (typed : (infer views options σ node).type.isUnknown = false) : name ∉ σ.resources := by
  intro known
  simp only [infer, hm, if_pos (List.contains_iff_mem.2 known)] at typed
  exact absurd typed (by simp [Typing.rejected, Typing.reporting, InferredType.isUnknown,
    InferredType.unknown])

/-- The operands of an operation that is typed are known. -/
theorem mem_resources_of_typed {operands : List String} {gate remote : Option String}
    {consuming : Bool} (hm : node.metadata = .operation operands gate remote consuming)
    (typed : (infer views options σ node).type.isUnknown = false) :
    ∀ r ∈ operands, r ∈ σ.resources := by
  simp only [infer, hm] at typed
  split at typed
  · rename_i found
    simpa using found
  · exact absurd typed (by simp [Typing.rejected, Typing.reporting, InferredType.isUnknown,
      InferredType.unknown])

/-- **A node keeps the two in step**: rejected, it has no effect on either. -/
theorem FactTable.InStep.step {facts : FactTable} (h : facts.InStep σ) (views : EntityViews)
    (options : CheckOptions) (node : Node) :
    (if (infer views options σ node).type.isUnknown then facts else facts.apply node).InStep
      (infer views options σ node).symbols := by
  obtain ⟨opcode, location, text, metadata⟩ := node
  rw [symbols_infer]
  cases metadata with
  | resource name dimension partners =>
    by_cases known : name ∈ σ.resources
    · simp only [infer, if_pos (List.contains_iff_mem.2 known), if_pos known]
      exact h
    · simp only [infer, if_neg (mt List.contains_iff_mem.1 known), if_neg known, Typing.reporting,
        (constraints_resourceType name dimension partners).1, FactTable.apply]
      intro r
      rw [if_neg Bool.false_ne_true, Table.contains_insert, Bool.or_eq_true, decide_eq_true_eq, h r,
        List.mem_cons, eq_comm]
  | operation operands gate remote consuming =>
    intro r
    split
    · exact h r
    · rw [FactTable.apply, FactTable.contains_modifyAll]
      exact h r
  | entity name explainability oversight criticality =>
    have resources : (if name ∈ σ.entities then σ else
        { σ with entities := name :: σ.entities }).resources = σ.resources := by
      split <;> rfl
    intro r
    simp only [resources]
    split <;> exact h r
  | modifier | governed | decision | literal | reference | directive =>
    intro r
    split <;> exact h r

/-! ## Declared entities -/

theorem EntityViews.contains_step (views : EntityViews) (node : Node) (e : String) :
    (views.step node).contains e = true ↔ views.contains e = true ∨ node.declares? = some e := by
  obtain ⟨opcode, location, text, metadata⟩ := node
  cases metadata with
  | entity name explainability oversight criticality =>
    simp only [EntityViews.step, Node.declares?, Option.some.injEq]
    split
    · rename_i known
      refine ⟨.inl, ?_⟩
      rintro (h | rfl)
      · exact h
      · exact known
    · rw [Table.contains_insert, Bool.or_eq_true, decide_eq_true_eq, or_comm]
  | modifier entity m => simp [EntityViews.step, Node.declares?, Table.contains_modify]
  | resource | operation | governed | decision | literal | reference | directive =>
    simp [EntityViews.step, Node.declares?]

theorem mem_entities_infer (e : String) :
    e ∈ (infer views options σ node).symbols.entities ↔
      e ∈ σ.entities ∨ node.declares? = some e := by
  obtain ⟨opcode, location, text, metadata⟩ := node
  rw [symbols_infer]
  cases metadata with
  | entity name explainability oversight criticality =>
    simp only [Node.declares?, Option.some.injEq]
    split
    · rename_i known
      refine ⟨.inl, ?_⟩
      rintro (h | rfl)
      · exact h
      · exact known
    · rw [List.mem_cons, or_comm, eq_comm]
  | resource name dimension partners =>
    simp only [Node.declares?]
    split <;> simp
  | operation | modifier | governed | decision | literal | reference | directive =>
    simp [Node.declares?]

end

/-- The folded entities are those that some node declares. -/
theorem contains_foldEntities (nodes : List Node) (e : String) :
    (foldEntities nodes).contains e = true ↔ ∃ node ∈ nodes, node.declares? = some e := by
  induction nodes using List.reverseRecOn with
  | nil => simp [foldEntities]
  | append_singleton nodes node ih =>
    rw [foldEntities, List.foldl_concat, EntityViews.contains_step]
    simp only [List.mem_append, List.mem_singleton, or_and_right, exists_or, exists_eq_left]
    exact or_congr_left ih

section

variable (views : EntityViews) (options : CheckOptions)

/-- So are the entities that inference knows. -/
theorem mem_entities_inferAll (nodes : List Node) (e : String) :
    e ∈ (inferAll views options nodes).symbols.entities ↔
      ∃ node ∈ nodes, node.declares? = some e := by
  induction nodes using List.reverseRecOn with
  | nil => simp [inferAll]
  | append_singleton nodes node ih =>
    rw [inferAll_concat, Inference.step, mem_entities_infer, ih]
    simp only [List.mem_append, List.mem_singleton, or_and_right, exists_or, exists_eq_left]

/-! ## The two walks -/

theorem replayBehind_concat (budget : Nat) (nodes : List Node) (node : Node) :
    replayBehind views budget (annotated views options (nodes ++ [node])) (nodes.length + 1) =
      (replayBehind views budget (annotated views options nodes) nodes.length).step views budget
        (node, typeAfter views options nodes node) := by
  have length := length_annotated views options
  rw [replayBehind, replayBehind, List.take_of_length_le (by simp [length]),
    List.take_of_length_le (by simp [length]), annotated_concat, List.foldl_concat]

/-- The replay behind the first nodes has seen no other. -/
theorem replayBehind_take (budget : Nat) (nodes : List Node) (k : Nat) :
    replayBehind views budget (annotated views options nodes) k =
      replayBehind views budget (annotated views options (nodes.take k)) (nodes.take k).length := by
  have all : (annotated views options (nodes.take k)).length ≤ (nodes.take k).length := by
    rw [length_annotated]
  rw [replayBehind, replayBehind, annotated_take, List.take_of_length_le all]

/-- **The replay and inference stay in step**, node by node. -/
theorem inStep_replayBehind (budget : Nat) (nodes : List Node) (k : Nat) :
    (replayBehind views budget (annotated views options nodes) k).facts.InStep
      (inferAll views options (nodes.take k)).symbols := by
  rw [replayBehind_take]
  generalize nodes.take k = front
  induction front using List.reverseRecOn with
  | nil =>
    intro r
    simp [replayBehind, inferAll]
  | append_singleton front node ih =>
    rw [List.length_append, List.length_singleton, replayBehind_concat, inferAll_concat,
      Replay.facts_step]
    exact ih.step views options node

/-- A node of a program with the type that it gets behind the others. -/
theorem getElem?_annotated {nodes : List Node} {k : Nat} {node : Node} {type : InferredType}
    (here : (annotated views options nodes)[k]? = some (node, type)) :
    nodes[k]? = some node ∧ type = typeAfter views options (nodes.take k) node := by
  obtain ⟨hn, ht⟩ := List.getElem?_zip_eq_some.1 here
  refine ⟨hn, ?_⟩
  obtain ⟨hk, rfl⟩ := List.getElem?_eq_some_iff.1 hn
  have found := getElem?_types views options (nodes.take k) (nodes.drop (k + 1)) nodes[k]
  rw [← List.drop_eq_getElem_cons hk, List.take_append_drop, List.length_take,
    Nat.min_eq_left (Nat.le_of_lt hk)] at found
  exact Option.some.inj (ht.symm.trans found)

theorem silent_annotated (nodes : List Node) :
    ∀ nt ∈ annotated views options nodes, nt.2.isUnknown = true → nt.2.constraints = [] := by
  rintro ⟨node, type⟩ hnt unknown
  obtain ⟨k, here⟩ := List.getElem?_of_mem hnt
  obtain ⟨-, rfl⟩ := getElem?_annotated views options here
  exact isUnknown_or_constraints_nil.resolve_left fun typed =>
    Bool.false_ne_true (typed.symm.trans unknown)

/-- Every evaluation is of a constraint that was attached to its node. -/
theorem founded_of_mem_evaluations {nodes : List Node} {ev : Evaluation}
    (h : ev ∈ evaluations (annotated views options nodes)) :
    ∃ k, nodes[k]? = some ev.node ∧ ev.behind = ev.constraint.phase.behind nodes.length k ∧
      ev.constraint.Founded (inferAll views options (nodes.take k)).symbols
        (inferAll views options (nodes.take (k + 1))).symbols := by
  obtain ⟨k, type, typed, hc, behind⟩ := exists_of_mem_evaluations h
  obtain ⟨here, rfl⟩ := getElem?_annotated views options typed
  rw [length_annotated] at behind
  refine ⟨k, here, behind, ?_⟩
  have next : nodes.take (k + 1) = nodes.take k ++ [ev.node] := by simp [List.take_add_one, here]
  rw [next, inferAll_concat]
  exact founded_of_mem_constraints hc

/-- **The entity of an evaluation is among the folded ones.** -/
theorem contains_of_mem_evaluations {nodes : List Node} {ev : Evaluation}
    (h : ev ∈ evaluations (annotated views options nodes)) :
    ∀ e ∈ ev.constraint.kind.entity?, (foldEntities nodes).contains e = true := by
  intro e he
  obtain ⟨k, -, -, founded⟩ := founded_of_mem_evaluations views options h
  obtain ⟨node, hn, declares⟩ := (mem_entities_inferAll views options _ e).1 (founded.entity e he)
  exact (contains_foldEntities nodes e).2 ⟨node, List.mem_of_mem_take hn, declares⟩

/-- **The qudit of a memory constraint is known** where the constraint is evaluated. -/
theorem mem_resources_of_mem_evaluations {nodes : List Node} {ev : Evaluation}
    (h : ev ∈ evaluations (annotated views options nodes)) {r : String}
    (kind : ev.constraint.kind = .memorySafety r) :
    r ∈ (inferAll views options (nodes.take ev.behind)).symbols.resources := by
  obtain ⟨k, -, behind, founded⟩ := founded_of_mem_evaluations views options h
  rw [behind]
  rcases founded.backed r kind with ⟨phase, known⟩ | ⟨phase, known⟩
  · rw [phase]
    exact known
  · rw [phase]
    exact known

/-- The findings of a replay are those of its evaluations. -/
theorem exists_evaluation_of_mem_replay (budget : Nat) {nodes : List Node} {d : Diagnostic}
    (h : d ∈ (replay views budget (annotated views options nodes)).diagnostics.toList) :
    ∃ ev ∈ evaluations (annotated views options nodes),
      ev.finding? views budget (annotated views options nodes) = some d := by
  rw [replay_eq_foldl _ _ _ (silent_annotated views options nodes)] at h
  generalize evaluations (annotated views options nodes) = evs at h
  induction evs using List.reverseRecOn with
  | nil => exact absurd h (by simp)
  | append_singleton evs ev ih =>
    rw [List.foldl_concat, Findings.evaluate] at h
    obtain ⟨found, judged⟩ : ∃ found, Findings.Judged
        (contextBehind views budget (annotated views options nodes) ev.behind) ev.node.location
        [ev.constraint] _ (Findings.judge _ _ _ ev.constraint) found :=
          Findings.judged_judge ev.constraint
    rw [judged.diagnostics, List.mem_append] at h
    rcases h with earlier | here
    · obtain ⟨ev', hev', finding⟩ := ih earlier
      exact ⟨ev', List.mem_append_left _ hev', finding⟩
    · obtain ⟨c, hc, finding, -⟩ := judged.sound d here
      obtain rfl := List.mem_singleton.1 hc
      exact ⟨ev, List.mem_append_right _ (List.mem_singleton_self ev), finding⟩

end

/-! ## Names that are not known -/

/-- **A finding on a name that is not known** where a constraint is evaluated: a qudit without an
allocation behind it, or an entity that nobody declared. -/
inductive Mismatch : Diagnostic → Prop
  | unbacked {r : String} {phase : Phase} {ctx : Context} {l : Location} {d : Diagnostic}
      (found : (Constraint.memorySafety r phase).finding? ctx l = some d) : Mismatch d
  | undeclared (e : String) (l : Location) (required : Bool) :
      Mismatch ((Constraint.undeclared e).diagnostic l required)

/-- What such a finding looks like. -/
theorem Mismatch.shape {d : Diagnostic} (h : Mismatch d) :
    d.category = .quantumViolation ∧ d.suggestion = none ∧ Opens "resource '" d.message ∨
      d.category = .typing ∧ ∃ s, d.suggestion = some s ∧ Opens "declare it with" s := by
  cases h with
  | @unbacked r phase ctx l d found =>
    obtain ⟨v, hv, rfl⟩ := Option.map_eq_some_iff.1 found
    simp only [Constraint.evaluate, Constraint.memorySafety, Constraint.violation?,
      Option.ite_none_left_eq_some, Option.some.injEq] at hv
    obtain ⟨-, rfl⟩ := hv
    refine .inl ⟨rfl, rfl, ?_⟩
    simp only [Violation.diagnostic, String.append_assoc]
    exact Opens.append (by decide +kernel) _
  | undeclared e l required =>
    refine .inr ⟨rfl, _, rfl, ?_⟩
    simp only [String.append_assoc]
    exact Opens.append (by decide +kernel) _

/-- Where its names are known, a constraint finds something else. -/
theorem Constraint.not_mismatch {c : Constraint} {ctx : Context} {l : Location} {d : Diagnostic}
    (entity : ∀ e ∈ c.kind.entity?, ∃ view, ctx.entity e = some view)
    (backed : ∀ r, c.kind = .memorySafety r → ctx.isTracked r = true)
    (found : c.finding? ctx l = some d) : ¬ Mismatch d := by
  intro mismatch
  obtain ⟨v, hv, rfl⟩ := Option.map_eq_some_iff.1 found
  have category : v.category = c.category := Constraint.category_of_evaluate entity hv
  rcases mismatch.shape with ⟨quantum, suggestion, -⟩ | ⟨typing, -⟩
  · have none : v.suggestion = none := suggestion
    obtain ⟨kind, phase, description, required⟩ := c
    cases kind with
    | memorySafety r => simp [Constraint.evaluate, Constraint.violation?, backed r rfl] at hv
    | noCloning r scope =>
      cases scope <;>
      · simp only [Constraint.evaluate, Constraint.violation?, Option.ite_none_right_eq_some,
          Option.some.injEq] at hv
        rw [← hv.2] at none
        exact absurd none (by simp)
    | coherencePreservation r =>
      simp only [Constraint.evaluate, Constraint.violation?, Option.ite_none_left_eq_some,
        Option.some.injEq] at hv
      rw [← hv.2] at none
      exact absurd none (by simp)
    | entanglementConsistency r partners =>
      simp only [Constraint.evaluate, Constraint.violation?] at hv
      split at hv
      · exact absurd hv (by simp)
      · rw [← Option.some.inj hv] at none
        exact absurd none (by simp)
    | explainability | compliance | humanOversight | humanApproval =>
      exact absurd (category.symm.trans quantum) (by simp [Constraint.category])
  · refine absurd (category.symm.trans typing) ?_
    unfold Constraint.category
    split <;> simp

/-! ## What inference reports -/

/-- **What inference can report** at a place: an issue, or a window whose deadlines are not in
order. -/
inductive Reported (l : Location) : Diagnostic → Prop
  | issue (i : TypeIssue) : Reported l (i.diagnostic l)
  | window (message : String) :
      Reported l { severity := .warning, category := .typing, location := l, message := message }

theorem reported_directiveType {l : Location} {directive : Directive} {d : Diagnostic}
    (hd : d ∈ (directiveType l directive).2) : Reported l d := by
  cases directive with
  | targetNode | channel => exact absurd hd List.not_mem_nil
  | barrier name deadline =>
    cases deadline with
    | some ms => exact absurd hd List.not_mem_nil
    | none =>
      obtain rfl := List.mem_singleton.1 hd
      exact .issue _
  | window name soft hard =>
    simp only [directiveType] at hd
    split at hd
    · split at hd
      · obtain rfl := List.mem_singleton.1 hd
        exact .window _
      · exact absurd hd List.not_mem_nil
    · obtain rfl := List.mem_singleton.1 hd
      exact .issue _

theorem reported_infer {views : EntityViews} {options : CheckOptions} {σ : Symbols} {node : Node}
    {d : Diagnostic} (hd : d ∈ (infer views options σ node).findings) :
    Reported node.location d := by
  obtain ⟨opcode, location, text, metadata⟩ := node
  have issues {σ' : Symbols} {type : InferredType} {issues : List TypeIssue}
      (hd : d ∈ (Typing.reporting σ' location type issues).findings) : Reported location d := by
    obtain ⟨i, -, rfl⟩ := List.mem_map.1 hd
    exact .issue i
  have about {entity : String} {typing : Typing} (known : d ∈ typing.findings → Reported location d)
      (hd : d ∈ (Typing.ofEntity σ location entity typing).findings) : Reported location d := by
    unfold Typing.ofEntity at hd
    split at hd
    · exact known hd
    · exact issues hd
  cases metadata with
  | resource name dimension partners =>
    simp only [infer] at hd
    split at hd <;> exact issues hd
  | operation operands gate remote consuming =>
    simp only [infer] at hd
    split at hd <;> exact issues hd
  | entity name explainability oversight criticality =>
    simp only [infer] at hd
    split at hd
    · exact issues hd
    · exact absurd hd List.not_mem_nil
  | modifier entity m => exact about issues hd
  | governed entity action => exact about (fun hd => absurd hd List.not_mem_nil) hd
  | decision entity action => exact about (fun hd => absurd hd List.not_mem_nil) hd
  | literal name value => exact absurd hd List.not_mem_nil
  | reference name =>
    simp only [infer] at hd
    split at hd
    · exact absurd hd List.not_mem_nil
    · exact issues hd
  | directive directive => exact reported_directiveType hd

theorem reported_inferAll {views : EntityViews} {options : CheckOptions} {nodes : List Node}
    {d : Diagnostic} (hd : d ∈ (inferAll views options nodes).findings.toList) :
    ∃ node ∈ nodes, Reported node.location d := by
  induction nodes using List.reverseRecOn with
  | nil => exact absurd hd (by simp [inferAll])
  | append_singleton nodes node ih =>
    rw [inferAll_concat, Inference.step, Array.toList_appendList, List.mem_append] at hd
    rcases hd with earlier | here
    · obtain ⟨node', hn', reported⟩ := ih earlier
      exact ⟨node', List.mem_append_left _ hn', reported⟩
    · exact ⟨node, List.mem_append_right _ (List.mem_singleton_self node), reported_infer here⟩

/-- How the advice begins that an issue comes with. -/
theorem TypeIssue.opens_suggestion {i : TypeIssue} {s : String} (h : i.suggestion = some s) :
    ∃ p ∈ ["declare it first", "bind it", "choose", "use ", "deadlines"], Opens p s := by
  cases i with
  | unresolved space name =>
    cases space with
    | resource | entity =>
      obtain rfl := Option.some.inj h
      refine ⟨"declare it first", by simp, ?_⟩
      simp only [String.append_assoc]
      exact Opens.append (by decide +kernel) _
    | binding =>
      obtain rfl := Option.some.inj h
      refine ⟨"bind it", by simp, ?_⟩
      simp only [String.append_assoc]
      exact Opens.append (by decide +kernel) _
  | redeclared =>
    obtain rfl := Option.some.inj h
    exact ⟨"choose", by simp, by decide +kernel⟩
  | invalidDimension | invalidScore | invalidOversight | invalidCriticality =>
    obtain rfl := Option.some.inj h
    exact ⟨"use ", by simp, by decide +kernel⟩
  | invalidDeadline =>
    obtain rfl := Option.some.inj h
    exact ⟨"deadlines", by simp, by decide +kernel⟩
  | selfInteraction => exact absurd h (by simp [suggestion])

/-- **What inference reports is no such finding.** -/
theorem Reported.not_mismatch {l : Location} {d : Diagnostic} (h : Reported l d) :
    ¬ Mismatch d := by
  intro mismatch
  cases h with
  | window message =>
    rcases mismatch.shape with ⟨quantum, -⟩ | ⟨-, s, none, -⟩
    · exact absurd quantum (by simp)
    · exact absurd none (by simp)
  | issue i =>
    rcases mismatch.shape with ⟨quantum, -, opens⟩ | ⟨-, s, advice, opens⟩
    · -- only the use of one qudit as both operands counts as a violation
      cases i with
      | selfInteraction op name =>
        have opens' : Opens "'" (TypeIssue.selfInteraction op name).message := by
          unfold TypeIssue.message
          simp only [String.append_assoc]
          exact Opens.append (by decide +kernel) _
        have apart : ¬ Opens "'" "resource '" ∧ ¬ Opens "resource '" "'" := by decide +kernel
        exact (List.prefix_or_prefix_of_prefix opens' opens).elim apart.1 apart.2
      | _ => exact absurd quantum (by simp [TypeIssue.diagnostic, TypeIssue.category])
    · obtain ⟨p, hp, opens'⟩ := TypeIssue.opens_suggestion advice
      have apart : ∀ p ∈ ["declare it first", "bind it", "choose", "use ", "deadlines"],
          ¬ Opens p "declare it with" ∧ ¬ Opens "declare it with" p := by decide +kernel
      exact (List.prefix_or_prefix_of_prefix opens' opens).elim (apart p hp).1 (apart p hp).2

/-! ## Every program -/

theorem mem_foundIn_iff {nodes : List Node} {options : CheckOptions} {d : Diagnostic} :
    d ∈ (check nodes options).diagnostics.errors ∨ d ∈ (check nodes options).diagnostics.warnings ↔
      d ∈ foundIn nodes options := by
  rw [← Array.mem_toList_iff, ← Array.mem_toList_iff, errors_check, warnings_check, List.mem_filter,
    List.mem_filter]
  cases d.severity with
  | error => simp
  | warning => simp

/-- **Every evaluation finds its names known.** Whatever the nodes are, and the options: a replay is
the sequence of its evaluations, each of a constraint of one node, when the nodes before it have
taken effect, it has too, or all have. The state of an evaluation tracks exactly the qudits that
inference knew at that point, the qudit of a memory constraint among them; and the entity of its
constraint is among the folded ones. So the checker reports nothing on a qudit that is not backed,
and nothing on an entity that nobody declared. -/
theorem replay_in_step (nodes : List Node) (options : CheckOptions) :
    let views := foldEntities nodes
    let typed := annotated views options nodes
    let budget := options.maxCoherentOperations
    replay views budget typed =
      (evaluations typed).foldl (Findings.evaluate views budget typed) {} ∧
      (∀ ev ∈ evaluations typed,
        (∃ k, nodes[k]? = some ev.node ∧ ev.behind = ev.constraint.phase.behind nodes.length k) ∧
        (∀ r, (contextBehind views budget typed ev.behind).isTracked r = true ↔
          r ∈ (inferAll views options (nodes.take ev.behind)).symbols.resources) ∧
        (∀ r, ev.constraint.kind = .memorySafety r →
          r ∈ (inferAll views options (nodes.take ev.behind)).symbols.resources) ∧
        ∀ e ∈ ev.constraint.kind.entity?, views.contains e = true) ∧
      ∀ d, d ∈ (check nodes options).diagnostics.errors ∨
        d ∈ (check nodes options).diagnostics.warnings →
        ¬ Mismatch d := by
  intro views typed budget
  have tracked (k : Nat) (r : String) : (contextBehind views budget typed k).isTracked r = true ↔
      r ∈ (inferAll views options (nodes.take k)).symbols.resources :=
    inStep_replayBehind views options budget nodes k r
  refine ⟨replay_eq_foldl views budget typed (silent_annotated views options nodes), ?_, ?_⟩
  · intro ev hev
    obtain ⟨k, here, behind, -⟩ := founded_of_mem_evaluations views options hev
    exact ⟨⟨k, here, behind⟩, tracked ev.behind,
      fun r => mem_resources_of_mem_evaluations views options hev,
      contains_of_mem_evaluations views options hev⟩
  · intro d hd
    rcases List.mem_append.1 (mem_foundIn_iff.1 hd) with inferred | replayed
    · obtain ⟨node, -, reported⟩ := reported_inferAll inferred
      exact reported.not_mismatch
    · obtain ⟨ev, hev, found⟩ := exists_evaluation_of_mem_replay views options budget replayed
      apply Constraint.not_mismatch _ _ found
      · intro e he
        exact Table.contains_eq_true_iff.1 (contains_of_mem_evaluations views options hev e he)
      · intro r kind
        exact (tracked ev.behind r).2 (mem_resources_of_mem_evaluations views options hev kind)

end GovernedQuantum
