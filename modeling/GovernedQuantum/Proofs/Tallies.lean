import GovernedQuantum.Proofs.Evaluations

/-!
# What a replay adds up

A replay keeps counts for each qudit, and evaluates constraints that operations owe to their
operands. This file says what the counts are and which the constraints are, whatever the nodes of
the program.

* `Facts.Counts`: a count that grows with every interaction. `tally_replayBehind_succ`: **the replay
  adds up what the typed nodes mention.**
* `filterMap_infer`: **what a typed node owes to its operands.**
* `flatMap_evaluations`: what evaluations give node by node, where only constraints before a node
  give anything.
-/

namespace GovernedQuantum

/-! ## Counts -/

/-- A count that the replay keeps for each qudit. -/
def FactTable.tally (count : Facts → Nat) (facts : FactTable) (r : String) : Nat :=
  ((facts.find? r).map count).getD 0

/-- The count starts at nothing and **grows by a weight** with each interaction, which may depend on
whether the interaction consumes. -/
structure Facts.Counts (count : Facts → Nat) (weight : Bool → Nat) : Prop where
  none : count {} = 0
  interact : ∀ f consuming entangles,
    count (Facts.interact f consuming entangles) = count f + weight consuming

/-- What a node adds to the count of a qudit: the weight of each mention. -/
def Node.weigh (weight : Bool → Nat) (node : Node) (r : String) : Nat :=
  match node.metadata with
  | .operation operands _ _ consuming => weight consuming * operands.count r
  | _ => 0

/-- What a node adds to, it mentions. -/
theorem Node.mem_operands_of_weigh {weight : Bool → Nat} {node : Node} {r : String}
    (adds : 0 < node.weigh weight r) : r ∈ node.operands := by
  unfold weigh at adds
  unfold operands
  cases hm : node.metadata with
  | operation names gate remoteNode consuming =>
    rw [hm] at adds
    exact List.count_pos_iff.1 (Nat.pos_of_mul_pos_left adds)
  | _ =>
    rw [hm] at adds
    exact absurd adds (Nat.lt_irrefl 0)

section

variable {count : Facts → Nat} {weight : Bool → Nat}

theorem FactTable.tally_eq_zero {facts : FactTable} {r : String} (h : ¬ facts.contains r = true) :
    facts.tally count r = 0 := by
  rw [Bool.not_eq_true, Table.contains_eq_false_iff] at h
  rw [tally, h]
  rfl

/-- Every mention of a known qudit counts. -/
theorem FactTable.tally_modifyAll (counts : Facts.Counts count weight) (consuming entangles : Bool)
    (names : List String) {facts : FactTable} {r : String}
    (known : r ∈ names → facts.contains r = true) :
    FactTable.tally count
      (names.foldl (fun t name => t.modify name fun f => f.interact consuming entangles)
        facts) r =
      facts.tally count r + weight consuming * names.count r := by
  induction names generalizing facts with
  | nil => simp
  | cons name rest ih =>
    have step :
        FactTable.tally count (facts.modify name fun f => f.interact consuming entangles) r =
          facts.tally count r + weight consuming * if name = r then 1 else 0 := by
      by_cases same : r = name
      · subst same
        obtain ⟨f, hf⟩ := Table.contains_eq_true_iff.1 (known List.mem_cons_self)
        rw [tally, tally, Table.find?_modify, if_pos rfl, hf, if_pos rfl, Nat.mul_one]
        exact counts.interact f consuming entangles
      · rw [tally, tally, Table.find?_modify, if_neg same, if_neg (Ne.symm same), Nat.mul_zero,
          Nat.add_zero]
    have still : r ∈ rest →
        Table.contains (facts.modify name fun f => f.interact consuming entangles) r = true := by
      intro hr
      rw [Table.contains_modify]
      exact known (List.mem_cons_of_mem name hr)
    rw [List.foldl_cons, ih still, step, List.count_cons, Nat.mul_add]
    simp only [beq_iff_eq]
    omega

/-- **A typed node adds its mentions**: a qudit that it makes was not known, and those that it works
on are. -/
theorem FactTable.InStep.tally_apply (counts : Facts.Counts count weight) {facts : FactTable}
    {σ : Symbols} (h : facts.InStep σ) {views : EntityViews} {options : CheckOptions} {node : Node}
    (typed : (infer views options σ node).type.isUnknown = false) (r : String) :
    (facts.apply node).tally count r = facts.tally count r + node.weigh weight r := by
  cases hm : node.metadata with
  | resource name dimension partners =>
    have new : ¬ facts.contains name = true := fun known =>
      not_mem_resources_of_typed hm typed ((h name).1 known)
    simp only [FactTable.apply, Node.weigh, hm, Nat.add_zero]
    by_cases same : name = r
    · subst same
      rw [tally_eq_zero new, tally, Table.find?_insert, if_pos rfl]
      exact counts.none
    · rw [tally, tally, Table.find?_insert, if_neg same]
  | operation operands gate remote consuming =>
    have known : r ∈ operands → facts.contains r = true := fun hr =>
      (h r).2 (mem_resources_of_typed hm typed r hr)
    simp only [FactTable.apply, Node.weigh, hm, tally_modifyAll counts consuming _ operands known]
  | entity | modifier | governed | decision | literal | reference | directive =>
    simp only [FactTable.apply, Node.weigh, hm, Nat.add_zero]

/-- **The replay adds up what the typed nodes mention.** -/
theorem tally_replayBehind_succ (counts : Facts.Counts count weight) (views : EntityViews)
    (options : CheckOptions) (budget : Nat) {nodes : List Node} {k : Nat} {nt : Node × InferredType}
    (here : (annotated views options nodes)[k]? = some nt) (r : String) :
    (replayBehind views budget (annotated views options nodes) (k + 1)).facts.tally count r =
      (replayBehind views budget (annotated views options nodes) k).facts.tally count r +
        if nt.2.isUnknown then 0 else nt.1.weigh weight r := by
  obtain ⟨-, type⟩ := getElem?_annotated views options here
  rw [replayBehind_succ views budget here, Replay.facts_step]
  cases typed : nt.2.isUnknown with
  | true => rfl
  | false =>
    rw [type] at typed
    exact (inStep_replayBehind views options budget nodes k).tally_apply counts typed r

end

/-! ## Operands -/

/-- The operand that an operation, and nothing else, owes the constraint to. -/
def ConstraintKind.operand? : ConstraintKind → Option String
  | .noCloning r .operation => some r
  | .coherencePreservation r => some r
  | _ => none

/-- A required constraint that is owed to no operand. -/
def Constraint.isOther (c : Constraint) : Bool := c.kind.operand?.isNone && c.required

section

variable {views : EntityViews} {options : CheckOptions} {σ : Symbols} {node : Node} {β : Type}
  {select : Constraint → Option β}
  (silent : ∀ c, c.kind.operand? = none → c.required = true → select c = none)
include silent

theorem filterMap_eq_nil_of_silent {cs : List Constraint}
    (other : cs.all Constraint.isOther = true) : cs.filterMap select = [] := by
  rw [List.filterMap_eq_nil_iff]
  intro c hc
  obtain ⟨kind, required⟩ := Bool.and_eq_true_iff.1 (List.all_eq_true.1 other c hc)
  exact silent c (Option.isNone_iff_eq_none.1 kind) required

theorem filterMap_operands (op : Opcode) (operands : List String) :
    (operands.flatMap fun r => [.memorySafety r .pre, .noCloning r .operation] ++
        if op = .measure then [] else [Constraint.coherencePreservation r]).filterMap select =
      operands.flatMap fun r => (select (.noCloning r .operation)).toList ++
        if op = .measure then [] else (select (.coherencePreservation r)).toList := by
  rw [List.filterMap_flatMap]
  apply List.flatMap_congr
  intro r _
  have memory : select (.memorySafety r .pre) = none := silent _ rfl rfl
  rw [List.filterMap_append, List.filterMap_cons_none memory]
  split
  · cases hs : select (.noCloning r .operation) <;> simp [hs]
  · cases hs : select (.noCloning r .operation) <;>
      cases hc : select (.coherencePreservation r) <;> simp [hs, hc]

/-- A type with none but required constraints on other things owes nothing to operands. -/
theorem filterMap_of_other {cs : List Constraint} {type : InferredType}
    (owed : type.constraints = cs) (other : cs.all Constraint.isOther = true) {rest : List β}
    (none : rest = []) :
    type.constraints.filterMap select = if type.isUnknown then [] else rest := by
  rw [owed, filterMap_eq_nil_of_silent silent other, none, ite_self]

theorem filterMap_ofEntity {location : Location} {entity : String} {typing : Typing}
    {cs : List Constraint} (owed : typing.type.constraints = cs)
    (other : cs.all Constraint.isOther = true) :
    (Typing.ofEntity σ location entity typing).type.constraints.filterMap select =
      if (Typing.ofEntity σ location entity typing).type.isUnknown then [] else [] := by
  unfold Typing.ofEntity
  split
  · exact filterMap_of_other silent owed other rfl
  · rfl

/-- **What a typed node owes to its operands**, in their order: that each is unused, and is coherent
unless the node measures it. -/
theorem filterMap_infer :
    (infer views options σ node).type.constraints.filterMap select =
      if (infer views options σ node).type.isUnknown then []
      else node.operands.flatMap fun r => (select (.noCloning r .operation)).toList ++
        if node.opcode = .measure then [] else (select (.coherencePreservation r)).toList := by
  obtain ⟨opcode, location, text, metadata⟩ := node
  cases metadata with
  | resource name dimension partners =>
    simp only [infer]
    split
    · rfl
    · refine filterMap_of_other silent (constraints_resourceType name dimension partners).2 ?_ rfl
      split <;> rfl
  | operation operands gate remote consuming =>
    simp only [infer]
    split
    · obtain ⟨typed, owed⟩ := constraints_operationType opcode operands gate remote consuming
      simp only [Typing.reporting, owed, typed, Node.operands]
      rw [if_neg Bool.false_ne_true, filterMap_operands silent]
    · rfl
  | entity name explainability oversight criticality =>
    simp only [infer]
    split
    · rfl
    · refine filterMap_of_other silent (constraints_entityType _ name _).2 ?_ rfl
      split <;> rfl
  | modifier entity m => exact filterMap_ofEntity silent (constraints_modifierType entity m).2 rfl
  | governed entity action =>
    cases action with
    | deploy target => exact filterMap_ofEntity silent rfl rfl
    | verify => exact filterMap_ofEntity silent rfl rfl
  | decision entity action =>
    refine filterMap_ofEntity silent (constraints_decisionType _ entity action _).2 ?_
    split <;> rfl
  | literal name value => rfl
  | reference name =>
    cases bound : σ.values.find? name with
    | some type =>
      simp only [infer, bound]
      exact filterMap_of_other silent rfl rfl rfl
    | none =>
      simp only [infer, bound]
      rfl
  | directive d => exact filterMap_of_other silent (constraints_directiveType location d).2 rfl rfl

end

/-! ## Node by node -/

theorem flatMap_elim {α β γ : Type} (f : α → Option β) (g : β → List γ) (l : List α) :
    (l.flatMap fun a => (f a).elim [] g) = (l.filterMap f).flatMap g := by
  induction l with
  | nil => rfl
  | cons a rest ih =>
    rw [List.flatMap_cons, ih, List.filterMap_cons]
    cases f a <;> rfl

theorem flatMap_filter_of_nil {α β : Type} {p : α → Bool} {g : α → List β} {l : List α}
    (h : ∀ a ∈ l, p a = false → g a = []) : (l.filter p).flatMap g = l.flatMap g := by
  induction l with
  | nil => rfl
  | cons a rest ih =>
    obtain ⟨first, others⟩ := List.forall_mem_cons.1 h
    rw [List.filter_cons, List.flatMap_cons, ← ih others]
    cases passes : p a with
    | true => rfl
    | false => rw [first passes, if_neg Bool.false_ne_true, List.nil_append]

theorem flatMap_ite_singleton {α β : Type} (p : α → Bool) (g : α → β) (l : List α) :
    (l.flatMap fun a => if p a then [g a] else []) = (l.filter p).map g := by
  induction l with
  | nil => rfl
  | cons a rest ih =>
    rw [List.flatMap_cons, ih, List.filter_cons]
    split <;> rfl

/-- **What evaluations give node by node**, where only constraints before a node give anything. -/
theorem flatMap_evaluations {γ : Type} {nodes : List (Node × InferredType)}
    {g : Evaluation → List γ}
    (pre : ∀ nt ∈ nodes, ∀ c ∈ nt.2.constraints, c.phase ≠ .pre → ∀ k, g ⟨k, nt.1, c⟩ = []) :
    (evaluations nodes).flatMap g =
      nodes.zipIdx.flatMap fun x => x.1.2.constraints.flatMap fun c => g ⟨x.2, x.1.1, c⟩ := by
  have later {x : (Node × InferredType) × Nat} (hx : x ∈ nodes.zipIdx) {phase : Phase}
      (hp : phase ≠ .pre) : (Evaluation.ofNode nodes.length x.2 x.1 phase).flatMap g = [] := by
    rw [List.flatMap_eq_nil_iff]
    rintro ⟨k, node, c⟩ hev
    obtain ⟨hc, hphase, rfl, -⟩ := Evaluation.mem_ofNode.1 hev
    exact pre x.1 (List.fst_mem_of_mem_zipIdx hx) c hc (hphase ▸ hp) k
  have before {x : (Node × InferredType) × Nat} (hx : x ∈ nodes.zipIdx) :
      (Evaluation.ofNode nodes.length x.2 x.1 .pre).flatMap g =
        x.1.2.constraints.flatMap fun c => g ⟨x.2, x.1.1, c⟩ := by
    rw [Evaluation.ofNode, List.flatMap_map]
    refine flatMap_filter_of_nil fun c hc other => ?_
    exact pre x.1 (List.fst_mem_of_mem_zipIdx hx) c hc (of_decide_eq_false other) x.2
  have last : (lastEvaluations nodes).flatMap g = [] := by
    rw [lastEvaluations, List.flatMap_assoc, List.flatMap_eq_nil_iff]
    exact fun x hx => later hx Phase.noConfusion
  rw [evaluations, List.flatMap_append, last, List.append_nil, walkEvaluations, List.flatMap_assoc]
  apply List.flatMap_congr
  intro x hx
  rw [List.flatMap_append, before hx, later hx Phase.noConfusion, List.append_nil]

/-! ## Rules over a list -/

/-- What a rule says about the items of a list, each seen with those before it. -/
def alongside {α β : Type} (rule : List α → α → List β) (l : List α) : List β :=
  l.zipIdx.flatMap fun x => rule (l.take x.2) x.1

theorem alongside_concat {α β : Type} (rule : List α → α → List β) (l : List α) (a : α) :
    alongside rule (l ++ [a]) = alongside rule l ++ rule l a := by
  unfold alongside
  rw [List.zipIdx_append, List.flatMap_append]
  refine congrArg₂ (· ++ ·) (List.flatMap_congr fun x hx => ?_) (by simp)
  have here := (List.getElem?_eq_some_iff.1 (List.mk_mem_zipIdx_iff_getElem?.1 hx)).1
  rw [List.take_append_of_le_length (Nat.le_of_lt here)]

theorem alongside_map {α β γ : Type} (rule : List β → β → List γ) (f : α → β) (l : List α) :
    alongside rule (l.map f) = alongside (fun before a => rule (before.map f) (f a)) l := by
  unfold alongside
  rw [List.zipIdx_map, List.flatMap_map]
  simp only [List.map_take, Prod.map_fst, Prod.map_snd, id_eq]

/-- **A rule that overlooks some items** is a rule over the others. -/
theorem alongside_filter {α β γ : Type} {rule : List α → α → List γ} {rule' : List β → β → List γ}
    {p : α → Bool} {g : α → β}
    (overlooks : ∀ before a,
      rule before a = if p a then rule' ((before.filter p).map g) (g a) else []) (l : List α) :
    alongside rule l = alongside rule' ((l.filter p).map g) := by
  induction l using List.reverseRecOn with
  | nil => rfl
  | append_singleton l a ih =>
    rw [alongside_concat, ih, overlooks, List.filter_append, List.map_append]
    cases counts : p a with
    | true => rw [if_pos rfl, List.filter_singleton, counts, cond_true, List.map_singleton,
        alongside_concat]
    | false => simp [counts]

/-! ## Operations of a program -/

/-- The instruction works on qudits, and all of them are allocated before it. -/
def Instruction.IsTypedOperation (before : List Instruction) (i : Instruction) : Prop :=
  i.resources ≠ [] ∧ ∀ r ∈ i.resources, Allocated before r

instance (before : List Instruction) (i : Instruction) : Decidable (i.IsTypedOperation before) :=
  inferInstanceAs (Decidable (_ ∧ _))

/-- **The operations of a program that are well typed**, in order. -/
def typedOperations (is : List Instruction) : List Instruction :=
  alongside (fun before i => if i.IsTypedOperation before then [i] else []) is

/-- **The checker types what the program makes typable**: each instruction has a type, and that of
an operation on qudits is known exactly where all its operands are allocated before. -/
structure CheckReport.TypesOperations (report : CheckReport) (is : List Instruction) : Prop where
  length : report.types.length = is.length
  known_iff : ∀ {k : Nat} {i : Instruction} {type : InferredType}, is[k]? = some i →
    report.types[k]? = some type → i.resources ≠ [] →
      (type.isUnknown = false ↔ i.IsTypedOperation (is.take k))

theorem Instruction.operands_node (lines : Array (List Char)) (partners : Partners)
    (i : Instruction) : (i.node lines partners).operands = i.resources := by
  unfold node Node.operands resources
  cases op : i.opcode <;> simp [Metadata.ofInstruction, op]

/-- An operation is typed where its operands are known. -/
theorem isUnknown_infer {views : EntityViews} {options : CheckOptions} {σ : Symbols} {node : Node}
    (operation : node.operands ≠ []) :
    (infer views options σ node).type.isUnknown = false ↔ ∀ r ∈ node.operands, r ∈ σ.resources := by
  unfold Node.operands at operation ⊢
  split at operation
  · rename_i operands gate remote consuming hm
    refine ⟨mem_resources_of_typed hm, fun known => ?_⟩
    have found : (operands.filter fun r => !σ.resources.contains r).isEmpty = true := by
      simpa using known
    simp only [infer, hm, if_pos found, Typing.reporting]
    exact (constraints_operationType node.opcode operands gate remote consuming).1
  · exact absurd rfl operation

section

variable (views : EntityViews) (options : CheckOptions) (lines : Array (List Char))
  (partners : Partners)
  {is : List Instruction}

/-- The instructions of a program with the types of their nodes. -/
def typedInstructions (is : List Instruction) : List (Instruction × InferredType) :=
  is.zip (inferAll views options (is.map (·.node lines partners))).types.toList

theorem typedInstructions_concat (is : List Instruction) (i : Instruction) :
    typedInstructions views options lines partners (is ++ [i]) =
      typedInstructions views options lines partners is ++
        [(i,
          typeAfter views options (is.map (·.node lines partners)) (i.node lines partners))] := by
  rw [typedInstructions, List.map_append, List.map_singleton, types_concat, List.zip_append]
  · rfl
  · rw [length_types, List.length_map]

theorem annotated_instructions :
    annotated views options (is.map (·.node lines partners)) =
      (typedInstructions views options lines partners is).map
        (Prod.map (·.node lines partners) id) :=
  List.zip_map_left

/-- **An operation is typed exactly where its operands are allocated before it.** -/
theorem isUnknown_typeAfter {i : Instruction} (operation : i.resources ≠ []) :
    (typeAfter views options (is.map (·.node lines partners)) (i.node lines partners)).isUnknown =
        false ↔ i.IsTypedOperation is := by
  have known := knows_inferAll views options lines partners is
  rw [← i.operands_node lines partners] at operation
  rw [typeAfter, isUnknown_infer operation, i.operands_node]
  rw [i.operands_node] at operation
  simp only [known.resources, Instruction.IsTypedOperation, ne_eq, operation,
    not_false_eq_true, true_and]

/-- The typed instruction is an operation on qudits. -/
def isTypedOperation (x : Instruction × InferredType) : Bool :=
  !x.2.isUnknown && !x.1.resources.isEmpty

theorem map_filter_typedInstructions :
    ((typedInstructions views options lines partners is).filter isTypedOperation).map Prod.fst =
      typedOperations is := by
  induction is using List.reverseRecOn with
  | nil => rfl
  | append_singleton is i ih =>
    have next : typedOperations (is ++ [i]) =
        typedOperations is ++ if i.IsTypedOperation is then [i] else [] := alongside_concat _ is i
    have same : isTypedOperation
        (i, typeAfter views options (is.map (·.node lines partners)) (i.node lines partners)) =
          decide (i.IsTypedOperation is) := by
      by_cases operation : i.resources = []
      · simp [isTypedOperation, Instruction.IsTypedOperation, operation]
      · rw [Bool.eq_iff_iff, decide_eq_true_eq,
          ← isUnknown_typeAfter views options lines partners operation]
        simp [isTypedOperation, operation]
    rw [typedInstructions_concat, List.filter_append, List.map_append, ih, next,
      List.filter_singleton, same]
    by_cases typed : i.IsTypedOperation is <;> simp [typed]

end

/-- A check types the operations of its program. -/
theorem typesOperations_check (is : List Instruction) (source : String) (options : CheckOptions) :
    (check (Node.ofInstructions is source) options).TypesOperations is where
  length := (length_types _ options _).trans (List.length_map _)
  known_iff {k i type} here typed operation := by
    have node : (Node.ofInstructions is source)[k]? =
        some (i.node (Text.lines source.toList).toArray (.ofInstructions is)) :=
      List.getElem?_map.trans (congrArg (Option.map _) here)
    obtain ⟨-, same⟩ := getElem?_annotated _ options (List.getElem?_zip_eq_some.2 ⟨node, typed⟩)
    rw [same, Node.ofInstructions, ← List.map_take]
    exact isUnknown_typeAfter _ options _ _ operation

end GovernedQuantum
