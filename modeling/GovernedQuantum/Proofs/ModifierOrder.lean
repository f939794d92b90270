import GovernedQuantum.Proofs.Interleaving

/-!
# The order of modifiers

Constraints judge an entity by the attributes that it ends with. So a modifier may stand before or
behind what it affects: an approval that comes after the deployment counts for it. What it must not
pass is the declaration of its entity, before which it means nothing, and another modifier of the
same attribute, of which the later one counts.

* `EntityViews.step_comm`: a modifier commutes with every node that it may pass.
* `inferAll_insert`, `replay_insert`: a modifier adds its own type and its own findings to a
  program, and nothing else notices.
* `check_modifier_moved`: **a modifier may be moved** past a stretch of such nodes without any
  change in the verdict, the findings and the types.
-/

namespace GovernedQuantum

/-! ## What a modifier may pass -/

/-- What a modifier changes. -/
inductive Attribute where
  | explainability | oversight | criticality | approval
deriving DecidableEq, Repr

def Modifier.attribute : Modifier → Attribute
  | .explainability _ => .explainability
  | .oversight _ => .oversight
  | .criticality _ => .criticality
  | .approval => .approval

/-- The entity that the node declares. -/
def Node.declares? (node : Node) : Option String :=
  match node.metadata with
  | .entity name _ _ _ => some name
  | _ => none

/-- The entity that the node modifies, with the attribute. -/
def Node.modifies? (node : Node) : Option (String × Attribute) :=
  match node.metadata with
  | .modifier name m => some (name, m.attribute)
  | _ => none

/-- Changes to different attributes commute. -/
theorem EntityView.modified_comm (view : EntityView) {a b : Modifier}
    (h : a.attribute ≠ b.attribute) :
    (view.modified a).modified b = (view.modified b).modified a := by
  rcases a with (_ | s) | (_ | o) | (_ | c) | _ <;>
    rcases b with (_ | s') | (_ | o') | (_ | c') | _ <;>
    grind [EntityView.modified, Modifier.attribute]

section

variable {m node : Node} {entity : String} {change : Modifier}

/-! ## The entities at the end -/

/-- **A modifier commutes** with every node that it may pass. -/
theorem EntityViews.step_comm (views : EntityViews) (hm : m.metadata = .modifier entity change)
    (declares : node.declares? ≠ some entity)
    (modifies : node.modifies? ≠ some (entity, change.attribute)) :
    (views.step m).step node = (views.step node).step m := by
  obtain ⟨opcode, location, text, metadata⟩ := node
  cases metadata with
  | entity name explainability oversight criticality =>
    have other : name ≠ entity := by
      intro same
      exact declares (congrArg some same)
    have known : (views.modify entity fun view => view.modified change).contains name =
        views.contains name := by
      rw [Table.contains, Table.find?_modify, if_neg other, Table.contains]
    simp only [EntityViews.step, hm, known]
    split
    · rfl
    · apply Table.ext_find?
      intro k
      rw [Table.find?_insert, Table.find?_modify, Table.find?_modify, Table.find?_insert]
      by_cases hk : name = k
      · subst hk
        rw [if_pos rfl, if_neg other, if_pos rfl]
      · rw [if_neg hk, if_neg hk]
  | modifier name change' =>
    simp only [EntityViews.step, hm]
    apply Table.ext_find?
    intro k
    simp only [Table.find?_modify]
    by_cases hk : k = entity
    · by_cases hk' : k = name
      · have differ : change.attribute ≠ change'.attribute := by
          intro same
          exact modifies (congrArg some (Prod.ext (hk'.symm.trans hk) same.symm))
        simp only [if_pos hk, if_pos hk', Option.map_map, Function.comp_def,
          EntityView.modified_comm _ differ]
      · simp only [if_neg hk']
    · simp only [if_neg hk]
  | resource | operation | governed | decision | literal | reference | directive =>
    simp only [EntityViews.step, hm]

/-- The entities end the same wherever the modifier stands. -/
theorem foldEntities_moved (hm : m.metadata = .modifier entity change) {stretch : List Node}
    (passed : ∀ node ∈ stretch, node.declares? ≠ some entity ∧
      node.modifies? ≠ some (entity, change.attribute))
    (before after : List Node) :
    foldEntities (before ++ m :: (stretch ++ after)) =
      foldEntities (before ++ (stretch ++ m :: after)) := by
  -- one node of the stretch after the other comes before the modifier
  have pass (views : EntityViews) :
      stretch.foldl EntityViews.step (views.step m) =
        (stretch.foldl EntityViews.step views).step m := by
    induction stretch generalizing views with
    | nil => rfl
    | cons node rest ih =>
      obtain ⟨declares, modifies⟩ := passed node List.mem_cons_self
      rw [List.foldl_cons, List.foldl_cons, views.step_comm hm declares modifies,
        ih fun n hn => passed n (List.mem_cons_of_mem node hn)]
  simp only [foldEntities, List.foldl_append, List.foldl_cons, pass]

/-! ## Types -/

section

variable (views : EntityViews) (options : CheckOptions)

/-- The types and the findings of nodes behind those that declare `σ`. -/
def inferFrom (σ : Symbols) (nodes : List Node) : Inference :=
  nodes.foldl (Inference.step views options) { symbols := σ }

/-- The types and the findings of `r` behind those of `s`. -/
def Inference.append (s r : Inference) : Inference :=
  ⟨r.symbols, s.types ++ r.types, s.findings ++ r.findings⟩

theorem inferFrom_concat (σ : Symbols) (nodes : List Node) (node : Node) :
    inferFrom views options σ (nodes ++ [node]) =
      (inferFrom views options σ nodes).step views options node :=
  List.foldl_concat ..

theorem Inference.step_append (s r : Inference) (node : Node) :
    (s.append r).step views options node = s.append (r.step views options node) := by
  simp only [Inference.step, Inference.append, Array.push_append, Inference.mk.injEq, true_and]
  apply Array.toList_inj.1
  simp only [Array.toList_appendList, Array.toList_append, List.append_assoc]

/-- What inference adds depends on the names declared before. -/
theorem Inference.foldl_step (s : Inference) (nodes : List Node) :
    nodes.foldl (Inference.step views options) s =
      s.append (inferFrom views options s.symbols nodes) := by
  induction nodes using List.reverseRecOn with
  | nil => simp [inferFrom, Inference.append]
  | append_singleton nodes node ih =>
    rw [List.foldl_concat, ih, inferFrom_concat, Inference.step_append]

theorem inferFrom_append (σ : Symbols) (nodes more : List Node) :
    inferFrom views options σ (nodes ++ more) = (inferFrom views options σ nodes).append
      (inferFrom views options (inferFrom views options σ nodes).symbols more) := by
  rw [inferFrom, List.foldl_append]
  exact Inference.foldl_step views options (inferFrom views options σ nodes) more

theorem inferAll_append (before after : List Node) :
    inferAll views options (before ++ after) = (inferAll views options before).append
      (inferFrom views options (inferAll views options before).symbols after) :=
  inferFrom_append views options {} before after

/-- **A modifier adds its own type and findings**: no node behind it is typed otherwise. -/
theorem inferAll_insert (hm : m.metadata = .modifier entity change) (before after : List Node) :
    inferAll views options (before ++ m :: after) =
      ((inferAll views options before).step views options m).append
        (inferFrom views options (inferAll views options before).symbols after) := by
  have unchanged : ((inferAll views options before).step views options m).symbols =
      (inferAll views options before).symbols := by
    rw [Inference.step, symbols_infer, hm]
  have split := inferAll_append views options (before ++ [m]) after
  rwa [List.append_assoc, List.singleton_append, inferAll_concat, unchanged] at split

/-- A modifier is typed by whether its entity is declared. -/
theorem infer_modifier_congr (hm : m.metadata = .modifier entity change) {σ τ : Symbols}
    (h : σ.entities.contains entity = τ.entities.contains entity) :
    (infer views options σ m).type = (infer views options τ m).type ∧
      (infer views options σ m).findings = (infer views options τ m).findings := by
  simp only [infer, hm, Typing.ofEntity, h]
  split
  · exact ⟨rfl, rfl⟩
  · exact ⟨rfl, rfl⟩

/-- A node that does not declare the entity leaves it declared or not. -/
theorem contains_entities_infer (σ : Symbols) (declares : node.declares? ≠ some entity) :
    (infer views options σ node).symbols.entities.contains entity = σ.entities.contains entity := by
  obtain ⟨opcode, location, text, metadata⟩ := node
  rw [symbols_infer]
  cases metadata with
  | entity name explainability oversight criticality =>
    have other : name ≠ entity := by
      intro same
      exact declares (congrArg some same)
    simp only
    split
    · rfl
    · rw [List.contains_cons, beq_false_of_ne other.symm, Bool.false_or]
  | resource name dimension partners =>
    simp only
    split <;> rfl
  | operation | modifier | governed | decision | literal | reference | directive => rfl

theorem contains_entities_inferFrom {stretch : List Node}
    (passed : ∀ node ∈ stretch, node.declares? ≠ some entity) (σ : Symbols) :
    (inferFrom views options σ stretch).symbols.entities.contains entity =
      σ.entities.contains entity := by
  induction stretch using List.reverseRecOn with
  | nil => rfl
  | append_singleton stretch node ih =>
    rw [inferFrom_concat, Inference.step,
      contains_entities_infer views options _ (passed node (by simp)),
      ih fun n hn => passed n (List.mem_append_left _ hn)]

/-- A modifier is typed alike on both sides of a stretch that does not declare its entity. -/
theorem infer_modifier_moved (hm : m.metadata = .modifier entity change) {stretch : List Node}
    (passed : ∀ node ∈ stretch, node.declares? ≠ some entity) (before : List Node) :
    typeAfter views options before m = typeAfter views options (before ++ stretch) m ∧
      (infer views options (inferAll views options before).symbols m).findings =
        (infer views options (inferAll views options (before ++ stretch)).symbols m).findings := by
  apply infer_modifier_congr views options hm
  rw [inferAll_append]
  exact (contains_entities_inferFrom views options passed _).symm

/-- The types of all nodes, with the modifier on either side of the stretch. -/
theorem types_moved (hm : m.metadata = .modifier entity change) {stretch : List Node}
    (passed : ∀ node ∈ stretch, node.declares? ≠ some entity) (before after : List Node) :
    ∃ ts t us vs, ts.length = before.length ∧ us.length = stretch.length ∧
      (inferAll views options (before ++ m :: (stretch ++ after))).types.toList =
        ts ++ t :: (us ++ vs) ∧
      (inferAll views options (before ++ (stretch ++ m :: after))).types.toList =
        ts ++ (us ++ t :: vs) := by
  refine ⟨(inferAll views options before).types.toList, typeAfter views options before m,
    (inferFrom views options (inferAll views options before).symbols stretch).types.toList,
    (inferFrom views options (inferAll views options (before ++ stretch)).symbols
      after).types.toList,
    length_types views options before, ?_, ?_, ?_⟩
  · have length := length_types views options (before ++ stretch)
    rw [inferAll_append, Inference.append, Array.toList_append, List.length_append,
      List.length_append, length_types] at length
    omega
  · rw [inferAll_insert views options hm, inferFrom_append, inferAll_append views options before]
    simp only [Inference.append, Inference.step, Array.toList_append, Array.toList_push,
      List.append_assoc, List.singleton_append]
    rfl
  · rw [← List.append_assoc, inferAll_insert views options hm, Inference.append, Inference.step,
      (infer_modifier_moved views options hm passed before).1, typeAfter,
      inferAll_append views options before]
    simp only [Inference.append, Array.toList_append, Array.toList_push, List.append_assoc,
      List.singleton_append]

/-! ## The replay -/

/-- A modifier owes nothing. -/
theorem constraints_typeAfter (hm : m.metadata = .modifier entity change) (before : List Node) :
    (typeAfter views options before m).constraints = [] := by
  simp only [typeAfter, infer, hm, Typing.ofEntity]
  split
  · exact (constraints_modifierType entity change).2
  · rfl

theorem Findings.judgeAll_of_constraints_nil {type : InferredType} (h : type.constraints = [])
    (ctx : Context) (node : Node) (phase : Phase) (f : Findings) :
    f.judgeAll ctx node type phase = f := by
  rw [Findings.judgeAll, InferredType.constraintsIn, h]
  rfl

/-- **The replay does not notice a modifier.** -/
theorem replay_insert (hm : m.metadata = .modifier entity change) {type : InferredType}
    (owes : type.constraints = []) (budget : Nat) (xs ys : List (Node × InferredType)) :
    replay views budget (xs ++ (m, type) :: ys) = replay views budget (xs ++ ys) := by
  have idle (s : Replay) : Replay.step views budget s (m, type) = s := by
    simp only [Replay.step, Findings.judgeAll_of_constraints_nil owes, FactTable.apply, hm]
    split <;> rfl
  have silent (ctx : Context) (f : Findings) : f.judgeAll ctx m type .final = f :=
    Findings.judgeAll_of_constraints_nil owes ctx m .final f
  simp only [replay, List.foldl_append, List.foldl_cons, idle, silent]

theorem annotated_append (before after : List Node) :
    annotated views options (before ++ after) = annotated views options before ++
      after.zip
        (inferFrom views options (inferAll views options before).symbols after).types.toList := by
  rw [annotated, inferAll_append, Inference.append, Array.toList_append,
    List.zip_append (length_types views options before).symm]
  rfl

theorem annotated_insert (hm : m.metadata = .modifier entity change) (before after : List Node) :
    annotated views options (before ++ m :: after) =
      annotated views options before ++ (m, typeAfter views options before m) ::
        after.zip
          (inferFrom views options (inferAll views options before).symbols after).types.toList := by
  rw [annotated, inferAll_insert views options hm, Inference.append, Inference.step,
    Array.toList_append, Array.toList_push, List.append_assoc,
    List.zip_append (length_types views options before).symm]
  rfl

/-- **A modifier adds its own findings**, and hides or makes no other. -/
theorem found_insert (hm : m.metadata = .modifier entity change) (before after : List Node)
    (budget : Nat) :
    ((inferAll views options (before ++ m :: after)).findings.toList ++
      (replay views budget
        (annotated views options (before ++ m :: after))).diagnostics.toList).Perm
    ((infer views options (inferAll views options before).symbols m).findings ++
      ((inferAll views options (before ++ after)).findings.toList ++
        (replay views budget (annotated views options (before ++ after))).diagnostics.toList)) := by
  have replayed : replay views budget (annotated views options (before ++ m :: after)) =
      replay views budget (annotated views options (before ++ after)) := by
    rw [annotated_insert views options hm, annotated_append]
    exact replay_insert views hm (constraints_typeAfter views options hm before) budget _ _
  rw [replayed, ← List.append_assoc]
  apply List.Perm.append_right
  rw [inferAll_insert views options hm, inferAll_append]
  simp only [Inference.append, Inference.step, Array.toList_append, Array.toList_appendList]
  rw [← List.append_assoc]
  exact List.perm_append_comm.append_right _

end

/-! ## Whole programs -/

theorem CheckReport.isOk_eq_of_perm {r r' : CheckReport}
    (h : r.diagnostics.errors.toList.Perm r'.diagnostics.errors.toList) : r.isOk = r'.isOk := by
  have size : r.diagnostics.errors.size = r'.diagnostics.errors.size := h.length_eq
  simp only [CheckReport.isOk, Diagnostics.hasErrors, Array.isEmpty, size]

/-- A check finds the same with the modifier on either side of the stretch. -/
theorem found_moved (hm : m.metadata = .modifier entity change) {stretch : List Node}
    (passed : ∀ node ∈ stretch, node.declares? ≠ some entity ∧
      node.modifies? ≠ some (entity, change.attribute))
    (before after : List Node) (options : CheckOptions) :
    (foundIn (before ++ m :: (stretch ++ after)) options).Perm
      (foundIn (before ++ (stretch ++ m :: after)) options) := by
  have moved := foldEntities_moved hm passed before after
  generalize hv : foldEntities (before ++ (stretch ++ m :: after)) = views at moved
  have one := found_insert views options hm before (stretch ++ after) options.maxCoherentOperations
  have other :=
    found_insert views options hm (before ++ stretch) after options.maxCoherentOperations
  obtain ⟨-, own⟩ :=
    infer_modifier_moved views options hm (fun node hn => (passed node hn).1) before
  rw [← own, List.append_assoc, List.append_assoc] at other
  simp only [foundIn, moved, hv]
  exact one.trans other.symm

/-- **A modifier may be moved.** Past a stretch of nodes of which none declares its entity and none
is a modifier of the same attribute of it, a modifier can be moved in either direction: the verdict
is the same, so are the errors and the warnings up to their order, and every node keeps its type.
With a stretch of one node, two neighbours are exchanged. -/
theorem check_modifier_moved (hm : m.metadata = .modifier entity change) {stretch : List Node}
    (passed : ∀ node ∈ stretch, node.declares? ≠ some entity ∧
      node.modifies? ≠ some (entity, change.attribute))
    (before after : List Node) (options : CheckOptions) :
    let early := check (before ++ m :: (stretch ++ after)) options
    let late := check (before ++ (stretch ++ m :: after)) options
    early.isOk = late.isOk ∧
      early.diagnostics.errors.toList.Perm late.diagnostics.errors.toList ∧
      early.diagnostics.warnings.toList.Perm late.diagnostics.warnings.toList ∧
      ∃ ts t us vs, ts.length = before.length ∧ us.length = stretch.length ∧
        early.types = ts ++ t :: (us ++ vs) ∧ late.types = ts ++ (us ++ t :: vs) := by
  intro early late
  have found := found_moved hm passed before after options
  have errors : early.diagnostics.errors.toList.Perm late.diagnostics.errors.toList := by
    rw [errors_check, errors_check]
    exact found.filter _
  have warnings : early.diagnostics.warnings.toList.Perm late.diagnostics.warnings.toList := by
    rw [warnings_check, warnings_check]
    exact found.filter _
  refine ⟨CheckReport.isOk_eq_of_perm errors, errors, warnings, ?_⟩
  have types : early.types = (inferAll (foldEntities (before ++ (stretch ++ m :: after))) options
      (before ++ m :: (stretch ++ after))).types.toList := by
    rw [← foldEntities_moved hm passed before after]
    rfl
  rw [types]
  exact types_moved _ options hm (fun node hn => (passed node hn).1) before after

end

/-- A critical entity with a human in the loop. -/
def overseen : List Node :=
  [⟨.declareContract, ⟨1, 1⟩, "contract bot", .entity "bot" defaultScore .notification .medium⟩,
    ⟨.setCriticality, ⟨2, 1⟩, "classify bot safety", .modifier "bot" (.criticality (some .safety))⟩,
    ⟨.setOversight, ⟨3, 1⟩, "oversee bot approval", .modifier "bot" (.oversight (some .approval))⟩]

def approval : Node := ⟨.approve, ⟨4, 1⟩, "approve bot", .modifier "bot" .approval⟩

/-- What an entity is let to do. -/
def deeds : List Node :=
  [⟨.deploy, ⟨5, 1⟩, "deploy bot staging", .governed "bot" (.deploy "staging")⟩,
    ⟨.decide, ⟨6, 1⟩, "decide bot brake", .decision "bot" "brake"⟩]

/-- An approval may follow the decision that needs it. -/
theorem check_modifier_moved_approval :
    (∀ node ∈ deeds, node.declares? ≠ some "bot" ∧ node.modifies? ≠ some ("bot", .approval)) ∧
      (check (overseen ++ (deeds ++ [])) {}).isOk = false ∧
      (check (overseen ++ approval :: (deeds ++ [])) {}).isOk = true ∧
      (check (overseen ++ (deeds ++ [approval])) {}).isOk = true := by
  have passed : ∀ node ∈ deeds,
      node.declares? ≠ some "bot" ∧ node.modifies? ≠ some ("bot", .approval) := by decide
  have early : (check (overseen ++ approval :: (deeds ++ [])) {}).isOk = true := by decide +kernel
  have moved := check_modifier_moved (m := approval) rfl passed overseen [] {}
  exact ⟨passed, by decide +kernel, early, moved.1.symm.trans early⟩

end GovernedQuantum
