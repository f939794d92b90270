import GovernedQuantum.Compilation
import GovernedQuantum.Proofs.Language
import GovernedQuantum.Proofs.OrderedTable
import Mathlib.Data.List.Induction

/-!
# What inference finds

Inference goes through a program once and rejects an instruction exactly where its names or literals
mean nothing. Behind a rejected instruction it goes on as if nothing had happened, so what it knows
is always what the instructions so far have declared.

* `Symbols.Knows`: the names declared so far, and no others.
* `Symbols.Knows.typable_iff`: **a node is typed without an error** exactly where its instruction
  resolves.
* `owed`: the constraints that an instruction lives under. `Symbols.Knows.type_infer`: a resolved
  instruction is typed with these.
* `quiet_inferAll_iff`: **inference finds no error** exactly in resolved programs.
-/

namespace GovernedQuantum

/-! ## Findings without errors -/

/-- There are warnings at most. -/
def Quiet (found : List Diagnostic) : Prop := ∀ d ∈ found, d.severity ≠ .error

@[simp] theorem quiet_nil : Quiet [] := by simp [Quiet]

@[simp] theorem quiet_append {ds es : List Diagnostic} : Quiet (ds ++ es) ↔ Quiet ds ∧ Quiet es :=
  List.forall_mem_append

/-- Every issue is an error. -/
@[simp] theorem quiet_issues {issues : List TypeIssue} {location : Location} :
    Quiet (issues.map fun issue => issue.diagnostic location) ↔ issues = [] := by
  cases issues with
  | nil => simp
  | cons issue rest => simp [Quiet, TypeIssue.diagnostic]

theorem hasErrors_pushAll (ds : Diagnostics) (found : List Diagnostic) :
    (ds.pushAll found).hasErrors = false ↔ ds.hasErrors = false ∧ Quiet found := by
  induction found generalizing ds with
  | nil => simp [Diagnostics.pushAll]
  | cons d rest ih =>
    have push : (ds.push d).hasErrors = false ↔ ds.hasErrors = false ∧ d.severity ≠ .error := by
      rw [Diagnostics.push]
      cases hd : d.severity with
      | error => simp [Diagnostics.hasErrors]
      | warning => simp [Diagnostics.hasErrors]
    have split : Quiet (d :: rest) ↔ d.severity ≠ .error ∧ Quiet rest := List.forall_mem_cons
    rw [split, ← and_assoc, ← push]
    exact ih (ds.push d)

namespace Diagnostics

/-- Of what is pushed, the errors are added to the errors. -/
theorem errors_pushAll (ds : Diagnostics) (found : List Diagnostic) :
    (ds.pushAll found).errors.toList =
      ds.errors.toList ++ found.filter fun d => d.severity = .error := by
  induction found generalizing ds with
  | nil => exact (List.append_nil _).symm
  | cons d rest ih =>
    show ((ds.push d).pushAll rest).errors.toList = _
    rw [ih, push]
    cases severity : d.severity with
    | error => simp [severity]
    | warning => simp [severity]

/-- Of what is pushed, the warnings are added to the warnings. -/
theorem warnings_pushAll (ds : Diagnostics) (found : List Diagnostic) :
    (ds.pushAll found).warnings.toList =
      ds.warnings.toList ++ found.filter fun d => d.severity = .warning := by
  induction found generalizing ds with
  | nil => exact (List.append_nil _).symm
  | cons d rest ih =>
    show ((ds.push d).pushAll rest).warnings.toList = _
    rw [ih, push]
    cases severity : d.severity with
    | error => simp [severity]
    | warning => simp [severity]

end Diagnostics

namespace Typing

variable {σ : Symbols} {location : Location} {type : InferredType} {issues : List TypeIssue}

@[simp] theorem quiet_plain : Quiet (plain σ type).findings := quiet_nil

@[simp] theorem quiet_reporting : Quiet (reporting σ location type issues).findings ↔ issues = [] :=
  quiet_issues

@[simp] theorem quiet_rejected : Quiet (rejected σ location issues).findings ↔ issues = [] :=
  quiet_issues

@[simp] theorem quiet_ofEntity {entity : String} {typing : Typing} :
    Quiet (ofEntity σ location entity typing).findings ↔
      entity ∈ σ.entities ∧ Quiet typing.findings := by
  rw [ofEntity]
  split
  · rename_i h
    simp [List.contains_iff_mem.1 h]
  · rename_i h
    simp [mt List.contains_iff_mem.2 h]

end Typing

/-! ## Symbols -/

/-- The node of an instruction; `lines` and `partners` belong to the program. -/
def Instruction.node (lines : Array (List Char)) (partners : Partners) (i : Instruction) : Node :=
  ⟨i.opcode, i.location, i.sourceText lines, .ofInstruction partners i⟩

/-- Exactly the names that `before` declares are known. -/
structure Symbols.Knows (σ : Symbols) (before : List Instruction) : Prop where
  resources : ∀ r, r ∈ σ.resources ↔ Allocated before r
  entities : ∀ e, e ∈ σ.entities ↔ Declared before e
  values : ∀ x, σ.values.find? x ≠ none ↔ Bound before x
  /-- What a variable is bound to has a type. -/
  typed : ∀ {x t}, σ.values.find? x = some t → t.isUnknown = false

theorem Symbols.knows_nil : ({} : Symbols).Knows [] where
  resources r := by simp [Allocated]
  entities e := by simp [Declared]
  values x := by simp [Bound]
  typed h := absurd h (by simp)

section

variable {views : EntityViews} {options : CheckOptions} {σ : Symbols} {before : List Instruction}
  {lines : Array (List Char)} {partners : Partners} {i : Instruction}

theorem dimensionIssues_eq_nil {name : String} {d : Option Nat} :
    dimensionIssues name d = [] ↔ ∃ k, d = some k ∧ 2 ≤ k := by
  cases d with
  | none => simp [dimensionIssues]
  | some k =>
    rw [dimensionIssues]
    split
    · rename_i two
      exact iff_of_true rfl ⟨k, rfl, two⟩
    · rename_i small
      exact iff_of_false (by simp) fun ⟨j, hj, two⟩ => small (Option.some.inj hj ▸ two)

theorem modifierIssues_eq_nil {entity : String} {m : Modifier} :
    (modifierType entity m).2 = [] ↔
      match m with
      | .explainability score => ∃ x, score = some x ∧ x.inUnit = true
      | .oversight level => ∃ l, level = some l
      | .criticality level => ∃ l, level = some l
      | .approval => True := by
  cases m with
  | explainability score =>
    cases score with
    | none => simp [modifierType]
    | some x => by_cases h : x.inUnit = true <;> simp [modifierType, Option.filter, h]
  | oversight level => cases level <;> simp [modifierType]
  | criticality level => cases level <;> simp [modifierType]
  | approval => simp [modifierType]

theorem quiet_directive {location : Location} {d : Directive} :
    Quiet (directiveType location d).2 ↔
      match d with
      | .barrier _ deadline => ∃ ms, deadline = some ms
      | .window _ soft hard => (∃ ms, soft = some ms) ∧ ∃ ms, hard = some ms
      | _ => True := by
  cases d with
  | targetNode | channel => simp [directiveType]
  | barrier name deadline =>
    cases deadline <;> simp [directiveType, Quiet, TypeIssue.diagnostic]
  | window name soft hard =>
    cases soft with
    | none => simp [directiveType, Quiet, TypeIssue.diagnostic]
    | some first =>
      cases hard with
      | none => simp [directiveType, Quiet, TypeIssue.diagnostic]
      | some last => by_cases h : last < first <;> simp [directiveType, Quiet, h]

/-- What a node needs in order to be typed without an error. -/
def Node.Typable (σ : Symbols) (node : Node) : Prop :=
  match node.metadata with
  | .resource name dimension _ => name ∉ σ.resources ∧ dimensionIssues name dimension = []
  | .operation operands _ _ _ =>
    (∀ r ∈ operands, r ∈ σ.resources) ∧ selfIssues node.opcode operands = []
  | .entity name _ _ _ => name ∉ σ.entities
  | .modifier entity m => entity ∈ σ.entities ∧ (modifierType entity m).2 = []
  | .governed entity _ | .decision entity _ => entity ∈ σ.entities
  | .literal _ _ => True
  | .reference name => σ.values.find? name ≠ none
  | .directive d => Quiet (directiveType node.location d).2

theorem quiet_infer {node : Node} :
    Quiet (infer views options σ node).findings ↔ node.Typable σ := by
  obtain ⟨opcode, location, text, metadata⟩ := node
  cases metadata with
  | resource name dimension partners =>
    by_cases h : name ∈ σ.resources <;> simp [infer, Node.Typable, h]
  | operation operands gate remote consuming =>
    by_cases h : ∀ r ∈ operands, r ∈ σ.resources
    · simp only [infer, Node.Typable]
      rw [if_pos (by simpa using h), Typing.quiet_reporting, and_iff_right h]
    · simp [infer, Node.Typable, h]
  | entity name explainability oversight criticality =>
    by_cases h : name ∈ σ.entities <;> simp [infer, Node.Typable, h]
  | modifier entity m => simp [infer, Node.Typable]
  | governed entity action => simp [infer, Node.Typable]
  | decision entity action => simp [infer, Node.Typable]
  | literal name value => simp [infer, Node.Typable]
  | reference name => cases h : σ.values.find? name <;> simp [infer, Node.Typable, h]
  | directive d => simp [infer, Node.Typable]

/-- A node can be typed exactly where its instruction resolves. -/
theorem Symbols.Knows.typable_iff (lines : Array (List Char)) (partners : Partners)
    (known : σ.Knows before) :
    (i.node lines partners).Typable σ ↔ i.Resolves before := by
  have parsed {α : Type} (answer : Except UnknownLevel α) :
      (∃ l, answer.toOption = some l) ↔ ∃ l, answer = .ok l := by
    cases answer <;> simp [Except.toOption]
  rw [Instruction.resolves_iff]
  unfold Node.Typable Instruction.node
  cases op : i.opcode with
  | allocQudit =>
    simp [Metadata.ofInstruction, op, Instruction.resources, Instruction.entity?,
      Instruction.isPaired, known.resources, dimensionIssues_eq_nil]
  | entangle | disentangle | entanglementSwap =>
    simp [Metadata.ofInstruction, op, Instruction.resources, Instruction.entity?,
      Instruction.isPaired, known.resources, selfIssues]
  | applyGate | measure | release | entangleRemote | teleport =>
    simp [Metadata.ofInstruction, op, Instruction.resources, Instruction.entity?,
      Instruction.isPaired, known.resources, selfIssues]
  | declareContract =>
    simp [Metadata.ofInstruction, op, Instruction.resources, Instruction.entity?,
      Instruction.isPaired, known.entities]
  | setExplainability | setOversight | setCriticality | approve =>
    simp [Metadata.ofInstruction, op, Instruction.resources, Instruction.entity?,
      Instruction.isPaired, known.entities, modifierIssues_eq_nil, parsed, and_assoc]
  | deploy | verify | decide =>
    simp [Metadata.ofInstruction, op, Instruction.resources, Instruction.entity?,
      Instruction.isPaired, known.entities]
  | bind => simp [Metadata.ofInstruction, op, Instruction.resources, Instruction.entity?,
      Instruction.isPaired]
  | print =>
    simp [Metadata.ofInstruction, op, Instruction.resources, Instruction.entity?,
      Instruction.isPaired, known.values]
  | setTargetNode | setChannel | barrier | scheduleWindow =>
    simp [Metadata.ofInstruction, op, Instruction.resources, Instruction.entity?,
      Instruction.isPaired, quiet_directive]

@[simp] theorem Typing.symbols_ofEntity {location : Location} {entity : String} {typing : Typing}
    (h : typing.symbols = σ) : (Typing.ofEntity σ location entity typing).symbols = σ := by
  rw [Typing.ofEntity]
  split
  · exact h
  · rfl

/-- The names after a node. -/
theorem symbols_infer (node : Node) :
    (infer views options σ node).symbols =
      match node.metadata with
      | .resource name _ _ =>
        if name ∈ σ.resources then σ else { σ with resources := name :: σ.resources }
      | .entity name _ _ _ =>
        if name ∈ σ.entities then σ else { σ with entities := name :: σ.entities }
      | .literal name value =>
        { σ with
          values := σ.values.insert name
            (({ kind := .primitive, name := value.typeName } : InferredType).withProperty "value"
              value.display) }
      | _ => σ := by
  obtain ⟨opcode, location, text, metadata⟩ := node
  cases metadata with
  | resource name dimension partners => by_cases h : name ∈ σ.resources <;> simp [infer, h] <;> rfl
  | operation operands gate remote consuming =>
    simp only [infer]
    split <;> rfl
  | entity name explainability oversight criticality =>
    by_cases h : name ∈ σ.entities <;> simp [infer, h] <;> rfl
  | modifier entity m => exact Typing.symbols_ofEntity rfl
  | governed entity action => exact Typing.symbols_ofEntity rfl
  | decision entity action => exact Typing.symbols_ofEntity rfl
  | literal name value => rfl
  | reference name => cases h : σ.values.find? name <;> simp [infer, h] <;> rfl
  | directive d => rfl

/-- Inference learns what the instruction declares, whether or not it can be typed. -/
theorem Symbols.Knows.concat (known : σ.Knows before) :
    (infer views options σ (i.node lines partners)).symbols.Knows (before ++ [i]) := by
  rw [symbols_infer]
  constructor
  · intro r
    rw [allocated_concat, ← known.resources, Instruction.Allocates]
    cases op : i.opcode with
    | allocQudit =>
      simp only [Instruction.node, Metadata.ofInstruction, op, true_and]
      split
      · rename_i h
        exact ⟨.inl, fun hr => hr.elim id fun hr => hr ▸ h⟩
      · rw [List.mem_cons, or_comm, eq_comm]
    | declareContract =>
      simp only [Instruction.node, Metadata.ofInstruction, op]
      split <;> simp
    | _ => simp [Instruction.node, Metadata.ofInstruction, op]
  · intro e
    rw [declared_concat, ← known.entities, Instruction.Declares]
    cases op : i.opcode with
    | declareContract =>
      simp only [Instruction.node, Metadata.ofInstruction, op, true_and]
      split
      · rename_i h
        exact ⟨.inl, fun he => he.elim id fun he => he ▸ h⟩
      · rw [List.mem_cons, or_comm, eq_comm]
    | allocQudit =>
      simp only [Instruction.node, Metadata.ofInstruction, op]
      split <;> simp
    | _ => simp [Instruction.node, Metadata.ofInstruction, op]
  · intro x
    rw [bound_concat, ← known.values, Instruction.Binds]
    cases op : i.opcode with
    | bind =>
      simp only [Instruction.node, Metadata.ofInstruction, op, true_and]
      rw [Table.find?_insert]
      by_cases h : i.arg 0 = x <;> simp [h]
    | allocQudit | declareContract =>
      simp only [Instruction.node, Metadata.ofInstruction, op]
      split <;> simp
    | _ => simp [Instruction.node, Metadata.ofInstruction, op]
  · intro x t ht
    split at ht
    · split at ht <;> exact known.typed ht
    · split at ht <;> exact known.typed ht
    · rw [Table.find?_insert] at ht
      split at ht
      · obtain rfl := Option.some.inj ht
        rfl
      · exact known.typed ht
    · exact known.typed ht

end

/-! ## Constraints -/

namespace Constraint

variable (r e : String) (phase : Phase)

@[simp] theorem phase_total : (noCloning r .program).phase = .final := rfl
@[simp] theorem phase_unused : (noCloning r .operation).phase = .pre := rfl
@[simp] theorem phase_memorySafety : (memorySafety r phase).phase = phase := rfl
@[simp] theorem phase_entanglementConsistency (partners : List String) :
    (entanglementConsistency r partners).phase = .final := rfl
@[simp] theorem phase_coherencePreservation : (coherencePreservation r).phase = .pre := rfl
@[simp] theorem phase_explainability (threshold : Binary64) :
    (explainability e threshold phase).phase = phase := rfl
@[simp] theorem phase_compliance : (compliance e phase).phase = phase := rfl
@[simp] theorem phase_humanOversight : (humanOversight e phase).phase = phase := rfl
@[simp] theorem phase_humanApproval : (humanApproval e).phase = .pre := rfl

end Constraint

/-- **What an instruction owes**: the constraints that its node lives under. `views` are the
entities as they end. -/
def owed (threshold : Binary64) (views : EntityViews) (partners : Partners) (i : Instruction) :
    List Constraint :=
  let requires := (views.getD (i.arg 0) {}).criticality.requiresOversight
  match i.opcode with
  | .allocQudit =>
    let others := partners.getD (i.arg 0) []
    [.noCloning (i.arg 0) .program, .memorySafety (i.arg 0) .post] ++
      if others.isEmpty then [] else [.entanglementConsistency (i.arg 0) others]
  | .declareContract =>
    [.explainability (i.arg 0) threshold .post, .compliance (i.arg 0) .post] ++
      if requires then [.humanOversight (i.arg 0) .post] else []
  | .deploy =>
    [.explainability (i.arg 0) threshold .pre, .compliance (i.arg 0) .pre,
      .humanOversight (i.arg 0) .pre]
  | .decide =>
    [.explainability (i.arg 0) threshold .pre, .compliance (i.arg 0) .pre] ++
      if requires then [.humanApproval (i.arg 0)] else []
  | _ =>
    i.resources.flatMap fun r =>
      [.memorySafety r .pre, .noCloning r .operation] ++
        if i.opcode = .measure then [] else [.coherencePreservation r]

section

variable {threshold : Binary64} {views : EntityViews} {partners : Partners} {i : Instruction}
  {c : Constraint}

/-- What is owed, one clause a constraint. -/
inductive Owes (threshold : Binary64) (views : EntityViews) (partners : Partners)
    (i : Instruction) : Constraint → Prop
  | total (op : i.opcode = .allocQudit) :
      Owes threshold views partners i (.noCloning (i.arg 0) .program)
  | backed (op : i.opcode = .allocQudit) :
      Owes threshold views partners i (.memorySafety (i.arg 0) .post)
  | entangled (op : i.opcode = .allocQudit) :
      Owes threshold views partners i
        (.entanglementConsistency (i.arg 0) (partners.getD (i.arg 0) []))
  | tracked {r : String} (operand : r ∈ i.resources) :
      Owes threshold views partners i (.memorySafety r .pre)
  | unused {r : String} (operand : r ∈ i.resources) :
      Owes threshold views partners i (.noCloning r .operation)
  | coherent {r : String} (operand : r ∈ i.resources) :
      Owes threshold views partners i (.coherencePreservation r)
  | explainable (op : i.opcode = .declareContract) :
      Owes threshold views partners i (.explainability (i.arg 0) threshold .post)
  | compliant (op : i.opcode = .declareContract) :
      Owes threshold views partners i (.compliance (i.arg 0) .post)
  | overseen (op : i.opcode = .declareContract)
      (stake : (views.getD (i.arg 0) {}).criticality.requiresOversight = true) :
      Owes threshold views partners i (.humanOversight (i.arg 0) .post)
  | stillExplainable (op : i.opcode = .deploy ∨ i.opcode = .decide) :
      Owes threshold views partners i (.explainability (i.arg 0) threshold .pre)
  | stillCompliant (op : i.opcode = .deploy ∨ i.opcode = .decide) :
      Owes threshold views partners i (.compliance (i.arg 0) .pre)
  | stillOverseen (op : i.opcode = .deploy) :
      Owes threshold views partners i (.humanOversight (i.arg 0) .pre)
  | approved (op : i.opcode = .decide)
      (stake : (views.getD (i.arg 0) {}).criticality.requiresOversight = true) :
      Owes threshold views partners i (.humanApproval (i.arg 0))

theorem owes_operand {r : String} (hr : r ∈ i.resources)
    (hc : c ∈ [.memorySafety r .pre, .noCloning r .operation] ++
      if i.opcode = .measure then [] else [Constraint.coherencePreservation r]) :
    Owes threshold views partners i c := by
  rw [List.mem_append] at hc
  rcases hc with hc | hc
  · rcases List.mem_pair.1 hc with rfl | rfl
    · exact .tracked hr
    · exact .unused hr
  · split at hc
    · exact absurd hc (by simp)
    · rw [List.mem_singleton.1 hc]
      exact .coherent hr

theorem owes_of_mem (hc : c ∈ owed threshold views partners i) :
    Owes threshold views partners i c := by
  unfold owed at hc
  split at hc
  · rename_i op
    rcases List.mem_append.1 hc with hc | hc
    · rcases List.mem_pair.1 hc with rfl | rfl
      · exact .total op
      · exact .backed op
    · split at hc
      · exact absurd hc (by simp)
      · rw [List.mem_singleton.1 hc]
        exact .entangled op
  · rename_i op
    rcases List.mem_append.1 hc with hc | hc
    · rcases List.mem_pair.1 hc with rfl | rfl
      · exact .explainable op
      · exact .compliant op
    · split at hc
      · rename_i stake
        rw [List.mem_singleton.1 hc]
        exact .overseen op stake
      · exact absurd hc (by simp)
  · rename_i op
    rcases List.mem_cons.1 hc with rfl | hc
    · exact .stillExplainable (.inl op)
    · rcases List.mem_pair.1 hc with rfl | rfl
      · exact .stillCompliant (.inl op)
      · exact .stillOverseen op
  · rename_i op
    rcases List.mem_append.1 hc with hc | hc
    · rcases List.mem_pair.1 hc with rfl | rfl
      · exact .stillExplainable (.inr op)
      · exact .stillCompliant (.inr op)
    · split at hc
      · rename_i stake
        rw [List.mem_singleton.1 hc]
        exact .approved op stake
      · exact absurd hc (by simp)
  · obtain ⟨r, hr, hc⟩ := List.mem_flatMap.1 hc
    exact owes_operand hr hc

theorem mem_owed_unused {r : String} (hr : r ∈ i.resources) :
    .noCloning r .operation ∈ owed threshold views partners i := by
  unfold owed
  cases op : i.opcode with
  | allocQudit | declareContract | deploy | decide =>
    rw [Instruction.resources, op] at hr
    exact absurd hr (by simp)
  | _ => exact List.mem_flatMap.2 ⟨r, hr, by simp⟩

theorem mem_owed_explainable (op : i.opcode = .declareContract) :
    .explainability (i.arg 0) threshold .post ∈ owed threshold views partners i := by
  simp [owed, op]

theorem mem_owed_overseen (op : i.opcode = .declareContract)
    (stake : (views.getD (i.arg 0) {}).criticality.requiresOversight = true) :
    .humanOversight (i.arg 0) .post ∈ owed threshold views partners i := by
  simp [owed, op, stake]

theorem mem_owed_approved (op : i.opcode = .decide)
    (stake : (views.getD (i.arg 0) {}).criticality.requiresOversight = true) :
    .humanApproval (i.arg 0) ∈ owed threshold views partners i := by
  simp [owed, op, stake]

end

namespace InferredType

variable (t : InferredType)

@[simp] theorem constraints_withProperty (key value : String) :
    (t.withProperty key value).constraints = t.constraints := rfl

@[simp] theorem constraints_withFlag (key : String) (value : Bool) :
    (t.withFlag key value).constraints = t.constraints := rfl

@[simp] theorem constraints_withConstraint (c : Constraint) :
    (t.withConstraint c).constraints = t.constraints ++ [c] := rfl

@[simp] theorem constraints_withDependency (name : String) :
    (t.withDependency name).constraints = t.constraints := rfl

@[simp] theorem constraints_withDependencies (names : List String) :
    (names.foldl withDependency t).constraints = t.constraints := by
  induction names generalizing t with
  | nil => rfl
  | cons name rest ih => exact ih _

@[simp] theorem isUnknown_withDependencies (names : List String) :
    (names.foldl withDependency t).isUnknown = t.isUnknown := by
  induction names generalizing t with
  | nil => rfl
  | cons name rest ih => exact ih _

theorem constraints_withOperands (op : Opcode) (operands : List String) :
    (operands.foldl (withOperand op) t).constraints =
      t.constraints ++ operands.flatMap fun r =>
        [.memorySafety r .pre, .noCloning r .operation] ++
          if op = .measure then [] else [.coherencePreservation r] := by
  induction operands generalizing t with
  | nil => simp
  | cons r rest ih =>
    rw [List.foldl_cons, ih, List.flatMap_cons, ← List.append_assoc, withOperand]
    split <;> simp

theorem isUnknown_withOperands (op : Opcode) (operands : List String) :
    (operands.foldl (withOperand op) t).isUnknown = t.isUnknown := by
  induction operands generalizing t with
  | nil => rfl
  | cons r rest ih =>
    rw [List.foldl_cons, ih, withOperand]
    split <;> rfl

end InferredType

theorem constraints_resourceType (name : String) (dimension : Option Nat) (partners : List String) :
    (resourceType name dimension partners).isUnknown = false ∧
      (resourceType name dimension partners).constraints =
        [.noCloning name .program, .memorySafety name .post] ++
          if partners.isEmpty then [] else [.entanglementConsistency name partners] := by
  cases partners <;> cases dimension <;> simp [resourceType] <;> rfl

theorem constraints_operationType (op : Opcode) (operands : List String)
    (gate remote : Option String) (consuming : Bool) :
    (operationType op operands gate remote consuming).isUnknown = false ∧
      (operationType op operands gate remote consuming).constraints =
        operands.flatMap fun r =>
          [.memorySafety r .pre, .noCloning r .operation] ++
            if op = .measure then [] else [.coherencePreservation r] := by
  simp only [operationType, InferredType.isUnknown_withOperands,
    InferredType.constraints_withOperands]
  by_cases h : op = .measure <;> cases gate <;> cases remote <;> simp [h] <;> rfl

theorem constraints_entityType (threshold : Binary64) (name : String) (view : EntityView) :
    (entityType threshold name view).isUnknown = false ∧
      (entityType threshold name view).constraints =
        [.explainability name threshold .post, .compliance name .post] ++
          if view.criticality.requiresOversight then [.humanOversight name .post] else [] := by
  by_cases h : view.criticality.requiresOversight = true <;> simp [entityType, h] <;> rfl

theorem constraints_decisionType (threshold : Binary64) (entity action : String)
    (view : EntityView) :
    (decisionType threshold entity action view).isUnknown = false ∧
      (decisionType threshold entity action view).constraints =
        [.explainability entity threshold .pre, .compliance entity .pre] ++
          if view.criticality.requiresOversight then [.humanApproval entity] else [] := by
  by_cases h : view.criticality.requiresOversight = true <;> simp [decisionType, h] <;> rfl

theorem constraints_modifierType (entity : String) (m : Modifier) :
    (modifierType entity m).1.isUnknown = false ∧ (modifierType entity m).1.constraints = [] := by
  cases m with
  | explainability score =>
    simp only [modifierType]
    split <;> exact ⟨rfl, rfl⟩
  | oversight level => cases level <;> exact ⟨rfl, rfl⟩
  | criticality level => cases level <;> exact ⟨rfl, rfl⟩
  | approval => exact ⟨rfl, rfl⟩

theorem constraints_directiveType (location : Location) (d : Directive) :
    (directiveType location d).1.isUnknown = false ∧
    (directiveType location d).1.constraints = [] := by
  cases d with
  | targetNode | channel => exact ⟨rfl, rfl⟩
  | barrier name deadline => cases deadline <;> exact ⟨rfl, rfl⟩
  | window name soft hard =>
    simp only [directiveType]
    split
    · split <;> exact ⟨rfl, rfl⟩
    · exact ⟨rfl, rfl⟩

section

variable {views : EntityViews} {options : CheckOptions} {σ : Symbols} {before : List Instruction}
  {i : Instruction}

theorem Typing.type_ofEntity {location : Location} {entity : String} (typing : Typing)
    (h : entity ∈ σ.entities) : (Typing.ofEntity σ location entity typing).type = typing.type := by
  rw [Typing.ofEntity, if_pos (List.contains_iff_mem.2 h)]

/-- The type of a node that can be typed, a reference apart. -/
theorem type_infer (views : EntityViews) (options : CheckOptions) {node : Node}
    (h : node.Typable σ) :
    match node.metadata with
    | .resource name dimension others =>
      (infer views options σ node).type = resourceType name dimension others
    | .operation operands gate remote consuming =>
      (infer views options σ node).type = operationType node.opcode operands gate remote consuming
    | .entity name _ _ _ =>
      (infer views options σ node).type =
        entityType options.explainabilityThreshold name (views.getD name {})
    | .modifier entity m => (infer views options σ node).type = (modifierType entity m).1
    | .governed entity action =>
      (infer views options σ node).type = actionType options.explainabilityThreshold entity action
    | .decision entity action =>
      (infer views options σ node).type =
        decisionType options.explainabilityThreshold entity action (views.getD entity {})
    | .literal _ _ => (infer views options σ node).type.kind = .primitive ∧
      (infer views options σ node).type.constraints = []
    | .reference name => ∃ bound, σ.values.find? name = some bound ∧
      (infer views options σ node).type.kind = bound.kind ∧
      (infer views options σ node).type.constraints = []
    | .directive d => (infer views options σ node).type = (directiveType node.location d).1 := by
  obtain ⟨opcode, location, text, metadata⟩ := node
  cases metadata with
  | resource name dimension others =>
    have new : name ∉ σ.resources := h.1
    simp [infer, new, Typing.reporting]
  | operation operands gate remote consuming =>
    have all : ∀ r ∈ operands, r ∈ σ.resources := h.1
    simp only [infer]
    rw [if_pos (by simpa using all)]
    rfl
  | entity name explainability oversight criticality =>
    have new : name ∉ σ.entities := h
    simp [infer, new, Typing.plain]
  | modifier entity m => exact Typing.type_ofEntity _ h.1
  | governed entity action => exact Typing.type_ofEntity _ h
  | decision entity action => exact Typing.type_ofEntity _ h
  | literal name value => exact ⟨rfl, rfl⟩
  | reference name =>
    cases hb : σ.values.find? name with
    | none => exact absurd hb h
    | some bound => simp [infer, hb, Typing.plain]
  | directive d => rfl

/-- **A resolved instruction is typed with what it owes.** -/
theorem Symbols.Knows.type_infer (lines : Array (List Char)) (partners : Partners)
    (known : σ.Knows before) (h : i.Resolves before) :
    (infer views options σ (i.node lines partners)).type.isUnknown = false ∧
      (infer views options σ (i.node lines partners)).type.constraints =
        owed options.explainabilityThreshold views partners i := by
  have type := GovernedQuantum.type_infer views options ((known.typable_iff lines partners).2 h)
  generalize (infer views options σ (i.node lines partners)).type = t at type ⊢
  unfold owed
  cases op : i.opcode with
  | allocQudit =>
    simp only [Instruction.node, Metadata.ofInstruction, op] at type
    rw [type]
    exact constraints_resourceType _ _ _
  | entangle | disentangle | entanglementSwap | applyGate | measure | release | entangleRemote
  | teleport =>
    simp only [Instruction.node, Metadata.ofInstruction, op] at type
    rw [type, Instruction.resources, op]
    exact constraints_operationType _ _ _ _ _
  | declareContract =>
    simp only [Instruction.node, Metadata.ofInstruction, op] at type
    rw [type]
    exact constraints_entityType _ _ _
  | setExplainability | setOversight | setCriticality | approve =>
    simp only [Instruction.node, Metadata.ofInstruction, op] at type
    rw [type, Instruction.resources, op]
    exact constraints_modifierType _ _
  | deploy =>
    simp only [Instruction.node, Metadata.ofInstruction, op] at type
    rw [type]
    exact ⟨rfl, rfl⟩
  | verify =>
    simp only [Instruction.node, Metadata.ofInstruction, op] at type
    rw [type, Instruction.resources, op]
    exact ⟨rfl, rfl⟩
  | decide =>
    simp only [Instruction.node, Metadata.ofInstruction, op] at type
    rw [type]
    exact constraints_decisionType _ _ _ _
  | bind =>
    simp only [Instruction.node, Metadata.ofInstruction, op] at type
    rw [Instruction.resources, op, InferredType.isUnknown, type.1]
    exact ⟨rfl, type.2⟩
  | print =>
    simp only [Instruction.node, Metadata.ofInstruction, op] at type
    obtain ⟨bound, hb, kind, none⟩ := type
    rw [Instruction.resources, op, InferredType.isUnknown, kind]
    exact ⟨known.typed hb, none⟩
  | setTargetNode | setChannel | barrier | scheduleWindow =>
    simp only [Instruction.node, Metadata.ofInstruction, op] at type
    rw [type, Instruction.resources, op]
    exact constraints_directiveType _ _

end

/-! ## Whole programs -/

section

variable (views : EntityViews) (options : CheckOptions)

theorem inferAll_concat (nodes : List Node) (node : Node) :
    inferAll views options (nodes ++ [node]) =
      (inferAll views options nodes).step views options node := by
  rw [inferAll, List.foldl_append]
  rfl

/-- The type that a node gets behind other nodes. -/
def typeAfter (nodes : List Node) (node : Node) : InferredType :=
  (infer views options (inferAll views options nodes).symbols node).type

theorem types_concat (nodes : List Node) (node : Node) :
    (inferAll views options (nodes ++ [node])).types.toList =
      (inferAll views options nodes).types.toList ++ [typeAfter views options nodes node] := by
  rw [inferAll_concat, Inference.step, Array.toList_push]
  rfl

theorem length_types (nodes : List Node) :
    (inferAll views options nodes).types.toList.length = nodes.length := by
  induction nodes using List.reverseRecOn with
  | nil => rfl
  | append_singleton nodes node ih =>
    rw [types_concat, List.length_append, ih, List.length_append]; rfl

theorem types_prefix (nodes more : List Node) :
    (inferAll views options nodes).types.toList <+:
      (inferAll views options (nodes ++ more)).types.toList := by
  induction more using List.reverseRecOn with
  | nil => rw [List.append_nil]
  | append_singleton more node ih =>
    rw [← List.append_assoc, types_concat]
    exact ih.trans (List.prefix_append _ _)

/-- A node is typed by what stands before it. -/
theorem getElem?_types (nodes more : List Node) (node : Node) :
    (inferAll views options (nodes ++ node :: more)).types.toList[nodes.length]? =
      some (typeAfter views options nodes node) := by
  obtain ⟨rest, hr⟩ := types_prefix views options (nodes ++ [node]) more
  rw [List.append_assoc, List.singleton_append] at hr
  rw [← hr, types_concat, List.append_assoc,
    List.getElem?_append_right (Nat.le_of_eq (length_types views options nodes)), length_types,
    Nat.sub_self]
  rfl

/-- The nodes of a program with their types. -/
def annotated (nodes : List Node) : List (Node × InferredType) :=
  nodes.zip (inferAll views options nodes).types.toList

theorem annotated_concat (nodes : List Node) (node : Node) :
    annotated views options (nodes ++ [node]) =
      annotated views options nodes ++ [(node, typeAfter views options nodes node)] := by
  rw [annotated, types_concat, List.zip_append (length_types views options nodes).symm]
  rfl

variable (lines : Array (List Char)) (partners : Partners)

theorem knows_inferAll (is : List Instruction) :
    (inferAll views options (is.map (·.node lines partners))).symbols.Knows is := by
  induction is using List.reverseRecOn with
  | nil => exact Symbols.knows_nil
  | append_singleton is i ih =>
    rw [List.map_append, List.map_singleton, inferAll_concat]
    exact ih.concat

/-- **Inference finds no error** exactly in resolved programs. -/
theorem quiet_inferAll_iff (is : List Instruction) :
    Quiet (inferAll views options (is.map (·.node lines partners))).findings.toList ↔
      Resolved is := by
  induction is using List.reverseRecOn with
  | nil => exact iff_of_true (by simp [inferAll]) (everywhere_nil _)
  | append_singleton is i ih =>
    have known := knows_inferAll views options lines partners is
    rw [List.map_append, List.map_singleton, inferAll_concat, Inference.step, Resolved,
      everywhere_concat]
    simp only [Array.toList_appendList, quiet_append]
    exact and_congr ih (quiet_infer.trans (known.typable_iff lines partners))

/-- In a resolved program every node is typed with what its instruction owes. -/
theorem typeAfter_of_resolves {is : List Instruction} {i : Instruction} (h : i.Resolves is) :
    (typeAfter views options (is.map (·.node lines partners)) (i.node lines partners)).isUnknown =
        false ∧
      (typeAfter views options (is.map (·.node lines partners))
        (i.node lines partners)).constraints =
        owed options.explainabilityThreshold views partners i :=
  (knows_inferAll views options lines partners is).type_infer lines partners h

end

end GovernedQuantum
