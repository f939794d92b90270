import GovernedQuantum.Proofs.Inference
import Mathlib.Data.List.Find

/-!
# Checking an interleaving

The checker walks a program with tables that all its nodes share. This file shows that a node reads
and writes them at the names it mentions only, so that two programs without a common name can be
merged in any order: every node is typed as in its own program, and what is found is what is found
in the two.

* `Node.mentions`: the qudits, entities and variables that a node mentions.
* `Symbols.Agree`, `FactTable.Agree`, `Context.Agree`, `Findings.Agree`: two states cannot be told
  apart by these names. A node that mentions nothing else does the same in both, and one that
  mentions none of them does nothing to either.
* `Interleaving`: two lists merged into one. `Interleaving.foldl_sides`: what a step keeps, a run
  keeps.
* `check_interleaved`: **checking is compositional over disjoint names.**
-/

namespace GovernedQuantum

/-! ## Mentions -/

/-- A name, and what it is the name of. -/
inductive Mention where
  | resource (name : String)
  | entity (name : String)
  | binding (name : String)
deriving DecidableEq, Repr

/-- The names that a node mentions. -/
def Node.mentions (node : Node) : List Mention :=
  match node.metadata with
  | .resource name _ partners => (name :: partners).map .resource
  | .operation operands _ _ _ => operands.map .resource
  | .entity name _ _ _ => [.entity name]
  | .modifier entity _ | .governed entity _ | .decision entity _ => [.entity entity]
  | .literal name _ | .reference name => [.binding name]
  | .directive _ => []

/-- The names that a constraint asks about. -/
def ConstraintKind.mentions : ConstraintKind → List Mention
  | .noCloning r _ | .memorySafety r | .coherencePreservation r => [.resource r]
  | .entanglementConsistency r partners => (r :: partners).map .resource
  | .explainability e _ | .compliance e | .humanOversight e | .humanApproval e => [.entity e]

/-- **A node lives under constraints on the names it mentions.** -/
theorem mentions_of_mem_constraints (views : EntityViews) (options : CheckOptions) (σ : Symbols)
    (node : Node) {c : Constraint} (hc : c ∈ (infer views options σ node).type.constraints) :
    ∀ m ∈ c.kind.mentions, m ∈ node.mentions := by
  obtain ⟨opcode, location, text, metadata⟩ := node
  have known {entity : String} {typing : Typing}
      (h : c ∈ (Typing.ofEntity σ location entity typing).type.constraints) :
      c ∈ typing.type.constraints := by
    unfold Typing.ofEntity at h
    split at h
    · exact h
    · exact absurd h List.not_mem_nil
  cases metadata with
  | resource name dimension partners =>
    simp only [infer] at hc
    split at hc
    · exact absurd hc List.not_mem_nil
    · rw [Typing.reporting, (constraints_resourceType name dimension partners).2] at hc
      cases partners with
      | nil =>
        rcases List.mem_pair.1 hc with rfl | rfl <;> exact fun m hm => hm
      | cons p rest =>
        rcases List.mem_append.1 hc with hc | hc
        · rcases List.mem_pair.1 hc with rfl | rfl <;>
            exact fun m hm => List.mem_cons.2 (.inl (List.mem_singleton.1 hm))
        · obtain rfl := List.mem_singleton.1 hc
          exact fun m hm => hm
  | operation operands gate remote consuming =>
    simp only [infer] at hc
    split at hc
    · rw [Typing.reporting, (constraints_operationType opcode operands gate remote consuming).2]
        at hc
      obtain ⟨r, hr, hc⟩ := List.mem_flatMap.1 hc
      have about : c.kind.mentions = [.resource r] := by
        rcases List.mem_append.1 hc with hc | hc
        · rcases List.mem_pair.1 hc with rfl | rfl <;> rfl
        · split at hc
          · exact absurd hc List.not_mem_nil
          · rw [List.mem_singleton.1 hc]
            rfl
      intro m hm
      rw [about] at hm
      rw [List.mem_singleton.1 hm]
      exact List.mem_map_of_mem hr
    · exact absurd hc List.not_mem_nil
  | entity name explainability oversight criticality =>
    simp only [infer] at hc
    split at hc
    · exact absurd hc List.not_mem_nil
    · rw [Typing.plain, (constraints_entityType _ name _).2] at hc
      rcases List.mem_append.1 hc with hc | hc
      · rcases List.mem_pair.1 hc with rfl | rfl <;> exact fun m hm => hm
      · split at hc
        · rw [List.mem_singleton.1 hc]
          exact fun m hm => hm
        · exact absurd hc List.not_mem_nil
  | modifier entity m =>
    have hc : c ∈ (modifierType entity m).1.constraints := known hc
    rw [(constraints_modifierType entity m).2] at hc
    exact absurd hc List.not_mem_nil
  | governed entity action =>
    have hc := known hc
    cases action with
    | deploy target =>
      rcases List.mem_append.1 hc with hc | hc
      · rcases List.mem_pair.1 hc with rfl | rfl <;> exact fun m hm => hm
      · rw [List.mem_singleton.1 hc]
        exact fun m hm => hm
    | verify => exact absurd hc List.not_mem_nil
  | decision entity action =>
    have hc := known hc
    rw [Typing.plain, (constraints_decisionType _ entity action _).2] at hc
    rcases List.mem_append.1 hc with hc | hc
    · rcases List.mem_pair.1 hc with rfl | rfl <;> exact fun m hm => hm
    · split at hc
      · rw [List.mem_singleton.1 hc]
        exact fun m hm => hm
      · exact absurd hc List.not_mem_nil
  | literal name value => exact absurd hc List.not_mem_nil
  | reference name =>
    simp only [infer] at hc
    split at hc <;> exact absurd hc List.not_mem_nil
  | directive d =>
    have hc : c ∈ (directiveType location d).1.constraints := hc
    rw [(constraints_directiveType location d).2] at hc
    exact absurd hc List.not_mem_nil

/-! ## Agreement on names -/

/-- Only the names of `N` are mentioned. -/
def Node.Within (N : Mention → Prop) (node : Node) : Prop := ∀ m ∈ node.mentions, N m

/-- No name of `N` is mentioned. -/
def Node.Apart (N : Mention → Prop) (node : Node) : Prop := ∀ m ∈ node.mentions, ¬ N m

section

variable {N : Mention → Prop} {node : Node}

/-- The entities of `N` are the same. -/
def EntityViews.Agree (N : Mention → Prop) (views views' : EntityViews) : Prop :=
  ∀ e, N (.entity e) → views.find? e = views'.find? e

namespace EntityViews.Agree

variable {views views' : EntityViews}

/-- The effect of a node on an entity depends on that entity. -/
theorem step (h : views.Agree N views') (node : Node) :
    (views.step node).Agree N (views'.step node) := by
  obtain ⟨opcode, location, text, metadata⟩ := node
  intro e he
  cases metadata with
  | entity name explainability oversight criticality =>
    by_cases hn : name = e
    · subst hn
      have same : views.contains name = views'.contains name := by
        rw [Table.contains, Table.contains, h name he]
      simp only [EntityViews.step, same]
      split
      · exact h name he
      · rw [Table.find?_insert, Table.find?_insert, if_pos rfl, if_pos rfl]
    · have other (v : EntityViews) : (EntityViews.step v ⟨opcode, location, text,
          .entity name explainability oversight criticality⟩).find? e = v.find? e := by
        simp only [EntityViews.step]
        split
        · rfl
        · rw [Table.find?_insert, if_neg hn]
      rw [other, other, h e he]
  | modifier entity m => simp only [EntityViews.step, Table.find?_modify, h e he]
  | resource | operation | governed | decision | literal | reference | directive => exact h e he

/-- A node changes the entity that it mentions. -/
theorem step_left (h : views.Agree N views') (apart : node.Apart N) :
    (views.step node).Agree N views' := by
  obtain ⟨opcode, location, text, metadata⟩ := node
  intro e he
  cases metadata with
  | entity name explainability oversight criticality =>
    have hn : name ≠ e := fun hn => apart _ List.mem_cons_self (hn ▸ he)
    simp only [EntityViews.step]
    split
    · exact h e he
    · rw [Table.find?_insert, if_neg hn]
      exact h e he
  | modifier entity m =>
    have hn : e ≠ entity := fun hn => apart _ List.mem_cons_self (hn ▸ he)
    simp only [EntityViews.step, Table.find?_modify, if_neg hn]
    exact h e he
  | resource | operation | governed | decision | literal | reference | directive => exact h e he

end EntityViews.Agree

/-- The names of `N` are declared in both or in neither, and the variables are of the same type. -/
structure Symbols.Agree (N : Mention → Prop) (σ σ' : Symbols) : Prop where
  resources : ∀ r, N (.resource r) → σ.resources.contains r = σ'.resources.contains r
  entities : ∀ e, N (.entity e) → σ.entities.contains e = σ'.entities.contains e
  values : ∀ v, N (.binding v) → σ.values.find? v = σ'.values.find? v

theorem Symbols.Agree.refl (σ : Symbols) : σ.Agree N σ :=
  ⟨fun _ _ => rfl, fun _ _ => rfl, fun _ _ => rfl⟩

/-- A node is typed alike: with one type, the same findings, and the same names after it. -/
structure Typing.Alike (N : Mention → Prop) (t t' : Typing) : Prop where
  type : t.type = t'.type
  findings : t.findings = t'.findings
  symbols : t.symbols.Agree N t'.symbols

namespace Symbols.Agree

variable {σ σ' : Symbols} {views views' : EntityViews}

theorem alike_ofEntity (h : σ.Agree N σ') {entity : String} (he : N (.entity entity))
    {t t' : Typing} (ht : t.Alike N t') (l : Location) :
    (Typing.ofEntity σ l entity t).Alike N (Typing.ofEntity σ' l entity t') := by
  unfold Typing.ofEntity
  rw [h.entities entity he]
  split
  · exact ht
  · exact ⟨rfl, rfl, h⟩

theorem declareResource (h : σ.Agree N σ') (name : String) :
    ({ σ with resources := name :: σ.resources } : Symbols).Agree N
      { σ' with resources := name :: σ'.resources } where
  resources r hr := by rw [List.contains_cons, List.contains_cons, h.resources r hr]
  entities := h.entities
  values := h.values

theorem declareEntity (h : σ.Agree N σ') (name : String) :
    ({ σ with entities := name :: σ.entities } : Symbols).Agree N
      { σ' with entities := name :: σ'.entities } where
  resources := h.resources
  entities e he := by rw [List.contains_cons, List.contains_cons, h.entities e he]
  values := h.values

theorem bind (h : σ.Agree N σ') (name : String) (type : InferredType) :
    ({ σ with values := σ.values.insert name type } : Symbols).Agree N
      { σ' with values := σ'.values.insert name type } where
  resources := h.resources
  entities := h.entities
  values v hv := by rw [Table.find?_insert, Table.find?_insert, h.values v hv]

/-- **A node within `N` is typed by the names of `N`.** -/
theorem infer (h : σ.Agree N σ') (hv : views.Agree N views') (options : CheckOptions)
    (within : node.Within N) :
    (infer views options σ node).Alike N (infer views' options σ' node) := by
  obtain ⟨opcode, location, text, metadata⟩ := node
  cases metadata with
  | resource name dimension partners =>
    simp only [GovernedQuantum.infer, h.resources name (within _ List.mem_cons_self)]
    split
    · exact ⟨rfl, rfl, h⟩
    · exact ⟨rfl, rfl, h.declareResource name⟩
  | operation operands gate remote consuming =>
    have missing : (operands.filter fun r => !σ.resources.contains r) =
        operands.filter fun r => !σ'.resources.contains r :=
      List.filter_congr fun r hr => by rw [h.resources r (within _ (List.mem_map_of_mem hr))]
    simp only [GovernedQuantum.infer, missing]
    split <;> exact ⟨rfl, rfl, h⟩
  | entity name explainability oversight criticality =>
    have hn := within _ List.mem_cons_self
    simp only [GovernedQuantum.infer, h.entities name hn, Table.getD, hv name hn]
    split
    · exact ⟨rfl, rfl, h⟩
    · exact ⟨rfl, rfl, h.declareEntity name⟩
  | modifier entity m =>
    exact h.alike_ofEntity (within _ List.mem_cons_self) (by exact ⟨rfl, rfl, h⟩) location
  | governed entity action =>
    exact h.alike_ofEntity (within _ List.mem_cons_self) (by exact ⟨rfl, rfl, h⟩) location
  | decision entity action =>
    have hn := within _ List.mem_cons_self
    have same : views.getD entity {} = views'.getD entity {} := by
      rw [Table.getD, Table.getD, hv entity hn]
    simp only [GovernedQuantum.infer, same]
    exact h.alike_ofEntity hn (by exact ⟨rfl, rfl, h⟩) location
  | literal name value => exact ⟨rfl, rfl, h.bind name _⟩
  | reference name =>
    simp only [GovernedQuantum.infer, h.values name (within _ List.mem_cons_self)]
    split <;> exact ⟨rfl, rfl, h⟩
  | directive d => exact ⟨rfl, rfl, h⟩

/-- **A node apart from `N` declares none of its names.** -/
theorem infer_left (h : σ.Agree N σ') (views : EntityViews) (options : CheckOptions)
    (apart : node.Apart N) : (GovernedQuantum.infer views options σ node).symbols.Agree N σ' := by
  rw [symbols_infer]
  obtain ⟨opcode, location, text, metadata⟩ := node
  cases metadata with
  | resource name dimension partners =>
    simp only
    split
    · exact h
    · refine ⟨fun r hr => ?_, h.entities, h.values⟩
      have hn : r ≠ name := fun hn => apart _ List.mem_cons_self (hn ▸ hr)
      rw [List.contains_cons, beq_false_of_ne hn, Bool.false_or, h.resources r hr]
  | entity name explainability oversight criticality =>
    simp only
    split
    · exact h
    · refine ⟨h.resources, fun e he => ?_, h.values⟩
      have hn : e ≠ name := fun hn => apart _ List.mem_cons_self (hn ▸ he)
      rw [List.contains_cons, beq_false_of_ne hn, Bool.false_or, h.entities e he]
  | literal name value =>
    refine ⟨h.resources, h.entities, fun v hv => ?_⟩
    have hn : name ≠ v := fun hn => apart _ List.mem_cons_self (hn ▸ hv)
    rw [Table.find?_insert, if_neg hn, h.values v hv]
  | operation | modifier | governed | decision | reference | directive => exact h

end Symbols.Agree

/-! ## Judging by names -/

/-- What is known of the qudits of `N` is the same. -/
def FactTable.Agree (N : Mention → Prop) (facts facts' : FactTable) : Prop :=
  ∀ r, N (.resource r) → facts.find? r = facts'.find? r

namespace FactTable.Agree

variable {facts facts' : FactTable}

/-- The effect of a node on a qudit depends on that qudit. -/
theorem apply (h : facts.Agree N facts') (node : Node) :
    (facts.apply node).Agree N (facts'.apply node) := by
  obtain ⟨opcode, location, text, metadata⟩ := node
  cases metadata with
  | resource name dimension partners =>
    intro r hr
    simp only [FactTable.apply, Table.find?_insert, h r hr]
  | operation operands gate remote consuming =>
    simp only [FactTable.apply]
    induction operands generalizing facts facts' with
    | nil => exact h
    | cons o rest ih =>
      refine ih fun r hr => ?_
      rw [Table.find?_modify, Table.find?_modify, h r hr]
  | entity | modifier | governed | decision | literal | reference | directive => exact h

/-- A node has an effect on the qudits that it mentions. -/
theorem apply_left (h : facts.Agree N facts') (apart : node.Apart N) :
    (facts.apply node).Agree N facts' := by
  obtain ⟨opcode, location, text, metadata⟩ := node
  cases metadata with
  | resource name dimension partners =>
    intro r hr
    have hn : name ≠ r := fun hn => apart _ List.mem_cons_self (hn ▸ hr)
    simp only [FactTable.apply, Table.find?_insert, if_neg hn, h r hr]
  | operation operands gate remote consuming =>
    replace apart : ∀ o ∈ operands, ¬ N (.resource o) :=
      fun o ho => apart _ (List.mem_map_of_mem ho)
    simp only [FactTable.apply]
    induction operands generalizing facts with
    | nil => exact h
    | cons o rest ih =>
      obtain ⟨first, others⟩ := List.forall_mem_cons.1 apart
      refine ih (fun r hr => ?_) others
      have hn : r ≠ o := fun hn => first (hn ▸ hr)
      rw [Table.find?_modify, if_neg hn, h r hr]
  | entity | modifier | governed | decision | literal | reference | directive => exact h

end FactTable.Agree

/-- The questions about the names of `N` have the same answers. -/
structure Context.Agree (N : Mention → Prop) (ctx ctx' : Context) : Prop where
  consumedCount : ∀ r, N (.resource r) → ctx.consumedCount r = ctx'.consumedCount r
  isTracked : ∀ r, N (.resource r) → ctx.isTracked r = ctx'.isTracked r
  isCoherent : ∀ r, N (.resource r) → ctx.isCoherent r = ctx'.isCoherent r
  wasEntangled : ∀ r, N (.resource r) → ctx.wasEntangled r = ctx'.wasEntangled r
  entity : ∀ e, N (.entity e) → ctx.entity e = ctx'.entity e

theorem FactTable.Agree.context {facts facts' : FactTable} (h : facts.Agree N facts')
    {views views' : EntityViews} (hv : views.Agree N views') (budget : Nat) :
    (facts.context views budget).Agree N (facts'.context views' budget) where
  consumedCount r hr := by simp only [FactTable.context, h r hr]
  isTracked r hr := by simp only [FactTable.context, Table.contains, h r hr]
  isCoherent r hr := by simp only [FactTable.context, h r hr]
  wasEntangled r hr := by simp only [FactTable.context, h r hr]
  entity := hv

theorem Context.Agree.violation? {ctx ctx' : Context} (h : ctx.Agree N ctx') {kind : ConstraintKind}
    (within : ∀ m ∈ kind.mentions, N m) :
    Constraint.violation? ctx kind = Constraint.violation? ctx' kind := by
  cases kind with
  | noCloning r scope =>
    have count := h.consumedCount r (within _ List.mem_cons_self)
    cases scope <;> simp only [Constraint.violation?, count]
  | memorySafety r => simp only [Constraint.violation?, h.isTracked r (within _ List.mem_cons_self)]
  | entanglementConsistency r partners =>
    have found : (partners.find? fun p => !ctx.wasEntangled p) =
        partners.find? fun p => !ctx'.wasEntangled p :=
      List.find?_congr fun p hp => by
        rw [h.wasEntangled p (within _ (List.mem_map_of_mem (List.mem_cons_of_mem r hp)))]
    simp only [Constraint.violation?, found]
  | coherencePreservation r =>
    simp only [Constraint.violation?, h.isCoherent r (within _ List.mem_cons_self)]
  | explainability e | compliance e | humanOversight e | humanApproval e =>
    simp only [Constraint.violation?, Constraint.onEntity, h.entity e (within _ List.mem_cons_self)]

/-- The same qudits of `N` are known to be reused. -/
def Findings.Agree (N : Mention → Prop) (f f' : Findings) : Prop :=
  ∀ r, N (.resource r) → (r ∈ f.reused ↔ r ∈ f'.reused)

/-- **The same is found** on the way from `f` to `g` as from `f'` to `g'`, and the ends agree. -/
structure Findings.Alike (N : Mention → Prop) (f f' g g' : Findings) : Prop where
  found : ∃ found, g.diagnostics.toList = f.diagnostics.toList ++ found ∧
    g'.diagnostics.toList = f'.diagnostics.toList ++ found
  agree : g.Agree N g'

namespace Findings

variable {f f' g g' k k' : Findings} {ctx ctx' : Context} {c : Constraint} {cs : List Constraint}

theorem Agree.alike (h : f.Agree N f') : Alike N f f' f f' :=
  ⟨⟨[], (List.append_nil _).symm, (List.append_nil _).symm⟩, h⟩

theorem Alike.trans (h : Alike N f f' g g') (h' : Alike N g g' k k') : Alike N f f' k k' := by
  obtain ⟨first, hg, hg'⟩ := h.found
  obtain ⟨second, hk, hk'⟩ := h'.found
  refine ⟨⟨first ++ second, ?_, ?_⟩, h'.agree⟩
  · rw [hk, hg, List.append_assoc]
  · rw [hk', hg', List.append_assoc]

/-- Whether a reuse was reported before depends on the qudit. -/
theorem Agree.covers (h : f.Agree N f') {kind : ConstraintKind}
    (within : ∀ m ∈ kind.mentions, N m) :
    f.covers kind = f'.covers kind := by
  unfold Findings.covers
  split
  · rename_i r
    rw [Bool.eq_iff_iff, List.contains_iff_mem, List.contains_iff_mem]
    exact h r (within _ List.mem_cons_self)
  · rfl

theorem Agree.note (h : f.Agree N f') (kind : ConstraintKind) (ds ds' : Array Diagnostic) :
    Agree N ⟨ds, f.note kind⟩ ⟨ds', f'.note kind⟩ := by
  intro r hr
  unfold Findings.note
  split
  · rw [List.mem_cons, List.mem_cons, h r hr]
  · exact h r hr

/-- **A constraint on names of `N` is judged by these names.** -/
theorem Agree.judge (h : f.Agree N f') (hctx : ctx.Agree N ctx') (l : Location)
    (within : ∀ m ∈ c.kind.mentions, N m) : Alike N f f' (f.judge ctx l c) (f'.judge ctx' l c) := by
  have same : c.finding? ctx l = c.finding? ctx' l := by
    rw [Constraint.finding?, Constraint.finding?, Constraint.evaluate, Constraint.evaluate,
      hctx.violation? within]
  simp only [Findings.judge, h.covers within, same]
  split
  · exact h.alike
  · split
    · exact h.alike
    · rename_i d _
      exact ⟨⟨[d], Array.toList_push, Array.toList_push⟩, h.note c.kind _ _⟩

/-- A constraint on other names notes no reuse of a qudit of `N`. -/
theorem Agree.judge_left (h : f.Agree N f') (l : Location) (apart : ∀ m ∈ c.kind.mentions, ¬ N m) :
    (f.judge ctx l c).Agree N f' := by
  unfold Findings.judge
  split
  · exact h
  · split
    · exact h
    · intro r hr
      show r ∈ f.note c.kind ↔ _
      unfold Findings.note
      split
      · rename_i o kind
        have hn : r ≠ o := fun hn => apart _ (by rw [kind]; exact List.mem_cons_self) (hn ▸ hr)
        rw [List.mem_cons, or_iff_right hn, h r hr]
      · exact h r hr

theorem Agree.foldl_judge (h : f.Agree N f') (hctx : ctx.Agree N ctx') (l : Location)
    (within : ∀ c ∈ cs, ∀ m ∈ c.kind.mentions, N m) :
    Alike N f f' (cs.foldl (Findings.judge ctx l) f) (cs.foldl (Findings.judge ctx' l) f') := by
  induction cs generalizing f f' with
  | nil => exact h.alike
  | cons c rest ih =>
    obtain ⟨first, others⟩ := List.forall_mem_cons.1 within
    have one := h.judge hctx l first
    exact one.trans (ih one.agree others)

theorem Agree.foldl_judge_left (h : f.Agree N f') (l : Location)
    (apart : ∀ c ∈ cs, ∀ m ∈ c.kind.mentions, ¬ N m) :
    (cs.foldl (Findings.judge ctx l) f).Agree N f' := by
  induction cs generalizing f with
  | nil => exact h
  | cons c rest ih =>
    obtain ⟨first, others⟩ := List.forall_mem_cons.1 apart
    exact ih (h.judge_left l first) others

theorem Agree.judgeAll (h : f.Agree N f') (hctx : ctx.Agree N ctx') (node : Node)
    {type : InferredType} (within : ∀ c ∈ type.constraints, ∀ m ∈ c.kind.mentions, N m)
    (phase : Phase) :
    Alike N f f' (f.judgeAll ctx node type phase) (f'.judgeAll ctx' node type phase) :=
  h.foldl_judge hctx node.location fun c hc => within c (List.mem_filter.1 hc).1

theorem Agree.judgeAll_left (h : f.Agree N f') (ctx : Context) (node : Node) {type : InferredType}
    (elsewhere : ∀ c ∈ type.constraints, ∀ m ∈ c.kind.mentions, ¬ N m) (phase : Phase) :
    (f.judgeAll ctx node type phase).Agree N f' :=
  h.foldl_judge_left node.location fun c hc => elsewhere c (List.mem_filter.1 hc).1

end Findings

/-- What is known of the qudits of `N` and of their reuse is the same. -/
structure Replay.Agree (N : Mention → Prop) (r r' : Replay) : Prop where
  facts : r.facts.Agree N r'.facts
  findings : r.findings.Agree N r'.findings

namespace Replay.Agree

variable {r r' : Replay} {views views' : EntityViews} {type : InferredType}

/-- **A node within `N` is replayed by the names of `N`.** -/
theorem step (h : r.Agree N r') (hv : views.Agree N views') (budget : Nat) (node : Node)
    (within : ∀ c ∈ type.constraints, ∀ m ∈ c.kind.mentions, N m) :
    (r.step views budget (node, type)).Agree N (r'.step views' budget (node, type)) ∧
      Findings.Alike N r.findings r'.findings (r.step views budget (node, type)).findings
        (r'.step views' budget (node, type)).findings := by
  simp only [Replay.step]
  split
  · exact ⟨h, h.findings.alike⟩
  · have before := h.findings.judgeAll (h.facts.context hv budget) node within .pre
    have facts := h.facts.apply node
    have after := before.agree.judgeAll (facts.context hv budget) node within .post
    exact ⟨⟨facts, after.agree⟩, before.trans after⟩

/-- A node apart from `N` is replayed without a trace in `N`. -/
theorem step_left (h : r.Agree N r') (views : EntityViews) (budget : Nat) (apart : node.Apart N)
    (elsewhere : ∀ c ∈ type.constraints, ∀ m ∈ c.kind.mentions, ¬ N m) :
    (r.step views budget (node, type)).Agree N r' := by
  simp only [Replay.step]
  split
  · exact h
  · have before := h.findings.judgeAll_left (r.facts.context views budget) node elsewhere .pre
    exact ⟨h.facts.apply_left apart, before.judgeAll_left _ node elsewhere .post⟩

end Replay.Agree

end

/-! ## Interleavings -/

/-- **Two lists merged into one**: every element comes with the side that it is taken from. -/
abbrev Interleaving (α : Type) := List (Bool × α)

namespace Interleaving

variable {α β : Type} (l : Interleaving α)

/-- The list that the two are merged into. -/
def merged : List α := l.map Prod.snd

/-- The elements of one side, in their order. -/
def side (s : Bool) : List α := (l.filter fun x => x.1 = s).map Prod.snd

/-- Other elements in the places of the merged list. -/
def relabel (bs : List β) : Interleaving β := (l.map Prod.fst).zip bs

theorem merged_concat (s : Bool) (a : α) : merged (l ++ [(s, a)]) = l.merged ++ [a] :=
  List.map_append

theorem side_concat (s : Bool) (a : α) : side (l ++ [(s, a)]) s = l.side s ++ [a] := by simp [side]

theorem side_concat_ne {s t : Bool} (h : s ≠ t) (a : α) : side (l ++ [(s, a)]) t = l.side t := by
  simp [side, h]

theorem side_map (g : α → β) (s : Bool) : side (l.map (Prod.map id g)) s = (l.side s).map g := by
  simp only [side, List.filter_map, List.map_map]
  rfl

theorem mem_side {s : Bool} {a : α} : a ∈ l.side s ↔ (s, a) ∈ l := by simp [side]

/-- **What a step keeps, a run keeps.** Every element does the same on its side as in the merged
list, and is not noticed on the other; so each side ends as it would without the other, and what is
seen in the merged list is what is seen on the two sides. -/
theorem foldl_sides {S δ : Type} {f : S → α → S} {g : Bool → S → α → S} (seen : S → List δ)
    {R : Bool → S → S → Prop} {c : S} {p : Bool → S}
    (own : ∀ s a, (s, a) ∈ l → ∀ c p, R s c p → R s (f c a) (g s p a) ∧
      ∃ found, seen (f c a) = seen c ++ found ∧ seen (g s p a) = seen p ++ found)
    (other : ∀ s a, (s, a) ∈ l → ∀ c p, R (!s) c p → R (!s) (f c a) p)
    (agree : ∀ s, R s c (p s)) (perm : (seen c).Perm (seen (p true) ++ seen (p false))) :
    (∀ s, R s (l.merged.foldl f c) ((l.side s).foldl (g s) (p s))) ∧
      (seen (l.merged.foldl f c)).Perm
        (seen ((l.side true).foldl (g true) (p true)) ++
          seen ((l.side false).foldl (g false) (p false))) := by
  induction l using List.reverseRecOn with
  | nil => exact ⟨agree, perm⟩
  | append_singleton l x ih =>
    obtain ⟨s, a⟩ := x
    have here : (s, a) ∈ l ++ [(s, a)] := List.mem_append_right l (List.mem_singleton_self _)
    obtain ⟨agree, perm⟩ := ih (fun s a ha => own s a (List.mem_append_left _ ha))
      fun s a ha => other s a (List.mem_append_left _ ha)
    obtain ⟨same, found, seenC, seenP⟩ := own s a here _ _ (agree s)
    have unnoticed := other s a here _ _ (agree (!s))
    have last (k : S → α → S) (q : S) (as : List α) :
        (as ++ [a]).foldl k q = k (as.foldl k q) a := by
      rw [List.foldl_append]
      rfl
    have perm := perm.append_right found
    rw [merged_concat, last, seenC]
    cases s with
    | true =>
      have idle := side_concat_ne l (Ne.symm Bool.false_ne_true) a
      rw [side_concat, idle, last, seenP]
      refine ⟨fun t => ?_, perm.trans ?_⟩
      · cases t with
        | true => rw [side_concat, last]; exact same
        | false => rw [idle]; exact unnoticed
      · rw [List.append_assoc, List.append_assoc]
        exact List.perm_append_comm.append_left _
    | false =>
      have idle := side_concat_ne l Bool.false_ne_true a
      rw [side_concat, idle, last, seenP, ← List.append_assoc]
      refine ⟨fun t => ?_, perm⟩
      cases t with
      | true => rw [idle]; exact unnoticed
      | false => rw [side_concat, last]; exact same

end Interleaving

/-! ## The three passes -/

/-- The nodes of each side mention names of their own. -/
structure Separated (own : Bool → Mention → Prop) (l : Interleaving Node) : Prop where
  within : ∀ s node, (s, node) ∈ l → node.Within (own s)
  apart : ∀ s node, (s, node) ∈ l → node.Apart (own (!s))

section

variable {own : Bool → Mention → Prop} {l : Interleaving Node} {views : EntityViews}
  {viewsOf : Bool → EntityViews}

theorem Separated.of_concat {s : Bool} {node : Node} (h : Separated own (l ++ [(s, node)])) :
    Separated own l :=
  ⟨fun s node hn => h.within s node (List.mem_append_left _ hn),
    fun s node hn => h.apart s node (List.mem_append_left _ hn)⟩

/-- Each side ends with its own entities. -/
theorem Separated.foldEntities (h : Separated own l) (s : Bool) :
    (foldEntities l.merged).Agree (own s) (foldEntities (l.side s)) :=
  (l.foldl_sides (fun _ => ([] : List Diagnostic)) (R := fun s c p => EntityViews.Agree (own s) c p)
    (fun _ node _ _ _ agree => ⟨agree.step node, [], rfl, rfl⟩)
    (fun s node hn _ _ agree => agree.step_left (h.apart s node hn))
    (fun _ _ _ => rfl) (.refl _)).1 s

/-- Each side declares its own names, and finds what it finds alone. -/
theorem Separated.inferAll (h : Separated own l) (hv : ∀ s, views.Agree (own s) (viewsOf s))
    (options : CheckOptions) :
    (∀ s, (inferAll views options l.merged).symbols.Agree (own s)
      (inferAll (viewsOf s) options (l.side s)).symbols) ∧
    (inferAll views options l.merged).findings.toList.Perm
      ((inferAll (viewsOf true) options (l.side true)).findings.toList ++
        (inferAll (viewsOf false) options (l.side false)).findings.toList) := by
  refine l.foldl_sides (fun c : Inference => c.findings.toList)
    (g := fun s => Inference.step (viewsOf s) options)
    (R := fun s c p => c.symbols.Agree (own s) p.symbols) ?_ ?_ (fun s => .refl _) (.refl _)
  · intro s node hn c p agree
    have alike := agree.infer (hv s) options (h.within s node hn)
    refine ⟨alike.symbols, (infer views options c.symbols node).findings, ?_, ?_⟩
    · exact Array.toList_appendList
    · rw [alike.findings]
      exact Array.toList_appendList
  · intro s node hn c p agree
    exact agree.infer_left views options (h.apart s node hn)

/-- Typed nodes on two sides: constraints are on names of the node. -/
def Constrained (t : Interleaving (Node × InferredType)) : Prop :=
  ∀ s node type, (s, node, type) ∈ t →
    ∀ c ∈ type.constraints, ∀ m ∈ c.kind.mentions, m ∈ node.mentions

/-- **Each node is typed as on its own side.** -/
theorem Separated.exists_typed (h : Separated own l) (hv : ∀ s, views.Agree (own s) (viewsOf s))
    (options : CheckOptions) :
    ∃ t : Interleaving (Node × InferredType), t.map (Prod.map id Prod.fst) = l ∧
      t.merged = annotated views options l.merged ∧
      (∀ s, t.side s = annotated (viewsOf s) options (l.side s)) ∧ Constrained t := by
  induction l using List.reverseRecOn with
  | nil => exact ⟨[], rfl, rfl, fun s => rfl, fun _ _ _ hn => absurd hn List.not_mem_nil⟩
  | append_singleton l x ih =>
    obtain ⟨s, node⟩ := x
    obtain ⟨t, nodes, merged, sides, constrained⟩ := ih h.of_concat
    have agree := (h.of_concat.inferAll hv options).1 s
    have here : (s, node) ∈ l ++ [(s, node)] := List.mem_append_right l (List.mem_singleton_self _)
    have type : typeAfter views options (Interleaving.merged l) node =
        typeAfter (viewsOf s) options (Interleaving.side l s) node :=
      (agree.infer (hv s) options (h.within s node here)).type
    refine ⟨t ++ [(s, node, typeAfter views options (Interleaving.merged l) node)], ?_,
      ?_, fun s' => ?_, ?_⟩
    · rw [List.map_append, nodes]
      rfl
    · rw [Interleaving.merged_concat, Interleaving.merged_concat, annotated_concat, merged]
    · by_cases hs : s' = s
      · subst hs
        rw [Interleaving.side_concat, Interleaving.side_concat, annotated_concat, sides, type]
      · rw [Interleaving.side_concat_ne _ (Ne.symm hs),
          Interleaving.side_concat_ne _ (Ne.symm hs), sides]
    · intro s' node' type' hn
      rcases List.mem_append.1 hn with hn | hn
      · exact constrained s' node' type' hn
      · obtain ⟨rfl, rfl, rfl⟩ : s' = s ∧ node' = node ∧ type' = _ := by
          simpa using List.mem_singleton.1 hn
        exact fun c hc => mentions_of_mem_constraints views options _ node' hc

/-- What the replay finds is what it finds on the two sides. -/
theorem Separated.replay {t : Interleaving (Node × InferredType)}
    (h : Separated own (t.map (Prod.map id Prod.fst))) (constrained : Constrained t)
    (hv : ∀ s, views.Agree (own s) (viewsOf s)) (budget : Nat) :
    (replay views budget t.merged).diagnostics.toList.Perm
      ((replay (viewsOf true) budget (t.side true)).diagnostics.toList ++
        (replay (viewsOf false) budget (t.side false)).diagnostics.toList) := by
  have node {s : Bool} {node : Node} {type : InferredType} (hn : (s, node, type) ∈ t) :
      (s, node) ∈ t.map (Prod.map id Prod.fst) := List.mem_map_of_mem hn
  have within {s : Bool} {n : Node} {type : InferredType} (hn : (s, n, type) ∈ t) :
      ∀ c ∈ type.constraints, ∀ m ∈ c.kind.mentions, own s m :=
    fun c hc m hm => h.within s n (node hn) m (constrained s n type hn c hc m hm)
  have elsewhere {s : Bool} {n : Node} {type : InferredType} (hn : (s, n, type) ∈ t) :
      ∀ c ∈ type.constraints, ∀ m ∈ c.kind.mentions, ¬ own (!s) m :=
    fun c hc m hm => h.apart s n (node hn) m (constrained s n type hn c hc m hm)
  obtain ⟨agree, perm⟩ := t.foldl_sides (fun r : Replay => r.findings.diagnostics.toList)
    (f := Replay.step views budget) (g := fun s => Replay.step (viewsOf s) budget)
    (R := fun s c p => c.Agree (own s) p) (c := {}) (p := fun _ => {})
    (fun s x hn _ _ agree =>
      have ⟨agree, alike⟩ := agree.step (hv s) budget x.1 (within hn)
      ⟨agree, alike.found⟩)
    (fun s x hn _ _ agree => agree.step_left views budget (h.apart s x.1 (node hn)) (elsewhere hn))
    (fun s => ⟨fun _ _ => rfl, fun _ _ => Iff.rfl⟩) (.refl _)
  -- the last pass goes through the nodes again, from where the first one has ended
  let judge (v : EntityViews) (r : Replay) (f : Findings) (x : Node × InferredType) : Findings :=
    f.judgeAll (r.facts.context v budget) x.1 x.2 .final
  refine (t.foldl_sides (fun f : Findings => f.diagnostics.toList)
    (f := judge views (t.merged.foldl (Replay.step views budget) {}))
    (g := fun s => judge (viewsOf s) ((t.side s).foldl (Replay.step (viewsOf s) budget) {}))
    (R := fun s c p => c.Agree (own s) p) ?_ ?_ (fun s => (agree s).findings) perm).2
  · intro s x hn c p same
    have alike := same.judgeAll ((agree s).facts.context (hv s) budget) x.1 (within hn) .final
    exact ⟨alike.agree, alike.found⟩
  · intro s x hn c p same
    exact same.judgeAll_left _ x.1 (elsewhere hn) .final

end

/-! ## Whole programs -/

/-- All that a check finds, in the order of discovery. -/
def foundIn (nodes : List Node) (options : CheckOptions) : List Diagnostic :=
  let views := foldEntities nodes
  (inferAll views options nodes).findings.toList ++
    (replay views options.maxCoherentOperations (annotated views options nodes)).diagnostics.toList

theorem errors_check (nodes : List Node) (options : CheckOptions) :
    (check nodes options).diagnostics.errors.toList =
      (foundIn nodes options).filter fun d => d.severity = .error := by
  simp only [check, foundIn, Diagnostics.errors_pushAll, List.filter_append]
  rfl

theorem warnings_check (nodes : List Node) (options : CheckOptions) :
    (check nodes options).diagnostics.warnings.toList =
      (foundIn nodes options).filter fun d => d.severity = .warning := by
  simp only [check, foundIn, Diagnostics.warnings_pushAll, List.filter_append]
  rfl

theorem types_check (nodes : List Node) (options : CheckOptions) :
    (check nodes options).types = (annotated (foldEntities nodes) options nodes).map Prod.snd :=
  (List.map_snd_zip (Nat.le_of_eq (length_types _ options nodes))).symm

/-- **Checking is compositional over disjoint names.** Where the two sides of an interleaving
mention no common qudit, entity or variable, every node has the type that it has on its own side,
and the errors and the warnings are those of the two sides: no violation hides another, and none is
made by merging. -/
theorem check_interleaved {l : Interleaving Node}
    (disjoint : ∀ a ∈ l.side true, ∀ b ∈ l.side false, ∀ m ∈ a.mentions, m ∉ b.mentions)
    (options : CheckOptions) :
    (∀ s, (l.relabel (check l.merged options).types).side s = (check (l.side s) options).types) ∧
      (check l.merged options).diagnostics.errors.toList.Perm
        ((check (l.side true) options).diagnostics.errors.toList ++
          (check (l.side false) options).diagnostics.errors.toList) ∧
      (check l.merged options).diagnostics.warnings.toList.Perm
        ((check (l.side true) options).diagnostics.warnings.toList ++
          (check (l.side false) options).diagnostics.warnings.toList) := by
  have separated : Separated (fun s m => ∃ node ∈ l.side s, m ∈ node.mentions) l := by
    refine ⟨fun s node hn m hm => ⟨node, l.mem_side.2 hn, hm⟩, ?_⟩
    rintro s node hn m hm ⟨node', hn', hm'⟩
    cases s with
    | true => exact disjoint node (l.mem_side.2 hn) node' hn' m hm hm'
    | false => exact disjoint node' hn' node (l.mem_side.2 hn) m hm' hm
  have views := separated.foldEntities
  obtain ⟨-, inferred⟩ := separated.inferAll views options
  obtain ⟨t, nodes, merged, sides, constrained⟩ := separated.exists_typed views options
  have replayed :=
    Separated.replay (nodes.symm ▸ separated) constrained views options.maxCoherentOperations
  rw [merged, sides, sides] at replayed
  have found : (foundIn l.merged options).Perm
      (foundIn (l.side true) options ++ foundIn (l.side false) options) := by
    refine (inferred.append replayed).trans (List.perm_iff_count.2 fun d => ?_)
    simp only [foundIn, List.count_append]
    omega
  refine ⟨fun s => ?_, ?_, ?_⟩
  · have tags : l.map Prod.fst = t.map Prod.fst := by
      rw [← nodes, List.map_map]
      rfl
    have types : l.relabel (check l.merged options).types = t.map (Prod.map id Prod.snd) := by
      rw [Interleaving.relabel, tags, types_check, ← merged, Interleaving.merged, List.map_map]
      exact List.zip_map'
    rw [types, Interleaving.side_map, sides, types_check]
  · rw [errors_check, errors_check, errors_check, ← List.filter_append]
    exact found.filter _
  · rw [warnings_check, warnings_check, warnings_check, ← List.filter_append]
    exact found.filter _

/-- A qudit that is measured twice, among statements on an entity that is deployed without
oversight, and on a qudit that nobody declared. -/
def mixture : Interleaving Node :=
  [(true, ⟨.allocQudit, ⟨1, 1⟩, "alloc q 2", .resource "q" (some 2) []⟩),
    (false,
      ⟨.declareContract, ⟨2, 1⟩, "contract bot", .entity "bot" defaultScore .notification .medium⟩),
    (true, ⟨.measure, ⟨3, 1⟩, "measure q", .operation ["q"] none none true⟩),
    (false, ⟨.setCriticality, ⟨4, 1⟩, "classify bot safety",
      .modifier "bot" (.criticality (some .safety))⟩),
    (false, ⟨.release, ⟨5, 1⟩, "release p", .operation ["p"] none none true⟩),
    (true, ⟨.measure, ⟨6, 1⟩, "measure q", .operation ["q"] none none true⟩),
    (false, ⟨.deploy, ⟨7, 1⟩, "deploy bot staging", .governed "bot" (.deploy "staging")⟩)]

theorem check_interleaved_mixture :
    (∀ a ∈ mixture.side true, ∀ b ∈ mixture.side false, ∀ m ∈ a.mentions, m ∉ b.mentions) ∧
      (check (mixture.side true) {}).diagnostics.errors.size = 1 ∧
      (check (mixture.side false) {}).diagnostics.errors.size = 3 ∧
      (check mixture.merged {}).diagnostics.errors.toList.Perm
        ((check (mixture.side true) {}).diagnostics.errors.toList ++
          (check (mixture.side false) {}).diagnostics.errors.toList) := by
  have disjoint :
      ∀ a ∈ mixture.side true, ∀ b ∈ mixture.side false, ∀ m ∈ a.mentions, m ∉ b.mentions := by
    decide
  exact ⟨disjoint, by decide +kernel, by decide +kernel, (check_interleaved disjoint {}).2.1⟩

end GovernedQuantum
