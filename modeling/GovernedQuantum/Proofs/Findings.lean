import GovernedQuantum.Proofs.Acceptance
import GovernedQuantum.Proofs.Backing

/-!
# Findings that checking prevents

A checked program is spared some findings and not others: no checker knows how long a qudit stays
coherent, what a coordinator refuses or how a human decides. This file draws the line, and shows on
which side of it the constraints of an instruction fall.

* `Prevented`: findings on names, literals and double use, as a run would report them.
* `Permitted`: what may be reported all the same.
* `Permitted.not_prevented`: **the two have no finding in common**, whatever the names in its text.
* `Owes.permitted`: what an instruction owes draws permitted findings only, where its names are
  answered for.
-/

namespace GovernedQuantum

/-- **Findings that a checked program never draws.** -/
inductive Prevented : Diagnostic → Prop
  | fault {f : Fault} (static : f.isStatic = true) (l : Location) : Prevented (f.diagnostic l)
  | noCloning {r : String} {scope : UsageScope} {ctx : Context} {l : Location} {d : Diagnostic}
      (found : (Constraint.noCloning r scope).finding? ctx l = some d) : Prevented d
  | memorySafety {r : String} {phase : Phase} {ctx : Context} {l : Location} {d : Diagnostic}
      (found : (Constraint.memorySafety r phase).finding? ctx l = some d) : Prevented d
  | undeclared (e : String) (l : Location) (required : Bool) :
      Prevented ((Constraint.undeclared e).diagnostic l required)

/-- Findings that are left to a run. -/
inductive Permitted : Diagnostic → Prop
  | warning {d : Diagnostic} (severity : d.severity = .warning) (category : d.category ≠ .typing) :
      Permitted d
  | safety {d : Diagnostic} (category : d.category = .aiSafety) : Permitted d
  | fault {f : Fault} (dynamic : f.isStatic = false) (l : Location) : Permitted (f.diagnostic l)
  | refusal (e : ReviewError) (l : Location) :
      Permitted { severity := .error, category := .execution, location := l, message := e.message }

/-! ## How texts begin -/

/-- The text `s` begins with `p`. -/
def Opens (p s : String) : Prop := p.toList <+: s.toList

instance (p s : String) : Decidable (Opens p s) := inferInstanceAs (Decidable (_ <+: _))

theorem Opens.append {p s : String} (h : Opens p s) (more : String) : Opens p (s ++ more) := by
  rw [Opens, String.toList_append]
  exact h.trans (List.prefix_append _ _)

/-- How prevented findings of a category begin. -/
def Category.preventedOpenings : Category → List String
  | .quantumViolation => ["no resource", "resource '", "a resource", "cannot"]
  | .execution => ["invalid ", "no AI entity", "AI entity", "variable"]
  | .typing => ["entity"]
  | _ => []

/-- How permitted errors of a category begin, where that is known. -/
def Category.permittedOpenings : Category → List String
  | .quantumViolation => ["resources", "entanglement"]
  | .execution =>
    ["resource", "window", "delegation", "execution", "unknown", "oversight", "session"]
  | _ => []

theorem Category.openings_apart (c : Category) :
    ∀ p ∈ c.preventedOpenings, ∀ q ∈ c.permittedOpenings, ¬ Opens p q ∧ ¬ Opens q p := by
  cases c <;> decide +kernel

/-- How the text of a fault begins. -/
def Fault.opening : Fault → String
  | unknownHandle .. => "no resource"
  | consumedHandle .. => "resource '"
  | alreadyBound .. => "a resource"
  | decoherent .. => "resource"
  | invalidDimension .. | invalidScore .. | invalidLevel .. | invalidDeadline .. => "invalid "
  | selfEntanglement .. => "cannot"
  | alreadyEntangled .. | notEntangled .. => "resources"
  | unknownEntity .. => "no AI entity"
  | entityExists .. => "AI entity"
  | unboundVariable .. => "variable"
  | invertedWindow .. => "window"
  | delegationRefused .. => "delegation"
  | stepLimit .. => "execution"
  | inconsistentGroup .. => "entanglement"
  | verificationFailed .. | oversightRejected .. | malformedBytecode .. | notText ..
  | decoheredLeak .. => ""

theorem Fault.opens_message (f : Fault) : Opens f.opening f.message := by
  cases f with
  | verificationFailed | oversightRejected | malformedBytecode | notText | decoheredLeak =>
    exact List.nil_prefix
  | _ =>
    unfold message opening
    simp only [String.append_assoc]
    exact Opens.append (by decide +kernel) _

theorem Fault.opening_of_isStatic {f : Fault} (h : f.isStatic = true) :
    f.severity = .error ∧ f.opening ∈ f.category.preventedOpenings := by
  cases f <;> simp [isStatic, severity, category, opening, Category.preventedOpenings] at h ⊢

theorem Fault.opening_of_dynamic {f : Fault} (h : f.isStatic = false) :
    f.category.preventedOpenings = [] ∨ f.opening ∈ f.category.permittedOpenings := by
  cases f <;> simp [isStatic, category, opening, Category.preventedOpenings,
    Category.permittedOpenings] at h ⊢

theorem ReviewError.opens_message (e : ReviewError) :
    ∃ p ∈ Category.execution.permittedOpenings, Opens p e.message := by
  cases e with
  | unknownRequest id =>
    refine ⟨"unknown", by decide +kernel, ?_⟩
    unfold message
    exact Opens.append (by decide +kernel) _
  | alreadyAnswered id =>
    refine ⟨"oversight", by decide +kernel, ?_⟩
    unfold message
    simp only [String.append_assoc]
    exact Opens.append (by decide +kernel) _
  | notSuspended => exact ⟨"session", by decide +kernel, by decide +kernel⟩

namespace Constraint

variable {r : String} {ctx : Context} {v : Violation}

@[simp] theorem required_noCloning (scope : UsageScope) : (noCloning r scope).required = true := by
  cases scope <;> rfl

theorem opens_noCloning {scope : UsageScope} (h : (noCloning r scope).evaluate ctx = some v) :
    ∃ p ∈ v.category.preventedOpenings, Opens p v.message := by
  cases scope with
  | program | operation =>
    unfold evaluate violation? noCloning at h
    dsimp only at h
    split at h
    · obtain rfl := Option.some.inj h
      refine ⟨"resource '", by simp [Category.preventedOpenings], ?_⟩
      simp only [String.append_assoc]
      exact Opens.append (by decide +kernel) _
    · exact absurd h (by simp)

theorem opens_memorySafety {phase : Phase} (h : (memorySafety r phase).evaluate ctx = some v) :
    ∃ p ∈ v.category.preventedOpenings, Opens p v.message := by
  unfold evaluate violation? memorySafety at h
  dsimp only at h
  split at h
  · exact absurd h (by simp)
  · obtain rfl := Option.some.inj h
    refine ⟨"resource '", by simp [Category.preventedOpenings], ?_⟩
    simp only [String.append_assoc]
    exact Opens.append (by decide +kernel) _

end Constraint

theorem Prevented.opens {d : Diagnostic} (h : Prevented d) :
    (d.severity = .error ∨ d.category = .typing) ∧
      ∃ p ∈ d.category.preventedOpenings, Opens p d.message := by
  cases h with
  | @fault f static l =>
    obtain ⟨severity, opening⟩ := Fault.opening_of_isStatic static
    exact ⟨.inl severity, f.opening, opening, f.opens_message⟩
  | noCloning found =>
    obtain ⟨v, hv, rfl⟩ := Option.map_eq_some_iff.1 found
    refine ⟨.inl ?_, Constraint.opens_noCloning hv⟩
    rw [Violation.diagnostic, Constraint.required_noCloning]
    rfl
  | memorySafety found =>
    obtain ⟨v, hv, rfl⟩ := Option.map_eq_some_iff.1 found
    exact ⟨.inl rfl, Constraint.opens_memorySafety hv⟩
  | undeclared e l required =>
    refine ⟨.inr rfl, "entity", List.mem_singleton_self _, ?_⟩
    unfold Violation.diagnostic Constraint.undeclared
    simp only [String.append_assoc]
    exact Opens.append (by decide +kernel) _

theorem Permitted.opens {d : Diagnostic} (h : Permitted d) :
    (d.severity = .warning ∧ d.category ≠ .typing) ∨ d.category.preventedOpenings = [] ∨
      ∃ q ∈ d.category.permittedOpenings, Opens q d.message := by
  cases h with
  | warning severity category => exact .inl ⟨severity, category⟩
  | safety category => exact .inr (.inl (by rw [category]; rfl))
  | refusal e l => exact .inr (.inr e.opens_message)
  | @fault f dynamic l =>
    exact .inr ((Fault.opening_of_dynamic dynamic).imp_right fun h => ⟨f.opening, h,
      f.opens_message⟩)

/-- **No permitted finding is a prevented one.** -/
theorem Permitted.not_prevented {d : Diagnostic} (permitted : Permitted d) : ¬ Prevented d := by
  intro prevented
  obtain ⟨severity, p, hp, opens⟩ := prevented.opens
  rcases permitted.opens with ⟨warning, category⟩ | none | ⟨q, hq, opens'⟩
  · rcases severity with error | typing
    · exact absurd (warning.symm.trans error) (by decide)
    · exact category typing
  · rw [none] at hp
    exact absurd hp (by simp)
  · -- of two openings of one text, the shorter opens the longer
    obtain ⟨hpq, hqp⟩ := d.category.openings_apart p hp q hq
    exact (List.prefix_or_prefix_of_prefix opens opens').elim hpq hqp

/-! ## What constraints find -/

/-- The entity that a constraint is about. -/
def ConstraintKind.entity? : ConstraintKind → Option String
  | .explainability e _ | .compliance e | .humanOversight e | .humanApproval e => some e
  | _ => none

/-- A constraint finds something of its own category, unless nobody declared the entity it is
about. -/
theorem Constraint.category_of_evaluate {c : Constraint} {ctx : Context} {v : Violation}
    (known : ∀ e ∈ c.kind.entity?, ∃ view, ctx.entity e = some view) (h : c.evaluate ctx = some v) :
    v.category = c.category := by
  obtain ⟨kind, phase, description, required⟩ := c
  unfold evaluate at h
  dsimp only [category] at h ⊢
  cases kind with
  | explainability e _ | compliance e | humanOversight e | humanApproval e =>
    obtain ⟨view, hv⟩ := known e rfl
    simp only [violation?, onEntity, hv, Option.ite_none_left_eq_some,
      Option.ite_none_right_eq_some, Option.some.injEq] at h
    rw [← h.2]
  | noCloning r scope =>
    cases scope <;>
    · simp only [violation?, Option.ite_none_right_eq_some, Option.some.injEq] at h
      rw [← h.2]
  | memorySafety r | coherencePreservation r =>
    simp only [violation?, Option.ite_none_left_eq_some, Option.some.injEq] at h
    rw [← h.2]
  | entanglementConsistency r partners =>
    simp only [violation?] at h
    split at h
    · exact absurd h (by simp)
    · rw [← Option.some.inj h]

/-- The names that an instruction owes something on are answered for in a phase. -/
def Instruction.Grounded (i : Instruction) (ctx : Context) : Phase → Prop
  | .pre =>
    (∀ r ∈ i.resources, ctx.isTracked r = true ∧ ctx.consumedCount r = 0) ∧
      ∀ e ∈ i.entity?, ∃ view, ctx.entity e = some view
  | .post =>
    (i.opcode = .allocQudit → ctx.isTracked (i.arg 0) = true) ∧
      (i.opcode = .declareContract → ∃ view, ctx.entity (i.arg 0) = some view)
  | .final => False

theorem permitted_of_safety {c : Constraint} {ctx : Context} {v : Violation} {e : String}
    (about : c.kind.entity? = some e) (known : ∃ view, ctx.entity e = some view)
    (h : c.evaluate ctx = some v) (l : Location) : Permitted (v.diagnostic l c.required) := by
  have category := Constraint.category_of_evaluate (fun e' he => by
    obtain rfl := Option.some.inj (about.symm.trans he)
    exact known) h
  refine .safety (category.trans ?_)
  unfold Constraint.category
  cases hk : c.kind <;> simp [hk, ConstraintKind.entity?] at about ⊢

/-- **What an instruction owes draws permitted findings only**, where its names are answered for. -/
theorem Owes.permitted {threshold : Binary64} {views : EntityViews} {partners : Partners}
    {i : Instruction} {c : Constraint} {ctx : Context} {v : Violation}
    (owes : Owes threshold views partners i c) (grounded : i.Grounded ctx c.phase)
    (h : c.evaluate ctx = some v) (l : Location) : Permitted (v.diagnostic l c.required) := by
  have silent (required : c.required = true) (upheld : c.Upheld ctx) : False :=
    absurd ((upheld required).symm.trans h) (by simp)
  cases owes with
  | total | entangled => exact grounded.elim
  | backed op => exact (silent rfl (Constraint.upheld_memorySafety.2 (grounded.1 op))).elim
  | tracked operand =>
    exact (silent rfl (Constraint.upheld_memorySafety.2 (grounded.1 _ operand).1)).elim
  | unused operand => exact (silent rfl (Constraint.upheld_unused.2 (grounded.1 _ operand).2)).elim
  | coherent operand =>
    have category := Constraint.category_of_evaluate (fun e he => absurd he (by
      simp [Constraint.coherencePreservation, ConstraintKind.entity?])) h
    exact .warning rfl fun typing => absurd (category.symm.trans typing) (by
      simp [Constraint.category, Constraint.coherencePreservation])
  | explainable op | compliant op | overseen op => exact permitted_of_safety rfl (grounded.2 op) h l
  | stillExplainable op | stillCompliant op =>
    refine permitted_of_safety rfl (grounded.2 (i.arg 0) ?_) h l
    rcases op with op | op <;> simp [Instruction.entity?, op]
  | stillOverseen op | approved op =>
    exact permitted_of_safety rfl (grounded.2 (i.arg 0) (by simp [Instruction.entity?, op])) h l

end GovernedQuantum
