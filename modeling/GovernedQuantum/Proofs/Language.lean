import GovernedQuantum.Limits
import GovernedQuantum.Node
import GovernedQuantum.Session.Governance
import Mathlib.Data.List.Infix
import Mathlib.Tactic.MkIffOfInductiveProp

/-!
# The language of well-formed programs

What a program must look like to be accepted, said of its instructions alone: no tables, no types,
no passes. The checker is measured against it, and so is what a session does with an accepted
program.

* `Instruction.Resolves before i`: every name and every literal of `i` means something behind the
  instructions `before`.
* `finalScore`, `finalOversight`, `finalCriticality`: the attributes of an entity once all of its
  modifiers have been applied, the last of each kind counting.
* `WellFormed`: the language.
-/

namespace GovernedQuantum

/-! ## What an instruction mentions -/

namespace Instruction

/-- The qudits an instruction works on, in argument order. -/
def resources (i : Instruction) : List String :=
  match i.opcode with
  | .entangle | .disentangle | .entanglementSwap => [i.arg 0, i.arg 1]
  | .applyGate => [i.arg 1]
  | .measure | .release | .entangleRemote | .teleport => [i.arg 0]
  | _ => []

/-- The entity that a modifier, a deployment, a verification or a decision is about. -/
def entity? (i : Instruction) : Option String :=
  match i.opcode with
  | .setExplainability | .setOversight | .setCriticality | .approve | .deploy | .verify | .decide =>
    some (i.arg 0)
  | _ => none

/-- The instruction works on a pair of qudits. -/
def isPaired (i : Instruction) : Bool :=
  match i.opcode with
  | .entangle | .disentangle | .entanglementSwap => true
  | _ => false

def Allocates (i : Instruction) (r : String) : Prop := i.opcode = .allocQudit ∧ i.arg 0 = r

def Declares (i : Instruction) (e : String) : Prop := i.opcode = .declareContract ∧ i.arg 0 = e

def Binds (i : Instruction) (x : String) : Prop := i.opcode = .bind ∧ i.arg 0 = x

def Approves (i : Instruction) (e : String) : Prop := i.opcode = .approve ∧ i.arg 0 = e

/-- The qudit is gone after the instruction: measured, released or teleported. -/
def Consumes (i : Instruction) (r : String) : Prop :=
  i.opcode.isConsuming = true ∧ r ∈ i.resources

instance (i : Instruction) (r : String) : Decidable (i.Allocates r) :=
  inferInstanceAs (Decidable (_ ∧ _))
instance (i : Instruction) (e : String) : Decidable (i.Declares e) :=
  inferInstanceAs (Decidable (_ ∧ _))
instance (i : Instruction) (x : String) : Decidable (i.Binds x) :=
  inferInstanceAs (Decidable (_ ∧ _))
instance (i : Instruction) (e : String) : Decidable (i.Approves e) :=
  inferInstanceAs (Decidable (_ ∧ _))
instance (i : Instruction) (r : String) : Decidable (i.Consumes r) :=
  inferInstanceAs (Decidable (_ ∧ _))

end Instruction

/-- Some instruction allocates the qudit. -/
def Allocated (is : List Instruction) (r : String) : Prop := ∃ i ∈ is, i.Allocates r

/-- Some instruction declares the entity. -/
def Declared (is : List Instruction) (e : String) : Prop := ∃ i ∈ is, i.Declares e

/-- Some instruction binds the variable. -/
def Bound (is : List Instruction) (x : String) : Prop := ∃ i ∈ is, i.Binds x

/-- Some instruction consumes the qudit. -/
def Consumed (is : List Instruction) (r : String) : Prop := ∃ i ∈ is, i.Consumes r

instance (is : List Instruction) (r : String) : Decidable (Allocated is r) :=
  inferInstanceAs (Decidable (∃ i ∈ is, _))
instance (is : List Instruction) (e : String) : Decidable (Declared is e) :=
  inferInstanceAs (Decidable (∃ i ∈ is, _))
instance (is : List Instruction) (x : String) : Decidable (Bound is x) :=
  inferInstanceAs (Decidable (∃ i ∈ is, _))
instance (is : List Instruction) (r : String) : Decidable (Consumed is r) :=
  inferInstanceAs (Decidable (∃ i ∈ is, _))

/-! ## Names and literals -/

/-- Every name and literal of an instruction means something behind the instructions `before`. -/
@[mk_iff]
structure Instruction.Resolves (before : List Instruction) (i : Instruction) : Prop where
  /-- No qudit is allocated twice. -/
  newResource : i.opcode = .allocQudit → ¬ Allocated before (i.arg 0)
  /-- No entity is declared twice. -/
  newEntity : i.opcode = .declareContract → ¬ Declared before (i.arg 0)
  /-- A dimension is a number of 32 bits, at least 2. -/
  dimension : i.opcode = .allocQudit →
    ∃ d, Number.unsigned? Number.maxWord32 (i.arg 1) = some d ∧ 2 ≤ d
  /-- Names are declared before they are used. -/
  allocated : ∀ r ∈ i.resources, Allocated before r
  declared : ∀ e ∈ i.entity?, Declared before e
  bound : i.opcode = .print → Bound before (i.arg 0)
  /-- The operands of a pair differ. -/
  distinct : i.isPaired = true → i.arg 0 ≠ i.arg 1
  /-- A score is a finite number from 0 to 1. -/
  score : i.opcode = .setExplainability →
    ∃ x, Number.real? (i.arg 1) = some x ∧ x.isFinite = true ∧ x.inUnit = true
  oversight : i.opcode = .setOversight → ∃ l, Oversight.parse (i.arg 1) = .ok l
  criticality : i.opcode = .setCriticality → ∃ l, Criticality.parse (i.arg 1) = .ok l
  /-- A deadline is a number of 64 bits. -/
  barrier : i.opcode = .barrier → ∃ ms, Number.unsigned? Number.maxWord64 (i.arg 1) = some ms
  window : i.opcode = .scheduleWindow →
    (∃ ms, Number.unsigned? Number.maxWord64 (i.arg 1) = some ms) ∧
      ∃ ms, Number.unsigned? Number.maxWord64 (i.arg 2) = some ms

/-- `P` holds of every instruction and of the instructions before it. -/
def Everywhere (P : List Instruction → Instruction → Prop) (is : List Instruction) : Prop :=
  ∀ before i, before ++ [i] <+: is → P before i

/-- Every instruction resolves behind those before it. -/
def Resolved (is : List Instruction) : Prop := Everywhere (fun before i => i.Resolves before) is

/-- No qudit is worked on once it has been consumed. -/
def Linear (is : List Instruction) : Prop :=
  Everywhere (fun before i => ∀ r ∈ i.resources, ¬ Consumed before r) is

/-! ## Entities with their modifiers folded in -/

/-- The second argument of the last instruction of a kind on an entity. -/
def lastSetting (op : Opcode) (is : List Instruction) (e : String) : Option String :=
  (is.reverse.find? fun i => decide (i.opcode = op ∧ i.arg 0 = e)).map (·.arg 1)

def finalScore (is : List Instruction) (e : String) : Binary64 :=
  ((lastSetting .setExplainability is e).bind score?).getD defaultScore

def finalOversight (is : List Instruction) (e : String) : Oversight :=
  ((lastSetting .setOversight is e).bind fun token => (Oversight.parse token).toOption).getD
    .notification

def finalCriticality (is : List Instruction) (e : String) : Criticality :=
  ((lastSetting .setCriticality is e).bind fun token => (Criticality.parse token).toOption).getD
    .medium

/-! ## The language -/

/-- **A well-formed program**, given the score that entities need. -/
structure WellFormed (threshold : Binary64) (is : List Instruction) : Prop where
  /-- Every name is declared once and before its uses, and every literal is one. -/
  resolved : Resolved is
  /-- No qudit is used after it was measured, released or teleported. -/
  linear : Linear is
  /-- Every entity is explainable enough, or has a human in the loop. -/
  explainable : ∀ e, Declared is e →
    threshold.le (finalScore is e) = true ∨ (finalOversight is e).isHumanInLoop = true
  /-- Entities with much at stake have a human in the loop. -/
  overseen : ∀ e, Declared is e → (finalCriticality is e).requiresOversight = true →
    (finalOversight is e).isHumanInLoop = true
  /-- Entities with much at stake decide only with an approval. -/
  approved : ∀ i ∈ is, i.opcode = .decide →
    (finalCriticality is (i.arg 0)).requiresOversight = true →
    ∃ j ∈ is, j.Approves (i.arg 0)

/-! ## Growing a program by one instruction -/

theorem everywhere_nil (P : List Instruction → Instruction → Prop) : Everywhere P [] := by
  intro before i h
  exact absurd (List.prefix_nil.1 h) (by simp)

theorem everywhere_concat {P : List Instruction → Instruction → Prop} {is : List Instruction}
    {i : Instruction} : Everywhere P (is ++ [i]) ↔ Everywhere P is ∧ P is i := by
  constructor
  · intro h
    exact ⟨fun before j hj => h before j (hj.trans (List.prefix_append is [i])),
      h is i (List.prefix_refl _)⟩
  · rintro ⟨h, hi⟩ before j hj
    rcases List.prefix_concat_iff.1 hj with he | hj
    · obtain ⟨rfl, hji⟩ := List.append_inj' he rfl
      obtain rfl := List.singleton_inj.1 hji
      exact hi
    · exact h before j hj

theorem Everywhere.of_prefix {P : List Instruction → Instruction → Prop}
    {is front : List Instruction} (h : Everywhere P is) (hp : front <+: is) : Everywhere P front :=
  fun before i hi => h before i (hi.trans hp)

theorem Everywhere.of_append {P : List Instruction → Instruction → Prop}
    {is before after : List Instruction} {i : Instruction} (h : Everywhere P is)
    (he : is = before ++ i :: after) : P before i :=
  h before i ⟨after, by rw [he, List.append_assoc, List.singleton_append]⟩

theorem exists_mem_concat {p : Instruction → Prop} {is : List Instruction} {i : Instruction} :
    (∃ j ∈ is ++ [i], p j) ↔ (∃ j ∈ is, p j) ∨ p i := by
  simp only [List.mem_append, List.mem_singleton, or_and_right, exists_or, exists_eq_left]

theorem allocated_concat {is : List Instruction} {i : Instruction} {r : String} :
    Allocated (is ++ [i]) r ↔ Allocated is r ∨ i.Allocates r := exists_mem_concat

theorem declared_concat {is : List Instruction} {i : Instruction} {e : String} :
    Declared (is ++ [i]) e ↔ Declared is e ∨ i.Declares e := exists_mem_concat

theorem bound_concat {is : List Instruction} {i : Instruction} {x : String} :
    Bound (is ++ [i]) x ↔ Bound is x ∨ i.Binds x := exists_mem_concat

theorem consumed_concat {is : List Instruction} {i : Instruction} {r : String} :
    Consumed (is ++ [i]) r ↔ Consumed is r ∨ i.Consumes r := exists_mem_concat

/-- The last setting is the newest one that counts. -/
theorem lastSetting_concat (op : Opcode) (is : List Instruction) (i : Instruction) (e : String) :
    lastSetting op (is ++ [i]) e =
      if i.opcode = op ∧ i.arg 0 = e then some (i.arg 1) else lastSetting op is e := by
  rw [lastSetting, List.reverse_append, List.reverse_singleton, List.singleton_append,
    List.find?_cons]
  by_cases h : i.opcode = op ∧ i.arg 0 = e
  · simp only [h, and_self, decide_true, if_true, Option.map_some]
  · simp only [h, decide_false, if_false, lastSetting]

end GovernedQuantum
