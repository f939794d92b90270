import GovernedQuantum.Proofs.Ownership

/-!
# Tables that back a program

A session that carries out a resolved program need not do all of it: gates close, humans reject,
coordinators refuse and qudits decohere. What it leaves out brings no name into being, so the tables
hold at least what the instructions behind them promise to those ahead.

* `Tables.Backed before t next`: the tables answer for the instructions `before`.
* `Tables.Backed.effect`, `Tables.Backed.pass`: they go on doing so, whether the next instruction
  takes effect or is left out.
* `Tables.Backed.fault`: **no fault of backed tables could have been seen in the program.**
-/

namespace GovernedQuantum

/-- The faults that a look at the program can rule out: names and literals that mean nothing, and
qudits used twice. -/
def Fault.isStatic : Fault → Bool
  | .unknownHandle .. | .consumedHandle .. | .alreadyBound .. | .invalidDimension ..
  | .selfEntanglement .. | .unknownEntity .. | .entityExists .. | .invalidScore ..
  | .invalidLevel ..
  | .unboundVariable .. | .invalidDeadline .. => true
  | _ => false

/-- The instruction brings a name into being. -/
def Instruction.introduces (i : Instruction) : Bool :=
  match i.opcode with
  | .allocQudit | .declareContract | .bind => true
  | _ => false

namespace Instruction

variable {i : Instruction}

theorem introduces_of_resources {r : String} (h : r ∈ i.resources) : i.introduces = false := by
  unfold resources at h
  unfold introduces
  cases op : i.opcode <;> simp [op] at h ⊢

theorem introduces_of_gated (h : i.opcode.operationKind.isGated = true) : i.introduces = false := by
  unfold introduces
  cases op : i.opcode with
  | allocQudit | declareContract | bind =>
    rw [op] at h
    exact absurd h (by decide)
  | _ => rfl

theorem mem_resources_of_isConsuming (h : i.opcode.isConsuming = true) : i.arg 0 ∈ i.resources := by
  unfold resources
  cases op : i.opcode with
  | measure | release | teleport => simp
  | _ =>
    rw [op] at h
    exact absurd h (by decide)

end Instruction

/-! ## What an effect adds -/

namespace Tables

variable {t u : Tables} {i : Instruction} {next n : Nat}

theorem QuditEffect.contains_bindings (h : t.QuditEffect i next u n) (r : String) :
    u.bindings.contains r = true ↔ t.bindings.contains r = true ∨ i.Allocates r := by
  cases h with
  | allocate op unbound id name same =>
    rw [same.bindings, Table.contains_insert, Bool.or_eq_true, decide_eq_true_iff, or_comm,
      Instruction.Allocates, and_iff_right op]
  | entangle op _ _ _ _ same | disentangle op _ _ _ same =>
    rw [same.bindings, Instruction.Allocates, op]
    simp
  | consume op operand same =>
    have ne : i.opcode ≠ .allocQudit := fun he => absurd (he ▸ op) (by decide)
    rw [same.bindings]
    exact (or_iff_left fun ha => ne ha.1).symm
  | keep alloc _ _ _ same =>
    rw [same.bindings]
    exact (or_iff_left fun ha => alloc ha.1).symm

theorem QuditEffect.consumes_of_used (h : t.QuditEffect i next u n) {r : String}
    (used : 0 < u.usageOf r) : 0 < t.usageOf r ∨ i.Consumes r := by
  have same {t : Tables} (hs : t.SameQudits u) : u.usageOf r = t.usageOf r := by
    rw [usageOf, usageOf, hs.usage]
  cases h with
  | allocate _ _ _ _ hs | entangle _ _ _ _ _ hs | disentangle _ _ _ _ hs | keep _ _ _ _ hs =>
    rw [same hs] at used
    exact .inl used
  | consume op operand hs =>
    rw [same hs, usageOf_spend] at used
    split at used
    · rename_i hr
      exact .inr ⟨op, hr ▸ Instruction.mem_resources_of_isConsuming op⟩
    · exact .inl used

end Tables

namespace Session.Effect

variable {π γ κ : Type} [Physics π] [Coordinator κ] {s t : Session π γ κ} {i : Instruction}

theorem contains_entities (h : s.Effect i t) (e : String) :
    t.tables.entities.contains e = true ↔
      s.tables.entities.contains e = true ∨ i.Declares e := by
  cases h with
  | declare op unknown =>
    rw [tables_withTables, Tables.putEntity, Table.contains_insert, Bool.or_eq_true,
      decide_eq_true_iff, or_comm, Instruction.Declares, and_iff_right op]
  | govern known change =>
    have op : i.opcode ≠ .declareContract := by cases change <;> simp [*]
    rw [tables_withTables, Tables.putEntity, Table.contains_insert, Bool.or_eq_true,
      decide_eq_true_iff, or_iff_left (a := Table.contains _ e = true) fun hd => op hd.1,
      or_iff_right_iff_imp]
    rintro rfl
    exact Table.contains_eq_true_iff.2 ⟨_, known⟩
  | allocate op | entangle op | disentangle op | applyGate op | measure op | release op | bind op
  | print op | targetNode op | channel op | barrier op | window op | entangleRemote op | teleport op
  | swap op => exact (or_iff_left (by simp [Instruction.Declares, op])).symm

theorem contains_values (h : s.Effect i t) (x : String) :
    t.tables.values.contains x = true ↔ s.tables.values.contains x = true ∨ i.Binds x := by
  cases h with
  | bind op =>
    rw [tables_withTables, Table.contains_insert, Bool.or_eq_true, decide_eq_true_iff, or_comm,
      Instruction.Binds, and_iff_right op]
  | govern known change =>
    have op : i.opcode ≠ .bind := by cases change <;> simp [*]
    exact (or_iff_left fun hb => op hb.1).symm
  | allocate op | entangle op | disentangle op | applyGate op | measure op | release op | declare op
  | print op | targetNode op | channel op | barrier op | window op | entangleRemote op | teleport op
  | swap op => exact (or_iff_left (by simp [Instruction.Binds, op])).symm

end Session.Effect

/-! ## Backing -/

namespace Tables

/-- **The tables back the instructions `before`**: every name they bring into being is there, and
only what they consume is gone. -/
structure Backed (before : List Instruction) (t : Tables)
    (next : Nat) : Prop extends Owned t next where
  allocated : ∀ r, t.bindings.contains r = true ↔ Allocated before r
  consumed : ∀ r, 0 < t.usageOf r → Consumed before r
  declared : ∀ e, t.entities.contains e = true ↔ Declared before e
  bound : ∀ x, t.values.contains x = true ↔ Bound before x

namespace Backed

variable {before : List Instruction} {t u : Tables} {i : Instruction} {next : Nat}

theorem empty (next : Nat) : Backed [] {} next where
  toOwned := .empty next
  allocated r := by simp [Allocated]
  consumed r h := absurd h (by simp [usageOf, Table.getD])
  declared e := by simp [Declared]
  bound x := by simp [Bound]

/-- Deadlines do not matter. -/
theorem of_same (h : t.Backed before next) (same : t.SameQudits u)
    (entities : u.entities = t.entities) (values : u.values = t.values) : u.Backed before next where
  toOwned := h.toOwned.of_same same
  allocated r := by rw [same.bindings, h.allocated]
  consumed r used := h.consumed r (by rwa [usageOf, ← same.usage])
  declared e := by rw [entities, h.declared]
  bound x := by rw [values, h.bound]

/-- A qudit that was allocated and never consumed is live. -/
theorem resolve (h : t.Backed before next) {r : String} (allocated : Allocated before r)
    (unused : ¬ Consumed before r) : ∃ x, t.resolve r = .ok x := by
  obtain ⟨x, hx⟩ := Table.contains_eq_true_iff.1 ((h.allocated r).2 allocated)
  have balance := h.balance hx
  refine ⟨x, h.toOwned.resolve hx ?_⟩
  by_contra dead
  rw [if_neg dead] at balance
  exact unused (h.consumed r (by omega))

theorem entity (h : t.Backed before next) {e : String} (declared : Declared before e) :
    ∃ entity, t.entities.find? e = some entity :=
  Table.contains_eq_true_iff.1 ((h.declared e).2 declared)

/-- An instruction that brings no name into being may be left out. -/
theorem pass (h : t.Backed before next) (hi : i.introduces = false) :
    t.Backed (before ++ [i]) next := by
  have quiet : i.opcode ≠ .allocQudit ∧ i.opcode ≠ .declareContract ∧ i.opcode ≠ .bind := by
    refine ⟨?_, ?_, ?_⟩ <;>
    · intro op
      rw [Instruction.introduces, op] at hi
      exact absurd hi (by decide)
  exact {
    toOwned := h.toOwned
    allocated := fun r => by
      rw [h.allocated, allocated_concat]
      exact (or_iff_left fun ha => quiet.1 ha.1).symm
    consumed := fun r used => consumed_concat.2 (.inl (h.consumed r used))
    declared := fun e => by
      rw [h.declared, declared_concat]
      exact (or_iff_left fun hd => quiet.2.1 hd.1).symm
    bound := fun x => by
      rw [h.bound, bound_concat]
      exact (or_iff_left fun hb => quiet.2.2 hb.1).symm }

section Attempts

variable {π γ κ : Type} [Coordinator κ] {s t : Session π γ κ}

theorem effect [Physics π] (h : s.tables.Backed before s.nextHandle) (he : s.Effect i t) :
    t.tables.Backed (before ++ [i]) t.nextHandle where
  toOwned := h.toOwned.effect he.qudits
  allocated r := by rw [he.qudits.contains_bindings, h.allocated, allocated_concat]
  consumed r used := by
    rw [consumed_concat]
    exact (he.qudits.consumes_of_used used).imp_left (h.consumed r)
  declared e := by rw [he.contains_entities, h.declared, declared_concat]
  bound x := by rw [he.contains_values, h.bound, bound_concat]

/-- **No fault of a backed instruction is static**, and none keeps a name from coming into being. -/
theorem fault (h : s.tables.Backed before next) (resolves : i.Resolves before)
    (unused : ∀ r ∈ i.resources, ¬ Consumed before r) {f : Fault} (fails : s.Fails i f t) :
    f.isStatic = false ∧ i.introduces = false := by
  cases fails with
  | alreadyBound op bound => exact absurd ((h.allocated _).1 bound) (resolves.newResource op)
  | invalidDimension op unbound literal =>
    obtain ⟨d, hd, two⟩ := resolves.dimension op
    rw [dimension?, hd, Option.filter_some, if_pos (decide_eq_true two)] at literal
    exact absurd literal (by simp)
  | unresolved gets operand cause =>
    have operand := List.mem_of_getElem? operand
    obtain ⟨x, hx⟩ := h.resolve (resolves.allocated _ operand) (unused _ operand)
    exact absurd (cause.symm.trans hx) (by simp)
  | decoherent gets operand =>
    exact ⟨rfl, Instruction.introduces_of_resources (List.mem_of_getElem? operand)⟩
  | selfEntanglement op same =>
    refine absurd same (resolves.distinct ?_)
    rcases op with op | op <;> rw [Instruction.isPaired, op]
  | alreadyEntangled op | notEntangled op => exact ⟨rfl, by rw [Instruction.introduces, op]⟩
  | unknownEntity about literal unknown =>
    obtain ⟨e, he⟩ := h.entity (resolves.declared _ about)
    exact absurd (unknown.symm.trans he) (by simp)
  | entityExists op known => exact absurd ((h.declared _).1 known) (resolves.newEntity op)
  | invalidScore op literal =>
    obtain ⟨x, hx, -, unit⟩ := resolves.score op
    exact absurd literal (by simp [score?, hx, unit])
  | invalidOversight op literal =>
    obtain ⟨l, hl⟩ := resolves.oversight op
    exact absurd (literal.symm.trans hl) (by simp)
  | invalidCriticality op literal =>
    obtain ⟨l, hl⟩ := resolves.criticality op
    exact absurd (literal.symm.trans hl) (by simp)
  | unboundVariable op unknown =>
    obtain ⟨v, hv⟩ := Table.contains_eq_true_iff.1 ((h.bound _).2 (resolves.bound op))
    exact absurd (unknown.symm.trans hv) (by simp)
  | invalidBarrier op literal =>
    obtain ⟨ms, hms⟩ := resolves.barrier op
    exact absurd (literal.symm.trans hms) (by simp)
  | invalidSoft op literal =>
    obtain ⟨ms, hms⟩ := (resolves.window op).1
    exact absurd (literal.symm.trans hms) (by simp)
  | invalidHard op first literal =>
    obtain ⟨ms, hms⟩ := (resolves.window op).2
    exact absurd (literal.symm.trans hms) (by simp)
  | invertedWindow op => exact ⟨rfl, by rw [Instruction.introduces, op]⟩
  | refused op => exact ⟨rfl, by rcases op with op | op <;> rw [Instruction.introduces, op]⟩
  | swapRefused op => exact ⟨rfl, by rw [Instruction.introduces, op]⟩

end Attempts

/-! ## The questions of constraints -/

theorem isTracked (h : t.Backed before next) {r : String} (allocated : Allocated before r)
    (unused : ¬ Consumed before r) (now : Nat) : (t.context now).isTracked r = true := by
  obtain ⟨x, hx⟩ := h.resolve allocated unused
  obtain ⟨bound, -, live⟩ := resolve_eq_ok_iff.1 hx
  change (t.handle? r).isSome = true
  rw [handle?, bound]
  exact live

theorem consumedCount (h : t.Backed before next) {r : String} (unused : ¬ Consumed before r)
    (now : Nat) : (t.context now).consumedCount r = 0 :=
  Nat.eq_zero_of_not_pos fun used => unused (h.consumed r used)

theorem view (h : t.Backed before next) {e : String} (declared : Declared before e) (now : Nat) :
    ∃ view, (t.context now).entity e = some view := by
  obtain ⟨entity, he⟩ := h.entity declared
  exact ⟨entity.view, by simp only [context, he, Option.map_some]⟩

end Backed

end Tables

end GovernedQuantum
