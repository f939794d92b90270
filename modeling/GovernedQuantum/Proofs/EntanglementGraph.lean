import GovernedQuantum.Proofs.History
import GovernedQuantum.Proofs.RegisterGraph

/-!
# Instructions act on a graph

What instructions do to the entanglements of a session is what they do to a simple graph: allocation
adds a vertex, entangling adds an edge, disentangling takes one away, and a qudit that leaves takes
its edges along. Everything else leaves the graph alone, and so does everything that fails.

* `Tables.GraphStep`: the graph after an instruction that took effect.
* `Session.graph_stable`: **groups are pairs for life**, so the graph says all there is to say.
* `Session.entanglement_graph`: **instructions act on the graph**, with one exception: a qudit that
  is disentangled from itself loses one of its edges.
-/

namespace GovernedQuantum

namespace Tables

/-- **The graph after an instruction** that took effect. -/
inductive GraphStep (t u : Tables) (i : Instruction) : Prop
  /-- A new vertex, without edges since edges join vertices. -/
  | allocate {x : Nat} (op : i.opcode = .allocQudit) (named : u.bindings.find? (i.arg 0) = some x)
      (new : x ∉ t.register.vertices) (vertices : u.register.vertices = t.register.vertices ∪ {x})
      (edges : u.register.graph = t.register.graph)
  /-- A new edge between two handles that had none. -/
  | entangle {x y : Nat} (op : i.opcode = .entangle) (left : t.resolve (i.arg 0) = .ok x)
      (right : t.resolve (i.arg 1) = .ok y) (distinct : x ≠ y)
      (apart : ¬ t.register.graph.Adj x y) (vertices : u.register.vertices = t.register.vertices)
      (edges : u.register.graph = t.register.graph ⊔ SimpleGraph.edge x y)
  /-- The edge between two handles goes. -/
  | disentangle {x y : Nat} (op : i.opcode = .disentangle) (names : i.arg 0 ≠ i.arg 1)
      (left : t.resolve (i.arg 0) = .ok x) (right : t.resolve (i.arg 1) = .ok y)
      (linked : t.register.graph.Adj x y) (vertices : u.register.vertices = t.register.vertices)
      (edges : u.register.graph = t.register.graph.deleteEdges {s(x, y)})
  /-- A qudit disentangled from itself: one of its edges goes. -/
  | disentangleSelf {x y : Nat} (op : i.opcode = .disentangle) (names : i.arg 0 = i.arg 1)
      (operand : t.resolve (i.arg 0) = .ok x) (linked : t.register.graph.Adj x y)
      (vertices : u.register.vertices = t.register.vertices)
      (edges : u.register.graph = t.register.graph.deleteEdges {s(x, y)})
  /-- A vertex goes with its edges. -/
  | consume {x : Nat} (op : i.opcode.isConsuming = true) (operand : t.resolve (i.arg 0) = .ok x)
      (vertices : u.register.vertices = t.register.vertices \ {x})
      (edges : u.register.graph = t.register.graph.deleteIncidenceSet x)
  | keep (alloc : i.opcode ≠ .allocQudit) (join : i.opcode ≠ .entangle)
      (part : i.opcode ≠ .disentangle) (consume : i.opcode.isConsuming = false)
      (vertices : u.register.vertices = t.register.vertices)
      (edges : u.register.graph = t.register.graph)

variable {t u : Tables} {i : Instruction} {next n : Nat}

/-- Deadlines that were noted before the step do not count. -/
theorem GraphStep.of_same {t' : Tables} (same : t.SameQudits t') (h : t'.GraphStep u i) :
    t.GraphStep u i := by
  have resolve := same.resolve
  have edges := same.register.graph
  have vertices := same.register.vertices
  cases h with
  | allocate op named new hv he =>
    exact .allocate op named (vertices ▸ new) (vertices ▸ hv) (edges ▸ he)
  | entangle op left right distinct apart hv he =>
    exact .entangle op (resolve _ ▸ left) (resolve _ ▸ right) distinct (edges ▸ apart)
      (vertices ▸ hv)
      (edges ▸ he)
  | disentangle op names left right linked hv he =>
    exact .disentangle op names (resolve _ ▸ left) (resolve _ ▸ right) (edges ▸ linked)
      (vertices ▸ hv)
      (edges ▸ he)
  | disentangleSelf op names operand linked hv he =>
    exact .disentangleSelf op names (resolve _ ▸ operand) (edges ▸ linked) (vertices ▸ hv)
      (edges ▸ he)
  | consume op operand hv he => exact .consume op (resolve _ ▸ operand) (vertices ▸ hv) (edges ▸ he)
  | keep alloc join part consume hv he =>
    exact .keep alloc join part consume (vertices ▸ hv) (edges ▸ he)

theorem mem_vertices_of_resolve {r : String} {x : Nat} (h : t.resolve r = .ok x) :
    x ∈ t.register.vertices :=
  (resolve_eq_ok_iff.1 h).2.2

/-- Different names resolve to different handles. -/
theorem Owned.ne_of_resolve (owned : t.Owned next) {a b : String} {x y : Nat} (hne : a ≠ b)
    (ha : t.resolve a = .ok x) (hb : t.resolve b = .ok y) : x ≠ y := by
  rintro rfl
  exact hne (owned.injective (resolve_eq_ok_iff.1 ha).1 (resolve_eq_ok_iff.1 hb).1)

theorem QuditEffect.paired (owned : t.Owned next) (paired : t.register.Paired)
    (he : t.QuditEffect i next u n) : u.register.Paired := by
  cases he with
  | allocate op unbound id name same => exact (paired.insert _).of_same same.register
  | entangle op distinct left right apart same =>
    have hne := owned.ne_of_resolve distinct left right
    exact (paired.join hne (mem_vertices_of_resolve left) (mem_vertices_of_resolve right)
      ((Register.between?_eq_none_iff hne).1 apart) _ _).of_same same.register
  | disentangle op left right joined same => exact (paired.removeGroup _).of_same same.register
  | consume op operand same => exact (paired.drop _).of_same same.register
  | keep _ _ _ _ same => exact paired.of_same same.register

/-- Every effect is a step of the graph. -/
theorem QuditEffect.graphStep (owned : t.Owned next) (paired : t.register.Paired)
    (he : t.QuditEffect i next u n) : t.GraphStep u i := by
  cases he with
  | @allocate q u op unbound id name same =>
    refine .allocate (x := q.id) op ?_ ?_ ?_ same.register.graph
    · rw [same.bindings, Table.find?_insert, if_pos rfl, id]
    · intro live
      obtain ⟨p, hp⟩ := Table.contains_eq_true_iff.1 live
      rw [id] at hp
      exact absurd (hp.symm.trans owned.handle?_next) (by simp)
    · rw [same.register.vertices, Register.vertices_insert]
  | @entangle x y now life u op distinct left right apart same =>
    have hne := owned.ne_of_resolve distinct left right
    refine .entangle op left right hne ((Register.between?_eq_none_iff hne).1 apart)
      same.register.vertices ?_
    rw [same.register.graph]
    exact paired.graph_join x y now life
  | @disentangle x y g u op left right joined same =>
    obtain ⟨z, group, -, -, -, linked, other, edges⟩ := paired.part joined
    have edges := same.register.graph.trans edges
    by_cases names : i.arg 0 = i.arg 1
    · exact .disentangleSelf op names left linked same.register.vertices edges
    · -- the other member of the group is the other operand
      obtain rfl := other (owned.ne_of_resolve names left right)
      exact .disentangle op names left right linked same.register.vertices edges
  | @consume x u op operand same =>
    refine .consume op operand ?_ ?_
    · rw [same.register.vertices]
      exact Register.vertices_drop _ x
    · rw [same.register.graph]
      exact paired.graph_drop x
  | keep alloc join part consume same =>
    exact .keep alloc join part consume same.register.vertices same.register.graph

end Tables

namespace Session

variable {π γ κ : Type} [Physics π] [Coordinator κ]

/-- **Groups are pairs for life.** -/
theorem graph_stable : Stable fun _ (s : Session π γ κ) =>
    s.tables.Owned s.nextHandle ∧ s.tables.register.Paired where
  still h same := ⟨same.owned h.1, same.tables ▸ h.2⟩
  timers {_ s} h := ⟨fireTimers_owned h.1, h.2.of_same s.fireTimers_sameQudits.register⟩
  effect h done := ⟨attempt_owned done h.1, (attempt_qudits done).paired h.1 h.2⟩

/-- A disentangling of live handles completes when it finds a group that holds both. -/
theorem disentangle_done_iff {s : Session π γ κ} {i : Instruction} {x y : Nat}
    (op : i.opcode = .disentangle) (left : s.tables.resolve (i.arg 0) = .ok x)
    (right : s.tables.resolve (i.arg 1) = .ok y) :
    (∃ t, s.attempt i = .done t) ↔ s.tables.register.between? x y ≠ none := by
  have plain : i.needsCoherence = false := by rw [Instruction.needsCoherence, op]
  constructor
  · rintro ⟨t, done⟩
    cases attempt_done_iff.1 done with
    | disentangle _ left' right' joined =>
      obtain rfl := Except.ok.inj (left.symm.trans left'.resolves)
      obtain rfl := Except.ok.inj (right.symm.trans right'.resolves)
      rw [joined]
      exact Option.some_ne_none _
    | govern known change => cases change <;> simp_all
    | _ => simp_all
  · intro joined
    obtain ⟨g, joined⟩ := Option.ne_none_iff_exists'.1 joined
    exact ⟨_, attempt_done_iff.2
      (.disentangle op (finds_of_resolve plain left) (finds_of_resolve plain right) joined)⟩

/-- A measurement records the partners that the qudit leaves behind. -/
theorem measure_records {s t : Session π γ κ} {i : Instruction} (done : s.attempt i = .done t)
    (op : i.opcode = .measure) :
    ∃ x entry, s.tables.resolve (i.arg 0) = .ok x ∧ t.tables.records = s.tables.records.push entry ∧
      entry.handle = x ∧ entry.releasedPartners = s.tables.register.partners x := by
  cases attempt_done_iff.1 done with
  | measure _ operand live measured => exact ⟨_, _, operand.resolves, rfl, rfl, rfl⟩
  | govern known change => cases change <;> simp_all
  | _ => simp_all

/-- **Instructions act on the graph of a session.** -/
structure ActsOnGraph [Gateway γ] (s : Session π γ κ) : Prop where
  /-- Edges join live handles. -/
  live : ∀ x y, s.tables.register.graph.Adj x y →
    x ∈ s.tables.register.vertices ∧ y ∈ s.tables.register.vertices
  purity : ∀ x, s.tables.register.purity x = .entangled ↔ ∃ y, s.tables.register.graph.Adj x y
  /-- An instruction that completes takes the step that belongs to it. -/
  done : ∀ i t, s.attempt i = .done t → s.tables.GraphStep t.tables i
  /-- A measurement records exactly the neighbours. -/
  records : ∀ i t, s.attempt i = .done t → i.opcode = .measure →
    ∃ x entry, s.tables.resolve (i.arg 0) = .ok x ∧
      t.tables.records = s.tables.records.push entry ∧ entry.handle = x ∧
      ∀ y, y ∈ entry.releasedPartners ↔ s.tables.register.graph.Adj x y
  /-- Two live handles can be disentangled when there is an edge between them. -/
  parts : ∀ i x y, i.opcode = .disentangle → i.arg 0 ≠ i.arg 1 →
    s.tables.bindings.find? (i.arg 0) = some x → s.tables.bindings.find? (i.arg 1) = some y →
    x ∈ s.tables.register.vertices → y ∈ s.tables.register.vertices →
    ((∃ t, s.attempt i = .done t) ↔ s.tables.register.graph.Adj x y)
  /-- One live handle can be disentangled from itself when it has an edge. -/
  partsSelf : ∀ i x, i.opcode = .disentangle → i.arg 0 = i.arg 1 →
    s.tables.bindings.find? (i.arg 0) = some x → x ∈ s.tables.register.vertices →
    ((∃ t, s.attempt i = .done t) ↔ ∃ y, s.tables.register.graph.Adj x y)
  /-- An instruction that fails changes nothing. -/
  failed : ∀ i f t, s.attempt i = .failed f t → t.tables.register = s.tables.register
  /-- A whole cycle in which the instruction takes effect is a step of the graph as well. -/
  cycle : ∀ index i, s.stepLog index i = [i] →
    s.tables.GraphStep (s.step index i).session.tables i
  /-- A cycle in which the instruction takes no effect, stopped before it or put to a human, leaves
  the graph alone. -/
  idle : ∀ index i, s.stepLog index i = [] →
    (s.step index i).session.tables.register.vertices = s.tables.register.vertices ∧
      (s.step index i).session.tables.register.graph = s.tables.register.graph

/-- **The entanglements of a session are a simple graph**, and through every run and every answer
each instruction acts on it as its name says; only a qudit that is disentangled from itself loses an
edge to another. -/
theorem entanglement_graph [Gateway γ] {s₀ s : Session π γ κ} {h : List Instruction}
    (fresh : s₀.IsFresh) (life : s₀.Evolves h s) : s.ActsOnGraph := by
  have start : s₀.tables.register.Paired := by
    rw [fresh]
    exact .empty
  obtain ⟨owned, paired⟩ := graph_stable.evolves ⟨fresh.owned, start⟩ life
  constructor
  case live =>
    intro x y
    exact paired.adj_live
  case purity =>
    intro x
    exact paired.purity_eq_entangled_iff
  case done =>
    intro i t done
    exact (attempt_qudits done).graphStep owned paired
  case records =>
    intro i t done op
    obtain ⟨x, entry, hx, ht, hh, hp⟩ := measure_records done op
    exact ⟨x, entry, hx, ht, hh, fun y => by rw [hp]; rfl⟩
  case parts =>
    intro i x y op names hx hy livex livey
    rw [disentangle_done_iff op (owned.resolve hx livex) (owned.resolve hy livey)]
    have hne : x ≠ y := fun e => names (owned.injective hx (e ▸ hy))
    rw [Ne, Register.between?_eq_none_iff hne, not_not]
  case partsSelf =>
    intro i x op names hx live
    have hy := owned.resolve hx live
    rw [disentangle_done_iff op hy (names ▸ hy)]
    exact paired.between?_self
  case failed =>
    intro i f t failed
    rw [(attempt_failed_iff.1 failed).untouched.tables]
  case cycle =>
    intro index i log
    obtain ⟨t, done, ht⟩ := tables_step_of_log log
    have prepared := graph_stable.prepared (h := []) ⟨owned, paired⟩ index i
    have same : s.tables.SameQudits (s.prepared index i).2.tables := by
      rw [(s.prepared_untouched index i).tables]
      exact s.fireTimers_sameQudits
    rw [ht]
    exact ((attempt_qudits done).graphStep prepared.1 prepared.2).of_same same
  case idle =>
    intro index i idle
    rw [tables_step_of_idle idle]
    exact ⟨s.fireTimers_sameQudits.register.vertices, s.fireTimers_sameQudits.register.graph⟩

/-- Three qudits in a row, the one in the middle entangled with both. -/
def chain : Program where
  instructions :=
    [⟨.allocQudit, ["a", "2"], {}⟩, ⟨.allocQudit, ["b", "2"], {}⟩, ⟨.allocQudit, ["c", "2"], {}⟩,
      ⟨.entangle, ["a", "b"], {}⟩, ⟨.entangle, ["b", "c"], {}⟩]

/-- A chain of three is a path, and it breaks when its middle is disentangled from itself. -/
theorem entanglement_graph_chain :
    (standard 1 {}).IsFresh ∧ ((standard 1 {}).run chain none).ActsOnGraph ∧
      ((standard 1 {}).run chain none).tables.register.graph.Adj 1 2 ∧
      ((standard 1 {}).run chain none).tables.register.graph.Adj 2 3 ∧
      ¬ (((standard 1 {}).run chain none).run ⟨[⟨.disentangle, ["b", "b"], {}⟩]⟩
        none).tables.register.graph.Adj 1 2 := by
  have fresh : (standard 1 {}).IsFresh := rfl
  exact ⟨fresh, entanglement_graph fresh (.run .new chain none), by decide +kernel,
    by decide +kernel, by decide +kernel⟩

end Session

end GovernedQuantum
