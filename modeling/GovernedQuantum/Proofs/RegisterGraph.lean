import GovernedQuantum.Proofs.Ownership
import Mathlib.Combinatorics.SimpleGraph.DeleteEdges
import Mathlib.Combinatorics.SimpleGraph.Operations

/-!
# The graph of a register

A register stores groups, and who is entangled with whom is read off them. This file reads off a
simple graph: its vertices are the live handles and its edges join handles that share a group.

* `Register.graph`, `Register.vertices`: the graph of a register.
* `Register.Paired`: every group joins two live handles, and no pair is joined twice.
* `Paired.graph_join`, `Paired.graph_removeGroup`, `Paired.graph_drop`: under that law a new group
  is a new edge, a group that goes is an edge that goes, and a handle goes with its edges.
-/

namespace GovernedQuantum.Register

/-! ## Partners -/

/-- Two handles share a group. -/
theorem mem_partners {r : Register} {x y : Nat} :
    y ∈ r.partners x ↔
      y ≠ x ∧ ∃ k g, r.groups.find? k = some g ∧ x ∈ g.participants ∧ y ∈ g.participants := by
  rw [partners, Table.mem_keys_ofList]
  simp only [List.map_map, List.mem_map, Function.comp_apply, List.mem_filter, List.mem_flatMap,
    groupsOf, Table.mem_values_iff, Group.contains, decide_eq_true_eq, exists_eq_right]
  constructor
  · rintro ⟨⟨g, ⟨⟨k, hk⟩, hx⟩, hy⟩, hne⟩
    exact ⟨hne, k, g, hk, hx, hy⟩
  · rintro ⟨hne, k, g, hk, hx, hy⟩
    exact ⟨⟨g, ⟨⟨k, hk⟩, hx⟩, hy⟩, hne⟩

/-- **The entanglement graph**: handles are adjacent when one is among the partners of the other. -/
def graph (r : Register) : SimpleGraph Nat where
  Adj x y := y ∈ r.partners x
  symm := ⟨fun x y h => by
    rw [mem_partners] at h ⊢
    obtain ⟨hne, k, g, hk, hx, hy⟩ := h
    exact ⟨hne.symm, k, g, hk, hy, hx⟩⟩
  loopless := ⟨fun x h => (mem_partners.1 h).1 rfl⟩

instance (r : Register) : DecidableRel r.graph.Adj := fun x y =>
  inferInstanceAs (Decidable (y ∈ r.partners x))

/-- The live handles. -/
def vertices (r : Register) : Set Nat := {x | r.contains x = true}

theorem graph_adj {r : Register} {x y : Nat} :
    r.graph.Adj x y ↔
      x ≠ y ∧ ∃ k g, r.groups.find? k = some g ∧ x ∈ g.participants ∧ y ∈ g.participants :=
  mem_partners.trans (and_congr_left' ne_comm)

theorem graph_congr {r r' : Register} (h : r'.groups = r.groups) : r'.graph = r.graph := by
  ext x y
  rw [graph_adj, graph_adj, h]

theorem SameQudits.graph {r r' : Register} (h : r.SameQudits r') : r'.graph = r.graph :=
  graph_congr h.groups

theorem SameQudits.vertices {r r' : Register} (h : r.SameQudits r') : r'.vertices = r.vertices :=
  Set.ext fun x => iff_of_eq (congrArg (· = true) (h.contains x))

theorem between?_eq_none {r : Register} {a b : Nat} :
    r.between? a b = none ↔
      ∀ k g, r.groups.find? k = some g → a ∈ g.participants → b ∉ g.participants := by
  simp only [between?, Option.map_eq_none_iff, List.find?_eq_none, Table.mem_values_iff,
    Group.contains, Bool.and_eq_true, decide_eq_true_eq, not_and, forall_exists_index]
  exact forall_comm

/-! ## Pairs -/

/-- **Groups are pairs.** Each joins two live handles under its own number, and no two groups join
the same two handles. -/
structure Paired (r : Register) : Prop where
  id : ∀ {k g}, r.groups.find? k = some g → g.id = k ∧ k ≤ r.lastGroup
  pair : ∀ {k g}, r.groups.find? k = some g → g.kind = .bipartite ∧
    ∃ x y, g.participants = [x, y] ∧ x ≠ y ∧ x ∈ r.vertices ∧ y ∈ r.vertices
  once : ∀ {x y k l g g'}, x ≠ y →
    r.groups.find? k = some g → x ∈ g.participants → y ∈ g.participants →
    r.groups.find? l = some g' → x ∈ g'.participants → y ∈ g'.participants → k = l

namespace Paired

variable {r r' : Register} {k x y : Nat} {g : Group}

theorem empty : Paired {} where
  id h := absurd h (by simp)
  pair h := absurd h (by simp)
  once _ h := absurd h (by simp)

theorem of_same (h : r.Paired) (same : r.SameQudits r') : r'.Paired where
  id hk := by
    rw [same.lastGroup]
    exact h.id (same.groups ▸ hk)
  pair hk := by
    rw [same.vertices]
    exact h.pair (same.groups ▸ hk)
  once hne hk hx hy hl := h.once hne (same.groups ▸ hk) hx hy (same.groups ▸ hl)

/-- A group that holds a handle holds it and one other. -/
theorem other (h : r.Paired) (hk : r.groups.find? k = some g) (hx : x ∈ g.participants) :
    ∃ y, x ≠ y ∧ ∀ z, z ∈ g.participants ↔ z = x ∨ z = y := by
  obtain ⟨-, a, b, hg, hne, -, -⟩ := h.pair hk
  rw [hg] at hx ⊢
  rcases List.mem_pair.1 hx with rfl | rfl
  · exact ⟨b, hne, fun z => List.mem_pair⟩
  · exact ⟨a, hne.symm, fun z => List.mem_pair.trans or_comm⟩

theorem live (h : r.Paired) (hk : r.groups.find? k = some g) (hx : x ∈ g.participants) :
    x ∈ r.vertices := by
  obtain ⟨-, a, b, hg, -, ha, hb⟩ := h.pair hk
  rw [hg] at hx
  rcases List.mem_pair.1 hx with rfl | rfl
  · exact ha
  · exact hb

/-- Edges join live handles. -/
theorem adj_live (h : r.Paired) (hxy : r.graph.Adj x y) : x ∈ r.vertices ∧ y ∈ r.vertices := by
  obtain ⟨-, k, g, hk, hx, hy⟩ := graph_adj.1 hxy
  exact ⟨h.live hk hx, h.live hk hy⟩

/-- A handle is entangled when it has an edge. -/
theorem purity_eq_entangled_iff (h : r.Paired) :
    r.purity x = .entangled ↔ ∃ y, r.graph.Adj x y := by
  have held : r.purity x = .entangled ↔ ∃ g ∈ r.groups.values, g.contains x = true := by
    rw [purity, ← List.any_eq_true]
    split <;> simp [*]
  rw [held]
  constructor
  · rintro ⟨g, hg, hx⟩
    obtain ⟨k, hk⟩ := Table.mem_values_iff.1 hg
    have hx : x ∈ g.participants := of_decide_eq_true hx
    obtain ⟨y, hne, hmem⟩ := h.other hk hx
    exact ⟨y, graph_adj.2 ⟨hne, k, g, hk, hx, (hmem y).2 (.inr rfl)⟩⟩
  · rintro ⟨y, hxy⟩
    obtain ⟨-, k, g, hk, hx, -⟩ := graph_adj.1 hxy
    exact ⟨g, Table.mem_values_iff.2 ⟨k, hk⟩, decide_eq_true hx⟩

/-- The group found between two handles holds both. -/
theorem of_between? (h : r.Paired) (hk : r.between? x y = some k) :
    ∃ g, r.groups.find? k = some g ∧ x ∈ g.participants ∧ y ∈ g.participants := by
  obtain ⟨g, hg, rfl⟩ := Option.map_eq_some_iff.1 hk
  obtain ⟨l, hl⟩ := Table.mem_values_iff.1 (List.mem_of_find?_eq_some hg)
  have both := List.find?_some hg
  rw [Bool.and_eq_true, Group.contains, Group.contains, decide_eq_true_eq,
    decide_eq_true_eq] at both
  exact ⟨g, (h.id hl).1 ▸ hl, both⟩

end Paired

/-- Two handles have a group between them when they are adjacent. -/
theorem between?_eq_none_iff {r : Register} {x y : Nat} (hne : x ≠ y) :
    r.between? x y = none ↔ ¬ r.graph.Adj x y := by
  rw [between?_eq_none, graph_adj]
  constructor
  · rintro h ⟨-, k, g, hk, hx, hy⟩
    exact h k g hk hx hy
  · intro h k g hk hx hy
    exact h ⟨hne, k, g, hk, hx, hy⟩

/-- A handle shares a group with itself when it has an edge at all. -/
theorem Paired.between?_self {r : Register} (h : r.Paired) {x : Nat} :
    r.between? x x ≠ none ↔ ∃ y, r.graph.Adj x y := by
  rw [Ne, between?_eq_none]
  constructor
  · intro held
    by_contra alone
    refine held fun k g hk hx => ?_
    obtain ⟨y, hne, hg⟩ := h.other hk hx
    exact absurd ⟨y, graph_adj.2 ⟨hne, k, g, hk, hx, (hg y).2 (.inr rfl)⟩⟩ alone
  · rintro ⟨y, hxy⟩ free
    obtain ⟨-, k, g, hk, hx, -⟩ := graph_adj.1 hxy
    exact free k g hk hx hx

/-! ## Allocation -/

theorem vertices_insert (r : Register) (q : Handle) :
    (r.insert q).vertices = r.vertices ∪ {q.id} := by
  ext x
  change (r.insert q).contains x = true ↔ r.contains x = true ∨ x = q.id
  rw [contains_insert, Bool.or_eq_true, decide_eq_true_eq, or_comm, @eq_comm _ q.id]

theorem Paired.insert {r : Register} (h : r.Paired) (q : Handle) : (r.insert q).Paired where
  id := h.id
  pair hk := by
    obtain ⟨kind, x, y, hg, hne, hx, hy⟩ := h.pair hk
    rw [vertices_insert]
    exact ⟨kind, x, y, hg, hne, .inl hx, .inl hy⟩
  once := h.once

/-! ## Joining and parting -/

section

variable {r : Register} {k x y : Nat} {g : Group}

/-- A group of a register with one more is the new one or an old one. -/
theorem find?_groups_join (now life l : Nat) (g : Group) :
    (r.join [x, y] now life).2.groups.find? l = some g ↔
      (l = r.lastGroup + 1 ∧ g = ⟨l, [x, y], .bipartite, 1.0, life, now⟩) ∨
        (l ≠ r.lastGroup + 1 ∧ r.groups.find? l = some g) := by
  rw [join, Table.find?_insert]
  split
  · rename_i hl
    subst hl
    simp [GroupKind.ofSize, eq_comm]
  · rename_i hl
    simp [Ne.symm hl]

theorem Paired.not_next (h : r.Paired) (hk : r.groups.find? k = some g) : k ≠ r.lastGroup + 1 := by
  have := (h.id hk).2
  omega

/-- **A new group is a new edge.** -/
theorem Paired.graph_join (h : r.Paired) (x y now life : Nat) :
    (r.join [x, y] now life).2.graph = r.graph ⊔ SimpleGraph.edge x y := by
  ext a b
  rw [SimpleGraph.sup_adj, SimpleGraph.edge_adj, graph_adj, graph_adj]
  constructor
  · rintro ⟨hab, l, g, hl, ha, hb⟩
    rcases (find?_groups_join now life l g).1 hl with ⟨-, rfl⟩ | ⟨-, hl⟩
    · right
      rcases List.mem_pair.1 ha with rfl | rfl <;> rcases List.mem_pair.1 hb with rfl | rfl
      · exact absurd rfl hab
      · exact ⟨.inl ⟨rfl, rfl⟩, hab⟩
      · exact ⟨.inr ⟨rfl, rfl⟩, hab⟩
      · exact absurd rfl hab
    · exact .inl ⟨hab, l, g, hl, ha, hb⟩
  · rintro (⟨hab, l, g, hl, ha, hb⟩ | ⟨hxy, hab⟩)
    · exact ⟨hab, l, g, (find?_groups_join now life l g).2 (.inr ⟨h.not_next hl, hl⟩), ha, hb⟩
    · refine ⟨hab, _, _, (find?_groups_join now life _ _).2 (.inl ⟨rfl, rfl⟩), ?_⟩
      rcases hxy with ⟨rfl, rfl⟩ | ⟨rfl, rfl⟩ <;> simp

theorem Paired.join (h : r.Paired) (hne : x ≠ y) (hx : x ∈ r.vertices) (hy : y ∈ r.vertices)
    (apart : ¬ r.graph.Adj x y) (now life : Nat) : (r.join [x, y] now life).2.Paired := by
  -- a new group never meets an old one: the old one would be an edge between `x` and `y`
  have clash {a b l : Nat} {g : Group} (hab : a ≠ b) (ha : a ∈ [x, y]) (hb : b ∈ [x, y])
      (hl : r.groups.find? l = some g) (ha' : a ∈ g.participants) (hb' : b ∈ g.participants) :
      False := by
    have adj : r.graph.Adj a b := graph_adj.2 ⟨hab, l, g, hl, ha', hb'⟩
    rcases List.mem_pair.1 ha with rfl | rfl <;> rcases List.mem_pair.1 hb with rfl | rfl
    · exact hab rfl
    · exact apart adj
    · exact apart adj.symm
    · exact hab rfl
  constructor
  · intro l g hl
    rcases (find?_groups_join now life l g).1 hl with ⟨rfl, rfl⟩ | ⟨-, hl⟩
    · exact ⟨rfl, Nat.le_refl _⟩
    · exact ⟨(h.id hl).1, Nat.le_succ_of_le (h.id hl).2⟩
  · intro l g hl
    rcases (find?_groups_join now life l g).1 hl with ⟨-, rfl⟩ | ⟨-, hl⟩
    · exact ⟨rfl, x, y, rfl, hne, hx, hy⟩
    · exact h.pair hl
  · intro a b l m g g' hab hl ha hb hm ha' hb'
    rcases (find?_groups_join now life l g).1 hl with ⟨el, rfl⟩ | ⟨-, hl⟩ <;>
      rcases (find?_groups_join now life m g').1 hm with ⟨em, rfl⟩ | ⟨-, hm⟩
    · exact el.trans em.symm
    · exact (clash hab ha hb hm ha' hb').elim
    · exact (clash hab ha' hb' hl ha hb).elim
    · exact h.once hab hl ha hb hm ha' hb'

theorem find?_groups_removeGroup (l : Nat) (g : Group) :
    (r.removeGroup k).groups.find? l = some g ↔ k ≠ l ∧ r.groups.find? l = some g := by
  rw [removeGroup, Table.find?_erase]
  split <;> simp [*]

/-- **A group that goes is an edge that goes.** -/
theorem Paired.graph_removeGroup (h : r.Paired) (hk : r.groups.find? k = some g) (hne : x ≠ y)
    (hg : ∀ z, z ∈ g.participants ↔ z = x ∨ z = y) :
    (r.removeGroup k).graph = r.graph.deleteEdges {s(x, y)} := by
  ext a b
  rw [SimpleGraph.deleteEdges_adj, graph_adj, graph_adj, Set.mem_singleton_iff, Sym2.eq_iff]
  constructor
  · rintro ⟨hab, l, g', hl, ha, hb⟩
    obtain ⟨hkl, hl⟩ := (find?_groups_removeGroup l g').1 hl
    refine ⟨⟨hab, l, g', hl, ha, hb⟩, fun hxy => hkl ?_⟩
    have both : a ∈ g.participants ∧ b ∈ g.participants := by
      rw [hg, hg]
      rcases hxy with ⟨rfl, rfl⟩ | ⟨rfl, rfl⟩ <;> simp
    exact h.once hab hk both.1 both.2 hl ha hb
  · rintro ⟨⟨hab, l, g', hl, ha, hb⟩, hxy⟩
    refine ⟨hab, l, g', (find?_groups_removeGroup l g').2 ⟨?_, hl⟩, ha, hb⟩
    rintro rfl
    obtain rfl := Option.some.inj (hk.symm.trans hl)
    rcases (hg a).1 ha with rfl | rfl <;> rcases (hg b).1 hb with rfl | rfl <;> simp_all

/-- The group that is found between two handles is an edge of the first, and to the second if that
is another; without the group, the edge is gone. -/
theorem Paired.part (h : r.Paired) (hk : r.between? x y = some k) :
    ∃ z g, r.groups.find? k = some g ∧ x ∈ g.participants ∧ z ∈ g.participants ∧ r.graph.Adj x z ∧
      (x ≠ y → y = z) ∧ (r.removeGroup k).graph = r.graph.deleteEdges {s(x, z)} := by
  obtain ⟨g, hg, hx, hy⟩ := h.of_between? hk
  obtain ⟨z, hne, members⟩ := h.other hg hx
  have hz : z ∈ g.participants := (members z).2 (.inr rfl)
  refine ⟨z, g, hg, hx, hz, graph_adj.2 ⟨hne, k, g, hg, hx, hz⟩, ?_,
    h.graph_removeGroup hg hne members⟩
  intro hxy
  exact ((members y).1 hy).resolve_left hxy.symm

theorem Paired.removeGroup (h : r.Paired) (k : Nat) : (r.removeGroup k).Paired where
  id hl := h.id ((find?_groups_removeGroup _ _).1 hl).2
  pair hl := h.pair ((find?_groups_removeGroup _ _).1 hl).2
  once hne hl hx hy hm := h.once hne ((find?_groups_removeGroup _ _).1 hl).2 hx hy
    ((find?_groups_removeGroup _ _).1 hm).2

/-! ## Leaving -/

/-- The register without a handle and without the groups that break when it leaves. -/
def drop (r : Register) (x : Nat) : Register :=
  ({ r with handles := r.handles.erase x }.detach x).2

theorem vertices_drop (r : Register) (x : Nat) : (r.drop x).vertices = r.vertices \ {x} := by
  ext y
  change (r.handles.erase x).contains y = true ↔ r.contains y = true ∧ ¬ y = x
  rw [Table.contains_erase, Bool.and_eq_true, Bool.not_eq_true', decide_eq_false_iff_not, and_comm,
    @eq_comm _ x]
  rfl

theorem Paired.isBroken_without (h : r.Paired) (hk : r.groups.find? k = some g)
    (hx : x ∈ g.participants) : (g.without x).isBroken = true := by
  obtain ⟨-, a, b, hg, hne, -, -⟩ := h.pair hk
  rw [hg] at hx
  rcases List.mem_pair.1 hx with rfl | rfl
  · simp [Group.isBroken, Group.without, hg, hne.symm]
  · simp [Group.isBroken, Group.without, hg, hne]

theorem Paired.isBroken_eq_false (h : r.Paired) (hk : r.groups.find? k = some g) :
    g.isBroken = false := by
  obtain ⟨-, a, b, hg, -, -, -⟩ := h.pair hk
  simp [Group.isBroken, hg]

theorem without_eq_self (hx : x ∉ g.participants) : g.without x = g := by
  have all : g.participants.filter (· ≠ x) = g.participants :=
    List.filter_eq_self.2 fun y hy => decide_eq_true fun e => hx (e ▸ hy)
  rw [Group.without, all]

/-- Exactly the groups of the handle break. -/
theorem Paired.find?_groups_drop (h : r.Paired) (x l : Nat) (g : Group) :
    (r.drop x).groups.find? l = some g ↔ r.groups.find? l = some g ∧ x ∉ g.participants := by
  rw [drop, detach, Table.find?_filter, Table.find?_map, Option.filter_eq_some_iff,
    Bool.not_eq_true']
  cases hl : r.groups.find? l with
  | none => simp
  | some g' =>
    rw [Option.map_some, Option.some.injEq, Option.some.injEq]
    by_cases hx : x ∈ g'.participants
    · refine iff_of_false ?_ ?_
      · rintro ⟨rfl, hb⟩
        exact absurd (h.isBroken_without hl hx) (by simp [hb])
      · rintro ⟨rfl, hx'⟩
        exact hx' hx
    · rw [without_eq_self hx]
      constructor
      · rintro ⟨rfl, -⟩
        exact ⟨rfl, hx⟩
      · rintro ⟨rfl, -⟩
        exact ⟨rfl, h.isBroken_eq_false hl⟩

/-- **A handle that leaves takes its edges along**, and no others. -/
theorem Paired.graph_drop (h : r.Paired) (x : Nat) :
    (r.drop x).graph = r.graph.deleteIncidenceSet x := by
  ext a b
  rw [SimpleGraph.deleteIncidenceSet_adj, graph_adj, graph_adj]
  constructor
  · rintro ⟨hab, l, g, hl, ha, hb⟩
    obtain ⟨hl, hx⟩ := (h.find?_groups_drop x l g).1 hl
    exact ⟨⟨hab, l, g, hl, ha, hb⟩, fun e => hx (e ▸ ha), fun e => hx (e ▸ hb)⟩
  · rintro ⟨⟨hab, l, g, hl, ha, hb⟩, hax, hbx⟩
    refine ⟨hab, l, g, (h.find?_groups_drop x l g).2 ⟨hl, fun hx => ?_⟩, ha, hb⟩
    -- `a` and `b` are the two members of the group, so `x` is not a third
    obtain ⟨c, -, hg⟩ := h.other hl hx
    rcases (hg a).1 ha with rfl | rfl
    · exact hax rfl
    · rcases (hg b).1 hb with rfl | rfl
      · exact hbx rfl
      · exact hab rfl

theorem Paired.drop (h : r.Paired) (x : Nat) : (r.drop x).Paired where
  id hl := h.id ((h.find?_groups_drop x _ _).1 hl).1
  pair hl := by
    obtain ⟨hl, hx⟩ := (h.find?_groups_drop x _ _).1 hl
    obtain ⟨kind, a, b, hg, hne, ha, hb⟩ := h.pair hl
    rw [hg] at hx
    rw [vertices_drop]
    refine ⟨kind, a, b, hg, hne, ⟨ha, ?_⟩, ⟨hb, ?_⟩⟩
    · rintro rfl
      exact hx (List.mem_pair.2 (.inl rfl))
    · rintro rfl
      exact hx (List.mem_pair.2 (.inr rfl))
  once hne hl ha hb hm := h.once hne ((h.find?_groups_drop x _ _).1 hl).1 ha hb
    ((h.find?_groups_drop x _ _).1 hm).1

end

end GovernedQuantum.Register
