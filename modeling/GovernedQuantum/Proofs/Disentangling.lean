import GovernedQuantum.Proofs.GroupConsistency

/-!
# Disentangling

An instruction that disentangles looks for the first group that holds both of its operands. Where
the operands are two, that group joins exactly the two, and they are parted and nobody else. Where
one qudit is named twice, every group that holds it will do: the first one goes, and the qudit is
parted from the partner that it has had the longest.

* `Register.Parts`: two handles are parted, and no other pair notices.
* `Register.LongestPartner`: the partner in the group with the lowest number.
* `Register.Paired.between?_le`: the group that is found has the lowest number.
* `Session.disentangling`: **every completed disentangling parts one pair**, the one that was asked
  for exactly where the two names differ.
-/

namespace GovernedQuantum

namespace Register

variable {r r' : Register} {x y k l : Nat} {g : Group}

/-! ## Parting -/

/-- **Two handles are parted**, and no other pair notices. -/
structure Parts (r r' : Register) (x y : Nat) : Prop where
  distinct : x ≠ y
  live : r.contains x = true ∧ r.contains y = true
  before : y ∈ r.partners x ∧ x ∈ r.partners y
  after : y ∉ r'.partners x ∧ x ∉ r'.partners y
  others : ∀ a b, s(a, b) ≠ s(x, y) → (b ∈ r'.partners a ↔ b ∈ r.partners a)
  handles : ∀ a, r'.contains a = r.contains a

/-- Where an edge goes, its ends are parted. -/
theorem Parts.of_deleteEdges (paired : r.Paired) (linked : r.graph.Adj x y)
    (vertices : r'.vertices = r.vertices) (edges : r'.graph = r.graph.deleteEdges {s(x, y)}) :
    r.Parts r' x y := by
  have adj (a b : Nat) : b ∈ r'.partners a ↔ b ∈ r.partners a ∧ s(a, b) ≠ s(x, y) := by
    change r'.graph.Adj a b ↔ r.graph.Adj a b ∧ _
    rw [edges, SimpleGraph.deleteEdges_adj, Set.mem_singleton_iff]
  constructor
  · exact linked.ne
  · exact paired.adj_live linked
  · exact ⟨linked, linked.symm⟩
  · constructor
    · intro still
      exact ((adj x y).1 still).2 rfl
    · intro still
      exact ((adj y x).1 still).2 Sym2.eq_swap
  · intro a b other
    rw [adj, and_iff_left other]
  · intro a
    exact Bool.eq_iff_iff.2 (Set.ext_iff.1 vertices a)

theorem Parts.of_same {q : Register} (same : r.SameQudits q) (h : q.Parts r' x y) :
    r.Parts r' x y := by
  have partners (a b : Nat) : b ∈ q.partners a ↔ b ∈ r.partners a := by
    change q.graph.Adj a b ↔ r.graph.Adj a b
    rw [same.graph]
  constructor
  · exact h.distinct
  · rw [← same.contains, ← same.contains]
    exact h.live
  · rw [← partners, ← partners]
    exact h.before
  · exact h.after
  · intro a b other
    rw [h.others a b other, partners]
  · intro a
    rw [h.handles, same.contains]

/-! ## The group that is found -/

/-- `y` is the partner of `x` in the group with the lowest number, which is the oldest. -/
def LongestPartner (r : Register) (x y : Nat) : Prop :=
  y ≠ x ∧ ∃ k g, r.groups.find? k = some g ∧ x ∈ g.participants ∧ y ∈ g.participants ∧
    ∀ l h, r.groups.find? l = some h → x ∈ h.participants → k ≤ l

theorem LongestPartner.of_same {q : Register} (same : r.SameQudits q) (h : q.LongestPartner x y) :
    r.LongestPartner x y := by
  rw [LongestPartner, same.groups] at h
  exact h

theorem Paired.ids_ascending (h : r.Paired) :
    r.groups.values.Pairwise fun g g' => g.id < g'.id := by
  apply List.pairwise_map.2
  apply r.groups.ascending.imp_of_mem
  intro a b ha hb hab
  rw [(h.id (Table.find?_eq_some_iff.2 ha)).1, (h.id (Table.find?_eq_some_iff.2 hb)).1]
  exact hab

/-- The group that is found between two handles has the lowest number of all that hold both. -/
theorem Paired.between?_le (h : r.Paired) (hk : r.between? x y = some k)
    (hl : r.groups.find? l = some g) (hx : x ∈ g.participants) (hy : y ∈ g.participants) :
    k ≤ l := by
  obtain ⟨first, found, rfl⟩ := Option.map_eq_some_iff.1 hk
  obtain ⟨-, before, after, split, none⟩ := List.find?_eq_some_iff_append.1 found
  have listed : g ∈ before ++ first :: after := by
    rw [← split]
    exact Table.mem_values_iff.2 ⟨l, hl⟩
  rw [← (h.id hl).1]
  rcases List.mem_append.1 listed with hg | hg
  · -- what stands before the first group does not hold both
    exact absurd (none g hg) (by simp [Group.contains, hx, hy])
  · have ascending := h.ids_ascending
    rw [split, List.pairwise_append] at ascending
    rcases List.mem_cons.1 hg with rfl | hg
    · exact Nat.le_refl _
    · exact Nat.le_of_lt ((List.pairwise_cons.1 ascending.2.1).1 g hg)

end Register

/-! ## What a disentangling does -/

namespace Tables

variable {t u : Tables} {i : Instruction} {x y next n : Nat}

/-- The handle of the first operand is parted from the one of the second, or where that is the same
from the partner that it has had the longest. -/
structure PartsOperand (t u : Tables) (i : Instruction) (x y : Nat) : Prop where
  operand : t.resolve (i.arg 0) = .ok x
  parts : t.register.Parts u.register x y
  other : i.arg 0 ≠ i.arg 1 → t.resolve (i.arg 1) = .ok y
  longest : i.arg 0 = i.arg 1 → t.register.LongestPartner x y

/-- **What a disentangling does.** -/
structure Disentangles (t u : Tables) (i : Instruction) : Prop where
  /-- One pair is parted. -/
  one : ∃ x y, t.PartsOperand u i x y
  /-- The handles of the two operands are parted exactly where the names differ. -/
  asked : (∃ x y, t.resolve (i.arg 0) = .ok x ∧ t.resolve (i.arg 1) = .ok y ∧
    t.register.Parts u.register x y) ↔ i.arg 0 ≠ i.arg 1

theorem PartsOperand.disentangles (h : t.PartsOperand u i x y) : t.Disentangles u i := by
  refine ⟨⟨x, y, h⟩, ?_, ?_⟩
  · rintro ⟨a, b, ha, hb, parts⟩ same
    rw [same, hb] at ha
    exact parts.distinct (Except.ok.inj ha).symm
  · intro differ
    exact ⟨x, y, h.operand, h.other differ, h.parts⟩

theorem PartsOperand.of_same {t' : Tables} (same : t.SameQudits t') (h : t'.PartsOperand u i x y) :
    t.PartsOperand u i x y := by
  constructor
  · exact same.resolve _ ▸ h.operand
  · exact h.parts.of_same same.register
  · intro differ
    exact same.resolve _ ▸ h.other differ
  · intro equal
    exact (h.longest equal).of_same same.register

/-- A disentangling that takes effect has found a group that holds both operands, and takes it
away. -/
theorem QuditEffect.of_disentangle (op : i.opcode = .disentangle) (he : t.QuditEffect i next u n) :
    ∃ x y k, t.resolve (i.arg 0) = .ok x ∧ t.resolve (i.arg 1) = .ok y ∧
      t.register.between? x y = some k ∧
      SameQudits { t with register := t.register.removeGroup k } u := by
  cases he with
  | @disentangle x y k u _ left right joined same => exact ⟨x, y, k, left, right, joined, same⟩
  | allocate op' | entangle op' => exact absurd (op.symm.trans op') (by simp)
  | consume op' => exact absurd op' (by simp [op, Opcode.isConsuming])
  | keep alloc join part => exact absurd op part

/-- **The group that goes is one pair.** -/
theorem QuditEffect.partsOperand (owned : t.Owned next) (paired : t.register.Paired)
    (op : i.opcode = .disentangle) (he : t.QuditEffect i next u n) :
    ∃ x y, t.PartsOperand u i x y := by
  obtain ⟨x, y, k, left, right, joined, same⟩ := he.of_disentangle op
  obtain ⟨z, g, hg, hx, hz, linked, other, edges⟩ := paired.part joined
  have edges := same.register.graph.trans edges
  refine ⟨x, z, left, .of_deleteEdges paired linked same.register.vertices edges, ?_, ?_⟩
  · intro differ
    obtain rfl := other (owned.ne_of_resolve differ left right)
    exact right
  · intro equal
    obtain rfl : y = x := by
      rw [equal, right] at left
      exact Except.ok.inj left
    refine ⟨linked.ne.symm, k, g, hg, hx, hz, ?_⟩
    intro l g' hl hx'
    exact paired.between?_le joined hl hx' hx'

end Tables

namespace Session

variable {π γ κ : Type} {s : Session π γ κ} {i : Instruction}

/-- What the group is to two operands, and to one that is named twice. -/
theorem InOrder.between?_iff (inOrder : s.InOrder) {a b : String} {x y : Nat}
    (left : s.tables.resolve a = .ok x) (right : s.tables.resolve b = .ok y) :
    s.tables.register.between? x y ≠ none ↔
      if a = b then ∃ z, z ∈ s.tables.register.partners x
      else y ∈ s.tables.register.partners x := by
  obtain ⟨owned, paired⟩ := inOrder
  by_cases names : a = b
  · obtain rfl : y = x := by
      rw [names, right] at left
      exact Except.ok.inj left
    rw [if_pos names]
    exact paired.between?_self
  · have hne := owned.ne_of_resolve names left right
    rw [if_neg names, Ne, Register.between?_eq_none_iff hne, not_not]
    rfl

variable [Physics π] [Coordinator κ]

/-- A disentangling completes when both operands resolve and a group holds both. -/
theorem disentangle_done_iff_between (op : i.opcode = .disentangle) :
    (∃ t, s.attempt i = .done t) ↔
      ∃ x y, s.tables.resolve (i.arg 0) = .ok x ∧ s.tables.resolve (i.arg 1) = .ok y ∧
        s.tables.register.between? x y ≠ none := by
  constructor
  · rintro ⟨t, done⟩
    obtain ⟨x, y, k, left, right, joined, -⟩ := (attempt_qudits done).of_disentangle op
    refine ⟨x, y, left, right, ?_⟩
    rw [joined]
    exact Option.some_ne_none k
  · rintro ⟨x, y, left, right, joined⟩
    exact (disentangle_done_iff op left right).2 joined

/-- **Every completed disentangling parts one pair**, for life. A disentangling completes where its
two operands are partners, or where its only one has a partner. Then one pair is parted and no other
pair notices; it is the pair that was asked for where the names differ. A qudit that is disentangled
from itself is parted from the partner that it has had the longest. -/
theorem disentangling [Gateway γ] {s₀ : Session π γ κ} {h : List Instruction} (fresh : s₀.IsFresh)
    (life : s₀.Evolves h s) (op : i.opcode = .disentangle) :
    ((∃ t, s.attempt i = .done t) ↔
      ∃ x y, s.tables.resolve (i.arg 0) = .ok x ∧ s.tables.resolve (i.arg 1) = .ok y ∧
        if i.arg 0 = i.arg 1 then ∃ z, z ∈ s.tables.register.partners x
        else y ∈ s.tables.register.partners x) ∧
      (∀ t, s.attempt i = .done t → s.tables.Disentangles t.tables i) ∧
      ∀ index, s.stepLog index i = [i] →
      s.tables.Disentangles (s.step index i).session.tables i := by
  have inOrder : s.InOrder := graph_stable.evolves fresh.inOrder life
  refine ⟨?_, ?_, ?_⟩
  · rw [disentangle_done_iff_between op]
    constructor
    · rintro ⟨x, y, left, right, joined⟩
      exact ⟨x, y, left, right, (inOrder.between?_iff left right).1 joined⟩
    · rintro ⟨x, y, left, right, partners⟩
      exact ⟨x, y, left, right, (inOrder.between?_iff left right).2 partners⟩
  · intro t done
    obtain ⟨x, y, parts⟩ := (attempt_qudits done).partsOperand inOrder.1 inOrder.2 op
    exact parts.disentangles
  · intro index log
    obtain ⟨t, done, ht⟩ := tables_step_of_log log
    -- before the instruction, the cycle has noted deadlines
    obtain ⟨owned, paired⟩ := graph_stable.prepared (h := []) inOrder index i
    have same : s.tables.SameQudits (s.prepared index i).2.tables := by
      rw [(s.prepared_untouched index i).tables]
      exact s.fireTimers_sameQudits
    obtain ⟨x, y, parts⟩ := (attempt_qudits done).partsOperand owned paired op
    rw [ht]
    exact (parts.of_same same).disentangles

/-- The middle of a chain of three, disentangled from itself. -/
def loosen : Instruction := ⟨.disentangle, ["b", "b"], {}⟩

/-- The middle is parted from the first of the three. The handles of the two operands are not
parted: they are one. -/
theorem disentangling_loosen :
    (standard 1 {}).IsFresh ∧ loosen.opcode = .disentangle ∧
      ((standard 1 {}).run chain none).stepLog 0 loosen = [loosen] ∧
      ((standard 1 {}).run chain none).tables.PartsOperand
        (((standard 1 {}).run chain none).step 0 loosen).session.tables loosen 2 1 ∧
      ¬ ∃ x y, ((standard 1 {}).run chain none).tables.resolve "b" = .ok x ∧
        ((standard 1 {}).run chain none).tables.resolve "b" = .ok y ∧
        ((standard 1 {}).run chain none).tables.register.Parts
          (((standard 1 {}).run chain none).step 0 loosen).session.tables.register x y := by
  have fresh : (standard 1 {}).IsFresh := rfl
  have log : ((standard 1 {}).run chain none).stepLog 0 loosen = [loosen] := by decide +kernel
  have loosened := (disentangling fresh (.run .new chain none) (i := loosen) rfl).2.2 0 log
  obtain ⟨x, y, parts⟩ := loosened.one
  have named : ((standard 1 {}).run chain none).tables.bindings.find? "b" = some 2 := by
    decide +kernel
  obtain rfl : x = 2 :=
    Option.some.inj ((Tables.resolve_eq_ok_iff.1 parts.operand).1.symm.trans named)
  have before : ((standard 1 {}).run chain none).tables.register.partners 2 = [1, 3] := by
    decide +kernel
  have after : (((standard 1 {}).run chain none).step 0 loosen).session.tables.register.partners 2 =
      [3] := by
    decide +kernel
  obtain rfl : y = 1 := by
    have was := parts.parts.before.1
    have gone := parts.parts.after.1
    rw [before] at was
    rw [after] at gone
    simp_all
  exact ⟨fresh, rfl, log, parts, fun asked => loosened.asked.1 asked rfl⟩

end Session

end GovernedQuantum
