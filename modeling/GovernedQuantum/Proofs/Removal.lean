import GovernedQuantum.Proofs.RegisterGraph
import Mathlib.Data.List.Sort

/-!
# Taking a handle out of the register

A session only ever joins two handles, but a register holds groups of any size, and they may overlap
in any way. This file says what becomes of such a register when one handle leaves it.

* `Register.inconsistencies_eq_nil_iff`: what a register without inconsistencies is.
* `Group.remainder?`: what is left of a group when a handle leaves.
* `Register.Built`: the registers that the operations make. Their groups stand under their own
  numbers (`Built.numbered`).
* `Register.remove_exact`: **removal is exact**. Pairs of the handle dissolve, larger groups lose
  the handle and nothing else, and all else stays.
-/

namespace GovernedQuantum

/-! ## One group -/

namespace Group

variable {g g' : Group} {x y z : Nat}

/-- Two or more members, each once. -/
def Sound (g : Group) : Prop := 2 ≤ g.participants.length ∧ g.participants.Nodup

/-- **What is left of a group** when a handle leaves: a group without the handle stays as it is, a
pair is gone, and a larger group keeps its other members in their order. -/
def remainder? (g : Group) (x : Nat) : Option Group :=
  if x ∉ g.participants then some g
  else if g.participants.length = 2 then none
  else some { g with participants := g.participants.erase x }

/-- A group has no defects when it is sound and its members are live. -/
theorem defects_eq_nil_iff {isLive : Nat → Bool} :
    g.defects isLive = [] ↔ g.Sound ∧ ∀ m ∈ g.participants, isLive m = true := by
  simp only [defects, Sound, List.append_eq_nil_iff, ite_eq_right_iff, List.cons_ne_nil, imp_false,
    Nat.not_lt, ite_eq_left_iff, Decidable.not_not, List.map_eq_nil_iff, List.filter_eq_nil_iff,
    Bool.not_eq_true', Bool.not_eq_false]

namespace Sound

theorem without_eq_erase (sound : g.Sound) (x : Nat) :
    g.without x = { g with participants := g.participants.erase x } := by
  have same : g.participants.filter (· ≠ x) = g.participants.erase x := by
    rw [sound.2.erase_eq_filter]
    exact List.filter_congr fun y _ => by rw [bne, beq_eq_decide, decide_not]
  rw [without, same]

/-- **Exactly the pairs of a handle break** when it leaves. -/
theorem isBroken_without (sound : g.Sound) :
    (g.without x).isBroken = true ↔ x ∈ g.participants ∧ g.participants.length = 2 := by
  have size := sound.1
  rw [isBroken, decide_eq_true_eq]
  by_cases member : x ∈ g.participants
  · rw [sound.without_eq_erase, List.length_erase_of_mem member, and_iff_right member]
    omega
  · rw [Register.without_eq_self member]
    exact iff_of_false (Nat.not_lt.2 size) fun both => member both.1

/-- Where it does not break, the group without the handle is what is left of it. -/
theorem filter_without (sound : g.Sound) :
    (some (g.without x)).filter (fun g => !g.isBroken) = g.remainder? x := by
  rw [remainder?, Option.filter_some]
  split
  · rename_i stays
    have whole : ¬ (x ∈ g.participants ∧ g.participants.length = 2) :=
      sound.isBroken_without.not.1 (by simpa using stays)
    split
    · rename_i out
      rw [Register.without_eq_self out]
    · rename_i member
      rw [if_neg fun two => whole ⟨Decidable.not_not.1 member, two⟩, sound.without_eq_erase]
  · rename_i breaks
    obtain ⟨member, two⟩ := sound.isBroken_without.1 (by simpa using breaks)
    rw [if_neg (not_not_intro member), if_pos two]

/-- The members that are left are the others. -/
theorem mem_remainder (sound : g.Sound) (left : g.remainder? x = some g') :
    z ∈ g'.participants ↔ z ∈ g.participants ∧ z ≠ x := by
  rw [remainder?] at left
  split at left
  · rename_i out
    obtain rfl := Option.some.inj left
    exact ⟨fun hz => ⟨hz, fun e => out (e ▸ hz)⟩, And.left⟩
  · split at left
    · cases left
    · obtain rfl := Option.some.inj left
      rw [sound.2.mem_erase_iff, and_comm]

/-- What is left of a sound group is sound. -/
theorem remainder (sound : g.Sound) (left : g.remainder? x = some g') : g'.Sound := by
  rw [remainder?] at left
  split at left
  · obtain rfl := Option.some.inj left
    exact sound
  · rename_i member
    split at left
    · cases left
    · rename_i larger
      obtain rfl := Option.some.inj left
      refine ⟨?_, sound.2.erase x⟩
      have size := sound.1
      rw [List.length_erase_of_mem (Decidable.not_not.1 member)]
      omega

end Sound

/-- A group with two members besides the handle is no pair of the handle. -/
theorem exists_remainder (hy : y ∈ g.participants) (hz : z ∈ g.participants) (hyz : y ≠ z)
    (hyx : y ≠ x) (hzx : z ≠ x) : ∃ g', g.remainder? x = some g' := by
  rw [remainder?]
  split
  · exact ⟨_, rfl⟩
  · rename_i member
    split
    · rename_i two
      obtain ⟨a, b, pair⟩ := List.length_eq_two.1 two
      rw [pair] at hy hz member
      simp only [List.mem_cons, List.not_mem_nil, or_false, not_not] at hy hz member
      omega
    · exact ⟨_, rfl⟩

end Group

namespace Register

variable {r r' : Register} {x y k : Nat} {g : Group}

/-! ## Consistent registers -/

/-- **A register is consistent** when its groups are sound and their members live. -/
theorem inconsistencies_eq_nil_iff :
    r.inconsistencies = [] ↔ ∀ k g, r.groups.find? k = some g →
      g.Sound ∧ ∀ m ∈ g.participants, r.contains m = true := by
  simp only [inconsistencies, List.flatMap_eq_nil_iff, List.map_eq_nil_iff, Table.mem_values_iff,
    forall_exists_index, Group.defects_eq_nil_iff]
  exact forall_comm

/-! ## Registers that the operations make -/

/-- What the operations of a register **make from an empty one**, with changes to its handles at any
time. -/
inductive Built : Register → Prop
  | new : Built {}
  | insert {r : Register} (h : Handle) : Built r → Built (r.insert h)
  | modify {r : Register} (id : Nat) (f : Handle → Handle) : Built r → Built (r.modify id f)
  | mapHandles {r : Register} (f : Handle → Handle) : Built r → Built (r.mapHandles f)
  | join {r : Register} (participants : List Nat) (now life : Nat) :
      Built r → Built (r.join participants now life).2
  | removeGroup {r : Register} (id : Nat) : Built r → Built (r.removeGroup id)
  | detach {r : Register} (id : Nat) : Built r → Built (r.detach id).2
  | remove {r r' : Register} {id : Nat} {h : Handle} {dissolved : List Nat} :
      r.remove id = some (h, dissolved, r') → Built r → Built r'

/-- Every group stands under its own number. -/
def Numbered (r : Register) : Prop := ∀ k g, r.groups.find? k = some g → g.id = k

theorem Numbered.detach (numbered : r.Numbered) (x : Nat) : (r.detach x).2.Numbered := by
  intro k g hk
  rw [Register.detach, Table.find?_filter, Table.find?_map, Option.filter_eq_some_iff,
    Option.map_eq_some_iff] at hk
  obtain ⟨⟨g, hg, rfl⟩, -⟩ := hk
  exact numbered k g hg

/-- The register after a removal is the one without the handle and the groups that break. -/
theorem remove_eq (r : Register) (x : Nat) :
    r.remove x = (r.handle? x).map fun h =>
      (h, ({ r with handles := r.handles.erase x }.detach x).1, r.drop x) := rfl

/-- **Groups of a register stand under their own numbers**, whatever was done to it. -/
theorem Built.numbered (built : r.Built) : r.Numbered := by
  induction built with
  | new => exact fun _ _ hk => absurd hk (by simp)
  | insert _ _ ih => exact ih
  | modify _ _ _ ih => exact ih
  | mapHandles _ _ ih => exact ih
  | join participants now life _ ih =>
    intro k g hk
    rw [Register.join, Table.find?_insert] at hk
    split at hk
    · rename_i hnew
      rw [← Option.some.inj hk, ← hnew]
    · exact ih k g hk
  | removeGroup _ _ ih =>
    intro k g hk
    exact ih k g ((find?_groups_removeGroup k g).1 hk).2
  | detach _ _ ih => exact ih.detach _
  | @remove r r' x h dissolved hr _ ih =>
    rw [remove_eq, Option.map_eq_some_iff] at hr
    obtain ⟨_, -, same⟩ := hr
    obtain ⟨-, -, rfl⟩ := Prod.mk.injEq .. ▸ same
    exact Numbered.detach (r := { r with handles := r.handles.erase x }) ih x

/-! ## What leaves and what stays -/

/-- The pairs of a handle, in the order of the register. -/
def pairsOf (r : Register) (x : Nat) : List Group :=
  (r.groupsOf x).filter fun g => g.participants.length = 2

/-- In a register with numbered groups, pairs are listed in ascending order of their numbers. -/
theorem Numbered.pairsOf_ascending (numbered : r.Numbered) (x : Nat) :
    ((r.pairsOf x).map (·.id)).Pairwise (· < ·) := by
  have byNumber : (r.groups.values.map (·.id)).Pairwise (· < ·) := by
    rw [Table.values, List.map_map, List.pairwise_map]
    refine r.groups.ascending.imp_of_mem ?_
    rintro ⟨k, g⟩ ⟨l, g'⟩ hk hl hkl
    have hg : g.id = k := numbered k g (Table.find?_eq_some_iff.2 hk)
    have hg' : g'.id = l := numbered l g' (Table.find?_eq_some_iff.2 hl)
    show g.id < g'.id
    rw [hg, hg']
    exact hkl
  rw [List.pairwise_map] at byNumber ⊢
  exact (byNumber.filter _).filter _

section Consistent

variable (consistent : r.inconsistencies = [])
include consistent

theorem sound_of_find? (hk : r.groups.find? k = some g) : g.Sound :=
  (inconsistencies_eq_nil_iff.1 consistent k g hk).1

/-- **The groups that dissolve are the pairs of the handle.** -/
theorem dissolved_eq (x : Nat) : (r.detach x).1 = (r.pairsOf x).map (·.id) := by
  have breaks : ∀ g ∈ r.groups.values,
      (g.without x).isBroken = (decide (g.participants.length = 2) && g.contains x) := by
    intro g hg
    obtain ⟨k, hk⟩ := Table.mem_values_iff.1 hg
    have h := (sound_of_find? consistent hk).isBroken_without (x := x)
    rw [Bool.eq_iff_iff, h, Bool.and_eq_true, decide_eq_true_eq, Group.contains, decide_eq_true_eq,
      and_comm]
  have filtered : ((r.groups.map fun _ g => g.without x).filter fun _ g => g.isBroken).values =
      (r.groups.values.filter fun g => (g.without x).isBroken).map (·.without x) := by
    simp only [Table.values, Table.filter, Table.map, List.filter_map, List.map_map]
    rfl
  rw [detach, filtered, List.map_map, List.filter_congr breaks, pairsOf, groupsOf,
    List.filter_filter]
  rfl

/-- **Each group keeps what is left of it**, and no group is new. -/
theorem find?_groups_drop (x k : Nat) :
    (r.drop x).groups.find? k = (r.groups.find? k).bind (·.remainder? x) := by
  rw [drop, detach, Table.find?_filter, Table.find?_map]
  cases hk : r.groups.find? k with
  | none => rfl
  | some g => exact (sound_of_find? consistent hk).filter_without

/-- A group of the register without the handle is what is left of one group. -/
theorem find?_groups_drop_eq_some (hk : (r.drop x).groups.find? k = some g) :
    ∃ g₀, r.groups.find? k = some g₀ ∧ g₀.Sound ∧ g₀.remainder? x = some g := by
  rw [find?_groups_drop consistent] at hk
  obtain ⟨g₀, hg₀, left⟩ := Option.bind_eq_some_iff.1 hk
  exact ⟨g₀, hg₀, sound_of_find? consistent hg₀, left⟩

/-- The register without the handle is consistent again. -/
theorem inconsistencies_drop (x : Nat) : (r.drop x).inconsistencies = [] := by
  rw [inconsistencies_eq_nil_iff]
  intro k g hk
  obtain ⟨g₀, hg₀, sound, left⟩ := find?_groups_drop_eq_some consistent hk
  refine ⟨sound.remainder left, fun m hm => ?_⟩
  obtain ⟨hm, hne⟩ := (sound.mem_remainder left).1 hm
  have live : m ∈ r.vertices := (inconsistencies_eq_nil_iff.1 consistent k g₀ hg₀).2 m hm
  have stays : m ∈ (r.drop x).vertices := by
    rw [vertices_drop]
    exact ⟨live, hne⟩
  exact stays

/-- Handles that both stay share a group as before: what they shared was no pair of the handle. -/
theorem mem_partners_drop {z : Nat} (hyx : y ≠ x) :
    z ∈ (r.drop x).partners y ↔ z ∈ r.partners y ∧ z ≠ x := by
  rw [mem_partners, mem_partners]
  constructor
  · rintro ⟨hzy, k, g, hk, hy, hz⟩
    obtain ⟨g₀, hg₀, sound, left⟩ := find?_groups_drop_eq_some consistent hk
    rw [sound.mem_remainder left] at hy hz
    exact ⟨⟨hzy, k, g₀, hg₀, hy.1, hz.1⟩, hz.2⟩
  · rintro ⟨⟨hzy, k, g, hk, hy, hz⟩, hzx⟩
    have sound := sound_of_find? consistent hk
    obtain ⟨g', left⟩ := Group.exists_remainder hy hz hzy.symm hyx hzx
    refine ⟨hzy, k, g', ?_, (sound.mem_remainder left).2 ⟨hy, hyx⟩,
      (sound.mem_remainder left).2 ⟨hz, hzx⟩⟩
    rw [find?_groups_drop consistent, hk]
    exact left

/-- **Every other handle loses one partner at most**, and its list of partners stays in order. -/
theorem partners_drop (hyx : y ≠ x) :
    (r.drop x).partners y = (r.partners y).filter (· ≠ x) := by
  have ascending (r : Register) : (r.partners y).Pairwise (· < ·) :=
    List.pairwise_map.2 (Table.ascending _)
  refine (ascending _).eq_of_mem_iff ((ascending _).filter _) fun z => ?_
  rw [mem_partners_drop consistent hyx, List.mem_filter, decide_eq_true_eq]

end Consistent

/-! ## Removal -/

/-- **An exact removal** of the handle `x` from `r`: what is handed back, what dissolves, and what
is left. -/
structure Removal (r : Register) (x : Nat) (h : Handle) (dissolved : List Nat) (r' : Register) :
    Prop where
  returned : r.handle? x = some h
  pairs : dissolved = (r.pairsOf x).map (·.id)
  ascending : r.Built → dissolved.Pairwise (· < ·)
  consistent : r'.inconsistencies = []
  groups : ∀ k, r'.groups.find? k = (r.groups.find? k).bind (·.remainder? x)
  handles : ∀ y, r'.handle? y = if x = y then none else r.handle? y
  partners : ∀ y, y ≠ x → r'.partners y = (r.partners y).filter (· ≠ x)
  counter : r'.lastGroup = r.lastGroup

/-- **Removal is exact.** From a register without inconsistencies, whatever the sizes of its groups
and however they overlap, every live handle can be removed: its pairs dissolve, its larger groups
lose it and nothing else, and every other group, handle and list of partners stays. -/
theorem remove_exact (r : Register) (x : Nat) (consistent : r.inconsistencies = [])
    (live : r.contains x = true) :
    ∃ h dissolved r', r.remove x = some (h, dissolved, r') ∧ r.Removal x h dissolved r' := by
  obtain ⟨h, hh⟩ := Table.contains_eq_true_iff.1 live
  have pairs : ({ r with handles := r.handles.erase x }.detach x).1 = (r.pairsOf x).map (·.id) :=
    dissolved_eq consistent x
  refine ⟨h, _, r.drop x, by rw [remove_eq, handle?, hh, Option.map_some], ?_⟩
  constructor
  · exact hh
  · exact pairs
  · intro built
    rw [pairs]
    exact built.numbered.pairsOf_ascending x
  · exact inconsistencies_drop consistent x
  · exact find?_groups_drop consistent x
  · exact fun y => Table.find?_erase r.handles x y
  · exact fun y hyx => partners_drop consistent hyx
  · rfl

/-- Four handles in a group of three and two pairs that overlap with it. -/
def overlapping : Register :=
  let handles := [1, 2, 3, 4].foldl (fun r n => r.insert (.allocate n "q" 2 0 10)) ({} : Register)
  let groups := [[1, 2], [2, 3, 4], [1, 3], [4, 2]]
  groups.foldl (fun r members => (r.join members 0 10).2) handles

/-- Handle 2 leaves two pairs and the group of three, which stays with the members 3 and 4. -/
theorem remove_exact_overlapping :
    ∃ h r', overlapping.remove 2 = some (h, [1, 4], r') ∧
      overlapping.Removal 2 h [1, 4] r' ∧ r'.partners 4 = [3] := by
  obtain ⟨h, dissolved, r', removed, removal⟩ :=
    remove_exact overlapping 2 (by decide +kernel) (by decide +kernel)
  have pairs : dissolved = [1, 4] := removal.pairs.trans (by decide +kernel)
  have others : r'.partners 4 = [3] := (removal.partners 4 (by decide)).trans (by decide +kernel)
  subst pairs
  exact ⟨h, r', removed, removal, others⟩

end Register

end GovernedQuantum
