import GovernedQuantum.Proofs.Cycles

/-!
# Names own handles

Of all that instructions do, little touches who owns which qudit. This file singles that out, and
states the books that every session keeps: each name was given one handle, for good, and the handle
is live until the name is consumed.

* `Tables.SameQudits`: the same owners over the same entanglements.
* `Tables.QuditEffect`: what an instruction that took effect did to qudits, one of five things.
* `Tables.Owned`: the books are in order. `Session.owned_stable`: **they stay so for life.**
-/

namespace GovernedQuantum

/-! ## Handles that stay -/

namespace Handle

/-- What never changes about a live qudit. -/
def identity (h : Handle) : Nat × String × Nat := (h.id, h.name, h.dimension)

@[simp] theorem identity_touch (h : Handle) (now : Nat) : (h.touch now).identity = h.identity := rfl

@[simp] theorem identity_resetDeadline (h : Handle) (now life : Nat) :
    (h.resetDeadline now life).identity = h.identity := rfl

@[simp] theorem identity_expire (h : Handle) (now : Nat) :
    (h.expire now).identity = h.identity := by
  unfold expire
  split <;> rfl

end Handle

/-- The same live qudits in the same groups; deadlines and gates may differ. -/
structure Register.SameQudits (r r' : Register) : Prop where
  identity : ∀ x, (r'.handle? x).map Handle.identity = (r.handle? x).map Handle.identity
  groups : r'.groups = r.groups
  lastGroup : r'.lastGroup = r.lastGroup

namespace Register

namespace SameQudits

variable {r r' r'' : Register}

theorem refl (r : Register) : r.SameQudits r := ⟨fun _ => rfl, rfl, rfl⟩

theorem trans (h : r.SameQudits r') (g : r'.SameQudits r'') : r.SameQudits r'' :=
  ⟨fun x => (g.identity x).trans (h.identity x), g.groups.trans h.groups,
    g.lastGroup.trans h.lastGroup⟩

theorem contains (h : r.SameQudits r') (x : Nat) : r'.contains x = r.contains x := by
  have hx := congrArg Option.isSome (h.identity x)
  rwa [Option.isSome_map, Option.isSome_map] at hx

/-- A handle that is live afterwards was live before, under the same number and name. -/
theorem handle (h : r.SameQudits r') {x : Nat} {q : Handle} (hq : r'.handle? x = some q) :
    ∃ p, r.handle? x = some p ∧ p.id = q.id ∧ p.name = q.name := by
  have hx := h.identity x
  rw [hq, Option.map_some] at hx
  obtain ⟨p, hp, he⟩ := Option.map_eq_some_iff.1 hx.symm
  obtain ⟨hid, hn⟩ := Prod.mk.inj he
  exact ⟨p, hp, hid, (Prod.mk.inj hn).1⟩

theorem keys_perm (h : r.SameQudits r') : r'.handles.keys.Perm r.handles.keys := by
  refine (List.perm_ext_iff_of_nodup (Table.keys_nodup _) (Table.keys_nodup _)).2 fun x => ?_
  rw [Table.mem_keys_iff_contains, Table.mem_keys_iff_contains]
  exact iff_of_eq (congrArg (· = true) (h.contains x))

end SameQudits

theorem modify_sameQudits (r : Register) (x : Nat) {f : Handle → Handle}
    (hf : ∀ h, (f h).identity = h.identity) : r.SameQudits (r.modify x f) := by
  refine ⟨fun y => ?_, rfl, rfl⟩
  rw [modify, handle?, handle?, Table.find?_modify]
  split
  · rw [Option.map_map]
    exact congrArg (Option.map · _) (funext hf)
  · rfl

theorem modify_pair_sameQudits (r : Register) (x y : Nat) {f : Handle → Handle}
    (hf : ∀ h, (f h).identity = h.identity) : r.SameQudits ((r.modify x f).modify y f) :=
  (r.modify_sameQudits x hf).trans (modify_sameQudits _ y hf)

theorem mapHandles_sameQudits (r : Register) {f : Handle → Handle}
    (hf : ∀ h, (f h).identity = h.identity) : r.SameQudits (r.mapHandles f) := by
  refine ⟨fun y => ?_, rfl, rfl⟩
  rw [mapHandles, handle?, handle?, Table.find?_map, Option.map_map]
  exact congrArg (Option.map · _) (funext hf)

end Register

/-! ## What instructions do to qudits -/

namespace Tables

section Spend

variable (t : Tables) (name : String) (x : Nat)

theorem handle?_spend (y : Nat) :
    (t.spend name x).register.handle? y = if x = y then none else t.register.handle? y :=
  Table.find?_erase t.register.handles x y

theorem contains_spend (y : Nat) :
    (t.spend name x).register.contains y = (!decide (x = y) && t.register.contains y) :=
  Table.contains_erase t.register.handles x y

theorem usage_spend : (t.spend name x).usage = t.usage.insert name (t.usageOf name + 1) := rfl

theorem usageOf_spend (n : String) :
    (t.spend name x).usageOf n = if name = n then t.usageOf name + 1 else t.usageOf n := by
  rw [usageOf, usage_spend, Table.getD, Table.find?_insert]
  split <;> rfl

end Spend

/-- The same owners over the same qudits. -/
structure SameQudits (t u : Tables) : Prop where
  register : t.register.SameQudits u.register
  bindings : u.bindings = t.bindings
  usage : u.usage = t.usage

theorem SameQudits.refl (t : Tables) : t.SameQudits t := ⟨.refl _, rfl, rfl⟩

theorem SameQudits.resolve {t u : Tables} (h : t.SameQudits u) (n : String) :
    u.resolve n = t.resolve n := by
  have used : u.usageOf n = t.usageOf n := by rw [usageOf, usageOf, h.usage]
  rw [Tables.resolve, Tables.resolve, h.bindings]
  cases t.bindings.find? n with
  | none => rfl
  | some x =>
    dsimp only
    rw [used, h.register.contains]

/-- **What an instruction did to qudits**: it allocated one, joined two, parted two, took one away,
or left them all where they were. -/
inductive QuditEffect (t : Tables) (i : Instruction) (next : Nat) : Tables → Nat → Prop
  | allocate {q : Handle} {u : Tables} (op : i.opcode = .allocQudit)
      (unbound : t.bindings.find? (i.arg 0) = none) (id : q.id = next) (name : q.name = i.arg 0)
      (same : SameQudits
        { t with
          register := t.register.insert q, bindings := t.bindings.insert (i.arg 0) next } u) :
      QuditEffect t i next u (next + 1)
  | entangle {x y now life : Nat} {u : Tables} (op : i.opcode = .entangle)
      (distinct : i.arg 0 ≠ i.arg 1) (left : t.resolve (i.arg 0) = .ok x)
      (right : t.resolve (i.arg 1) = .ok y) (apart : t.register.between? x y = none)
      (same : SameQudits { t with register := (t.register.join [x, y] now life).2 } u) :
      QuditEffect t i next u next
  | disentangle {x y g : Nat} {u : Tables} (op : i.opcode = .disentangle)
      (left : t.resolve (i.arg 0) = .ok x) (right : t.resolve (i.arg 1) = .ok y)
      (joined : t.register.between? x y = some g)
      (same : SameQudits { t with register := t.register.removeGroup g } u) :
      QuditEffect t i next u next
  | consume {x : Nat} {u : Tables} (op : i.opcode.isConsuming = true)
      (operand : t.resolve (i.arg 0) = .ok x) (same : SameQudits (t.spend (i.arg 0) x) u) :
      QuditEffect t i next u next
  | keep {u : Tables} (alloc : i.opcode ≠ .allocQudit) (join : i.opcode ≠ .entangle)
      (part : i.opcode ≠ .disentangle) (consume : i.opcode.isConsuming = false)
      (same : SameQudits t u) : QuditEffect t i next u next

/-- Uses are never taken back. -/
theorem QuditEffect.usageOf_le {t u : Tables} {i : Instruction} {next n : Nat}
    (h : t.QuditEffect i next u n) (name : String) : t.usageOf name ≤ u.usageOf name := by
  have same {t u : Tables} (hs : t.SameQudits u) : u.usageOf name = t.usageOf name := by
    rw [usageOf, usageOf, hs.usage]
  cases h with
  | allocate _ _ _ _ hs | entangle _ _ _ _ _ hs | disentangle _ _ _ _ hs | keep _ _ _ _ hs =>
    exact Nat.le_of_eq (same hs).symm
  | consume _ _ hs =>
    rw [same hs, usageOf_spend]
    split
    · rename_i hn
      exact hn ▸ Nat.le_succ _
    · exact Nat.le_refl _

/-- An allocation took effect under a new name. -/
theorem QuditEffect.unbound_of_allocates {t u : Tables} {i : Instruction} {next n : Nat}
    (h : t.QuditEffect i next u n) {name : String} (hi : i.Allocates name) :
    t.bindings.find? name = none := by
  obtain ⟨op, rfl⟩ := hi
  cases h with
  | allocate _ unbound => exact unbound
  | entangle op' | disentangle op' => exact absurd (op.symm.trans op') (by simp)
  | consume op' => exact absurd (op ▸ op') (by simp [Opcode.isConsuming])
  | keep alloc => exact absurd op alloc

end Tables

/-- Every effect is one of the five. -/
theorem Session.Effect.qudits {π γ κ : Type} [Physics π] [Coordinator κ] {s t : Session π γ κ}
    {i : Instruction} (h : s.Effect i t) :
    s.tables.QuditEffect i s.nextHandle t.tables t.nextHandle := by
  have keep {u : Tables} (hi : i.opcode ≠ .allocQudit ∧ i.opcode ≠ .entangle ∧
      i.opcode ≠ .disentangle ∧ i.opcode.isConsuming = false) (hu : s.tables.SameQudits u) :
      s.tables.QuditEffect i s.nextHandle u s.nextHandle :=
    .keep hi.1 hi.2.1 hi.2.2.1 hi.2.2.2 hu
  cases h with
  | allocate op unbound literal => exact .allocate op unbound rfl rfl (.refl _)
  | entangle op distinct left right apart =>
    exact .entangle op distinct left.resolves right.resolves apart
      ⟨Register.modify_pair_sameQudits _ _ _ (Handle.identity_resetDeadline · _ _), rfl, rfl⟩
  | disentangle op left right joined =>
    exact .disentangle op left.resolves right.resolves joined
      ⟨Register.modify_pair_sameQudits _ _ _ (Handle.identity_touch · _), rfl, rfl⟩
  | applyGate op operand =>
    exact keep (by simp [op, Opcode.isConsuming])
      ⟨Register.modify_sameQudits _ _ fun h => (h.applyGate (i.arg 0)).identity_touch _, rfl, rfl⟩
  | measure op operand =>
    exact .consume (by rw [op]; rfl) operand.resolves ⟨.refl _, rfl, rfl⟩
  | release op operand => exact .consume (by rw [op]; rfl) operand.resolves (.refl _)
  | teleport op operand => exact .consume (by rw [op]; rfl) operand.resolves ⟨.refl _, rfl, rfl⟩
  | declare op => exact keep (by simp [op, Opcode.isConsuming]) ⟨.refl _, rfl, rfl⟩
  | govern known change =>
    rw [change.eq]
    refine keep ?_ ⟨.refl _, rfl, rfl⟩
    cases change <;> simp [*, Opcode.isConsuming]
  | bind op => exact keep (by simp [op, Opcode.isConsuming]) ⟨.refl _, rfl, rfl⟩
  | print op => exact keep (by simp [op, Opcode.isConsuming]) (.refl _)
  | targetNode op => exact keep (by simp [op, Opcode.isConsuming]) ⟨.refl _, rfl, rfl⟩
  | channel op => exact keep (by simp [op, Opcode.isConsuming]) ⟨.refl _, rfl, rfl⟩
  | barrier op => exact keep (by simp [op, Opcode.isConsuming]) ⟨.refl _, rfl, rfl⟩
  | window op => exact keep (by simp [op, Opcode.isConsuming]) ⟨.refl _, rfl, rfl⟩
  | entangleRemote op =>
    exact keep (by simp [op, Opcode.isConsuming])
      ⟨Register.modify_sameQudits _ _ (Handle.identity_touch · _), rfl, rfl⟩
  | swap op =>
    exact keep (by simp [op, Opcode.isConsuming])
      ⟨Register.modify_pair_sameQudits _ _ _ (Handle.identity_touch · _), rfl, rfl⟩

/-- An instruction that took effect found its operands live. -/
theorem Session.Effect.resolves {π γ κ : Type} [Physics π] [Coordinator κ] {s t : Session π γ κ}
    {i : Instruction} (h : s.Effect i t) {r : String} (hr : r ∈ i.resources) :
    ∃ x, s.tables.resolve r = .ok x := by
  obtain ⟨k, operand⟩ := List.getElem?_of_mem hr
  obtain ⟨x, found⟩ := h.finds operand
  exact ⟨x, found.resolves⟩

/-! ## The books -/

theorem Register.handle?_insert (r : Register) (q : Handle) (x : Nat) :
    (r.insert q).handle? x = if q.id = x then some q else r.handle? x :=
  Table.find?_insert r.handles q.id x q

theorem Register.contains_insert (r : Register) (q : Handle) (x : Nat) :
    (r.insert q).contains x = (decide (q.id = x) || r.contains x) :=
  Table.contains_insert r.handles q.id x q

namespace Tables

/-- **The books are in order**: a name has one handle, no other name has it, and it is live exactly
until the name is consumed, which happens once. Numbers from `next` on have not been given away. -/
structure Owned (t : Tables) (next : Nat) : Prop where
  supply : ∀ {n x}, t.bindings.find? n = some x → x < next
  injective : ∀ {n m x}, t.bindings.find? n = some x → t.bindings.find? m = some x → n = m
  owner : ∀ {x q}, t.register.handle? x = some q → q.id = x ∧ t.bindings.find? q.name = some x
  balance : ∀ {n x}, t.bindings.find? n = some x →
    t.usageOf n = if t.register.contains x = true then 0 else 1
  unbound : ∀ {n}, t.bindings.find? n = none → t.usage.find? n = none

namespace Owned

variable {t u : Tables} {next : Nat}

theorem empty (next : Nat) : Owned {} next where
  supply h := absurd h (by simp)
  injective h := absurd h (by simp)
  owner h := absurd h (by simp [Register.handle?])
  balance h := absurd h (by simp)
  unbound _ := rfl

theorem of_le (h : t.Owned next) {more : Nat} (hle : next ≤ more) : t.Owned more :=
  { h with supply := fun hx => Nat.lt_of_lt_of_le (h.supply hx) hle }

theorem of_same (h : t.Owned next) (same : t.SameQudits u) : u.Owned next where
  supply hx := h.supply (same.bindings ▸ hx)
  injective hn hm := h.injective (same.bindings ▸ hn) (same.bindings ▸ hm)
  owner hq := by
    obtain ⟨p, hp, hid, hn⟩ := same.register.handle hq
    rw [← hid, ← hn, same.bindings]
    exact h.owner hp
  balance hx := by
    rw [usageOf, same.usage, same.register.contains]
    exact h.balance (same.bindings ▸ hx)
  unbound hn := by
    rw [same.usage]
    exact h.unbound (same.bindings ▸ hn)

/-- Groups are not in the books. -/
theorem regroup (h : t.Owned next) (r : Register) (hr : r.handles = t.register.handles) :
    Owned { t with register := r } next where
  supply := h.supply
  injective := h.injective
  owner hq := h.owner (by rwa [Register.handle?, ← hr])
  balance hx := (h.balance hx).trans (by rw [Register.contains, Register.contains, hr])
  unbound := h.unbound

/-- A name is unused while its handle is live. -/
theorem usageOf_of_live (h : t.Owned next) {n : String} {x : Nat}
    (hn : t.bindings.find? n = some x) (hx : t.register.contains x = true) : t.usageOf n = 0 := by
  rw [h.balance hn, if_pos hx]

theorem resolve (h : t.Owned next) {n : String} {x : Nat} (hn : t.bindings.find? n = some x)
    (hx : t.register.contains x = true) : t.resolve n = .ok x :=
  resolve_eq_ok_iff.2 ⟨hn, h.usageOf_of_live hn hx, hx⟩

/-- Nothing is live under a number that has not been given away. -/
theorem handle?_next (h : t.Owned next) : t.register.handle? next = none := by
  cases hq : t.register.handle? next with
  | none => rfl
  | some q => exact absurd (h.supply (h.owner hq).2) (Nat.lt_irrefl next)

/-- A name is used at most once. -/
theorem usageOf_le_one (h : t.Owned next) (n : String) : t.usageOf n ≤ 1 := by
  cases hn : t.bindings.find? n with
  | none =>
    rw [usageOf, Table.getD, h.unbound hn, Option.getD_none]
    exact Nat.zero_le 1
  | some x =>
    rw [h.balance hn]
    split <;> omega

/-- A new name is given the next handle. -/
theorem allocate (h : t.Owned next) {name : String} {q : Handle}
    (hn : t.bindings.find? name = none) (id : q.id = next) (hq : q.name = name) :
    Owned { t with register := t.register.insert q, bindings := t.bindings.insert name next }
      (next + 1) := by
  have fresh : ∀ {n x}, t.bindings.find? n = some x → name ≠ n ∧ next ≠ x := by
    intro n x hx
    refine ⟨?_, Nat.ne_of_gt (h.supply hx)⟩
    rintro rfl
    rw [hn] at hx
    exact absurd hx (by simp)
  have unused : t.usageOf name = 0 := by rw [usageOf, Table.getD, h.unbound hn, Option.getD_none]
  constructor
  · intro n x hx
    rw [Table.find?_insert] at hx
    split at hx
    · rw [← Option.some.inj hx]
      exact Nat.lt_succ_self next
    · exact Nat.lt_succ_of_lt (h.supply hx)
  · intro n m x hx hy
    rw [Table.find?_insert] at hx hy
    split at hx <;> split at hy
    · rename_i hnn hnm
      exact hnn.symm.trans hnm
    · exact absurd (Option.some.inj hx) (fresh hy).2
    · exact absurd (Option.some.inj hy) (fresh hx).2
    · exact h.injective hx hy
  · intro x p hp
    rw [Register.handle?_insert] at hp
    rw [Table.find?_insert]
    split at hp
    · rename_i hx
      obtain rfl := Option.some.inj hp
      exact ⟨hx, by rw [if_pos hq.symm, ← id, hx]⟩
    · obtain ⟨hid, hb⟩ := h.owner hp
      exact ⟨hid, by rw [if_neg (fresh hb).1, hb]⟩
  · intro n x hx
    rw [Table.find?_insert] at hx
    rw [Register.contains_insert, id]
    change t.usageOf n = _
    split at hx
    · rename_i hnn
      obtain rfl := Option.some.inj hx
      subst hnn
      simpa using unused
    · simpa [(fresh hx).2] using h.balance hx
  · intro n hx
    rw [Table.find?_insert] at hx
    split at hx
    · exact absurd hx (by simp)
    · exact h.unbound hx

/-- A name that resolves is consumed, and no other name notices. -/
theorem spend (h : t.Owned next) {name : String} {x : Nat} (hx : t.resolve name = .ok x) :
    (t.spend name x).Owned next := by
  obtain ⟨hb, hu, hl⟩ := resolve_eq_ok_iff.1 hx
  constructor
  · exact h.supply
  · exact h.injective
  · intro y q hq
    rw [handle?_spend] at hq
    split at hq
    · exact absurd hq (by simp)
    · exact h.owner hq
  · intro n y hn
    rw [usageOf_spend, contains_spend]
    by_cases hname : name = n
    · subst hname
      obtain rfl := Option.some.inj (hb.symm.trans hn)
      simp [hu]
    · have hxy : x ≠ y := by
        rintro rfl
        exact hname (h.injective hb hn)
      simpa [hname, hxy] using h.balance hn
  · intro n hn
    have hname : name ≠ n := by
      rintro rfl
      exact absurd (hb.symm.trans hn) (by simp)
    rw [usage_spend, Table.find?_insert, if_neg hname]
    exact h.unbound hn

/-- Every effect keeps the books in order. -/
theorem effect (h : t.Owned next) {i : Instruction} {n : Nat} (he : t.QuditEffect i next u n) :
    u.Owned n := by
  cases he with
  | allocate op unbound id name same => exact (h.allocate unbound id name).of_same same
  | entangle op distinct left right apart same =>
    exact (h.regroup (t.register.join [_, _] _ _).2 rfl).of_same same
  | disentangle op left right joined same =>
    exact (h.regroup (t.register.removeGroup _) rfl).of_same same
  | consume op operand same => exact (h.spend operand).of_same same
  | keep _ _ _ _ same => exact h.of_same same

end Owned

end Tables

namespace Session

variable {π γ κ : Type}

/-- A session that has carried nothing out. -/
def IsFresh (s : Session π γ κ) : Prop := s.tables = {}

theorem fireTimers_sameQudits (s : Session π γ κ) : s.tables.SameQudits s.fireTimers.tables :=
  ⟨Register.mapHandles_sameQudits _ (Handle.identity_expire · _), rfl, rfl⟩

theorem IsFresh.owned {s : Session π γ κ} (fresh : s.IsFresh) : s.tables.Owned s.nextHandle := by
  rw [fresh]
  exact .empty _

theorem Alike.owned {s t : Session π γ κ} (same : s.Alike t) (h : s.tables.Owned s.nextHandle) :
    t.tables.Owned t.nextHandle :=
  same.tables ▸ h.of_le same.supply

theorem fireTimers_owned {s : Session π γ κ} (h : s.tables.Owned s.nextHandle) :
    s.fireTimers.tables.Owned s.fireTimers.nextHandle :=
  h.of_same s.fireTimers_sameQudits

variable [Physics π] [Coordinator κ]

/-- What an attempt that took effect did to qudits. -/
theorem attempt_qudits {s t : Session π γ κ} {i : Instruction} (done : s.attempt i = .done t) :
    s.tables.QuditEffect i s.nextHandle t.tables t.nextHandle :=
  (attempt_done_iff.1 done).qudits

theorem attempt_owned {s t : Session π γ κ} {i : Instruction} (done : s.attempt i = .done t)
    (h : s.tables.Owned s.nextHandle) : t.tables.Owned t.nextHandle :=
  h.effect (attempt_qudits done)

/-- **The books stay in order for life.** -/
theorem owned_stable : Stable fun _ (s : Session π γ κ) => s.tables.Owned s.nextHandle where
  still h same := same.owned h
  timers := fireTimers_owned
  effect h done := attempt_owned done h

end Session

end GovernedQuantum
