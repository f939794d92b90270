import GovernedQuantum.Proofs.History
import GovernedQuantum.Proofs.Ownership

/-!
# No cloning

A qudit that is measured, released or teleported leaves the register for good. This file follows
every handle that was ever given away: it is live, or it stands in exactly one record, in exactly
one ticket of a teleportation, or its release is on the log.

* `Tables.Leaves`: the three exits of a handle.
* `Tables.Ledger`: where the handles are. `Session.ledger_stable`: **the ledger is kept for life**,
  if tickets echo what was asked for.
* `Session.NoCloning`: what the books and the ledger say together.
* `Session.no_cloning`: **no session ever clones a qudit**, and a name once consumed is of no use.
-/

namespace GovernedQuantum

/-- Every ticket is about what was asked for. -/
def Coordinator.Echoes (κ : Type) [Coordinator κ] : Prop :=
  ∀ (c : κ) (request : DelegationRequest) (ticket : Ticket),
    (Coordinator.delegate c request).1 = .ok ticket → ticket.request = request

/-! ## Where handles go -/

namespace Tables

/-- Handles of the measured qudits, in order. -/
def recorded (t : Tables) : List Nat := t.records.toList.map (·.handle)

/-- Tickets of the teleported qudits, in order. -/
def teleports (t : Tables) : List Ticket :=
  t.network.delegations.toList.filter (·.request.kind = .teleport)

/-- Handles of the teleported qudits, in order. -/
def teleported (t : Tables) : List Nat := t.teleports.flatMap (·.request.handles)

theorem teleports_filed (t : Tables) (ticket : Ticket) :
    (t.filed ticket).teleports =
      if ticket.request.kind = .teleport then t.teleports ++ [ticket] else t.teleports := by
  rw [teleports, filed, Array.toList_push, List.filter_append]
  by_cases h : ticket.request.kind = .teleport
  · simp [h, teleports]
  · simp [h, teleports]

/-- The handle `x` leaves by one of three exits. -/
inductive Leaves (t u : Tables) (i : Instruction) (x : Nat) : Prop
  | measured (op : i.opcode = .measure) (records : u.recorded = t.recorded ++ [x])
      (tickets : u.teleports = t.teleports)
  | released (op : i.opcode = .release) (records : u.recorded = t.recorded)
      (tickets : u.teleports = t.teleports)
  | teleported (ticket : Ticket) (op : i.opcode = .teleport) (records : u.recorded = t.recorded)
      (handles : ticket.request.handles = [x]) (tickets : u.teleports = t.teleports ++ [ticket])

end Tables

/-! ## Exits -/

namespace Session.Effect

variable {π γ κ : Type} [Physics π] [Coordinator κ] {s t : Session π γ κ} {i : Instruction}

/-- An instruction that consumes nothing adds neither a record nor a teleportation. -/
theorem stays (echo : Coordinator.Echoes κ) (h : s.Effect i t)
    (hi : i.opcode.isConsuming = false) :
    t.tables.recorded = s.tables.recorded ∧ t.tables.teleports = s.tables.teleports := by
  cases h with
  | measure op | release op | teleport op =>
    rw [op] at hi
    exact absurd hi (by simp [Opcode.isConsuming])
  | @entangleRemote x ticket c key p op operand accepted keyed =>
    have request : ticket.request = _ := echo _ _ _ (congrArg Prod.fst accepted)
    refine ⟨rfl, ?_⟩
    rw [tables_withTables, Tables.teleports_filed, if_neg]
    · rfl
    · rw [Ticket.withKey, request, requestFor_remote _ op]
      simp [delegationRequest]
  | swap op distinct left right accepted =>
    have request := echo _ _ _ (congrArg Prod.fst accepted)
    refine ⟨rfl, ?_⟩
    rw [tables_withTables, Tables.teleports_filed, if_neg]
    · rfl
    · rw [request, requestFor_swap _ op]
      simp [delegationRequest]
  | _ => exact ⟨rfl, rfl⟩

/-- A consumed qudit is recorded, released or teleported. -/
theorem leaves (echo : Coordinator.Echoes κ) (h : s.Effect i t)
    (hi : i.opcode.isConsuming = true) {x : Nat} (hx : s.tables.resolve (i.arg 0) = .ok x) :
    s.tables.Leaves t.tables i x := by
  cases h with
  | measure op operand live measured =>
    obtain rfl := Except.ok.inj (operand.resolves.symm.trans hx)
    refine .measured op ?_ rfl
    rw [tables_withTables, Tables.recorded, Array.toList_push, List.map_append]
    rfl
  | release op operand => exact .released op rfl rfl
  | @teleport y q ticket c fidelity p op operand live accepted estimated =>
    obtain rfl := Except.ok.inj (operand.resolves.symm.trans hx)
    have request : ticket.request = s.requestFor i [y] :=
      echo _ _ _ (congrArg Prod.fst accepted)
    rw [requestFor_teleport _ op] at request
    refine .teleported (ticket.withFidelity fidelity) op rfl ?_ ?_
    · rw [Ticket.withFidelity, request]
      rfl
    · rw [tables_withTables, Tables.teleports_filed, if_pos]
      · rfl
      · rw [Ticket.withFidelity, request]
        rfl
  | govern known change => cases change <;> simp_all [Opcode.isConsuming]
  | _ => simp_all [Opcode.isConsuming]

end Session.Effect

/-! ## The ledger -/

/-- Completed releases on a log. -/
def releases (h : List Instruction) : Nat := h.countP (·.opcode = .release)

namespace Tables

/-- **Where the handles are**: every handle that a name was given is live, recorded, teleported or
released, each in one place only. -/
structure Ledger (t : Tables) (h : List Instruction) : Prop where
  single : ∀ ticket ∈ t.teleports, ticket.request.handles.length = 1
  books : ∃ released : List Nat, released.length = releases h ∧
    t.bindings.values.Perm (t.register.handles.keys ++ (t.recorded ++ (t.teleported ++ released)))

namespace Ledger

variable {t u : Tables} {h : List Instruction} {i : Instruction} {next n : Nat}

theorem empty : Ledger {} [] := ⟨by simp [teleports], [], rfl, .refl _⟩

theorem length_teleported (hl : t.Ledger h) : t.teleported.length = t.teleports.length := by
  have one : t.teleports.map (fun ticket => ticket.request.handles.length) =
      t.teleports.map fun _ => 1 :=
    List.map_congr_left hl.single
  rw [teleported, List.length_flatMap, one]
  simp

/-- Nothing leaves the register. -/
theorem keep (hl : t.Ledger h) (hi : i.opcode.isConsuming = false)
    (books : ∀ rest, t.bindings.values.Perm (t.register.handles.keys ++ rest) →
      u.bindings.values.Perm (u.register.handles.keys ++ rest))
    (same : u.recorded = t.recorded ∧ u.teleports = t.teleports) : u.Ledger (h ++ [i]) := by
  obtain ⟨released, hr, hp⟩ := hl.books
  have hi : i.opcode ≠ .release := by
    intro op
    rw [op] at hi
    exact absurd hi (by simp [Opcode.isConsuming])
  refine ⟨same.2 ▸ hl.single, released, ?_, ?_⟩
  · rw [hr, releases, releases, List.countP_append]
    simp [hi]
  · rw [same.1, teleported, same.2]
    exact books _ hp

/-- A handle leaves the register and is noted elsewhere. -/
theorem move (hl : t.Ledger h) {x : Nat} (bindings : u.bindings = t.bindings)
    (keys : t.register.handles.keys.Perm (x :: u.register.handles.keys))
    (single : ∀ ticket ∈ u.teleports, ticket ∈ t.teleports ∨ ticket.request.handles = [x])
    (noted : ∀ released : List Nat, released.length = releases h →
      ∃ more : List Nat, more.length = releases (h ++ [i]) ∧
        (x :: (t.recorded ++ (t.teleported ++ released))).Perm
          (u.recorded ++ (u.teleported ++ more))) : u.Ledger (h ++ [i]) := by
  obtain ⟨released, hr, hp⟩ := hl.books
  obtain ⟨more, hm, hn⟩ := noted released hr
  refine ⟨fun ticket hk => ?_, more, hm, ?_⟩
  · rcases single ticket hk with hk | hk
    · exact hl.single ticket hk
    · rw [hk, List.length_singleton]
  · rw [bindings]
    calc t.bindings.values.Perm
          (t.register.handles.keys ++ (t.recorded ++ (t.teleported ++ released))) := hp
      List.Perm _ (x :: u.register.handles.keys ++ (t.recorded ++ (t.teleported ++ released))) :=
          keys.append_right _
      List.Perm _ (u.register.handles.keys ++ x :: (t.recorded ++ (t.teleported ++ released))) :=
          List.perm_middle.symm
      List.Perm _ (u.register.handles.keys ++ (u.recorded ++ (u.teleported ++ more))) :=
          hn.append_left _

/-- By whichever exit a handle leaves, it is noted there. -/
theorem leave (hl : t.Ledger h) {x : Nat} (bindings : u.bindings = t.bindings)
    (keys : t.register.handles.keys.Perm (x :: u.register.handles.keys)) (exit : t.Leaves u i x) :
    u.Ledger (h ++ [i]) := by
  cases exit with
  | measured op hr ht =>
    refine hl.move bindings keys (fun k hk => .inl (ht ▸ hk)) fun released hlen => ⟨released,
      ?_, ?_⟩
    · rw [hlen, releases, releases, List.countP_append]
      simp [op]
    · rw [hr, teleported, teleported, ht, List.append_assoc]
      exact List.perm_middle.symm
  | released op hr ht =>
    refine hl.move bindings keys (fun k hk => .inl (ht ▸ hk)) fun released hlen =>
      ⟨released ++ [x], ?_, ?_⟩
    · rw [List.length_append, hlen, releases, releases, List.countP_append]
      simp [op]
    · rw [hr, teleported, teleported, ht, ← List.append_assoc, ← List.append_assoc,
        ← List.append_assoc]
      exact (List.perm_append_singleton x _).symm
  | teleported ticket op hr hk ht =>
    refine hl.move bindings keys (fun k hk' => ?_) fun released hlen => ⟨released, ?_, ?_⟩
    · rw [ht, List.mem_append, List.mem_singleton] at hk'
      rcases hk' with hk' | rfl
      · exact .inl hk'
      · exact .inr hk
    · rw [hlen, releases, releases, List.countP_append]
      simp [op]
    · rw [hr, teleported, teleported, ht, List.flatMap_append, List.flatMap_singleton, hk,
        List.append_assoc _ [x]]
      exact List.perm_middle.symm.trans (List.perm_middle.symm.append_left _)

/-- Whatever is done to qudits, the ledger has it, if those that leave are noted. -/
theorem effect (hl : t.Ledger h) (owned : t.Owned next) (he : t.QuditEffect i next u n)
    (stays : i.opcode.isConsuming = false → u.recorded = t.recorded ∧ u.teleports = t.teleports)
    (leaves : i.opcode.isConsuming = true → ∀ {x}, t.resolve (i.arg 0) = .ok x → t.Leaves u i x) :
    u.Ledger (h ++ [i]) := by
  have stay {v : Tables} (hi : i.opcode.isConsuming = false) (same : v.SameQudits u)
      (bindings : v.bindings = t.bindings) (handles : v.register.handles = t.register.handles) :
      u.Ledger (h ++ [i]) := by
    refine hl.keep hi (fun rest hp => ?_) (stays hi)
    rw [same.bindings, bindings]
    rw [← handles] at hp
    exact hp.trans (same.register.keys_perm.symm.append_right rest)
  cases he with
  | @allocate q u op unbound id name same =>
    have hi : i.opcode.isConsuming = false := by rw [op]; rfl
    refine hl.keep hi (fun rest hp => ?_) (stays hi)
    have dead : t.register.handles.find? q.id = none := id ▸ owned.handle?_next
    have keys : u.register.handles.keys.Perm (q.id :: t.register.handles.keys) :=
      same.register.keys_perm.trans (Table.keys_insert_perm q dead)
    rw [same.bindings, ← id]
    calc (t.bindings.insert (i.arg 0) q.id).values.Perm (q.id :: t.bindings.values) :=
          Table.values_insert_perm q.id unbound
      List.Perm _ (q.id :: (t.register.handles.keys ++ rest)) := hp.cons q.id
      List.Perm _ (u.register.handles.keys ++ rest) := (keys.append_right rest).symm
  | entangle op distinct left right apart same => exact stay (by rw [op]; rfl) same rfl rfl
  | disentangle op left right joined same => exact stay (by rw [op]; rfl) same rfl rfl
  | keep alloc join part hi same => exact stay hi same rfl rfl
  | @consume x u hi operand same =>
    have live := (resolve_eq_ok_iff.1 operand).2.2
    have keys : t.register.handles.keys.Perm (x :: u.register.handles.keys) :=
      (Table.keys_erase_perm live).trans (same.register.keys_perm.symm.cons x)
    exact hl.leave same.bindings keys (leaves hi operand)

end Ledger

end Tables

namespace Session

variable {π γ κ : Type} [Physics π] [Coordinator κ]

/-- Every effect keeps the ledger. -/
theorem Effect.ledger (echo : Coordinator.Echoes κ) {s t : Session π γ κ} {h : List Instruction}
    {i : Instruction} (he : s.Effect i t) (owned : s.tables.Owned s.nextHandle)
    (hl : s.tables.Ledger h) : t.tables.Ledger (h ++ [i]) :=
  hl.effect owned he.qudits (he.stays echo) (he.leaves echo)

/-- **The ledger is kept for life.** -/
theorem ledger_stable (echo : Coordinator.Echoes κ) :
    Stable fun h (s : Session π γ κ) => s.tables.Owned s.nextHandle ∧ s.tables.Ledger h where
  still := by
    rintro h s t ⟨owned, hl⟩ same
    exact ⟨same.owned owned, same.tables ▸ hl⟩
  timers := by
    rintro h s ⟨owned, hl⟩
    have keys := s.fireTimers_sameQudits.register.keys_perm
    obtain ⟨released, hr, hp⟩ := hl.books
    exact ⟨fireTimers_owned owned, hl.single, released, hr, hp.trans (keys.symm.append_right _)⟩
  effect := by
    rintro h s t i ⟨owned, hl⟩ done
    exact ⟨attempt_owned done owned, (attempt_done_iff.1 done).ledger echo owned hl⟩

/-! ## No cloning -/

/-- A name that is consumed stays so. -/
theorem consumed_stable (n : String) :
    Stable fun _ (s : Session π γ κ) => s.tables.Owned s.nextHandle ∧ s.tables.usageOf n = 1 where
  still h same := ⟨same.owned h.1, same.tables ▸ h.2⟩
  timers h := ⟨fireTimers_owned h.1, h.2⟩
  effect h done := by
    have owned := attempt_owned done h.1
    have grown := (attempt_qudits done).usageOf_le n
    have bound := owned.usageOf_le_one n
    exact ⟨owned, by omega⟩

/-- An instruction on a consumed name fails and leaves everything alone. -/
theorem attempt_of_consumed {s : Session π γ κ} {n : String} (owned : s.tables.Owned s.nextHandle)
    (used : s.tables.usageOf n = 1) {i : Instruction} (hi : n ∈ i.resources ∨ i.Allocates n) :
    ∃ f t, s.attempt i = .failed f t ∧ s.Untouched t := by
  cases ha : s.attempt i with
  | failed f t => exact ⟨f, t, rfl, (attempt_failed_iff.1 ha).untouched⟩
  | done t =>
    exfalso
    have effect := attempt_done_iff.1 ha
    rcases hi with hi | hi
    · obtain ⟨x, hx⟩ := effect.resolves hi
      have unused := (Tables.resolve_eq_ok_iff.1 hx).2.1
      omega
    · have unbound := effect.qudits.unbound_of_allocates hi
      rw [Tables.usageOf, Table.getD, owned.unbound unbound, Option.getD_none] at used
      exact absurd used (by decide)

/-- **What a session knows of its qudits**, `h` being what has taken effect in it. -/
structure NoCloning (h : List Instruction) (s : Session π γ κ) : Prop where
  /-- No two names have one handle. -/
  injective : ∀ n m x, s.tables.bindings.find? n = some x →
    s.tables.bindings.find? m = some x → n = m
  /-- No name is consumed twice. -/
  usage : ∀ n, s.tables.usageOf n ≤ 1
  /-- The handle of a name is live, or the name is consumed, and not both. -/
  balance : ∀ n x, s.tables.bindings.find? n = some x →
    Xor (s.tables.register.contains x = true) (s.tables.usageOf n = 1)
  unbound : ∀ n, s.tables.bindings.find? n = none → s.tables.usage.find? n = none
  /-- A live handle is bound by its own name and by no other. -/
  owner : ∀ x q, s.tables.register.handle? x = some q →
    q.id = x ∧ ∀ n, s.tables.bindings.find? n = some x ↔ n = q.name
  /-- Live, recorded and teleported handles are all different. -/
  distinct : (s.tables.register.handles.keys ++ s.tables.recorded ++ s.tables.teleported).Nodup
  /-- Nothing is lost either. -/
  accounts : s.tables.bindings.size = s.tables.register.handles.size + s.tables.records.size +
    s.tables.teleports.length + releases h

omit [Coordinator κ] [Physics π] in
/-- Books and ledger leave no room for a second copy. -/
theorem noCloning_of_ledger {h : List Instruction} {s : Session π γ κ}
    (owned : s.tables.Owned s.nextHandle) (hl : s.tables.Ledger h) : s.NoCloning h := by
  obtain ⟨released, hr, hp⟩ := hl.books
  constructor
  case injective =>
    intro n m x
    exact owned.injective
  case usage => exact owned.usageOf_le_one
  case balance =>
    intro n x hn
    rw [owned.balance hn]
    by_cases live : s.tables.register.contains x = true
    · exact .inl ⟨live, by simp [live]⟩
    · exact .inr ⟨by simp [live], live⟩
  case unbound =>
    intro n
    exact owned.unbound
  case owner =>
    intro x q hq
    obtain ⟨hid, hb⟩ := owned.owner hq
    exact ⟨hid, fun n => ⟨fun hn => owned.injective hn hb, fun hn => hn ▸ hb⟩⟩
  case distinct =>
    have nodup := hp.nodup_iff.1 (Table.values_nodup owned.injective)
    rw [← List.append_assoc, ← List.append_assoc] at nodup
    exact nodup.of_append_left
  case accounts =>
    have total := hp.length_eq
    simp only [List.length_append, Table.length_values, Table.length_keys, hl.length_teleported, hr,
      Tables.recorded, List.length_map, Array.length_toList] at total
    omega

/-- **No session ever clones a qudit.** If tickets echo what was asked for, then through every run
and every answer a name has one handle of its own, which is live or gone for good; and once a name
is consumed, whatever the session becomes, no instruction on the name takes effect. -/
theorem no_cloning [Gateway γ] (echo : Coordinator.Echoes κ) {s₀ s : Session π γ κ}
    {h : List Instruction} (fresh : s₀.IsFresh) (life : s₀.Evolves h s) :
    s.NoCloning h ∧ ∀ n, s.tables.usageOf n = 1 → ∀ h' s', s.Evolves h' s' →
      ∀ i : Instruction, n ∈ i.resources ∨ i.Allocates n →
        ∃ f t, s'.attempt i = .failed f t ∧ s'.Untouched t := by
  have start : s₀.tables.Ledger [] := by
    rw [fresh]
    exact .empty
  obtain ⟨owned, hl⟩ := (ledger_stable echo).evolves ⟨fresh.owned, start⟩ life
  refine ⟨noCloning_of_ledger owned hl, fun n used h' s' later i hi => ?_⟩
  obtain ⟨owned', used'⟩ := (consumed_stable n).evolves ⟨owned, used⟩ later
  exact attempt_of_consumed owned' used' hi

/-- Four qudits: one is measured, one released, one teleported and one kept. -/
def departures : Program where
  instructions :=
    [⟨.allocQudit, ["a", "2"], {}⟩, ⟨.allocQudit, ["b", "2"], {}⟩, ⟨.allocQudit, ["c", "3"], {}⟩,
      ⟨.allocQudit, ["d", "2"], {}⟩, ⟨.entangle, ["a", "d"], {}⟩, ⟨.measure, ["a"], {}⟩,
      ⟨.release, ["b"], {}⟩, ⟨.teleport, ["c", "remote"], {}⟩]

/-- In a session that carries `departures` out twice, the measured name is of no more use. -/
theorem no_cloning_departures :
    Coordinator.Echoes Loopback ∧ (standard 1 {}).IsFresh ∧
      ((standard 1 {}).run departures none).NoCloning ((standard 1 {}).runLog departures none) ∧
      ((standard 1 {}).run departures none).tables.usageOf "a" = 1 ∧
      ∃ f t, (((standard 1 {}).run departures none).run departures none).attempt
        ⟨.measure, ["a"], {}⟩ = .failed f t ∧
          (((standard 1 {}).run departures none).run departures none).Untouched t := by
  have echo : Coordinator.Echoes Loopback := fun c request ticket h => by
    rw [← Except.ok.inj h]
    rfl
  have fresh : (standard 1 {}).IsFresh := rfl
  have used : ((standard 1 {}).run departures none).tables.usageOf "a" = 1 := by decide +kernel
  obtain ⟨clean, later⟩ := no_cloning echo fresh (.run .new departures none)
  exact ⟨echo, fresh, clean, used,
    later "a" used _ _ (.run .new departures none) _ (.inl (List.mem_singleton.2 rfl))⟩

end Session

end GovernedQuantum
