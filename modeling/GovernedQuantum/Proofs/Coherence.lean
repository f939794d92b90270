import GovernedQuantum.Proofs.Leaks

/-!
# Flags and deadlines

A handle says in two places whether its qudit is coherent. It has a deadline, and it has a flag,
which is set when somebody notices that the deadline has passed. Deadlines are noticed late, or not
at all, and an entanglement renews them; yet the flag never says more than the deadline, as long as
time does not run backwards.

* `Register.KeepsFlags`: no flag was touched, and no deadline behind a flag that is set.
* `Session.Effect.flags`: instructions keep them, and what they allocate is coherent.
* `Register.Noted l`: every flag that is set stands for a deadline that one of the readings `l` has
  passed. `Session.noted_timely`: **it is so for life.**
* `Session.lost_timely`: what is lost stays lost.
* `Session.deadlines_decide`: **coherence is a matter of deadlines**, for instructions, and for the
  scan at the end of a run.
-/

namespace GovernedQuantum

/-! ## Flags -/

/-- The flag is as it was, and so is the deadline if the flag was set. -/
structure Handle.KeepsFlag (q p : Handle) : Prop where
  flag : p.coherence = q.coherence
  deadline : q.coherence = .decoherent → p.coherenceDeadline = q.coherenceDeadline

theorem Handle.KeepsFlag.refl (q : Handle) : q.KeepsFlag q := ⟨rfl, fun _ => rfl⟩

theorem Handle.KeepsFlag.trans {q p o : Handle} (h : q.KeepsFlag p) (g : p.KeepsFlag o) :
    q.KeepsFlag o :=
  ⟨g.flag.trans h.flag, fun lost => (g.deadline (h.flag.trans lost)).trans (h.deadline lost)⟩

namespace Register

/-- **No flag was touched**, and no deadline behind a flag that is set. Handles may be gone. -/
def KeepsFlags (r r' : Register) : Prop :=
  ∀ x p, r'.handle? x = some p → ∃ q, r.handle? x = some q ∧ q.KeepsFlag p

namespace KeepsFlags

variable {r r' r'' : Register}

theorem of_handles (h : r'.handles = r.handles) : r.KeepsFlags r' := by
  intro x p hp
  rw [handle?, h] at hp
  exact ⟨p, hp, .refl p⟩

theorem trans (h : r.KeepsFlags r') (g : r'.KeepsFlags r'') : r.KeepsFlags r'' := by
  intro x o ho
  obtain ⟨p, hp, kept⟩ := g x o ho
  obtain ⟨q, hq, kept'⟩ := h x p hp
  exact ⟨q, hq, kept'.trans kept⟩

theorem modify (h : r.KeepsFlags r') {y : Nat} {f : Handle → Handle}
    (hf : ∀ p, r'.handle? y = some p → p.KeepsFlag (f p)) : r.KeepsFlags (r'.modify y f) := by
  refine h.trans fun x o ho => ?_
  rw [Register.modify, handle?, Table.find?_modify] at ho
  split at ho
  · rename_i same
    obtain ⟨p, hp, rfl⟩ := Option.map_eq_some_iff.1 ho
    exact ⟨p, hp, hf p (same ▸ hp)⟩
  · exact ⟨o, ho, .refl o⟩

theorem touch (h : r.KeepsFlags r') (y now : Nat) : r.KeepsFlags (r'.modify y (·.touch now)) :=
  h.modify fun _ _ => ⟨rfl, fun _ => rfl⟩

/-- A deadline is renewed where the flag is not set. -/
theorem renew (h : r.KeepsFlags r') {y : Nat} {q : Handle} (hq : r.handle? y = some q)
    (coherent : q.coherence = .coherent) (now life : Nat) :
    r.KeepsFlags (r'.modify y (·.resetDeadline now life)) := by
  refine h.modify fun p hp => ⟨rfl, fun lost => ?_⟩
  obtain ⟨q', hq', kept⟩ := h y p hp
  obtain rfl := Option.some.inj (hq.symm.trans hq')
  exact absurd (coherent.symm.trans (kept.flag.symm.trans lost)) (by simp)

end KeepsFlags

/-- **Every flag that is set stands for a deadline that one of the readings has passed.** -/
def Noted (r : Register) (l : List Nat) : Prop :=
  ∀ x q, r.handle? x = some q → q.coherence = .decoherent → ∃ now ∈ l, q.coherenceDeadline ≤ now

namespace Noted

variable {r : Register} {l : List Nat} {now : Nat} {x : Nat} {q : Handle}

theorem mono (h : r.Noted l) (more : List Nat) : r.Noted (l ++ more) := by
  intro x q hq lost
  obtain ⟨now, hm, late⟩ := h x q hq lost
  exact ⟨now, List.mem_append_left more hm, late⟩

/-- The deadlines that pass are noted. -/
theorem expire (h : r.Noted l) (now : Nat) : (r.mapHandles (·.expire now)).Noted (l ++ [now]) := by
  intro x p hp lost
  rw [mapHandles, handle?, Table.find?_map] at hp
  obtain ⟨q, hq, rfl⟩ := Option.map_eq_some_iff.1 hp
  by_cases passed : q.coherence = .coherent ∧ q.coherenceDeadline ≤ now
  · rw [Handle.expire, if_pos passed]
    exact ⟨now, List.mem_append_right l (List.mem_singleton.2 rfl), passed.2⟩
  · rw [Handle.expire, if_neg passed] at lost ⊢
    exact h.mono [now] x q hq lost

/-- A flag that is set stands for a deadline that has passed, if time has not run backwards. -/
theorem deadline_le (h : r.Noted l) (late : ∀ m ∈ l, m ≤ now) (hq : r.handle? x = some q)
    (lost : q.coherence = .decoherent) : q.coherenceDeadline ≤ now := by
  obtain ⟨m, hm, passed⟩ := h x q hq lost
  exact Nat.le_trans passed (late m hm)

/-- **The flag says no more than the deadline.** -/
theorem isCoherentAt_iff (h : r.Noted l) (late : ∀ m ∈ l, m ≤ now) (hq : r.handle? x = some q) :
    q.isCoherentAt now = true ↔ now < q.coherenceDeadline := by
  rw [Handle.isCoherentAt_iff]
  refine ⟨And.right, fun early => ⟨?_, early⟩⟩
  cases flag : q.coherence with
  | coherent => rfl
  | decoherent => exact absurd (h.deadline_le late hq flag) (Nat.not_le_of_lt early)

end Noted

end Register

theorem Tables.keepsFlags_spend (t : Tables) (name : String) (x : Nat) :
    t.register.KeepsFlags (t.spend name x).register := by
  intro y p hp
  rw [handle?_spend] at hp
  split at hp
  · exact absurd hp (by simp)
  · exact ⟨p, hp, .refl p⟩

namespace Clock

/-- The handles whose deadline has passed, each looked at with a reading of its own. -/
def overdue (c : Clock) : List Handle → List Handle
  | [] => []
  | q :: rest =>
    if q.coherenceDeadline ≤ c.now then q :: (c.after 1).overdue rest else (c.after 1).overdue rest

theorem overdue_sublist (c : Clock) (hs : List Handle) : (c.overdue hs).Sublist hs := by
  induction hs generalizing c with
  | nil => exact .slnil
  | cons q rest ih =>
    rw [overdue]
    split
    · exact (ih _).cons_cons q
    · exact (ih _).cons q

/-- What the scan finds leaked are the handles that are past their deadline when their turn
comes. -/
theorem leaked_eq_overdue (c : Clock) (hs : List Handle)
    (decided : ∀ k q, hs[k]? = some q →
      (q.isCoherentAt (c.after k).now = true ↔ (c.after k).now < q.coherenceDeadline)) :
    c.leaked hs = (c.overdue hs).map (·.name) := by
  induction hs generalizing c with
  | nil => rfl
  | cons q rest ih =>
    have later := ih (c.after 1) fun k p hp => by
      rw [after_after, Nat.add_comm]
      exact decided (k + 1) p hp
    have first : q.isCoherentAt c.now = true ↔ c.now < q.coherenceDeadline := decided 0 q rfl
    rw [leaked, overdue, later]
    by_cases early : c.now < q.coherenceDeadline
    · rw [if_pos (first.2 early), if_neg (Nat.not_le_of_lt early)]
    · rw [if_neg fun coherent => early (first.1 coherent), if_pos (Nat.not_lt.1 early)]
      rfl

end Clock

namespace Attempt

variable {σ : Type}

/-- The instruction failed over a qudit that has decohered. -/
def Decohered (a : Attempt σ) : Prop := ∃ name, a.fault? = some (.decoherent name)

end Attempt

/-- Live handles are listed in ascending order of their numbers. -/
theorem Tables.Owned.ids_ascending {t : Tables} {next : Nat} (owned : t.Owned next) :
    (t.register.handles.values.map (·.id)).Pairwise (· < ·) := by
  rw [Table.values, List.map_map, List.pairwise_map]
  refine t.register.handles.ascending.imp_of_mem fun {a b} ha hb order => ?_
  have left := (owned.owner (Table.find?_eq_some_iff.2 ha)).1
  have right := (owned.owner (Table.find?_eq_some_iff.2 hb)).1
  show a.2.id < b.2.id
  omega

namespace Session

variable {π γ κ : Type}

/-! ## What instructions do to flags -/

/-- **Some operand is past its deadline** when its turn comes: operands are looked at in order, each
with a reading of its own. -/
def HasOverdueOperand (s : Session π γ κ) (i : Instruction) : Prop :=
  ∃ k r q, i.resources[k]? = some r ∧ s.tables.handle? r = some q ∧
    q.coherenceDeadline ≤ (s.clock.after k).now

/-- An operand that was found coherent has its flag unset, and its deadline lies ahead. -/
theorem FindsOperand.coherentAt {s : Session π γ κ} {i : Instruction} {k x : Nat} {r : String}
    (found : s.FindsOperand i k r x) (needs : i.needsCoherence = true) :
    ∃ q, s.tables.register.handle? x = some q ∧ s.tables.handle? r = some q ∧
      q.coherence = .coherent ∧ (s.clock.after k).now < q.coherenceDeadline := by
  obtain ⟨q, hq, named⟩ := Tables.handle_of_resolve found.resolves
  have coherent := found.coherent needs
  rw [hq, Option.any_some, Handle.isCoherentAt_iff] at coherent
  exact ⟨q, hq, named, coherent⟩

variable [Physics π] [Coordinator κ]

/-- **Instructions touch no flag**, and no deadline behind a flag that is set: an entanglement
renews deadlines, but only of qudits that it found coherent. A handle that was not there before is
coherent. -/
theorem Effect.flags {s t : Session π γ κ} {i : Instruction} (h : s.Effect i t) {x : Nat}
    {p : Handle} (hp : t.tables.register.handle? x = some p) :
    (x = s.nextHandle ∧ p.coherence = .coherent) ∨
      ∃ q, s.tables.register.handle? x = some q ∧ q.KeepsFlag p := by
  have same : s.tables.register.KeepsFlags s.tables.register := .of_handles rfl
  cases h with
  | allocate =>
    rw [tables_withTables, Register.handle?_insert] at hp
    split at hp
    · rename_i here
      obtain rfl := Option.some.inj hp
      exact .inl ⟨here.symm, rfl⟩
    · exact .inr ⟨p, hp, .refl p⟩
  | @entangle y z now op distinct left right apart time =>
    have needs : i.needsCoherence = true := by rw [Instruction.needsCoherence, op]
    obtain ⟨_, first, -, coherent, -⟩ := left.coherentAt needs
    obtain ⟨_, second, -, coherent', -⟩ := right.coherentAt needs
    have joined (life : Nat) :
        s.tables.register.KeepsFlags (s.tables.register.join [y, z] now life).2 := .of_handles rfl
    exact .inr ((((joined _).renew first coherent _ _).renew second coherent' _ _) x p hp)
  | @disentangle _ _ g =>
    have apart : s.tables.register.KeepsFlags (s.tables.register.removeGroup g) := .of_handles rfl
    exact .inr (((apart.touch _ _).touch _ _) x p hp)
  | applyGate =>
    refine .inr (same.modify (fun q _ => ?_) x p hp)
    exact ⟨rfl, fun _ => rfl⟩
  | entangleRemote => exact .inr ((same.touch _ _) x p hp)
  | swap => exact .inr (((same.touch _ _).touch _ _) x p hp)
  | measure | release | teleport => exact .inr (s.tables.keepsFlags_spend (i.arg 0) _ x p hp)
  | declare | govern | bind | print | targetNode | channel | barrier | window =>
    exact .inr (same x p hp)

theorem attempt_flags (s : Session π γ κ) (i : Instruction) {x : Nat} {p : Handle}
    (hp : (s.attempt i).session.tables.register.handle? x = some p) :
    (x = s.nextHandle ∧ p.coherence = .coherent) ∨
      ∃ q, s.tables.register.handle? x = some q ∧ q.KeepsFlag p := by
  cases ha : s.attempt i with
  | failed f t =>
    rw [ha] at hp
    have untouched := (attempt_failed_iff.1 ha).untouched.tables
    exact .inr ⟨p, untouched ▸ hp, .refl p⟩
  | done t =>
    rw [ha] at hp
    exact (attempt_done_iff.1 ha).flags hp

theorem attempt_supply (s : Session π γ κ) (i : Instruction) :
    s.nextHandle ≤ (s.attempt i).session.nextHandle := by
  cases ha : s.attempt i with
  | failed f t => exact Nat.le_of_eq (attempt_failed_iff.1 ha).untouched.nextHandle.symm
  | done t =>
    show s.nextHandle ≤ t.nextHandle
    have effect := attempt_qudits ha
    generalize t.nextHandle = n at effect ⊢
    cases effect with
    | allocate => omega
    | _ => exact Nat.le_refl _

/-! ## Laws -/

/-- **Flags are set by deadlines that have passed**, in every session. -/
theorem noted_timely : Timely fun l (s : Session π γ κ) => s.tables.register.Noted l where
  still h alike := alike.tables ▸ h
  look h := h.mono _
  timers h := h.expire _
  attempt {l s} i h := by
    intro x p hp lost
    rcases s.attempt_flags i hp with ⟨-, coherent⟩ | ⟨q, hq, kept⟩
    · exact absurd (coherent.symm.trans lost) (by simp)
    · have lost' := kept.flag.symm.trans lost
      rw [kept.deadline lost']
      exact h.mono _ x q hq lost'

/-- The number `x` was given away, and its qudit is gone or flagged behind a deadline. -/
structure Lost (x deadline : Nat) (s : Session π γ κ) : Prop where
  given : x < s.nextHandle
  flag : ∀ p, s.tables.register.handle? x = some p →
    p.coherence = .decoherent ∧ p.coherenceDeadline = deadline

/-- **What is lost stays lost**, whatever the readings. -/
theorem lost_timely (x deadline : Nat) : Timely fun _ (s : Session π γ κ) => s.Lost x deadline where
  still h alike := ⟨Nat.lt_of_lt_of_le h.given alike.supply, alike.tables ▸ h.flag⟩
  look h := ⟨h.given, h.flag⟩
  timers {_ s} h := by
    refine ⟨h.given, fun p hp => ?_⟩
    replace hp : (s.tables.register.handles.map fun _ q => q.expire s.clock.now).find? x =
        some p := hp
    rw [Table.find?_map] at hp
    obtain ⟨q, hq, rfl⟩ := Option.map_eq_some_iff.1 hp
    obtain ⟨lost, same⟩ := h.flag q hq
    rw [Handle.expire, if_neg fun passed => absurd (lost.symm.trans passed.1) (by simp)]
    exact ⟨lost, same⟩
  attempt {_ s} i h := by
    refine ⟨Nat.lt_of_lt_of_le h.given (s.attempt_supply i), fun p hp => ?_⟩
    rcases s.attempt_flags i hp with ⟨next, -⟩ | ⟨q, hq, kept⟩
    · exact absurd h.given (by omega)
    · obtain ⟨lost, same⟩ := h.flag q hq
      exact ⟨kept.flag.trans lost, (kept.deadline lost).trans same⟩

/-! ## Operands -/

section Operands

variable {s : Session π γ κ} {l : List Nat} {i : Instruction}

/-- The readings of an instruction that moves no clock. -/
theorem attemptReadings_of_clock {n : Nat}
    (clock : (s.attempt i).session.clock = s.clock.after n) :
    s.attemptReadings i = (s.clock.after n).since s.clock.taken := by
  have split : (if (s.clock.after n).taken = s.clock.taken then []
      else s.clock.now :: (s.clock.after n).since (s.clock.taken + 1)) =
        (s.clock.after n).since s.clock.taken := by
    cases n with
    | zero => rw [Clock.after_zero, if_pos rfl, Clock.since_self]
    | succ n =>
      have later : (s.clock.after (n + 1)).taken ≠ s.clock.taken := by
        show s.clock.taken + (n + 1) ≠ s.clock.taken
        omega
      rw [if_neg later, Nat.add_comm n 1, ← Clock.after_after, Clock.since_after_cons]
  unfold attemptReadings
  rw [clock]
  dsimp only
  cases i.opcode <;> first | rfl | exact split

/-- An operand over which an instruction fails is past its deadline. -/
theorem overdue_of_decohered (noted : s.tables.register.Noted l)
    (forward : (l ++ s.attemptReadings i).Pairwise (· ≤ ·)) (decohered : (s.attempt i).Decohered) :
    s.HasOverdueOperand i := by
  obtain ⟨name, fault⟩ := decohered
  obtain ⟨t, failed⟩ := Attempt.fault?_eq_some_iff.1 fault
  cases attempt_failed_iff.1 failed with
  | unresolved gets operand cause =>
    rcases Tables.resolve_error cause with other | other <;> exact absurd other (by simp)
  | @decoherent k x _ gets operand needs resolves stale =>
    obtain ⟨q, hq, named⟩ := Tables.handle_of_resolve resolves
    have clock : (s.attempt i).session.clock = s.clock.after (k + 1) := by rw [failed]; rfl
    -- the reading that decided is one of those that time did not run back behind
    have late : ∀ m ∈ l, m ≤ (s.clock.after k).now := by
      intro m hm
      refine (List.pairwise_append.1 forward).2.2 m hm _ ?_
      rw [attemptReadings_of_clock clock]
      exact s.clock.mem_since_after (Nat.lt_succ_self k)
    refine ⟨k, name, q, operand, named, Nat.le_of_not_lt fun early => ?_⟩
    rw [hq, Option.any_some, (noted.isCoherentAt_iff late hq).2 early] at stale
    exact absurd stale (by simp)

/-- An operand past its deadline cannot be passed, and nothing else is in the way before it. -/
theorem decohered_of_overdue (needs : i.needsCoherence = true) (distinct : i.resources.Nodup)
    (live : ∀ r ∈ i.resources, ∃ x, s.tables.resolve r = .ok x)
    (overdue : s.HasOverdueOperand i) : (s.attempt i).Decohered := by
  obtain ⟨k, r, q, operand, named, overdue⟩ := overdue
  have missed {x : Nat} (found : s.FindsOperand i k r x) : False := by
    obtain ⟨q', -, named', -, early⟩ := found.coherentAt needs
    obtain rfl := Option.some.inj (named.symm.trans named')
    omega
  cases ends : s.attempt i with
  | done t =>
    obtain ⟨x, found⟩ := (attempt_done_iff.1 ends).finds operand
    exact (missed found).elim
  | failed f t =>
    cases attempt_failed_iff.1 ends with
    | decoherent => exact ⟨_, rfl⟩
    | unresolved gets operand cause =>
      obtain ⟨x, hx⟩ := live _ (List.mem_of_getElem? operand)
      exact absurd (cause.symm.trans hx) (by simp)
    | selfEntanglement op same =>
      have pair : i.resources = [i.arg 0, i.arg 1] := by
        rcases op with op | op <;> rw [Instruction.resources, op]
      rw [pair, same] at distinct
      exact absurd distinct (by simp)
    | alreadyEntangled op _ left right =>
      obtain ⟨rfl, rfl⟩ | ⟨rfl, rfl⟩ :=
        operand_of_pair (by rw [Instruction.resources, op]) operand
      · exact (missed left).elim
      · exact (missed right).elim
    | refused op found =>
      have single : i.resources = [i.arg 0] := by
        rcases op with op | op <;> rw [Instruction.resources, op]
      obtain ⟨rfl, rfl⟩ := operand_of_single single operand
      exact (missed found).elim
    | unknownEntity about =>
      rw [Instruction.resources_of_entity about] at operand
      exact absurd operand (by simp)
    | alreadyBound op | invalidDimension op | notEntangled op | entityExists op | invalidScore op
    | invalidOversight op | invalidCriticality op | unboundVariable op | invalidBarrier op
    | invalidSoft op | invalidHard op | invertedWindow op | swapRefused op =>
      exact absurd needs (by simp [Instruction.needsCoherence, op])

/-- Any other instruction takes its operands as they are. -/
theorem not_decohered (s : Session π γ κ) (other : i.needsCoherence = false) :
    ¬ (s.attempt i).Decohered := by
  rintro ⟨name, fault⟩
  obtain ⟨t, failed⟩ := Attempt.fault?_eq_some_iff.1 fault
  cases attempt_failed_iff.1 failed with
  | unresolved gets operand cause =>
    rcases Tables.resolve_error cause with wrong | wrong <;> exact absurd wrong (by simp)
  | decoherent gets operand needs => exact absurd (other.symm.trans needs) (by simp)

end Operands

/-! ## The scan -/

section Scan

omit [Physics π] [Coordinator κ]

/-- **The live handles past their deadlines** when their turn in the scan comes. Deadlines are noted
first, with a reading of their own. -/
def overdue (s : Session π γ κ) : List Handle :=
  s.fireTimers.clock.overdue s.fireTimers.tables.register.handles.values

/-- How the scan warns of a handle. -/
def leakWarning (s : Session π γ κ) (q : Handle) : Diagnostic :=
  (Fault.decoheredLeak q.name).diagnostic s.scanLocation

/-- **The scan warns of what is past its deadline**, if time has not run backwards. -/
theorem leakWarnings_eq {s : Session π γ κ} {l : List Nat} (noted : s.tables.register.Noted l)
    (forward : (l ++ s.scanReadings).Pairwise (· ≤ ·)) :
    s.leakWarnings = s.overdue.map s.leakWarning := by
  have fired : s.fireTimers.tables.register.Noted (l ++ [s.clock.now]) := noted.expire s.clock.now
  rw [scanReadings_eq, ← List.append_assoc] at forward
  have names := s.fireTimers.clock.leaked_eq_overdue s.fireTimers.tables.register.handles.values
    fun k q hq => by
      obtain ⟨hk, -⟩ := List.getElem?_eq_some_iff.1 hq
      obtain ⟨x, hx⟩ := Table.mem_values_iff.1 (List.mem_of_getElem? hq)
      have read := s.fireTimers.clock.mem_since_after hk
      exact fired.isCoherentAt_iff (fun m hm => (List.pairwise_append.1 forward).2.2 m hm _ read) hx
  rw [leakWarnings, names, List.map_map]
  rfl

theorem overdue_ascending {s : Session π γ κ} (owned : s.tables.Owned s.nextHandle) :
    (s.overdue.map (·.id)).Pairwise (· < ·) :=
  (fireTimers_owned owned).ids_ascending.sublist ((Clock.overdue_sublist _ _).map _)

end Scan

/-! ## Coherence -/

variable [Gateway γ]

/-- **Coherence is a matter of deadlines**, in a session `s` whose clock has shown the readings
`l`. -/
structure DecidedByDeadlines (l : List Nat) (s : Session π γ κ) : Prop where
  /-- A flag that is set says that the deadline has passed, so that the flag need not be asked. -/
  flags : ∀ now, (l ++ [now]).Pairwise (· ≤ ·) → ∀ x q, s.tables.register.handle? x = some q →
    (q.coherence = .decoherent → q.coherenceDeadline ≤ now) ∧
      (q.isCoherentAt now = true ↔ now < q.coherenceDeadline)
  /-- Whatever becomes of the session, a flag is not taken back and the deadline behind it not
  moved. -/
  lasting : ∀ l' t, s.Ages l' t → ∀ x q p, s.tables.register.handle? x = some q →
    q.coherence = .decoherent → t.tables.register.handle? x = some p →
    p.coherence = .decoherent ∧ p.coherenceDeadline = q.coherenceDeadline
  /-- Gates, entanglements and teleportations fail over a deadline that has passed, and no other. -/
  refused : ∀ i : Instruction, i.needsCoherence = true → i.resources.Nodup →
    (∀ r ∈ i.resources, ∃ x, s.tables.resolve r = .ok x) →
    (l ++ s.attemptReadings i).Pairwise (· ≤ ·) →
    ((s.attempt i).Decohered ↔ s.HasOverdueOperand i)
  /-- Other instructions do not ask. -/
  served : ∀ i : Instruction, i.needsCoherence = false → ¬ (s.attempt i).Decohered
  /-- A run that comes to its end warns of the live qudits that are past their deadlines, in
  ascending order of their numbers. -/
  leaks : ∀ program annotations u, (l ++ s.runReadings program annotations).Pairwise (· ≤ ·) →
    s.runEnd program annotations = some u →
    s.run program annotations = u.finalScan.halt ∧
      (s.run program annotations).diagnostics.memoryLeaks = u.overdue.map u.leakWarning ∧
      (u.overdue.map (·.id)).Pairwise (· < ·)
  /-- So does one that comes to its end after an answer. -/
  leaksResumed : ∀ id d u, (l ++ s.resumeReadings id d).Pairwise (· ≤ ·) →
    s.resumeEnd id d = some u →
    s.resume id d = (.ok (), u.finalScan.halt) ∧
      (s.resume id d).2.diagnostics.memoryLeaks =
        s.diagnostics.memoryLeaks ++ u.overdue.map u.leakWarning ∧
      (u.overdue.map (·.id)).Pairwise (· < ·)
  /-- One that does not come to its end warns of none. -/
  unended : ∀ program annotations, s.runEnd program annotations = none →
    (s.run program annotations).diagnostics.memoryLeaks = []

/-- **The flag of a handle is redundant.** Whatever becomes of a session that starts with empty
tables, if its clock does not run backwards then deadlines alone decide: on what is coherent, on
what instructions fail over, and on what is reported as leaked. -/
theorem deadlines_decide {s₀ s : Session π γ κ} {l : List Nat} (fresh : s₀.IsFresh)
    (life : s₀.Ages l s) : s.DecidedByDeadlines l := by
  have unset : s₀.tables.register.Noted [] := by
    rw [fresh]
    intro x q hq
    exact absurd hq (by simp [Register.handle?])
  have noted := noted_timely.ages unset life
  have owned := owned_stable.timely.ages fresh.owned life
  have law : Timely fun l (s : Session π γ κ) =>
      s.tables.register.Noted l ∧ s.tables.Owned s.nextHandle :=
        noted_timely.and owned_stable.timely
  constructor
  case flags =>
    intro now forward x q hq
    have late : ∀ m ∈ l, m ≤ now :=
      fun m hm => (List.pairwise_append.1 forward).2.2 m hm now (List.mem_singleton.2 rfl)
    exact ⟨noted.deadline_le late hq, noted.isCoherentAt_iff late hq⟩
  case lasting =>
    intro l' t further x q p hq lost hp
    have marked : s.Lost x q.coherenceDeadline := by
      refine ⟨owned.supply (owned.owner hq).2, fun o ho => ?_⟩
      obtain rfl := Option.some.inj (hq.symm.trans ho)
      exact ⟨lost, rfl⟩
    exact ((lost_timely x q.coherenceDeadline).ages marked further).flag p hp
  case refused =>
    intro i needs distinct live forward
    exact ⟨overdue_of_decohered noted forward, decohered_of_overdue needs distinct live⟩
  case served =>
    intro i other
    exact s.not_decohered other
  case leaks =>
    intro program annotations u forward ends
    obtain ⟨l', readings, noted', owned'⟩ := law.ended ⟨noted, owned⟩ ends
    rw [runReadings, readings, ← List.append_assoc] at forward
    refine ⟨(driven _ _).scanned ends, ?_, overdue_ascending owned'⟩
    rw [memoryLeaks_run, ends]
    exact leakWarnings_eq noted' forward
  case leaksResumed =>
    intro id d u forward ends
    obtain ⟨l', readings, noted', owned'⟩ := law.ended ⟨noted, owned⟩ ends
    rw [resumeReadings, readings, ← List.append_assoc] at forward
    refine ⟨resume_of_ended ends, ?_, overdue_ascending owned'⟩
    rw [memoryLeaks_resume, ends]
    exact congrArg (_ ++ ·) (leakWarnings_eq noted' forward)
  case unended =>
    intro program annotations unended
    rw [memoryLeaks_run, unended]
    rfl

/-- A session whose clock shows a later time at every reading, and in which nothing stays coherent
for long. -/
def drifting : Session SeededPhysics MemoryGateway Loopback :=
  { Session.standard 1 { coherenceTime := 9 } with clock := { source := fun n => n } }

/-- Three qudits, of which the younger two are renewed. -/
def renewing : Program where
  instructions := [⟨.allocQudit, ["a", "2"], {}⟩, ⟨.allocQudit, ["b", "2"], {}⟩,
    ⟨.allocQudit, ["c", "2"], {}⟩, ⟨.entangle, ["b", "c"], {}⟩]

/-- A fourth qudit, and a gate that comes too late. -/
def belated : Program where
  instructions := [⟨.allocQudit, ["d", "2"], {}⟩, ⟨.applyGate, ["x", "c"], {}⟩]

/-- After the first run only the eldest is lost, and a gate on it fails; at the end of the second
the renewed ones are lost too, and the fourth is not. -/
theorem deadlines_decide_drifting :
    drifting.IsFresh ∧
    drifting.Ages (drifting.runReadings renewing none) (drifting.run renewing none) ∧
    (drifting.run renewing none).DecidedByDeadlines (drifting.runReadings renewing none) ∧
    (drifting.run renewing none).tables.register.handles.values.map (·.coherence) =
      [.decoherent, .coherent, .coherent] ∧
    ((drifting.run renewing none).attempt ⟨.applyGate, ["x", "a"], {}⟩).Decohered ∧
    (drifting.runReadings renewing none ++
      (drifting.run renewing none).runReadings belated none).Pairwise (· ≤ ·) ∧
    ((drifting.run renewing none).runEnd belated none).map (·.overdue.map (·.id)) = some [1, 2, 3] ∧
    ((drifting.run renewing none).run belated none).diagnostics.memoryLeaks.length = 3 := by
  have fresh : drifting.IsFresh := rfl
  have life : drifting.Ages (drifting.runReadings renewing none) (drifting.run renewing none) :=
    .run .new renewing none
  have decided := deadlines_decide fresh life
  have forward : (drifting.runReadings renewing none ++
      (drifting.run renewing none).runReadings belated none).Pairwise (· ≤ ·) := by
    decide +kernel
  have refused : ((drifting.run renewing none).attempt ⟨.applyGate, ["x", "a"], {}⟩).Decohered := by
    refine
      (decided.refused ⟨.applyGate, ["x", "a"], {}⟩ rfl (by decide) ?_ (by decide +kernel)).2 ?_
    · intro r hr
      obtain rfl := List.mem_singleton.1 hr
      exact ⟨1, by decide +kernel⟩
    · have late : ((drifting.run renewing none).tables.handle? "a").any
          (·.coherenceDeadline ≤ (drifting.run renewing none).clock.now) = true := by
        decide +kernel
      obtain ⟨q, hq, late⟩ := Option.any_eq_true _ _ |>.1 late
      exact ⟨0, "a", q, rfl, hq, of_decide_eq_true late⟩
  have ends : ((drifting.run renewing none).runEnd belated none).map (·.overdue.map (·.id)) =
      some [1, 2, 3] := by
    decide +kernel
  refine ⟨fresh, life, decided, by decide +kernel, refused, forward, ends, ?_⟩
  obtain ⟨u, hu, ids⟩ := Option.map_eq_some_iff.1 ends
  have count := congrArg List.length ids
  rw [List.length_map] at count
  rw [(decided.leaks belated none u forward hu).2.1, List.length_map, count]
  rfl

end Session

end GovernedQuantum
