import GovernedQuantum.Proofs.Backing
import GovernedQuantum.Proofs.Desk

/-!
# Sessions in which no time passes

Where every reading of the clock shows the same moment, no qudit decoheres; and where the
coordinator accepts whatever it is asked, nothing outside the program makes an instruction fail.
What is left are the reasons that the program itself gives.

* `Session.Steady now s`: the clock of `s` stands still at `now`, and every live qudit is coherent.
* `Session.attempt_steady`: **instructions keep it so.**
* `Session.Fails.unhindered`: no instruction fails for a reason of the clock or the coordinator.
* `Tables.Exact`: the tables back the instructions before them, and nothing was left unconsumed.
* `Session.attempt_exact`: they do so along a resolved program, whatever fails.
* `Session.consumed_fault_iff`: **an instruction fails over a consumed qudit exactly where one of
  its operands was consumed before it.**
-/

namespace GovernedQuantum

/-! ## A clock that stands still -/

namespace Clock

/-- Every reading of the clock shows `now`, the next one and all later ones. -/
def Reads (c : Clock) (now : Nat) : Prop := ∀ n, (c.source n + c.offset) % span = now

variable {c c' : Clock} {now : Nat}

theorem Reads.now_eq (h : c.Reads now) : c.now = now := h c.taken

theorem Reads.now_after (h : c.Reads now) (n : Nat) : (c.after n).now = now := h (c.taken + n)

/-- A clock goes on standing still while collaborators take no time. -/
theorem Reads.runs (h : c.Reads now) (runs : Runs {} c c') : c'.Reads now := by
  have still {b : Clock} (hb : b.Reads now) : (b.advance 0).Reads now := by
    intro n
    show (b.source n + (b.offset + 0) % span) % span = now
    rw [Nat.add_zero, Nat.add_mod_mod]
    exact hb n
  induction runs with
  | refl => exact h
  | read _ ih => exact ih
  | physics _ ih | coordinator _ ih | explainer _ ih => exact still ih

end Clock

/-! ## Coherence -/

theorem Handle.isCoherentAt_iff {q : Handle} {now : Nat} :
    q.isCoherentAt now = true ↔ q.coherence = .coherent ∧ now < q.coherenceDeadline := by
  rw [isCoherentAt, Bool.and_eq_true, decide_eq_true_iff, decide_eq_true_iff]

namespace Register

/-- Every live qudit is coherent at `now`. -/
def CoherentAt (r : Register) (now : Nat) : Prop :=
  ∀ x q, r.handle? x = some q → q.isCoherentAt now = true

namespace CoherentAt

variable {r : Register} {now : Nat} (h : r.CoherentAt now)

include h

theorem insert {q : Handle} (hq : q.isCoherentAt now = true) : (r.insert q).CoherentAt now := by
  intro x p hp
  rw [handle?_insert] at hp
  split at hp
  · obtain rfl := Option.some.inj hp
    exact hq
  · exact h x p hp

theorem modify (x : Nat) {f : Handle → Handle}
    (hf : ∀ q : Handle, q.isCoherentAt now = true → (f q).isCoherentAt now = true) :
    (r.modify x f).CoherentAt now := by
  intro y p hp
  rw [Register.modify, handle?, Table.find?_modify] at hp
  split at hp
  · obtain ⟨q, hq, rfl⟩ := Option.map_eq_some_iff.1 hp
    exact hf q (h y q hq)
  · exact h y p hp

theorem touch (x moment : Nat) : (r.modify x (·.touch moment)).CoherentAt now :=
  h.modify x fun _ hq => hq

theorem join (participants : List Nat) (made life : Nat) :
    (r.join participants made life).2.CoherentAt now := h

theorem removeGroup (g : Nat) : (r.removeGroup g).CoherentAt now := h

/-- No deadline has passed, so none is noted. -/
theorem expire : (r.mapHandles (·.expire now)).CoherentAt now := by
  intro x p hp
  rw [mapHandles, handle?, Table.find?_map] at hp
  obtain ⟨q, hq, rfl⟩ := Option.map_eq_some_iff.1 hp
  have coherent := h x q hq
  have early := (Handle.isCoherentAt_iff.1 coherent).2
  rw [Handle.expire, if_neg fun late => absurd late.2 (Nat.not_le_of_lt early)]
  exact coherent

end CoherentAt

end Register

/-- A name fails to resolve because nobody bound it, or because it was consumed. -/
theorem Tables.resolve_error {t : Tables} {name : String} {f : Fault}
    (h : t.resolve name = .error f) : f = .unknownHandle name ∨ f = .consumedHandle name := by
  unfold resolve at h
  split at h
  · exact .inl (Except.error.inj h).symm
  · split at h
    · exact .inr (Except.error.inj h).symm
    · exact absurd h (by simp)

theorem Tables.coherentAt_spend {t : Tables} {now : Nat} (h : t.register.CoherentAt now)
    (name : String) (x : Nat) : (t.spend name x).register.CoherentAt now := by
  intro y q hq
  rw [handle?_spend] at hq
  split at hq
  · exact absurd hq (by simp)
  · exact h y q hq

/-! ## Steady sessions -/

/-- Faults that no program gives a reason for: a qudit has decohered, or a coordinator refused. -/
def Fault.isHindrance : Fault → Bool
  | .decoherent .. | .delegationRefused .. => true
  | _ => false

namespace Session

variable {π γ κ : Type}

/-- **No time passes in the session**: its clock stands still at `now`, its collaborators take no
time, and at `now` every qudit is coherent, those to come included. -/
structure Steady (now : Nat) (s : Session π γ κ) : Prop where
  reads : s.clock.Reads now
  delays : s.delays = {}
  lasting : now < Handle.deadline now s.settings.coherenceTime
  coherent : s.tables.register.CoherentAt now

namespace Steady

variable {s t : Session π γ κ} {now : Nat}

theorem of_runs (h : s.Steady now) (runs : Clock.Runs s.delays s.clock t.clock)
    (delays : t.delays = s.delays) (settings : t.settings = s.settings)
    (coherent : t.tables.register.CoherentAt now) : t.Steady now where
  reads := h.reads.runs (h.delays ▸ runs)
  delays := delays.trans h.delays
  lasting := settings ▸ h.lasting
  coherent := coherent

theorem of_keeps (h : s.Steady now) (keeps : s.Keeps t) (settings : t.settings = s.settings)
    (coherent : t.tables.register.CoherentAt now) : t.Steady now :=
  h.of_runs keeps.clock keeps.delays settings coherent

theorem fireTimers (h : s.Steady now) : s.fireTimers.Steady now := by
  refine h.of_keeps s.fireTimers_keeps rfl ?_
  show (s.tables.register.mapHandles (·.expire s.clock.now)).CoherentAt now
  rw [h.reads.now_eq]
  exact h.coherent.expire

end Steady

section Attempts

variable [Coordinator κ] {s t : Session π γ κ} {i : Instruction} {now : Nat}

/-- A new qudit is coherent for as long as the clock stands still, an entanglement renews the
coherence of its operands, and any other instruction leaves the deadlines of qudits alone. -/
theorem Effect.coherent [Physics π] (h : s.Effect i t) (steady : s.Steady now) :
    t.tables.register.CoherentAt now := by
  have coherent := steady.coherent
  cases h with
  | @allocate d op unbound literal =>
    refine coherent.insert (Handle.isCoherentAt_iff.2 ⟨rfl, ?_⟩)
    show now < Handle.deadline s.clock.now s.settings.coherenceTime
    rw [steady.reads.now_eq]
    exact steady.lasting
  | @entangle x y moment op distinct left right apart time =>
    have renewed (q : Handle) (hq : q.isCoherentAt now = true) :
        (q.resetDeadline moment s.settings.coherenceTime).isCoherentAt now = true := by
      refine Handle.isCoherentAt_iff.2 ⟨(Handle.isCoherentAt_iff.1 hq).1, ?_⟩
      show now < Handle.deadline moment s.settings.coherenceTime
      rw [← time, steady.reads.now_after]
      exact steady.lasting
    exact ((coherent.join _ _ _).modify _ renewed).modify _ renewed
  | disentangle => exact ((coherent.removeGroup _).touch _ _).touch _ _
  | applyGate => exact coherent.modify _ fun _ hq => hq
  | entangleRemote => exact coherent.touch _ _
  | swap => exact (coherent.touch _ _).touch _ _
  | measure | release | teleport => exact Tables.coherentAt_spend coherent (i.arg 0) _
  | declare | govern | bind | print | targetNode | channel | barrier | window => exact coherent

/-- **Instructions keep a session steady.** -/
theorem attempt_steady [Physics π] (h : s.Steady now) (i : Instruction) :
    (s.attempt i).session.Steady now := by
  cases ha : s.attempt i with
  | failed f t =>
    have fails := attempt_failed_iff.1 ha
    refine h.of_keeps fails.keeps fails.untouched.settings ?_
    show t.tables.register.CoherentAt now
    rw [fails.untouched.tables]
    exact h.coherent
  | done t =>
    have effect := attempt_done_iff.1 ha
    exact h.of_keeps effect.keeps effect.sameCourse.settings (effect.coherent h)

end Attempts

/-- **Nothing hinders an instruction** in a steady session whose coordinator accepts everything. -/
theorem Fails.unhindered {s t : Session π γ Loopback} {i : Instruction} {f : Fault} {now : Nat}
    (h : s.Fails i f t) (steady : s.Steady now) : f.isHindrance = false := by
  cases h with
  | unresolved _ _ cause => rcases Tables.resolve_error cause with rfl | rfl <;> rfl
  | decoherent gets operand needs resolves stale =>
    obtain ⟨q, live, -⟩ := Tables.handle_of_resolve resolves
    rw [live, steady.reads.now_after, Option.any_some, steady.coherent _ q live] at stale
    exact absurd stale (by simp)
  | refused op operand answer => exact absurd answer (by simp [Coordinator.delegate])
  | swapRefused op distinct left right answer =>
    exact absurd answer (by simp [Coordinator.delegate])
  | _ => rfl

end Session

/-! ## Exact books -/

/-- A consuming instruction has one operand. -/
theorem Instruction.Consumes.eq {i : Instruction} {r : String} (h : i.Consumes r) :
    r = i.arg 0 := by
  obtain ⟨op, hr⟩ := h
  unfold Instruction.resources at hr
  cases hi : i.opcode with
  | measure | release | teleport =>
    rw [hi] at hr
    exact List.mem_singleton.1 hr
  | _ =>
    rw [hi] at op
    exact absurd op (by decide)

/-- No instruction is about an entity and about qudits. -/
theorem Instruction.resources_of_entity {i : Instruction} {e : String} (h : i.entity? = some e) :
    i.resources = [] := by
  unfold Instruction.entity? at h
  unfold Instruction.resources
  cases op : i.opcode with
  | setExplainability | setOversight | setCriticality | approve | deploy | verify | decide => rfl
  | _ => exact absurd h (by simp [op])

namespace Tables

/-- A name that was given a handle is refused only because it was consumed. -/
theorem consumed_of_resolve {t : Tables} {r : String} {f : Fault}
    (bound : t.bindings.contains r = true) (h : t.resolve r = .error f) :
    f = .consumedHandle r := by
  obtain ⟨x, hx⟩ := Table.contains_eq_true_iff.1 bound
  unfold resolve at h
  rw [hx] at h
  dsimp only at h
  split at h
  · exact (Except.error.inj h).symm
  · exact absurd h (by simp)

/-- What an instruction consumed is used. -/
theorem QuditEffect.used_of_consumes {t u : Tables} {i : Instruction} {next n : Nat}
    (h : t.QuditEffect i next u n) {r : String} (consumes : i.Consumes r) : 0 < u.usageOf r := by
  obtain rfl := consumes.eq
  cases h with
  | allocate op | entangle op | disentangle op =>
    exact absurd (op ▸ consumes.1) (by decide)
  | consume _ _ same =>
    rw [usageOf, same.usage, ← usageOf, usageOf_spend, if_pos rfl]
    exact Nat.succ_pos _
  | keep _ _ _ consuming => exact absurd (consuming.symm.trans consumes.1) (by decide)

/-- **The tables answer for the instructions `before` exactly**: what these consume is gone. -/
structure Exact (before : List Instruction) (t : Tables) (next : Nat) : Prop
    extends Backed before t next where
  spent : ∀ r, Consumed before r → 0 < t.usageOf r

namespace Exact

variable {before : List Instruction} {t u : Tables} {i : Instruction} {next : Nat}

theorem empty (next : Nat) : Exact [] {} next where
  toBacked := .empty next
  spent r consumed := absurd consumed (by simp [Consumed])

theorem of_same (h : t.Exact before next) (same : t.SameQudits u)
    (entities : u.entities = t.entities) (values : u.values = t.values) : u.Exact before next where
  toBacked := h.toBacked.of_same same entities values
  spent r consumed := by
    rw [usageOf, same.usage]
    exact h.spent r consumed

/-- A qudit that was consumed is refused as such. -/
theorem resolve_consumed (h : t.Exact before next) {r : String} (allocated : Allocated before r)
    (consumed : Consumed before r) : t.resolve r = .error (.consumedHandle r) := by
  obtain ⟨x, hx⟩ := Table.contains_eq_true_iff.1 ((h.allocated r).2 allocated)
  unfold Tables.resolve
  rw [hx]
  exact if_pos (.inl (h.spent r consumed))

/-- An instruction may be left out if it brings no name into being and what it consumes is gone. -/
theorem pass (h : t.Exact before next) (introduces : i.introduces = false)
    (spent : ∀ r, i.Consumes r → 0 < t.usageOf r) : t.Exact (before ++ [i]) next where
  toBacked := h.toBacked.pass introduces
  spent r consumed := by
    rcases consumed_concat.1 consumed with earlier | here
    · exact h.spent r earlier
    · exact spent r here

theorem effect {π γ κ : Type} [Physics π] [Coordinator κ] {s t : Session π γ κ}
    (h : s.tables.Exact before s.nextHandle) (he : s.Effect i t) :
    t.tables.Exact (before ++ [i]) t.nextHandle where
  toBacked := h.toBacked.effect he
  spent r consumed := by
    rcases consumed_concat.1 consumed with earlier | here
    · exact Nat.lt_of_lt_of_le (h.spent r earlier) (he.qudits.usageOf_le r)
    · exact he.qudits.used_of_consumes here

end Exact

end Tables

namespace Session

variable {π γ : Type} [Physics π] {s : Session π γ Loopback} {now : Nat} {before : List Instruction}
  {i : Instruction}

/-- An instruction that failed although none of its operands was consumed had an entanglement or a
window in its way. -/
theorem opcode_of_failed (steady : s.Steady now) (backed : s.tables.Backed before s.nextHandle)
    (resolves : i.Resolves before) (unused : ∀ r ∈ i.resources, ¬ Consumed before r) {f : Fault}
    {t : Session π γ Loopback} (failed : s.attempt i = .failed f t) :
    i.opcode = .entangle ∨ i.opcode = .disentangle ∨ i.opcode = .scheduleWindow := by
  have fails := attempt_failed_iff.1 failed
  have unhindered := fails.unhindered steady
  have dynamic := (backed.fault resolves unused fails).1
  cases fails with
  | alreadyEntangled op => exact .inl op
  | notEntangled op => exact .inr (.inl op)
  | invertedWindow op => exact .inr (.inr op)
  | unresolved gets operand cause =>
    have operand := List.mem_of_getElem? operand
    obtain ⟨x, hx⟩ := backed.resolve (resolves.allocated _ operand) (unused _ operand)
    exact absurd (cause.symm.trans hx) (by simp)
  | decoherent | refused | swapRefused => exact Bool.noConfusion unhindered
  | _ => exact absurd dynamic (by simp [Fault.isStatic])

/-- **The books stay exact along a resolved program**: an instruction that fails brings no name into
being, and consumes nothing that was not gone already. -/
theorem attempt_exact (steady : s.Steady now) (exact : s.tables.Exact before s.nextHandle)
    (resolves : i.Resolves before) :
    (s.attempt i).session.tables.Exact (before ++ [i]) (s.attempt i).session.nextHandle := by
  cases ha : s.attempt i with
  | done t => exact exact.effect (attempt_done_iff.1 ha)
  | failed f t =>
    have fails := attempt_failed_iff.1 ha
    have untouched := fails.untouched
    show t.tables.Exact (before ++ [i]) t.nextHandle
    rw [untouched.tables, untouched.nextHandle]
    refine exact.pass ?_ fun r consumes => ?_
    · by_cases none : i.resources = []
      · exact (exact.fault resolves (by simp [none]) fails).2
      · obtain ⟨r, hr⟩ := List.exists_mem_of_ne_nil _ none
        exact Instruction.introduces_of_resources hr
    · by_contra fresh
      have unused : ∀ r ∈ i.resources, ¬ Consumed before r := by
        intro r' hr' consumed
        obtain rfl : r' = r := (Instruction.Consumes.eq ⟨consumes.1, hr'⟩).trans consumes.eq.symm
        exact fresh (exact.spent r' consumed)
      rcases opcode_of_failed steady exact.toBacked resolves unused ha with op | op | op <;>
        exact absurd (op ▸ consumes.1) (by decide)

/-- **An instruction fails over a consumed qudit exactly where one of its operands was consumed
before it.** -/
theorem consumed_fault_iff (steady : s.Steady now) (exact : s.tables.Exact before s.nextHandle)
    (resolves : i.Resolves before) :
    (∃ r t, s.attempt i = .failed (.consumedHandle r) t) ↔
      ∃ r ∈ i.resources, Consumed before r := by
  constructor
  · rintro ⟨r, t, failed⟩
    cases attempt_failed_iff.1 failed with
    | @unresolved k n r' _ gets operand cause =>
      have operand := List.mem_of_getElem? operand
      refine ⟨r', operand, ?_⟩
      by_contra unused
      obtain ⟨x, hx⟩ := exact.resolve (resolves.allocated _ operand) unused
      exact absurd (cause.symm.trans hx) (by simp)
  · rintro ⟨r, hr, consumed⟩
    have gone := exact.resolve_consumed (resolves.allocated r hr) consumed
    have stuck {x : Nat} (live : s.tables.resolve r = .ok x) : False :=
      absurd (gone.symm.trans live) (by simp)
    cases ha : s.attempt i with
    | done t =>
      obtain ⟨x, hx⟩ := (attempt_done_iff.1 ha).resolves hr
      exact (stuck hx).elim
    | failed f t =>
      have fails := attempt_failed_iff.1 ha
      have unhindered := fails.unhindered steady
      cases fails with
      | @unresolved k n r' _ gets operand cause =>
        have bound := (exact.allocated r').2 (resolves.allocated r' (List.mem_of_getElem? operand))
        exact ⟨r', _, by rw [Tables.consumed_of_resolve bound cause]⟩
      | decoherent | refused | swapRefused => exact Bool.noConfusion unhindered
      | selfEntanglement op same =>
        refine absurd same (resolves.distinct ?_)
        rcases op with op | op <;> rw [Instruction.isPaired, op]
      | alreadyEntangled op distinct left right | notEntangled op left right =>
        rw [Instruction.resources, op] at hr
        rcases List.mem_pair.1 hr with rfl | rfl
        · exact (stuck left.resolves).elim
        · exact (stuck right.resolves).elim
      | unknownEntity about =>
        rw [Instruction.resources_of_entity about] at hr
        exact absurd hr (by simp)
      | alreadyBound op | invalidDimension op | entityExists op | invalidScore op
      | invalidOversight op
      | invalidCriticality op | unboundVariable op | invalidBarrier op | invalidSoft op
      | invalidHard op | invertedWindow op =>
        rw [Instruction.resources, op] at hr
        exact absurd hr (by simp)

end Session

end GovernedQuantum
