import GovernedQuantum.Proofs.Reporting

/-!
# Failed instructions leave nothing behind

An instruction takes no effect when a constraint before it stops it, when the gate closes, when a
human rejects it, or when it fails as it is carried out. Each time all that instructions act on is
as it was, but for the note that coherence deadlines have passed. Findings are added, the clock is
read, and the desk changes where a human is asked. A coordinator that refuses may keep that in mind;
nothing else does.

* `Session.Fails.eq_of_modest`: most instructions fail without a trace.
* `Session.Fails.coordinator`: the coordinator keeps in mind at most that it has refused.
* `Session.step_eq_of_idle`, `Session.settle_eq_of_idle`: the same of a cycle and of an answer.
* `Session.Spared`, `Session.Leaves`: what an instruction leaves as it was, and all that it leaves.
* `Session.failed_instructions_atomic`: **instructions that do not complete are atomic.**
-/

namespace GovernedQuantum

/-- Instructions whose operands must be coherent, or which a coordinator must accept. -/
def Opcode.isExacting : Opcode → Bool
  | .entangle | .applyGate | .entangleRemote | .teleport | .entanglementSwap => true
  | _ => false

/-- Up to the note that its deadline has passed, a handle is what it was. -/
theorem Handle.decohere_expire (h : Handle) (now : Nat) : (h.expire now).decohere = h.decohere := by
  unfold expire
  split <;> rfl

namespace Session

variable {π γ κ : Type}

/-! ## Attempts that fail -/

section Attempts

variable {s t : Session π γ κ} {i : Instruction} {f : Fault}

variable [Coordinator κ]

/-- The coordinator was asked for the instruction and has refused; that left it as `coordinator`. -/
def Refused (s : Session π γ κ) (i : Instruction) (f : Fault) (coordinator : κ) : Prop :=
  ∃ e handles, f = .delegationRefused e ∧
    Coordinator.delegate s.coordinator (s.requestFor i handles) = (.error e, coordinator)

/-- What a session asks of its coordinator does not depend on the register or the clock. -/
theorem Refused.of_same {coordinator : κ} (h : t.Refused i f coordinator) (id : t.id = s.id)
    (settings : t.settings = s.settings) (network : t.tables.network = s.tables.network)
    (same : t.coordinator = s.coordinator) : s.Refused i f coordinator := by
  obtain ⟨e, handles, hf, he⟩ := h
  refine ⟨e, handles, hf, ?_⟩
  rw [← same, ← he]
  simp only [requestFor, delegationRequest, id, settings, network]

/-- **An instruction that is not exacting fails without a trace**: it has not even read the
clock. -/
theorem Fails.eq_of_modest (h : s.Fails i f t) (modest : i.opcode.isExacting = false) : t = s := by
  have plain : i.needsCoherence = false := by
    rw [Instruction.needsCoherence]
    cases op : i.opcode <;> rw [op] at modest <;> first | rfl | exact absurd modest (by decide)
  cases h with
  | unresolved gets operand cause readings =>
    rw [readings, plain]
    rfl
  | decoherent gets operand needs => exact absurd (plain.symm.trans needs) (by simp)
  | alreadyEntangled op | swapRefused op => exact absurd (op ▸ modest) (by decide)
  | refused op => rcases op with op | op <;> exact absurd (op ▸ modest) (by decide)
  | _ => rfl

/-- An attempt that fails leaves the coordinator alone, unless the coordinator has refused. -/
theorem Fails.coordinator (h : s.Fails i f t) :
    t.coordinator = s.coordinator ∨ s.Refused i f t.coordinator := by
  cases h with
  | @refused x e c op operand answer => exact .inr ⟨e, [x], rfl, answer⟩
  | @swapRefused x y e c op distinct left right answer => exact .inr ⟨e, [x, y], rfl, answer⟩
  | _ => exact .inl rfl

end Attempts

/-! ## Cycles and answers without effect -/

theorem evaluate_eq (s : Session π γ κ) (c : Constraint) :
    ∃ clock, (s.evaluate c).2 = { s with clock } := by
  unfold evaluate
  split
  · exact ⟨_, rfl⟩
  · exact ⟨s.clock, rfl⟩

/-- To evaluate constraints is to read the clock and to report. -/
theorem validateAll_eq (l : Location) (cs : List Constraint) (s : Session π γ κ) :
    ∃ clock diagnostics, (validateAll l cs s).2 = { s with clock, diagnostics } := by
  induction cs generalizing s with
  | nil => exact ⟨s.clock, s.diagnostics, rfl⟩
  | cons c rest ih =>
    obtain ⟨clock, evaluated⟩ := s.evaluate_eq c
    rw [validateAll]
    split
    · rename_i t h
      rw [h] at evaluated
      obtain ⟨clock, diagnostics, validated⟩ := ih t
      refine ⟨clock, diagnostics, validated.trans ?_⟩
      rw [show t = _ from evaluated]
    · rename_i v t h
      rw [h] at evaluated
      obtain ⟨clock, diagnostics, validated⟩ := ih (t.report (v.diagnostic l c.required))
      refine ⟨clock, diagnostics, validated.trans ?_⟩
      rw [show t = _ from evaluated]
      rfl

/-- Before an instruction is let through, deadlines are noted, the clock is read, and constraints
report. -/
theorem prepared_eq (s : Session π γ κ) (index : Nat) (i : Instruction) :
    ∃ clock diagnostics, (s.prepared index i).2 = { s.fireTimers with clock, diagnostics } :=
  validateAll_eq _ _ _

section Idle

variable [Physics π] [Coordinator κ] {s : Session π γ κ} {i : Instruction}

theorem took_eq_nil_iff : s.took i = [] ↔ ∃ f t, s.attempt i = .failed f t := by
  unfold took
  cases s.attempt i with
  | done t => simp
  | failed f t => simp

/-- An instruction that fails as it is carried out changes the clock, the findings, and the
coordinator where it has refused. -/
theorem settle_eq_of_idle (idle : s.took i = []) (index : Nat) (approved : Bool) :
    ∃ clock diagnostics coordinator,
      s.settle index i approved = { s with clock, diagnostics, coordinator } ∧
        (coordinator = s.coordinator ∨ ∃ f, s.Refused i f coordinator) := by
  obtain ⟨f, t, failed⟩ := took_eq_nil_iff.1 idle
  refine ⟨t.clock, t.diagnostics.push (f.diagnostic i.location), t.coordinator, ?_, ?_⟩
  · have same := (attempt_failed_iff.1 failed).eq
    rw [settle, failed]
    show ({ t with diagnostics := t.diagnostics.push _ } : Session π γ κ) = _
    rw [same]
  · exact (attempt_failed_iff.1 failed).coordinator.imp_right fun refused => ⟨f, refused⟩

/-- A cycle without effect from which the session goes on. -/
theorem step_eq_of_idle [Gateway γ] {t : Session π γ κ} {index : Nat}
    (next : s.step index i = .next t) (idle : s.stepLog index i = []) :
    ∃ clock diagnostics coordinator, t = { s.fireTimers with clock, diagnostics, coordinator } ∧
      (coordinator = s.coordinator ∨ ∃ f, s.Refused i f coordinator) := by
  obtain ⟨clock, diagnostics, prepared⟩ := s.prepared_eq index i
  rcases s.step_cases index i with ⟨-, -, he⟩ | ⟨-, -, -, o, r, he⟩ | ⟨-, -, -, filing, he⟩ |
    ⟨-, hl, he⟩ <;> rw [he] at next
  · obtain rfl := Stepped.next.inj next
    exact ⟨clock, diagnostics, s.coordinator, prepared, .inl rfl⟩
  · obtain rfl := Stepped.next.inj next
    rw [prepared]
    exact ⟨clock, _, s.coordinator, rfl, .inl rfl⟩
  · exact absurd next (by simp)
  · obtain rfl := Stepped.next.inj next
    rw [idle, prepared] at hl
    obtain ⟨clock, diagnostics, coordinator, settled, asked⟩ :=
      settle_eq_of_idle hl.symm index false
    refine ⟨clock, diagnostics, coordinator, ?_, asked.imp_right fun ⟨f, refused⟩ => ⟨f, ?_⟩⟩
    · rw [prepared, settled]
    · exact refused.of_same rfl rfl rfl rfl

/-- A cycle that ends with a request. -/
theorem step_eq_of_asked [Gateway γ] {t : Session π γ κ} {index : Nat} {request : Request}
    (asked : s.step index i = .suspended request t) :
    ∃ clock diagnostics,
      t = { s.fireTimers with
        clock
        diagnostics
        gateway := t.gateway
        reviews := s.reviews.push ⟨request, none⟩
        console := s.console.push
          s!"oversight {Request.label request.id} requested: {i.describe}" } := by
  obtain ⟨clock, diagnostics, prepared⟩ := s.prepared_eq index i
  rcases s.step_cases index i with ⟨-, -, he⟩ | ⟨-, -, -, o, r, he⟩ | ⟨-, -, -, filing, he⟩ |
    ⟨-, -, he⟩ <;> rw [he] at asked
  · exact absurd asked (by simp)
  · exact absurd asked (by simp)
  · obtain ⟨rfl, rfl⟩ := Stepped.suspended.inj asked
    rw [prepared]
    exact ⟨clock, diagnostics, rfl⟩
  · exact absurd asked (by simp)

end Idle

/-! ## Atomicity -/

/-- **All that instructions act on is as it was**, up to the note on a handle that its deadline has
passed. -/
structure Spared (s t : Session π γ κ) : Prop where
  handles : ∀ x, (t.tables.register.handle? x).map Handle.decohere =
    (s.tables.register.handle? x).map Handle.decohere
  groups : t.tables.register.groups = s.tables.register.groups
  lastGroup : t.tables.register.lastGroup = s.tables.register.lastGroup
  bindings : t.tables.bindings = s.tables.bindings
  usage : t.tables.usage = s.tables.usage
  entangled : t.tables.entangled = s.tables.entangled
  entities : t.tables.entities = s.tables.entities
  values : t.tables.values = s.tables.values
  records : t.tables.records = s.tables.records
  /-- Target node, channel, barriers, windows and delegations. -/
  network : t.tables.network = s.tables.network
  /-- The supply of handle numbers. -/
  nextHandle : t.nextHandle = s.nextHandle
  physics : t.physics = s.physics

theorem Spared.of_same {s t : Session π γ κ} (tables : t.tables = s.tables)
    (nextHandle : t.nextHandle = s.nextHandle) (physics : t.physics = s.physics) : s.Spared t := by
  constructor
  case nextHandle => exact nextHandle
  case physics => exact physics
  case handles =>
    intro x
    rw [tables]
  all_goals rw [tables]

/-- Deadlines that have passed are all that a cycle without effect notes. -/
theorem Spared.of_timers {s t : Session π γ κ} (tables : t.tables = s.fireTimers.tables)
    (nextHandle : t.nextHandle = s.nextHandle) (physics : t.physics = s.physics) : s.Spared t := by
  have handles (x : Nat) : (t.tables.register.handle? x).map Handle.decohere =
      (s.tables.register.handle? x).map Handle.decohere := by
    rw [tables]
    show ((s.tables.register.mapHandles (·.expire s.clock.now)).handle? x).map _ = _
    rw [Register.mapHandles, Register.handle?, Register.handle?, Table.find?_map, Option.map_map]
    exact congrArg (Option.map · _) (funext (Handle.decohere_expire · s.clock.now))
  constructor
  case handles => exact handles
  case nextHandle => exact nextHandle
  case physics => exact physics
  all_goals
    rw [tables]
    rfl

open Diagnostics (Gains)

/-- **All that an instruction leaves which takes no effect**: findings on it, and a coordinator that
has refused it if it was asked. -/
structure Leaves [Coordinator κ] (s : Session π γ κ) (i : Instruction) (t : Session π γ κ) : Prop
    extends Spared s t where
  findings : Gains i.Minor s.diagnostics t.diagnostics
  coordinator : t.coordinator = s.coordinator ∨ ∃ f, s.Refused i f t.coordinator

variable [Physics π] [Gateway γ] [Coordinator κ]

/-- **The instruction `i` is atomic in the session `s`**: where it does not complete, it leaves
nothing behind. -/
structure Atomic (s : Session π γ κ) (index : Nat) (i : Instruction) : Prop where
  /-- In its cycle it does not complete when a constraint before it stops it, when the gate does not
  let it through, or when it fails as it is carried out. -/
  ways : s.stepLog index i = [] ↔ (s.prepared index i).1 = false ∨
    (s.prepared index i).2.passes i = false ∨ ∃ f t, (s.prepared index i).2.attempt i = .failed f t
  /-- The session goes on from a cycle without effect, and has asked nobody. -/
  cycle : ∀ t, s.step index i = .next t → s.stepLog index i = [] →
    s.Leaves i t ∧ t.tables = s.fireTimers.tables ∧ s.SameCourse t ∧ s.SameDesk t ∧
      t.console = s.console
  /-- A human is asked: that is announced, logged and filed. -/
  asked : ∀ request t, s.step index i = .suspended request t →
    s.Leaves i t ∧ t.tables = s.fireTimers.tables ∧ s.SameCourse t ∧ t.coordinator = s.coordinator ∧
      t.console = s.console.push s!"oversight {Request.label request.id} requested: {i.describe}" ∧
      t.reviews = s.reviews.push ⟨request, none⟩ ∧
      Gateway.file s.gateway request.toFiling = (request.id, t.gateway)
  /-- The human who was asked rejects it: from its cycle to the answer, nothing more has
  happened. -/
  rejected : ∀ request t gateway, s.step index i = .suspended request t →
    ∀ u, u = ({ t with status := .suspended, suspension := some ⟨request, i, t.position⟩ } :
        Session π γ κ).answered ⟨request, i, t.position⟩ gateway .reject →
      s.Leaves i u ∧ u.tables = s.fireTimers.tables ∧ u.coordinator = s.coordinator ∧
        u.console = t.console ∧
        u.diagnostics = t.diagnostics.push
          ((Fault.oversightRejected request.id request.details).diagnostic i.location)
  /-- The session waits with it, and takes a rejection. -/
  declined : ∀ op gateway, op.instruction = i →
    s.Leaves i (s.answered op gateway .reject) ∧
      (s.answered op gateway .reject).tables = s.tables ∧
      (s.answered op gateway .reject).coordinator = s.coordinator ∧
      (s.answered op gateway .reject).console = s.console
  /-- The session waits with it, takes an approval, and fails to carry it out. -/
  approved : ∀ op gateway, op.instruction = i →
    (s.answered op gateway .approve).actedLog op .approve = [] →
    ∀ t, t = (s.answered op gateway .approve).acted op .approve →
      s.Leaves i t ∧ t.tables = s.tables ∧ (s.answered op gateway .approve).SameCourse t ∧
        (s.answered op gateway .approve).SameDesk t ∧
        t.console = (s.answered op gateway .approve).console
  /-- To carry it out and fail is to read the clock, and to be refused by the coordinator. -/
  fault : ∀ f t, s.attempt i = .failed f t →
    t = { s with clock := t.clock, coordinator := t.coordinator } ∧
      (t.coordinator = s.coordinator ∨ s.Refused i f t.coordinator)
  /-- An allocation, like all that is not exacting, fails without even that. -/
  modest : i.opcode.isExacting = false → ∀ f t, s.attempt i = .failed f t → t = s

/-- What a cycle leaves that ends with a request. -/
theorem leaves_of_asked {s t : Session π γ κ} {index : Nat} {i : Instruction} {request : Request}
    (asked : s.step index i = .suspended request t) :
    s.Leaves i t ∧ t.coordinator = s.coordinator ∧
      t.console =
        s.console.push s!"oversight {Request.label request.id} requested: {i.describe}" := by
  have found := s.step_gains index i
  rw [asked] at found
  obtain ⟨clock, diagnostics, he⟩ := step_eq_of_asked asked
  have nextHandle : t.nextHandle = s.nextHandle := by rw [he]; rfl
  have physics : t.physics = s.physics := by rw [he]; rfl
  have coordinator : t.coordinator = s.coordinator := by rw [he]; rfl
  refine ⟨⟨.of_timers (asks_of_suspended asked).tables nextHandle physics, found, .inl coordinator⟩,
    coordinator, ?_⟩
  rw [he]

/-- **Instructions that do not complete are atomic**, in every session, whatever their opcode and
their arguments. -/
theorem failed_instructions_atomic (s : Session π γ κ) (index : Nat) (i : Instruction) :
    s.Atomic index i where
  ways := by
    unfold stepLog
    cases (s.prepared index i).1 with
    | false => simp
    | true =>
      cases (s.prepared index i).2.passes i with
      | false => simp
      | true => simp [took_eq_nil_iff]
  cycle := by
    intro t next idle
    have found := s.step_gains index i
    have desk := step_next_keeps next
    rw [next] at found
    obtain ⟨clock, diagnostics, coordinator, rfl, refused⟩ := step_eq_of_idle next idle
    exact ⟨⟨.of_timers rfl rfl rfl, found, refused⟩, rfl, .of_update s _ _ _ _ _ _ _,
      desk.toSameDesk, rfl⟩
  asked := by
    intro request t asked
    obtain ⟨left, coordinator, console⟩ := leaves_of_asked asked
    have asks := asks_of_suspended asked
    exact ⟨left, asks.tables, asks.course, coordinator, console, asks.logged, asks.filed⟩
  rejected := by
    rintro request t gateway asked u rfl
    obtain ⟨left, coordinator, -⟩ := leaves_of_asked asked
    have tables := (asks_of_suspended asked).tables
    have declined := acted_gains
      ({ t with status := .suspended, suspension := some ⟨request, i, t.position⟩ } : Session π γ κ)
      ⟨request, i, t.position⟩ gateway .reject
    exact ⟨⟨.of_timers tables left.nextHandle left.physics, left.findings.trans declined,
      .inl coordinator⟩, tables, coordinator, rfl, rfl⟩
  declined := by
    rintro op gateway rfl
    exact ⟨⟨.of_same rfl rfl rfl, s.acted_gains op gateway .reject, .inl rfl⟩, rfl, rfl, rfl⟩
  approved := by
    rintro op gateway rfl idle t rfl
    have found := s.acted_gains op gateway .approve
    obtain ⟨clock, diagnostics, coordinator, settled, asked⟩ :=
      settle_eq_of_idle (s := s.answered op gateway .approve) idle op.index true
    have acted : (s.answered op gateway .approve).acted op .approve = _ := settled
    rw [acted] at found ⊢
    have refused : coordinator = s.coordinator ∨ ∃ f, s.Refused op.instruction f coordinator :=
      asked.imp_right fun ⟨f, refused⟩ => ⟨f, refused.of_same rfl rfl rfl rfl⟩
    exact ⟨⟨.of_same rfl rfl rfl, found, refused⟩, rfl, .of_update _ _ _ _ _ _ _ _, ⟨rfl, rfl⟩, rfl⟩
  fault _ _ failed := ⟨(attempt_failed_iff.1 failed).eq, (attempt_failed_iff.1 failed).coordinator⟩
  modest modest _ _ failed := (attempt_failed_iff.1 failed).eq_of_modest modest

end Session

end GovernedQuantum
