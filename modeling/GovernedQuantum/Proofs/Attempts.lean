import GovernedQuantum.Proofs.Language
import GovernedQuantum.Proofs.OrderedTable
import GovernedQuantum.Session.Run

/-!
# What becomes of an instruction

An instruction is attempted in one of twenty-three ways. This file says once what an attempt can do,
so that a law about sessions never has to open the instructions again.

* `Session.FindsOperand`: an operand that is found, and found coherent where that is asked.
* `Session.Effect`: the session after an instruction that took effect, one clause an operation.
* `Session.Fails`: the fault of an instruction that did not, its cause, and the session after it.
* `Session.attempt_done_iff`, `Session.attempt_failed_iff`: **attempts end in these ways and in no
  other.**
* `Session.Fails.eq`: a failed attempt leaves everything alone but the clock and the coordinator.
-/

namespace GovernedQuantum

/-! ## What stays -/

namespace Session

variable {π γ κ : Type}

/-- `t` stands where `s` stands in the same run: of all that a run is given or counts, nothing has
changed. -/
structure SameCourse (s t : Session π γ κ) : Prop where
  id : t.id = s.id
  settings : t.settings = s.settings
  delays : t.delays = s.delays
  explainer : t.explainer = s.explainer
  status : t.status = s.status
  program : t.program = s.program
  annotations : t.annotations = s.annotations
  position : t.position = s.position
  steps : t.steps = s.steps
  suspension : t.suspension = s.suspension

/-- On the same course, nothing that instructions act on has changed either. -/
structure Untouched (s t : Session π γ κ) : Prop extends SameCourse s t where
  tables : t.tables = s.tables
  nextHandle : t.nextHandle = s.nextHandle

theorem SameCourse.refl (s : Session π γ κ) : s.SameCourse s :=
  ⟨rfl, rfl, rfl, rfl, rfl, rfl, rfl, rfl, rfl, rfl⟩

theorem SameCourse.trans {s t u : Session π γ κ} (h : s.SameCourse t) (g : t.SameCourse u) :
    s.SameCourse u where
  id := g.id.trans h.id
  settings := g.settings.trans h.settings
  delays := g.delays.trans h.delays
  explainer := g.explainer.trans h.explainer
  status := g.status.trans h.status
  program := g.program.trans h.program
  annotations := g.annotations.trans h.annotations
  position := g.position.trans h.position
  steps := g.steps.trans h.steps
  suspension := g.suspension.trans h.suspension

theorem SameCourse.of_update (s : Session π γ κ) (clock : Clock) (physics : π) (coordinator : κ)
    (nextHandle : Nat) (tables : Tables) (console : Array String) (diagnostics : Diagnostics) :
    s.SameCourse { s with clock, physics, coordinator, nextHandle, tables, console, diagnostics } :=
  ⟨rfl, rfl, rfl, rfl, rfl, rfl, rfl, rfl, rfl, rfl⟩

theorem Untouched.refl (s : Session π γ κ) : s.Untouched s := ⟨.refl s, rfl, rfl⟩

theorem Untouched.trans {s t u : Session π γ κ} (h : s.Untouched t) (g : t.Untouched u) :
    s.Untouched u :=
  ⟨h.toSameCourse.trans g.toSameCourse, g.tables.trans h.tables, g.nextHandle.trans h.nextHandle⟩

theorem Untouched.of_update (s : Session π γ κ) (clock : Clock) (coordinator : κ) :
    s.Untouched { s with clock, coordinator } :=
  ⟨.of_update s _ _ _ _ _ _ _, rfl, rfl⟩

@[simp] theorem tables_withTables (s : Session π γ κ) (t : Tables) : (s.withTables t).tables = t :=
  rfl

end Session

/-! ## Readings -/

namespace Clock

/-- The clock after `n` more readings. -/
def after (c : Clock) (n : Nat) : Clock := { c with taken := c.taken + n }

@[simp] theorem after_zero (c : Clock) : c.after 0 = c := rfl

theorem after_after (c : Clock) (m n : Nat) : (c.after m).after n = c.after (m + n) := by
  simp only [after, Nat.add_assoc]

end Clock

/-- The session after `n` more readings. -/
def Session.later {π γ κ : Type} (s : Session π γ κ) (n : Nat) : Session π γ κ :=
  { s with clock := s.clock.after n }

/-! ## Names and handles -/

namespace Tables

/-- A name resolves to the live handle it is bound to, if it has not been consumed. -/
theorem resolve_eq_ok_iff {t : Tables} {name : String} {x : Nat} :
    t.resolve name = .ok x ↔
      t.bindings.find? name = some x ∧ t.usageOf name = 0 ∧ t.register.contains x = true := by
  unfold resolve
  split
  · rename_i h
    simp [h]
  · rename_i id h
    rw [h]
    split
    · rename_i hc
      constructor
      · intro he
        exact absurd he (by simp)
      · rintro ⟨hx, hu, hl⟩
        obtain rfl := Option.some.inj hx
        rcases hc with hc | hc
        · omega
        · rw [hl] at hc
          exact absurd hc (by simp)
    · rename_i hc
      rw [not_or] at hc
      constructor
      · intro he
        obtain rfl := Except.ok.inj he
        exact ⟨rfl, by omega, by simpa using hc.2⟩
      · rintro ⟨hx, -, -⟩
        rw [Option.some.inj hx]

/-- A name that resolves has a live handle. -/
theorem handle_of_resolve {t : Tables} {name : String} {x : Nat} (h : t.resolve name = .ok x) :
    ∃ q, t.register.handle? x = some q ∧ t.handle? name = some q := by
  obtain ⟨bound, -, live⟩ := resolve_eq_ok_iff.1 h
  obtain ⟨q, hq⟩ := Table.contains_eq_true_iff.1 live
  refine ⟨q, hq, ?_⟩
  rw [Tables.handle?, bound]
  exact hq

/-- The tables once a handle is gone for good under a name. -/
def spend (t : Tables) (name : String) (x : Nat) : Tables :=
  { t with register :=
      ({ t.register with handles := t.register.handles.erase x }.detach x).2 }.countUse name

/-- The groups that dissolve with a handle. -/
def dissolves (t : Tables) (x : Nat) : List Nat :=
  ({ t.register with handles := t.register.handles.erase x }.detach x).1

/-- The tables with a ticket filed. -/
def filed (t : Tables) (ticket : Ticket) : Tables :=
  { t with network := { t.network with delegations := t.network.delegations.push ticket } }

theorem remove_of_handle {t : Tables} {x : Nat} {q : Handle}
    (live : t.register.handle? x = some q) :
    t.register.remove x = some (q, t.dissolves x,
      ({ t.register with handles := t.register.handles.erase x }.detach x).2) := by
  rw [Register.remove, live]
  rfl

end Tables

namespace Session

variable {π γ κ : Type}

/-- A name that resolves can be consumed. -/
theorem consume_of_resolve {s : Session π γ κ} {name : String} {x : Nat} {q : Handle}
    (live : s.tables.register.handle? x = some q) :
    s.consume name x =
      some (q, (s.withTables (s.tables.spend name x)).sayDissolved (s.tables.dissolves x)) := by
  rw [consume, Tables.remove_of_handle live]
  rfl

theorem discard_of_handle {s : Session π γ κ} (name : String) {x : Nat} {q : Handle}
    (live : s.tables.register.handle? x = some q) :
    s.discard name x =
      (s.withTables (s.tables.spend name x)).sayDissolved (s.tables.dissolves x) := by
  rw [discard, Tables.remove_of_handle live]
  rfl

end Session

/-! ## Operands -/

/-- The instruction looks whether its operands are coherent. -/
def Instruction.needsCoherence (i : Instruction) : Bool :=
  match i.opcode with
  | .applyGate | .entangle | .entangleRemote | .teleport => true
  | _ => false

namespace Session

variable {π γ κ : Type}

/-- **The operand `r`, the `k`-th of the instruction, is found** as the handle `x`. Where operands
must be coherent each is looked at with a reading of its own. -/
structure FindsOperand (s : Session π γ κ) (i : Instruction) (k : Nat) (r : String)
    (x : Nat) : Prop where
  resolves : s.tables.resolve r = .ok x
  coherent : i.needsCoherence = true →
    (s.tables.register.handle? x).any (·.isCoherentAt (s.clock.after k).now) = true

/-- The instruction gets as far as its `k`-th operand. -/
structure GetsTo (s : Session π γ κ) (i : Instruction) (k : Nat) : Prop where
  distinct : i.opcode = .entangle ∨ i.opcode = .entanglementSwap → i.arg 0 ≠ i.arg 1
  found : ∀ j r, j < k → i.resources[j]? = some r → ∃ x, s.FindsOperand i j r x

/-- A live operand that must be coherent: one reading decides. -/
theorem resolveCoherent_of_resolve {s : Session π γ κ} {r : String} {x : Nat}
    (h : s.tables.resolve r = .ok x) :
    s.resolveCoherent r =
      (if (s.tables.register.handle? x).any (·.isCoherentAt s.clock.now) then .ok x
        else .error (.decoherent r), s.later 1) := by
  unfold resolveCoherent
  rw [h]
  dsimp only [readClock]
  split <;> rfl

theorem resolveCoherent_of_error {s : Session π γ κ} {r : String} {f : Fault}
    (h : s.tables.resolve r = .error f) : s.resolveCoherent r = (.error f, s) := by
  unfold resolveCoherent
  rw [h]

/-- Whatever the coordinator answers, it was called. -/
theorem delegate_eq [Coordinator κ] {s t : Session π γ κ} {request : DelegationRequest}
    {answer : Except CoordinationError Ticket} (h : s.delegate request = (answer, t)) :
    ∃ c, Coordinator.delegate s.coordinator request = (answer, c) ∧ t = s.entrust c := by
  obtain ⟨answered, rfl⟩ := Prod.mk.inj h
  exact ⟨_, Prod.ext answered rfl, rfl⟩

theorem FindsOperand.resolveCoherent {s : Session π γ κ} {i : Instruction} {k : Nat}
    {r : String} {x : Nat} (h : s.FindsOperand i k r x) (needs : i.needsCoherence = true) :
    (s.later k).resolveCoherent r = (.ok x, s.later (k + 1)) := by
  rw [resolveCoherent_of_resolve (s := s.later k) h.resolves]
  exact congrArg (·, s.later (k + 1)) (if_pos (h.coherent needs))

/-- What comes first is looked at before any reading. -/
theorem FindsOperand.first {s : Session π γ κ} {i : Instruction} {r : String} {x : Nat}
    (h : s.FindsOperand i 0 r x) (needs : i.needsCoherence = true) :
    s.resolveCoherent r = (.ok x, s.later 1) :=
  h.resolveCoherent needs

end Session

/-! ## Effects -/

namespace Session

variable {π γ κ : Type}

/-- **What an instruction on the entity `e` makes of it**, and the session that has said so. -/
inductive Governs (s : Session π γ κ) (i : Instruction) (e : Entity) :
    Entity → Session π γ κ → Prop
  | explainability {score : Binary64} (op : i.opcode = .setExplainability)
      (literal : score? (i.arg 1) = some score) :
      Governs s i e { e with explainability := score }
        (s.say (Line.explainabilitySet (i.arg 0) score))
  | oversight {level : Oversight} (op : i.opcode = .setOversight)
      (literal : Oversight.parse (i.arg 1) = .ok level) :
      Governs s i e { e with oversight := level } (s.say (Line.oversightSet (i.arg 0) level))
  | criticality {level : Criticality} (op : i.opcode = .setCriticality)
      (literal : Criticality.parse (i.arg 1) = .ok level) :
      Governs s i e { e with criticality := level } (s.say (Line.criticalitySet (i.arg 0) level))
  | approve (op : i.opcode = .approve) :
      Governs s i e { e with approved := true } (s.say (Line.approved (i.arg 0)))
  | deploy (op : i.opcode = .deploy) :
      Governs s i e { e with deployments := e.deployments.push (i.arg 1) }
        (s.say (Line.deployed (i.arg 0) (i.arg 1)))
  | verify {verdict : Verdict} (op : i.opcode = .verify)
      (judged : (Profile.ofInstruction i s.tables.entities s.settings).verdict (some e) = verdict) :
      Governs s i e
        { e with compliance := if verdict.passed then .compliant else .nonCompliant }
        ((s.awaitExplainer.reportUnless verdict.passed
            (verificationWarning (i.arg 0) verdict.reasons i.location)).say
          (Line.verified (i.arg 0) verdict.passed
            (summarizeVerification s.explainer (i.arg 0) verdict.passed verdict.reasons)))
  | decide (op : i.opcode = .decide) :
      Governs s i e { e with decisions := e.decisions.push (i.arg 1) }
        (s.awaitExplainer.say (Line.decided (i.arg 0) (i.arg 1)
          (explainDecision s.explainer (i.arg 0) (i.arg 1)).summary))

/-- The request that an instruction puts to the coordinator about its operands. -/
def requestFor (s : Session π γ κ) (i : Instruction) (handles : List Nat) : DelegationRequest :=
  match i.opcode with
  | .entanglementSwap =>
    s.delegationRequest .entanglementSwap i.resources handles s.tables.network.targetNode
  | .teleport => s.delegationRequest .teleport i.resources handles (some (i.arg 1))
  | _ => s.delegationRequest .remoteEntanglement i.resources handles (some (i.arg 1))

section Requests

variable {i : Instruction} (s : Session π γ κ)

/-- A request does not depend on the time. -/
theorem delegationRequest_later (n : Nat) :
    (s.later n).delegationRequest = s.delegationRequest :=
  rfl

theorem requestFor_remote (op : i.opcode = .entangleRemote) (x : Nat) :
    s.requestFor i [x] =
      s.delegationRequest .remoteEntanglement [i.arg 0] [x] (some (i.arg 1)) := by
  rw [requestFor, Instruction.resources, op]

theorem requestFor_teleport (op : i.opcode = .teleport) (x : Nat) :
    s.requestFor i [x] = s.delegationRequest .teleport [i.arg 0] [x] (some (i.arg 1)) := by
  rw [requestFor, Instruction.resources, op]

theorem requestFor_swap (op : i.opcode = .entanglementSwap) (x y : Nat) :
    s.requestFor i [x, y] = s.delegationRequest .entanglementSwap [i.arg 0, i.arg 1] [x, y]
      s.tables.network.targetNode := by
  rw [requestFor, Instruction.resources, op]

end Requests

/-- The session once an operand was looked at and both the coordinator and the physics were
called. -/
def calledUpon (s : Session π γ κ) (coordinator : κ) (physics : π) : Session π γ κ :=
  ((s.later 1).entrust coordinator).consult physics

/-- **What an instruction does when it takes effect**: the session after it. -/
inductive Effect [Physics π] [Coordinator κ] (s : Session π γ κ) (i : Instruction) :
    Session π γ κ → Prop
  | allocate {d : Nat} (op : i.opcode = .allocQudit)
      (unbound : s.tables.bindings.find? (i.arg 0) = none)
      (literal : dimension? (i.arg 1) = some d) :
      Effect s i
        (({ s.later 1 with nextHandle := s.nextHandle + 1 }.say
          (Line.allocated (i.arg 0) d s.nextHandle)).withTables
          { s.tables with
            register := s.tables.register.insert
              (.allocate s.nextHandle (i.arg 0) d s.clock.now s.settings.coherenceTime)
            bindings := s.tables.bindings.insert (i.arg 0) s.nextHandle })
  | entangle {x y now : Nat} (op : i.opcode = .entangle) (distinct : i.arg 0 ≠ i.arg 1)
      (left : s.FindsOperand i 0 (i.arg 0) x) (right : s.FindsOperand i 1 (i.arg 1) y)
      (apart : s.tables.register.between? x y = none) (time : (s.clock.after 2).now = now) :
      Effect s i
        (((s.later 3).say
          (Line.entangled (i.arg 0) (i.arg 1) (s.tables.register.lastGroup + 1))).withTables
          { s.tables with
            register := ((s.tables.register.join [x, y] now s.settings.coherenceTime).2.modify x
              (·.resetDeadline now s.settings.coherenceTime)).modify y
                (·.resetDeadline now s.settings.coherenceTime)
            entangled := (s.tables.entangled.insert (i.arg 0) ()).insert (i.arg 1) () })
  | disentangle {x y g : Nat} (op : i.opcode = .disentangle) (left : s.FindsOperand i 0 (i.arg 0) x)
      (right : s.FindsOperand i 1 (i.arg 1) y) (joined : s.tables.register.between? x y = some g) :
      Effect s i
        (((s.later 1).say (Line.disentangled (i.arg 0) (i.arg 1) g)).withTables
          { s.tables with
            register := ((s.tables.register.removeGroup g).modify x (·.touch s.clock.now)).modify y
              (·.touch s.clock.now) })
  | applyGate {x : Nat} (op : i.opcode = .applyGate) (operand : s.FindsOperand i 0 (i.arg 1) x) :
      Effect s i
        (((s.later 2).say (Line.gateApplied (i.arg 0) (i.arg 1))).withTables
          (s.tables.modifyHandle x fun h =>
            (h.applyGate (i.arg 0)).touch (s.clock.after 1).now))
  | measure {x : Nat} {q : Handle} {m : Measurement} {p : π} (op : i.opcode = .measure)
      (operand : s.FindsOperand i 0 (i.arg 0) x) (live : s.tables.register.handle? x = some q)
      (measured : Physics.measure s.physics q.dimension = (m, p)) :
      Effect s i
        (((((s.consult p).later 1).sayDissolved (s.tables.dissolves x)).say
          (Line.measured (i.arg 0) m)).withTables
          { s.tables.spend (i.arg 0) x with
            records := s.tables.records.push
              { name := i.arg 0, handle := x, dimension := q.dimension, outcome := m.outcome,
                probability := m.probability, measuredAt := (s.consult p).clock.now,
                releasedPartners := s.tables.register.partners x } })
  | release {x : Nat} (op : i.opcode = .release) (operand : s.FindsOperand i 0 (i.arg 0) x) :
      Effect s i
        (((s.sayDissolved (s.tables.dissolves x)).say (Line.released (i.arg 0))).withTables
          (s.tables.spend (i.arg 0) x))
  | declare (op : i.opcode = .declareContract)
      (unknown : s.tables.entities.find? (i.arg 0) = none) :
      Effect s i
        ((s.say (Line.declared (i.arg 0))).withTables
          (s.tables.putEntity (i.arg 0) (.declare (i.arg 0))))
  | govern {e e' : Entity} {u : Session π γ κ} (known : s.tables.entities.find? (i.arg 0) = some e)
      (change : s.Governs i e e' u) :
      Effect s i (u.withTables (s.tables.putEntity (i.arg 0) e'))
  | bind (op : i.opcode = .bind) :
      Effect s i
        (s.withTables
          { s.tables with values := s.tables.values.insert (i.arg 0) (Value.ofLiteral (i.arg 1)) })
  | print {v : Value} (op : i.opcode = .print) (known : s.tables.values.find? (i.arg 0) = some v) :
      Effect s i (s.say v.display)
  | targetNode (op : i.opcode = .setTargetNode) :
      Effect s i
        ((s.say (Line.targetNodeSet (i.arg 0))).withTables
          { s.tables with network := { s.tables.network with targetNode := some (i.arg 0) } })
  | channel (op : i.opcode = .setChannel) :
      Effect s i
        ((s.say (Line.channelSet (i.arg 0))).withTables
          { s.tables with network := { s.tables.network with channel := some (i.arg 0) } })
  | barrier {deadline : Nat} (op : i.opcode = .barrier)
      (literal : deadline? (i.arg 1) = some deadline) :
      Effect s i
        (((s.later 1).say (Line.barrierRegistered (i.arg 0) deadline)).withTables
          { s.tables with
            network := { s.tables.network with
              barriers := s.tables.network.barriers.insert (i.arg 0)
                { name := i.arg 0, deadline, participants := [s.settings.localNode],
                  createdAt := s.clock.now } } })
  | window {soft hard : Nat} (op : i.opcode = .scheduleWindow)
      (first : deadline? (i.arg 1) = some soft) (last : deadline? (i.arg 2) = some hard)
      (order : soft ≤ hard) :
      Effect s i
        (((s.later 1).say (Line.windowScheduled (i.arg 0) soft hard)).withTables
          { s.tables with
            network := { s.tables.network with
              windows := s.tables.network.windows.insert (i.arg 0)
                { name := i.arg 0, soft, hard, registeredAt := s.clock.now } } })
  | entangleRemote {x : Nat} {ticket : Ticket} {c : κ} {key : KeyMaterial} {p : π}
      (op : i.opcode = .entangleRemote) (operand : s.FindsOperand i 0 (i.arg 0) x)
      (accepted : Coordinator.delegate s.coordinator (s.requestFor i [x]) = (.ok ticket, c))
      (keyed : Physics.distributeKey s.physics s.settings.localNode (i.arg 1) keyQubits =
        (key, p)) :
      Effect s i
        ((((s.calledUpon c p).later 1).say (Line.delegated (ticket.withKey key))).withTables
          ((s.tables.modifyHandle x (·.touch (s.calledUpon c p).clock.now)).filed
            (ticket.withKey key)))
  | teleport {x : Nat} {q : Handle} {ticket : Ticket} {c : κ} {fidelity : Binary64} {p : π}
      (op : i.opcode = .teleport) (operand : s.FindsOperand i 0 (i.arg 0) x)
      (live : s.tables.register.handle? x = some q)
      (accepted : Coordinator.delegate s.coordinator (s.requestFor i [x]) = (.ok ticket, c))
      (estimated : Physics.fidelity s.physics s.settings.localNode (i.arg 1) = (fidelity, p)) :
      Effect s i
        ((((s.calledUpon c p).sayDissolved (s.tables.dissolves x)).say
          (Line.delegated (ticket.withFidelity fidelity))).withTables
          ((s.tables.spend (i.arg 0) x).filed (ticket.withFidelity fidelity)))
  | swap {x y : Nat} {ticket : Ticket} {c : κ} (op : i.opcode = .entanglementSwap)
      (distinct : i.arg 0 ≠ i.arg 1) (left : s.FindsOperand i 0 (i.arg 0) x)
      (right : s.FindsOperand i 1 (i.arg 1) y)
      (accepted : Coordinator.delegate s.coordinator (s.requestFor i [x, y]) = (.ok ticket, c)) :
      Effect s i
        ((((s.entrust c).later 1).say (Line.delegated ticket)).withTables
          (((s.tables.modifyHandle x (·.touch (s.entrust c).clock.now)).modifyHandle y
            (·.touch (s.entrust c).clock.now)).filed ticket))

/-! ## Failures -/

/-- The literal of a modifier can be read. -/
structure Legible (i : Instruction) : Prop where
  score : i.opcode = .setExplainability → ∃ score, score? (i.arg 1) = some score
  oversight : i.opcode = .setOversight → ∃ level, Oversight.parse (i.arg 1) = .ok level
  criticality : i.opcode = .setCriticality → ∃ level, Criticality.parse (i.arg 1) = .ok level

/-- **Why an instruction fails**, and the session after it. -/
inductive Fails [Coordinator κ] (s : Session π γ κ) (i : Instruction) :
    Fault → Session π γ κ → Prop
  | alreadyBound (op : i.opcode = .allocQudit)
      (bound : s.tables.bindings.contains (i.arg 0) = true) :
      Fails s i (.alreadyBound (i.arg 0)) s
  | invalidDimension (op : i.opcode = .allocQudit)
      (unbound : s.tables.bindings.contains (i.arg 0) = false)
      (literal : dimension? (i.arg 1) = none) : Fails s i (.invalidDimension (i.arg 1)) s
  | unresolved {k n : Nat} {r : String} {f : Fault} (gets : s.GetsTo i k)
      (operand : i.resources[k]? = some r) (cause : s.tables.resolve r = .error f)
      (readings : n = if i.needsCoherence then k else 0) : Fails s i f (s.later n)
  | decoherent {k x : Nat} {r : String} (gets : s.GetsTo i k) (operand : i.resources[k]? = some r)
      (needs : i.needsCoherence = true) (resolves : s.tables.resolve r = .ok x)
      (stale : (s.tables.register.handle? x).any (·.isCoherentAt (s.clock.after k).now) = false) :
      Fails s i (.decoherent r) (s.later (k + 1))
  | selfEntanglement (op : i.opcode = .entangle ∨ i.opcode = .entanglementSwap)
      (same : i.arg 0 = i.arg 1) : Fails s i (.selfEntanglement (i.arg 0)) s
  | alreadyEntangled {x y g : Nat} (op : i.opcode = .entangle) (distinct : i.arg 0 ≠ i.arg 1)
      (left : s.FindsOperand i 0 (i.arg 0) x) (right : s.FindsOperand i 1 (i.arg 1) y)
      (joined : s.tables.register.between? x y = some g) :
      Fails s i (.alreadyEntangled (i.arg 0) (i.arg 1)) (s.later 2)
  | notEntangled {x y : Nat} (op : i.opcode = .disentangle) (left : s.FindsOperand i 0 (i.arg 0) x)
      (right : s.FindsOperand i 1 (i.arg 1) y) (apart : s.tables.register.between? x y = none) :
      Fails s i (.notEntangled (i.arg 0) (i.arg 1)) s
  | unknownEntity (about : i.entity? = some (i.arg 0)) (literal : Legible i)
      (unknown : s.tables.entities.find? (i.arg 0) = none) :
      Fails s i (.unknownEntity (i.arg 0)) s
  | entityExists (op : i.opcode = .declareContract)
      (known : s.tables.entities.contains (i.arg 0) = true) :
      Fails s i (.entityExists (i.arg 0)) s
  | invalidScore (op : i.opcode = .setExplainability) (literal : score? (i.arg 1) = none) :
      Fails s i (.invalidScore (i.arg 1)) s
  | invalidOversight {e : UnknownLevel} (op : i.opcode = .setOversight)
      (literal : Oversight.parse (i.arg 1) = .error e) : Fails s i (.invalidLevel e) s
  | invalidCriticality {e : UnknownLevel} (op : i.opcode = .setCriticality)
      (literal : Criticality.parse (i.arg 1) = .error e) : Fails s i (.invalidLevel e) s
  | unboundVariable (op : i.opcode = .print) (unknown : s.tables.values.find? (i.arg 0) = none) :
      Fails s i (.unboundVariable (i.arg 0)) s
  | invalidBarrier (op : i.opcode = .barrier) (literal : deadline? (i.arg 1) = none) :
      Fails s i (.invalidDeadline (i.arg 1)) s
  | invalidSoft (op : i.opcode = .scheduleWindow) (literal : deadline? (i.arg 1) = none) :
      Fails s i (.invalidDeadline (i.arg 1)) s
  | invalidHard {soft : Nat} (op : i.opcode = .scheduleWindow)
      (first : deadline? (i.arg 1) = some soft) (literal : deadline? (i.arg 2) = none) :
      Fails s i (.invalidDeadline (i.arg 2)) s
  | invertedWindow {soft hard : Nat} (op : i.opcode = .scheduleWindow)
      (first : deadline? (i.arg 1) = some soft) (last : deadline? (i.arg 2) = some hard)
      (order : hard < soft) : Fails s i (.invertedWindow (i.arg 0) soft hard) s
  | refused {x : Nat} {e : CoordinationError} {c : κ}
      (op : i.opcode = .entangleRemote ∨ i.opcode = .teleport)
      (operand : s.FindsOperand i 0 (i.arg 0) x)
      (answer : Coordinator.delegate s.coordinator (s.requestFor i [x]) = (.error e, c)) :
      Fails s i (.delegationRefused e) ((s.later 1).entrust c)
  | swapRefused {x y : Nat} {e : CoordinationError} {c : κ} (op : i.opcode = .entanglementSwap)
      (distinct : i.arg 0 ≠ i.arg 1) (left : s.FindsOperand i 0 (i.arg 0) x)
      (right : s.FindsOperand i 1 (i.arg 1) y)
      (answer : Coordinator.delegate s.coordinator (s.requestFor i [x, y]) = (.error e, c)) :
      Fails s i (.delegationRefused e) (s.entrust c)

/-! ## Attempts -/

section Handlers

variable [Physics π] [Coordinator κ] {s t : Session π γ κ} {i : Instruction} {f : Fault}

/-- An attempt ends lawfully: it took effect, or it failed for a reason. -/
def Lawful (s : Session π γ κ) (i : Instruction) : Attempt (Session π γ κ) → Prop
  | .done t => s.Effect i t
  | .failed f t => s.Fails i f t

omit [Physics π] [Coordinator κ] in
theorem getsTo_zero
    (distinct : i.opcode = .entangle ∨ i.opcode = .entanglementSwap → i.arg 0 ≠ i.arg 1) :
    s.GetsTo i 0 :=
  ⟨distinct, fun _ _ before => absurd before (Nat.not_lt_zero _)⟩

omit [Physics π] [Coordinator κ] in
theorem GetsTo.next {k x : Nat} {r : String} (h : s.GetsTo i k) (operand : i.resources[k]? = some r)
    (found : s.FindsOperand i k r x) : s.GetsTo i (k + 1) := by
  refine ⟨h.distinct, fun j r' before operand' => ?_⟩
  rcases Nat.lt_succ_iff_lt_or_eq.1 before with earlier | rfl
  · exact h.found j r' earlier operand'
  · obtain rfl := Option.some.inj (operand.symm.trans operand')
    exact ⟨x, found⟩

omit [Physics π] [Coordinator κ] in
theorem finds_of_resolveCoherent {k x : Nat} {r : String}
    (h : (s.later k).resolveCoherent r = (.ok x, t)) :
    s.FindsOperand i k r x ∧ t = s.later (k + 1) := by
  cases resolves : s.tables.resolve r with
  | error f =>
    rw [resolveCoherent_of_error (s := s.later k) resolves] at h
    exact absurd h (by simp)
  | ok y =>
    rw [resolveCoherent_of_resolve (s := s.later k) resolves] at h
    obtain ⟨answer, rfl⟩ := Prod.mk.inj h
    split at answer
    · rename_i coherent
      obtain rfl := Except.ok.inj answer
      exact ⟨⟨resolves, fun _ => coherent⟩, rfl⟩
    · exact absurd answer (by simp)

omit [Physics π] in
theorem fails_of_resolveCoherent {k : Nat} {r : String} (gets : s.GetsTo i k)
    (needs : i.needsCoherence = true) (operand : i.resources[k]? = some r)
    (h : (s.later k).resolveCoherent r = (.error f, t)) : s.Fails i f t := by
  cases resolves : s.tables.resolve r with
  | error g =>
    rw [resolveCoherent_of_error (s := s.later k) resolves] at h
    obtain ⟨answer, rfl⟩ := Prod.mk.inj h
    obtain rfl := Except.error.inj answer
    exact .unresolved gets operand resolves (by rw [needs, if_pos rfl])
  | ok x =>
    rw [resolveCoherent_of_resolve (s := s.later k) resolves] at h
    obtain ⟨answer, rfl⟩ := Prod.mk.inj h
    split at answer
    · exact absurd answer (by simp)
    · rename_i stale
      obtain rfl := Except.error.inj answer
      exact .decoherent gets operand needs resolves (Bool.eq_false_iff.2 stale)

omit [Physics π] [Coordinator κ] in
theorem finds_of_resolve {k x : Nat} {r : String} (plain : i.needsCoherence = false)
    (h : s.tables.resolve r = .ok x) : s.FindsOperand i k r x :=
  ⟨h, fun needs => absurd (plain.symm.trans needs) (by simp)⟩

omit [Physics π] in
theorem fails_of_resolve {k : Nat} {r : String} (gets : s.GetsTo i k)
    (plain : i.needsCoherence = false) (operand : i.resources[k]? = some r)
    (h : s.tables.resolve r = .error f) : s.Fails i f s :=
  .unresolved (n := 0) gets operand h (by simp [plain])

/-! ### Qudits -/

theorem allocate_lawful (s : Session π γ κ) (op : i.opcode = .allocQudit) :
    s.Lawful i (s.allocate (i.arg 0) (i.arg 1)) := by
  unfold allocate
  split
  · rename_i bound
    exact .alreadyBound op bound
  · rename_i unbound
    rw [Bool.not_eq_true] at unbound
    split
    · rename_i literal
      exact .invalidDimension op unbound literal
    · rename_i d literal
      exact .allocate op (Table.contains_eq_false_iff.1 unbound) literal

theorem entangle_lawful (s : Session π γ κ) (op : i.opcode = .entangle) :
    s.Lawful i (s.entangle (i.arg 0) (i.arg 1)) := by
  have needs : i.needsCoherence = true := by rw [Instruction.needsCoherence, op]
  have operands : i.resources = [i.arg 0, i.arg 1] := by rw [Instruction.resources, op]
  have first : i.resources[0]? = some (i.arg 0) := by rw [operands]; rfl
  have second : i.resources[1]? = some (i.arg 1) := by rw [operands]; rfl
  unfold entangle
  split
  · rename_i same
    exact .selfEntanglement (.inl op) same
  · rename_i distinct
    have start : s.GetsTo i 0 := getsTo_zero fun _ => distinct
    split
    · rename_i f t stuck
      exact fails_of_resolveCoherent start needs first stuck
    · rename_i x t found
      obtain ⟨left, rfl⟩ := finds_of_resolveCoherent (k := 0) found
      split
      · rename_i f t stuck
        exact fails_of_resolveCoherent (start.next first left) needs second stuck
      · rename_i y t found
        obtain ⟨right, rfl⟩ := finds_of_resolveCoherent (k := 1) found
        split
        · rename_i g joined
          exact .alreadyEntangled op distinct left right joined
        · rename_i apart
          exact .entangle op distinct left right apart rfl

theorem disentangle_lawful (s : Session π γ κ) (op : i.opcode = .disentangle) :
    s.Lawful i (s.disentangle (i.arg 0) (i.arg 1)) := by
  have plain : i.needsCoherence = false := by rw [Instruction.needsCoherence, op]
  have operands : i.resources = [i.arg 0, i.arg 1] := by rw [Instruction.resources, op]
  have first : i.resources[0]? = some (i.arg 0) := by rw [operands]; rfl
  have second : i.resources[1]? = some (i.arg 1) := by rw [operands]; rfl
  have start : s.GetsTo i 0 := getsTo_zero (by simp [op])
  unfold disentangle
  split
  · rename_i f stuck
    exact fails_of_resolve start plain first stuck
  · rename_i x found
    have left : s.FindsOperand i 0 (i.arg 0) x := finds_of_resolve plain found
    split
    · rename_i f stuck
      exact fails_of_resolve (start.next first left) plain second stuck
    · rename_i y found
      have right : s.FindsOperand i 1 (i.arg 1) y := finds_of_resolve plain found
      split
      · rename_i apart
        exact .notEntangled op left right apart
      · rename_i g joined
        exact .disentangle op left right joined

theorem applyGate_lawful (s : Session π γ κ) (op : i.opcode = .applyGate) :
    s.Lawful i (s.applyGate (i.arg 0) (i.arg 1)) := by
  have needs : i.needsCoherence = true := by rw [Instruction.needsCoherence, op]
  have first : i.resources[0]? = some (i.arg 1) := by rw [Instruction.resources, op]; rfl
  unfold applyGate
  split
  · rename_i f t stuck
    exact fails_of_resolveCoherent (getsTo_zero (by simp [op])) needs first stuck
  · rename_i x t found
    obtain ⟨operand, rfl⟩ := finds_of_resolveCoherent (k := 0) found
    exact .applyGate op operand

theorem measure_lawful (s : Session π γ κ) (op : i.opcode = .measure) :
    s.Lawful i (s.measure (i.arg 0)) := by
  have plain : i.needsCoherence = false := by rw [Instruction.needsCoherence, op]
  have first : i.resources[0]? = some (i.arg 0) := by rw [Instruction.resources, op]; rfl
  unfold measure
  split
  · rename_i f stuck
    exact fails_of_resolve (getsTo_zero (by simp [op])) plain first stuck
  · rename_i x found
    obtain ⟨q, live, -⟩ := Tables.handle_of_resolve found
    dsimp only
    rw [live, consume_of_resolve (s := s.consult _) live]
    exact .measure op (finds_of_resolve plain found) live rfl

theorem release_lawful (s : Session π γ κ) (op : i.opcode = .release) :
    s.Lawful i (s.release (i.arg 0)) := by
  have plain : i.needsCoherence = false := by rw [Instruction.needsCoherence, op]
  have first : i.resources[0]? = some (i.arg 0) := by rw [Instruction.resources, op]; rfl
  unfold release
  split
  · rename_i f stuck
    exact fails_of_resolve (getsTo_zero (by simp [op])) plain first stuck
  · rename_i x found
    obtain ⟨q, live, -⟩ := Tables.handle_of_resolve found
    rw [consume_of_resolve live]
    exact .release op (finds_of_resolve plain found)

/-! ### Entities -/

theorem updateEntity_lawful (s : Session π γ κ) {change : Entity → Entity} {line : String}
    (about : i.entity? = some (i.arg 0)) (literal : Legible i)
    (governs : ∀ e, s.Governs i e (change e) (s.say line)) :
    s.Lawful i (s.updateEntity (i.arg 0) change line) := by
  unfold updateEntity
  split
  · rename_i unknown
    exact .unknownEntity about literal unknown
  · rename_i e known
    exact .govern known (governs e)

theorem declareContract_lawful (s : Session π γ κ) (op : i.opcode = .declareContract) :
    s.Lawful i (s.declareContract (i.arg 0)) := by
  unfold declareContract
  split
  · rename_i known
    exact .entityExists op known
  · rename_i unknown
    rw [Bool.not_eq_true] at unknown
    exact .declare op (Table.contains_eq_false_iff.1 unknown)

theorem setExplainability_lawful (s : Session π γ κ) (op : i.opcode = .setExplainability) :
    s.Lawful i (s.setExplainability (i.arg 0) (i.arg 1)) := by
  unfold setExplainability
  split
  · rename_i literal
    exact .invalidScore op literal
  · rename_i score literal
    exact s.updateEntity_lawful (by rw [Instruction.entity?, op])
      ⟨fun _ => ⟨score, literal⟩, by simp [op], by simp [op]⟩ fun _ => .explainability op literal

theorem setOversight_lawful (s : Session π γ κ) (op : i.opcode = .setOversight) :
    s.Lawful i (s.setOversight (i.arg 0) (i.arg 1)) := by
  unfold setOversight
  split
  · rename_i e literal
    exact .invalidOversight op literal
  · rename_i level literal
    exact s.updateEntity_lawful (by rw [Instruction.entity?, op])
      ⟨by simp [op], fun _ => ⟨level, literal⟩, by simp [op]⟩ fun _ => .oversight op literal

theorem setCriticality_lawful (s : Session π γ κ) (op : i.opcode = .setCriticality) :
    s.Lawful i (s.setCriticality (i.arg 0) (i.arg 1)) := by
  unfold setCriticality
  split
  · rename_i e literal
    exact .invalidCriticality op literal
  · rename_i level literal
    exact s.updateEntity_lawful (by rw [Instruction.entity?, op])
      ⟨by simp [op], by simp [op], fun _ => ⟨level, literal⟩⟩ fun _ => .criticality op literal

theorem verify_lawful (s : Session π γ κ) (op : i.opcode = .verify) :
    s.Lawful i (s.verify i) := by
  unfold verify
  dsimp only
  split
  · rename_i unknown
    exact .unknownEntity (by rw [Instruction.entity?, op])
      ⟨by simp [op], by simp [op], by simp [op]⟩ unknown
  · rename_i e known
    exact .govern known (.verify op rfl)

theorem decide_lawful (s : Session π γ κ) (op : i.opcode = .decide) :
    s.Lawful i (s.decide (i.arg 0) (i.arg 1)) := by
  unfold decide
  split
  · rename_i unknown
    exact .unknownEntity (by rw [Instruction.entity?, op])
      ⟨by simp [op], by simp [op], by simp [op]⟩ unknown
  · rename_i e known
    exact .govern known (.decide op)

/-! ### Values and other nodes -/

theorem print_lawful (s : Session π γ κ) (op : i.opcode = .print) :
    s.Lawful i (s.print (i.arg 0)) := by
  unfold print
  split
  · rename_i unknown
    exact .unboundVariable op unknown
  · rename_i v known
    exact .print op known

theorem registerBarrier_lawful (s : Session π γ κ) (op : i.opcode = .barrier) :
    s.Lawful i (s.registerBarrier (i.arg 0) (i.arg 1)) := by
  unfold registerBarrier
  split
  · rename_i literal
    exact .invalidBarrier op literal
  · rename_i deadline literal
    exact .barrier op literal

theorem scheduleWindow_lawful (s : Session π γ κ) (op : i.opcode = .scheduleWindow) :
    s.Lawful i (s.scheduleWindow (i.arg 0) (i.arg 1) (i.arg 2)) := by
  unfold scheduleWindow
  split
  · rename_i literal
    exact .invalidSoft op literal
  · rename_i soft first
    split
    · rename_i literal
      exact .invalidHard op first literal
    · rename_i hard last
      split
      · rename_i order
        exact .invertedWindow op first last order
      · rename_i order
        exact .window op first last (Nat.le_of_not_lt order)

theorem entangleRemote_lawful (s : Session π γ κ) (op : i.opcode = .entangleRemote) :
    s.Lawful i (s.entangleRemote (i.arg 0) (i.arg 1)) := by
  have needs : i.needsCoherence = true := by rw [Instruction.needsCoherence, op]
  have first : i.resources[0]? = some (i.arg 0) := by rw [Instruction.resources, op]; rfl
  unfold entangleRemote
  split
  · rename_i f t stuck
    exact fails_of_resolveCoherent (getsTo_zero (by simp [op])) needs first stuck
  · rename_i x t found
    obtain ⟨operand, rfl⟩ := finds_of_resolveCoherent (k := 0) found
    have request := s.requestFor_remote op x
    split
    · rename_i e t asked
      obtain ⟨c, answer, rfl⟩ := delegate_eq asked
      exact .refused (.inl op) operand (request ▸ answer)
    · rename_i ticket t asked
      obtain ⟨c, answer, rfl⟩ := delegate_eq asked
      have effect := Effect.entangleRemote op operand (request ▸ answer) rfl
      exact effect

theorem teleport_lawful (s : Session π γ κ) (op : i.opcode = .teleport) :
    s.Lawful i (s.teleport (i.arg 0) (i.arg 1)) := by
  have needs : i.needsCoherence = true := by rw [Instruction.needsCoherence, op]
  have first : i.resources[0]? = some (i.arg 0) := by rw [Instruction.resources, op]; rfl
  unfold teleport
  split
  · rename_i f t stuck
    exact fails_of_resolveCoherent (getsTo_zero (by simp [op])) needs first stuck
  · rename_i x t found
    obtain ⟨operand, rfl⟩ := finds_of_resolveCoherent (k := 0) found
    have request := s.requestFor_teleport op x
    split
    · rename_i e t asked
      obtain ⟨c, answer, rfl⟩ := delegate_eq asked
      exact .refused (.inr op) operand (request ▸ answer)
    · rename_i ticket t asked
      obtain ⟨c, answer, rfl⟩ := delegate_eq asked
      obtain ⟨q, live, -⟩ := Tables.handle_of_resolve operand.resolves
      have gone (p : π) := discard_of_handle (s := s.calledUpon c p) (i.arg 0) live
      unfold calledUpon at gone
      dsimp only
      rw [gone]
      have effect := Effect.teleport op operand live (request ▸ answer) rfl
      exact effect

theorem swap_lawful (s : Session π γ κ) (op : i.opcode = .entanglementSwap) :
    s.Lawful i (s.swap (i.arg 0) (i.arg 1)) := by
  have plain : i.needsCoherence = false := by rw [Instruction.needsCoherence, op]
  have operands : i.resources = [i.arg 0, i.arg 1] := by rw [Instruction.resources, op]
  have first : i.resources[0]? = some (i.arg 0) := by rw [operands]; rfl
  have second : i.resources[1]? = some (i.arg 1) := by rw [operands]; rfl
  unfold swap
  split
  · rename_i same
    exact .selfEntanglement (.inr op) same
  · rename_i distinct
    have start : s.GetsTo i 0 := getsTo_zero fun _ => distinct
    split
    · rename_i f stuck
      exact fails_of_resolve start plain first stuck
    · rename_i x found
      have left : s.FindsOperand i 0 (i.arg 0) x := finds_of_resolve plain found
      split
      · rename_i f stuck
        exact fails_of_resolve (start.next first left) plain second stuck
      · rename_i y found
        have right : s.FindsOperand i 1 (i.arg 1) y := finds_of_resolve plain found
        have request := s.requestFor_swap op x y
        dsimp only
        split
        · rename_i e t asked
          obtain ⟨c, answer, rfl⟩ := delegate_eq asked
          exact .swapRefused op distinct left right (request ▸ answer)
        · rename_i ticket t asked
          obtain ⟨c, answer, rfl⟩ := delegate_eq asked
          exact .swap op distinct left right (request ▸ answer)

/-- **Every attempt ends lawfully.** -/
theorem attempt_lawful (s : Session π γ κ) (i : Instruction) : s.Lawful i (s.attempt i) := by
  unfold attempt
  cases op : i.opcode with
  | allocQudit => exact s.allocate_lawful op
  | entangle => exact s.entangle_lawful op
  | disentangle => exact s.disentangle_lawful op
  | applyGate => exact s.applyGate_lawful op
  | measure => exact s.measure_lawful op
  | release => exact s.release_lawful op
  | declareContract => exact s.declareContract_lawful op
  | setExplainability => exact s.setExplainability_lawful op
  | setOversight => exact s.setOversight_lawful op
  | setCriticality => exact s.setCriticality_lawful op
  | approve =>
    exact s.updateEntity_lawful (by rw [Instruction.entity?, op])
      ⟨by simp [op], by simp [op], by simp [op]⟩ fun _ => .approve op
  | deploy =>
    exact s.updateEntity_lawful (by rw [Instruction.entity?, op])
      ⟨by simp [op], by simp [op], by simp [op]⟩ fun _ => .deploy op
  | verify => exact s.verify_lawful op
  | decide => exact s.decide_lawful op
  | bind => exact .bind op
  | print => exact s.print_lawful op
  | setTargetNode => exact .targetNode op
  | setChannel => exact .channel op
  | entangleRemote => exact s.entangleRemote_lawful op
  | teleport => exact s.teleport_lawful op
  | entanglementSwap => exact s.swap_lawful op
  | barrier => exact s.registerBarrier_lawful op
  | scheduleWindow => exact s.scheduleWindow_lawful op

/-! ### And nothing else -/

omit [Physics π] in
theorem delegate_of_answer {request : DelegationRequest}
    {answer : Except CoordinationError Ticket} {c : κ}
    (h : Coordinator.delegate s.coordinator request = (answer, c)) :
    s.delegate request = (answer, s.entrust c) := by
  rw [delegate, h]

/-- Whatever is said to be made of an entity, the instruction makes of it. -/
theorem attempt_of_change {e e' : Entity} (known : s.tables.entities.find? (i.arg 0) = some e)
    (change : s.Governs i e e' t) :
    s.attempt i = .done (t.withTables (s.tables.putEntity (i.arg 0) e')) := by
  unfold attempt
  cases change with
  | explainability op literal =>
    rw [op]
    simp only [setExplainability, literal, updateEntity, known]
    rfl
  | oversight op literal =>
    rw [op]
    simp only [setOversight, literal, updateEntity, known]
    rfl
  | criticality op literal =>
    rw [op]
    simp only [setCriticality, literal, updateEntity, known]
    rfl
  | approve op =>
    rw [op]
    simp only [approve, updateEntity, known]
    rfl
  | deploy op =>
    rw [op]
    simp only [deploy, updateEntity, known]
    rfl
  | verify op judged =>
    rw [op]
    simp only [verify, known, judged]
    rfl
  | decide op =>
    rw [op]
    simp only [decide, known]
    rfl

/-- Whatever an effect says, the instruction does. -/
theorem attempt_of_effect (h : s.Effect i t) : s.attempt i = .done t := by
  unfold attempt
  cases h with
  | allocate op unbound literal =>
    rw [op]
    simp only [allocate, Table.contains_eq_false_iff.2 unbound, literal]
    rfl
  | entangle op distinct left right apart time =>
    have needs : i.needsCoherence = true := by rw [Instruction.needsCoherence, op]
    rw [op]
    dsimp only
    rw [entangle, if_neg distinct, left.first needs]
    dsimp only
    rw [right.resolveCoherent needs]
    dsimp only
    rw [show (s.later (1 + 1)).tables.register.between? _ _ = none from apart, ← time]
    rfl
  | disentangle op left right joined =>
    rw [op]
    simp only [disentangle, left.resolves, right.resolves, joined]
    rfl
  | applyGate op operand =>
    have needs : i.needsCoherence = true := by rw [Instruction.needsCoherence, op]
    rw [op]
    dsimp only
    rw [applyGate, operand.first needs]
    rfl
  | measure op operand live measured =>
    rw [op]
    simp only [measure, operand.resolves, live, Option.map_some, Option.getD_some, measured]
    rw [consume_of_resolve (s := s.consult _) live]
    rfl
  | release op operand =>
    obtain ⟨q, live, -⟩ := Tables.handle_of_resolve operand.resolves
    rw [op]
    simp only [release, operand.resolves, consume_of_resolve live]
    rfl
  | declare op unknown =>
    rw [op]
    simp only [declareContract, Table.contains_eq_false_iff.2 unknown]
    rfl
  | govern known change => exact attempt_of_change known change
  | bind op | targetNode op | channel op =>
    rw [op]
    rfl
  | print op known =>
    rw [op]
    simp only [print, known]
  | barrier op literal =>
    rw [op]
    simp only [registerBarrier, literal]
    rfl
  | window op first last order =>
    rw [op]
    simp only [scheduleWindow, first, last, if_neg (Nat.not_lt_of_le order)]
    rfl
  | @entangleRemote x ticket c key p op operand accepted keyed =>
    have needs : i.needsCoherence = true := by rw [Instruction.needsCoherence, op]
    have asked := delegate_of_answer (s := s.later 1) (s.requestFor_remote op x ▸ accepted)
    rw [op]
    dsimp only
    rw [entangleRemote, operand.first needs]
    dsimp only
    rw [delegationRequest_later, asked]
    dsimp only
    rw [show Physics.distributeKey ((s.later 1).entrust c).physics
      ((s.later 1).entrust c).settings.localNode _ _ = (key, p) from keyed]
    rfl
  | @teleport x q ticket c fidelity p op operand live accepted estimated =>
    have needs : i.needsCoherence = true := by rw [Instruction.needsCoherence, op]
    have asked := delegate_of_answer (s := s.later 1) (s.requestFor_teleport op x ▸ accepted)
    have gone := discard_of_handle (s := s.calledUpon c p) (i.arg 0) live
    rw [op]
    dsimp only
    rw [teleport, operand.first needs]
    dsimp only
    rw [delegationRequest_later, asked]
    dsimp only
    rw [show Physics.fidelity ((s.later 1).entrust c).physics
      ((s.later 1).entrust c).settings.localNode _ = (fidelity, p) from estimated]
    dsimp only
    rw [show (((s.later 1).entrust c).consult p).discard (i.arg 0) x = _ from gone]
    rfl
  | @swap x y ticket c op distinct left right accepted =>
    rw [s.requestFor_swap op] at accepted
    rw [op]
    simp only [swap, if_neg distinct, left.resolves, right.resolves, delegate_of_answer accepted]
    rfl

omit [Physics π] [Coordinator κ] in
theorem operand_of_single {k : Nat} {r a : String} (single : i.resources = [a])
    (operand : i.resources[k]? = some r) : k = 0 ∧ r = a := by
  rw [single, List.getElem?_singleton] at operand
  split at operand
  · rename_i first
    exact ⟨first, (Option.some.inj operand).symm⟩
  · exact absurd operand (by simp)

omit [Physics π] [Coordinator κ] in
theorem operand_of_pair {k : Nat} {r a b : String} (pair : i.resources = [a, b])
    (operand : i.resources[k]? = some r) : k = 0 ∧ r = a ∨ k = 1 ∧ r = b := by
  rw [pair] at operand
  match k with
  | 0 => exact .inl ⟨rfl, (Option.some.inj operand).symm⟩
  | 1 => exact .inr ⟨rfl, (Option.some.inj operand).symm⟩
  | k + 2 => exact absurd operand (by simp)

/-- An instruction stops at the first operand that is not there or not coherent. -/
theorem attempt_of_stuck {k : Nat} {r : String} (gets : s.GetsTo i k)
    (needs : i.needsCoherence = true) (operand : i.resources[k]? = some r)
    (stuck : (s.later k).resolveCoherent r = (.error f, t)) : s.attempt i = .failed f t := by
  unfold attempt
  cases op : i.opcode with
  | applyGate =>
    obtain ⟨rfl, rfl⟩ := operand_of_single (by rw [Instruction.resources, op]) operand
    simp only [applyGate, show s.resolveCoherent (i.arg 1) = _ from stuck]
  | entangleRemote =>
    obtain ⟨rfl, rfl⟩ := operand_of_single (by rw [Instruction.resources, op]) operand
    simp only [entangleRemote, show s.resolveCoherent (i.arg 0) = _ from stuck]
  | teleport =>
    obtain ⟨rfl, rfl⟩ := operand_of_single (by rw [Instruction.resources, op]) operand
    simp only [teleport, show s.resolveCoherent (i.arg 0) = _ from stuck]
  | entangle =>
    have operands : i.resources = [i.arg 0, i.arg 1] := by rw [Instruction.resources, op]
    have distinct := gets.distinct (.inl op)
    obtain ⟨rfl, rfl⟩ | ⟨rfl, rfl⟩ := operand_of_pair operands operand
    · simp only [entangle, if_neg distinct, show s.resolveCoherent (i.arg 0) = _ from stuck]
    · obtain ⟨x, left⟩ := gets.found 0 (i.arg 0) Nat.zero_lt_one (by rw [operands]; rfl)
      simp only [entangle, if_neg distinct, left.first needs, stuck]
  | _ => exact absurd needs (by simp [Instruction.needsCoherence, op])

theorem attempt_of_unresolved {k : Nat} {r : String} (gets : s.GetsTo i k)
    (plain : i.needsCoherence = false) (operand : i.resources[k]? = some r)
    (cause : s.tables.resolve r = .error f) : s.attempt i = .failed f s := by
  unfold attempt
  cases op : i.opcode with
  | measure =>
    obtain ⟨rfl, rfl⟩ := operand_of_single (by rw [Instruction.resources, op]) operand
    simp only [measure, cause]
  | release =>
    obtain ⟨rfl, rfl⟩ := operand_of_single (by rw [Instruction.resources, op]) operand
    simp only [release, cause]
  | disentangle =>
    have operands : i.resources = [i.arg 0, i.arg 1] := by rw [Instruction.resources, op]
    obtain ⟨rfl, rfl⟩ | ⟨rfl, rfl⟩ := operand_of_pair operands operand
    · simp only [disentangle, cause]
    · obtain ⟨x, left⟩ := gets.found 0 (i.arg 0) Nat.zero_lt_one (by rw [operands]; rfl)
      simp only [disentangle, left.resolves, cause]
  | entanglementSwap =>
    have operands : i.resources = [i.arg 0, i.arg 1] := by rw [Instruction.resources, op]
    have distinct := gets.distinct (.inr op)
    obtain ⟨rfl, rfl⟩ | ⟨rfl, rfl⟩ := operand_of_pair operands operand
    · simp only [swap, if_neg distinct, cause]
    · obtain ⟨x, left⟩ := gets.found 0 (i.arg 0) Nat.zero_lt_one (by rw [operands]; rfl)
      simp only [swap, if_neg distinct, left.resolves, cause]
  | _ => simp [Instruction.resources, Instruction.needsCoherence, op] at operand plain

/-- An instruction on an entity that is not there fails, if its literal can be read. -/
theorem attempt_of_unknownEntity (about : i.entity? = some (i.arg 0)) (literal : Legible i)
    (unknown : s.tables.entities.find? (i.arg 0) = none) :
    s.attempt i = .failed (.unknownEntity (i.arg 0)) s := by
  unfold attempt
  cases op : i.opcode with
  | setExplainability =>
    obtain ⟨score, literal⟩ := literal.score op
    simp only [setExplainability, literal, updateEntity, unknown]
  | setOversight =>
    obtain ⟨level, literal⟩ := literal.oversight op
    simp only [setOversight, literal, updateEntity, unknown]
  | setCriticality =>
    obtain ⟨level, literal⟩ := literal.criticality op
    simp only [setCriticality, literal, updateEntity, unknown]
  | approve => simp only [approve, updateEntity, unknown]
  | deploy => simp only [deploy, updateEntity, unknown]
  | verify => simp only [verify, unknown]
  | decide => simp only [decide, unknown]
  | _ => exact absurd about (by simp [Instruction.entity?, op])

/-- Whatever a failure says, the instruction does. -/
theorem attempt_of_fails (h : s.Fails i f t) : s.attempt i = .failed f t := by
  cases h with
  | @unresolved k n r f gets operand cause readings =>
    cases needs : i.needsCoherence with
    | true =>
      rw [needs, if_pos rfl] at readings
      exact attempt_of_stuck gets needs operand
        (readings ▸ resolveCoherent_of_error (s := s.later k) cause)
    | false =>
      rw [needs, if_neg (by simp)] at readings
      exact readings ▸ attempt_of_unresolved gets needs operand cause
  | @decoherent k x r gets operand needs resolves stale =>
    refine attempt_of_stuck gets needs operand ?_
    rw [resolveCoherent_of_resolve (s := s.later k) resolves]
    exact congrArg (·, s.later (k + 1)) (if_neg (by simp only [later, stale]; simp))
  | alreadyBound op bound =>
    simp only [attempt, op, allocate, if_pos bound]
  | invalidDimension op unbound literal =>
    simp only [attempt, op, allocate, unbound, literal]
    rfl
  | selfEntanglement op same =>
    obtain op | op := op
    · simp only [attempt, op, entangle, if_pos same]
    · simp only [attempt, op, swap, if_pos same]
  | @alreadyEntangled x y g op distinct left right joined =>
    have needs : i.needsCoherence = true := by rw [Instruction.needsCoherence, op]
    have second : (s.later 1).resolveCoherent (i.arg 1) = (.ok y, s.later 2) :=
      right.resolveCoherent needs
    simp only [attempt, op, entangle, if_neg distinct, left.first needs, second,
      show (s.later 2).tables.register.between? x y = some g from joined]
  | notEntangled op left right apart =>
    simp only [attempt, op, disentangle, left.resolves, right.resolves, apart]
  | unknownEntity about literal unknown => exact attempt_of_unknownEntity about literal unknown
  | entityExists op known =>
    simp only [attempt, op, declareContract, if_pos known]
  | invalidScore op literal =>
    simp only [attempt, op, setExplainability, literal]
  | invalidOversight op literal =>
    simp only [attempt, op, setOversight, literal]
  | invalidCriticality op literal =>
    simp only [attempt, op, setCriticality, literal]
  | unboundVariable op unknown =>
    simp only [attempt, op, print, unknown]
  | invalidBarrier op literal =>
    simp only [attempt, op, registerBarrier, literal]
  | invalidSoft op literal =>
    simp only [attempt, op, scheduleWindow, literal]
  | invalidHard op first literal =>
    simp only [attempt, op, scheduleWindow, first, literal]
  | invertedWindow op first last order =>
    simp only [attempt, op, scheduleWindow, first, last, if_pos order]
  | @refused x e c op operand answer =>
    have needs : i.needsCoherence = true := by
      obtain op | op := op <;> rw [Instruction.needsCoherence, op]
    have found := operand.first needs
    obtain op | op := op
    · have asked := delegate_of_answer (s := s.later 1) (s.requestFor_remote op x ▸ answer)
      simp only [attempt, op, entangleRemote, found, delegationRequest_later, asked]
    · have asked := delegate_of_answer (s := s.later 1) (s.requestFor_teleport op x ▸ answer)
      simp only [attempt, op, teleport, found, delegationRequest_later, asked]
  | swapRefused op distinct left right answer =>
    rw [s.requestFor_swap op] at answer
    simp only [attempt, op, swap, if_neg distinct, left.resolves, right.resolves,
      delegate_of_answer answer]

/-- **An instruction takes effect in the ways listed and in no other.** -/
theorem attempt_done_iff : s.attempt i = .done t ↔ s.Effect i t := by
  refine ⟨fun h => ?_, attempt_of_effect⟩
  have lawful := s.attempt_lawful i
  rw [h] at lawful
  exact lawful

/-- **An instruction fails for the reasons listed and for no other.** -/
theorem attempt_failed_iff : s.attempt i = .failed f t ↔ s.Fails i f t := by
  refine ⟨fun h => ?_, attempt_of_fails⟩
  have lawful := s.attempt_lawful i
  rw [h] at lawful
  exact lawful

/-! ## What an attempt leaves alone -/

omit [Physics π] in
/-- A failed attempt leaves everything alone but the clock and the coordinator. -/
theorem Fails.eq (h : s.Fails i f t) :
    t = { s with clock := t.clock, coordinator := t.coordinator } := by
  cases h <;> rfl

omit [Physics π] in
theorem Fails.untouched (h : s.Fails i f t) : s.Untouched t := by
  rw [h.eq]
  exact .of_update s _ _

omit [Physics π] in
theorem Fails.diagnostics (h : s.Fails i f t) : t.diagnostics = s.diagnostics := by rw [h.eq]

omit [Physics π] [Coordinator κ] in
theorem Governs.eq {e e' : Entity} (h : s.Governs i e e' t) :
    t = { s with clock := t.clock, diagnostics := t.diagnostics, console := t.console } := by
  cases h <;> rfl

/-- An attempt keeps to what instructions act on and to those it asks. -/
theorem Effect.eq (h : s.Effect i t) :
    t = { s with
      clock := t.clock, physics := t.physics, coordinator := t.coordinator,
      nextHandle := t.nextHandle, tables := t.tables, diagnostics := t.diagnostics,
      console := t.console } := by
  cases h with
  | govern known change =>
    rw [change.eq]
    rfl
  | _ => rfl

/-- An instruction that took effect found its operands. -/
theorem Effect.finds (h : s.Effect i t) {k : Nat} {r : String}
    (operand : i.resources[k]? = some r) : ∃ x, s.FindsOperand i k r x := by
  cases h with
  | entangle op _ left right | disentangle op left right | swap op _ left right =>
    obtain ⟨rfl, rfl⟩ | ⟨rfl, rfl⟩ := operand_of_pair (by rw [Instruction.resources, op]) operand
    · exact ⟨_, left⟩
    · exact ⟨_, right⟩
  | applyGate op found | measure op found | release op found | entangleRemote op found
  | teleport op found =>
    obtain ⟨rfl, rfl⟩ := operand_of_single (by rw [Instruction.resources, op]) operand
    exact ⟨_, found⟩
  | govern known change => cases change <;> simp_all [Instruction.resources]
  | _ => simp_all [Instruction.resources]

theorem Effect.sameCourse (h : s.Effect i t) : s.SameCourse t := by
  rw [h.eq]
  exact .of_update s _ _ _ _ _ _ _

/-- Only a verification reports anything by itself, a warning. -/
theorem Effect.diagnostics (h : s.Effect i t) :
    t.diagnostics = s.diagnostics ∨ ∃ d : Diagnostic, d.severity = .warning ∧
      d.category = .aiSafety ∧ t.diagnostics = s.diagnostics.push d := by
  cases h with
  | govern known change =>
    cases change with
    | @verify verdict op judged =>
      cases passed : verdict.passed with
      | true => exact .inl (by simp [withTables, reportUnless, say, awaitExplainer])
      | false =>
        exact .inr ⟨verificationWarning (i.arg 0) verdict.reasons i.location, rfl, rfl,
          by simp [withTables, reportUnless, say, awaitExplainer]⟩
    | _ => exact .inl rfl
  | _ => exact .inl rfl

end Handlers

end Session

end GovernedQuantum
