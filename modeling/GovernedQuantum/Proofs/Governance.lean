import GovernedQuantum.Proofs.History

/-!
# Governance safety

Deployments and decisions are on record with the entity that made them. They reach the record on two
ways: directly, where the verdict on them passes, or by the consent of a human who was asked. This
file proves that there is no third, over whole lives of sessions.

* `Tables.trail`: the record of an entity, for deployments or for decisions.
* `Event.appended`: what an event adds to a record.
* `Event.Grounded`: the event had the right to add something.
* `Session.Pending`: what is known of a request while a session waits for its answer.
* `Session.governance_safety`: **the theorem.**
-/

namespace GovernedQuantum

/-! ## Trails -/

/-- What an entity was let to do of one kind, in order. -/
def Entity.trail (kind : OperationKind) (e : Entity) : List String :=
  match kind with
  | .deployment => e.deployments.toList
  | .decision => e.decisions.toList
  | .contract | .quantumOp | .verificationCheck | .configuration => []

/-- The same by name; an entity that is not declared has done nothing. -/
def Tables.trail (t : Tables) (kind : OperationKind) (name : String) : List String :=
  ((t.entities.find? name).map (Entity.trail kind)).getD []

namespace Instruction

/-- What an instruction adds to a trail when it takes effect: a deployment its target, a decision
its action, all others nothing. -/
def entry (i : Instruction) (kind : OperationKind) (name : String) : List String :=
  if i.opcode.operationKind.isGated = true ∧ kind = i.opcode.operationKind ∧
    name = i.arg 0 then [i.arg 1]
  else []

theorem entry_of_free {i : Instruction} (h : i.opcode.operationKind.isGated = false)
    (kind : OperationKind) (name : String) : i.entry kind name = [] := by
  rw [entry, if_neg]
  rintro ⟨gated, -⟩
  exact absurd (gated.symm.trans h) (by simp)

theorem entry_of_gated {i : Instruction} (h : i.opcode.operationKind.isGated = true)
    (kind : OperationKind) (name : String) :
    i.entry kind name =
      if kind = i.opcode.operationKind ∧ name = i.arg 0 then [i.arg 1] else [] := by
  rw [entry]
  simp only [h, true_and]

theorem entry_of_ne {i : Instruction} {name : String} (h : name ≠ i.arg 0) (kind : OperationKind) :
    i.entry kind name = [] := by
  rw [entry, if_neg]
  rintro ⟨-, -, he⟩
  exact h he

theorem eq_of_mem_entry {i : Instruction} {kind : OperationKind} {name x : String}
    (h : x ∈ i.entry kind name) :
    i.opcode.operationKind.isGated = true ∧ i.opcode.operationKind = kind ∧ i.arg 0 = name ∧
      i.arg 1 = x := by
  rw [entry] at h
  split at h
  · rename_i hi
    exact ⟨hi.1, hi.2.1.symm, hi.2.2.symm, (List.mem_singleton.1 h).symm⟩
  · exact absurd h List.not_mem_nil

end Instruction

theorem Session.Governs.trail {π γ κ : Type} {s t : Session π γ κ} {i : Instruction}
    {e e' : Entity} (h : s.Governs i e e' t) (kind : OperationKind) :
    e'.trail kind = e.trail kind ++ i.entry kind (i.arg 0) := by
  cases h with
  | explainability op | oversight op | criticality op | approve op | verify op =>
    rw [Instruction.entry_of_free (by rw [op]; rfl), List.append_nil]
    rfl
  | deploy op =>
    rw [Instruction.entry_of_gated (by rw [op]; rfl), op]
    cases kind with
    | deployment =>
      rw [if_pos ⟨rfl, rfl⟩]
      exact Array.toList_push
    | contract | quantumOp | verificationCheck | decision | configuration =>
      exact (List.append_nil _).symm
  | decide op =>
    rw [Instruction.entry_of_gated (by rw [op]; rfl), op]
    cases kind with
    | decision =>
      rw [if_pos ⟨rfl, rfl⟩]
      exact Array.toList_push
    | contract | quantumOp | verificationCheck | deployment | configuration =>
      exact (List.append_nil _).symm

theorem Tables.trail_putEntity (t : Tables) (a : String) (e : Entity) (kind : OperationKind)
    (name : String) :
    (t.putEntity a e).trail kind name = if a = name then e.trail kind else t.trail kind name := by
  unfold trail putEntity
  rw [Table.find?_insert]
  split <;> rfl

namespace Session

variable {π γ κ : Type}

/-- An instruction that takes effect adds its entry, and nothing else. -/
theorem Effect.trail [Physics π] [Coordinator κ] {s t : Session π γ κ} {i : Instruction}
    (h : s.Effect i t) (kind : OperationKind) (name : String) :
    t.tables.trail kind name = s.tables.trail kind name ++ i.entry kind name := by
  cases h with
  | allocate op | entangle op | disentangle op | applyGate op | measure op | release op | bind op
  | print op | targetNode op | channel op | barrier op | window op | entangleRemote op | teleport op
  | swap op =>
    rw [Instruction.entry_of_free (by rw [op]; rfl)]
    exact (List.append_nil _).symm
  | declare op unknown =>
    rw [Instruction.entry_of_free (by rw [op]; rfl), List.append_nil, tables_withTables,
      Tables.trail_putEntity]
    split
    · rename_i he
      rw [Tables.trail, ← he, unknown]
      cases kind <;> rfl
    · rfl
  | govern known change =>
    rw [tables_withTables, Tables.trail_putEntity]
    split
    · rename_i he
      rw [change.trail, Tables.trail, ← he, known]
      rfl
    · rename_i he
      rw [Instruction.entry_of_ne (Ne.symm he), List.append_nil]

/-! ## Cycles and answers -/

/-- A governed action on a declared entity cannot fail once it is let through. -/
theorem attempt_of_gated [Physics π] [Coordinator κ] {s : Session π γ κ} {i : Instruction}
    {e : Entity} (gated : i.opcode.operationKind.isGated = true)
    (known : s.tables.entities.find? (i.arg 0) = some e) : ∃ t, s.attempt i = .done t := by
  cases op : i.opcode with
  | deploy => exact ⟨_, attempt_done_iff.2 (.govern known (.deploy op))⟩
  | decide => exact ⟨_, attempt_done_iff.2 (.govern known (.decide op))⟩
  | _ =>
    rw [op] at gated
    exact absurd gated (by decide)

section

variable [Physics π] [Coordinator κ]

theorem took_cases (s : Session π γ κ) (i : Instruction) : s.took i = [] ∨ s.took i = [i] := by
  unfold took
  cases s.attempt i with
  | done t => exact .inr rfl
  | failed f t => exact .inl rfl

theorem stepLog_cases (s : Session π γ κ) (index : Nat) (i : Instruction) :
    s.stepLog index i = [] ∨ s.stepLog index i = [i] := by
  unfold stepLog
  split
  · exact took_cases _ i
  · exact .inl rfl

/-- What takes effect in its cycle has passed the gate, if there is one for it. -/
theorem verdict_of_stepLog {s : Session π γ κ} {index : Nat} {i : Instruction}
    (log : s.stepLog index i ≠ []) (gated : i.opcode.operationKind.isGated = true) :
    (s.verdictOn i).passed = true := by
  have untouched := s.prepared_untouched index i
  unfold stepLog at log
  split at log
  · rename_i passes
    have verdict := ((s.prepared index i).2.passes_iff i).1 (Bool.and_eq_true_iff.1 passes).2 gated
    rwa [verdictOn_congr (congrArg Tables.entities untouched.tables) untouched.settings] at verdict
  · exact absurd rfl log

theorem trail_step [Gateway γ] (s : Session π γ κ) (index : Nat) (i : Instruction)
    (kind : OperationKind) (name : String) :
    (s.step index i).session.tables.trail kind name =
      s.tables.trail kind name ++ (s.stepLog index i).flatMap (·.entry kind name) := by
  rcases s.stepLog_cases index i with log | log
  · rw [tables_step_of_idle log, log, List.flatMap_nil, List.append_nil]
    rfl
  · obtain ⟨t, done, tables⟩ := tables_step_of_log (s := s) log
    rw [tables, (attempt_done_iff.1 done).trail, (s.prepared_untouched index i).tables, log,
      List.flatMap_singleton]
    rfl

theorem trail_settle (s : Session π γ κ) (index : Nat) (i : Instruction) (approved : Bool)
    (kind : OperationKind) (name : String) :
    (s.settle index i approved).tables.trail kind name =
      s.tables.trail kind name ++ (s.took i).flatMap (·.entry kind name) := by
  rcases s.settle_cases index i approved with ⟨f, t, failed, took, he⟩ | ⟨t, done, took, he⟩ <;>
    rw [took, he]
  · rw [List.flatMap_nil, List.append_nil, (t.record_untouched f i.location).tables,
      (attempt_failed_iff.1 failed).untouched.tables]
  · rw [(checkAfter_untouched _ i approved).tables, (t.validate_untouched _ _ _).tables,
      (attempt_done_iff.1 done).trail, List.flatMap_singleton]

theorem trail_acted (s : Session π γ κ) (op : Suspension) (gateway : γ) (d : Decision)
    (kind : OperationKind) (name : String) :
    ((s.answered op gateway d).acted op d).tables.trail kind name =
      s.tables.trail kind name ++
        ((s.answered op gateway d).actedLog op d).flatMap (·.entry kind name) := by
  cases d with
  | approve => exact trail_settle _ op.index op.instruction true kind name
  | reject => exact (List.append_nil _).symm

end

end Session

/-! ## Events -/

namespace Event

variable {π γ κ : Type} [Physics π] [Gateway γ] [Coordinator κ]

/-- What an event appends to a trail. -/
def appended (e : Event π γ κ) (kind : OperationKind) (name : String) : List String :=
  (e.after.tables.trail kind name).drop (e.before.tables.trail kind name).length

section

variable (e : Event π γ κ) (kind : OperationKind) (name : String)

omit [Gateway γ] in
/-- At most the event's own instruction takes effect in it. -/
theorem log_cases : e.log = [] ∨ e.log = [e.instruction] := by
  cases e with
  | cycle s index i => exact s.stepLog_cases index i
  | answer s op gateway d =>
    cases d with
    | approve => exact Session.took_cases _ op.instruction
    | reject => exact .inl rfl

theorem trail_log : e.after.tables.trail kind name =
    e.before.tables.trail kind name ++ e.log.flatMap (·.entry kind name) := by
  cases e with
  | cycle s index i => exact s.trail_step index i kind name
  | answer s op gateway d => exact s.trail_acted op gateway d kind name

/-- **What takes effect appends its entry**, and nothing else is appended. -/
theorem appended_eq : e.appended kind name = e.log.flatMap (·.entry kind name) := by
  rw [appended, trail_log, List.drop_left]

/-- An event appends to trails, and changes them in no other way. -/
theorem trail_after :
    e.after.tables.trail kind name = e.before.tables.trail kind name ++ e.appended kind name := by
  rw [appended_eq]
  exact e.trail_log kind name

end

theorem appended_of_entry {e : Event π γ κ} {kind : OperationKind} {name : String}
    (none : e.instruction.entry kind name = []) : e.appended kind name = [] := by
  rw [appended_eq]
  rcases e.log_cases with log | log <;> rw [log]
  · exact List.flatMap_nil
  · rw [List.flatMap_singleton, none]

/-- The request that the event approves. -/
def approval? : Event π γ κ → Option Request
  | .answer _ op _ .approve => some op.request
  | _ => none

/-- **An event that had the right to append**, in the light of the events before it: the verdict
passes in the session that it starts from, or a human approves the request that was filed just
before for this very instruction, while the entity was under oversight. -/
inductive Grounded (earlier : List (Event π γ κ)) : Event π γ κ → Prop
  | verified {s : Session π γ κ} {index : Nat} {i : Instruction}
      (passed : (s.verdictOn i).passed = true) : Grounded earlier (.cycle s index i)
  | approved {s filer t : Session π γ κ} {op : Suspension} {gateway : γ} {e : Entity}
      (filed : earlier.getLast? = some (.cycle filer op.index op.instruction))
      (asked : filer.step op.index op.instruction = .suspended op.request t)
      (known : filer.tables.entities.find? (op.instruction.arg 0) = some e)
      (overseen : e.oversight ≠ .none) : Grounded earlier (.answer s op gateway .approve)

/-- A deployment or a decision by an entity that nobody oversees, though it is too critical for
that. -/
def Unwatched (e : Event π γ κ) : Prop :=
  e.instruction.opcode.operationKind.isGated = true ∧
  (Profile.ofInstruction e.instruction e.before.tables.entities
    e.before.settings).criticality.requiresOversight = true ∧
  ∃ entity, e.before.tables.entities.find? (e.instruction.arg 0) = some entity ∧
    entity.oversight = .none

/-- **What governance demands of an event**, in the light of the events before it. -/
structure Governed (earlier : List (Event π γ κ)) (e : Event π γ κ) : Prop where
  /-- All that is appended is the entry of the event's instruction, and the event had the right to
  it. -/
  grounded : ∀ kind name x, x ∈ e.appended kind name → e.instruction.opcode.operationKind = kind ∧
    e.instruction.arg 0 = name ∧ e.instruction.arg 1 = x ∧ e.Grounded earlier
  /-- An approval appends exactly one element. -/
  approved : ∀ request, e.approval? = some request →
    e.instruction.opcode.operationKind.isGated = true ∧ ∀ kind name, e.appended kind name =
      if kind = e.instruction.opcode.operationKind ∧ name = e.instruction.arg 0 then
        [e.instruction.arg 1] else []
  /-- A rejection appends nothing. -/
  rejected : ∀ s op gateway, e = .answer s op gateway .reject →
    ∀ kind name, e.appended kind name = []
  /-- Without oversight nothing critical takes effect. -/
  unwatched : e.Unwatched → ∀ kind name, e.appended kind name = []

end Event

/-- `P` holds of every event and of the events before it. -/
def Throughout {π γ κ : Type} (P : List (Event π γ κ) → Event π γ κ → Prop)
    (h : List (Event π γ κ)) : Prop :=
  ∀ earlier e later, h = earlier ++ e :: later → P earlier e

theorem Throughout.concat {π γ κ : Type} {P : List (Event π γ κ) → Event π γ κ → Prop}
    {h : List (Event π γ κ)} {e : Event π γ κ} (front : Throughout P h) (last : P h e) :
    Throughout P (h ++ [e]) := by
  intro earlier e' later split
  rcases List.eq_nil_or_concat' later with rfl | ⟨later, x, rfl⟩
  · obtain ⟨rfl, same⟩ := List.append_inj' split rfl
    rwa [← List.singleton_inj.1 same]
  · refine front earlier e' later ?_
    rw [← List.cons_append, ← List.append_assoc] at split
    exact (List.append_inj' split rfl).1

namespace Session

variable {π γ κ : Type}

/-! ## What is known of a request -/

/-- Where a human must be asked and nobody oversees the entity, the verdict fails. -/
theorem verdict_of_unwatched {s : Session π γ κ} {i : Instruction} {e : Entity}
    (gated : i.opcode.operationKind.isGated = true)
    (critical : (Profile.ofInstruction i s.tables.entities
      s.settings).criticality.requiresOversight = true)
    (known : s.tables.entities.find? (i.arg 0) = some e) (oversight : e.oversight = .none) :
    (s.verdictOn i).passed = false := by
  unfold verdictOn
  dsimp only
  rw [Profile.entity_of_gated gated, Option.bind_some, known, Profile.verdict, Verdict.passed,
    Profile.objections]
  simp [critical, oversight, Oversight.isHumanInLoop]

variable [Physics π] [Gateway γ] [Coordinator κ]

/-- **While a session waits**: the request was filed in the very last event, for an instruction on
an entity that is still under oversight, and it lies open at the end of the log. -/
structure Pending (h : List (Event π γ κ)) (op : Suspension) (s : Session π γ κ) : Prop where
  gated : op.instruction.opcode.operationKind.isGated = true
  overseen : ∃ e, s.tables.entities.find? (op.instruction.arg 0) = some e ∧ e.oversight ≠ .none
  filed : ∃ filer t, h.getLast? = some (.cycle filer op.index op.instruction) ∧
    filer.step op.index op.instruction = .suspended op.request t
  logged : ∃ earlier, s.reviews.toList = earlier ++ [⟨op.request, none⟩]

/-- A cycle is governed, whatever came before it. -/
theorem cycle_governed (earlier : List (Event π γ κ)) (s : Session π γ κ) (index : Nat)
    (i : Instruction) : (Event.cycle s index i).Governed earlier where
  grounded := by
    intro kind name x hx
    rw [Event.appended_eq, Event.log] at hx
    rcases s.stepLog_cases index i with log | log
    · rw [log] at hx
      exact absurd hx List.not_mem_nil
    · rw [log, List.flatMap_singleton] at hx
      obtain ⟨gated, hk, hn, hx⟩ := Instruction.eq_of_mem_entry hx
      exact ⟨hk, hn, hx,
        .verified (verdict_of_stepLog (by simp [log] : s.stepLog index i ≠ []) gated)⟩
  approved := by
    intro request h
    exact absurd h (by simp [Event.approval?])
  rejected := by
    intro _ _ _ h
    exact absurd h (by simp)
  unwatched := by
    rintro ⟨gated, critical, e, known, oversight⟩ kind name
    rw [Event.appended_eq, Event.log]
    rcases s.stepLog_cases index i with log | log
    · rw [log]
      rfl
    · have passed : (s.verdictOn i).passed = true :=
        verdict_of_stepLog (by simp [log] : s.stepLog index i ≠ []) gated
      have failed : (s.verdictOn i).passed = false :=
        verdict_of_unwatched gated critical known oversight
      exact absurd (passed.symm.trans failed) (by simp)

/-- An answer to what is pending is governed. -/
theorem Pending.governed {h : List (Event π γ κ)} {op : Suspension} {s : Session π γ κ}
    (pending : s.Pending h op) (gateway : γ) (d : Decision) :
    (Event.answer s op gateway d).Governed h := by
  obtain ⟨e, known, overseen⟩ := pending.overseen
  obtain ⟨filer, t, filed, asked⟩ := pending.filed
  obtain ⟨e', known', overseen', -⟩ := (asks_of_suspended asked).overseen
  have unwatched : ¬ (Event.answer s op gateway d).Unwatched := by
    rintro ⟨-, -, e', he', none⟩
    obtain rfl := Option.some.inj (known.symm.trans he')
    exact overseen none
  cases d with
  | reject =>
    have nothing (kind : OperationKind) (name : String) :
        (Event.answer s op gateway .reject).appended kind name = [] :=
      Event.appended_eq _ kind name
    refine ⟨fun kind name x hx => ?_, fun _ ha => absurd ha (by simp [Event.approval?]),
      fun _ _ _ _ => nothing, fun _ => nothing⟩
    rw [nothing] at hx
    exact absurd hx List.not_mem_nil
  | approve =>
    -- nothing has happened since the request was filed, so what it is about cannot fail
    have entry (kind : OperationKind) (name : String) :
        (Event.answer s op gateway .approve).appended kind name =
          op.instruction.entry kind name := by
      obtain ⟨u, done⟩ := attempt_of_gated (s := s.answered op gateway .approve) pending.gated known
      rw [Event.appended_eq, Event.log, actedLog, took, done, List.flatMap_singleton]
    refine ⟨fun kind name x hx => ?_, fun _ _ => ⟨pending.gated, fun kind name => ?_⟩,
      fun _ _ _ he => absurd he (by simp), fun hu => absurd hu unwatched⟩
    · rw [entry] at hx
      obtain ⟨-, hk, hn, hx⟩ := Instruction.eq_of_mem_entry hx
      exact ⟨hk, hn, hx, .approved filed asked known' overseen'⟩
    · rw [entry, Instruction.entry_of_gated pending.gated]
      rfl

/-! ## Safety -/

/-- The requests in the log that were approved, in order. -/
def approvals (s : Session π γ κ) : List Request :=
  (s.reviews.toList.filter (·.decision == some .approve)).map (·.request)

/-- **Governance is safe**, as far as the history of a session goes. -/
structure GovernanceHolds (h : List (Event π γ κ)) (s : Session π γ κ) : Prop where
  /-- Trails hold what the events appended, and nothing else. -/
  trails : ∀ kind name, s.tables.trail kind name = h.flatMap (·.appended kind name)
  events : Throughout (fun earlier e => e.Governed earlier) h
  /-- The approvals among the events are those in the log, one by one. -/
  approvals : h.filterMap Event.approval? = s.approvals

namespace GovernanceHolds

variable {h : List (Event π γ κ)} {s t : Session π γ κ}

theorem of_new (new : s.IsNew) : GovernanceHolds [] s where
  trails := by
    intro kind name
    rw [new.tables]
    rfl
  events earlier e later split := absurd split (by simp)
  approvals := by
    rw [Session.approvals, new.reviews]
    rfl

/-- Nothing has happened that concerns governance. -/
theorem still (holds : GovernanceHolds h s) (entities : t.tables.entities = s.tables.entities)
    (reviews : t.reviews = s.reviews) : GovernanceHolds h t where
  trails := by
    intro kind name
    rw [← holds.trails, Tables.trail, entities]
    rfl
  events := holds.events
  approvals := by
    rw [Session.approvals, reviews]
    exact holds.approvals

/-- One more event. -/
theorem concat (holds : GovernanceHolds h s) {e : Event π γ κ} (before : e.before.tables = s.tables)
    (governed : e.Governed h) (after : t.tables = e.after.tables)
    (approvals : t.approvals = s.approvals ++ e.approval?.toList) :
    GovernanceHolds (h ++ [e]) t where
  trails := by
    intro kind name
    rw [List.flatMap_append, List.flatMap_singleton, ← holds.trails, ← before,
      ← e.trail_after, after]
  events := holds.events.concat governed
  approvals := by
    rw [approvals, List.filterMap_append, holds.approvals, List.filterMap_cons]
    cases e.approval? <;> rfl

end GovernanceHolds

/-- The invariant behind governance: it holds so far, and what waits is pending. -/
structure Accountable (h : List (Event π γ κ)) (s : Session π γ κ) : Prop where
  holds : GovernanceHolds h s
  pending : ∀ op, s.suspension = some op → s.Pending h op

namespace Accountable

variable {h e : List (Event π γ κ)} {s t : Session π γ κ}

theorem of_idle (holds : GovernanceHolds h s) (idle : s.suspension = none) : Accountable h s :=
  ⟨holds, fun op waits => absurd (idle.symm.trans waits) (by simp)⟩

theorem halt (holds : GovernanceHolds h s) (idle : s.suspension = none) : Accountable h s.halt :=
  of_idle (holds.still rfl rfl) idle

/-- Nothing has happened that concerns governance. -/
theorem still (acc : Accountable h s) (entities : t.tables.entities = s.tables.entities)
    (reviews : t.reviews = s.reviews) (same : t.suspension = s.suspension) : Accountable h t where
  holds := acc.holds.still entities reviews
  pending := by
    intro op waits
    have pending := acc.pending op (same.symm.trans waits)
    refine ⟨pending.gated, ?_, pending.filed, ?_⟩
    · rw [entities]
      exact pending.overseen
    · rw [reviews]
      exact pending.logged

/-- A cycle that the session goes on from. -/
theorem pass (acc : Accountable h s) {i : Instruction} {rest : List Instruction}
    (ready : s.Ready (i :: rest)) (passed : s.counted.step s.position i = .next t) :
    Accountable (h ++ [.cycle s.counted s.position i]) { t with position := t.position + 1 } := by
  have desk := step_next_keeps passed
  have next := ready.next (step_next_sameCourse passed)
  refine of_idle (acc.holds.concat rfl (cycle_governed h _ _ i) ?_ ?_) next.idle
  · show t.tables = (s.counted.step s.position i).session.tables
    rw [passed]
    rfl
  · show t.approvals = s.approvals ++ []
    rw [List.append_nil, Session.approvals, desk.reviews]
    rfl

/-- A cycle that ends with a request: from now on the request is pending. -/
theorem ask (acc : Accountable h s) {i : Instruction} {request : Request}
    (asked : s.counted.step s.position i = .suspended request t) :
    Accountable (h ++ [.cycle s.counted s.position i])
      { t with status := .suspended, suspension := some ⟨request, i, t.position⟩ } := by
  have asks := asks_of_suspended asked
  have log : t.reviews.toList = s.reviews.toList ++ [⟨request, none⟩] := asks.log
  obtain ⟨e, known, overseen, -⟩ := asks.overseen
  refine ⟨acc.holds.concat rfl (cycle_governed h _ _ i) ?_ ?_, fun op waits => ?_⟩
  · show t.tables = (s.counted.step s.position i).session.tables
    rw [asked]
    rfl
  · show t.approvals = s.approvals ++ []
    rw [List.append_nil, Session.approvals, log, List.filter_append, List.map_append]
    exact List.append_nil _
  · obtain rfl := Option.some.inj waits
    have position : t.position = s.position := asks.course.position
    refine ⟨asks.gated, ⟨e, ?_, overseen⟩, ⟨s.counted, t, ?_, ?_⟩, _, log⟩
    · show t.tables.entities.find? (i.arg 0) = some e
      rw [asks.tables]
      exact known
    · rw [List.getLast?_append, position]
      rfl
    · rw [position]
      exact asked

/-- An answer that is taken: the log tells of it as the history does. -/
theorem answer (acc : Accountable h s) {op : Suspension} (waits : s.suspension = some op)
    (gateway : γ) (d : Decision) :
    Accountable (h ++ [.answer s op gateway d])
      { (s.answered op gateway d).acted op d with position := op.index + 1 } := by
  have pending := acc.pending op waits
  obtain ⟨earlier, log⟩ := pending.logged
  have idle := (s.acted_course op gateway d).suspension.trans (s.answered_running op gateway d).2.1
  refine of_idle (acc.holds.concat (e := .answer s op gateway d) rfl (pending.governed gateway d)
    rfl ?_) idle
  have desk : ((s.answered op gateway d).acted op d).reviews.toList =
      earlier ++ [⟨op.request, some d⟩] := by
    rw [(s.acted_keeps op gateway d).reviews, answered_reviews, log, decideLast_concat]
  show ((s.answered op gateway d).acted op d).approvals = _
  rw [Session.approvals, Session.approvals, desk, log, List.filter_append, List.filter_append,
    List.map_append, List.map_append, List.append_assoc]
  cases d <;> rfl

/-- **Every move is accounted for.** -/
theorem move (acc : Accountable h s) (m : Move s e t) : Accountable (h ++ e) t := by
  cases m with
  | pass ready within passed => exact acc.pass ready passed
  | ask ready within asked => exact acc.ask asked
  | answer waits taken => exact acc.answer waits _ _
  | exhaust ready spent =>
    rw [List.append_nil]
    exact halt (acc.holds.still rfl rfl) ready.idle
  | collapse ready fatal =>
    rw [List.append_nil]
    exact halt acc.holds ready.idle
  | finish ready =>
    have entities : s.finalScan.tables.entities = s.tables.entities := by
      rw [s.finalScan_untouched.tables]
      rfl
    rw [List.append_nil]
    exact halt (acc.holds.still entities s.finalScan_keeps.reviews)
      (s.finalScan_sameCourse.suspension.trans ready.idle)
  | refuse waits refused =>
    rw [List.append_nil]
    exact acc.still rfl rfl rfl
  | abandon waits e =>
    rw [List.append_nil]
    exact of_idle (acc.holds.still rfl rfl) rfl

theorem law : Law true Elsewhere (Accountable (π := π) (γ := γ) (κ := κ)) where
  start := by
    intro h s program annotations _ acc
    have ready := s.start_ready program annotations
    exact of_idle
      (acc.holds.still (congrArg Tables.entities (s.start_alike program annotations).tables)
      (s.start_sameDesk program annotations).reviews) ready.idle
  move := move
  meanwhile acc := by
    rintro ⟨_, _, _, _, _, _, _, rfl⟩
    exact acc.still rfl rfl rfl

end Accountable

/-- What an answer does first: one that is taken is an event of its own, one that is not has no
consequences. -/
theorem resume_first (s : Session π γ κ) (id : Nat) (d : Decision) :
    ((s.resume id d).1 = .ok () → ∃ op gateway later, s.suspension = some op ∧ op.request.id = id ∧
      s.resumeEvents id d = .answer s op gateway d :: later) ∧
    ∀ e, (s.resume id d).1 = .error e →
      s.resumeEvents id d = [] ∧ (s.resume id d).2.tables = s.tables := by
  rcases s.resume_ends id d with ⟨-, traced, e, he⟩ | ⟨op, gateway, e, -, -, -, traced, he⟩ |
    ⟨op, gateway, waits, hid, -, traced, he⟩ <;> rw [he, resumeEvents, traced]
  · exact ⟨fun ok => absurd ok (by simp), fun _ _ => ⟨rfl, rfl⟩⟩
  · exact ⟨fun ok => absurd ok (by simp), fun _ _ => ⟨rfl, rfl⟩⟩
  · exact ⟨fun _ => ⟨op, gateway, _, waits, hid, rfl⟩, fun _ error => absurd error (by simp)⟩

/-- **Governance is safe** for the whole life of a session, whatever is run and answered, in
whatever order, under whatever settings and collaborators. An answer that is taken stands first
among the events of its call; one that is not appends nothing. -/
theorem governance_safety {s₀ s : Session π γ κ} {h : List (Event π γ κ)} (new : s₀.IsNew)
    (life : Lives s₀ h s) :
    GovernanceHolds h s ∧ ∀ id d,
      ((s.resume id d).1 = .ok () → ∃ op gateway later, s.suspension = some op ∧
        op.request.id = id ∧
        s.resumeEvents id d = .answer s op gateway d :: later) ∧
      ∀ e, (s.resume id d).1 = .error e →
        s.resumeEvents id d = [] ∧ (s.resume id d).2.tables = s.tables := by
  have start : Accountable [] s₀ := .of_idle (.of_new new) new.suspension
  exact ⟨(Accountable.law.history start life).holds, s.resume_first⟩

/-- A deployment that a human has to approve, and one that needs no approval. -/
def promotion : Program where
  instructions :=
    [⟨.declareContract, ["c"], ⟨1, 1⟩⟩, ⟨.setOversight, ["c", "approval"], ⟨2, 1⟩⟩,
      ⟨.setExplainability, ["c", "0.5"], ⟨3, 1⟩⟩, ⟨.deploy, ["c", "trial"], ⟨4, 1⟩⟩,
      ⟨.setExplainability, ["c", "0.99"], ⟨5, 1⟩⟩, ⟨.deploy, ["c", "prod"], ⟨6, 1⟩⟩]

theorem governance_safety_promotion :
    (Session.standard 1 {}).IsNew ∧
    (((Session.standard 1 {}).run promotion none).resume 1 .approve).2.tables.trail
      .deployment "c" =
      ["trial", "prod"] ∧
    GovernanceHolds
      ((Session.standard 1 {}).runEvents promotion none ++
        ((Session.standard 1 {}).run promotion none).resumeEvents 1 .approve)
      (((Session.standard 1 {}).run promotion none).resume 1 .approve).2 := by
  have new : (Session.standard 1 {}).IsNew := ⟨rfl, rfl, rfl, rfl⟩
  refine ⟨new, by decide +kernel, ?_⟩
  exact (governance_safety new (.resume (.run .new promotion none) 1 .approve)).1

end Session

end GovernedQuantum
