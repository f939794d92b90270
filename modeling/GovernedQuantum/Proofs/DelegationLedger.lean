import GovernedQuantum.Proofs.GroupConsistency
import GovernedQuantum.Proofs.Moves

/-!
# The ledger of delegations

A session files a ticket for each operation that its coordinator accepts. What a ticket says was
decided at different times: its operands by the instruction, its channel and node perhaps many runs
before, its number by the coordinator. This file reads the ledger off the history of the session.

* `Session.dues`: the requests that a history owes to the ledger.
* `Session.Effect.delegated`: **an instruction that is delegated files its own ticket**, and
  `Session.Effect.undelegated`: no other instruction reaches the coordinator.
* `Session.Continues`: what becomes of a session that keeps its coordinator.
* `Session.delegation_ledger_faithful`: the ledger holds exactly what is due, numbered from 1.
-/

namespace GovernedQuantum

/-! ## What is due -/

/-- The work that an instruction hands to the coordinator. -/
def Opcode.delegation? : Opcode → Option DelegationKind
  | .entangleRemote => some .remoteEntanglement
  | .teleport => some .teleport
  | .entanglementSwap => some .entanglementSwap
  | _ => none

/-- The first argument of the latest instruction with this opcode. -/
def latestArg (op : Opcode) (is : List Instruction) : Option String :=
  (is.filter (·.opcode = op)).getLast?.map (·.arg 0)

theorem latestArg_concat (op : Opcode) (is : List Instruction) (i : Instruction) :
    latestArg op (is ++ [i]) = if i.opcode = op then some (i.arg 0) else latestArg op is := by
  unfold latestArg
  rw [List.filter_append]
  by_cases same : i.opcode = op <;> simp [same]

namespace Session

variable {π γ κ : Type}

/-- **What an instruction owes to the ledger** once it is completed, after the instructions
`earlier` of the session and with its operands bound in `t`. -/
def due (s₀ : Session π γ κ) (t : Tables) (earlier : List Instruction) (i : Instruction) :
    Option DelegationRequest :=
  i.opcode.delegation?.map fun kind =>
    { kind
      resources := i.resources
      handles := i.resources.filterMap t.bindings.find?
      localNode := s₀.settings.localNode
      remoteNode := if kind = .entanglementSwap then latestArg .setTargetNode earlier
        else some (i.arg 1)
      channel := latestArg .setChannel earlier
      sessionId := s₀.id }

section

variable [Physics π] [Coordinator κ]

/-- The instructions that took effect in a history, in order. -/
def historyLog (h : List (Event π γ κ)) : List Instruction := h.flatMap Event.log

/-- **What a history owes to the ledger**, in order, after the instructions `earlier`. -/
def dues (s₀ : Session π γ κ) : List Instruction → List (Event π γ κ) → List DelegationRequest
  | _, [] => []
  | earlier, e :: rest =>
    e.log.filterMap (s₀.due e.before.tables earlier) ++ s₀.dues (earlier ++ e.log) rest

theorem historyLog_concat (h : List (Event π γ κ)) (e : Event π γ κ) :
    historyLog (h ++ [e]) = historyLog h ++ e.log := by
  simp [historyLog]

theorem dues_concat (s₀ : Session π γ κ) (earlier : List Instruction) (h : List (Event π γ κ))
    (e : Event π γ κ) :
    s₀.dues earlier (h ++ [e]) =
      s₀.dues earlier h ++ e.log.filterMap (s₀.due e.before.tables (earlier ++ historyLog h)) := by
  induction h generalizing earlier with
  | nil => simp [dues, historyLog]
  | cons first rest ih =>
    rw [List.cons_append, dues, ih, dues, List.append_assoc]
    simp [historyLog, List.append_assoc]

end

/-! ## What is filed -/

variable {s t : Session π γ κ} {i : Instruction}

section Effect

variable [Physics π] [Coordinator κ]

/-- What instructions set about the surroundings, they set for good. -/
theorem Effect.surroundings (effect : s.Effect i t) :
    t.tables.network.channel =
        (if i.opcode = .setChannel then some (i.arg 0) else s.tables.network.channel) ∧
      t.tables.network.targetNode =
        if i.opcode = .setTargetNode then some (i.arg 0) else s.tables.network.targetNode := by
  cases effect with
  | govern known change => cases change <;> simp_all [Tables.putEntity]
  | print op => simp [op, say]
  | _ =>
    simp_all [Tables.putEntity, Tables.spend, Tables.countUse, Tables.modifyHandle, Tables.filed]

/-- **Nothing is filed but delegations**, and nothing else reaches the coordinator. -/
theorem Effect.undelegated (effect : s.Effect i t) (own : i.opcode.delegation? = none) :
    t.tables.network.delegations = s.tables.network.delegations ∧
      t.coordinator = s.coordinator := by
  cases effect with
  | entangleRemote op | teleport op | swap op =>
    exact absurd own (by simp [op, Opcode.delegation?])
  | govern known change => cases change <;> exact ⟨rfl, rfl⟩
  | _ => exact ⟨rfl, rfl⟩

/-- A coordinator that accepts a request, and a ticket that says so. -/
def Delegated (s t : Session π γ κ) (request : DelegationRequest) : Prop :=
  ∃ (ticket : Ticket) (detail : Option String),
    Coordinator.delegate s.coordinator request = (.ok ticket, t.coordinator) ∧
      t.tables.network.delegations = s.tables.network.delegations.push { ticket with detail }

/-- **An instruction that is delegated files its own ticket**, about the handles of its operands. -/
theorem Effect.delegated {kind : DelegationKind} (effect : s.Effect i t)
    (op : i.opcode.delegation? = some kind) :
    s.Delegated t (s.requestFor i (i.resources.filterMap s.tables.bindings.find?)) := by
  have bound {k x : Nat} {r : String} (found : s.FindsOperand i k r x) :
      s.tables.bindings.find? r = some x := (Tables.resolve_eq_ok_iff.1 found.resolves).1
  cases effect with
  | @entangleRemote x _ _ _ _ remote operand accepted
  | @teleport x _ _ _ _ _ remote operand _ accepted =>
    have handles : i.resources.filterMap s.tables.bindings.find? = [x] := by
      simp [Instruction.resources, remote, bound operand]
    exact ⟨_, _, handles ▸ accepted, rfl⟩
  | @swap x y _ _ remote _ left right accepted =>
    have handles : i.resources.filterMap s.tables.bindings.find? = [x, y] := by
      simp [Instruction.resources, remote, bound left, bound right]
    exact ⟨_, _, handles ▸ accepted, rfl⟩
  | govern known change => cases change <;> simp_all [Opcode.delegation?]
  | _ => simp_all [Opcode.delegation?]

omit [Physics π] [Coordinator κ] in
/-- What is asked for, by the kind of the work. -/
theorem requestFor_of_kind {kind : DelegationKind} (op : i.opcode.delegation? = some kind)
    (handles : List Nat) :
    s.requestFor i handles = s.delegationRequest kind i.resources handles
      (if kind = .entanglementSwap then s.tables.network.targetNode else some (i.arg 1)) := by
  unfold requestFor
  cases opcode : i.opcode <;> simp_all [Opcode.delegation?] <;> subst op <;> rfl

/-- What is entangled elsewhere is no entanglement here. -/
theorem Effect.groups (effect : s.Effect i t)
    (remote : i.opcode = .entangleRemote ∨ i.opcode = .entanglementSwap) :
    t.tables.register.groups = s.tables.register.groups := by
  cases effect with
  | entangleRemote | swap | govern => rfl
  | _ => simp_all

end Effect

end Session

namespace Event

variable {π γ κ : Type} [Physics π] [Gateway γ] [Coordinator κ] (e : Event π γ κ)

/-- What a completed instruction worked on was live. -/
theorem live_of_log {i : Instruction} (took : i ∈ e.log) {r : String} (operand : r ∈ i.resources) :
    ∃ x, e.before.tables.bindings.find? r = some x ∧
    e.before.tables.register.contains x = true := by
  obtain ⟨u, noted, outcome⟩ := e.outcome
  cases outcome with
  | idle log | failed log => exact absurd took (by simp [log])
  | done log done =>
    rw [log, List.mem_singleton] at took
    subst took
    obtain ⟨x, resolved⟩ := (Session.attempt_done_iff.1 done).resolves operand
    rw [noted.sameQudits.resolve, Tables.resolve_eq_ok_iff] at resolved
    exact ⟨x, resolved.1, resolved.2.2⟩

/-- **Work that is handed to other nodes leaves the groups alone**, whatever becomes of it. -/
theorem groups_of_remote
    (remote : e.instruction.opcode = .entangleRemote ∨ e.instruction.opcode = .entanglementSwap) :
    e.after.tables.register.groups = e.before.tables.register.groups := by
  obtain ⟨u, noted, outcome⟩ := e.outcome
  rw [← noted.sameQudits.register.groups]
  cases outcome with
  | idle _ same => rw [same.tables]
  | failed _ failed same => rw [same.tables, (Session.attempt_failed_iff.1 failed).untouched.tables]
  | done _ done same => rw [same.tables, (Session.attempt_done_iff.1 done).groups remote]

end Event

namespace Session

/-! ## The ledger of a session that keeps its coordinator -/

section Continues

variable {π γ κ : Type} [Physics π] [Gateway γ] [Coordinator κ]

/-- Time may have passed, and collaborators other than the coordinator may have changed. -/
def Besides (s t : Session π γ κ) : Prop :=
  ∃ clock delays physics explainer nextHandle, t =
    { s with clock, delays, physics, explainer, nextHandle }

/-- **What becomes of a session that keeps its coordinator**, with its history: programs are run,
requests are answered or given up, and meanwhile time passes and other collaborators change. -/
abbrev Continues (s₀ : Session π γ κ) : List (Event π γ κ) → Session π γ κ → Prop :=
  s₀.History (.events true Besides)

end Continues

section Loopback

variable {π γ : Type} [Physics π] {s₀ s t : Session π γ Loopback} {h : List (Event π γ Loopback)}
  {e : Event π γ Loopback} {i : Instruction}

omit [Physics π] in
/-- A ticket of the coordinator that accepts everything. -/
theorem Delegated.loopback {request : DelegationRequest} (delegated : s.Delegated t request) :
    ∃ ticket : Ticket, ticket.id = s.coordinator.next + 1 ∧ ticket.request = request ∧
      t.tables.network.delegations = s.tables.network.delegations.push ticket ∧
        t.coordinator.next = s.coordinator.next + 1 := by
  obtain ⟨ticket, detail, accepted, filed⟩ := delegated
  obtain ⟨issued, coordinator⟩ := Prod.mk.inj accepted
  obtain rfl := Except.ok.inj issued
  exact ⟨_, rfl, rfl, filed, by rw [← coordinator]⟩

/-- A coordinator that accepts everything is left alone by whatever fails. -/
theorem coordinator_of_failed_loopback {f : Fault} (failed : s.attempt i = .failed f t) :
    t.coordinator = s.coordinator := by
  rcases (attempt_failed_iff.1 failed).coordinator with same | ⟨e, handles, -, refused⟩
  · exact same
  · exact absurd (congrArg Prod.fst refused) (by simp [Coordinator.delegate])

/-- **The books of the session agree with its history.** The coordinator and the ledger count
alike. -/
structure Booked (s₀ : Session π γ Loopback) (h : List (Event π γ Loopback))
    (s : Session π γ Loopback) : Prop where
  id : s.id = s₀.id
  settings : s.settings = s₀.settings
  channel : s.tables.network.channel = latestArg .setChannel (historyLog h)
  targetNode : s.tables.network.targetNode = latestArg .setTargetNode (historyLog h)
  counted : s.coordinator.next = s.tables.network.delegations.size
  requests : s.tables.network.delegations.toList.map (·.request) = s₀.dues [] h
  numbers : s.tables.network.delegations.toList.map (·.id) =
    List.range' 1 s.tables.network.delegations.size

namespace Booked

theorem new (fresh : s₀.IsFresh) (unasked : s₀.coordinator = {}) : s₀.Booked [] s₀ := by
  constructor <;> simp [show s₀.tables = {} from fresh, unasked, latestArg, historyLog, dues]

theorem of_eq (hb : s₀.Booked h s) (id : t.id = s.id) (settings : t.settings = s.settings)
    (coordinator : t.coordinator = s.coordinator) (network : t.tables.network = s.tables.network) :
    s₀.Booked h t := by
  constructor
  · exact id.trans hb.id
  · exact settings.trans hb.settings
  all_goals rw [network]
  · exact hb.channel
  · exact hb.targetNode
  · rw [coordinator]
    exact hb.counted
  · exact hb.requests
  · exact hb.numbers

theorem of_same (hb : s₀.Booked h s) (same : s.SameBooks t) : s₀.Booked h t :=
  hb.of_eq same.id same.settings same.coordinator (congrArg Tables.network same.tables)

theorem of_noted (hb : s₀.Booked h s) (noted : s.Noted t) : s₀.Booked h t :=
  hb.of_eq noted.id noted.settings noted.coordinator noted.network

theorem of_failed {f : Fault} (hb : s₀.Booked h s) (failed : s.attempt i = .failed f t) :
    s₀.Booked h t := by
  have untouched := (attempt_failed_iff.1 failed).untouched
  exact hb.of_eq untouched.id untouched.settings (coordinator_of_failed_loopback failed)
    (congrArg Tables.network untouched.tables)

/-- An event without effect is none to the books. -/
theorem idle (hb : s₀.Booked h s) (log : e.log = []) : s₀.Booked (h ++ [e]) s := by
  have same : historyLog (h ++ [e]) = historyLog h := by
    rw [historyLog_concat, log, List.append_nil]
  have owed : s₀.dues [] (h ++ [e]) = s₀.dues [] h := by
    rw [dues_concat, log, List.filterMap_nil, List.append_nil]
  exact { hb with
    channel := same ▸ hb.channel
    targetNode := same ▸ hb.targetNode
    requests := owed ▸ hb.requests }

/-- What is due for an instruction is what the session asks of its coordinator. -/
theorem due_eq (hb : s₀.Booked h s) {tables : Tables}
    (bindings : s.tables.bindings = tables.bindings) {kind : DelegationKind}
    (op : i.opcode.delegation? = some kind) :
    s₀.due tables (historyLog h) i =
      some (s.requestFor i (i.resources.filterMap s.tables.bindings.find?)) := by
  rw [requestFor_of_kind op, due, op, bindings, hb.targetNode]
  simp only [Option.map_some, delegationRequest, hb.settings, hb.id, hb.channel]

/-- **An instruction that takes effect is booked.** -/
theorem done (hb : s₀.Booked h s) (bindings : s.tables.bindings = e.before.tables.bindings)
    (log : e.log = [i]) (done : s.attempt i = .done t) : s₀.Booked (h ++ [e]) t := by
  have effect := attempt_done_iff.1 done
  have course := effect.sameCourse
  obtain ⟨channel, targetNode⟩ := effect.surroundings
  have new : historyLog (h ++ [e]) = historyLog h ++ [i] := by rw [historyLog_concat, log]
  have owed :
      s₀.dues [] (h ++ [e]) = s₀.dues [] h ++ (s₀.due e.before.tables (historyLog h) i).toList := by
    rw [dues_concat, log, List.nil_append, List.filterMap_cons, List.filterMap_nil]
    cases s₀.due e.before.tables (historyLog h) i <;> rfl
  rw [hb.channel, ← latestArg_concat, ← new] at channel
  rw [hb.targetNode, ← latestArg_concat, ← new] at targetNode
  have id := course.id.trans hb.id
  have settings := course.settings.trans hb.settings
  cases op : i.opcode.delegation? with
  | none =>
    obtain ⟨unfiled, coordinator⟩ := effect.undelegated op
    rw [due, op, Option.map_none, Option.toList_none, List.append_nil] at owed
    refine ⟨id, settings, channel, targetNode, ?_, ?_, ?_⟩ <;> rw [unfiled]
    · rw [coordinator]
      exact hb.counted
    · exact hb.requests.trans owed.symm
    · exact hb.numbers
  | some kind =>
    rw [hb.due_eq bindings op, Option.toList_some] at owed
    -- the number is the coordinator's, which has counted as many requests as there are tickets
    obtain ⟨ticket, number, request, filed, counted⟩ := (effect.delegated op).loopback
    refine ⟨id, settings, channel, targetNode, ?_, ?_, ?_⟩ <;> rw [filed]
    · rw [counted, hb.counted, Array.size_push]
    · rw [Array.toList_push, List.map_append, hb.requests, owed, ← request]
      rfl
    · rw [Array.toList_push, List.map_append, hb.numbers, Array.size_push, List.range'_1_concat,
        ← hb.counted, Nat.add_comm 1, ← number]
      rfl

variable [Gateway γ]

/-- **Every event is booked.** -/
theorem event (hb : s₀.Booked h e.before) : s₀.Booked (h ++ [e]) e.after := by
  obtain ⟨u, noted, outcome⟩ := e.outcome
  have ready := hb.of_noted noted
  cases outcome with
  | idle log same => exact (ready.idle log).of_same same
  | failed log failed same => exact ((ready.of_failed failed).idle log).of_same same
  | done log took same => exact (ready.done noted.sameQudits.bindings log took).of_same same

theorem move {g : List (Event π γ Loopback)} (hb : s₀.Booked h s) (m : Move s g t) :
    s₀.Booked (h ++ g) t := by
  rcases m.books with ⟨rfl, noted⟩ | ⟨x, rfl, before, after⟩
  · rw [List.append_nil]
    exact hb.of_noted noted
  · exact (event (hb.of_same before)).of_same after

/-- **The books are kept for as long as the coordinator is.** -/
theorem continues (start : s₀.Booked [] s₀) (life : s₀.Continues h s) : s₀.Booked h s := by
  have law : Law true Besides s₀.Booked :=
    { start := fun program annotations _ booked => booked.of_same (.start _ program annotations)
      move := move
      meanwhile := by
        rintro h s t booked ⟨_, _, _, _, _, rfl⟩
        exact booked.of_eq rfl rfl rfl rfl }
  exact law.history start life

end Booked

/-- There is one request for each completed instruction that is delegated. -/
theorem map_kind_dues (s₀ : Session π γ Loopback) (earlier : List Instruction)
    (h : List (Event π γ Loopback)) :
    (s₀.dues earlier h).map (·.kind) = (historyLog h).filterMap (·.opcode.delegation?) := by
  have kind (t : Tables) (earlier : List Instruction) (i : Instruction) :
      (s₀.due t earlier i).map (·.kind) = i.opcode.delegation? := by
    rw [due, Option.map_map]
    exact Option.map_id'
  induction h generalizing earlier with
  | nil => rfl
  | cons e rest ih =>
    rw [dues, List.map_append, ih, List.map_filterMap]
    simp only [kind]
    simp [historyLog]

variable [Gateway γ]

/-- **The ledger says what happened.** -/
structure Faithful (s₀ : Session π γ Loopback) (h : List (Event π γ Loopback))
    (s : Session π γ Loopback) : Prop where
  /-- One ticket for each completed delegation, in order. -/
  kinds : s.tables.network.delegations.toList.map (·.request.kind) =
    (historyLog h).filterMap (·.opcode.delegation?)
  /-- Each ticket names what was asked for, as the session had it then. -/
  requests : s.tables.network.delegations.toList.map (·.request) = s₀.dues [] h
  /-- Tickets are numbered 1, 2, 3 and so on. -/
  numbers : s.tables.network.delegations.toList.map (·.id) =
    List.range' 1 s.tables.network.delegations.size
  /-- The operands were bound to live handles. -/
  live : ∀ e ∈ h, ∀ i ∈ e.log, i.opcode.delegation? ≠ none → ∀ r ∈ i.resources,
    ∃ x, e.before.tables.bindings.find? r = some x ∧ e.before.tables.register.contains x = true
  /-- Entanglement with others is none of the session's own. -/
  groups : ∀ e ∈ h,
    e.instruction.opcode = .entangleRemote ∨ e.instruction.opcode = .entanglementSwap →
      e.after.tables.register.groups = e.before.tables.register.groups

/-- **The delegation ledger is faithful**: whatever programs are run and whatever requests are
answered, it holds exactly one ticket for each completed delegation, in order and numbered from 1,
about the handles that were live then, with the channel and the node that the session had last been
told. -/
theorem delegation_ledger_faithful (fresh : s₀.IsFresh) (unasked : s₀.coordinator = {})
    (life : s₀.Continues h s) : s₀.Faithful h s := by
  have booked := (Booked.new fresh unasked).continues life
  refine ⟨?_, booked.requests, booked.numbers, ?_, fun e _ => e.groups_of_remote⟩
  · rw [← s₀.map_kind_dues [], ← booked.requests, List.map_map]
    rfl
  · intro e _ i took _ r operand
    exact e.live_of_log took operand

/-- A channel is set, and a qudit that does not exist is delegated in vain. -/
def preparation : Program where
  instructions :=
    [⟨.setChannel, ["c1"], {}⟩, ⟨.allocQudit, ["a", "2"], {}⟩, ⟨.allocQudit, ["b", "2"], {}⟩,
      ⟨.entanglementSwap, ["a", "b"], {}⟩, ⟨.entangleRemote, ["z", "n1"], {}⟩]

/-- A node is named, and the qudits are handed over. -/
def handover : Program where
  instructions :=
    [⟨.setTargetNode, ["n2"], {}⟩, ⟨.entanglementSwap, ["b", "a"], {}⟩, ⟨.setChannel, ["c2"], {}⟩,
      ⟨.teleport, ["a", "n3"], {}⟩]

/-- The first swap goes nowhere in particular, and the channel of the first run serves the
second. -/
theorem delegation_ledger_faithful_handover :
    (standard 1 {}).IsFresh ∧ (standard 1 {}).coordinator = {} ∧
      (∃ h, (standard 1 {}).Continues h (((standard 1 {}).run preparation none).run handover none) ∧
        (standard 1 {}).Faithful h (((standard 1 {}).run preparation none).run handover none)) ∧
      (((standard 1 {}).run preparation none).run handover
        none).tables.network.delegations.toList.map
          (fun ticket => (ticket.id, ticket.request.handles, ticket.request.remoteNode,
            ticket.request.channel)) =
        [(1, [1, 2], none, some "c1"), (2, [2, 1], some "n2", some "c1"),
          (3, [1], some "n3", some "c2")] := by
  have fresh : (standard 1 {}).IsFresh := rfl
  have unasked : (standard 1 {}).coordinator = {} := rfl
  have life :
      (standard 1 {}).Continues _ (((standard 1 {}).run preparation none).run handover none) :=
    .run (.run .new preparation none) handover none
  exact ⟨fresh, unasked,
    ⟨_, life, delegation_ledger_faithful fresh unasked life⟩, by decide +kernel⟩

end Loopback

end Session

end GovernedQuantum
