import GovernedQuantum.Proofs.History
import GovernedQuantum.Proofs.OrderedTable

/-!
# The protocol of reviews

A request is on record three times: in the session that waits for its answer, in the session's log,
and at the gateway. Sessions are run and resumed in any order, with right and wrong numbers, and
leave requests unanswered behind; the three records agree throughout.

* `MemoryGateway.Mirrors`: a gateway holds what a log says, and no more.
* `Session.Orderly`: the log, the gateway and what the session waits for agree.
* `Session.Orderly.move`: **every move keeps them in agreement**, and no decision is ever changed.
* `Session.answerAllWith`: requests are answered as they come, with anything done about a refusal.
* `Session.review_protocol`: **the protocol**, for every life of a session.
-/

namespace GovernedQuantum

/-! ## Gateways and logs -/

/-- **A gateway holds what a log says**: the requests, numbered from 1 in the order of the log, and
the decision on each. -/
structure MemoryGateway.Mirrors (g : MemoryGateway) (log : List LogEntry) : Prop where
  numbered : log.map (·.request.id) = List.range' 1 g.last
  requests : g.requests.entries = log.map fun e => (e.request.id, e.request)
  decisions : ∀ e ∈ log, g.decision? e.request.id = e.decision
  /-- There are no decisions but those on requests. -/
  decided : ∀ id d, g.decision? id = some d → ∃ e ∈ log, e.request.id = id

namespace MemoryGateway.Mirrors

variable {g : MemoryGateway} {log earlier : List LogEntry}

theorem empty : MemoryGateway.Mirrors {} [] :=
  ⟨rfl, rfl, fun _ h => absurd h List.not_mem_nil, fun _ _ h => absurd h (by simp [decision?])⟩

theorem last (h : g.Mirrors log) : log.length = g.last := by
  have lengths := congrArg List.length h.numbered
  rwa [List.length_map, List.length_range'] at lengths

theorem id_le (h : g.Mirrors log) {e : LogEntry} (he : e ∈ log) : e.request.id ≤ g.last := by
  have mem : e.request.id ∈ List.range' 1 g.last := by
    rw [← h.numbered]
    exact List.mem_map_of_mem (f := (·.request.id)) he
  rw [List.mem_range'_1] at mem
  omega

theorem request? (h : g.Mirrors log) {e : LogEntry} (he : e ∈ log) :
    g.request? e.request.id = some e.request := by
  rw [MemoryGateway.request?, Table.find?_eq_some_iff, h.requests]
  exact List.mem_map_of_mem (f := fun e => (e.request.id, e.request)) he

theorem decision?_of_gt (h : g.Mirrors log) {id : Nat} (above : g.last < id) :
    g.decision? id = none := by
  cases hd : g.decision? id with
  | none => rfl
  | some d =>
    obtain ⟨e, he, rfl⟩ := h.decided id d hd
    have := h.id_le he
    omega

/-- A request that is filed goes to the end of the log, undecided. -/
theorem file (h : g.Mirrors log) (f : Filing) :
    (g.file f).2.Mirrors (log ++ [⟨{ f with id := (g.file f).1 }, none⟩]) where
  numbered := by
    show (log ++ [_]).map _ = List.range' 1 (g.last + 1)
    rw [List.map_append, h.numbered, List.range'_1_concat, Nat.add_comm 1]
    rfl
  requests := by
    have below : ∀ id ∈ g.requests.keys, id < g.last + 1 := by
      intro id hid
      rw [Table.keys, h.requests, List.map_map] at hid
      obtain ⟨e, he, rfl⟩ := List.mem_map.1 hid
      exact Nat.lt_succ_of_le (h.id_le he)
    show (g.requests.insert (g.last + 1) { f with id := g.last + 1 }).entries = _
    rw [Table.entries_insert_of_lt _ below, h.requests, List.map_append]
    rfl
  decisions := by
    intro e he
    rcases List.mem_append.1 he with he | he
    · exact h.decisions e he
    · rw [List.mem_singleton.1 he]
      exact h.decision?_of_gt (Nat.lt_succ_self g.last)
  decided := by
    intro id d hd
    obtain ⟨e, he, hid⟩ := h.decided id d hd
    exact ⟨e, List.mem_append_left _ he, hid⟩

/-- An undecided request at the end of the log can be answered, once. -/
theorem answer {request : Request} (h : g.Mirrors (earlier ++ [⟨request, none⟩])) (d : Decision) :
    g.answer request.id d = (.ok (), { g with decisions := g.decisions.insert request.id d }) ∧
      MemoryGateway.Mirrors { g with decisions := g.decisions.insert request.id d }
        (earlier ++ [⟨request, some d⟩]) := by
  have mem : (⟨request, none⟩ : LogEntry) ∈ earlier ++ [⟨request, none⟩] :=
    List.mem_append_right _ (List.mem_singleton_self _)
  have known : g.requests.contains request.id = true :=
    Table.contains_eq_true_iff.2 ⟨request, h.request? mem⟩
  have open' : g.decisions.contains request.id = false :=
    Table.contains_eq_false_iff.2 (h.decisions _ mem)
  -- the number of the last request is no other's
  have other : ∀ e ∈ earlier, request.id ≠ e.request.id := by
    have nodup : (List.range' 1 g.last).Nodup := List.nodup_range'
    rw [← h.numbered, List.map_append, List.nodup_append] at nodup
    intro e he same
    exact nodup.2.2 e.request.id (List.mem_map_of_mem (f := (·.request.id)) he) request.id
      (List.mem_singleton_self _) same.symm
  have decision (id : Nat) : MemoryGateway.decision?
      { g with decisions := g.decisions.insert request.id d } id =
        if request.id = id then some d else g.decision? id :=
    Table.find?_insert _ _ _ _
  refine ⟨?_, ?_, ?_, ?_, ?_⟩
  · rw [MemoryGateway.answer, known, open']
    rfl
  · rw [← h.numbered, List.map_append, List.map_append]
    rfl
  · rw [h.requests, List.map_append, List.map_append]
    rfl
  · intro e he
    rw [decision]
    rcases List.mem_append.1 he with he | he
    · rw [if_neg (other e he), h.decisions e (List.mem_append_left _ he)]
    · rw [List.mem_singleton.1 he, if_pos rfl]
  · intro id d' hd
    rw [decision] at hd
    split at hd
    · exact ⟨⟨request, some d⟩, List.mem_append_right _ (List.mem_singleton_self _), ‹_›⟩
    · obtain ⟨e, he, hid⟩ := h.decided id d' hd
      rcases List.mem_append.1 he with he | he
      · exact ⟨e, List.mem_append_left _ he, hid⟩
      · rw [List.mem_singleton.1 he] at hid
        exact absurd hid ‹_›

end MemoryGateway.Mirrors

/-- What was decided in one log stands in the other, at the same place. -/
def Upholds (log further : List LogEntry) : Prop :=
  ∀ (k : Nat) (e : LogEntry), log[k]? = some e → e.decision.isSome = true → further[k]? = some e

theorem Upholds.refl (log : List LogEntry) : Upholds log log := fun _ _ h _ => h

theorem Upholds.trans {a b c : List LogEntry} (h : Upholds a b) (g : Upholds b c) : Upholds a c :=
  fun k e he hd => g k e (h k e he hd) hd

theorem Upholds.push (log : List LogEntry) (e : LogEntry) : Upholds log (log ++ [e]) := by
  intro k d hd _
  exact List.getElem?_append_left (List.getElem?_eq_some_iff.1 hd).1 ▸ hd

/-- To decide on the last request of a log changes no decision. -/
theorem Upholds.decide (earlier : List LogEntry) (request : Request) (d : Decision) :
    Upholds (earlier ++ [⟨request, none⟩]) (earlier ++ [⟨request, some d⟩]) := by
  intro k e he decided
  rcases Nat.lt_or_ge k earlier.length with hk | hk
  · rw [List.getElem?_append_left hk] at he ⊢
    exact he
  · rw [List.getElem?_append_right hk] at he
    obtain rfl := List.mem_singleton.1 (List.mem_of_getElem? he)
    exact absurd decided (by simp)

/-! ## Orderly sessions -/

namespace Session

variable {π κ : Type}

/-- **The three records of a request agree.** -/
structure Orderly (s : Session π MemoryGateway κ) : Prop where
  mirrors : s.gateway.Mirrors s.reviews.toList
  status : s.status = .suspended ↔ s.suspension.isSome = true
  waiting : ∀ op, s.suspension = some op → s.position = op.index ∧
    s.program.instructions[op.index]? = some op.instruction ∧
    ∃ earlier, s.reviews.toList = earlier ++ [⟨op.request, none⟩]

namespace Orderly

variable {s t : Session π MemoryGateway κ}

theorem of_new (new : s.IsNew) (gateway : s.gateway = {}) : s.Orderly where
  mirrors := by
    rw [gateway, new.reviews]
    exact .empty
  status := by simp [new.status, new.suspension]
  waiting op waits := absurd (new.suspension.symm.trans waits) (by simp)

/-- A session that does not wait is in order if its desk is. -/
theorem of_idle (h : s.Orderly) (desk : s.SameDesk t) (status : t.status ≠ .suspended)
    (idle : t.suspension = none) : t.Orderly where
  mirrors := by
    rw [desk.gateway, desk.reviews]
    exact h.mirrors
  status := by simp [status, idle]
  waiting op waits := absurd (idle.symm.trans waits) (by simp)

theorem halt (h : s.Orderly) (desk : s.SameDesk t) (idle : t.suspension = none) :
    t.halt.Orderly := by
  refine h.of_idle (t := t.halt) ⟨desk.gateway, desk.reviews⟩ ?_ idle
  show (if t.diagnostics.hasErrors then Status.haltedError else .haltedSuccess) ≠ .suspended
  split <;> simp

/-- A session in order takes every answer to what it waits for. -/
theorem answer (h : s.Orderly) {op : Suspension} (waits : s.suspension = some op) (d : Decision) :
    Gateway.answer s.gateway op.request.id d =
      (.ok (), { s.gateway with decisions := s.gateway.decisions.insert op.request.id d }) := by
  obtain ⟨-, -, earlier, log⟩ := h.waiting op waits
  have mirrors := h.mirrors
  rw [log] at mirrors
  exact (mirrors.answer d).1

/-- The desk once an answer is taken. -/
theorem answered (h : s.Orderly) {op : Suspension} (waits : s.suspension = some op) {d : Decision}
    {gateway : MemoryGateway}
    (taken : Gateway.answer s.gateway op.request.id d = (.ok (), gateway)) :
    gateway.Mirrors (s.answered op gateway d).reviews.toList ∧
      Upholds s.reviews.toList (s.answered op gateway d).reviews.toList := by
  obtain ⟨-, -, earlier, log⟩ := h.waiting op waits
  have mirrors := h.mirrors
  rw [log] at mirrors
  rw [h.answer waits d, Prod.mk.injEq] at taken
  rw [answered_reviews, ← taken.2, log, decideLast_concat]
  exact ⟨(mirrors.answer d).2, .decide earlier op.request d⟩

variable [Physics π] [Coordinator κ]

/-- A cycle that the session goes on from leaves the desk alone. -/
theorem pass (h : s.Orderly) {i : Instruction} {rest : List Instruction}
    (ready : s.Ready (i :: rest)) (passed : s.counted.step s.position i = .next t) :
    ({ t with position := t.position + 1 } : Session π MemoryGateway κ).Orderly ∧
      Upholds s.reviews.toList t.reviews.toList := by
  have desk := step_next_keeps passed
  have next := ready.next (step_next_sameCourse passed)
  refine ⟨h.of_idle ⟨desk.gateway, desk.reviews⟩ ?_ next.idle, ?_⟩
  · rw [next.running]
    simp
  · rw [desk.reviews]
    exact .refl _

/-- A cycle that ends with a request: gateway and log take it down under one number. -/
theorem ask (h : s.Orderly) {i : Instruction} {rest : List Instruction} {request : Request}
    (ready : s.Ready (i :: rest)) (asked : s.counted.step s.position i = .suspended request t) :
    ({ t with status := .suspended, suspension := some ⟨request, i, t.position⟩ } :
        Session π MemoryGateway κ).Orderly ∧
      Upholds s.reviews.toList t.reviews.toList := by
  have asks := asks_of_suspended asked
  have log : t.reviews.toList = s.reviews.toList ++ [⟨request, none⟩] := asks.log
  refine ⟨⟨?_, ⟨fun _ => rfl, fun _ => rfl⟩, ?_⟩, ?_⟩
  · have mirrors := h.mirrors.file request.toFiling
    have filed : s.gateway.file request.toFiling = (request.id, t.gateway) := asks.filed
    rw [filed] at mirrors
    show t.gateway.Mirrors t.reviews.toList
    rw [log]
    exact mirrors
  · intro op waits
    obtain rfl := Option.some.inj waits
    refine ⟨rfl, ?_, _, log⟩
    show t.program.instructions[t.position]? = some i
    rw [asks.course.program, asks.course.position]
    exact ready.instruction
  · rw [log]
    exact .push _ _

/-- An answer that is taken, and what it is followed by. -/
theorem acted (h : s.Orderly) {op : Suspension} (waits : s.suspension = some op) {d : Decision}
    {gateway : MemoryGateway}
    (taken : Gateway.answer s.gateway op.request.id d = (.ok (), gateway)) :
    ({ (s.answered op gateway d).acted op d with position := op.index + 1 } :
        Session π MemoryGateway κ).Orderly ∧
      Upholds s.reviews.toList ((s.answered op gateway d).acted op d).reviews.toList := by
  obtain ⟨mirrors, upholds⟩ := h.answered waits taken
  obtain ⟨running, idle, -⟩ := s.answered_running op gateway d
  have course := s.acted_course op gateway d
  have desk := s.acted_keeps op gateway d
  refine ⟨⟨?_, ?_, ?_⟩, ?_⟩
  · show ((s.answered op gateway d).acted op d).gateway.Mirrors
      ((s.answered op gateway d).acted op d).reviews.toList
    rw [desk.gateway, desk.reviews, answered_gateway]
    exact mirrors
  · simp [course.status, running, course.suspension, idle]
  · intro op' waits'
    exact absurd ((course.suspension.trans idle).symm.trans waits') (by simp)
  · rw [desk.reviews]
    exact upholds

/-- **Every move keeps a session in order**, and no decision is changed by it. -/
theorem move (h : s.Orderly) {e : List (Event π MemoryGateway κ)} (m : Move s e t) :
    t.Orderly ∧ Upholds s.reviews.toList t.reviews.toList := by
  cases m with
  | pass ready within passed => exact h.pass ready passed
  | ask ready within asked => exact h.ask ready asked
  | answer waits taken => exact h.acted waits taken
  | exhaust ready spent => exact ⟨h.halt ⟨rfl, rfl⟩ ready.idle, .refl _⟩
  | collapse ready fatal => exact ⟨h.halt (.refl s) ready.idle, .refl _⟩
  | finish ready =>
    have desk := s.finalScan_keeps.toSameDesk
    refine ⟨h.halt desk (s.finalScan_sameCourse.suspension.trans ready.idle), ?_⟩
    show Upholds _ s.finalScan.reviews.toList
    rw [desk.reviews]
    exact .refl _
  | refuse waits refused =>
    rw [h.answer waits] at refused
    exact absurd refused (by simp)
  | abandon waits e => exact ⟨h.of_idle ⟨rfl, rfl⟩ (by simp [givenUp, report]) rfl, .refl _⟩

/-- A session stays in order for life, and stands by what was decided in `log`. -/
theorem law (log : List LogEntry) :
    Law true Elsewhere fun _ (s : Session π MemoryGateway κ) => s.Orderly ∧
    Upholds log s.reviews.toList where
  start := by
    rintro h s program annotations - ⟨orderly, upholds⟩
    have ready := s.start_ready program annotations
    have desk := s.start_sameDesk program annotations
    refine ⟨orderly.of_idle desk (by simp [ready.running]) ready.idle, ?_⟩
    rw [desk.reviews]
    exact upholds
  move := by
    rintro h e s t ⟨orderly, upholds⟩ m
    obtain ⟨next, kept⟩ := orderly.move m
    exact ⟨next, upholds.trans kept⟩
  meanwhile := by
    rintro h s t ⟨orderly, upholds⟩ ⟨_, _, _, _, _, _, _, rfl⟩
    exact ⟨⟨orderly.mirrors, orderly.status, orderly.waiting⟩, upholds⟩

theorem path (h : s.Orderly) {e : List (Event π MemoryGateway κ)} (p : Path s e t) :
    t.Orderly ∧ Upholds s.reviews.toList t.reviews.toList :=
  (law _).path (h := []) ⟨h, .refl _⟩ p

theorem lives (h : s.Orderly) {e : List (Event π MemoryGateway κ)} (life : Lives s e t) :
    t.Orderly ∧ Upholds s.reviews.toList t.reviews.toList :=
  (law _).history ⟨h, .refl _⟩ life

theorem run (h : s.Orderly) (program : Program) (annotations : Option (List InferredType)) :
    (s.run program annotations).Orderly :=
  (h.lives (.run .new program annotations)).1

theorem resume_ok_iff (h : s.Orderly) (id : Nat) (d : Decision) :
    (s.resume id d).1 = .ok () ↔ ∃ op, s.suspension = some op ∧ op.request.id = id := by
  rcases s.resume_ends id d with ⟨other, -, e, he⟩ | ⟨op, gateway, e, waits, rfl, refused, -, -⟩ |
    ⟨op, gateway, waits, hid, -, -, he⟩
  · rw [he]
    refine ⟨fun ok => absurd ok (by simp), ?_⟩
    rintro ⟨op, waits, hid⟩
    exact absurd hid (other op waits)
  · rw [h.answer waits] at refused
    exact absurd refused (by simp)
  · rw [he]
    exact ⟨fun _ => ⟨op, waits, hid⟩, fun _ => rfl⟩

/-- An answer that is refused changes nothing at all. -/
theorem resume_error (h : s.Orderly) {id : Nat} {d : Decision} {e : ReviewError}
    (error : (s.resume id d).1 = .error e) : (s.resume id d).2 = s := by
  rcases s.resume_ends id d with ⟨-, -, e, he⟩ | ⟨op, gateway, e, waits, rfl, refused, -, -⟩ |
    ⟨op, gateway, -, -, -, -, he⟩
  · rw [he]
  · rw [h.answer waits] at refused
    exact absurd refused (by simp)
  · rw [he] at error
    exact absurd error (by simp)

end Orderly

/-! ## Answering requests as they come -/

section Completion

variable {γ : Type} [Physics π] [Gateway γ] [Coordinator κ]

/-- Requests are answered as they come; `recover` says how to go on where an answer is not taken. -/
def answerAllWith (recover : Session π γ κ → Suspension → ReviewError → Session π γ κ)
    (decide : List Request → Request → Decision) :
    Nat → List Request → Session π γ κ → List Request × Session π γ κ
  | 0, asked, s => (asked, s)
  | fuel + 1, asked, s =>
    match s.suspension with
    | none => (asked, s)
    | some op =>
      let s :=
        match s.resume op.request.id (decide asked op.request) with
        | (.ok (), s) => s
        | (.error e, s) => recover s op e
      answerAllWith recover decide fuel (op.request :: asked) s

/-- A run to its end, with `recover` in place of giving the request up. -/
def runToCompletionWith (recover : Session π γ κ → Suspension → ReviewError → Session π γ κ)
    (s : Session π γ κ) (program : Program) (annotations : Option (List InferredType))
    (decide : List Request → Request → Decision) : List Request × Session π γ κ :=
  let (asked, s) := answerAllWith recover decide program.length [] (s.run program annotations)
  (asked.reverse, s)

theorem answerAllWith_abandon (decide : List Request → Request → Decision) (fuel : Nat)
    (asked : List Request) (s : Session π γ κ) :
    answerAllWith abandon decide fuel asked s = answerAll decide fuel asked s := by
  induction fuel generalizing asked s with
  | zero => rfl
  | succ fuel ih =>
    rw [answerAllWith, answerAll]
    cases s.suspension with
    | none => rfl
    | some op =>
      dsimp only
      obtain ⟨result, t⟩ := s.resume op.request.id (decide asked op.request)
      cases result with
      | error e => exact ih _ _
      | ok => exact ih _ _

end Completion

variable [Physics π] [Coordinator κ]

/-- Whatever would be done about a refusal, a session in order has no occasion for it. -/
theorem Orderly.answerAllWith_eq
    (recover other : Session π MemoryGateway κ → Suspension → ReviewError →
      Session π MemoryGateway κ)
    (decide : List Request → Request → Decision) (fuel : Nat) (asked : List Request)
    {s : Session π MemoryGateway κ} (h : s.Orderly) :
    answerAllWith recover decide fuel asked s = answerAllWith other decide fuel asked s := by
  induction fuel generalizing asked s with
  | zero => rfl
  | succ fuel ih =>
    rw [answerAllWith, answerAllWith]
    cases waits : s.suspension with
    | none => rfl
    | some op =>
      have taken := (h.resume_ok_iff op.request.id (decide asked op.request)).2 ⟨op, waits, rfl⟩
      have next : (s.resume op.request.id (decide asked op.request)).2.Orderly :=
        (h.path (path_serve (c := .resume op.request.id (decide asked op.request)) trivial)).1
      dsimp only
      generalize s.resume op.request.id (decide asked op.request) = resumed at taken next ⊢
      obtain ⟨result, t⟩ := resumed
      obtain rfl : result = .ok () := taken
      exact ih _ next

/-! ## The protocol -/

/-- **The protocol of reviews**, as a session has kept it. -/
structure KeepsProtocol (s : Session π MemoryGateway κ) : Prop where
  /-- A session is suspended exactly while it waits for an answer. -/
  suspended : s.status = .suspended ↔ s.suspension.isSome = true
  /-- What waits is the instruction that the session stands at, and its request is open. -/
  waiting : ∀ op, s.suspension = some op → s.position = op.index ∧
    s.program.instructions[op.index]? = some op.instruction ∧
    s.gateway.request? op.request.id = some op.request ∧ s.gateway.decision? op.request.id = none
  /-- The log holds the requests 1, 2, 3, …, as they lie at the gateway, with the gateway's
  decisions. -/
  numbered : s.reviews.toList.map (·.request.id) = List.range' 1 s.reviews.size
  requests : s.gateway.requests.values = s.reviews.toList.map (·.request)
  decisions : ∀ e ∈ s.reviews, e.decision = s.gateway.decision? e.request.id
  /-- An answer is taken exactly if the session waits for it; one that is not changes nothing. -/
  taken : ∀ id d, (s.resume id d).1 = .ok () ↔
    ∃ op, s.suspension = some op ∧ op.request.id = id
  refused : ∀ id d e, (s.resume id d).1 = .error e → (s.resume id d).2 = s
  /-- A decision is final. -/
  final : ∀ h t, Lives s h t → ∀ (k : Nat) (e : LogEntry) (d : Decision),
    s.reviews[k]? = some e → e.decision = some d → t.reviews[k]? = some e
  /-- Who answers all requests as they come is never refused. -/
  answerable : ∀ recover program annotations decide,
    s.runToCompletionWith recover program annotations decide =
      s.runToCompletion program annotations decide

theorem Orderly.keepsProtocol {s : Session π MemoryGateway κ} (h : s.Orderly) :
    s.KeepsProtocol where
  suspended := h.status
  waiting op waits := by
    obtain ⟨position, instruction, earlier, log⟩ := h.waiting op waits
    have mem : (⟨op.request, none⟩ : LogEntry) ∈ s.reviews.toList := by
      rw [log]
      exact List.mem_append_right _ (List.mem_singleton_self _)
    exact ⟨position, instruction, h.mirrors.request? mem, h.mirrors.decisions _ mem⟩
  numbered := by
    rw [h.mirrors.numbered, ← h.mirrors.last, Array.length_toList]
  requests := by
    rw [Table.values, h.mirrors.requests, List.map_map]
    rfl
  decisions e he := (h.mirrors.decisions e (Array.mem_toList_iff.2 he)).symm
  taken := h.resume_ok_iff
  refused id d e := h.resume_error
  final g t life k e d he hd := by
    rw [← Array.getElem?_toList] at he ⊢
    exact (h.lives life).2 k e he (by simp [hd])
  answerable recover program annotations decide := by
    rw [runToCompletionWith, runToCompletion,
      (h.run program annotations).answerAllWith_eq recover abandon, answerAllWith_abandon]

/-- **Reviews follow the protocol** for the whole life of a session with a gateway of its own,
whatever is run and answered, in whatever order. -/
theorem review_protocol {s₀ s : Session π MemoryGateway κ} {h : List (Event π MemoryGateway κ)}
    (new : s₀.IsNew) (gateway : s₀.gateway = {}) (life : Lives s₀ h s) : s.KeepsProtocol :=
  ((Orderly.of_new new gateway).lives life).1.keepsProtocol

/-- A deployment by an entity whose score is too low, which a human may approve. -/
def appeal : Program where
  instructions :=
    [⟨.declareContract, ["c"], ⟨1, 1⟩⟩, ⟨.setOversight, ["c", "approval"], ⟨2, 1⟩⟩,
      ⟨.setExplainability, ["c", "0.5"], ⟨3, 1⟩⟩, ⟨.deploy, ["c", "prod"], ⟨4, 1⟩⟩]

/-- The program is run, an answer goes astray, and it is run again while the first request is
open. -/
theorem review_protocol_rerun :
    (Session.standard 1 {}).IsNew ∧ (Session.standard 1 {}).gateway = {} ∧
    ((((((Session.standard 1 {}).run appeal none).resume 7 .approve).2.run appeal none).resume 2
      .approve).2.reviews.toList.map fun e => (e.request.id, e.decision)) =
        [(1, none), (2, some .approve)] ∧
    (((((Session.standard 1 {}).run appeal none).resume 7 .approve).2.run appeal none).resume 2
      .approve).2.KeepsProtocol := by
  have new : (Session.standard 1 {}).IsNew := ⟨rfl, rfl, rfl, rfl⟩
  refine ⟨new, rfl, by decide +kernel, ?_⟩
  exact review_protocol new rfl
    (.resume (.run (.resume (.run .new appeal none) 7 .approve) appeal none) 2
    .approve)

end Session

end GovernedQuantum
