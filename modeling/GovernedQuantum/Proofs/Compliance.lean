import GovernedQuantum.Proofs.Governance
import GovernedQuantum.Proofs.Reachability
import GovernedQuantum.Proofs.StaticSoundness
import GovernedQuantum.Proofs.Validation

/-!
# Failed verification

An entity that has failed verification is non-compliant. Verification itself counts that against it,
so no later verification can pass, and nothing else writes the mark.

The checker puts every deployment and every decision under the constraint that its entity has not
failed verification. Constraints are looked at before a human is asked, and nothing happens while a
session waits, so not even an approval lets a non-compliant entity act.

* `Tables.NonCompliant`: the entity has failed verification.
* `Session.tablesAfter`: the tables at a point of a history. `Session.Linked`: entities change in
  events only.
* `Session.nonCompliant_stable`: the mark is never taken back.
* `Session.Course`: what becomes of one run. `Session.Blocking`: what holds all along the run of a
  checked program.
* `Session.failed_verification_is_final`: **the theorem.**
-/

namespace GovernedQuantum

/-- The entity has failed verification. -/
def Tables.NonCompliant (t : Tables) (name : String) : Prop :=
  ∃ e, t.entities.find? name = some e ∧ e.compliance = .nonCompliant

instance (t : Tables) (name : String) : Decidable (t.NonCompliant name) :=
  decidable_of_iff ((t.entities.find? name).any (·.compliance = .nonCompliant) = true)
    (by simp [Tables.NonCompliant, Option.any_eq_true])

theorem Tables.NonCompliant.of_eq {t u : Tables} {name : String} (h : t.NonCompliant name)
    (same : u.entities = t.entities) : u.NonCompliant name := by
  rw [NonCompliant, same]
  exact h

theorem Tables.trail_of_eq {t u : Tables} (same : u.entities = t.entities) (kind : OperationKind)
    (name : String) : u.trail kind name = t.trail kind name := by
  rw [trail, same, trail]

/-! ## The mark is never taken back -/

/-- A verdict on a non-compliant entity fails, on whatever operation. -/
theorem Profile.not_passed_of_nonCompliant (p : Profile) {e : Entity}
    (failed : e.compliance = .nonCompliant) : (p.verdict (some e)).passed = false := by
  unfold verdict Verdict.passed objections
  simp [failed]

/-- No instruction on an entity clears its mark. -/
theorem Session.Governs.nonCompliant {π γ κ : Type} {s t : Session π γ κ} {i : Instruction}
    {e e' : Entity} (change : s.Governs i e e' t) (failed : e.compliance = .nonCompliant) :
    e'.compliance = .nonCompliant := by
  cases change with
  | explainability | oversight | criticality | approve | deploy | decide => exact failed
  | @verify verdict op judged =>
    show (if verdict.passed = true then Compliance.compliant else .nonCompliant) = _
    rw [← judged, Profile.not_passed_of_nonCompliant _ failed]
    rfl

namespace Session

variable {π γ κ : Type}

theorem Effect.nonCompliant [Physics π] [Coordinator κ] {s t : Session π γ κ} {i : Instruction}
    {name : String} (effect : s.Effect i t) (failed : s.tables.NonCompliant name) :
    t.tables.NonCompliant name := by
  obtain ⟨e, known, mark⟩ := failed
  cases effect with
  | declare op unknown =>
    -- a declared name is not declared again
    have other : i.arg 0 ≠ name := by
      rintro rfl
      exact absurd (unknown.symm.trans known) (by simp)
    refine ⟨e, ?_, mark⟩
    rw [tables_withTables, Tables.putEntity, Table.find?_insert, if_neg other]
    exact known
  | @govern e₁ e' u known₁ change =>
    by_cases same : i.arg 0 = name
    · subst same
      obtain rfl := Option.some.inj (known₁.symm.trans known)
      refine ⟨e', ?_, change.nonCompliant mark⟩
      rw [tables_withTables, Tables.putEntity, Table.find?_insert, if_pos rfl]
    · refine ⟨e, ?_, mark⟩
      rw [tables_withTables, Tables.putEntity, Table.find?_insert, if_neg same]
      exact known
  | allocate | entangle | disentangle | applyGate | measure | release | bind | print | targetNode
  | channel | barrier | window | entangleRemote | teleport | swap => exact ⟨e, known, mark⟩

section

variable [Physics π] [Coordinator κ]

/-- **The mark stays**, whatever a session does. -/
theorem nonCompliant_stable (name : String) :
    Stable (π := π) (γ := γ) (κ := κ) fun _ s => s.tables.NonCompliant name where
  still failed alike := failed.of_eq (congrArg Tables.entities alike.tables)
  timers failed := failed.of_eq rfl
  effect failed done := (attempt_done_iff.1 done).nonCompliant failed

end

end Session

theorem Event.nonCompliant_after {π γ κ : Type} [Physics π] [Gateway γ] [Coordinator κ]
    (e : Event π γ κ) {name : String} (failed : e.before.tables.NonCompliant name) :
    e.after.tables.NonCompliant name := by
  have stable := Session.nonCompliant_stable (π := π) (γ := γ) (κ := κ) name
  cases e with
  | cycle s index i => exact stable.step (h := []) failed index i
  | answer s op gateway d =>
    exact stable.acted (h := [])
      (stable.still (h := []) failed (s.answered_alike op gateway d)) op d

/-! ## Points of a history -/

namespace Session

variable {π γ κ : Type} [Physics π] [Gateway γ] [Coordinator κ]

/-- The tables after the events `h` in the life of `s₀`. -/
def tablesAfter (s₀ : Session π γ κ) (h : List (Event π γ κ)) : Tables :=
  (h.getLast?.map (·.after.tables)).getD s₀.tables

@[simp] theorem tablesAfter_concat (s₀ : Session π γ κ) (h : List (Event π γ κ)) (e : Event π γ κ) :
    s₀.tablesAfter (h ++ [e]) = e.after.tables := by
  rw [tablesAfter, List.getLast?_concat]
  rfl

/-- **Entities change in events only**: each event finds them as the one before has left them. -/
structure Linked (s₀ : Session π γ κ) (h : List (Event π γ κ)) (s : Session π γ κ) : Prop where
  events : Throughout
    (fun earlier e => e.before.tables.entities = (s₀.tablesAfter earlier).entities) h
  last : s.tables.entities = (s₀.tablesAfter h).entities

namespace Linked

variable {s₀ s t : Session π γ κ} {h e : List (Event π γ κ)}

theorem still (linked : s₀.Linked h s) (same : t.tables.entities = s.tables.entities) :
    s₀.Linked (h ++ []) t := by
  rw [List.append_nil]
  exact ⟨linked.events, same.trans linked.last⟩

theorem concat (linked : s₀.Linked h s) {e : Event π γ κ} (before : e.before.tables = s.tables)
    (after : t.tables = e.after.tables) : s₀.Linked (h ++ [e]) t where
  events := linked.events.concat ((congrArg Tables.entities before).trans linked.last)
  last := by rw [tablesAfter_concat, after]

theorem move (linked : s₀.Linked h s) (m : Move s e t) : s₀.Linked (h ++ e) t := by
  cases m with
  | pass ready within passed =>
    refine linked.concat rfl ?_
    rw [Event.after, passed]
    rfl
  | ask ready within asked =>
    refine linked.concat rfl ?_
    rw [Event.after, asked]
    rfl
  | answer waits taken => exact linked.concat rfl rfl
  | finish ready =>
    refine linked.still ?_
    rw [halt, s.finalScan_untouched.tables]
    rfl
  | exhaust | collapse | refuse | abandon => exact linked.still rfl

theorem lives (life : Lives s₀ h s) : s₀.Linked h s := by
  have law : Law true Elsewhere (Linked s₀) :=
    { start := fun program annotations _ linked =>
        ⟨linked.events,
          (congrArg Tables.entities (start_alike _ program annotations).tables).trans linked.last⟩
      move := move
      meanwhile := by
        rintro h s t linked ⟨_, _, _, _, _, _, _, rfl⟩
        exact ⟨linked.events, linked.last⟩ }
  exact law.history ⟨fun earlier e later split => absurd split (by simp), rfl⟩ life

/-- Between two points of a history the mark stays, and trails grow by what the events append. -/
theorem nonCompliant {earlier later : List (Event π γ κ)} {name : String}
    (linked : s₀.Linked (earlier ++ later) s)
    (failed : (s₀.tablesAfter earlier).NonCompliant name) :
    s.tables.NonCompliant name ∧
    (∀ e ∈ later, e.before.tables.NonCompliant name ∧ e.after.tables.NonCompliant name) ∧
    ∀ kind, s.tables.trail kind name =
      (s₀.tablesAfter earlier).trail kind name ++ later.flatMap (·.appended kind name) := by
  -- the point moves on, event by event, to the end of the history
  induction later generalizing earlier with
  | nil =>
    rw [List.append_nil] at linked
    refine ⟨failed.of_eq linked.last, fun e he => absurd he List.not_mem_nil, fun kind => ?_⟩
    rw [List.flatMap_nil, List.append_nil]
    exact Tables.trail_of_eq linked.last kind name
  | cons e later ih =>
    have link := linked.events earlier e later rfl
    have before : e.before.tables.NonCompliant name := failed.of_eq link
    have after := e.nonCompliant_after before
    rw [List.append_cons] at linked
    obtain ⟨last, events, trails⟩ := ih linked (by rwa [tablesAfter_concat])
    refine ⟨last, List.forall_mem_cons.2 ⟨⟨before, after⟩, events⟩, fun kind => ?_⟩
    rw [trails, tablesAfter_concat, e.trail_after, Tables.trail_of_eq link, List.flatMap_cons,
      List.append_assoc]

end Linked

/-! ## Runs of checked programs -/

/-- **What becomes of one run**, with its events: requests are answered, in whatever way, or given
up, and meanwhile all may change that is not the session's own. -/
def Course (s₀ : Session π γ κ) (program : Program) (annotations : Option (List InferredType))
    (h : List (Event π γ κ)) (s : Session π γ κ) : Prop :=
  ∃ g, h = s₀.runEvents program annotations ++ g ∧
    (s₀.run program annotations).History (.events false Elsewhere) g s

theorem Course.lives {s₀ s : Session π γ κ} {program : Program}
    {annotations : Option (List InferredType)} {h : List (Event π γ κ)}
    (course : s₀.Course program annotations h s) : s₀.Lives h s := by
  obtain ⟨g, rfl, answers⟩ := course
  exact (History.new.run program annotations).trans answers.further

section

omit [Physics π] [Gateway γ] [Coordinator κ]

/-- Every deployment and every decision of the program under way is subject to the compliance of its
entity. -/
def Guards (s : Session π γ κ) : Prop :=
  ∀ index i, s.program.instructions[index]? = some i → i.opcode.operationKind.isGated = true →
    Constraint.compliance (i.arg 0) .pre ∈ s.constraintsAt index .pre

theorem Guards.of_eq {s t : Session π γ κ} (guards : s.Guards) (program : t.program = s.program)
    (annotations : t.annotations = s.annotations) : t.Guards := by
  intro index i hi gated
  rw [program] at hi
  rw [constraintsAt, annotations]
  exact guards index i hi gated

/-- The constraint fails at a non-compliant entity, whatever the time. -/
theorem violated_of_nonCompliant {t : Tables} {name : String} (failed : t.NonCompliant name)
    (phase : Phase) (now : Nat) :
    (Constraint.compliance name phase).evaluate (t.context now) ≠ none := by
  obtain ⟨e, known, mark⟩ := failed
  have view : (t.context now).entity name = some e.view := by
    show (t.entities.find? name).map Entity.view = _
    rw [known]
    rfl
  simp [Constraint.evaluate, Constraint.compliance, Constraint.violation?,
    Constraint.onEntity, view, Entity.view, mark]

/-- Nothing governed that a non-compliant entity does is let through. -/
theorem Guards.stopped {s : Session π γ κ} {index : Nat} {i : Instruction} (guards : s.Guards)
    (hi : s.program.instructions[index]? = some i) (gated : i.opcode.operationKind.isGated = true)
    (failed : s.tables.NonCompliant (i.arg 0)) : (s.prepared index i).1 = false :=
  not_passed_of_violated (guards index i hi gated) rfl
    (violated_of_nonCompliant (t := s.fireTimers.tables) failed .pre)

end

/-- What takes effect in a guarded cycle appends nothing for a non-compliant entity. -/
theorem Guards.appended {s : Session π γ κ} {index : Nat} {i : Instruction} {name : String}
    (guards : s.Guards) (hi : s.program.instructions[index]? = some i)
    (failed : s.tables.NonCompliant name) (kind : OperationKind) :
    (Event.cycle s index i).appended kind name = [] := by
  by_cases gated : i.opcode.operationKind.isGated = true
  · by_cases same : name = i.arg 0
    · have stopped := guards.stopped hi gated (same ▸ failed)
      have idle : (Event.cycle s index i).log = [] := by
        rw [Event.log, stepLog, stopped]
        rfl
      rw [Event.appended_eq, idle, List.flatMap_nil]
    · exact Event.appended_of_entry (Instruction.entry_of_ne same kind)
  · exact Event.appended_of_entry
      (Instruction.entry_of_free (Bool.not_eq_true _ ▸ gated) kind name)

/-- **All along the run of a checked program**: governed actions are subject to compliance, what
waits for a human acts for an entity that has not failed verification, and no event has appended
anything for one that has. -/
structure Blocking (h : List (Event π γ κ)) (s : Session π γ κ) : Prop where
  guards : s.Guards
  waiting : ∀ op, s.suspension = some op → ¬ s.tables.NonCompliant (op.instruction.arg 0)
  silent : ∀ e ∈ h, ∀ name, e.before.tables.NonCompliant name → ∀ kind, e.appended kind name = []

namespace Blocking

variable {h e : List (Event π γ κ)} {s t : Session π γ κ}

/-- Nothing waits, and nothing was appended. -/
theorem of_idle (silent : ∀ e ∈ h, ∀ name, e.before.tables.NonCompliant name →
    ∀ kind, e.appended kind name = []) (guards : t.Guards) (idle : t.suspension = none) :
    Blocking h t :=
  ⟨guards, fun op waits => absurd (idle.symm.trans waits) (by simp), silent⟩

theorem halt (silent : ∀ e ∈ h, ∀ name, e.before.tables.NonCompliant name →
    ∀ kind, e.appended kind name = []) (guards : t.Guards) (idle : t.suspension = none) :
    Blocking h t.halt :=
  of_idle silent guards idle

theorem silent_concat (blocking : Blocking h s) {e : Event π γ κ}
    (quiet : ∀ name, e.before.tables.NonCompliant name → ∀ kind, e.appended kind name = []) :
    ∀ e' ∈ h ++ [e], ∀ name, e'.before.tables.NonCompliant name →
      ∀ kind, e'.appended kind name = [] := by
  intro e' he'
  rcases List.mem_append.1 he' with he' | he'
  · exact blocking.silent e' he'
  · rw [List.mem_singleton.1 he']
    exact quiet

/-- A request is filed only for an entity that has not failed verification. -/
theorem ask (blocking : Blocking h s) {i : Instruction} {rest : List Instruction}
    {request : Request} (ready : s.Ready (i :: rest))
    (asked : s.counted.step s.position i = .suspended request t) :
    Blocking (h ++ [.cycle s.counted s.position i])
      { t with status := .suspended, suspension := some ⟨request, i, t.position⟩ } := by
  have asks := asks_of_suspended asked
  have guards : s.counted.Guards := blocking.guards
  refine ⟨guards.of_eq asks.course.program asks.course.annotations, fun op waits failed => ?_,
    blocking.silent_concat fun name failed kind => guards.appended ready.instruction failed kind⟩
  obtain rfl := Option.some.inj waits
  have failed : s.counted.tables.NonCompliant (i.arg 0) :=
    failed.of_eq (congrArg Tables.entities asks.tables).symm
  have stopped := guards.stopped ready.instruction asks.gated failed
  rcases s.counted.step_cases s.position i with ⟨-, -, he⟩ | ⟨passed, -⟩ | ⟨passed, -⟩ | ⟨passed, -⟩
  · exact absurd (asked.symm.trans he) (by simp)
  all_goals exact absurd (passed.symm.trans stopped) (by simp)

/-- An answer lets nothing through that a non-compliant entity would do. -/
theorem answer (blocking : Blocking h s) {op : Suspension} (waits : s.suspension = some op)
    (gateway : γ) (d : Decision) :
    Blocking (h ++ [.answer s op gateway d])
      { (s.answered op gateway d).acted op d with position := op.index + 1 } := by
  have course := s.acted_course op gateway d
  obtain ⟨-, idle, program⟩ := s.answered_running op gateway d
  have annotations : (s.answered op gateway d).annotations = s.annotations := by cases d <;> rfl
  refine of_idle (blocking.silent_concat fun name failed kind => ?_)
    (blocking.guards.of_eq (course.program.trans program) (course.annotations.trans annotations))
    (course.suspension.trans idle)
  have other : name ≠ op.instruction.arg 0 := by
    rintro rfl
    exact blocking.waiting op waits failed
  exact Event.appended_of_entry (Instruction.entry_of_ne other kind)

theorem move (blocking : Blocking h s) (m : Move s e t) : Blocking (h ++ e) t := by
  have guards := blocking.guards
  have silent : ∀ e ∈ h ++ [], ∀ name, e.before.tables.NonCompliant name →
      ∀ kind, e.appended kind name = [] := by
    rw [List.append_nil]
    exact blocking.silent
  cases m with
  | pass ready within passed =>
    have course := step_next_sameCourse passed
    have counted : s.counted.Guards := guards
    exact of_idle
      (blocking.silent_concat
        fun name failed kind => counted.appended ready.instruction failed kind)
      (counted.of_eq course.program course.annotations) (ready.next course).idle
  | ask ready within asked => exact blocking.ask ready asked
  | answer waits taken => exact blocking.answer waits _ _
  | exhaust ready spent => exact halt silent (guards.of_eq rfl rfl) ready.idle
  | collapse ready fatal => exact halt silent guards ready.idle
  | finish ready =>
    have course := s.finalScan_sameCourse
    exact halt silent (guards.of_eq course.program course.annotations)
      (course.suspension.trans ready.idle)
  | refuse waits refused => exact ⟨guards, blocking.waiting, silent⟩
  | abandon waits e => exact of_idle silent guards rfl

theorem course {s₀ : Session π γ κ} {program : Program} {annotations : Option (List InferredType)}
    (guards : (s₀.start program annotations).Guards) (course : s₀.Course program annotations h s) :
    Blocking h s := by
  have law : Law false Elsewhere (Blocking : List (Event π γ κ) → Session π γ κ → Prop) :=
    { start := fun _ _ runs => absurd runs (by simp)
      move := move
      meanwhile := by
        rintro h s t blocking ⟨_, _, _, _, _, _, _, rfl⟩
        exact ⟨blocking.guards, blocking.waiting, blocking.silent⟩ }
  obtain ⟨g, rfl, answers⟩ := course
  have start : Blocking [] (s₀.start program annotations) :=
    of_idle (fun e he => absurd he List.not_mem_nil) guards
      (s₀.start_ready program annotations).idle
  have run := law.path start (path_serve (s := s₀) (c := .run program annotations) trivial)
  exact law.after run answers

end Blocking

/-! ## The theorem -/

omit [Physics π] [Gateway γ] [Coordinator κ] in
/-- The checker subjects governed actions to compliance. -/
theorem start_guards (s : Session π γ κ) {is : List Instruction} {types : List InferredType}
    (fits : types.length = (⟨is⟩ : Program).length) (annotates : Annotates types is) :
    (s.start ⟨is⟩ (some types)).Guards := by
  rw [s.start_of_fits fits]
  intro index i hi gated
  obtain ⟨t, threshold, views, partners, ht, owes⟩ := annotates.at hi
  rw [constraintsAt, Option.bind_some, List.getElem?_toArray, ht]
  refine InferredType.mem_constraintsIn.2 ⟨?_, rfl⟩
  rw [owes, owed]
  cases op : i.opcode with
  | deploy | decide => simp
  | _ =>
    rw [op] at gated
    exact absurd gated (by decide)

/-- **Failed verification is final.** Once an entity is non-compliant, at whatever point of the
history of a session, it is so before and after every later event and in every later session,
whatever is run and answered. In a run of a compiled program with the checker's types as
annotations, whatever the answers, no later event appends anything to what the entity was let to do,
so its deployments and its decisions are for good what they were. -/
theorem failed_verification_is_final :
    (∀ (s₀ s : Session π γ κ) (earlier later : List (Event π γ κ)) (name : String),
      s₀.Lives (earlier ++ later) s → (s₀.tablesAfter earlier).NonCompliant name →
      s.tables.NonCompliant name ∧
      ∀ e ∈ later, e.before.tables.NonCompliant name ∧ e.after.tables.NonCompliant name) ∧
    ∀ (source : String) (limits : Limits), (compile source limits).success = true →
      ∀ (s₀ s : Session π γ κ) (earlier later : List (Event π γ κ)) (name : String),
        s₀.Course (compile source limits).program (some (compile source limits).types)
          (earlier ++ later) s → (s₀.tablesAfter earlier).NonCompliant name →
        ∀ kind, (∀ e ∈ later, e.appended kind name = []) ∧
          s.tables.trail kind name = (s₀.tablesAfter earlier).trail kind name := by
  refine ⟨fun s₀ s earlier later name life failed => ?_,
    fun source limits compiled s₀ s earlier later name course failed kind => ?_⟩
  · obtain ⟨last, events, -⟩ := (Linked.lives life).nonCompliant failed
    exact ⟨last, events⟩
  · obtain ⟨is, program, isOk, types⟩ := Compilation.checked_of_success compiled
    have fits : (compile source limits).types.length = is.length := by
      rw [compile, types]
      exact (length_types _ _ _).trans (List.length_map _)
    have annotates : Annotates (compile source limits).types is := by
      rw [compile, types]
      exact annotates_check source _ (wellFormed_of_isOk isOk).resolved
    have guards : (s₀.start (compile source limits).program
        (some (compile source limits).types)).Guards := by
      rw [show (compile source limits).program = ⟨is⟩ from program]
      exact s₀.start_guards fits annotates
    obtain ⟨-, events, trails⟩ := (Linked.lives course.lives).nonCompliant failed
    have silent : ∀ e ∈ later, e.appended kind name = [] := fun e he =>
      (Blocking.course guards course).silent e (List.mem_append_right _ he) name
        (events e he).1 kind
    refine ⟨silent, ?_⟩
    rw [trails, List.flatMap_eq_nil_iff.2 silent, List.append_nil]

/-- An entity that fails verification, is mended and verified again, and is to be deployed. -/
def relapse : String :=
  "contract c oversee c approval explain c 0.2 verify c explain c 0.99 verify c deploy c prod"

/-- The events of its run, with the checker's types as annotations. -/
def relapseEvents : List (Event SeededPhysics MemoryGateway Loopback) :=
  (Session.standard 1 {}).runEvents (compile relapse {}).program (some (compile relapse {}).types)

/-- Without annotations a human is asked and may let it be deployed; with them nobody is asked. -/
theorem failed_verification_is_final_relapse :
    (compile relapse {}).success = true ∧
    ((Session.standard 1 {}).tablesAfter (relapseEvents.take 4)).NonCompliant "c" ∧
    (((Session.standard 1 {}).run (compile relapse {}).program none).resume 1
      .approve).2.tables.trail .deployment "c" = ["prod"] ∧
    ((Session.standard 1 {}).run (compile relapse {}).program
      (some (compile relapse {}).types)).tables.trail .deployment "c" =
      ((Session.standard 1 {}).tablesAfter (relapseEvents.take 4)).trail .deployment "c" := by
  have compiled : (compile relapse {}).success = true := by decide +kernel
  have failed : ((Session.standard 1 {}).tablesAfter (relapseEvents.take 4)).NonCompliant "c" := by
    decide +kernel
  have course : (Session.standard 1 {}).Course (compile relapse {}).program
      (some (compile relapse {}).types) (relapseEvents.take 4 ++ relapseEvents.drop 4)
      ((Session.standard 1 {}).run (compile relapse {}).program
        (some (compile relapse {}).types)) := by
    exact ⟨[], by rw [List.take_append_drop, List.append_nil]; rfl, .new⟩
  exact ⟨compiled, failed, by decide +kernel,
    (failed_verification_is_final.2 relapse {} compiled _ _ _ _ "c" course failed .deployment).2⟩

end Session

end GovernedQuantum
