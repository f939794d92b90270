import GovernedQuantum.Proofs.Succession

/-!
# Separation of governance

Instructions of the governance group and all others share one session, with its clock, its desk and
its console. Still they have nothing to do with one another: the first work on entities and
requests, the others on everything else.

* `Session.withEntities`, `Session.beside`: the two parts of a session, each exchanged for another.
* `Session.attempt_withEntities`: other instructions do not look at entities.
* `Session.attempt_beside`: instructions of the governance group look at nothing else.
* `Domain.governed`, `Domain.ungoverned`: the two domains, and that they are lawful.
* `domain_separation`: **each part of a program comes to the same without the other.**
-/

namespace GovernedQuantum

/-- The instruction belongs to governance. -/
def Instruction.governs (i : Instruction) : Bool := i.opcode.group = .governance

/-- Requests are made by instructions that govern. -/
theorem Instruction.governs_of_isGated {i : Instruction}
    (gated : i.opcode.operationKind.isGated = true) : i.governs = true := by
  unfold governs
  generalize i.opcode = op at gated ⊢
  revert gated
  cases op <;> decide

/-- Instructions that govern work on no qudit. -/
theorem Instruction.resources_of_governs {i : Instruction} (governs : i.governs = true) :
    i.resources = [] ∧ i.interactionOperands = [] := by
  unfold Instruction.governs at governs
  unfold resources interactionOperands
  generalize i.opcode = op at governs ⊢
  revert governs
  cases op <;> simp [Opcode.group]

/-- An exchange that leaves the outcome of an attempt as it is leaves its session as it is. -/
theorem Attempt.session_of_map {σ : Type} {f : σ → σ} {a : Attempt σ} (same : a = a.map f) :
    a.session = f a.session := by
  cases a with
  | done t => exact Attempt.done.inj same
  | failed fault t => exact (Attempt.failed.inj same).2

namespace Session

variable {π γ κ : Type} (s : Session π γ κ)

/-- An exchange that effects and failures go along with. -/
theorem attempt_map [Physics π] [Coordinator κ] {i : Instruction}
    {f : Session π γ κ → Session π γ κ} (done : ∀ t, s.Effect i t → (f s).Effect i (f t))
    (failed : ∀ fault t, s.Fails i fault t → (f s).Fails i fault (f t)) :
    (f s).attempt i = (s.attempt i).map f := by
  cases h : s.attempt i with
  | done t => exact attempt_done_iff.2 (done t (attempt_done_iff.1 h))
  | failed fault t => exact attempt_failed_iff.2 (failed fault t (attempt_failed_iff.1 h))

/-! ## Instructions that do not look at entities -/

/-- The session with other entities. -/
def withEntities (e : Entities) : Session π γ κ :=
  { s with tables := { s.tables with entities := e } }

section

variable (e : Entities)

variable {s} in
theorem FindsOperand.withEntities {i : Instruction} {k x : Nat} {r : String}
    (h : s.FindsOperand i k r x) : (s.withEntities e).FindsOperand i k r x :=
  ⟨h.resolves, h.coherent⟩

variable {s} in
theorem GetsTo.withEntities {i : Instruction} {k : Nat} (h : s.GetsTo i k) :
    (s.withEntities e).GetsTo i k := by
  refine ⟨h.distinct, fun j r before operand => ?_⟩
  obtain ⟨x, found⟩ := h.found j r before operand
  exact ⟨x, found.withEntities e⟩

variable [Coordinator κ]

variable {s} in
theorem Fails.withEntities {i : Instruction} {f : Fault} {t : Session π γ κ} (h : s.Fails i f t)
    (other : i.governs = false) : (s.withEntities e).Fails i f (t.withEntities e) := by
  have group : i.opcode.group ≠ .governance := of_decide_eq_false other
  cases h with
  | alreadyBound op bound => exact .alreadyBound op bound
  | invalidDimension op unbound literal => exact .invalidDimension op unbound literal
  | unresolved gets operand cause readings =>
    exact .unresolved (gets.withEntities e) operand cause readings
  | decoherent gets operand needs resolves stale =>
    exact .decoherent (gets.withEntities e) operand needs resolves stale
  | selfEntanglement op same => exact .selfEntanglement op same
  | alreadyEntangled op distinct left right joined =>
    exact .alreadyEntangled op distinct (left.withEntities e) (right.withEntities e) joined
  | notEntangled op left right apart =>
    exact .notEntangled op (left.withEntities e) (right.withEntities e) apart
  | unboundVariable op unknown => exact .unboundVariable op unknown
  | invalidBarrier op literal => exact .invalidBarrier op literal
  | invalidSoft op literal => exact .invalidSoft op literal
  | invalidHard op first literal => exact .invalidHard op first literal
  | invertedWindow op first last order => exact .invertedWindow op first last order
  | refused op operand answer => exact .refused op (operand.withEntities e) answer
  | swapRefused op distinct left right answer =>
    exact .swapRefused op distinct (left.withEntities e) (right.withEntities e) answer
  | unknownEntity about =>
    unfold Instruction.entity? at about
    cases op : i.opcode <;> simp_all [Opcode.group]
  | entityExists op | invalidScore op | invalidOversight op | invalidCriticality op =>
    exact absurd (by rw [op]; rfl) group

variable [Physics π]

variable {s} in
theorem Effect.withEntities {i : Instruction} {t : Session π γ κ} (h : s.Effect i t)
    (other : i.governs = false) : (s.withEntities e).Effect i (t.withEntities e) := by
  have group : i.opcode.group ≠ .governance := of_decide_eq_false other
  cases h with
  | allocate op unbound literal => exact .allocate op unbound literal
  | entangle op distinct left right apart time =>
    exact .entangle op distinct (left.withEntities e) (right.withEntities e) apart time
  | disentangle op left right joined =>
    exact .disentangle op (left.withEntities e) (right.withEntities e) joined
  | applyGate op operand => exact .applyGate op (operand.withEntities e)
  | measure op operand live measured =>
    have effect := Effect.measure (s := s.withEntities e) op (operand.withEntities e) live measured
    exact effect
  | release op operand => exact .release op (operand.withEntities e)
  | bind op => exact .bind op
  | print op known => exact .print op known
  | targetNode op => exact .targetNode op
  | channel op => exact .channel op
  | barrier op literal => exact .barrier op literal
  | window op first last order => exact .window op first last order
  | entangleRemote op operand accepted keyed =>
    have effect :=
      Effect.entangleRemote (s := s.withEntities e) op (operand.withEntities e) accepted keyed
    exact effect
  | teleport op operand live accepted estimated =>
    have effect :=
      Effect.teleport (s := s.withEntities e) op (operand.withEntities e) live accepted estimated
    exact effect
  | swap op distinct left right accepted =>
    have effect := Effect.swap (s := s.withEntities e) op distinct (left.withEntities e)
      (right.withEntities e) accepted
    exact effect
  | declare op => exact absurd (by rw [op]; rfl) group
  | govern known change => cases change <;> exact absurd (by simp [Opcode.group, *]) group

/-- **Instructions of other groups do not look at entities**, and leave them alone. -/
theorem attempt_withEntities {i : Instruction} (other : i.governs = false) :
    (s.withEntities e).attempt i = (s.attempt i).map (·.withEntities e) :=
  s.attempt_map (f := (·.withEntities e)) (fun _ h => h.withEntities e other)
    fun _ _ h => h.withEntities e other

omit [Coordinator κ] [Physics π] in
theorem checkAfter_withEntities {i : Instruction} (other : i.governs = false) (approved : Bool) :
    (s.withEntities e).checkAfter i approved = (s.checkAfter i approved).withEntities e := by
  have operands (now : Nat) (names : List String) (t : Session π γ κ) :
      names.foldl (checkOperand i now) (t.withEntities e) =
        (names.foldl (checkOperand i now) t).withEntities e := by
    induction names generalizing t with
    | nil => rfl
    | cons name rest ih =>
      have one : checkOperand i now (t.withEntities e) name =
          (checkOperand i now t name).withEntities e := by
        unfold checkOperand
        rw [show (t.withEntities e).tables.handle? = t.tables.handle? from rfl]
        split <;> rfl
      rw [List.foldl_cons, one, ih]
      rfl
  have free : i.opcode.operationKind.isGated = false := by
    rw [← Bool.not_eq_true]
    intro gated
    exact absurd (Instruction.governs_of_isGated gated) (by simp [other])
  have unasked (t : Session π γ κ) : t.checkOversight i approved = t := by
    unfold checkOversight
    simp [free]
  unfold checkAfter
  dsimp only
  rw [unasked, unasked]
  exact operands s.clock.now i.interactionOperands s.readClock.2

end

/-! ## Instructions that look at entities only -/

/-- The session with everything but its entities exchanged. -/
def beside (physics : π) (coordinator : κ) (nextHandle : Nat) (rest : Tables) : Session π γ κ :=
  { s with physics, coordinator, nextHandle, tables := { rest with entities := s.tables.entities } }

section

variable (p : π) (c : κ) (n : Nat) (rest : Tables)

variable {s} in
theorem Governs.beside {i : Instruction} {e e' : Entity} {u : Session π γ κ}
    (h : s.Governs i e e' u) :
    (s.beside p c n rest).Governs i e e' (u.beside p c n rest) := by
  cases h with
  | explainability op literal => exact .explainability op literal
  | oversight op literal => exact .oversight op literal
  | criticality op literal => exact .criticality op literal
  | approve op => exact .approve op
  | deploy op => exact .deploy op
  | verify op judged => exact .verify op judged
  | decide op => exact .decide op

variable {s} in
theorem Effect.beside [Physics π] [Coordinator κ] {i : Instruction} {t : Session π γ κ}
    (h : s.Effect i t) (governs : i.governs = true) :
    (s.beside p c n rest).Effect i (t.beside p c n rest) := by
  have group : i.opcode.group = .governance := of_decide_eq_true governs
  cases h with
  | declare op unknown => exact .declare op unknown
  | govern known change =>
    have effect := Effect.govern (s := s.beside p c n rest) known (change.beside p c n rest)
    exact effect
  | allocate op | entangle op | disentangle op | applyGate op | measure op | release op | bind op
  | print op | targetNode op | channel op | barrier op | window op | entangleRemote op
  | teleport op | swap op =>
    rw [op] at group
    exact absurd group (by decide)

variable {s} in
theorem Fails.beside [Coordinator κ] {i : Instruction} {f : Fault} {t : Session π γ κ}
    (h : s.Fails i f t) (governs : i.governs = true) :
    (s.beside p c n rest).Fails i f (t.beside p c n rest) := by
  have group : i.opcode.group = .governance := of_decide_eq_true governs
  cases h with
  | unknownEntity about literal unknown => exact .unknownEntity about literal unknown
  | entityExists op known => exact .entityExists op known
  | invalidScore op literal => exact .invalidScore op literal
  | invalidOversight op literal => exact .invalidOversight op literal
  | invalidCriticality op literal => exact .invalidCriticality op literal
  | unresolved gets operand | decoherent gets operand =>
    exact absurd operand (by simp [Instruction.resources_of_governs governs])
  | selfEntanglement op | refused op =>
    rcases op with op | op <;> rw [op] at group <;> exact absurd group (by decide)
  | alreadyBound op | invalidDimension op | alreadyEntangled op | notEntangled op
  | unboundVariable op | invalidBarrier op | invalidSoft op | invalidHard op | invertedWindow op
  | swapRefused op =>
    rw [op] at group
    exact absurd group (by decide)

/-- **Instructions that govern look at nothing but entities**, and leave everything else alone. -/
theorem attempt_beside [Physics π] [Coordinator κ] {i : Instruction} (governs : i.governs = true) :
    (s.beside p c n rest).attempt i = (s.attempt i).map (·.beside p c n rest) :=
  s.attempt_map (f := (·.beside p c n rest)) (fun _ h => h.beside p c n rest governs)
    fun _ _ h => h.beside p c n rest governs

theorem checkAfter_beside {i : Instruction} (governs : i.governs = true) (approved : Bool) :
    (s.beside p c n rest).checkAfter i approved = (s.checkAfter i approved).beside p c n rest := by
  have oversight (t : Session π γ κ) :
      (t.beside p c n rest).checkOversight i approved =
        (t.checkOversight i approved).beside p c n rest := by
    unfold checkOversight
    rw [show (Constraint.humanOversight (i.arg 0) .post).evaluate
        ((t.beside p c n rest).tables.context (t.beside p c n rest).clock.now) =
      (Constraint.humanOversight (i.arg 0) .post).evaluate (t.tables.context t.clock.now) from rfl]
    split
    · split <;> rfl
    · rfl
  unfold checkAfter
  dsimp only
  rw [(Instruction.resources_of_governs governs).2]
  exact oversight s.readClock.2

end

/-! ## What instructions leave alone -/

variable [Physics π] [Coordinator κ]

-- what commutes with every exchange commutes with the one that puts everything back where it was

theorem attempt_entities {i : Instruction} (other : i.governs = false) :
    (s.attempt i).session.tables.entities = s.tables.entities :=
  congrArg (·.tables.entities)
    (Attempt.session_of_map (s.attempt_withEntities s.tables.entities other))

theorem attempt_of_governs {i : Instruction} (governs : i.governs = true) :
    (s.attempt i).session =
      (s.attempt i).session.beside s.physics s.coordinator s.nextHandle s.tables :=
  Attempt.session_of_map (s.attempt_beside s.physics s.coordinator s.nextHandle s.tables governs)

end Session

/-! ## The two domains -/

namespace Domain

variable {π γ κ : Type}

/-- **Governance**: entities and requests. What it does not see might be anything. -/
def governed (physics : π) (coordinator : κ) : Domain π κ where
  covers := Instruction.governs
  oversees := true
  physics _ := physics
  coordinator _ := coordinator
  nextHandle _ := 0
  tables t := { entities := t.entities }

/-- **Everything else.** -/
def ungoverned : Domain π κ where
  covers i := !i.governs
  oversees := false
  physics p := p
  coordinator c := c
  nextHandle n := n
  tables t := { t with entities := .empty }

variable [Physics π] [Coordinator κ]

theorem governed_lawful (physics : π) (coordinator : κ) :
    (governed physics coordinator).Lawful γ where
  timers _ _ := rfl
  requests := Instruction.governs_of_isGated
  entities _ _ := rfl
  attempt s _ governs := s.attempt_beside physics coordinator 0 {} governs
  checkAfter s _ approved governs := s.checkAfter_beside physics coordinator 0 {} governs approved
  unseen s _ other := by
    have entities := s.attempt_entities other
    exact ⟨rfl, rfl, rfl, congrArg (fun e => ({ entities := e } : Tables)) entities⟩

theorem ungoverned_lawful : (ungoverned : Domain π κ).Lawful γ where
  timers _ _ := rfl
  requests gated := by simp [ungoverned, Instruction.governs_of_isGated gated]
  entities _ desk := absurd desk (by simp [ungoverned])
  attempt s _ other := s.attempt_withEntities .empty (by simpa [ungoverned] using other)
  checkAfter s _ approved other :=
    s.checkAfter_withEntities .empty (by simpa [ungoverned] using other) approved
  unseen s _ governs := by
    rw [s.attempt_of_governs (by simpa [ungoverned] using governs)]
    exact ⟨rfl, rfl, rfl, rfl⟩

end Domain

/-! ## Errors by instruction -/

namespace Session

variable {π γ κ : Type} [Physics π] [Gateway γ] [Coordinator κ] (decide : Request → Decision)

/-- The errors that an instruction adds in its turn. -/
def raised (s : Session π γ κ) (i : Instruction) : List Diagnostic :=
  (s.turn decide i).diagnostics.errors.toList.drop s.diagnostics.errors.toList.length

/-- **The errors of a run, by instruction.** -/
def ledger : List Instruction → Session π γ κ → List (Instruction × List Diagnostic)
  | [], _ => []
  | i :: rest, s => (i, raised decide s i) :: ledger rest (s.turn decide i)

theorem ledger_instructions (is : List Instruction) (s : Session π γ κ) :
    (ledger decide is s).map Prod.fst = is := by
  induction is generalizing s with
  | nil => rfl
  | cons i rest ih => rw [ledger, List.map_cons, ih]

theorem ledger_take (k : Nat) (is : List Instruction) (s : Session π γ κ) :
    (ledger decide is s).take k = ledger decide (is.take k) s := by
  induction is generalizing s k with
  | nil => rw [List.take_nil, ledger, List.take_nil]
  | cons i rest ih =>
    cases k with
    | zero => rfl
    | succ k => rw [List.take_succ_cons, ledger, ledger, List.take_succ_cons, ih]

theorem raised_eq {s : Session π γ κ} {i : Instruction} {found : List Diagnostic}
    (h : (s.turn decide i).diagnostics = s.diagnostics.pushAll found) :
    raised decide s i = found.filter (·.severity = .error) := by
  rw [raised, h, Diagnostics.errors_pushAll, List.drop_left]

theorem errors_turn (s : Session π γ κ) (i : Instruction) :
    (s.turn decide i).diagnostics.errors.toList = s.diagnostics.errors.toList ++ raised decide s i ∧
      ∀ d ∈ raised decide s i, d.location = i.location := by
  obtain ⟨found, gains, minor⟩ := turn_gains decide s i
  rw [raised_eq decide gains, gains]
  refine ⟨Diagnostics.errors_pushAll _ _, fun d hd => ?_⟩
  obtain ⟨hd, error⟩ := List.mem_filter.1 hd
  rcases minor d hd with warning | ⟨place, -⟩
  · rw [warning] at error
    exact absurd error (by simp)
  · exact place

/-- The ledger accounts for every error. -/
theorem errors_turns (is : List Instruction) (s : Session π γ κ) :
    (is.foldl (turn decide) s).diagnostics.errors.toList =
      s.diagnostics.errors.toList ++ (ledger decide is s).flatMap Prod.snd := by
  induction is generalizing s with
  | nil => exact (List.append_nil _).symm
  | cons i rest ih =>
    rw [List.foldl_cons, ih, (errors_turn decide s i).1, ledger, List.flatMap_cons,
      List.append_assoc]

/-- Errors stand at their instruction. -/
theorem ledger_location (is : List Instruction) (s : Session π γ κ) :
    ∀ entry ∈ ledger decide is s, ∀ d ∈ entry.2, d.location = entry.1.location := by
  induction is generalizing s with
  | nil => exact fun _ h => absurd h List.not_mem_nil
  | cons i rest ih =>
    intro entry h
    rcases List.mem_cons.1 h with rfl | h
    · exact (errors_turn decide s i).2
    · exact ih _ entry h

/-- **The entries of a domain stay** when all other instructions are left out. -/
theorem ledger_filter {D : Domain π κ} (law : D.Lawful γ) {now : Nat} (is : List Instruction)
    {s s' : Session π γ κ} (h : D.InStep now s s') :
    (ledger decide is s).filter (D.covers ·.1) = ledger decide (is.filter D.covers) s' := by
  induction is generalizing s s' with
  | nil => rfl
  | cons i rest ih =>
    cases covers : D.covers i with
    | true =>
      obtain ⟨same, lines, found, hw, hw'⟩ := h.turn decide law covers
      have after := ih (same.fireTimers law)
      simp only [ledger, List.filter_cons, covers, if_true, after, raised_eq decide hw.2,
        raised_eq decide hw'.2]
    | false =>
      have after := ih (h.turn_left decide law covers)
      simp only [ledger, List.filter_cons, covers, Bool.false_eq_true, if_false, after]

/-! ## Runs without the other domain -/

section

variable {s : Session π γ κ} {now : Nat} (inOrder : s.InOrder) (delays : s.delays = {})
  (clock : s.clock.Reads now) {is : List Instruction} (room : is.length ≤ s.settings.maxSteps)
include inOrder delays clock room

theorem errors_completed :
    (s.completed decide ⟨is⟩).diagnostics.errors.toList =
      (ledger decide is (s.start {} none)).flatMap Prod.snd := by
  rw [(ends_completed decide inOrder delays clock room).errors, errors_turns]
  rfl

variable {D : Domain π κ} (law : D.Lawful γ)
include law

/-- **A domain cannot tell whether all other instructions were left out.** -/
theorem completed_filter :
    D.Same now (s.completed decide ⟨is⟩) (s.completed decide ⟨is.filter D.covers⟩) := by
  have room' : (is.filter D.covers).length ≤ s.settings.maxSteps :=
    Nat.le_trans (List.length_filter_le _ _) room
  have ends := (ends_completed decide inOrder delays clock room).same
  have ends' := (ends_completed decide inOrder delays clock room').same
  have apart : D.Same now _ _ := (inStep_start law delays clock {}).turns_filter decide law is
  exact ends.of_whole.symm.trans (apart.trans ends'.of_whole)

theorem errors_completed_filter :
    (s.completed decide ⟨is.filter D.covers⟩).diagnostics.errors.toList =
      ((ledger decide is (s.start {} none)).filter (D.covers ·.1)).flatMap Prod.snd := by
  have room' : (is.filter D.covers).length ≤ s.settings.maxSteps :=
    Nat.le_trans (List.length_filter_le _ _) room
  rw [errors_completed decide inOrder delays clock room',
    ledger_filter decide law is (inStep_start law delays clock {})]

end

end Session

open Session

variable {π γ κ : Type} [Physics π] [Gateway γ] [Coordinator κ]

/-- **Each part of a program comes to the same without the other.** From any session that a fresh
one reaches, and while the clock stands still: without the instructions that govern, all tables but
the entities end as they do with them, and so do the physics and the coordinator; with nothing but
these instructions the entities, the log of reviews and the gateway do. There is one ledger of
errors, with an entry for each instruction: the errors of a run of the first `k` instructions are
its first `k` entries, and to leave instructions out is to leave out their entries. -/
theorem domain_separation {s₀ s : Session π γ κ} (fresh : s₀.IsFresh)
    (reached : s₀.Reaches s) {now : Nat} (clock : s.clock.Reads now) (delays : s.delays = {})
    (decide : Request → Decision) (p : Program) (room : p.length ≤ s.settings.maxSteps) :
    let run := fun is : List Instruction => s.completed decide ⟨is⟩
    let errors := fun is : List Instruction => (run is).diagnostics.errors.toList
    let whole := run p.instructions
    let others := run (p.instructions.filter (!·.governs))
    let governing := run (p.instructions.filter (·.governs))
    others.tables = { whole.tables with entities := others.tables.entities } ∧
      others.physics = whole.physics ∧ others.coordinator = whole.coordinator ∧
      others.nextHandle = whole.nextHandle ∧
      governing.tables.entities = whole.tables.entities ∧ governing.reviews = whole.reviews ∧
      governing.gateway = whole.gateway ∧
      ∃ ledger : List (Instruction × List Diagnostic),
        ledger.map Prod.fst = p.instructions ∧
        (∀ entry ∈ ledger, ∀ d ∈ entry.2, d.location = entry.1.location) ∧
        ∀ k,
          errors (p.instructions.take k) = (ledger.take k).flatMap Prod.snd ∧
          errors ((p.instructions.take k).filter (!·.governs)) =
            ((ledger.take k).filter (!·.1.governs)).flatMap Prod.snd ∧
          errors ((p.instructions.take k).filter (·.governs)) =
            ((ledger.take k).filter (·.1.governs)).flatMap Prod.snd := by
  intro run errors whole others governing
  have inOrder := inOrder_kept.reaches fresh.inOrder reached
  have lawful : (Domain.ungoverned : Domain π κ).Lawful γ := Domain.ungoverned_lawful
  have lawful' : (Domain.governed s.physics s.coordinator).Lawful γ := Domain.governed_lawful _ _
  have without : Domain.ungoverned.Same now whole others :=
    completed_filter decide inOrder delays clock room lawful
  have only : (Domain.governed s.physics s.coordinator).Same now whole governing :=
    completed_filter decide inOrder delays clock room lawful'
  have tables :=
    congrArg (fun t : Tables => { t with entities := others.tables.entities }) without.tables
  have entities := congrArg Tables.entities only.tables
  refine ⟨tables, without.physics, without.coordinator, without.nextHandle, entities,
    only.reviews rfl, only.gateway rfl, ledger decide p.instructions (s.start {} none),
    ledger_instructions decide _ _, ledger_location decide _ _, fun k => ?_⟩
  have room' : (p.instructions.take k).length ≤ s.settings.maxSteps :=
    Nat.le_trans (List.length_take_le' _ _) room
  rw [ledger_take]
  have left := errors_completed_filter decide inOrder delays clock room' lawful
  have left' := errors_completed_filter decide inOrder delays clock room' lawful'
  exact ⟨errors_completed decide inOrder delays clock room', left, left'⟩

/-- A contract between qudits: the first deployment is approved, the second rejected, and one
instruction of either kind fails by itself. -/
def blend : Program where
  instructions :=
    [⟨.declareContract, ["m"], ⟨1, 1⟩⟩, ⟨.measure, ["a"], ⟨2, 1⟩⟩,
      ⟨.setExplainability, ["m", "0.5"], ⟨3, 1⟩⟩, ⟨.release, ["a"], ⟨4, 1⟩⟩,
      ⟨.setOversight, ["m", "approval"], ⟨5, 1⟩⟩, ⟨.deploy, ["m", "field"], ⟨6, 1⟩⟩,
      ⟨.allocQudit, ["d", "2"], ⟨7, 1⟩⟩, ⟨.deploy, ["m", "town"], ⟨8, 1⟩⟩,
      ⟨.declareContract, ["m"], ⟨9, 1⟩⟩, ⟨.entangle, ["b", "d"], ⟨10, 1⟩⟩]

theorem domain_separation_blend :
    let whole := chained.completed onlyFirst blend
    let others := chained.completed onlyFirst ⟨blend.instructions.filter (!·.governs)⟩
    let governing := chained.completed onlyFirst ⟨blend.instructions.filter (·.governs)⟩
    (standard 1 {}).IsFresh ∧ (standard 1 {}).Reaches chained ∧ chained.clock.Reads 0 ∧
      chained.delays = {} ∧ blend.length ≤ chained.settings.maxSteps ∧
      others.tables = { whole.tables with entities := others.tables.entities } ∧
      governing.reviews = whole.reviews ∧ whole.reviews.size = 2 ∧
      whole.diagnostics.errors.size = 3 ∧ others.diagnostics.errors.size = 1 := by
  intro whole others governing
  have fresh : (standard 1 {}).IsFresh := rfl
  have room : blend.length ≤ chained.settings.maxSteps := by
    rw [chained_settings]
    decide
  obtain ⟨tables, -, -, -, -, reviews, -⟩ :=
    domain_separation fresh chained_reached chained_still.clock chained_still.delays
      onlyFirst blend room
  exact ⟨fresh, chained_reached, chained_still.clock, chained_still.delays, room, tables, reviews,
    by decide +kernel, by decide +kernel, by decide +kernel⟩

end GovernedQuantum
