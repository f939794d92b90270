import GovernedQuantum.Proofs.Cycles

/-!
# The desk of a session

What a session puts to humans lies on its desk: the gateway, and the log of reviews. Instructions
leave it alone, those that need a human's consent included; only the gate lays a request there.

* `Session.SameDesk`: nothing was filed and nothing was answered.
* `Session.Keeps`: nor was the clock moved by anything but the calls of collaborators.
* `Session.attempt_keeps`: **no instruction touches the desk.**
* `Session.Asks`: a cycle that ends with a request, and all that follows from it.
* `Session.step_next_keeps`, `Session.asks_of_suspended`: every cycle is of one of the two kinds.
-/

namespace GovernedQuantum

namespace Clock

/-- The clock `c'` is `c` after readings, and after calls of collaborators that took their time. -/
inductive Runs (d : Delays) (c : Clock) : Clock → Prop
  | refl : Runs d c c
  | read {c' : Clock} (before : Runs d c c') : Runs d c c'.read.2
  | physics {c' : Clock} (before : Runs d c c') : Runs d c (c'.advance d.physics)
  | coordinator {c' : Clock} (before : Runs d c c') : Runs d c (c'.advance d.coordinator)
  | explainer {c' : Clock} (before : Runs d c c') : Runs d c (c'.advance d.explainer)

theorem Runs.trans {d : Delays} {a b c : Clock} (h : Runs d a b) (g : Runs d b c) : Runs d a c := by
  induction g with
  | refl => exact h
  | read _ ih => exact .read ih
  | physics _ ih => exact .physics ih
  | coordinator _ ih => exact .coordinator ih
  | explainer _ ih => exact .explainer ih

theorem Runs.after {d : Delays} {a b : Clock} (h : Runs d a b) (n : Nat) :
    Runs d a (b.after n) := by
  induction n with
  | zero => exact h
  | succ n ih => exact .read ih

end Clock

/-- The session after an attempt, whatever came of it. -/
def Attempt.session {σ : Type} : Attempt σ → σ
  | .done s => s
  | .failed _ s => s

theorem OperationKind.isGoverned_of_isGated {k : OperationKind} (h : k.isGated = true) :
    k.isGoverned = true := by
  cases k with
  | deployment | decision => rfl
  | contract | quantumOp | verificationCheck | configuration => exact absurd h (by decide)

theorem Profile.entity_of_gated {i : Instruction} (h : i.opcode.operationKind.isGated = true)
    (entities : Entities) (settings : Settings) :
    (Profile.ofInstruction i entities settings).entity = some (i.arg 0) :=
  if_pos (OperationKind.isGoverned_of_isGated h)

namespace Session

variable {π γ κ : Type}

/-- The desk of `t` is that of `s`. -/
structure SameDesk (s t : Session π γ κ) : Prop where
  gateway : t.gateway = s.gateway
  reviews : t.reviews = s.reviews

namespace SameDesk

theorem refl (s : Session π γ κ) : s.SameDesk s := ⟨rfl, rfl⟩

theorem trans {s t u : Session π γ κ} (h : s.SameDesk t) (g : t.SameDesk u) : s.SameDesk u :=
  ⟨g.gateway.trans h.gateway, g.reviews.trans h.reviews⟩

end SameDesk

/-- **What work leaves alone**: the desk is as it was, and of the clock only readings were taken,
and the time that collaborators took. -/
structure Keeps (s t : Session π γ κ) : Prop extends SameDesk s t where
  delays : t.delays = s.delays
  clock : Clock.Runs s.delays s.clock t.clock

namespace Keeps

theorem refl (s : Session π γ κ) : s.Keeps s := ⟨.refl s, rfl, .refl⟩

theorem trans {s t u : Session π γ κ} (h : s.Keeps t) (g : t.Keeps u) : s.Keeps u :=
  ⟨h.toSameDesk.trans g.toSameDesk, g.delays.trans h.delays, h.clock.trans (h.delays ▸ g.clock)⟩

theorem of_update (s : Session π γ κ) {clock : Clock} (runs : Clock.Runs s.delays s.clock clock)
    (physics : π) (coordinator : κ) (nextHandle : Nat) (tables : Tables) (console : Array String)
    (diagnostics : Diagnostics) :
    s.Keeps { s with clock, physics, coordinator, nextHandle, tables, console, diagnostics } :=
  ⟨⟨rfl, rfl⟩, rfl, runs⟩

end Keeps

/-! ## Instructions -/

theorem readClock_keeps (s : Session π γ κ) : s.Keeps s.readClock.2 :=
  .of_update s (.read .refl) _ _ _ _ _ _

theorem fireTimers_keeps (s : Session π γ κ) : s.Keeps s.fireTimers :=
  .of_update s (.read .refl) _ _ _ _ _ _

theorem report_keeps (s : Session π γ κ) (d : Diagnostic) : s.Keeps (s.report d) :=
  .of_update s .refl _ _ _ _ _ _

theorem record_keeps (s : Session π γ κ) (f : Fault) (l : Location) : s.Keeps (s.record f l) :=
  s.report_keeps _

section Attempts

variable [Coordinator κ] {s t : Session π γ κ} {i : Instruction}

theorem Fails.keeps {f : Fault} (h : s.Fails i f t) : s.Keeps t := by
  have runs : Clock.Runs s.delays s.clock t.clock := by
    cases h with
    | unresolved | decoherent | alreadyEntangled => exact .after .refl _
    | refused => exact .coordinator (.after .refl 1)
    | swapRefused => exact .coordinator .refl
    | _ => exact .refl
  rw [h.eq]
  exact ⟨⟨rfl, rfl⟩, rfl, runs⟩

omit [Coordinator κ] in
theorem Governs.runs {e e' : Entity} (h : s.Governs i e e' t) :
    Clock.Runs s.delays s.clock t.clock := by
  have awaited : Clock.Runs s.delays s.clock s.awaitExplainer.clock := by
    dsimp only [awaitExplainer]
    split
    · exact .explainer .refl
    · exact .refl
  cases h with
  | verify | decide => exact awaited
  | _ => exact .refl

theorem Effect.keeps [Physics π] (h : s.Effect i t) : s.Keeps t := by
  have runs : Clock.Runs s.delays s.clock t.clock := by
    cases h with
    | allocate | entangle | disentangle | applyGate | barrier | window => exact .after .refl _
    | measure => exact .after (.physics .refl) 1
    | entangleRemote => exact .after (.physics (.coordinator (.after .refl 1))) 1
    | teleport => exact .physics (.coordinator (.after .refl 1))
    | swap => exact .after (.coordinator .refl) 1
    | govern known change => exact change.runs
    | _ => exact .refl
  rw [h.eq]
  exact ⟨⟨rfl, rfl⟩, rfl, runs⟩

/-- **No instruction touches the desk**, or moves the clock by itself. -/
theorem attempt_keeps [Physics π] (s : Session π γ κ) (i : Instruction) :
    s.Keeps (s.attempt i).session := by
  cases h : s.attempt i with
  | failed f t => exact (attempt_failed_iff.1 h).keeps
  | done t => exact (attempt_done_iff.1 h).keeps

theorem attempt_sameCourse [Physics π] (s : Session π γ κ) (i : Instruction) :
    s.SameCourse (s.attempt i).session := by
  cases h : s.attempt i with
  | failed f t => exact (attempt_failed_iff.1 h).untouched.toSameCourse
  | done t => exact (attempt_done_iff.1 h).sameCourse

end Attempts

/-! ## What is looked at around them -/

theorem evaluate_keeps (s : Session π γ κ) (c : Constraint) : s.Keeps (s.evaluate c).2 := by
  unfold evaluate
  split
  · exact s.readClock_keeps
  · exact .refl s

theorem validateAll_keeps (l : Location) (cs : List Constraint) (s : Session π γ κ) :
    s.Keeps (validateAll l cs s).2 := by
  induction cs generalizing s with
  | nil => exact .refl s
  | cons c rest ih =>
    have hc := s.evaluate_keeps c
    rw [validateAll]
    split <;> rename_i h <;> rw [h] at hc
    · exact hc.trans (ih _)
    · exact hc.trans ((report_keeps _ _).trans (ih _))

theorem checkAfter_keeps (s : Session π γ κ) (i : Instruction) (approved : Bool) :
    s.Keeps (s.checkAfter i approved) := by
  have operands (names : List String) (now : Nat) (t : Session π γ κ) :
      t.Keeps (names.foldl (checkOperand i now) t) := by
    induction names generalizing t with
    | nil => exact .refl t
    | cons name rest ih =>
      refine Keeps.trans ?_ (ih _)
      unfold checkOperand
      split
      · exact t.report_keeps _
      · exact .refl t
  have oversight (t : Session π γ κ) : t.Keeps (t.checkOversight i approved) := by
    unfold checkOversight
    split
    · split
      · exact t.report_keeps _
      · exact .refl t
    · exact .refl t
  exact s.readClock_keeps.trans
    ((operands i.interactionOperands s.readClock.1 _).trans (oversight _))

theorem prepared_keeps (s : Session π γ κ) (index : Nat) (i : Instruction) :
    s.Keeps (s.prepared index i).2 :=
  s.fireTimers_keeps.trans (validateAll_keeps _ _ _)

theorem settle_keeps [Physics π] [Coordinator κ] (s : Session π γ κ) (index : Nat)
    (i : Instruction) (approved : Bool) : s.Keeps (s.settle index i approved) := by
  have ha := s.attempt_keeps i
  rcases s.settle_cases index i approved with ⟨f, t, h, -, he⟩ | ⟨t, h, -, he⟩ <;>
    rw [h] at ha <;> rw [he]
  · exact ha.trans (t.record_keeps f i.location)
  · exact ha.trans ((validateAll_keeps _ _ t).trans (checkAfter_keeps _ i approved))

theorem finalScan_keeps (s : Session π γ κ) : s.Keeps s.finalScan := by
  have leaks (hs : List Handle) (t : Session π γ κ) : t.Keeps (leaks hs t).2 := by
    induction hs generalizing t with
    | nil => exact .refl t
    | cons h rest ih => exact t.readClock_keeps.trans (ih _)
  have records {α : Type} (f : α → Fault) (l : Location) (xs : List α) (t : Session π γ κ) :
      t.Keeps (xs.foldl (fun t x => t.record (f x) l) t) := by
    induction xs generalizing t with
    | nil => exact .refl t
    | cons x rest ih => exact (t.record_keeps _ l).trans (ih _)
  exact s.fireTimers_keeps.trans
    ((leaks _ _).trans ((records _ _ _ _).trans (records _ _ _ _)))

/-! ## Requests -/

/-- What verification says of an instruction, as the session stands. -/
def verdictOn (s : Session π γ κ) (i : Instruction) : Verdict :=
  let profile := Profile.ofInstruction i s.tables.entities s.settings
  profile.verdict (profile.entity.bind s.tables.entities.find?)

/-- The verdict hangs on the entities and on the settings. -/
theorem verdictOn_congr {s t : Session π γ κ} (entities : t.tables.entities = s.tables.entities)
    (settings : t.settings = s.settings) (i : Instruction) : t.verdictOn i = s.verdictOn i := by
  unfold verdictOn
  rw [entities, settings]

theorem gate_passed_iff (s : Session π γ κ) (i : Instruction) :
    s.gate i (Profile.ofInstruction i s.tables.entities s.settings) = .passed ↔
      (s.verdictOn i).passed = true := by
  unfold gate verdictOn
  dsimp only
  split
  · simp [*]
  · rename_i h
    simp only [h]
    split
    · split <;> simp
    · simp

theorem passes_iff (s : Session π γ κ) (i : Instruction) :
    s.passes i = true ↔
      (i.opcode.operationKind.isGated = true → (s.verdictOn i).passed = true) := by
  rw [← gate_passed_iff, passes]
  dsimp only [Profile.ofInstruction]
  rw [Bool.or_eq_true, Bool.not_eq_true', beq_iff_eq, ← Bool.not_eq_true]
  tauto

/-- The gate asks only about a declared entity that a human oversees. -/
theorem gate_review {s : Session π γ κ} {i : Instruction} {filing : Filing}
    (gated : i.opcode.operationKind.isGated = true)
    (h : s.gate i (Profile.ofInstruction i s.tables.entities s.settings) = .review filing) :
    ∃ e, s.tables.entities.find? (i.arg 0) = some e ∧ e.oversight ≠ .none ∧
      filing.level = e.oversight := by
  unfold gate at h
  rw [Profile.entity_of_gated gated] at h
  dsimp only [Option.bind_some] at h
  split at h
  · exact absurd h (by simp)
  · split at h
    · rename_i e he
      split at h
      · rename_i asks
        obtain rfl := Gate.review.inj h
        exact ⟨e, he, asks.2, rfl⟩
      · exact absurd h (by simp)
    · exact absurd h (by simp)

/-- **A cycle that ends with a request.** The gate has refused to let the instruction through, and a
human who oversees its entity is asked; nothing else has happened. -/
structure Asks [Gateway γ] (s : Session π γ κ) (i : Instruction) (request : Request)
    (t : Session π γ κ) : Prop where
  gated : i.opcode.operationKind.isGated = true
  refused : (s.verdictOn i).passed = false
  overseen : ∃ e, s.tables.entities.find? (i.arg 0) = some e ∧ e.oversight ≠ .none ∧
    request.level = e.oversight
  filed : Gateway.file s.gateway request.toFiling = (request.id, t.gateway)
  logged : t.reviews = s.reviews.push ⟨request, none⟩
  course : s.SameCourse t
  tables : t.tables = s.fireTimers.tables

/-- The request is the last entry of the log. -/
theorem Asks.log [Gateway γ] {s t : Session π γ κ} {i : Instruction} {request : Request}
    (h : s.Asks i request t) : t.reviews.toList = s.reviews.toList ++ [⟨request, none⟩] := by
  rw [h.logged]
  exact Array.toList_push

variable [Physics π] [Gateway γ] [Coordinator κ]

/-- A session that goes on has asked nobody. -/
theorem step_next_keeps {s t : Session π γ κ} {index : Nat} {i : Instruction}
    (h : s.step index i = .next t) : s.Keeps t := by
  have hp := s.prepared_keeps index i
  rcases s.step_cases index i with ⟨-, -, he⟩ | ⟨-, -, -, o, r, he⟩ | ⟨-, -, -, filing, he⟩ |
    ⟨-, -, he⟩ <;> rw [he] at h
  · obtain rfl := Stepped.next.inj h
    exact hp
  · obtain rfl := Stepped.next.inj h
    exact hp.trans (record_keeps _ _ _)
  · exact absurd h (by simp)
  · obtain rfl := Stepped.next.inj h
    exact hp.trans (settle_keeps _ index i false)

theorem step_sameCourse (s : Session π γ κ) (index : Nat) (i : Instruction) :
    s.SameCourse (s.step index i).session := by
  have hp := s.fireTimers_sameCourse.trans (s.prepared_untouched index i).toSameCourse
  rcases s.step_cases index i with ⟨-, -, he⟩ | ⟨-, -, -, o, r, he⟩ | ⟨-, -, -, filing, he⟩ |
    ⟨-, -, he⟩ <;> rw [he]
  · exact hp
  · exact hp.trans (record_untouched _ _ _).toSameCourse
  · exact hp.trans (file_untouched _ i filing).toSameCourse
  · exact hp.trans (settle_sameCourse _ index i false)

theorem step_next_sameCourse {s t : Session π γ κ} {index : Nat} {i : Instruction}
    (h : s.step index i = .next t) : s.SameCourse t := by
  have course := s.step_sameCourse index i
  rwa [h] at course

/-- A session that waits has asked. -/
theorem asks_of_suspended {s t : Session π γ κ} {index : Nat} {i : Instruction} {request : Request}
    (h : s.step index i = .suspended request t) : s.Asks i request t := by
  have untouched := s.prepared_untouched index i
  have desk := (s.prepared_keeps index i).toSameDesk
  have course := s.step_sameCourse index i
  rw [h] at course
  unfold step at h
  rw [show s.fireTimers.validate index .pre i.location = s.prepared index i from rfl] at h
  generalize s.prepared index i = prepared at h untouched desk
  obtain ⟨passed, u⟩ := prepared
  cases passed with
  | false => exact absurd h (by simp)
  | true =>
    dsimp only at h untouched desk
    have entities : u.tables.entities = s.tables.entities := by
      rw [untouched.tables]
      rfl
    split at h
    · rename_i gated
      cases hg : u.gate i (Profile.ofInstruction i u.tables.entities u.settings) with
      | passed | closed => exact absurd h (by simp [hg])
      | review filing =>
        rw [hg] at h
        obtain ⟨rfl, rfl⟩ := Stepped.suspended.inj h
        obtain ⟨e, known, oversight, level⟩ := gate_review gated hg
        rw [entities] at known
        refine ⟨gated, ?_, ⟨e, known, oversight, level⟩, ?_, ?_, course, untouched.tables⟩
        · have refused := mt (u.gate_passed_iff i).2 (by simp [hg])
          rwa [verdictOn_congr entities untouched.settings, Bool.not_eq_true] at refused
        · rw [← desk.gateway]
          rfl
        · rw [← desk.reviews]
          rfl
    · exact absurd h (by simp)

/-! ## Answers -/

omit [Physics π] [Gateway γ] [Coordinator κ] in
/-- An answer to the request that was filed last is noted there, and nowhere else. -/
theorem decideLast_concat (request : Request) (d : Decision) (earlier : List LogEntry) :
    decideLast request.id d (earlier ++ [⟨request, none⟩]) = earlier ++ [⟨request, some d⟩] := by
  induction earlier with
  | nil =>
    rw [List.nil_append, decideLast, if_pos ⟨rfl, rfl⟩]
    rfl
  | cons e rest ih =>
    rw [List.cons_append, decideLast, if_neg, ih, List.cons_append]
    rintro ⟨-, others⟩
    rw [List.all_eq_true] at others
    exact absurd rfl (of_decide_eq_true
      (others ⟨request, none⟩ (List.mem_append_right _ (List.mem_singleton_self _))))

end Session

end GovernedQuantum
