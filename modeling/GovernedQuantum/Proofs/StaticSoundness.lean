import GovernedQuantum.Proofs.Findings
import GovernedQuantum.Proofs.History
import GovernedQuantum.Proofs.Statements

/-!
# Static soundness

A compiled program keeps its promises at run time: whatever the settings, the clock, the
collaborators and the humans do, a fresh session that runs it never reports what the checker has
ruled out.

The proof is a simulation. The checker assumes that every instruction takes effect; a session may
leave some of them out. What links the two is that the tables back the instructions passed so far.

* `Session.Running`: a session in the middle of a checked program.
* `Session.Running.settle`, `Session.Running.step`: one instruction further.
* `Session.Running.drives`: the rest of the program, up to the next request.
* `Session.Answered`: what can become of a run that waits for humans.
* `Session.static_soundness`: **the theorem.**
-/

namespace GovernedQuantum

theorem Diagnostics.mem_toList_push {ds : Diagnostics} {d e : Diagnostic} :
    d ∈ (ds.push e).toList ↔ d ∈ ds.toList ∨ d = e := by
  unfold push toList
  split <;> simp only [Array.toList_push, List.mem_append, List.mem_singleton] <;> tauto

theorem Diagnostics.hasErrors_extend (ds more : Diagnostics) :
    (ds.extend more).hasErrors = (ds.hasErrors || more.hasErrors) := by
  rw [Bool.eq_iff_iff]
  simp only [hasErrors, extend, Bool.or_eq_true, Bool.not_eq_true', ← Bool.not_eq_true,
    Array.isEmpty_iff, Array.append_eq_empty_iff]
  tauto

/-- Before they take effect, instructions owe nothing on the names they bring into being. -/
theorem Owes.introduces {threshold : Binary64} {views : EntityViews} {partners : Partners}
    {i : Instruction} {c : Constraint} (owes : Owes threshold views partners i c)
    (phase : c.phase = .pre) : i.introduces = false := by
  cases owes with
  | tracked operand | unused operand | coherent operand =>
    exact Instruction.introduces_of_resources operand
  | stillExplainable op | stillCompliant op =>
    rcases op with op | op <;> rw [Instruction.introduces, op]
  | stillOverseen op | approved op => rw [Instruction.introduces, op]
  | total | backed | entangled | explainable | compliant | overseen => exact absurd phase (by simp)

theorem Instruction.entity_of_gated {i : Instruction} (h : i.opcode.operationKind.isGated = true) :
    i.entity? = some (i.arg 0) := by
  unfold entity?
  cases op : i.opcode with
  | setExplainability | setOversight | setCriticality | approve | deploy | verify | decide => rfl
  | _ =>
    rw [op] at h
    exact absurd h (by decide)

namespace Tables.Backed

variable {before : List Instruction} {t : Tables} {i : Instruction} {next : Nat}

theorem grounded_pre (h : t.Backed before next) (resolves : i.Resolves before)
    (unused : ∀ r ∈ i.resources, ¬ Consumed before r) (now : Nat) :
    i.Grounded (t.context now) .pre :=
  ⟨fun r hr => ⟨h.isTracked (resolves.allocated r hr) (unused r hr) now,
      h.consumedCount (unused r hr) now⟩,
    fun e he => h.view (resolves.declared e he) now⟩

theorem grounded_post (h : t.Backed (before ++ [i]) next) (resolved : Resolved (before ++ [i]))
    (now : Nat) : i.Grounded (t.context now) .post := by
  obtain ⟨earlier, resolves⟩ := everywhere_concat.1 resolved
  constructor
  · intro op
    refine h.isTracked (allocated_concat.2 (.inr ⟨op, rfl⟩)) (fun consumed => ?_) now
    rcases consumed_concat.1 consumed with consumed | ⟨consuming, -⟩
    · -- what was consumed had been allocated, and this name is new
      exact resolves.newResource op (Resolved.allocated_of_consumed earlier consumed)
    · rw [op] at consuming
      exact absurd consuming (by decide)
  · intro op
    exact h.view (declared_concat.2 (.inr ⟨op, rfl⟩)) now

end Tables.Backed

namespace Session

variable {π γ κ : Type}

/-! ## What is reported -/

/-- Everything reported so far is permitted. -/
def Clean (s : Session π γ κ) : Prop := ∀ d ∈ s.diagnostics.toList, Permitted d

namespace Clean

variable {s t : Session π γ κ}

theorem of_eq (h : s.Clean) (same : t.diagnostics = s.diagnostics) : t.Clean := by
  rw [Clean, same]
  exact h

theorem report (h : s.Clean) {d : Diagnostic} (hd : Permitted d) : (s.report d).Clean := by
  intro e he
  rcases Diagnostics.mem_toList_push.1 he with he | rfl
  · exact h e he
  · exact hd

theorem record (h : s.Clean) {f : Fault} (dynamic : f.isStatic = false) (l : Location) :
    (s.record f l).Clean :=
  h.report (.fault dynamic l)

theorem records {α : Type} {f : α → Fault} (dynamic : ∀ x, (f x).isStatic = false) (l : Location)
    (xs : List α) (h : s.Clean) : (xs.foldl (fun s x => s.record (f x) l) s).Clean := by
  induction xs generalizing s with
  | nil => exact h
  | cons x rest ih => exact ih (h.record (dynamic x) l)

theorem validateAll (h : s.Clean) {l : Location} {cs : List Constraint}
    (permitted : ∀ c ∈ cs, ∀ now v, c.evaluate (s.tables.context now) = some v →
      Permitted (v.diagnostic l c.required)) : (validateAll l cs s).2.Clean := by
  induction cs generalizing s with
  | nil => exact h
  | cons c rest ih =>
    -- the clock may be read in between, so each constraint has a moment of its own
    have tables := (s.evaluate_untouched c).tables
    have found : ∃ now, (s.evaluate c).1 = c.evaluate (s.tables.context now) ∧
        (s.evaluate c).2.diagnostics = s.diagnostics := by
      unfold evaluate
      split <;> exact ⟨_, rfl, rfl⟩
    obtain ⟨now, found, same⟩ := found
    rw [Session.validateAll]
    split
    · rename_i t he
      rw [he] at tables same
      refine ih (h.of_eq same) fun c hc => ?_
      rw [tables]
      exact permitted c (List.mem_cons_of_mem _ hc)
    · rename_i v t he
      rw [he] at tables same found
      refine ih ((h.of_eq same).report (permitted c List.mem_cons_self now v found.symm))
        fun c hc => ?_
      rw [(t.report_untouched _).tables, tables]
      exact permitted c (List.mem_cons_of_mem _ hc)

theorem checkOperands (h : s.Clean) (i : Instruction) (now : Nat) (names : List String) :
    (names.foldl (checkOperand i now) s).Clean := by
  induction names generalizing s with
  | nil => exact h
  | cons name rest ih =>
    refine ih ?_
    unfold checkOperand
    split
    · exact h.report (.warning rfl (by simp))
    · exact h

theorem checkAfter (h : s.Clean) {i : Instruction} {approved : Bool}
    (known : i.opcode.operationKind.isGated = true →
      ∀ now, ∃ view, (s.tables.context now).entity (i.arg 0) = some view) :
    (s.checkAfter i approved).Clean := by
  have operands := checkOperands (s := s.readClock.2) h i s.readClock.1 i.interactionOperands
  have tables :=
    (checkOperands_untouched i s.readClock.1 i.interactionOperands s.readClock.2).tables
  unfold Session.checkAfter checkOversight
  dsimp only
  split
  · rename_i gated
    rw [Bool.and_eq_true] at gated
    split
    · rename_i v hv
      refine operands.report (permitted_of_safety rfl ?_ hv i.location)
      rw [tables]
      exact known gated.2 _
    · exact operands
  · exact operands

theorem finalScan (h : s.Clean) : s.finalScan.Clean := by
  have leaks : ∀ (hs : List Handle) (s : Session π γ κ), s.Clean → (leaks hs s).2.Clean := by
    intro hs
    induction hs with
    | nil => exact fun s h => h
    | cons q rest ih => exact fun s h => ih s.readClock.2 h
  exact records (fun _ => rfl) _ _ (records (fun _ => rfl) _ _ (leaks _ s.fireTimers h))

end Clean

/-! ## A session in a checked program -/

/-- The constraints that the session looks at are those the checker attached. -/
def Annotated (s : Session π γ κ) (is : List Instruction) : Prop :=
  ∀ before i after, is = before ++ i :: after → ∀ phase, ∀ c ∈ s.constraintsAt before.length phase,
    c.phase = phase ∧ ∃ threshold views partners, Owes threshold views partners i c

/-- A session on a checked program that has reported nothing it should not. -/
structure Checked (is : List Instruction) (s : Session π γ κ) : Prop where
  program : s.program.instructions = is
  annotated : s.Annotated is
  clean : s.Clean

/-- **A session in the middle of a checked program**, with the instructions `before` behind it. -/
structure Running (is before : List Instruction)
    (s : Session π γ κ) : Prop extends Checked is s where
  backed : s.tables.Backed before s.nextHandle
  idle : s.suspension = none

/-- A session that has come to a halt in a checked program, or waits in it for a human. -/
structure Held (is : List Instruction) (s : Session π γ κ) : Prop extends Checked is s where
  waiting : ∀ op, s.suspension = some op → ∃ before after,
    is = before ++ op.instruction :: after ∧ op.index = before.length ∧
      op.instruction.opcode.operationKind.isGated = true ∧ s.tables.Backed before s.nextHandle

theorem Checked.of_eq {is : List Instruction} {s t : Session π γ κ} (h : s.Checked is)
    (program : t.program = s.program) (annotations : t.annotations = s.annotations)
    (clean : t.Clean) : t.Checked is where
  program := by rw [program, h.program]
  annotated := by
    intro before i after split phase
    rw [constraintsAt, annotations]
    exact h.annotated before i after split phase
  clean := clean

/-- `t` differs from `s` at most in what its findings do not hang on: its place in the run, its
clock, its settings and its collaborators. -/
structure Akin (s t : Session π γ κ) : Prop where
  program : t.program = s.program
  annotations : t.annotations = s.annotations
  suspension : t.suspension = s.suspension
  diagnostics : t.diagnostics = s.diagnostics
  tables : t.tables = s.tables
  nextHandle : t.nextHandle = s.nextHandle

theorem Checked.akin {is : List Instruction} {s t : Session π γ κ} (h : s.Checked is)
    (same : s.Akin t) : t.Checked is :=
  h.of_eq same.program same.annotations (h.clean.of_eq same.diagnostics)

theorem Held.akin {is : List Instruction} {s t : Session π γ κ} (h : s.Held is)
    (same : s.Akin t) : t.Held is where
  toChecked := h.toChecked.akin same
  waiting := by
    rw [same.suspension, same.tables, same.nextHandle]
    exact h.waiting

theorem Held.halt {is : List Instruction} {s : Session π γ κ} (h : s.Held is) : s.halt.Held is :=
  h.akin ⟨rfl, rfl, rfl, rfl, rfl, rfl⟩

namespace Running

variable {is before after : List Instruction} {i : Instruction} {s t : Session π γ κ}
  {threshold : Binary64}

theorem of_course {further : List Instruction} (h : s.Running is before) (same : s.SameCourse t)
    (clean : t.Clean) (backed : t.tables.Backed further t.nextHandle) : t.Running is further where
  toChecked := h.toChecked.of_eq same.program same.annotations clean
  backed := backed
  idle := by rw [same.suspension, h.idle]

theorem akin (h : s.Running is before) (same : s.Akin t) : t.Running is before where
  toChecked := h.toChecked.akin same
  backed := by
    rw [same.tables, same.nextHandle]
    exact h.backed
  idle := same.suspension.trans h.idle

/-- A session that only reports stays where it is. -/
theorem of_untouched (h : s.Running is before) (same : s.Untouched t) (clean : t.Clean) :
    t.Running is before := by
  refine h.of_course same.toSameCourse clean ?_
  rw [same.tables, same.nextHandle]
  exact h.backed

theorem pass (h : s.Running is before) (hi : i.introduces = false) : s.Running is (before ++ [i]) :=
  h.of_course (.refl s) h.clean (h.backed.pass hi)

theorem held (h : s.Running is before) : s.Held is where
  toChecked := h.toChecked
  waiting op hop := absurd (h.idle.symm.trans hop) (by simp)

theorem fireTimers (h : s.Running is before) : s.fireTimers.Running is before :=
  h.of_course s.fireTimers_sameCourse h.clean (h.backed.of_same s.fireTimers_sameQudits rfl rfl)

theorem validate {further : List Instruction} {phase : Phase} (h : s.Running is further)
    (split : is = before ++ i :: after)
    (grounded : ∀ now, i.Grounded (s.tables.context now) phase) (l : Location) :
    (s.validate before.length phase l).2.Running is further := by
  refine h.of_untouched (s.validate_untouched _ _ _) (h.clean.validateAll ?_)
  intro c hc now v hv
  obtain ⟨hp, threshold, views, partners, owes⟩ := h.annotated before i after split phase c hc
  exact owes.permitted (hp ▸ grounded now) hv l

section

variable (wf : WellFormed threshold is) (split : is = before ++ i :: after)

include wf split

theorem prepared (h : s.Running is before) : (s.prepared before.length i).2.Running is before :=
  h.fireTimers.validate split
    (h.fireTimers.backed.grounded_pre (wf.resolved.of_append split) (wf.linear.of_append split))
    i.location

omit wf in
/-- Constraints stop no instruction that brings a name into being: it owes none before its
effect. -/
theorem introduces_of_stopped (h : s.Running is before)
    (stopped : (s.prepared before.length i).1 = false) : i.introduces = false := by
  cases hc : s.fireTimers.constraintsAt before.length .pre with
  | nil =>
    rw [Session.prepared, Session.validate, hc] at stopped
    exact absurd stopped (by simp [Session.validateAll])
  | cons c rest =>
    obtain ⟨phase, threshold, views, partners, owes⟩ :=
      h.fireTimers.annotated before i after split .pre c (by rw [hc]; exact List.mem_cons_self)
    exact owes.introduces phase

variable [Physics π] [Coordinator κ]

/-- **One instruction further**, whether it takes effect or fails. -/
theorem settle (h : s.Running is before) (approved : Bool) :
    (s.settle before.length i approved).Running is (before ++ [i]) := by
  have resolves := wf.resolved.of_append split
  rcases s.settle_cases before.length i approved with ⟨f, t, ha, -, he⟩ | ⟨t, ha, -, he⟩
  · have fails := attempt_failed_iff.1 ha
    obtain ⟨dynamic, hi⟩ := h.backed.fault resolves (wf.linear.of_append split) fails
    rw [he]
    exact (h.of_untouched (fails.untouched.trans (t.record_untouched f i.location))
      ((h.clean.of_eq fails.diagnostics).record dynamic i.location)).pass hi
  · have effect := attempt_done_iff.1 ha
    have clean : t.Clean := by
      rcases effect.diagnostics with quiet | ⟨d, -, category, quiet⟩
      · exact h.clean.of_eq quiet
      · exact (h.clean.report (.safety category)).of_eq quiet
    have ht := h.of_course effect.sameCourse clean (h.backed.effect effect)
    have hv := ht.validate split (ht.backed.grounded_post (wf.resolved.of_prefix
      ⟨after, by rw [split, List.append_assoc, List.singleton_append]⟩)) i.location
    rw [he]
    refine hv.of_untouched (checkAfter_untouched _ i approved)
      (hv.clean.checkAfter fun gated now => ?_)
    exact hv.backed.view (declared_concat.2 (.inl (resolves.declared _
      (Instruction.entity_of_gated gated)))) now

/-- **A whole cycle.** The instruction is passed, or it waits for a human. -/
theorem step [Gateway γ] (h : s.Running is before) :
    (∃ t, s.step before.length i = .next t ∧ s.SameCourse t ∧ t.Running is (before ++ [i])) ∨
    ∃ request t, s.step before.length i = .suspended request t ∧ s.SameCourse t ∧
      t.Running is before ∧ i.opcode.operationKind.isGated = true := by
  have ready := h.prepared wf split
  have course := s.fireTimers_sameCourse.trans (s.prepared_untouched before.length i).toSameCourse
  rcases s.step_cases before.length i with ⟨stopped, -, he⟩ | ⟨-, -, gated, o, r, he⟩ |
    ⟨-, -, gated, filing, he⟩ | ⟨-, -, he⟩
  · exact .inl ⟨_, he, course, ready.pass (h.introduces_of_stopped split stopped)⟩
  · exact .inl ⟨_, he, course.trans (record_untouched _ _ _).toSameCourse,
      (ready.of_untouched (record_untouched _ _ _) (ready.clean.record rfl _)).pass
        (Instruction.introduces_of_gated gated)⟩
  · exact .inr ⟨_, _, he, course.trans (file_untouched _ i filing).toSameCourse,
      ready.of_untouched (file_untouched _ i filing) ready.clean, gated⟩
  · exact .inl ⟨_, he, course.trans (settle_sameCourse _ _ i false), ready.settle wf split false⟩

end

/-- **The rest of the program**, to its end, to a fatal finding, or to the next request. -/
theorem drives [Physics π] [Coordinator κ] [Gateway γ] (wf : WellFormed threshold is)
    {rest : List Instruction} {trace : Trace π γ κ} (drives : Drives rest s trace t)
    (h : s.Running is before) (split : is = before ++ rest)
    (position : s.position = before.length) : t.Held is := by
  -- on what is left of the program; what is behind grows by one instruction a cycle
  have counted {s : Session π γ κ} {before : List Instruction} (h : s.Running is before) :
      s.counted.Running is before :=
    h.akin ⟨rfl, rfl, rfl, rfl, rfl, rfl⟩
  have moved {s t : Session π γ κ} {before : List Instruction} {i : Instruction}
      (position : s.position = before.length) (course : s.counted.SameCourse t)
      (ht : t.Running is (before ++ [i])) :
      ({ t with position := t.position + 1 } : Session π γ κ).Running is (before ++ [i]) ∧
        t.position + 1 = (before ++ [i]).length := by
    refine ⟨ht.akin ⟨rfl, rfl, rfl, rfl, rfl, rfl⟩, ?_⟩
    rw [course.position, List.length_append]
    exact congrArg (· + 1) position
  induction drives generalizing before with
  | finish s => exact (h.fireTimers.of_untouched s.finalScan_untouched h.clean.finalScan).held.halt
  | exhaust =>
    have h := counted h
    exact (h.of_untouched (record_untouched _ _ _) (h.clean.record rfl _)).held.halt
  | ask within asked =>
    rcases position ▸ (counted h).step wf split with ⟨t, he, -⟩ |
        ⟨request, t, he, course, ht, gated⟩
    · exact absurd (asked.symm.trans he) (by simp)
    · obtain ⟨rfl, rfl⟩ := Stepped.suspended.inj (asked.symm.trans he)
      refine ⟨⟨ht.program, ht.annotated, ht.clean⟩, fun op hop => ?_⟩
      obtain rfl := Option.some.inj hop
      exact ⟨before, _, split, course.position.trans position, gated, ht.backed⟩
  | collapse within passed =>
    rcases position ▸ (counted h).step wf split with ⟨t, he, course, ht⟩ | ⟨request, t, he, -⟩
    · obtain rfl := Stepped.next.inj (passed.symm.trans he)
      exact (moved position course ht).1.held.halt
    · exact absurd (passed.symm.trans he) (by simp)
  | pass within passed mild further ih =>
    rcases position ▸ (counted h).step wf split with ⟨t, he, course, ht⟩ | ⟨request, t, he, -⟩
    · obtain rfl := Stepped.next.inj (passed.symm.trans he)
      obtain ⟨running, behind⟩ := moved position course ht
      exact ih running (by rw [split, List.append_assoc, List.singleton_append]) behind
    · exact absurd (passed.symm.trans he) (by simp)

theorem driveAfter [Physics π] [Coordinator κ] [Gateway γ] (wf : WellFormed threshold is)
    (split : is = before ++ i :: after) (h : s.Running is (before ++ [i])) :
    (s.driveAfter before.length).Held is := by
  have split' : is = (before ++ [i]) ++ after := by
    rw [split, List.append_assoc, List.singleton_append]
  have passed : before.length + 1 = (before ++ [i]).length := by simp
  have rest : s.program.instructions.drop (before.length + 1) = after := by
    rw [h.program, split', passed, List.drop_left]
  have h' : ({ s with position := before.length + 1 } : Session π γ κ).Running is (before ++ [i]) :=
    h.akin ⟨rfl, rfl, rfl, rfl, rfl, rfl⟩
  rw [Session.driveAfter, rest]
  exact drives wf (driven after _) h' split' passed

end Running

/-! ## From a compilation to a run -/

/-- Each instruction is annotated with what it owes. -/
def Annotates (types : List InferredType) (is : List Instruction) : Prop :=
  ∀ before i after, is = before ++ i :: after → ∃ t threshold views partners,
    types[before.length]? = some t ∧ t.constraints = owed threshold views partners i

/-- Annotations that fit the program count. -/
theorem start_of_fits (s : Session π γ κ) {program : Program} {types : List InferredType}
    (fits : types.length = program.length) :
    s.start program (some types) =
      { s.start program none with annotations := some types.toArray } := by
  rw [start]
  exact if_pos fits

/-- The type of the instruction at a place. -/
theorem Annotates.at {types : List InferredType} {is : List Instruction}
    (annotates : Annotates types is) {index : Nat} {i : Instruction} (hi : is[index]? = some i) :
    ∃ t threshold views partners,
      types[index]? = some t ∧ t.constraints = owed threshold views partners i := by
  obtain ⟨bound, rfl⟩ := List.getElem?_eq_some_iff.1 hi
  have split : is = is.take index ++ is[index] :: is.drop (index + 1) := by
    rw [← List.drop_eq_getElem_cons bound, List.take_append_drop]
  have place : (is.take index).length = index := List.length_take_of_le (Nat.le_of_lt bound)
  have annotated := annotates _ _ _ split
  rwa [place] at annotated

theorem start_running {is : List Instruction} {s : Session π γ κ} (fresh : s.IsFresh)
    {annotations : Option (List InferredType)}
    (annotates : ∀ types ∈ annotations, Annotates types is) :
    (s.start ⟨is⟩ annotations).Running is [] ∧ (s.start ⟨is⟩ annotations).position = 0 := by
  have backed : s.tables.Backed [] s.nextHandle := by
    rw [fresh]
    exact .empty _
  have blank : Session.Clean (π := π) (γ := γ) (κ := κ) { s with diagnostics := {} } := by
    intro d hd
    exact absurd hd (by simp [Diagnostics.toList])
  unfold start
  dsimp only
  split
  · exact ⟨⟨⟨rfl, fun _ _ _ _ _ c hc => absurd hc (by simp [constraintsAt]), blank⟩,
      backed, rfl⟩, rfl⟩
  · rename_i types
    split
    · refine ⟨⟨⟨rfl, fun before i after split phase c hc => ?_, blank⟩, backed, rfl⟩, rfl⟩
      obtain ⟨t, threshold, views, partners, ht, owes⟩ := annotates types rfl before i after split
      simp only [constraintsAt, Option.bind_some, List.getElem?_toArray, ht] at hc
      obtain ⟨hc, phase⟩ := InferredType.mem_constraintsIn.1 hc
      exact ⟨phase, threshold, views, partners, owes_of_mem (owes ▸ hc)⟩
    · exact ⟨⟨⟨rfl, fun _ _ _ _ _ c hc => absurd hc (by simp [constraintsAt, Session.report]),
        blank.report (.warning rfl (by simp))⟩, backed, rfl⟩, rfl⟩

end Session

/-- The checker's type of an instruction carries what the instruction owes. -/
theorem constraints_check {is before after : List Instruction} {i : Instruction} (source : String)
    (options : CheckOptions) (resolved : Resolved is) (split : is = before ++ i :: after) :
    ∃ t views partners,
      (check (Node.ofInstructions is source) options).types[before.length]? = some t ∧
        t.constraints = owed options.explainabilityThreshold views partners i := by
  have typed (lines : Array (List Char)) (partners : Partners) (views : EntityViews) :
      (inferAll views options (is.map (·.node lines partners))).types.toList[before.length]? =
        some (typeAfter views options (before.map (·.node lines partners))
          (i.node lines partners)) := by
    rw [split, List.map_append, List.map_cons, ← List.length_map (·.node lines partners),
      getElem?_types]
  exact ⟨_, _, _, typed _ _ _, (typeAfter_of_resolves _ options _ _ (resolved.of_append split)).2⟩

/-- The checker annotates a resolved program with what its instructions owe. -/
theorem annotates_check {is : List Instruction} (source : String) (options : CheckOptions)
    (resolved : Resolved is) :
    Session.Annotates (check (Node.ofInstructions is source) options).types is := by
  intro before i after split
  obtain ⟨t, views, partners, ht, owes⟩ := constraints_check source options resolved split
  exact ⟨t, _, views, partners, ht, owes⟩

/-- A compilation that succeeds has checked what it hands on. -/
theorem Compilation.checked_of_success {stream : Token.Stream} {source : String} {limits : Limits}
    (h : (ofTokens stream source limits).success = true) :
    ∃ is, (ofTokens stream source limits).program = ⟨is⟩ ∧
      (check (Node.ofInstructions is source) limits.toCheckOptions).isOk = true ∧
      (ofTokens stream source limits).types =
        (check (Node.ofInstructions is source) limits.toCheckOptions).types := by
  rw [ofTokens_eq] at h ⊢
  split at h
  · exact absurd h (by simp)
  · rename_i fatal
    dsimp only at h
    split at h
    · exact absurd h (by simp)
    · rename_i errors
      rw [if_neg fatal]
      dsimp only
      rw [if_neg errors]
      refine ⟨_, rfl, ?_, rfl⟩
      rw [Diagnostics.hasErrors_extend, Bool.or_eq_true, not_or, Bool.not_eq_true,
        Bool.not_eq_true] at errors
      rw [CheckReport.isOk, errors.2]
      rfl

/-! ## Answers -/

namespace Session

variable {π γ κ : Type} [Physics π] [Gateway γ] [Coordinator κ]

/-- **What can become of a run that waits for humans.** Answers come in, right or wrong; a request
is given up; and meanwhile the clock, the settings and the collaborators may change in any way. -/
def Answered (s₀ s : Session π γ κ) : Prop :=
  ∃ h, s₀.History
    (.events false fun s t => ∃ settings clock delays physics gateway coordinator explainer,
      t = { s with settings, clock, delays, physics, gateway, coordinator, explainer }) h s

theorem Held.answered {is : List Instruction} {s₀ s : Session π γ κ} {threshold : Binary64}
    (wf : WellFormed threshold is) (h₀ : s₀.Held is) (h : Answered s₀ s) : s.Held is := by
  obtain ⟨h, life⟩ := h
  induction life with
  | new => exact h₀
  | meanwhile before change ih =>
    obtain ⟨-, settings, clock, delays, physics, gateway, coordinator, explainer, rfl⟩ := change
    exact ih.akin ⟨rfl, rfl, rfl, rfl, rfl, rfl⟩
  | @call h s c before comes ih =>
    obtain ⟨permitted, only⟩ := comes
    cases c with
    | run program annotations =>
      exact absurd rfl ((only.resolve_left (by simp)) program annotations)
    | abandon op e =>
      obtain ⟨behind, ahead, split, index, gated, backed⟩ := ih.waiting op permitted
      have running :
          ({ s with suspension := none, status := .running } : Session π γ κ).Running is behind :=
        ⟨ih.toChecked.of_eq rfl rfl ih.clean, backed, rfl⟩
      rw [serve, Session.abandon, index]
      -- what waits is gated, and nothing gated brings a name into being
      exact ((running.of_untouched (report_untouched _ _)
        (running.clean.report (.refusal e _))).pass
        (Instruction.introduces_of_gated gated)).driveAfter wf split
    | resume id d =>
      rcases s.resume_cases id d with ⟨-, e, gateway, he⟩ | ⟨op, gateway, waits, -, he⟩ <;>
        rw [serve, he]
      · exact ih.akin ⟨rfl, rfl, rfl, rfl, rfl, rfl⟩
      · obtain ⟨behind, ahead, split, index, gated, backed⟩ := ih.waiting op waits
        dsimp only
        rw [index]
        cases d with
        | approve =>
          have running : (s.answered op gateway .approve).Running is behind :=
            ⟨ih.toChecked.of_eq rfl rfl ih.clean, backed, rfl⟩
          rw [acted, index]
          exact (running.settle wf split true).driveAfter wf split
        | reject =>
          have running : (s.answered op gateway .reject).Running is behind :=
            ⟨ih.toChecked.of_eq rfl rfl (Clean.record (s := s) ih.clean rfl _), backed, rfl⟩
          exact (running.pass (Instruction.introduces_of_gated gated)).driveAfter wf split

/-! ## Soundness -/

/-- A fresh session that runs a checked program has nothing to hide, however it is answered. -/
theorem IsFresh.held {s : Session π γ κ} (fresh : s.IsFresh) {is : List Instruction}
    {threshold : Binary64} (wf : WellFormed threshold is) {annotations : Option (List InferredType)}
    (annotates : ∀ types ∈ annotations, Annotates types is) : (s.run ⟨is⟩ annotations).Held is := by
  obtain ⟨running, position⟩ := start_running fresh annotates
  exact running.drives wf (driven _ _) rfl position

/-- **Static checking is sound.** A fresh session that runs a compiled program, with the checker's
types as annotations or without any, never reports a finding that checking prevents: not in the run,
not when its requests are answered in whatever way, and not when every request is answered as it
comes. The types fit the program, so annotations are never ignored. -/
theorem static_soundness {source : String} {limits : Limits} {s : Session π γ κ}
    {annotations : Option (List InferredType)}
    (compiled : (compile source limits).success = true) (fresh : s.IsFresh)
    (checked : annotations = none ∨ annotations = some (compile source limits).types) :
    (compile source limits).types.length = (compile source limits).program.length ∧
    (∀ t, Answered (s.run (compile source limits).program annotations) t →
      ∀ d ∈ t.diagnostics.toList, ¬ Prevented d) ∧
    ∀ decide, ∀ d ∈ (s.runToCompletion (compile source limits).program annotations
      decide).2.diagnostics.toList, ¬ Prevented d := by
  obtain ⟨is, program, isOk, types⟩ := Compilation.checked_of_success compiled
  have wf := wellFormed_of_isOk isOk
  have annotates : ∀ types ∈ annotations, Annotates types is := by
    rintro _ rfl
    rcases checked with none | some
    · exact absurd none (by simp)
    · rw [Option.some.inj some, compile, types]
      exact annotates_check source _ wf.resolved
  have held := fresh.held wf annotates
  have sound : ∀ t, Answered (s.run ⟨is⟩ annotations) t →
      ∀ d ∈ t.diagnostics.toList, ¬ Prevented d :=
    fun t answered d hd => ((held.answered wf answered).clean d hd).not_prevented
  unfold compile
  rw [program, types]
  refine ⟨?_, sound, fun decide => sound _ ⟨_, History.new.answerAll decide _ []⟩⟩
  exact (length_types _ _ _).trans (List.length_map _)

/-- A source whose deployment is put to a human. -/
def pilot : String :=
  "qudit a 2 qudit b 3 entangle a b measure a teleport b far " ++
    "contract c oversee c approval explain c 0.5 deploy c prod"

theorem static_soundness_pilot :
    (compile pilot {}).success = true ∧ (Session.standard 1 {}).IsFresh ∧
    ((Session.standard 1 {}).run (compile pilot {}).program
      (some (compile pilot {}).types)).suspension.map (·.request.id) = some 1 ∧
    ∀ d ∈ (((Session.standard 1 {}).run (compile pilot {}).program
      (some (compile pilot {}).types)).resume 1 .approve).2.diagnostics.toList, ¬ Prevented d := by
  have compiled : (compile pilot {}).success = true := by decide +kernel
  have fresh : (Session.standard 1 {}).IsFresh := rfl
  refine ⟨compiled, fresh, by decide +kernel, ?_⟩
  exact (static_soundness compiled fresh (.inr rfl)).2.1 _ ⟨_, History.new.resume 1 .approve⟩

end Session

end GovernedQuantum
