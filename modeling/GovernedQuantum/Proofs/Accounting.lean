import GovernedQuantum.Proofs.Governance
import GovernedQuantum.Proofs.GroupConsistency
import GovernedQuantum.Session.Result
import Mathlib.Data.List.ReduceOption

/-!
# Exact accounts of errors

In a run to completion without annotations, errors and instructions can be set off against each
other: an instruction that takes effect adds no error, and one that does not adds exactly one, at
its own place. Nothing else adds any. In particular the check for oversight behind a deployment or a
decision never finds what the gate in front of it has not found.

* `Session.overseen_of_passed`: what passes the gate passes the check behind it.
* `Event.Settles`: an event that decides the fate of its instruction, with the error that it adds.
* `Session.Tally`: the fates of the instructions so far, and the errors of the session, agree.
* `Session.error_accounting`: **the errors of a run are those of the instructions that did not take
  effect**, one each and in order.
-/

namespace GovernedQuantum

/-! ## The check behind the gate -/

theorem Criticality.requiresOversight_max {c : Criticality} (h : c.requiresOversight = true) :
    (c.max .critical).requiresOversight = true := by
  cases c <;> revert h <;> decide

theorem Opcode.eq_of_isGated {op : Opcode} (h : op.operationKind.isGated = true) :
    op = .deploy ∨ op = .decide := by
  cases op with
  | deploy => exact .inl rfl
  | decide => exact .inr rfl
  | _ => exact absurd h (by decide)

theorem Session.Fails.severity {π γ κ : Type} [Coordinator κ] {s t : Session π γ κ}
    {i : Instruction} {f : Fault} (h : s.Fails i f t) : f.severity = .error := by
  cases h with
  | unresolved _ _ cause => rcases Tables.resolve_error cause with rfl | rfl <;> rfl
  | _ => rfl

/-- An error at the place of an instruction that does not stop the run. -/
structure Diagnostic.IsErrorOn (d : Diagnostic) (i : Instruction) : Prop where
  severity : d.severity = .error
  location : d.location = i.location
  mild : d.fatal = false

theorem Diagnostics.errors_push {ds : Diagnostics} {d : Diagnostic} (h : d.severity = .error) :
    (ds.push d).errors = ds.errors.push d := by
  rw [push, h]

namespace Session

variable {π γ κ : Type} {s t : Session π γ κ} {i : Instruction}

/-- **What passes the gate is overseen where it must be.** A target of high risk only raises what is
at stake. -/
theorem overseen_of_passed {e : Entity} (gated : i.opcode.operationKind.isGated = true)
    (known : s.tables.entities.find? (i.arg 0) = some e) (passed : (s.verdictOn i).passed = true) :
    (!e.criticality.requiresOversight || e.oversight.isHumanInLoop) = true := by
  have stake : e.criticality.requiresOversight = true →
      (Profile.ofInstruction i s.tables.entities s.settings).criticality.requiresOversight =
        true := by
    intro critical
    have governed := OperationKind.isGoverned_of_isGated gated
    simp only [Profile.ofInstruction, governed, if_true, Option.bind_some, known]
    split
    · exact Criticality.requiresOversight_max critical
    · exact critical
  unfold verdictOn at passed
  dsimp only at passed
  rw [Profile.entity_of_gated gated, Option.bind_some, known, Profile.verdict, Verdict.passed,
    Profile.objections] at passed
  cases critical : e.criticality.requiresOversight with
  | false => rfl
  | true =>
    cases watched : e.oversight.isHumanInLoop with
    | true => rfl
    | false => simp [stake critical, watched] at passed

/-- A context of the session shows its entities, whatever the time is. -/
theorem context_entity {e : Entity} {name : String} (known : s.tables.entities.find? name = some e)
    (now : Nat) : (s.tables.context now).entity name = some e.view := by
  show (s.tables.entities.find? name).map Entity.view = _
  rw [known]
  rfl

/-- The constraint on oversight holds of an entity that is overseen where it must be. -/
theorem holds_humanOversight {e : Entity} (known : s.tables.entities.find? (i.arg 0) = some e)
    (overseen : (!e.criticality.requiresOversight || e.oversight.isHumanInLoop) = true)
    (phase : Phase) (now : Nat) :
    (Constraint.humanOversight (i.arg 0) phase).evaluate (s.tables.context now) = none := by
  show Constraint.onEntity _ (i.arg 0) _ = none
  rw [Constraint.onEntity, context_entity known now]
  exact if_pos overseen

/-- The check finds nothing on an entity that is overseen where it must be. -/
theorem checkOversight_of_overseen {e : Entity} (known : s.tables.entities.find? (i.arg 0) = some e)
    (overseen : (!e.criticality.requiresOversight || e.oversight.isHumanInLoop) = true)
    (approved : Bool) : s.checkOversight i approved = s := by
  unfold checkOversight
  rw [holds_humanOversight known overseen]
  split <;> rfl

variable [Physics π] [Coordinator κ]

/-- A governed action leaves its entity declared, and what is asked of its overseers alone. -/
theorem entity_of_done (gated : i.opcode.operationKind.isGated = true)
    (done : s.attempt i = .done t) :
    ∃ e e', s.tables.entities.find? (i.arg 0) = some e ∧
      t.tables.entities.find? (i.arg 0) = some e' ∧ e'.criticality = e.criticality ∧
      e'.oversight = e.oversight := by
  have op := Opcode.eq_of_isGated gated
  cases attempt_done_iff.1 done
  case govern e e' u known change =>
    refine ⟨e, e', known, ?_, ?_⟩
    · show (s.tables.entities.insert (i.arg 0) e').find? (i.arg 0) = some e'
      rw [Table.find?_insert, if_pos rfl]
    · cases change <;> simp_all
  all_goals simp_all

/-- **The check behind the gate finds nothing** where the gate has let the instruction through. -/
theorem checkOversight_of_passes (passes : s.passes i = true) (done : s.attempt i = .done t)
    {u : Session π γ κ} (tables : u.tables = t.tables) : u.checkOversight i false = u := by
  cases gated : i.opcode.operationKind.isGated with
  | false => simp [checkOversight, gated]
  | true =>
    obtain ⟨e, e', known, known', criticality, oversight⟩ := entity_of_done gated done
    have overseen := overseen_of_passed gated known ((s.passes_iff i).1 passes gated)
    refine checkOversight_of_overseen (e := e') (tables ▸ known') ?_ false
    rw [criticality, oversight]
    exact overseen

/-- **The checks behind an instruction add no error** where a human has approved it or the gate has
let it through: there they can only warn of operands. -/
theorem checkAfter_errors {approved : Bool} (consent : approved = true ∨ s.passes i = true)
    (done : s.attempt i = .done t) {u : Session π γ κ} (tables : u.tables = t.tables) :
    (u.checkAfter i approved).diagnostics.errors = u.diagnostics.errors := by
  have operands := checkOperands_gains i u.clock.now i.interactionOperands u.readClock.2
  have untouched := u.readClock_untouched.trans
    (checkOperands_untouched i u.clock.now i.interactionOperands u.readClock.2)
  have checked : u.checkAfter i approved =
      i.interactionOperands.foldl (checkOperand i u.clock.now) u.readClock.2 := by
    rcases consent with rfl | passes
    · rfl
    · cases approved with
      | true => rfl
      | false => exact checkOversight_of_passes passes done (untouched.tables.trans tables)
  rw [checked, operands.errors_eq]
  rfl

/-- An instruction that is carried out without annotations adds no error if it takes effect, and one
if it fails. -/
theorem settle_errors (plain : s.annotations = none) (index : Nat) {approved : Bool}
    (consent : s.took i = [i] → approved = true ∨ s.passes i = true) :
    (s.took i = [i] ∧ (s.settle index i approved).diagnostics.errors = s.diagnostics.errors) ∨
    ∃ d : Diagnostic, s.took i = [] ∧ d.IsErrorOn i ∧
      (s.settle index i approved).diagnostics.errors = s.diagnostics.errors.push d := by
  rcases s.settle_cases index i approved with ⟨f, t, failed, idle, he⟩ |
      ⟨t, done, took, he⟩ <;> rw [he]
  · have fails := attempt_failed_iff.1 failed
    refine .inr ⟨f.diagnostic i.location, idle, ⟨fails.severity, rfl, fails.isFatal⟩, ?_⟩
    rw [← fails.diagnostics]
    exact Diagnostics.errors_push fails.severity
  · have course := (attempt_done_iff.1 done).sameCourse
    refine .inl ⟨took, ?_⟩
    rw [validate_of_plain (course.annotations.trans plain),
      checkAfter_errors (consent took) done rfl]
    exact (diagnostics_of_done done).errors_eq

end Session

/-! ## Events -/

namespace Event

variable {π γ κ : Type} [Physics π] [Coordinator κ]

/-- **The event decides the fate of its instruction**: the instruction takes effect and nothing is
added to the errors, or it does not and the error `d` is added. -/
def Settles [Gateway γ] (e : Event π γ κ) : Option Diagnostic → Prop
  | none => e.log = [e.instruction] ∧ e.after.diagnostics.errors = e.before.diagnostics.errors
  | some d => e.log = [] ∧ d.IsErrorOn e.instruction ∧
    e.after.diagnostics.errors = e.before.diagnostics.errors.push d

theorem Settles.errors [Gateway γ] {e : Event π γ κ} {fate : Option Diagnostic}
    (settles : e.Settles fate) :
    e.after.diagnostics.errors.toList = e.before.diagnostics.errors.toList ++ fate.toList := by
  cases fate with
  | none => rw [settles.2, Option.toList_none, List.append_nil]
  | some d => rw [settles.2.2, Array.toList_push, Option.toList_some]

end Event

namespace Session

variable {π γ κ : Type} [Physics π] [Gateway γ] [Coordinator κ] {s t : Session π γ κ}
  {i : Instruction} {index : Nat}

/-- A cycle that the session goes on from decides the fate of its instruction. -/
theorem cycle_settles (plain : s.annotations = none) (passed : s.step index i = .next t) :
    ∃ fate, (Event.cycle s index i).Settles fate := by
  have prepared := prepared_of_plain plain index i
  have after : (Event.cycle s index i).after = t := congrArg Stepped.session passed
  rcases s.step_cases index i with ⟨stopped, -⟩ | ⟨-, idle, -, o, r, he⟩ | ⟨-, -, -, filing, he⟩ |
    ⟨-, log, he⟩
  · rw [prepared] at stopped
    exact absurd stopped (by simp)
  · rw [he, prepared] at passed
    obtain rfl := Stepped.next.inj passed
    refine ⟨some ((Fault.verificationFailed o r).diagnostic i.location), idle, ⟨rfl, rfl, rfl⟩, ?_⟩
    rw [after]
    rfl
  · rw [he] at passed
    exact absurd passed (by simp)
  · rw [he, prepared] at passed
    rw [prepared] at log
    obtain rfl := Stepped.next.inj passed
    have consent (took : s.fireTimers.took i = [i]) :
        false = true ∨ s.fireTimers.passes i = true := by
      have let_through : s.stepLog index i ≠ [] := by simp [log, took]
      rw [stepLog, prepared] at let_through
      right
      by_contra closed
      simp [closed] at let_through
    rcases settle_errors (s := s.fireTimers) plain index consent with ⟨took, same⟩ |
      ⟨d, idle, error, added⟩
    · exact ⟨none, log.trans took, by rw [after]; exact same⟩
    · exact ⟨some d, log.trans idle, error, by rw [after]; exact added⟩

/-- A cycle that ends with a request adds no error, and decides nothing yet. -/
theorem ask_errors {request : Request} (plain : s.annotations = none)
    (asked : s.step index i = .suspended request t) :
    s.stepLog index i = [] ∧ t.diagnostics.errors = s.diagnostics.errors := by
  have prepared := prepared_of_plain plain index i
  rcases s.step_cases index i with ⟨-, -, he⟩ | ⟨-, -, -, o, r, he⟩ | ⟨-, idle, -, filing, he⟩ |
    ⟨-, -, he⟩ <;> rw [he] at asked
  · exact absurd asked (by simp)
  · exact absurd asked (by simp)
  · rw [prepared] at asked
    obtain ⟨-, rfl⟩ := Stepped.suspended.inj asked
    exact ⟨idle, rfl⟩
  · exact absurd asked (by simp)

/-- An answer decides the fate of the instruction that waited for it. -/
theorem answer_settles (plain : s.annotations = none) (op : Suspension) (gateway : γ)
    (d : Decision) : ∃ fate, (Event.answer s op gateway d).Settles fate := by
  cases d with
  | approve =>
    rcases settle_errors (s := s.answered op gateway .approve) (i := op.instruction) plain op.index
      (fun _ => .inl rfl) with ⟨took, same⟩ | ⟨d, idle, error, added⟩
    · exact ⟨none, took, same⟩
    · exact ⟨some d, idle, error, added⟩
  | reject =>
    exact ⟨some ((Fault.oversightRejected op.request.id op.request.details).diagnostic
      op.instruction.location), rfl, ⟨rfl, rfl, rfl⟩, rfl⟩

/-! ## Fates -/

/-- **The fate of the instruction `i` at the place `k`**, as a history shows it. It took effect, and
added no error; or it never did, and its error is the one that its event added, or says why an
answer was not taken. -/
def Fated (h : List (Event π γ κ)) (k : Nat) (i : Instruction) : Option Diagnostic → Prop
  | none => ∃ e ∈ h, e.index = k ∧ e.instruction = i ∧ e.Settles none
  | some d => d.IsErrorOn i ∧ (∀ e ∈ h, e.index = k → e.log = []) ∧
    ((∃ e ∈ h, e.index = k ∧ e.instruction = i ∧ e.Settles (some d)) ∨
      ∃ r : ReviewError, d.message = r.message)

/-- Later events are about later instructions, and do not change a fate. -/
theorem Fated.append {h g : List (Event π γ κ)} {k : Nat} {fate : Option Diagnostic}
    (fated : Fated h k i fate) (later : ∀ e ∈ g, e.index ≠ k) : Fated (h ++ g) k i fate := by
  cases fate with
  | none =>
    obtain ⟨e, he, settled⟩ := fated
    exact ⟨e, List.mem_append_left g he, settled⟩
  | some d =>
    obtain ⟨error, never, cause⟩ := fated
    refine ⟨error, ?_, cause.imp_left ?_⟩
    · intro e he here
      rcases List.mem_append.1 he with he | he
      · exact never e he here
      · exact absurd here (later e he)
    · rintro ⟨e, he, settled⟩
      exact ⟨e, List.mem_append_left g he, settled⟩

/-- An event that decides a fate, behind events in which the instruction took no effect. -/
theorem fated_of_settles {h : List (Event π γ κ)} {e : Event π γ κ} {fate : Option Diagnostic}
    (settles : e.Settles fate) (never : ∀ x ∈ h, x.index = e.index → x.log = []) :
    Fated (h ++ [e]) e.index e.instruction fate := by
  have mem : e ∈ h ++ [e] := List.mem_append_right h (List.mem_singleton_self e)
  cases fate with
  | none => exact ⟨e, mem, rfl, rfl, settles⟩
  | some d =>
    refine ⟨settles.2.1, ?_, .inl ⟨e, mem, rfl, rfl, settles⟩⟩
    intro x hx here
    rcases List.mem_append.1 hx with hx | hx
    · exact never x hx here
    · rw [List.mem_singleton.1 hx]
      exact settles.1

/-- An instruction took effect in the events that show its fate exactly if its fate is no error. -/
theorem Fated.eq_none_iff {h : List (Event π γ κ)} {k : Nat} {fate : Option Diagnostic}
    (fated : Fated h k i fate) : fate = none ↔ ∃ e ∈ h, e.index = k ∧ e.log = [i] := by
  cases fate with
  | none =>
    obtain ⟨e, he, here, rfl, settled⟩ := fated
    exact ⟨fun _ => ⟨e, he, here, settled.1⟩, fun _ => rfl⟩
  | some d =>
    refine ⟨fun absent => absurd absent (by simp), ?_⟩
    rintro ⟨e, he, here, log⟩
    exact absurd ((fated.2.1 e he here).symm.trans log) (by simp)

/-! ## Runs -/

/-- How far a session is: the fates of `n` instructions are decided. -/
inductive Progress (is : List Instruction) (h : List (Event π γ κ)) (s : Session π γ κ)
    (n : Nat) : Prop
  | running (status : s.status = .running) (idle : s.suspension = none) (position : s.position = n)
      (within : n ≤ is.length) (steps : s.steps = n) (past : ∀ e ∈ h, e.index < n)
  | waiting {op : Suspension} (waits : s.suspension = some op) (index : op.index = n)
      (here : is[n]? = some op.instruction) (steps : s.steps = n + 1)
      (past : ∀ e ∈ h, e.index ≤ n ∧ (e.index = n → e.log = []))
  | ended (idle : s.suspension = none) (all : n = is.length)
      (status : s.status = if s.diagnostics.hasErrors then .haltedError else .haltedSuccess)

/-- **The fates so far account for the errors of the session.** -/
structure Tally (is : List Instruction) (h : List (Event π γ κ)) (s : Session π γ κ)
    (fates : List (Option Diagnostic)) : Prop where
  plain : s.annotations = none
  program : s.program.instructions = is
  room : is.length ≤ s.settings.maxSteps
  inOrder : s.InOrder
  errors : s.diagnostics.errors.toList = fates.reduceOption
  fated : ∀ k i fate, is[k]? = some i → fates[k]? = some fate → Fated h k i fate
  progress : s.Progress is h fates.length

namespace Tally

variable {is : List Instruction} {h g : List (Event π γ κ)} {fates : List (Option Diagnostic)}

theorem within (tally : Tally is h s fates) : fates.length ≤ is.length := by
  cases tally.progress with
  | running _ _ _ within => exact within
  | waiting _ _ here => exact Nat.le_of_lt (List.getElem?_eq_some_iff.1 here).1
  | ended _ all => exact Nat.le_of_eq all

/-- No error of the session stops its run. -/
theorem hasFatal (tally : Tally is h s fates) : s.diagnostics.hasFatal = false := by
  rw [Diagnostics.hasFatal, Array.any_eq_false']
  intro d hd fatal
  have mem : some d ∈ fates := by
    rw [← List.reduceOption_mem_iff, ← tally.errors]
    exact Array.mem_toList_iff.2 hd
  obtain ⟨k, hk⟩ := List.mem_iff_getElem?.1 mem
  have within : k < is.length :=
    Nat.lt_of_lt_of_le (List.getElem?_eq_some_iff.1 hk).1 tally.within
  have fated := tally.fated k is[k] (some d) (List.getElem?_eq_getElem within) hk
  exact absurd (fated.1.mild.symm.trans fatal) (by simp)

/-- One more fate is decided. -/
theorem add (tally : Tally is h s fates) {fate : Option Diagnostic}
    (here : is[fates.length]? = some i) (now : ∀ e ∈ g, e.index = fates.length)
    (fated : Fated (h ++ g) fates.length i fate) (plain : t.annotations = none)
    (program : t.program = s.program) (settings : t.settings = s.settings) (inOrder : t.InOrder)
    (errors : t.diagnostics.errors.toList = s.diagnostics.errors.toList ++ fate.toList)
    (progress : t.Progress is (h ++ g) (fates.length + 1)) :
    Tally is (h ++ g) t (fates ++ [fate]) where
  plain := plain
  program := (congrArg Program.instructions program).trans tally.program
  room := settings ▸ tally.room
  inOrder := inOrder
  errors := by rw [errors, tally.errors, List.reduceOption_append, List.reduceOption_singleton]
  fated := by
    intro k j fate' at_k known
    rcases Nat.lt_or_ge k fates.length with earlier | later
    · rw [List.getElem?_append_left earlier] at known
      refine (tally.fated k j fate' at_k known).append fun e he => ?_
      have := now e he
      omega
    · rw [List.getElem?_append_right later] at known
      obtain ⟨last, rfl⟩ : k = fates.length ∧ fate = fate' := by
        have mem := List.getElem?_eq_some_iff.1 known
        obtain ⟨bound, rfl⟩ := mem
        rw [List.length_singleton] at bound
        exact ⟨by omega, by simp⟩
      subst last
      obtain rfl := Option.some.inj (here.symm.trans at_k)
      exact fated
  progress := by
    rw [List.length_append]
    exact progress

/-- A session that is under way has decided the fates of all instructions behind it. -/
theorem running (tally : Tally is h s fates) {rest : List Instruction} (ready : s.Ready rest) :
    s.position = fates.length ∧ s.steps = fates.length ∧ ∀ e ∈ h, e.index < fates.length := by
  cases tally.progress with
  | running _ _ position _ steps past => exact ⟨position, steps, past⟩
  | waiting waits => exact absurd (ready.idle.symm.trans waits) (by simp)
  | ended _ _ status =>
    rw [ready.running] at status
    split at status <;> exact absurd status (by simp)

/-- A session that waits has decided the fates of all instructions before the one that waits. -/
theorem waiting (tally : Tally is h s fates) {op : Suspension} (waits : s.suspension = some op) :
    op.index = fates.length ∧ is[fates.length]? = some op.instruction ∧
      s.steps = fates.length + 1 ∧
      ∀ e ∈ h, e.index ≤ fates.length ∧ (e.index = fates.length → e.log = []) := by
  cases tally.progress with
  | waiting waits' index here steps past =>
    obtain rfl := Option.some.inj (waits.symm.trans waits')
    exact ⟨index, here, steps, past⟩
  | running _ idle | ended idle => exact absurd (idle.symm.trans waits) (by simp)

theorem pass (tally : Tally is h s fates) {rest : List Instruction} (ready : s.Ready (i :: rest))
    (passed : s.counted.step s.position i = .next t)
    (inOrder : ({ t with position := t.position + 1 } : Session π γ κ).InOrder) :
    ∃ fates, Tally is (h ++ [.cycle s.counted s.position i])
      ({ t with position := t.position + 1 } : Session π γ κ) fates := by
  obtain ⟨position, steps, past⟩ := tally.running ready
  have here : is[fates.length]? = some i := by
    rw [← tally.program, ← position]
    exact ready.instruction
  have course := step_next_sameCourse passed
  have next := ready.next course
  obtain ⟨fate, settles⟩ := cycle_settles (s := s.counted) tally.plain passed
  have errors := settles.errors
  have after : (Event.cycle s.counted s.position i).after = t := congrArg Stepped.session passed
  have fated := fated_of_settles (h := h) settles fun e he at_e => by
    have earlier := past e he
    have at_e : e.index = s.position := at_e
    omega
  rw [after] at errors
  refine ⟨fates ++ [fate],
    tally.add here ?_ (position ▸ fated) (course.annotations.trans tally.plain)
    course.program course.settings inOrder errors ?_⟩
  · intro e he
    rw [List.mem_singleton.1 he]
    exact position
  · have stays : t.position = s.position := course.position
    have counted : t.steps = s.steps + 1 := course.steps
    refine .running next.running next.idle ?_ (List.getElem?_eq_some_iff.1 here).1 ?_ ?_
    · show t.position + 1 = _
      omega
    · show t.steps = _
      omega
    · intro e he
      rcases List.mem_append.1 he with he | he
      · exact Nat.lt_succ_of_lt (past e he)
      · rw [List.mem_singleton.1 he]
        show s.position < _
        omega

theorem ask (tally : Tally is h s fates) {rest : List Instruction} {request : Request}
    (ready : s.Ready (i :: rest)) (asked : s.counted.step s.position i = .suspended request t)
    (inOrder : ({ t with status := .suspended, suspension := some ⟨request, i, t.position⟩ } :
      Session π γ κ).InOrder) :
    Tally is (h ++ [.cycle s.counted s.position i])
      ({ t with status := .suspended, suspension := some ⟨request, i, t.position⟩ } : Session π γ κ)
      fates := by
  obtain ⟨position, steps, past⟩ := tally.running ready
  have here : is[fates.length]? = some i := by
    rw [← tally.program, ← position]
    exact ready.instruction
  have asks := asks_of_suspended asked
  obtain ⟨idle, same⟩ := ask_errors (s := s.counted) tally.plain asked
  have stays : t.position = s.position := asks.course.position
  have counted : t.steps = s.steps + 1 := asks.course.steps
  have settings : t.settings = s.settings := asks.course.settings
  refine ⟨asks.course.annotations.trans tally.plain,
    (congrArg Program.instructions asks.course.program).trans tally.program, ?_,
    inOrder, ?_, ?_, ?_⟩
  · show is.length ≤ t.settings.maxSteps
    rw [settings]
    exact tally.room
  · show t.diagnostics.errors.toList = _
    rw [same]
    exact tally.errors
  · intro k j fate at_k known
    refine (tally.fated k j fate at_k known).append fun e he => ?_
    have earlier := (List.getElem?_eq_some_iff.1 known).1
    rw [List.mem_singleton.1 he]
    show s.position ≠ k
    omega
  · have waits : ({ t with status := .suspended, suspension := some ⟨request, i, t.position⟩ } :
        Session π γ κ).suspension = some ⟨request, i, t.position⟩ := rfl
    refine .waiting waits (stays.trans position) here (counted.trans (congrArg (· + 1) steps))
      fun e he => ?_
    rcases List.mem_append.1 he with he | he
    · have earlier := past e he
      exact ⟨by omega, fun at_e => by omega⟩
    · rw [List.mem_singleton.1 he]
      exact ⟨Nat.le_of_eq position, fun _ => idle⟩

/-- The fate of an instruction that waited is decided, and the session goes on behind it. -/
theorem goOn (tally : Tally is h s fates) {op : Suspension} (waits : s.suspension = some op)
    {fate : Option Diagnostic} (now : ∀ e ∈ g, e.index = op.index)
    (fated : Fated (h ++ g) op.index op.instruction fate) (plain : t.annotations = none)
    (program : t.program = s.program) (settings : t.settings = s.settings)
    (steps : t.steps = s.steps) (status : t.status = .running) (idle : t.suspension = none)
    (inOrder : ({ t with position := op.index + 1 } : Session π γ κ).InOrder)
    (errors : t.diagnostics.errors.toList = s.diagnostics.errors.toList ++ fate.toList) :
    Tally is (h ++ g) ({ t with position := op.index + 1 } : Session π γ κ) (fates ++ [fate]) := by
  obtain ⟨index, here, counted, past⟩ := tally.waiting waits
  refine tally.add here (index ▸ now) (index ▸ fated) plain program settings inOrder errors ?_
  refine .running status idle (congrArg (· + 1) index) (List.getElem?_eq_some_iff.1 here).1
    (steps.trans counted) fun e he => ?_
  rcases List.mem_append.1 he with he | he
  · exact Nat.lt_succ_of_le (past e he).1
  · rw [now e he, index]
    exact Nat.lt_succ_self _

theorem answer (tally : Tally is h s fates) {op : Suspension} (waits : s.suspension = some op)
    (gateway : γ) (d : Decision)
    (inOrder : ({ (s.answered op gateway d).acted op d with position := op.index + 1 } :
      Session π γ κ).InOrder) :
    ∃ fates, Tally is (h ++ [.answer s op gateway d])
      ({ (s.answered op gateway d).acted op d with position := op.index + 1 } : Session π γ κ)
        fates := by
  obtain ⟨index, here, -, past⟩ := tally.waiting waits
  obtain ⟨running, idle, program⟩ := s.answered_running op gateway d
  have course := s.acted_course op gateway d
  obtain ⟨fate, settles⟩ := answer_settles tally.plain op gateway d
  have fated := fated_of_settles (h := h) settles fun e he at_e =>
    (past e he).2 (at_e.trans index)
  have same : (s.answered op gateway d).annotations = s.annotations ∧
      (s.answered op gateway d).settings = s.settings ∧
      (s.answered op gateway d).steps = s.steps := by
    cases d <;> exact ⟨rfl, rfl, rfl⟩
  refine ⟨fates ++ [fate],
    tally.goOn waits ?_ fated (course.annotations.trans (same.1.trans tally.plain))
    (course.program.trans program) (course.settings.trans same.2.1) (course.steps.trans same.2.2)
    (course.status.trans running) (course.suspension.trans idle) inOrder settles.errors⟩
  intro e he
  rw [List.mem_singleton.1 he]
  rfl

theorem abandon (tally : Tally is h s fates) {op : Suspension} (waits : s.suspension = some op)
    (e : ReviewError)
    (inOrder : ({ s.givenUp op e with position := op.index + 1 } : Session π γ κ).InOrder) :
    ∃ fates, Tally is (h ++ [])
      ({ s.givenUp op e with position := op.index + 1 } : Session π γ κ) fates := by
  obtain ⟨index, -, -, past⟩ := tally.waiting waits
  let d : Diagnostic :=
    { severity := .error, category := .execution, location := op.instruction.location,
      message := e.message }
  have fated : Fated (h ++ []) op.index op.instruction (some d) := by
    refine ⟨⟨rfl, rfl, rfl⟩, ?_, .inr ⟨e, rfl⟩⟩
    rw [List.append_nil]
    exact fun x hx at_x => (past x hx).2 (at_x.trans index)
  exact ⟨fates ++ [some d], tally.goOn waits (by simp) fated tally.plain rfl rfl rfl rfl rfl inOrder
    Array.toList_push⟩

/-- A session that ends its run with all fates decided. -/
theorem halt (tally : Tally is h s fates) (course : s.SameCourse t) (idle : s.suspension = none)
    (errors : t.diagnostics.errors = s.diagnostics.errors) (all : fates.length = is.length)
    (inOrder : t.halt.InOrder) : Tally is h t.halt fates where
  plain := course.annotations.trans tally.plain
  program := (congrArg Program.instructions course.program).trans tally.program
  room := by
    show is.length ≤ t.settings.maxSteps
    rw [course.settings]
    exact tally.room
  inOrder := inOrder
  errors := (congrArg Array.toList errors).trans tally.errors
  fated := tally.fated
  progress := .ended (course.suspension.trans idle) all rfl

/-- **Every move keeps the accounts.** -/
theorem move (tally : Tally is h s fates) {e : List (Event π γ κ)} (m : Move s e t) :
    ∃ fates, Tally is (h ++ e) t fates := by
  have inOrder := inOrder_kept.move tally.inOrder m
  cases m with
  | pass ready within passed => exact tally.pass ready passed inOrder
  | ask ready within asked => exact ⟨fates, tally.ask ready asked inOrder⟩
  | exhaust ready spent =>
    obtain ⟨position, steps, -⟩ := tally.running ready
    obtain ⟨within, -⟩ := List.getElem?_eq_some_iff.1 ready.instruction
    have room := tally.room
    rw [tally.program] at within
    omega
  | collapse ready fatal => exact absurd (tally.hasFatal.symm.trans fatal) (by simp)
  | finish ready =>
    obtain ⟨position, -, -⟩ := tally.running ready
    have behind : is.length ≤ fates.length := by
      rw [← tally.program, ← position]
      exact List.drop_eq_nil_iff.1 ready.ahead
    have scanned := (finalScan_gains tally.inOrder.scan).errors_eq
    rw [List.append_nil]
    exact ⟨fates, tally.halt s.finalScan_sameCourse ready.idle scanned
      (Nat.le_antisymm tally.within behind) inOrder⟩
  | answer waits taken => exact tally.answer waits _ _ inOrder
  | @refuse op d e gateway waits refused =>
    obtain ⟨index, here, steps, past⟩ := tally.waiting waits
    rw [List.append_nil]
    exact ⟨fates, tally.plain, tally.program, tally.room, inOrder, tally.errors, tally.fated,
      .waiting waits index here steps past⟩
  | abandon waits e => exact tally.abandon waits e inOrder

theorem path (tally : Tally is h s fates) (p : Path s g t) :
    ∃ fates, Tally is (h ++ g) t fates := by
  induction p with
  | refl =>
    rw [List.append_nil]
    exact ⟨fates, tally⟩
  | move before next ih =>
    obtain ⟨fates, tally⟩ := ih
    rw [← List.append_assoc]
    exact tally.move next

end Tally

/-- **The accounts of a run to completion**: each instruction has its fate, the errors are those of
the fates, in order, and nothing else, and the run is a success exactly if every instruction took
effect. -/
structure Accounts (s : Session π γ κ) (program : Program)
    (decide : List Request → Request → Decision) (fates : List (Option Diagnostic)) : Prop where
  each : fates.length = program.length
  fated : ∀ k i, program.instructions[k]? = some i →
    ∃ fate, fates[k]? = some fate ∧ Fated (s.completionEvents program none decide) k i fate
  errors : (s.runToCompletion program none decide).2.result.errors = fates.reduceOption
  success : (s.runToCompletion program none decide).2.result.success = true ↔
    ∀ k i, program.instructions[k]? = some i →
      ∃ e ∈ s.completionEvents program none decide, e.index = k ∧ e.log = [i]
  status : (s.runToCompletion program none decide).2.result.status = .haltedSuccess ↔
    ∀ k i, program.instructions[k]? = some i →
      ∃ e ∈ s.completionEvents program none decide, e.index = k ∧ e.log = [i]

/-- The accounts of a run to completion whose fates are all decided. -/
theorem Tally.accounts {program : Program} {decide : List Request → Request → Decision}
    {fates : List (Option Diagnostic)}
    (tally : Tally program.instructions (s.completionEvents program none decide)
      (s.runToCompletion program none decide).2 fates)
    (all : fates.length = program.length)
    (ended : (s.runToCompletion program none decide).2.status =
      if (s.runToCompletion program none decide).2.diagnostics.hasErrors then .haltedError
      else .haltedSuccess) : s.Accounts program decide fates := by
  have fated (k : Nat) (i : Instruction) (at_k : program.instructions[k]? = some i) :
      ∃ fate, fates[k]? = some fate ∧ Fated (s.completionEvents program none decide) k i fate := by
    have within : k < fates.length := by
      rw [all]
      exact (List.getElem?_eq_some_iff.1 at_k).1
    have known := List.getElem?_eq_getElem within
    exact ⟨fates[k], known, tally.fated k i fates[k] at_k known⟩
  have clean : (s.runToCompletion program none decide).2.diagnostics.hasErrors = false ↔
      ∀ k i, program.instructions[k]? = some i →
        ∃ e ∈ s.completionEvents program none decide, e.index = k ∧ e.log = [i] := by
    rw [Diagnostics.hasErrors, Bool.not_eq_false', Array.isEmpty_iff, ← Array.toList_eq_nil_iff,
      tally.errors, List.reduceOption_eq_nil_iff]
    constructor
    · rintro ⟨n, none⟩ k i at_k
      obtain ⟨fate, known, fated⟩ := fated k i at_k
      refine fated.eq_none_iff.1 ?_
      rw [none] at known
      exact List.eq_of_mem_replicate (List.mem_of_getElem? known)
    · intro took
      refine ⟨fates.length, List.eq_replicate_iff.2 ⟨rfl, fun fate mem => ?_⟩⟩
      obtain ⟨k, known⟩ := List.mem_iff_getElem?.1 mem
      have within : k < program.instructions.length := by
        have := (List.getElem?_eq_some_iff.1 known).1
        rwa [all] at this
      have at_k := List.getElem?_eq_getElem within
      obtain ⟨fate', known', fated⟩ := fated k _ at_k
      obtain rfl := Option.some.inj (known.symm.trans known')
      exact fated.eq_none_iff.2 (took k _ at_k)
  refine ⟨all, fated, tally.errors, ?_, ?_⟩
  · rw [← clean]
    exact iff_of_eq (Bool.not_eq_true' _)
  · rw [← clean]
    show (s.runToCompletion program none decide).2.status = .haltedSuccess ↔ _
    rw [ended]
    cases (s.runToCompletion program none decide).2.diagnostics.hasErrors <;> simp

/-- **The errors of a run are exactly those of the instructions that did not take effect.** Of every
reachable session, for every program that fits its step limit, run to completion without
annotations, whatever the clock, the collaborators and the decisions: each instruction that does not
take effect adds one error, at its place and in the order of the program, and nothing else adds any.
So the run is a success exactly if every instruction took effect. -/
theorem error_accounting {s₀ s : Session π γ κ} (fresh : s₀.IsFresh) (reached : s₀.Reaches s)
    (program : Program) (room : program.length ≤ s.settings.maxSteps)
    (decide : List Request → Request → Decision) : ∃ fates, s.Accounts program decide fates := by
  have inOrder := inOrder_kept.reaches fresh.inOrder reached
  have start : Tally program.instructions [] (s.start program none) [] :=
    ⟨rfl, rfl, room, inOrder_kept.start inOrder program none, rfl, by simp,
      .running rfl rfl rfl (Nat.zero_le _) rfl (by simp)⟩
  have path := s.path_completion program none decide
  obtain ⟨fates, tally⟩ := start.path path
  obtain ⟨ended, idle⟩ := answerAll_ends decide program.length [] (s.run_answerable program)
  refine ⟨fates, Tally.accounts tally ?_ ?_⟩
  all_goals
    cases tally.progress with
    | running status => exact absurd status ended
    | waiting waits => exact absurd (idle.symm.trans waits) (by simp)
    | ended _ all status => assumption

/-- A program with two instructions that cannot take effect, the second because a human says no. -/
def trial : Program where
  instructions :=
    [⟨.allocQudit, ["d", "2"], ⟨1, 1⟩⟩, ⟨.release, ["e"], ⟨2, 1⟩⟩,
      ⟨.declareContract, ["m"], ⟨3, 1⟩⟩, ⟨.setExplainability, ["m", "0.5"], ⟨4, 1⟩⟩,
      ⟨.setOversight, ["m", "approval"], ⟨5, 1⟩⟩, ⟨.deploy, ["m", "field"], ⟨6, 1⟩⟩,
      ⟨.release, ["d"], ⟨7, 1⟩⟩]

/-- A second run, with all requests rejected: the errors stand at the second and the sixth
instruction. -/
theorem error_accounting_trial :
    (standard 1 {}).IsFresh ∧ (standard 1 {}).Reaches ((standard 1 {}).run chain none) ∧
      trial.length ≤ ((standard 1 {}).run chain none).settings.maxSteps ∧
      (∃ fates, ((standard 1 {}).run chain none).Accounts trial (fun _ _ => .reject) fates) ∧
      (((standard 1 {}).run chain none).runToCompletion trial none
        fun _ _ => .reject).2.result.errors.map (·.location.line) = [2, 6] := by
  have fresh : (standard 1 {}).IsFresh := rfl
  have reached : (standard 1 {}).Reaches ((standard 1 {}).run chain none) :=
    .run (.refl _) chain none
  have room : trial.length ≤ ((standard 1 {}).run chain none).settings.maxSteps := by decide +kernel
  exact ⟨fresh, reached, room, error_accounting fresh reached trial room _, by decide +kernel⟩

end Session

end GovernedQuantum
