import GovernedQuantum.Proofs.History
import GovernedQuantum.Proofs.Steady

/-!
# Sessions in step with their program

A session without annotations, in which no time passes and whose coordinator accepts everything,
goes through a resolved program instruction by instruction, however gates and humans decide: each
has its cycle once, in order, and what it meets is what the instructions before it left.

* `Event.fault?`: what an instruction failed with in an event.
* `Session.Pace now before s`: the session `s` is in step behind the instructions `before`.
* `Session.answerAll_ends`: **nothing waits at the end of a run to completion**, whatever the
  program.
* `Session.Follows`: the history of a session that has kept in step from its start.
* `Session.follows_completion`: **a run to completion keeps in step** up to the last instruction.
-/

namespace GovernedQuantum

theorem Instruction.resources_of_gated {i : Instruction}
    (h : i.opcode.operationKind.isGated = true) : i.resources = [] := by
  unfold resources
  cases op : i.opcode with
  | deploy | decide => rfl
  | _ => exact absurd h (by rw [op]; decide)

theorem take_succ_of_getElem? {is : List Instruction} {k : Nat} {i : Instruction}
    (h : is[k]? = some i) : is.take (k + 1) = is.take k ++ [i] := by
  rw [List.take_add_one, h]
  rfl

/-- The instruction at a place resolves behind those before it. -/
theorem Resolved.resolves_at {is : List Instruction} (resolved : Resolved is) {k : Nat}
    {i : Instruction} (h : is[k]? = some i) : i.Resolves (is.take k) := by
  refine resolved _ i ?_
  rw [← take_succ_of_getElem? h]
  exact List.take_prefix _ _

/-! ## Findings that do not stop a run -/

theorem Diagnostics.hasFatal_push {ds : Diagnostics} {d : Diagnostic} (h : ds.hasFatal = false)
    (mild : d.severity = .warning ∨ d.fatal = false) : (ds.push d).hasFatal = false := by
  unfold push
  cases severity : d.severity with
  | warning => exact h
  | error =>
    have harmless : d.fatal = false := mild.resolve_left (by simp [severity])
    show (ds.errors.push d).any (·.fatal) = false
    rw [Array.any_push, harmless, Bool.or_false]
    exact h

/-- No instruction that fails stops the run. -/
theorem Session.Fails.isFatal {π γ κ : Type} [Coordinator κ] {s t : Session π γ κ}
    {i : Instruction} {f : Fault} (h : s.Fails i f t) : f.isFatal = false := by
  cases h with
  | unresolved _ _ cause => rcases Tables.resolve_error cause with rfl | rfl <;> rfl
  | _ => rfl

/-! ## What becomes of an instruction -/

/-- The fault of an attempt that failed. -/
def Attempt.fault? {σ : Type} : Attempt σ → Option Fault
  | .done _ => none
  | .failed f _ => some f

theorem Attempt.fault?_eq_some_iff {σ : Type} {a : Attempt σ} {f : Fault} :
    a.fault? = some f ↔ ∃ s, a = .failed f s := by
  cases a with
  | done s => simp [fault?]
  | failed g s => simp [fault?]

namespace Event

variable {π γ κ : Type}

/-- The place of the instruction that the event is about. -/
def index : Event π γ κ → Nat
  | .cycle _ index _ => index
  | .answer _ op _ _ => op.index

/-- The place of the instruction whose cycle it is. -/
def cycle? : Event π γ κ → Option Nat
  | .cycle _ index _ => some index
  | .answer .. => none

theorem index_of_cycle? {e : Event π γ κ} {k : Nat} (h : e.cycle? = some k) : e.index = k := by
  cases e with
  | cycle s index i => exact Option.some.inj h
  | answer s op gateway d => exact absurd h (by simp [cycle?])

/-- **What the instruction failed with**, if it was carried out in the event and failed. -/
def fault? [Physics π] [Coordinator κ] : Event π γ κ → Option Fault
  | .cycle s index i =>
    if (s.prepared index i).1 && (s.prepared index i).2.passes i then
      ((s.prepared index i).2.attempt i).fault?
    else none
  | .answer s op gateway .approve =>
    ((s.answered op gateway .approve).attempt op.instruction).fault?
  | .answer _ _ _ .reject => none

/-- The event is about an instruction of the program, which fails over a consumed qudit exactly
where an instruction before it consumes one of its operands; and a fault is reported where it
happens. -/
structure Fair [Physics π] [Gateway γ] [Coordinator κ] (is : List Instruction) (e : Event π γ κ) :
    Prop where
  place : is[e.index]? = some e.instruction
  consumed : (∃ r, e.fault? = some (.consumedHandle r)) ↔
    ∃ r ∈ e.instruction.resources, Consumed (is.take e.index) r
  reported : ∀ f, e.fault? = some f →
    e.after.diagnostics = e.before.diagnostics.push (f.diagnostic e.instruction.location)

end Event

namespace Session

variable {π γ κ : Type}

/-! ## Sessions without annotations -/

theorem validate_of_plain {s : Session π γ κ} (plain : s.annotations = none) (index : Nat)
    (phase : Phase) (l : Location) : s.validate index phase l = (true, s) := by
  rw [validate, constraintsAt, plain]
  rfl

theorem prepared_of_plain {s : Session π γ κ} (plain : s.annotations = none) (index : Nat)
    (i : Instruction) : s.prepared index i = (true, s.fireTimers) :=
  validate_of_plain (s := s.fireTimers) plain index .pre i.location

theorem checkAfter_hasFatal {s : Session π γ κ} (h : s.diagnostics.hasFatal = false)
    (i : Instruction) (approved : Bool) :
    (s.checkAfter i approved).diagnostics.hasFatal = false := by
  have operands (names : List String) (now : Nat) (t : Session π γ κ)
      (ht : t.diagnostics.hasFatal = false) :
      (names.foldl (checkOperand i now) t).diagnostics.hasFatal = false := by
    induction names generalizing t with
    | nil => exact ht
    | cons name rest ih =>
      refine ih _ ?_
      unfold checkOperand
      split
      · exact Diagnostics.hasFatal_push ht (.inl rfl)
      · exact ht
  have checked := operands i.interactionOperands s.readClock.1 s.readClock.2 h
  unfold checkAfter
  dsimp only
  unfold checkOversight
  split
  · split
    · exact Diagnostics.hasFatal_push checked (.inr rfl)
    · exact checked
  · exact checked

variable [Physics π] [Coordinator κ]

theorem settle_hasFatal {s : Session π γ κ} (plain : s.annotations = none)
    (h : s.diagnostics.hasFatal = false) (index : Nat) (i : Instruction) (approved : Bool) :
    (s.settle index i approved).diagnostics.hasFatal = false := by
  rcases s.settle_cases index i approved with ⟨f, t, ha, -, he⟩ | ⟨t, ha, -, he⟩ <;> rw [he]
  · have fails := attempt_failed_iff.1 ha
    refine Diagnostics.hasFatal_push ?_ (.inr fails.isFatal)
    rw [fails.diagnostics]
    exact h
  · have effect := attempt_done_iff.1 ha
    rw [validate_of_plain (effect.sameCourse.annotations.trans plain)]
    refine checkAfter_hasFatal ?_ i approved
    rcases effect.diagnostics with same | ⟨d, warning, -, pushed⟩
    · rw [same]
      exact h
    · rw [pushed]
      exact Diagnostics.hasFatal_push h (.inl warning)

/-- After the attempt, an instruction is only looked at. -/
theorem settle_untouched (s : Session π γ κ) (index : Nat) (i : Instruction) (approved : Bool) :
    (s.attempt i).session.Untouched (s.settle index i approved) := by
  rcases s.settle_cases index i approved with ⟨f, t, ha, -, he⟩ | ⟨t, ha, -, he⟩ <;> rw [ha, he]
  · exact t.record_untouched f i.location
  · exact (t.validate_untouched index .post i.location).trans (checkAfter_untouched _ i approved)

/-- A fault is reported at the instruction, and nothing else is. -/
theorem diagnostics_settle_of_fault {s : Session π γ κ} {i : Instruction} {f : Fault}
    (fault : (s.attempt i).fault? = some f) (index : Nat) (approved : Bool) :
    (s.settle index i approved).diagnostics = s.diagnostics.push (f.diagnostic i.location) := by
  obtain ⟨t, failed⟩ := Attempt.fault?_eq_some_iff.1 fault
  rw [settle, failed]
  show t.diagnostics.push _ = _
  rw [(attempt_failed_iff.1 failed).diagnostics]

/-- An instruction that the gate lets through is carried out. -/
theorem step_of_passes [Gateway γ] {s : Session π γ κ} {index : Nat} {i : Instruction}
    (plain : s.annotations = none) (passes : s.fireTimers.passes i = true) :
    s.step index i = .next (s.fireTimers.settle index i false) := by
  unfold step
  rw [show s.fireTimers.validate index .pre i.location = s.prepared index i from rfl,
    prepared_of_plain plain]
  dsimp only
  split
  · rename_i gated
    rw [(gate_passed_iff _ i).2 ((passes_iff _ i).1 passes gated)]
  · rfl

/-- What an instruction of a session without annotations failed with is what its event reports. -/
theorem diagnostics_of_fault [Gateway γ] {e : Event π γ κ} (plain : e.before.annotations = none)
    {f : Fault} (fault : e.fault? = some f) :
    e.after.diagnostics = e.before.diagnostics.push (f.diagnostic e.instruction.location) := by
  cases e with
  | cycle s index i =>
    have plain : s.annotations = none := plain
    simp only [Event.fault?, prepared_of_plain plain index i, Bool.true_and] at fault
    split at fault
    · rename_i passes
      show (s.step index i).session.diagnostics = s.diagnostics.push _
      rw [step_of_passes plain passes]
      exact diagnostics_settle_of_fault fault index false
    · exact absurd fault (by simp)
  | answer s op gateway d =>
    cases d with
    | approve => exact diagnostics_settle_of_fault fault op.index true
    | reject => exact absurd fault (by simp [Event.fault?])

section Pace

variable {π γ : Type}

/-- **A session in step with a program**: it runs without annotations, no time passes in it, nothing
has stopped it, and its tables answer for the instructions `before` exactly. -/
structure Pace (now : Nat) (before : List Instruction) (s : Session π γ Loopback) : Prop where
  plain : s.annotations = none
  steady : s.Steady now
  unbroken : s.diagnostics.hasFatal = false
  exact : s.tables.Exact before s.nextHandle

namespace Pace

variable {s t : Session π γ Loopback} {now : Nat} {before : List Instruction} {i : Instruction}

/-- Where the session is in its run does not matter. -/
theorem of_update (h : s.Pace now before) (gateway : γ) (status : Status) (program : Program)
    (position steps : Nat) (suspension : Option Suspension) (console : Array String)
    (reviews : Array LogEntry) :
    ({ s with gateway, status, program, position, steps, suspension, console, reviews } :
      Session π γ Loopback).Pace now before where
  plain := h.plain
  steady := ⟨h.steady.reads, h.steady.delays, h.steady.lasting, h.steady.coherent⟩
  unbroken := h.unbroken
  exact := h.exact

theorem report (h : s.Pace now before) {d : Diagnostic}
    (mild : d.severity = .warning ∨ d.fatal = false) : (s.report d).Pace now before where
  plain := h.plain
  steady := h.steady.of_keeps (s.report_keeps d) rfl h.steady.coherent
  unbroken := Diagnostics.hasFatal_push h.unbroken mild
  exact := h.exact

theorem fireTimers (h : s.Pace now before) : s.fireTimers.Pace now before where
  plain := h.plain
  steady := h.steady.fireTimers
  unbroken := h.unbroken
  exact := h.exact.of_same s.fireTimers_sameQudits rfl rfl

/-- An instruction that needs consent may be left out. -/
theorem pass (h : s.Pace now before) (gated : i.opcode.operationKind.isGated = true) :
    s.Pace now (before ++ [i]) where
  plain := h.plain
  steady := h.steady
  unbroken := h.unbroken
  exact := by
    refine h.exact.pass (Instruction.introduces_of_gated gated) fun r consumes => ?_
    have operand := consumes.2
    rw [Instruction.resources_of_gated gated] at operand
    exact absurd operand (by simp)

theorem answered (h : s.Pace now before) (op : Suspension) (gateway : γ) (d : Decision) :
    (s.answered op gateway d).Pace now before := by
  cases d with
  | approve => exact h.of_update _ _ _ _ _ _ _ _
  | reject =>
    exact (h.of_update gateway .running s.program s.position s.steps none s.console _).report
      (.inr rfl)

theorem givenUp (h : s.Pace now before) (op : Suspension) (e : ReviewError) :
    (s.givenUp op e).Pace now before :=
  (h.of_update s.gateway .running s.program s.position s.steps none s.console s.reviews).report
    (.inr rfl)

variable [Physics π]

/-- Whatever comes of an instruction, the session is in step behind it. -/
theorem settle (h : s.Pace now before) (resolves : i.Resolves before) (index : Nat)
    (approved : Bool) : (s.settle index i approved).Pace now (before ++ [i]) := by
  have course := s.settle_sameCourse index i approved
  have untouched := s.settle_untouched index i approved
  refine ⟨course.annotations.trans h.plain, ?_,
    settle_hasFatal h.plain h.unbroken index i approved, ?_⟩
  · refine h.steady.of_keeps (s.settle_keeps index i approved) course.settings ?_
    rw [untouched.tables]
    exact (attempt_steady h.steady i).coherent
  · rw [untouched.tables, untouched.nextHandle]
    exact attempt_exact h.steady h.exact resolves

/-- An instruction that waited is behind the session once its answer was acted on. -/
theorem acted (h : s.Pace now before) {op : Suspension} (resolves : op.instruction.Resolves before)
    (gated : op.instruction.opcode.operationKind.isGated = true) (d : Decision) :
    (s.acted op d).Pace now (before ++ [op.instruction]) := by
  cases d with
  | approve => exact h.settle resolves op.index true
  | reject => exact h.pass gated

/-- In its cycle an instruction fails over a consumed qudit exactly where an operand was consumed
before it. -/
theorem cycle_fault_iff (h : s.Pace now before) (resolves : i.Resolves before) (index : Nat) :
    (∃ r, (Event.cycle s index i).fault? = some (.consumedHandle r)) ↔
      ∃ r ∈ i.resources, Consumed before r := by
  have attempted := consumed_fault_iff h.fireTimers.steady h.fireTimers.exact resolves
  simp only [Event.fault?, prepared_of_plain h.plain index i, Bool.true_and]
  split
  · simp only [Attempt.fault?_eq_some_iff]
    exact attempted
  · rename_i closed
    -- what the gate stops has no operands
    rw [passes_iff, Classical.not_imp] at closed
    rw [Instruction.resources_of_gated closed.1]
    simp

/-- An instruction that was approved has no operands, and fails over none. -/
theorem answer_fault_iff (h : s.Pace now before) {op : Suspension}
    (resolves : op.instruction.Resolves before)
    (gated : op.instruction.opcode.operationKind.isGated = true) (gateway : γ) (d : Decision) :
    (∃ r, (Event.answer s op gateway d).fault? = some (.consumedHandle r)) ↔
      ∃ r ∈ op.instruction.resources, Consumed before r := by
  cases d with
  | approve =>
    have taken := h.answered op gateway .approve
    rw [← consumed_fault_iff taken.steady taken.exact resolves]
    simp only [Event.fault?, Attempt.fault?_eq_some_iff]
  | reject =>
    rw [Instruction.resources_of_gated gated]
    simp [Event.fault?]

variable [Gateway γ] {is : List Instruction}

theorem cycle_fair {k : Nat} (h : s.Pace now (is.take k)) (resolved : Resolved is)
    (here : is[k]? = some i) : (Event.cycle s k i).Fair is where
  place := here
  consumed := h.cycle_fault_iff (resolved.resolves_at here) k
  reported _ fault := diagnostics_of_fault (e := .cycle s k i) h.plain fault

theorem answer_fair {op : Suspension} (h : s.Pace now (is.take op.index)) (resolved : Resolved is)
    (here : is[op.index]? = some op.instruction)
    (gated : op.instruction.opcode.operationKind.isGated = true) (gateway : γ) (d : Decision) :
    (Event.answer s op gateway d).Fair is where
  place := here
  consumed := h.answer_fault_iff (resolved.resolves_at here) gated gateway d
  reported _ fault := diagnostics_of_fault (e := .answer s op gateway d) h.plain fault

/-- A cycle that the session goes on from puts the instruction behind it. -/
theorem next (h : s.Pace now before) (resolves : i.Resolves before) {index : Nat}
    (passed : s.step index i = .next t) : t.Pace now (before ++ [i]) := by
  have prepared := prepared_of_plain h.plain index i
  rcases s.step_cases index i with ⟨stopped, -⟩ | ⟨-, -, gated, o, r, he⟩ | ⟨-, -, -, filing, he⟩ |
    ⟨-, -, he⟩
  · rw [prepared] at stopped
    exact absurd stopped (by simp)
  · rw [he, prepared] at passed
    obtain rfl := Stepped.next.inj passed
    exact (h.fireTimers.report (.inr rfl)).pass gated
  · rw [he] at passed
    exact absurd passed (by simp)
  · rw [he, prepared] at passed
    obtain rfl := Stepped.next.inj passed
    exact h.fireTimers.settle resolves index false

/-- A cycle that ends with a request leaves the instruction ahead. -/
theorem ask (h : s.Pace now before) {index : Nat} {request : Request}
    (asked : s.step index i = .suspended request t) : t.Pace now before := by
  have prepared := prepared_of_plain h.plain index i
  rcases s.step_cases index i with ⟨-, -, he⟩ | ⟨-, -, -, o, r, he⟩ | ⟨-, -, -, filing, he⟩ |
    ⟨-, -, he⟩
  · rw [he] at asked
    exact absurd asked (by simp)
  · rw [he] at asked
    exact absurd asked (by simp)
  · rw [he, prepared] at asked
    obtain ⟨-, rfl⟩ := Stepped.suspended.inj asked
    exact h.fireTimers.of_update _ _ _ _ _ _ _ _
  · rw [he] at asked
    exact absurd asked (by simp)

end Pace

end Pace

/-! ## Runs that end -/

section Completion

variable {π γ κ : Type} [Physics π] [Gateway γ] [Coordinator κ]

omit [Physics π] [Gateway γ] [Coordinator κ] in
theorem halt_status (s : Session π γ κ) : s.halt.status ≠ .running := by
  show (if s.diagnostics.hasErrors then Status.haltedError else .haltedSuccess) ≠ .running
  split <;> simp

omit [Physics π] [Gateway γ] [Coordinator κ] in
/-- The end of a run changes its status only. -/
theorem SameCourse.halt {s t : Session π γ κ} (course : s.SameCourse t) :
    t.halt.program = s.program ∧ t.halt.settings = s.settings ∧ t.halt.suspension = s.suspension :=
  ⟨course.program, course.settings, course.suspension⟩

/-- **A drive ends**, or waits for an instruction that it has come to. -/
theorem Drives.ends {s t : Session π γ κ} {rest : List Instruction} {trace : Trace π γ κ}
    (drives : Drives rest s trace t) (ready : s.Ready rest) :
    t.status ≠ .running ∧ t.program = s.program ∧
      ∀ op, t.suspension = some op → s.position ≤ op.index ∧
      op.index < s.program.instructions.length := by
  induction drives with
  | finish s =>
    obtain ⟨program, -, suspension⟩ := s.finalScan_sameCourse.halt
    refine ⟨halt_status _, program, fun op waits => ?_⟩
    rw [suspension, ready.idle] at waits
    exact absurd waits (by simp)
  | exhaust =>
    exact ⟨halt_status _, rfl, fun op waits => absurd (ready.idle.symm.trans waits) (by simp)⟩
  | @ask s t i rest request within asked =>
    have course := s.counted.step_sameCourse s.position i
    rw [asked] at course
    refine ⟨by simp, course.program, fun op waits => ?_⟩
    obtain rfl := Option.some.inj waits
    obtain ⟨within, -⟩ := List.getElem?_eq_some_iff.1 ready.instruction
    have here : t.position = s.position := course.position
    show s.position ≤ t.position ∧ t.position < _
    omega
  | collapse within passed =>
    have course := step_next_sameCourse passed
    refine ⟨halt_status _, course.program, fun op waits => ?_⟩
    exact absurd ((course.suspension.trans ready.idle).symm.trans waits) (by simp)
  | @pass s t u i rest trace within passed mild further ih =>
    have course := step_next_sameCourse passed
    obtain ⟨ended, program, behind⟩ := ih (ready.next course)
    refine ⟨ended, program.trans course.program, fun op waits => ?_⟩
    obtain ⟨later, within⟩ := behind op waits
    have here : t.position = s.position := course.position
    have same : t.program = s.program := course.program
    have later : t.position + 1 ≤ op.index := later
    have within : op.index < t.program.instructions.length := within
    rw [same] at within
    omega

/-- What waits in a session can be answered with as many requests as instructions are left. -/
def Answerable (is : List Instruction) (fuel : Nat) (s : Session π γ κ) : Prop :=
  s.status ≠ .running ∧ s.program.instructions = is ∧
    ∀ op, s.suspension = some op → op.index < is.length ∧ is.length ≤ op.index + fuel

/-- A drive behind an instruction that waited needs one request less. -/
theorem driveAfter_answerable {s : Session π γ κ} {is : List Instruction} {index fuel : Nat}
    (running : s.status = .running) (idle : s.suspension = none)
    (program : s.program.instructions = is) (enough : is.length ≤ index + (fuel + 1)) :
    Answerable is fuel (s.driveAfter index) := by
  obtain ⟨ended, same, behind⟩ := (driven _ _).ends (ready_behind running idle index)
  refine ⟨ended, (congrArg Program.instructions same).trans program, fun op waits => ?_⟩
  obtain ⟨later, within⟩ := behind op waits
  have later : index + 1 ≤ op.index := later
  have within : op.index < s.program.instructions.length := within
  rw [program] at within
  omega

/-- **Nothing waits at the end of a run to completion.** -/
theorem answerAll_ends (decide : List Request → Request → Decision) {is : List Instruction}
    (fuel : Nat) (asked : List Request) {s : Session π γ κ} (h : Answerable is fuel s) :
    (answerAll decide fuel asked s).2.status ≠ .running ∧
      (answerAll decide fuel asked s).2.suspension = none := by
  induction fuel generalizing asked s with
  | zero =>
    obtain ⟨ended, -, enough⟩ := h
    rw [answerAll]
    refine ⟨ended, ?_⟩
    cases waits : s.suspension with
    | none => rfl
    | some op =>
      have := enough op waits
      omega
  | succ fuel ih =>
    obtain ⟨ended, program, enough⟩ := h
    rw [answerAll]
    cases waits : s.suspension with
    | none => exact ⟨ended, waits⟩
    | some op =>
      have enough := (enough op waits).2
      dsimp only
      apply ih
      rcases s.resume_ends op.request.id (decide asked op.request) with ⟨other, -⟩ |
        ⟨op', gateway, e, -, -, -, -, he⟩ | ⟨op', gateway, waits', -, -, -, he⟩
      · exact absurd rfl (other op waits)
      · rw [he]
        exact driveAfter_answerable (s := ({ s with gateway } : Session π γ κ).givenUp op e)
          rfl rfl program
          enough
      · rw [he]
        obtain rfl := Option.some.inj (waits.symm.trans waits')
        obtain ⟨running, idle, same⟩ := s.answered_running op gateway (decide asked op.request)
        have course := s.acted_course op gateway (decide asked op.request)
        refine driveAfter_answerable (course.status.trans running) (course.suspension.trans idle) ?_
          enough
        rw [course.program, same]
        exact program

/-- A plain run has ended or waits, and the rest of its program is enough to answer all requests. -/
theorem run_answerable (s : Session π γ κ) (program : Program) :
    Answerable program.instructions program.length (s.run program none) := by
  obtain ⟨ended, same, behind⟩ := (driven _ _).ends (s.start_ready program none)
  refine ⟨ended, congrArg Program.instructions same, fun op waits => ?_⟩
  obtain ⟨-, within⟩ := behind op waits
  exact ⟨within, Nat.le_add_left _ _⟩

end Completion

/-! ## Keeping in step -/

section Follows

variable {π γ : Type} [Physics π] [Gateway γ]

/-- How far a session is: `n` instructions have had their cycle. -/
inductive Stage (now : Nat) (is : List Instruction) (s : Session π γ Loopback) (n : Nat) : Prop
  | running (pace : s.Pace now (is.take n)) (status : s.status = .running)
      (idle : s.suspension = none) (position : s.position = n) (within : n ≤ is.length)
      (steps : s.steps = n)
  | waiting {op : Suspension} (pace : s.Pace now (is.take op.index))
      (waits : s.suspension = some op) (here : is[op.index]? = some op.instruction)
      (gated : op.instruction.opcode.operationKind.isGated = true) (behind : op.index + 1 = n)
      (steps : s.steps = n)
  | ended (status : s.status ≠ .running) (idle : s.suspension = none) (all : n = is.length)

/-- **A session that has kept in step with its program**: so far every instruction has had its
cycle, once and in order, and all went as it should. -/
structure Follows (now : Nat) (is : List Instruction) (h : List (Event π γ Loopback))
    (s : Session π γ Loopback) : Prop where
  program : s.program.instructions = is
  room : is.length ≤ s.settings.maxSteps
  fair : ∀ e ∈ h, e.Fair is
  progress : ∃ n, h.filterMap Event.cycle? = List.range n ∧ s.Stage now is n

namespace Follows

variable {now : Nat} {is : List Instruction} {h e : List (Event π γ Loopback)}
  {s t : Session π γ Loopback}

/-- A session that is under way has put as many instructions behind it as had their cycle. -/
theorem running (f : Follows now is h s) {rest : List Instruction} (ready : s.Ready rest) :
    h.filterMap Event.cycle? = List.range s.position ∧ s.Pace now (is.take s.position) ∧
      s.position ≤ is.length ∧ s.steps = s.position := by
  obtain ⟨n, cycles, stage⟩ := f.progress
  cases stage with
  | running pace _ _ position within steps =>
    subst position
    exact ⟨cycles, pace, within, steps⟩
  | waiting _ waits => exact absurd (ready.idle.symm.trans waits) (by simp)
  | ended status => exact absurd ready.running status

/-- A session that waits has given the instruction that it waits for its cycle. -/
theorem waiting (f : Follows now is h s) {op : Suspension} (waits : s.suspension = some op) :
    h.filterMap Event.cycle? = List.range (op.index + 1) ∧ s.Pace now (is.take op.index) ∧
      s.steps = op.index + 1 ∧ is[op.index]? = some op.instruction ∧
      op.instruction.opcode.operationKind.isGated = true := by
  obtain ⟨n, cycles, stage⟩ := f.progress
  cases stage with
  | waiting pace waits' here gated behind steps =>
    obtain rfl := Option.some.inj (waits.symm.trans waits')
    subst behind
    exact ⟨cycles, pace, steps, here, gated⟩
  | running _ _ idle | ended _ idle => exact absurd (idle.symm.trans waits) (by simp)

variable (resolved : Resolved is)

include resolved

/-- The instruction under way has its cycle, and the session is at its next stage. -/
theorem cycle (f : Follows now is h s) {i : Instruction} {rest : List Instruction}
    (ready : s.Ready (i :: rest)) (program : t.program = s.program)
    (settings : t.settings = s.settings) (stage : t.Stage now is (s.position + 1)) :
    Follows now is (h ++ [.cycle s.counted s.position i]) t := by
  obtain ⟨cycles, pace, -⟩ := f.running ready
  have here : is[s.position]? = some i := f.program ▸ ready.instruction
  have pace : s.counted.Pace now (is.take s.position) := pace.of_update _ _ _ _ _ _ _ _
  refine ⟨(congrArg Program.instructions program).trans f.program, settings ▸ f.room, ?_,
    s.position + 1, ?_, stage⟩
  · exact List.forall_mem_append.2 ⟨f.fair,
      List.forall_mem_singleton.2 (pace.cycle_fair resolved here)⟩
  · rw [List.filterMap_append, cycles, List.range_succ]
    rfl

theorem pass (f : Follows now is h s) {i : Instruction} {rest : List Instruction}
    (ready : s.Ready (i :: rest)) (passed : s.counted.step s.position i = .next t) :
    Follows now is (h ++ [.cycle s.counted s.position i])
      ({ t with position := t.position + 1 } : Session π γ Loopback) := by
  obtain ⟨-, pace, -, steps⟩ := f.running ready
  have here : is[s.position]? = some i := f.program ▸ ready.instruction
  obtain ⟨within, -⟩ := List.getElem?_eq_some_iff.1 here
  have pace : s.counted.Pace now (is.take s.position) := pace.of_update _ _ _ _ _ _ _ _
  have course := step_next_sameCourse passed
  have position : t.position = s.position := course.position
  have next := ready.next course
  refine f.cycle resolved ready course.program course.settings
    (.running ?_ next.running next.idle (congrArg (· + 1) position) within ?_)
  · rw [take_succ_of_getElem? here]
    exact (pace.next (resolved.resolves_at here) passed).of_update _ _ _ _ _ _ _ _
  · show t.steps = s.position + 1
    rw [← steps]
    exact course.steps

theorem ask (f : Follows now is h s) {i : Instruction} {rest : List Instruction} {request : Request}
    (ready : s.Ready (i :: rest)) (asked : s.counted.step s.position i = .suspended request t) :
    Follows now is (h ++ [.cycle s.counted s.position i])
      ({ t with status := .suspended, suspension := some ⟨request, i, t.position⟩ } :
        Session π γ Loopback) := by
  obtain ⟨-, pace, -, steps⟩ := f.running ready
  have here : is[s.position]? = some i := f.program ▸ ready.instruction
  have pace : s.counted.Pace now (is.take s.position) := pace.of_update _ _ _ _ _ _ _ _
  have asks := asks_of_suspended asked
  have position : t.position = s.position := asks.course.position
  have waits : ({ t with status := .suspended, suspension := some ⟨request, i, t.position⟩ } :
      Session π γ Loopback).suspension = some ⟨request, i, t.position⟩ := rfl
  refine f.cycle resolved ready asks.course.program asks.course.settings
    (.waiting ?_ waits ?_ asks.gated (congrArg (· + 1) position) ?_)
  · show Pace now (is.take t.position) _
    rw [position]
    exact (pace.ask asked).of_update _ _ _ _ _ _ _ _
  · show is[t.position]? = some i
    rw [position]
    exact here
  · show t.steps = s.position + 1
    rw [← steps]
    exact asks.course.steps

omit resolved in
/-- A session goes on behind the instruction that it waited for. -/
theorem goOn (f : Follows now is h s) {op : Suspension} (waits : s.suspension = some op)
    (fair : ∀ x ∈ e, x.Fair is) (silent : e.filterMap Event.cycle? = [])
    (program : t.program = s.program) (settings : t.settings = s.settings)
    (steps : t.steps = s.steps) (status : t.status = .running) (idle : t.suspension = none)
    (pace : t.Pace now (is.take op.index ++ [op.instruction])) :
    Follows now is (h ++ e) ({ t with position := op.index + 1 } : Session π γ Loopback) := by
  obtain ⟨cycles, -, counted, here, -⟩ := f.waiting waits
  obtain ⟨within, -⟩ := List.getElem?_eq_some_iff.1 here
  refine ⟨(congrArg Program.instructions program).trans f.program, settings ▸ f.room,
    List.forall_mem_append.2 ⟨f.fair, fair⟩, op.index + 1, ?_, ?_⟩
  · rw [List.filterMap_append, cycles, silent, List.append_nil]
  · refine .running ?_ status idle rfl within (steps.trans counted)
    rw [take_succ_of_getElem? here]
    exact pace.of_update _ _ _ _ _ _ _ _

/-- **Every move keeps a session in step.** -/
theorem move (f : Follows now is h s) (m : Move s e t) : Follows now is (h ++ e) t := by
  cases m with
  | pass ready within passed => exact f.pass resolved ready passed
  | ask ready within asked => exact f.ask resolved ready asked
  | exhaust ready spent =>
    obtain ⟨-, -, -, steps⟩ := f.running ready
    obtain ⟨within, -⟩ := List.getElem?_eq_some_iff.1 ready.instruction
    have room := f.room
    rw [f.program] at within
    omega
  | collapse ready fatal =>
    obtain ⟨-, pace, -⟩ := f.running ready
    exact absurd (pace.unbroken.symm.trans fatal) (by simp)
  | finish ready =>
    obtain ⟨cycles, -, within, -⟩ := f.running ready
    obtain ⟨program, settings, suspension⟩ := s.finalScan_sameCourse.halt
    have behind : is.length ≤ s.position := by
      rw [← f.program]
      exact List.drop_eq_nil_iff.1 ready.ahead
    rw [List.append_nil]
    refine ⟨(congrArg Program.instructions program).trans f.program, settings ▸ f.room,
      f.fair, is.length, ?_, .ended (halt_status _) (suspension.trans ready.idle) rfl⟩
    rw [cycles, Nat.le_antisymm within behind]
  | @answer op d gateway waits taken =>
    obtain ⟨-, pace, -, here, gated⟩ := f.waiting waits
    obtain ⟨running, idle, program⟩ := s.answered_running op gateway d
    have resolves := resolved.resolves_at here
    have course := s.acted_course op gateway d
    have answered := pace.answered op gateway d
    refine f.goOn waits ?_ rfl (course.program.trans program) ?_ ?_ (course.status.trans running)
      (course.suspension.trans idle) (answered.acted resolves gated d)
    · exact List.forall_mem_singleton.2 (pace.answer_fair resolved here gated gateway d)
    · rw [course.settings]
      cases d <;> rfl
    · rw [course.steps]
      cases d <;> rfl
  | @refuse op d e gateway waits refused =>
    rw [List.append_nil]
    obtain ⟨cycles, pace, steps, here, gated⟩ := f.waiting waits
    exact ⟨f.program, f.room, f.fair, op.index + 1, cycles,
      .waiting (pace.of_update _ _ _ _ _ _ _ _) waits here gated rfl steps⟩
  | @abandon op waits e =>
    obtain ⟨-, pace, -, here, gated⟩ := f.waiting waits
    exact f.goOn waits (by simp) rfl rfl rfl rfl rfl rfl ((pace.givenUp op e).pass gated)

theorem path (f : Follows now is h s) {g : List (Event π γ Loopback)} (p : Path s g t) :
    Follows now is (h ++ g) t := by
  induction p with
  | refl =>
    rw [List.append_nil]
    exact f
  | move before next ih =>
    rw [← List.append_assoc]
    exact ih.move resolved next

end Follows

omit [Physics π] [Gateway γ] in
/-- A fresh session is in step with a program that it starts. -/
theorem IsFresh.pace {s : Session π γ Loopback} {now : Nat} (fresh : s.IsFresh)
    (reads : s.clock.Reads now) (delays : s.delays = {})
    (lasting : now < Handle.deadline now s.settings.coherenceTime) (program : Program) :
    (s.start program none).Pace now [] where
  plain := rfl
  steady := by
    refine ⟨reads, delays, lasting, ?_⟩
    show s.tables.register.CoherentAt now
    rw [fresh]
    intro x q hq
    exact absurd hq (by simp [Register.handle?])
  unbroken := by simp [start, Diagnostics.hasFatal]
  exact := by
    show s.tables.Exact [] s.nextHandle
    rw [fresh]
    exact .empty _

/-- **A run to completion keeps in step**: every instruction has its cycle. -/
theorem follows_completion {s : Session π γ Loopback} {now : Nat} {is : List Instruction}
    (pace : (s.start ⟨is⟩ none).Pace now []) (resolved : Resolved is)
    (room : is.length ≤ s.settings.maxSteps) (decide : List Request → Request → Decision) :
    (∀ e ∈ s.completionEvents ⟨is⟩ none decide, e.Fair is) ∧
      (s.completionEvents ⟨is⟩ none decide).filterMap Event.cycle? = List.range is.length := by
  have start : Follows now is [] (s.start ⟨is⟩ none) :=
    ⟨rfl, room, by simp, 0, rfl, .running pace rfl rfl rfl (Nat.zero_le _) rfl⟩
  have path := s.path_completion ⟨is⟩ none decide
  have f := start.path resolved path
  obtain ⟨ended, idle⟩ := answerAll_ends decide is.length [] (s.run_answerable ⟨is⟩)
  obtain ⟨n, cycles, stage⟩ := f.progress
  refine ⟨f.fair, ?_⟩
  cases stage with
  | running _ status => exact absurd status ended
  | waiting _ waits => exact absurd (idle.symm.trans waits) (by simp)
  | ended _ _ all =>
    rw [← all]
    exact cycles

end Follows

end Session

end GovernedQuantum
