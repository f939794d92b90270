import GovernedQuantum.Proofs.Inference
import GovernedQuantum.Proofs.Scan
import GovernedQuantum.Proofs.Turns

/-!
# The step limit

A run to completion gives every instruction one turn, in order, however often it is interrupted: a
request is answered within the turn of the instruction that made it. It ends in one of two ways. No
instruction is left, and the tables are scanned; or as many turns were taken as are allowed, and the
next instruction is where the run is cut off. This file says so in one equation, for every session
and every program, with annotations or without, and for decisions that may depend on all requests
before.

* `Session.askingTurn`: a turn, with the requests so far. `Session.stopped`: the two ways to end.
* `Session.answerAll_drive_eq`: **what is left of a run is a turn for each instruction up to the
  limit**, and an end.
* `Session.stepped_drive_eq`: the cycles that were made are those of these instructions, once and in
  order.
* `Session.completion_within_limit`: **a run to completion ends**, and is cut off exactly where the
  program is longer than the limit.
-/

namespace GovernedQuantum

/-- The request that a step ends with. -/
def Stepped.request? {σ : Type} : Stepped σ → Option Request
  | .next _ => none
  | .suspended request _ => some request

/-- The instruction that an event is the cycle of, and where it stands. -/
def Event.stepped? {π γ κ : Type} : Event π γ κ → Option (Instruction × Nat)
  | .cycle _ index i => some (i, index)
  | .answer _ _ _ _ => none

namespace Session

variable {π γ κ : Type} {s : Session π γ κ} {i : Instruction} {rest : List Instruction}

/-- **How a run ends** that stands before an instruction, or before none. -/
def stopped (s : Session π γ κ) : Option Instruction → Session π γ κ
  | none => s.finalScan.halt
  | some i => (s.counted.record (.stepLimit s.settings.maxSteps) i.location).halt

/-- A session under way that nothing has stopped. -/
structure Unbroken (s : Session π γ κ) (rest : List Instruction) : Prop where
  ready : s.Ready rest
  mild : s.diagnostics.hasFatal = false

/-- A run begins with a warning at most. -/
theorem start_unbroken (s : Session π γ κ) (program : Program)
    (annotations : Option (List InferredType)) :
    (s.start program annotations).Unbroken program.instructions := by
  refine ⟨s.start_ready program annotations, ?_⟩
  unfold start
  dsimp only
  split
  · simp [Diagnostics.hasFatal]
  · split
    · simp [Diagnostics.hasFatal]
    · exact Diagnostics.hasFatal_push (by simp [Diagnostics.hasFatal]) (.inl rfl)

theorem start_counts (s : Session π γ κ) (program : Program)
    (annotations : Option (List InferredType)) :
    (s.start program annotations).steps = 0 ∧ (s.start program annotations).position = 0 ∧
      (s.start program annotations).settings = s.settings := by
  unfold start
  dsimp only
  split
  · exact ⟨rfl, rfl, rfl⟩
  · split <;> exact ⟨rfl, rfl, rfl⟩

/-- Nothing waits in a run that has ended. -/
theorem stopped_ends (idle : s.suspension = none) (next : Option Instruction) :
    (s.stopped next).suspension = none ∧ (s.stopped next).status ≠ .running := by
  cases next with
  | none => exact ⟨s.finalScan_sameCourse.halt.2.2.trans idle, halt_status _⟩
  | some i => exact ⟨idle, halt_status _⟩

/-! ## Findings of the two ends -/

/-- The scan says nothing about steps. -/
theorem stepLimit_not_mem_scanned (s : Session π γ κ) (n : Nat) (l : Location) :
    (Fault.stepLimit n).diagnostic l ∉ s.scanned := by
  intro found
  have category : ((Fault.stepLimit n).diagnostic l).category = .execution := rfl
  rcases List.mem_append.1 found with leak | defect
  · obtain ⟨name, -, same⟩ := List.mem_map.1 leak
    rw [← same] at category
    exact absurd category (by simp [Fault.diagnostic, Fault.category])
  · obtain ⟨group, -, same⟩ := List.mem_map.1 defect
    rw [← same] at category
    exact absurd category (by simp [Fault.diagnostic, Fault.category])

/-- **The limit is reported exactly where the run is cut off.** -/
theorem stepLimit_mem_stopped_iff (mild : s.diagnostics.hasFatal = false)
    (next : Option Instruction) (n : Nat) (l : Location) :
    (Fault.stepLimit n).diagnostic l ∈ (s.stopped next).diagnostics.errors ↔
      ∃ i, next = some i ∧
        (Fault.stepLimit n).diagnostic l =
          (Fault.stepLimit s.settings.maxSteps).diagnostic i.location := by
  have new : (Fault.stepLimit n).diagnostic l ∉ s.diagnostics.errors := by
    intro old
    rw [Diagnostics.hasFatal, Array.any_eq_false'] at mild
    exact mild _ old rfl
  cases next with
  | none =>
    refine iff_of_false ?_ (by simp)
    show _ ∉ s.finalScan.diagnostics.errors
    rw [finalScan_eq, ← Array.mem_toList_iff, Diagnostics.errors_pushAll, List.mem_append,
      List.mem_filter]
    rintro (old | ⟨found, -⟩)
    · exact new (Array.mem_toList_iff.1 old)
    · exact stepLimit_not_mem_scanned _ n l found
  | some i =>
    have pushed : (s.stopped (some i)).diagnostics.errors =
        s.diagnostics.errors.push
        ((Fault.stepLimit s.settings.maxSteps).diagnostic i.location) := rfl
    rw [pushed, Array.mem_push, or_iff_right new]
    simp

/-! ## Turns that remember requests -/

variable [Physics π] [Gateway γ] [Coordinator κ] (decide : List Request → Request → Decision)

/-- **A turn, with the requests so far**, the newest first: decisions may depend on them. -/
def askingTurn (x : List Request × Session π γ κ) (i : Instruction) :
    List Request × Session π γ κ :=
  ((x.2.counted.step x.2.position i).request?.toList ++ x.1, x.2.turn (decide x.1) i)

theorem Unbroken.turn (h : s.Unbroken (i :: rest)) (d : Request → Decision) :
    (s.turn d i).Unbroken rest :=
  ⟨turn_ready d h.ready, (turn_gains d s i).hasFatal h.mild⟩

/-- A turn makes one request at most. -/
theorem length_askingTurns (is : List Instruction) (x : List Request × Session π γ κ) :
    (is.foldl (askingTurn decide) x).1.length ≤ x.1.length + is.length := by
  induction is generalizing x with
  | nil => exact Nat.le_refl _
  | cons i rest ih =>
    have one : (askingTurn decide x i).1.length ≤ x.1.length + 1 := by
      rw [askingTurn, List.length_append]
      cases (x.2.counted.step x.2.position i).request? with
      | none => simp
      | some request => simp [Nat.add_comm]
    have more := ih (askingTurn decide x i)
    rw [List.foldl_cons, List.length_cons]
    omega

/-- Nothing stops a session in its turns. -/
theorem Unbroken.turns (h : s.Unbroken rest) (asked : List Request) (k : Nat) :
    ((rest.take k).foldl (askingTurn decide) (asked, s)).2.Unbroken (rest.drop k) ∧
      ((rest.take k).foldl (askingTurn decide) (asked, s)).2.settings = s.settings := by
  induction rest generalizing s asked k with
  | nil => rw [List.take_nil, List.drop_nil]; exact ⟨h, rfl⟩
  | cons i rest ih =>
    cases k with
    | zero => exact ⟨h, rfl⟩
    | succ k =>
      have course := turn_course (decide asked) h.ready.running h.ready.idle i
      obtain ⟨unbroken, settings⟩ :=
        ih (h.turn (decide asked)) (askingTurn decide (asked, s) i).1 k
      exact ⟨unbroken, settings.trans course.settings⟩

/-! ## The rest of a run -/

theorem drive_nil (s : Session π γ κ) : drive [] s = s.stopped none := rfl

theorem drive_of_spent (spent : s.settings.maxSteps < s.steps + 1) :
    drive (i :: rest) s = s.stopped (some i) := by
  rw [drive_cons, if_pos spent]
  rfl

theorem answerAllEvents_of_idle (fuel : Nat) (asked : List Request) (idle : s.suspension = none) :
    answerAllEvents decide fuel asked s = [] := by
  cases fuel with
  | zero => rfl
  | succ fuel => rw [answerAllEvents, idle]

/-- The cycles when all requests are answered are those behind what is waited for: an answer makes
none. -/
theorem stepped_of_waits {op : Suspension} (waits : s.suspension = some op) (fuel : Nat)
    (asked : List Request) :
    (answerAllEvents decide (fuel + 1) asked s).filterMap Event.stepped? =
      ((heard (decide asked) s op).driveAfterEvents op.index ++
        answerAllEvents decide fuel (op.request :: asked)
          ((heard (decide asked) s op).driveAfter op.index)).filterMap Event.stepped? := by
  rw [answerAllEvents, waits, heard]
  dsimp only
  rcases answer : Gateway.answer s.gateway op.request.id (decide asked op.request) with
      ⟨⟨e⟩ | ⟨⟩, gateway⟩
  · rw [resume_of_refused waits answer]
    rfl
  · have traced : s.trace (.resume op.request.id (decide asked op.request)) =
        .cons (.answer s op gateway (decide asked op.request))
          (((s.answered op gateway (decide asked op.request)).acted op
            (decide asked op.request)).driveAfterTrace op.index) := by
      rw [trace, waits]
      dsimp only
      rw [if_neg (not_not.2 rfl), answer]
    rw [resume_of_taken waits answer, resumeEvents, traced]
    rfl

/-- **What is left of a run begins with the turn of its first instruction**, whether that makes a
request or not. -/
theorem answerAll_drive_cons (h : s.Unbroken (i :: rest))
    (within : ¬ s.settings.maxSteps < s.steps + 1) {fuel : Nat} (enough : (i :: rest).length ≤ fuel)
    (asked : List Request) :
    ∃ left, rest.length ≤ left ∧
      answerAll decide fuel asked (drive (i :: rest) s) =
        answerAll decide left (askingTurn decide (asked, s) i).1
          (drive rest (askingTurn decide (asked, s) i).2) ∧
      (driveEvents (i :: rest) s ++
          answerAllEvents decide fuel asked (drive (i :: rest) s)).filterMap Event.stepped? =
        (i, s.position) ::
          (driveEvents rest (askingTurn decide (asked, s) i).2 ++
            answerAllEvents decide left (askingTurn decide (asked, s) i).1
              (drive rest (askingTurn decide (asked, s) i).2)).filterMap Event.stepped? := by
  have next := h.turn (decide asked)
  rw [drive_cons, driveEvents_cons within, if_neg within, askingTurn]
  dsimp only
  cases stepped : s.counted.step s.position i with
  | next t =>
    have same := turn_of_next (decide asked) stepped
    have mild := next.mild
    rw [same] at mild
    dsimp only [proceed]
    rw [if_neg (Bool.eq_false_iff.1 mild), if_neg (Bool.eq_false_iff.1 mild), ← same]
    exact ⟨fuel, Nat.le_of_succ_le enough, rfl, rfl⟩
  | suspended request t =>
    cases fuel with
    | zero => exact absurd enough (Nat.not_succ_le_zero _)
    | succ fuel =>
      have same := turn_of_suspended (decide asked) stepped
      -- what is left of the program behind the instruction that waits
      have ahead := next.ready.ahead
      rw [same] at ahead
      refine ⟨fuel, Nat.le_of_succ_le_succ enough, ?_, ?_⟩
      · rw [proceed, answerAll_of_waits decide rfl, driveAfter, same]
        exact congrArg (fun is => answerAll decide fuel _ (drive is _)) ahead
      · have first : Event.stepped? (.cycle s.counted s.position i) = some (i, s.position) := rfl
        rw [proceed, List.cons_append, List.nil_append, List.filterMap_cons_some first,
          stepped_of_waits decide rfl, driveAfter, driveAfterEvents, same]
        exact congrArg (fun is => (i, s.position) ::
          (driveEvents is _ ++ answerAllEvents decide fuel _ (drive is _) :
            List (Event π γ κ)).filterMap Event.stepped?) ahead

/-- The turns that are left, after one. -/
theorem Unbroken.room_turn (h : s.Unbroken (i :: rest))
    (within : ¬ s.settings.maxSteps < s.steps + 1) (d : Request → Decision) :
    s.settings.maxSteps - s.steps = (s.turn d i).settings.maxSteps - (s.turn d i).steps + 1 := by
  have course := turn_course d h.ready.running h.ready.idle i
  rw [course.settings, course.steps]
  show s.settings.maxSteps - s.steps = s.settings.maxSteps - (s.steps + 1) + 1
  omega

/-- **What is left of a run**: a turn for each instruction up to the limit, and an end. -/
theorem answerAll_drive_eq (h : s.Unbroken rest) {fuel : Nat} (enough : rest.length ≤ fuel)
    (asked : List Request) :
    answerAll decide fuel asked (drive rest s) =
      (((rest.take (s.settings.maxSteps - s.steps)).foldl (askingTurn decide) (asked, s)).1,
        ((rest.take (s.settings.maxSteps - s.steps)).foldl (askingTurn decide) (asked, s)).2.stopped
          rest[s.settings.maxSteps - s.steps]?) := by
  induction rest generalizing s fuel asked with
  | nil =>
    rw [List.take_nil, List.getElem?_nil, drive_nil]
    exact answerAll_of_idle decide fuel asked (stopped_ends h.ready.idle none).1
  | cons i rest ih =>
    by_cases spent : s.settings.maxSteps < s.steps + 1
    · have room : s.settings.maxSteps - s.steps = 0 := by omega
      rw [drive_of_spent spent, room]
      exact answerAll_of_idle decide fuel asked (stopped_ends h.ready.idle (some i)).1
    · obtain ⟨left, enough, same, -⟩ := answerAll_drive_cons decide h spent enough asked
      rw [same, h.room_turn spent (decide asked), List.take_succ_cons, List.foldl_cons,
        List.getElem?_cons_succ]
      exact ih (h.turn (decide asked)) enough _

/-- **Its cycles**: those of the instructions up to the limit, each once and in order. -/
theorem stepped_drive_eq (h : s.Unbroken rest) {fuel : Nat} (enough : rest.length ≤ fuel)
    (asked : List Request) :
    (driveEvents rest s ++ answerAllEvents decide fuel asked (drive rest s)).filterMap
      Event.stepped? =
      (rest.take (s.settings.maxSteps - s.steps)).zipIdx s.position := by
  induction rest generalizing s fuel asked with
  | nil =>
    rw [List.take_nil, show driveEvents [] s = [] from rfl, List.nil_append, drive_nil,
      answerAllEvents_of_idle decide fuel asked (stopped_ends h.ready.idle none).1]
    rfl
  | cons i rest ih =>
    by_cases spent : s.settings.maxSteps < s.steps + 1
    · have room : s.settings.maxSteps - s.steps = 0 := by omega
      have none : driveEvents (i :: rest) s = [] := congrArg Trace.events (if_pos spent)
      rw [drive_of_spent spent, room, none,
        answerAllEvents_of_idle decide fuel asked (stopped_ends h.ready.idle (some i)).1]
      rfl
    · obtain ⟨left, enough, -, same⟩ := answerAll_drive_cons decide h spent enough asked
      have here := (turn_course (decide asked) h.ready.running h.ready.idle i).position
      rw [same, h.room_turn spent (decide asked), List.take_succ_cons, List.zipIdx_cons]
      exact congrArg _ ((ih (h.turn (decide asked)) enough _).trans (by rw [here]))

/-! ## Runs to completion -/

/-- **A run to completion ends, after one turn for each instruction up to the limit.**

The instructions are stepped in order and once each, whatever is asked and answered in between, so
no more requests are made than there are instructions, and to allow for more answers changes
nothing. The limit is reported just if the program is longer than it, at the first instruction that
had no turn; then the run is cut off there, and else the tables are scanned. -/
theorem completion_within_limit (s : Session π γ κ) (program : Program)
    (annotations : Option (List InferredType)) :
    let is := program.instructions
    let limit := s.settings.maxSteps
    let x := (is.take limit).foldl (askingTurn decide) ([], s.start program annotations)
    let final := (s.runToCompletion program annotations decide).2
    s.runToCompletion program annotations decide = (x.1.reverse, x.2.stopped is[limit]?) ∧
      (∀ fuel, is.length ≤ fuel →
        answerAll decide fuel [] (s.run program annotations) = (x.1, x.2.stopped is[limit]?)) ∧
      final.suspension = none ∧ final.status ≠ .running ∧
      (s.runToCompletion program annotations decide).1.length ≤ is.length ∧
      (s.completionEvents program annotations decide).filterMap Event.stepped? =
        (is.take limit).zipIdx ∧
      ((∃ n l, (Fault.stepLimit n).diagnostic l ∈ final.diagnostics.errors) ↔ limit < is.length) ∧
      ∀ n l, (Fault.stepLimit n).diagnostic l ∈ final.diagnostics.errors →
        ∃ i, is[limit]? = some i ∧
          (Fault.stepLimit n).diagnostic l = (Fault.stepLimit limit).diagnostic i.location := by
  intro is limit x final
  have unbroken := s.start_unbroken program annotations
  obtain ⟨steps, position, settings⟩ := s.start_counts program annotations
  have room :
      (s.start program annotations).settings.maxSteps - (s.start program annotations).steps =
        limit := by
    rw [steps, settings, Nat.sub_zero]
  have ends : ∀ fuel, is.length ≤ fuel →
      answerAll decide fuel [] (s.run program annotations) = (x.1, x.2.stopped is[limit]?) := by
    intro fuel enough
    have closed := answerAll_drive_eq decide unbroken enough []
    rwa [room] at closed
  have whole :
      s.runToCompletion program annotations decide = (x.1.reverse, x.2.stopped is[limit]?) := by
    rw [runToCompletion, ends program.length (Nat.le_refl _)]
  have last : final = x.2.stopped is[limit]? := congrArg Prod.snd whole
  obtain ⟨stands, kept⟩ := unbroken.turns decide [] limit
  have reported : ∀ n l, (Fault.stepLimit n).diagnostic l ∈ final.diagnostics.errors ↔ ∃ i,
      is[limit]? = some i ∧
        (Fault.stepLimit n).diagnostic l = (Fault.stepLimit limit).diagnostic i.location := by
    intro n l
    have settled : x.2.settings = s.settings := kept.trans settings
    rw [last, stepLimit_mem_stopped_iff stands.mild, settled]
  have ended := stopped_ends stands.ready.idle is[limit]?
  rw [← last] at ended
  have few : x.1.length ≤ (is.take limit).length :=
    (length_askingTurns decide _ _).trans (Nat.le_of_eq (Nat.zero_add _))
  have stepped := stepped_drive_eq decide unbroken (Nat.le_refl _) []
  rw [room, position] at stepped
  refine ⟨whole, ends, ended.1, ended.2, ?_, stepped, ⟨?_, ?_⟩, fun n l => (reported n l).1⟩
  · rw [whole, List.length_reverse]
    exact few.trans (List.length_take_le' limit is)
  · rintro ⟨n, l, found⟩
    obtain ⟨i, here, -⟩ := (reported n l).1 found
    exact (List.getElem?_eq_some_iff.1 here).1
  · intro longer
    exact ⟨limit, _, (reported _ _).2 ⟨_, List.getElem?_eq_getElem longer, rfl⟩⟩

/-- Two decisions that a human has to take, and a line behind them. -/
def interrupted : Program where
  instructions := [⟨.declareContract, ["m"], ⟨1, 1⟩⟩, ⟨.setExplainability, ["m", "0.5"], ⟨2, 1⟩⟩,
    ⟨.setOversight, ["m", "approval"], ⟨3, 1⟩⟩, ⟨.decide, ["m", "go"], ⟨4, 1⟩⟩,
    ⟨.decide, ["m", "stop"], ⟨5, 1⟩⟩, ⟨.print, ["m"], ⟨6, 1⟩⟩]

/-- Both decisions have their turn, the second against the human's will, and the run is cut off
before the line. -/
theorem completion_within_limit_interrupted :
    let s := Session.standard 1 { maxSteps := 5 }
    let decide : List Request → Request → Decision :=
      fun asked _ => if asked.isEmpty then .approve else .reject
    let final := (s.runToCompletion interrupted none decide).2
    (s.runToCompletion interrupted none decide).1.length = 2 ∧
      (s.completionEvents interrupted none decide).filterMap Event.stepped? =
        (interrupted.instructions.take 5).zipIdx ∧
      (∃ n l, (Fault.stepLimit n).diagnostic l ∈ final.diagnostics.errors) ∧
      (∀ n l, (Fault.stepLimit n).diagnostic l ∈ final.diagnostics.errors → l = ⟨6, 1⟩) ∧
      answerAll decide 9 [] (s.run interrupted none) =
        answerAll decide 6 [] (s.run interrupted none) := by
  intro s decide final
  obtain ⟨-, ends, -, -, -, stepped, reported, placed⟩ :=
    completion_within_limit decide s interrupted none
  refine ⟨by decide +kernel, stepped, reported.2 (by decide), fun n l found => ?_, ?_⟩
  · obtain ⟨i, here, same⟩ := placed n l found
    obtain rfl : ⟨.print, ["m"], ⟨6, 1⟩⟩ = i := Option.some.inj here
    exact congrArg Diagnostic.location same
  · exact (ends 9 (by decide)).trans (ends 6 (by decide)).symm

end Session

end GovernedQuantum
