import GovernedQuantum.Proofs.BareRuns
import GovernedQuantum.Proofs.GroupConsistency

/-!
# Runs as turns

A run to completion is interrupted by requests, and each answer drives the rest of the program.
Where requests are decided by themselves, nothing of this is left at the end: every instruction has
had its turn, in which its request, if it made one, was answered at once.

* `Session.turn`: one instruction, from its deadlines to the answer of its request.
* `Session.turn_path`: a turn is made of moves, so laws that moves keep hold after every turn.
* `Session.completion_eq`: **a run to completion takes one turn after another, and scans.**
-/

namespace GovernedQuantum

/-- Minor findings stop nothing. -/
theorem Diagnostics.Gains.hasFatal {i : Instruction} {ds more : Diagnostics}
    (h : Gains i.Minor ds more) (mild : ds.hasFatal = false) : more.hasFatal = false := by
  rw [Diagnostics.hasFatal, Array.any_eq_false'] at mild ⊢
  intro d hd
  rcases h.of_mem_errors hd with old | ⟨error, minor⟩
  · exact mild d old
  · rcases minor with warning | ⟨-, quiet⟩
    · exact absurd (error.symm.trans warning) (by simp)
    · simp [quiet]

namespace Session

variable {π γ κ : Type} [Physics π] [Gateway γ] [Coordinator κ] {s : Session π γ κ}
  {i : Instruction}
  {rest : List Instruction}

/-! ## Turns -/

/-- What becomes of a request: its answer is taken and acted on, or it is refused and what waits is
given up. -/
def heard (decide : Request → Decision) (s : Session π γ κ) (op : Suspension) : Session π γ κ :=
  match Gateway.answer s.gateway op.request.id (decide op.request) with
  | (.ok (), gateway) => (s.answered op gateway (decide op.request)).acted op (decide op.request)
  | (.error e, gateway) => ({ s with gateway } : Session π γ κ).givenUp op e

/-- What becomes of a step when its request is answered at once. -/
def concluded (decide : Request → Decision) (i : Instruction) :
    Stepped (Session π γ κ) → Session π γ κ
  | .next s => s
  | .suspended request s =>
    heard decide { s with status := .suspended, suspension := some ⟨request, i, s.position⟩ }
      ⟨request, i, s.position⟩

/-- **The turn of an instruction**: its cycle, and the answer to its request. -/
def turn (decide : Request → Decision) (s : Session π γ κ) (i : Instruction) : Session π γ κ :=
  { concluded decide i (s.counted.step s.position i) with position := s.position + 1 }

variable (decide : Request → Decision)

/-- Without annotations nothing stands before the gate. -/
theorem turn_of_plain (plain : s.annotations = none) (i : Instruction) :
    s.turn decide i =
      { concluded decide i (s.counted.fireTimers.dispatch s.position i) with
        position := s.position + 1 } := by
  have prepared := prepared_of_plain (s := s.counted) plain s.position i
  have passed : (s.counted.prepared s.position i).1 = true := by rw [prepared]
  rw [turn, step_of_prepared passed, prepared]

/-- The answer is the gateway's affair; the session is under way again in any case. -/
theorem heard_course (s : Session π γ κ) (op : Suspension) :
    SameCourse { s with status := .running, suspension := none } (heard decide s op) := by
  unfold heard
  split
  · rename_i gateway _
    have course := s.acted_course op gateway (decide op.request)
    have answered : SameCourse { s with status := .running, suspension := none }
        (s.answered op gateway (decide op.request)) := by
      cases decide op.request <;> exact ⟨rfl, rfl, rfl, rfl, rfl, rfl, rfl, rfl, rfl, rfl⟩
    exact answered.trans course
  · exact ⟨rfl, rfl, rfl, rfl, rfl, rfl, rfl, rfl, rfl, rfl⟩

/-- A session under way is so after the turn, at the next instruction. -/
theorem turn_course (running : s.status = .running) (idle : s.suspension = none) (i : Instruction) :
    SameCourse { s with steps := s.steps + 1, position := s.position + 1 } (s.turn decide i) := by
  have course := s.counted.step_sameCourse s.position i
  have same : s.counted.SameCourse (concluded decide i (s.counted.step s.position i)) := by
    cases stepped : s.counted.step s.position i with
    | next t =>
      rw [stepped] at course
      exact course
    | suspended request t =>
      rw [stepped] at course
      have again : s.counted.SameCourse { t with status := .running, suspension := none } :=
        { course with status := running.symm, suspension := idle.symm }
      exact again.trans (heard_course decide { t with status := .suspended, suspension := _ } _)
  exact { same with position := rfl }

theorem turn_ready (ready : s.Ready (i :: rest)) : (s.turn decide i).Ready rest := by
  have course := turn_course decide ready.running ready.idle i
  have ahead := congrArg List.tail ready.ahead
  rw [List.tail_drop] at ahead
  exact
    { running := course.status.trans ready.running
      idle := course.suspension.trans ready.idle
      ahead := by rw [course.program, course.position]; exact ahead }

/-- **A turn is made of moves.** -/
theorem turn_path (ready : s.Ready (i :: rest)) (within : ¬ s.settings.maxSteps < s.steps + 1) :
    ∃ h, Path s h (s.turn decide i) := by
  unfold turn
  cases stepped : s.counted.step s.position i with
  | next t =>
    have here : t.position = s.position := (step_next_sameCourse stepped).position
    have moved : Path s [.cycle s.counted s.position i] _ := .single (.pass ready within stepped)
    rw [here] at moved
    exact ⟨_, moved⟩
  | suspended request t =>
    have here : t.position = s.position := (asks_of_suspended stepped).course.position
    have asked : Path s [.cycle s.counted s.position i] _ := .single (.ask ready within stepped)
    dsimp only [concluded]
    rw [here] at asked ⊢
    unfold heard
    split
    · rename_i gateway taken
      exact ⟨_, asked.trans (.single (.answer rfl taken))⟩
    · rename_i e gateway refused
      exact ⟨_, (asked.trans (.single (.refuse rfl refused))).trans (.single (.abandon rfl e))⟩

theorem heard_gains (s : Session π γ κ) (op : Suspension) :
    Diagnostics.Gains op.instruction.Minor s.diagnostics (heard decide s op).diagnostics := by
  unfold heard
  split
  · exact s.acted_gains op _ _
  · exact givenUp_gains _ op _

/-- All that a turn reports is minor. -/
theorem turn_gains (s : Session π γ κ) (i : Instruction) :
    Diagnostics.Gains i.Minor s.diagnostics (s.turn decide i).diagnostics := by
  have gains := s.counted.step_gains s.position i
  show Diagnostics.Gains i.Minor _ (concluded decide i (s.counted.step s.position i)).diagnostics
  cases stepped : s.counted.step s.position i with
  | next t =>
    rw [stepped] at gains
    exact gains
  | suspended request t =>
    rw [stepped] at gains
    exact gains.trans
      (heard_gains decide { t with status := .suspended, suspension := _ } ⟨request, i, t.position⟩)

/-! ## Runs -/

/-- A session with no more steps to take than it may. -/
structure Roomy (s : Session π γ κ) (rest : List Instruction) : Prop where
  ready : s.Ready rest
  room : s.steps + rest.length ≤ s.settings.maxSteps
  mild : s.diagnostics.hasFatal = false

namespace Roomy

omit [Physics π] [Gateway γ] [Coordinator κ] in
theorem within (h : s.Roomy (i :: rest)) : ¬ s.settings.maxSteps < s.steps + 1 := by
  have room := h.room
  rw [List.length_cons] at room
  omega

omit [Physics π] [Gateway γ] [Coordinator κ] in
theorem start (s : Session π γ κ) {program : Program}
    (room : program.length ≤ s.settings.maxSteps) :
    (s.start program none).Roomy program.instructions :=
  ⟨s.start_ready program none,
    (Nat.zero_add _).symm ▸ room, by simp [Session.start, Diagnostics.hasFatal]⟩

theorem turn (h : s.Roomy (i :: rest)) : (s.turn decide i).Roomy rest := by
  have course := turn_course decide h.ready.running h.ready.idle i
  refine ⟨turn_ready decide h.ready, ?_, (turn_gains decide s i).hasFatal h.mild⟩
  have room := h.room
  rw [List.length_cons] at room
  rw [course.steps, course.settings]
  show s.steps + 1 + rest.length ≤ s.settings.maxSteps
  omega

theorem settings (h : s.Roomy rest) :
    (rest.foldl (Session.turn decide) s).settings = s.settings := by
  induction rest generalizing s with
  | nil => rfl
  | cons i rest ih =>
    have course := turn_course decide h.ready.running h.ready.idle i
    exact (ih (h.turn decide)).trans course.settings

/-- Laws that moves keep hold after any number of turns. -/
theorem kept {P : Session π γ κ → Prop} (hP : Kept P) (h : s.Roomy rest) (hs : P s) :
    P (rest.foldl (Session.turn decide) s) := by
  induction rest generalizing s with
  | nil => exact hs
  | cons i rest ih =>
    obtain ⟨_, path⟩ := turn_path decide h.ready h.within
    exact ih (h.turn decide) (hP.path hs path)

end Roomy

/-- A session that waits for nothing is left as it is. -/
theorem answerAll_of_idle (decide : List Request → Request → Decision) (fuel : Nat)
    (asked : List Request) (idle : s.suspension = none) :
    answerAll decide fuel asked s = (asked, s) := by
  cases fuel with
  | zero => rfl
  | succ fuel => rw [answerAll, idle]

/-- A session that waits goes on behind what it waits for. -/
theorem answerAll_of_waits (decide : List Request → Request → Decision) {op : Suspension}
    (waits : s.suspension = some op) (fuel : Nat) (asked : List Request) :
    answerAll decide (fuel + 1) asked s =
      answerAll decide fuel (op.request :: asked)
        ((heard (decide asked) s op).driveAfter op.index) := by
  rw [answerAll, waits, heard]
  dsimp only
  rcases answer : Gateway.answer s.gateway op.request.id (decide asked op.request) with
      ⟨⟨e⟩ | ⟨⟩, gateway⟩
  · rw [resume_of_refused waits answer]
    rfl
  · rw [resume_of_taken waits answer]

/-- A step without a request is the whole turn. -/
theorem turn_of_next {t : Session π γ κ} (stepped : s.counted.step s.position i = .next t) :
    s.turn decide i = { t with position := t.position + 1 } := by
  have here : t.position = s.position := (step_next_sameCourse stepped).position
  rw [turn, stepped, here]
  rfl

/-- The answer to its request ends the turn of a step that made one. -/
theorem turn_of_suspended {request : Request} {t : Session π γ κ}
    (stepped : s.counted.step s.position i = .suspended request t) :
    s.turn decide i =
      { heard decide { t with status := .suspended, suspension := some ⟨request, i, t.position⟩ }
          ⟨request, i, t.position⟩ with position := t.position + 1 } := by
  have here : t.position = s.position := (asks_of_suspended stepped).course.position
  rw [turn, stepped, ← here]
  rfl

/-- **The rest of a run is taken turn by turn**, and then scanned. -/
theorem answerAll_drive (h : s.Roomy rest) {fuel : Nat} (enough : rest.length ≤ fuel)
    (asked : List Request) :
    (answerAll (fun _ r => decide r) fuel asked (drive rest s)).2 =
      (rest.foldl (turn decide) s).finalScan.halt := by
  induction rest generalizing s fuel asked with
  | nil =>
    have scanned : s.finalScan.suspension = none :=
      s.finalScan_sameCourse.suspension.trans h.ready.idle
    have idle : s.finalScan.halt.suspension = none := by rw [halt]; exact scanned
    exact congrArg Prod.snd (answerAll_of_idle _ fuel asked idle)
  | cons i rest ih =>
    have next := h.turn decide
    rw [List.foldl_cons, drive_cons, if_neg h.within]
    cases stepped : s.counted.step s.position i with
    | next t =>
      have same := turn_of_next decide stepped
      have mild := next.mild
      rw [same] at mild
      rw [proceed, if_neg (Bool.eq_false_iff.1 mild), ← same]
      exact ih next (Nat.le_of_succ_le enough) asked
    | suspended request t =>
      cases fuel with
      | zero => exact absurd enough (Nat.not_succ_le_zero _)
      | succ fuel =>
        have same := turn_of_suspended decide stepped
        -- what is left of the program behind the instruction that waits
        have ahead := next.ready.ahead
        rw [same] at next ahead
        rw [proceed, answerAll_of_waits _ rfl, driveAfter, same,
          ← ih next (Nat.le_of_succ_le_succ enough)]
        exact congrArg (fun is => (answerAll _ fuel _ (drive is _)).2) ahead

/-- **A run to completion takes one turn after another, and scans.** -/
theorem completion_eq (s : Session π γ κ) {program : Program}
    (room : program.length ≤ s.settings.maxSteps) :
    (s.runToCompletion program none fun _ r => decide r).2 =
      (program.instructions.foldl (turn decide) (s.start program none)).finalScan.halt :=
  answerAll_drive decide (.start s room) (Nat.le_refl _) []

end Session

end GovernedQuantum
