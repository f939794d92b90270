import GovernedQuantum.Proofs.Desk
import GovernedQuantum.Proofs.Traces

/-!
# The history of a session

A call makes many events. It is cut here into moves that make at most one, so that a law about
histories is proved move by move. Calls follow one another, and between them things change that are
not the session's own. Which calls come, what may change and what is written down are the terms of a
history; the induction over it is the same on all terms.

* `Session.Move`, `Session.Path`: single moves within a run, and any number of them.
* `Session.path_serve`: **calls are made of moves.**
* `Session.Terms`, `Session.History`: what becomes of a session on given terms.
* `Session.Law.history`: **a law that the moves keep holds for life.**
* `Session.Lives`: a life with all its events. `Session.Evolves`: one with the instructions that
  took effect in it. `Session.Stable.evolves`: stable laws hold for life.
-/

namespace GovernedQuantum.Session

variable {π γ κ : Type} [Physics π] [Gateway γ] [Coordinator κ]

/-! ## Moves -/

section

omit [Physics π] [Gateway γ] [Coordinator κ]

/-- A session under way, with the instructions `rest` ahead of it. -/
structure Ready (s : Session π γ κ) (rest : List Instruction) : Prop where
  running : s.status = .running
  idle : s.suspension = none
  ahead : s.program.instructions.drop s.position = rest

theorem start_ready (s : Session π γ κ) (program : Program)
    (annotations : Option (List InferredType)) :
    (s.start program annotations).Ready program.instructions := by
  unfold start
  dsimp only
  split
  · exact ⟨rfl, rfl, rfl⟩
  · split <;> exact ⟨rfl, rfl, rfl⟩

theorem start_sameDesk (s : Session π γ κ) (program : Program)
    (annotations : Option (List InferredType)) : s.SameDesk (s.start program annotations) := by
  unfold start
  dsimp only
  split
  · exact ⟨rfl, rfl⟩
  · split <;> exact ⟨rfl, rfl⟩

/-- The instruction under way is the one at the session's position. -/
theorem Ready.instruction {s : Session π γ κ} {i : Instruction} {rest : List Instruction}
    (h : s.Ready (i :: rest)) : s.program.instructions[s.position]? = some i := by
  rw [← List.head?_drop, h.ahead]
  rfl

theorem Ready.next {s t : Session π γ κ} {i : Instruction} {rest : List Instruction}
    (h : s.Ready (i :: rest)) (same : s.counted.SameCourse t) :
    ({ t with position := t.position + 1 } : Session π γ κ).Ready rest where
  running := same.status.trans h.running
  idle := same.suspension.trans h.idle
  ahead := by
    show t.program.instructions.drop (t.position + 1) = rest
    rw [same.program, same.position, ← List.tail_drop]
    exact congrArg List.tail h.ahead

/-- A session that is under way again behind the instruction at `index`. -/
theorem ready_behind {s : Session π γ κ} (running : s.status = .running)
    (idle : s.suspension = none) (index : Nat) :
    ({ s with position := index + 1 } : Session π γ κ).Ready
      (s.program.instructions.drop (index + 1)) :=
  ⟨running, idle, rfl⟩

end

/-- **One move within a run**, with the events it makes. -/
inductive Move : Session π γ κ → List (Event π γ κ) → Session π γ κ → Prop
  /-- A cycle that the session goes on from. -/
  | pass {s t : Session π γ κ} {i : Instruction} {rest : List Instruction}
      (ready : s.Ready (i :: rest)) (within : ¬ s.settings.maxSteps < s.steps + 1)
      (passed : s.counted.step s.position i = .next t) :
      Move s [.cycle s.counted s.position i] { t with position := t.position + 1 }
  /-- A cycle that ends with a request. -/
  | ask {s t : Session π γ κ} {i : Instruction} {rest : List Instruction} {request : Request}
      (ready : s.Ready (i :: rest)) (within : ¬ s.settings.maxSteps < s.steps + 1)
      (asked : s.counted.step s.position i = .suspended request t) :
      Move s [.cycle s.counted s.position i]
        { t with status := .suspended, suspension := some ⟨request, i, t.position⟩ }
  /-- There were too many cycles. -/
  | exhaust {s : Session π γ κ} {i : Instruction} {rest : List Instruction}
      (ready : s.Ready (i :: rest)) (spent : s.settings.maxSteps < s.steps + 1) :
      Move s [] (s.counted.record (.stepLimit s.settings.maxSteps) i.location).halt
  /-- A fatal finding ends the run. -/
  | collapse {s : Session π γ κ} {rest : List Instruction} (ready : s.Ready rest)
      (fatal : s.diagnostics.hasFatal = true) : Move s [] s.halt
  /-- The program is at its end. -/
  | finish {s : Session π γ κ} (ready : s.Ready []) : Move s [] s.finalScan.halt
  /-- An answer is taken, and acted on. -/
  | answer {s : Session π γ κ} {op : Suspension} {d : Decision} {gateway : γ}
      (waits : s.suspension = some op)
      (taken : Gateway.answer s.gateway op.request.id d = (.ok (), gateway)) :
      Move s [.answer s op gateway d]
        { (s.answered op gateway d).acted op d with position := op.index + 1 }
  /-- An answer is refused. -/
  | refuse {s : Session π γ κ} {op : Suspension} {d : Decision} {e : ReviewError} {gateway : γ}
      (waits : s.suspension = some op)
      (refused : Gateway.answer s.gateway op.request.id d = (.error e, gateway)) :
      Move s [] { s with gateway }
  /-- What waits is given up. -/
  | abandon {s : Session π γ κ} {op : Suspension} (waits : s.suspension = some op)
      (e : ReviewError) : Move s [] { s.givenUp op e with position := op.index + 1 }

/-- **Any number of moves**, with their events in order. -/
inductive Path (s₀ : Session π γ κ) : List (Event π γ κ) → Session π γ κ → Prop
  | refl : Path s₀ [] s₀
  | move {h e : List (Event π γ κ)} {s t : Session π γ κ} (before : Path s₀ h s)
      (next : Move s e t) : Path s₀ (h ++ e) t

theorem Path.single {s t : Session π γ κ} {e : List (Event π γ κ)} (m : Move s e t) : Path s e t :=
  .move .refl m

theorem Path.trans {s t u : Session π γ κ} {h g : List (Event π γ κ)} (first : Path s h t)
    (second : Path t g u) : Path s (h ++ g) u := by
  induction second with
  | refl =>
    rw [List.append_nil]
    exact first
  | move before next ih =>
    rw [← List.append_assoc]
    exact .move ih next

/-! ## Calls are made of moves -/

omit [Gateway γ] in
/-- A session that has acted on an answer is under way again. -/
theorem acted_course (s : Session π γ κ) (op : Suspension) (gateway : γ) (d : Decision) :
    (s.answered op gateway d).SameCourse ((s.answered op gateway d).acted op d) := by
  cases d with
  | approve => exact settle_sameCourse _ op.index op.instruction true
  | reject => exact .refl _

omit [Gateway γ] in
theorem acted_keeps (s : Session π γ κ) (op : Suspension) (gateway : γ) (d : Decision) :
    (s.answered op gateway d).Keeps ((s.answered op gateway d).acted op d) := by
  cases d with
  | approve => exact settle_keeps _ op.index op.instruction true
  | reject => exact .refl _

section

omit [Physics π] [Gateway γ] [Coordinator κ]

theorem answered_reviews (s : Session π γ κ) (op : Suspension) (gateway : γ) (d : Decision) :
    (s.answered op gateway d).reviews.toList = decideLast op.request.id d s.reviews.toList := by
  cases d <;> rfl

theorem answered_gateway (s : Session π γ κ) (op : Suspension) (gateway : γ) (d : Decision) :
    (s.answered op gateway d).gateway = gateway := by
  cases d <;> rfl

theorem answered_running (s : Session π γ κ) (op : Suspension) (gateway : γ) (d : Decision) :
    (s.answered op gateway d).status = .running ∧ (s.answered op gateway d).suspension = none ∧
      (s.answered op gateway d).program = s.program := by
  cases d <;> exact ⟨rfl, rfl, rfl⟩

end

theorem Drives.path {s t : Session π γ κ} {rest : List Instruction} {trace : Trace π γ κ}
    (drives : Drives rest s trace t) (ready : s.Ready rest) : Path s trace.events t := by
  induction drives with
  | finish => exact .single (.finish ready)
  | exhaust spent => exact .single (.exhaust ready spent)
  | ask within asked => exact .single (.ask ready within asked)
  | collapse within passed fatal =>
    have moved := Path.single (.pass ready within passed)
    exact moved.trans (.single (.collapse (ready.next (step_next_sameCourse passed)) fatal))
  | pass within passed mild further ih =>
    have moved := Path.single (.pass ready within passed)
    exact moved.trans (ih (ready.next (step_next_sameCourse passed)))

theorem path_driveAfter {s : Session π γ κ} (running : s.status = .running)
    (idle : s.suspension = none) (index : Nat) :
    Path ({ s with position := index + 1 } : Session π γ κ) (s.driveAfterEvents index)
      (s.driveAfter index) :=
  (driven _ _).path (ready_behind running idle index)

/-- The session that a call moves on from. -/
def received (s : Session π γ κ) : Call → Session π γ κ
  | .run program annotations => s.start program annotations
  | .resume _ _ | .abandon _ _ => s

/-- **A call is made of moves.** -/
theorem path_serve {s : Session π γ κ} {c : Call} (permitted : s.Permits c) :
    Path (s.received c) (s.trace c).events (s.serve c) := by
  cases c with
  | run program annotations => exact (driven _ _).path (s.start_ready program annotations)
  | abandon op e =>
    exact (Path.single (.abandon permitted e)).trans (path_driveAfter rfl rfl op.index)
  | resume id d =>
    rcases s.resume_ends id d with ⟨-, traced, e, he⟩ |
      ⟨op, gateway, e, waits, rfl, refused, traced, he⟩ |
      ⟨op, gateway, waits, rfl, taken, traced, he⟩ <;>
      rw [traced, serve, he]
    · exact .refl
    · exact .single (.refuse waits refused)
    · obtain ⟨running, idle, -⟩ := s.answered_running op gateway d
      have course := s.acted_course op gateway d
      exact (Path.single (.answer waits taken)).trans
        (path_driveAfter (course.status.trans running) (course.suspension.trans idle) op.index)

/-! ## Histories -/

/-- **The terms of a history**: the calls that come, what is noted of each, and what happens in
between, with what is noted of that. -/
structure Terms (π γ κ α : Type) where
  calls : Session π γ κ → Call → Prop
  notes : Trace π γ κ → List α
  meanwhile : Session π γ κ → List α → Session π γ κ → Prop

/-- **What becomes of a session** on given terms, with all that is noted. -/
inductive History {α : Type} (T : Terms π γ κ α) (s₀ : Session π γ κ) :
    List α → Session π γ κ → Prop
  | new : History T s₀ [] s₀
  | call {h : List α} {s : Session π γ κ} {c : Call} (before : History T s₀ h s)
      (comes : T.calls s c) : History T s₀ (h ++ T.notes (s.trace c)) (s.serve c)
  | meanwhile {h l : List α} {s t : Session π γ κ} (before : History T s₀ h s)
      (change : T.meanwhile s l t) : History T s₀ (h ++ l) t

/-- The terms on which all events are noted, and sessions change as they are let. New programs may
be run, or else there is one run and the answers to it. -/
def Terms.events (runs : Bool) (changes : Session π γ κ → Session π γ κ → Prop) :
    Terms π γ κ (Event π γ κ) where
  calls s c := s.Permits c ∧ (runs = true ∨ ∀ program annotations, c ≠ .run program annotations)
  notes := Trace.events
  meanwhile s l t := l = [] ∧ changes s t

namespace History

variable {runs : Bool} {changes : Session π γ κ → Session π γ κ → Prop} {s₀ s t : Session π γ κ}
  {h : List (Event π γ κ)}

theorem run (life : s₀.History (.events true changes) h s) (program : Program)
    (annotations : Option (List InferredType)) :
    s₀.History (.events true changes) (h ++ s.runEvents program annotations)
      (s.run program annotations) :=
  life.call (c := .run program annotations) ⟨trivial, .inl rfl⟩

theorem resume (life : s₀.History (.events runs changes) h s) (id : Nat) (d : Decision) :
    s₀.History (.events runs changes) (h ++ s.resumeEvents id d) (s.resume id d).2 :=
  life.call (c := .resume id d) ⟨trivial, .inr (by simp)⟩

theorem abandon {op : Suspension} (life : s₀.History (.events runs changes) h s)
    (waits : s.suspension = some op) (e : ReviewError) :
    s₀.History (.events runs changes) (h ++ s.abandonEvents op e) (s.abandon op e) :=
  life.call (c := .abandon op e) ⟨waits, .inr (by simp)⟩

theorem trans {g : List (Event π γ κ)} (first : s₀.History (.events runs changes) h s)
    (second : s.History (.events runs changes) g t) :
    s₀.History (.events runs changes) (h ++ g) t := by
  induction second with
  | new =>
    rw [List.append_nil]
    exact first
  | call before comes ih =>
    rw [← List.append_assoc]
    exact ih.call comes
  | meanwhile before change ih =>
    rw [← List.append_assoc]
    exact ih.meanwhile change

/-- What may become of a session without new runs may become of it. -/
theorem further (life : s₀.History (.events false changes) h s) :
    s₀.History (.events true changes) h s := by
  induction life with
  | new => exact .new
  | call before comes ih => exact ih.call ⟨comes.1, .inl rfl⟩
  | meanwhile before change ih => exact ih.meanwhile change

/-- To answer all requests as they come is a history, too. -/
theorem answerAll (life : s₀.History (.events runs changes) h s)
    (decide : List Request → Request → Decision) (fuel : Nat) (asked : List Request) :
    s₀.History (.events runs changes) (h ++ answerAllEvents decide fuel asked s)
      (answerAll decide fuel asked s).2 := by
  induction fuel generalizing h asked s with
  | zero =>
    rw [answerAllEvents, List.append_nil]
    exact life
  | succ fuel ih =>
    rw [answerAllEvents, Session.answerAll]
    cases waits : s.suspension with
    | none =>
      rw [List.append_nil]
      exact life
    | some op =>
      dsimp only
      have resumed := life.resume op.request.id (decide asked op.request)
      rcases s.resume_cases op.request.id (decide asked op.request) with
        ⟨traced, e, gateway, he⟩ | ⟨op', gateway, -, -, he⟩
      · rw [resumeEvents, traced, List.append_nil, he] at resumed
        rw [he]
        dsimp only
        rw [← List.append_assoc]
        exact ih (resumed.abandon waits e) _
      · rw [he] at resumed ⊢
        dsimp only
        rw [← List.append_assoc]
        exact ih resumed _

/-- Where nothing changes in between, a history is a path. -/
theorem path (life : s₀.History (.events false fun _ _ => False) h s) : Path s₀ h s := by
  induction life with
  | new => exact .refl
  | @call h s c before comes ih =>
    have moved := path_serve comes.1
    cases c with
    | run program annotations =>
      exact absurd rfl (comes.2.resolve_left (by simp) program annotations)
    | resume | abandon => exact ih.trans moved
  | meanwhile before change => exact change.2.elim

end History

/-- **A run to completion is made of moves.** -/
theorem path_completion (s : Session π γ κ) (program : Program)
    (annotations : Option (List InferredType)) (decide : List Request → Request → Decision) :
    Path (s.start program annotations) (s.completionEvents program annotations decide)
      (s.runToCompletion program annotations decide).2 :=
  (path_serve (s := s) (c := .run program annotations) trivial).trans
    (History.new.answerAll decide program.length []).path

/-- **Laws about histories that every move keeps**, where sessions change as they are let. -/
structure Law (runs : Bool) (changes : Session π γ κ → Session π γ κ → Prop)
    (P : List (Event π γ κ) → Session π γ κ → Prop) : Prop where
  start {h : List (Event π γ κ)} {s : Session π γ κ} (program : Program)
    (annotations : Option (List InferredType)) : runs = true → P h s →
    P h (s.start program annotations)
  move {h e : List (Event π γ κ)} {s t : Session π γ κ} : P h s → Move s e t → P (h ++ e) t
  meanwhile {h : List (Event π γ κ)} {s t : Session π γ κ} : P h s → changes s t → P h t

namespace Law

variable {runs : Bool} {changes : Session π γ κ → Session π γ κ → Prop}
  {P : List (Event π γ κ) → Session π γ κ → Prop} {h g : List (Event π γ κ)} {s t : Session π γ κ}

theorem path (hP : Law runs changes P) (hs : P h s) (p : Path s g t) : P (h ++ g) t := by
  induction p with
  | refl =>
    rw [List.append_nil]
    exact hs
  | move before next ih =>
    rw [← List.append_assoc]
    exact hP.move ih next

/-- **A law holds for life.** -/
theorem after (hP : Law runs changes P) (hs : P h s) (life : s.History (.events runs changes) g t) :
    P (h ++ g) t := by
  induction life with
  | new =>
    rw [List.append_nil]
    exact hs
  | @call g s c before comes ih =>
    rw [← List.append_assoc]
    refine hP.path ?_ (path_serve comes.1)
    cases c with
    | run program annotations =>
      exact hP.start program annotations (comes.2.resolve_right fun other => other _ _ rfl) ih
    | resume | abandon => exact ih
  | meanwhile before change ih =>
    obtain ⟨rfl, change⟩ := change
    rw [List.append_nil]
    exact hP.meanwhile ih change

theorem history (hP : Law runs changes P) (hs : P [] s)
    (life : s.History (.events runs changes) h t) : P h t :=
  hP.after hs life

end Law

/-! ## Lives -/

/-- All may have changed that is not the session's own. -/
def Elsewhere (s t : Session π γ κ) : Prop :=
  ∃ settings clock delays physics coordinator explainer nextHandle,
    t = { s with settings, clock, delays, physics, coordinator, explainer, nextHandle }

/-- **What becomes of a session**, with its history: programs are run, requests are answered or
given up, and meanwhile all may change that is not the session's own. -/
abbrev Lives (s₀ : Session π γ κ) : List (Event π γ κ) → Session π γ κ → Prop :=
  s₀.History (.events true Elsewhere)

/-! ## What takes effect -/

/-- What happens to a session in between and within calls: its clock goes on, collaborators change,
and an instruction is carried out. -/
inductive Happens (s : Session π γ κ) : List Instruction → Session π γ κ → Prop
  | still {t : Session π γ κ} (alike : s.Alike t) : Happens s [] t
  | timers : Happens s [] s.fireTimers
  | effect {t : Session π γ κ} {i : Instruction} (done : s.attempt i = .done t) : Happens s [i] t

/-- **What can become of a session**, with the instructions that take effect on the way: it is run,
its requests are answered or given up, and in between and within calls its clock goes on and
instructions are carried out. -/
abbrev Evolves (s₀ : Session π γ κ) : List Instruction → Session π γ κ → Prop :=
  s₀.History { calls := Permits, notes := Trace.log, meanwhile := Happens }

theorem Evolves.run {s₀ s : Session π γ κ} {h : List Instruction} (life : s₀.Evolves h s)
    (program : Program) (annotations : Option (List InferredType)) :
    s₀.Evolves (h ++ s.runLog program annotations) (s.run program annotations) :=
  life.call (c := .run program annotations) trivial

namespace Stable

variable {P : List Instruction → Session π γ κ → Prop} {h : List Instruction} {s t : Session π γ κ}
  {e : List (Event π γ κ)}

/-- A move keeps a stable law, with whatever takes effect in it. -/
theorem move (hP : Stable P) (hs : P h s) (m : Move s e t) : P (h ++ e.flatMap Event.log) t := by
  have still {t : Session π γ κ} (alike : s.Alike t) : P (h ++ []) t := by
    rw [List.append_nil]
    exact hP.still hs alike
  cases m with
  | @pass t i rest ready within passed =>
    have stepped := hP.step (hP.still (t := s.counted) hs ⟨rfl, Nat.le_refl _⟩) s.position i
    rw [passed] at stepped
    rw [List.flatMap_singleton]
    exact hP.still stepped ⟨rfl, Nat.le_refl _⟩
  | @ask t i rest request ready within asked =>
    have stepped := hP.step (hP.still (t := s.counted) hs ⟨rfl, Nat.le_refl _⟩) s.position i
    rw [asked] at stepped
    rw [List.flatMap_singleton]
    exact hP.still stepped ⟨rfl, Nat.le_refl _⟩
  | finish =>
    rw [List.flatMap_nil, List.append_nil]
    exact hP.still (hP.still (hP.timers hs) s.finalScan_untouched.alike) (halt_alike _)
  | @answer op d gateway waits taken =>
    have acted := hP.acted (hP.still hs (s.answered_alike op gateway d)) op d
    rw [List.flatMap_singleton]
    exact hP.still acted ⟨rfl, Nat.le_refl _⟩
  | exhaust | collapse | refuse | abandon => exact still ⟨rfl, Nat.le_refl _⟩

theorem path (hP : Stable P) (hs : P h s) (p : Path s e t) : P (h ++ e.flatMap Event.log) t := by
  induction p with
  | refl =>
    rw [List.flatMap_nil, List.append_nil]
    exact hs
  | move before next ih =>
    rw [List.flatMap_append, ← List.append_assoc]
    exact hP.move ih next

/-- **A stable law holds for life.** -/
theorem evolves (hP : Stable P) (hs : P [] s) (life : s.Evolves h t) : P h t := by
  induction life with
  | new => exact hs
  | @call h s c before comes ih =>
    refine hP.path ?_ (path_serve comes)
    cases c with
    | run program annotations => exact hP.still ih (s.start_alike program annotations)
    | resume | abandon => exact ih
  | meanwhile before change ih =>
    cases change with
    | still alike =>
      rw [List.append_nil]
      exact hP.still ih alike
    | timers =>
      rw [List.append_nil]
      exact hP.timers ih
    | effect done => exact hP.effect ih done

end Stable

end GovernedQuantum.Session
