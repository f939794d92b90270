import GovernedQuantum.Proofs.Cycles

/-!
# Traces of calls

Two things change what a session holds: the cycle of an instruction, and an answer that is taken.
They are the events of a session. The trace of a call lists its events in order, each with the
session as it was just before, and says where the program ended if the call came to its end.

* `Event`: a cycle or an answer. `Event.before` and `Event.after` are the sessions around it.
* `Call`, `Session.serve`: a call from outside, and what becomes of the session.
* `Trace`, `Session.trace`: **the trace of a call**. Its events, the instructions that took effect
  and the session at the end are read off it.
* `Session.Drives`, `Session.driven`: **how the rest of a program is driven**, case by case.
* `Session.resume_ends`: the ends of an answer.
-/

namespace GovernedQuantum

/-! ## Events -/

/-- **An event in the life of a session.** -/
inductive Event (π γ κ : Type) where
  /-- The cycle of the instruction at `index`. -/
  | cycle (before : Session π γ κ) (index : Nat) (i : Instruction)
  /-- The session takes an answer to what it waits for; `gateway` has taken it already. -/
  | answer (before : Session π γ κ) (op : Suspension) (gateway : γ) (d : Decision)

namespace Event

variable {π γ κ : Type}

/-- The session just before the event. -/
def before : Event π γ κ → Session π γ κ
  | .cycle s _ _ => s
  | .answer s _ _ _ => s

/-- The instruction that the event is about. -/
def instruction : Event π γ κ → Instruction
  | .cycle _ _ i => i
  | .answer _ op _ _ => op.instruction

/-- The session just after the event. -/
def after [Physics π] [Gateway γ] [Coordinator κ] : Event π γ κ → Session π γ κ
  | .cycle s index i => (s.step index i).session
  | .answer s op gateway d => (s.answered op gateway d).acted op d

/-- The instruction that the event is about, if it takes effect there. -/
def log [Physics π] [Coordinator κ] : Event π γ κ → List Instruction
  | .cycle s index i => s.stepLog index i
  | .answer s op gateway d => (s.answered op gateway d).actedLog op d

end Event

/-! ## Traces -/

/-- **What a call did.** -/
structure Trace (π γ κ : Type) where
  /-- The events, in order. -/
  events : List (Event π γ κ) := []
  /-- The session when no instruction was left, if it came to that. -/
  ended : Option (Session π γ κ) := none

namespace Trace

variable {π γ κ : Type}

/-- The trace with one more event, at its beginning. -/
def cons (e : Event π γ κ) (t : Trace π γ κ) : Trace π γ κ := { t with events := e :: t.events }

/-- The instructions that took effect. -/
def log [Physics π] [Coordinator κ] (t : Trace π γ κ) : List Instruction :=
  t.events.flatMap Event.log

end Trace

/-- **A call** from outside. -/
inductive Call where
  | run (program : Program) (annotations : Option (List InferredType))
  /-- An answer comes in. -/
  | resume (id : Nat) (d : Decision)
  /-- What waits is given up. -/
  | abandon (op : Suspension) (e : ReviewError)

namespace Session

variable {π γ κ : Type}

/-- A session that has done nothing yet. -/
structure IsNew (s : Session π γ κ) : Prop where
  tables : s.tables = {}
  status : s.status = .notStarted
  suspension : s.suspension = none
  reviews : s.reviews = #[]

/-- One more cycle is counted. -/
def counted (s : Session π γ κ) : Session π γ κ := { s with steps := s.steps + 1 }

/-- What waits is given up, since its answer was not taken. -/
def givenUp (s : Session π γ κ) (op : Suspension) (e : ReviewError) : Session π γ κ :=
  ({ s with suspension := none, status := .running } : Session π γ κ).report
    { severity := .error
      category := .execution
      location := op.instruction.location
      message := e.message }

/-- The call makes sense: only what waits can be given up. -/
def Permits (s : Session π γ κ) : Call → Prop
  | .run _ _ => True
  | .resume _ _ => True
  | .abandon op _ => s.suspension = some op

variable [Physics π] [Gateway γ] [Coordinator κ]

/-- What becomes of the session by a call. -/
def serve (s : Session π γ κ) : Call → Session π γ κ
  | .run program annotations => s.run program annotations
  | .resume id d => (s.resume id d).2
  | .abandon op e => s.abandon op e

/-- The trace while the rest of a program is driven. -/
def driveTrace : List Instruction → Session π γ κ → Trace π γ κ
  | [], s => { ended := some s }
  | i :: rest, s =>
    let s := s.counted
    if s.settings.maxSteps < s.steps then {}
    else
      .cons (.cycle s s.position i)
        (match s.step s.position i with
        | .suspended _ _ => {}
        | .next s =>
          let s := { s with position := s.position + 1 }
          if s.diagnostics.hasFatal then {} else driveTrace rest s)

def driveAfterTrace (s : Session π γ κ) (index : Nat) : Trace π γ κ :=
  driveTrace (s.program.instructions.drop (index + 1)) { s with position := index + 1 }

/-- **The trace of a call.** An answer that is not taken leaves none. -/
def trace (s : Session π γ κ) : Call → Trace π γ κ
  | .run program annotations => driveTrace program.instructions (s.start program annotations)
  | .resume id d =>
    match s.suspension with
    | none => {}
    | some op =>
      if op.request.id ≠ id then {}
      else
        match Gateway.answer s.gateway id d with
        | (.error _, _) => {}
        | (.ok (), gateway) =>
          .cons (.answer s op gateway d)
            (((s.answered op gateway d).acted op d).driveAfterTrace op.index)
  | .abandon op e => (s.givenUp op e).driveAfterTrace op.index

/-! ## What is read off a trace -/

/-- The events while the rest of a program is driven. -/
def driveEvents (rest : List Instruction) (s : Session π γ κ) : List (Event π γ κ) :=
  (driveTrace rest s).events

def driveAfterEvents (s : Session π γ κ) (index : Nat) : List (Event π γ κ) :=
  (s.driveAfterTrace index).events

/-- The events of a run. -/
def runEvents (s : Session π γ κ) (program : Program) (annotations : Option (List InferredType)) :
    List (Event π γ κ) :=
  (s.trace (.run program annotations)).events

/-- The events when an answer comes in. -/
def resumeEvents (s : Session π γ κ) (id : Nat) (d : Decision) : List (Event π γ κ) :=
  (s.trace (.resume id d)).events

/-- The events when a waiting instruction is given up. -/
def abandonEvents (s : Session π γ κ) (op : Suspension) (e : ReviewError) : List (Event π γ κ) :=
  (s.trace (.abandon op e)).events

/-- The instructions that take effect in a run. -/
def runLog (s : Session π γ κ) (program : Program) (annotations : Option (List InferredType)) :
    List Instruction :=
  (s.trace (.run program annotations)).log

/-- **The session at the end of its program**, if the run comes to it. -/
def runEnd (s : Session π γ κ) (program : Program) (annotations : Option (List InferredType)) :
    Option (Session π γ κ) :=
  (s.trace (.run program annotations)).ended

/-- The session at the end of its program, if it comes to it once an answer is in. -/
def resumeEnd (s : Session π γ κ) (id : Nat) (d : Decision) : Option (Session π γ κ) :=
  (s.trace (.resume id d)).ended

/-- The events while requests are answered as they come. -/
def answerAllEvents (decide : List Request → Request → Decision) :
    Nat → List Request → Session π γ κ → List (Event π γ κ)
  | 0, _, _ => []
  | fuel + 1, asked, s =>
    match s.suspension with
    | none => []
    | some op =>
      match s.resume op.request.id (decide asked op.request) with
      | (.ok (), t) =>
        s.resumeEvents op.request.id (decide asked op.request) ++
          answerAllEvents decide fuel (op.request :: asked) t
      | (.error e, t) =>
        t.abandonEvents op e ++ answerAllEvents decide fuel (op.request :: asked) (t.abandon op e)

/-- The events of a run to its end. -/
def completionEvents (s : Session π γ κ) (program : Program)
    (annotations : Option (List InferredType)) (decide : List Request → Request → Decision) :
    List (Event π γ κ) :=
  s.runEvents program annotations ++
    answerAllEvents decide program.length [] (s.run program annotations)

/-! ## Driving -/

/-- **How the rest of a program is driven**, with its trace: cycle by cycle, until no instruction is
left, there were too many cycles, a human is asked, or a finding is fatal. -/
inductive Drives : List Instruction → Session π γ κ → Trace π γ κ → Session π γ κ → Prop
  | finish (s : Session π γ κ) : Drives [] s { ended := some s } s.finalScan.halt
  | exhaust {s : Session π γ κ} {i : Instruction} {rest : List Instruction}
      (spent : s.settings.maxSteps < s.steps + 1) :
      Drives (i :: rest) s {} (s.counted.record (.stepLimit s.settings.maxSteps) i.location).halt
  | ask {s t : Session π γ κ} {i : Instruction} {rest : List Instruction} {request : Request}
      (within : ¬ s.settings.maxSteps < s.steps + 1)
      (asked : s.counted.step s.position i = .suspended request t) :
      Drives (i :: rest) s { events := [.cycle s.counted s.position i] }
        { t with status := .suspended, suspension := some ⟨request, i, t.position⟩ }
  | collapse {s t : Session π γ κ} {i : Instruction} {rest : List Instruction}
      (within : ¬ s.settings.maxSteps < s.steps + 1)
      (passed : s.counted.step s.position i = .next t) (fatal : t.diagnostics.hasFatal = true) :
      Drives (i :: rest) s { events := [.cycle s.counted s.position i] }
        ({ t with position := t.position + 1 } : Session π γ κ).halt
  | pass {s t u : Session π γ κ} {i : Instruction} {rest : List Instruction} {trace : Trace π γ κ}
      (within : ¬ s.settings.maxSteps < s.steps + 1)
      (passed : s.counted.step s.position i = .next t) (mild : t.diagnostics.hasFatal = false)
      (further : Drives rest { t with position := t.position + 1 } trace u) :
      Drives (i :: rest) s (.cons (.cycle s.counted s.position i) trace) u

/-- **So it is driven.** -/
theorem driven (rest : List Instruction) (s : Session π γ κ) :
    Drives rest s (driveTrace rest s) (drive rest s) := by
  induction rest generalizing s with
  | nil => exact .finish s
  | cons i rest ih =>
    rw [driveTrace, drive, show ({ s with steps := s.steps + 1 } : Session π γ κ) =
      s.counted from rfl]
    dsimp only
    split
    · rename_i spent
      exact .exhaust spent
    · rename_i within
      rw [show s.counted.position = s.position from rfl]
      cases stepped : s.counted.step s.position i with
      | suspended request t => exact .ask within stepped
      | next t =>
        dsimp only
        cases fatal : t.diagnostics.hasFatal with
        | true => exact .collapse within stepped fatal
        | false => exact .pass within stepped fatal (ih _)

/-- At its end a program is scanned. -/
theorem Drives.scanned {rest : List Instruction} {s t u : Session π γ κ} {trace : Trace π γ κ}
    (drives : Drives rest s trace t) (ends : trace.ended = some u) : t = u.finalScan.halt := by
  induction drives with
  | finish => exact Option.some.inj ends ▸ rfl
  | pass within passed mild further ih => exact ih ends
  | exhaust | ask | collapse => exact absurd ends (by simp)

/-! ## Answers -/

/-- **The ends of an answer**, with what the gateway said: the session does not wait for it, or the
gateway refuses it, or it is taken. -/
theorem resume_ends (s : Session π γ κ) (id : Nat) (d : Decision) :
    ((∀ op, s.suspension = some op → op.request.id ≠ id) ∧ s.trace (.resume id d) = {} ∧
      ∃ e, s.resume id d = (.error e, s)) ∨
    (∃ op gateway e, s.suspension = some op ∧ op.request.id = id ∧
      Gateway.answer s.gateway id d = (.error e, gateway) ∧ s.trace (.resume id d) = {} ∧
      s.resume id d = (.error e, { s with gateway })) ∨
    ∃ op gateway, s.suspension = some op ∧ op.request.id = id ∧
      Gateway.answer s.gateway id d = (.ok (), gateway) ∧
      s.trace (.resume id d) = .cons (.answer s op gateway d)
        (((s.answered op gateway d).acted op d).driveAfterTrace op.index) ∧
      s.resume id d = (.ok (), ((s.answered op gateway d).acted op d).driveAfter op.index) := by
  unfold resume trace
  cases hs : s.suspension with
  | none => exact .inl ⟨fun _ h => absurd h (by simp), rfl, _, rfl⟩
  | some op =>
    dsimp only
    by_cases hid : op.request.id ≠ id
    · rw [if_pos hid, if_pos hid]
      exact .inl ⟨fun _ h => Option.some.inj h ▸ hid, rfl, _, rfl⟩
    · rw [if_neg hid, if_neg hid]
      rw [not_not] at hid
      subst hid
      right
      obtain ⟨answer, gateway⟩ := Gateway.answer s.gateway op.request.id d
      cases answer with
      | error e => exact .inl ⟨op, gateway, e, rfl, rfl, rfl, rfl, by rw [← hs]⟩
      | ok => cases d <;> exact .inr ⟨op, gateway, rfl, rfl, rfl, rfl, rfl⟩

/-- An answer is refused, and at most the gateway knows; or the session acts on it and goes on
behind the instruction that waited. -/
theorem resume_cases (s : Session π γ κ) (id : Nat) (d : Decision) :
    (s.trace (.resume id d) = {} ∧ ∃ e gateway, s.resume id d = (.error e, { s with gateway })) ∨
    ∃ op gateway, s.suspension = some op ∧
      s.trace (.resume id d) = .cons (.answer s op gateway d)
        (((s.answered op gateway d).acted op d).driveAfterTrace op.index) ∧
      s.resume id d = (.ok (), ((s.answered op gateway d).acted op d).driveAfter op.index) := by
  rcases s.resume_ends id d with ⟨-, traced, e, he⟩ | ⟨op, gateway, e, -, -, -, traced, he⟩ |
    ⟨op, gateway, waits, -, -, traced, he⟩
  · exact .inl ⟨traced, e, s.gateway, he⟩
  · exact .inl ⟨traced, e, gateway, he⟩
  · exact .inr ⟨op, gateway, waits, traced, he⟩

/-- A program that comes to its end after an answer is scanned. -/
theorem resume_of_ended {s u : Session π γ κ} {id : Nat} {d : Decision}
    (ends : s.resumeEnd id d = some u) : s.resume id d = (.ok (), u.finalScan.halt) := by
  rw [resumeEnd] at ends
  rcases s.resume_cases id d with ⟨traced, -⟩ | ⟨op, gateway, -, traced, he⟩ <;> rw [traced] at ends
  · exact absurd ends (by simp)
  · rw [he, driveAfter, (driven _ _).scanned ends]

end Session

end GovernedQuantum
