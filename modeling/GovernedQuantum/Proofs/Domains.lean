import GovernedQuantum.Proofs.Turns

/-!
# Domains of a session

A **domain** is a part of the machine: some instructions, and what they work on. Its veil hides the
rest of a session. If the instructions of a domain do not look behind the veil, and all others leave
alone what is in front of it, then the others might as well be left out.

Clocks stand still here, since every instruction takes readings and so moves the time at which the
next one is carried out.

* `Domain`, `Domain.veil`: a domain and what it sees. `Domain.Lawful`: its instructions keep to it.
* `Domain.InStep`: two sessions that the domain cannot tell apart, whatever they have written.
* `Domain.InStep.turn`: **in the turn of an instruction of the domain both write the same** and stay
  in step.
* `Domain.InStep.turn_left`: the turn of any other instruction goes unnoticed.
-/

namespace GovernedQuantum

/-! ## Clocks that stand still -/

theorem Clock.Reads.advance {c : Clock} {now : Nat} (h : c.Reads now) (ms : Nat) :
    (c.advance ms).Reads ((now + ms) % span) := by
  intro n
  show (c.source n + (c.offset + ms) % span) % span = (now + ms) % span
  rw [Nat.add_mod_mod, ← Nat.add_assoc, ← h n, Nat.mod_add_mod]

/-- Noting the deadlines of one moment a second time changes nothing. -/
theorem Handle.expire_expire (q : Handle) (now : Nat) :
    (q.expire now).expire now = q.expire now := by
  unfold expire
  split
  · split <;> rfl
  · rfl

theorem Diagnostics.pushAll_append (ds : Diagnostics) (found more : List Diagnostic) :
    ds.pushAll (found ++ more) = (ds.pushAll found).pushAll more :=
  List.foldl_append

/-- Two sessions on clocks that stand still at one moment. Since they had written `xs` and `ys`, and
had found `ds` and `es`, they have written and found the same. -/
def Kinship.still {π : Type} [Physics π] (limit : Nat) (xs ys : Array String)
    (ds es : Diagnostics) : Kinship π π :=
  .exact limit (fun c c' => ∃ now, c.Reads now ∧ c'.Reads now)
    (fun as bs => ∃ more, as.toList = xs.toList ++ more ∧ bs.toList = ys.toList ++ more)
    (fun fs gs => ∃ found, fs = ds.pushAll found ∧ gs = es.pushAll found)
    (by
      rintro c c' ⟨now, h, h'⟩ -
      rw [h.now_eq, h'.now_eq])
    (by
      rintro c c' ⟨now, h, h'⟩
      exact ⟨now, h, h'⟩)
    (by
      rintro c c' ms ⟨now, h, h'⟩
      exact ⟨_, h.advance ms, h'.advance ms⟩)
    (by
      rintro as bs line ⟨more, ha, hb⟩
      refine ⟨more ++ [line], ?_, ?_⟩
      · rw [Array.toList_push, ha, List.append_assoc]
      · rw [Array.toList_push, hb, List.append_assoc])
    (by
      rintro fs gs d ⟨found, rfl, rfl⟩
      exact ⟨found ++ [d], (ds.pushAll_append found [d]).symm, (es.pushAll_append found [d]).symm⟩)

def Attempt.map {σ τ : Type} (f : σ → τ) : Attempt σ → Attempt τ
  | .done s => .done (f s)
  | .failed fault s => .failed fault (f s)

namespace Session

variable {π γ κ : Type}

/-- What was written and found on the way from `s` to `t`. -/
def Wrote (lines : List String) (found : List Diagnostic) (s t : Session π γ κ) : Prop :=
  t.console.toList = s.console.toList ++ lines ∧ t.diagnostics = s.diagnostics.pushAll found

namespace Wrote

variable {lines more : List String} {found others : List Diagnostic} {s t u : Session π γ κ}

theorem refl (s : Session π γ κ) : Wrote [] [] s s := ⟨(List.append_nil _).symm, rfl⟩

theorem trans (h : Wrote lines found s t) (g : Wrote more others t u) :
    Wrote (lines ++ more) (found ++ others) s u := by
  refine ⟨?_, ?_⟩
  · rw [g.1, h.1, List.append_assoc]
  · rw [g.2, h.2, Diagnostics.pushAll_append]

/-- The errors among what was found. -/
theorem errors (h : Wrote lines found s t) :
    t.diagnostics.errors.toList =
      s.diagnostics.errors.toList ++ found.filter (·.severity = .error) := by
  rw [h.2, Diagnostics.errors_pushAll]

end Wrote

/-- A session without annotations, on a clock that stands still. -/
def Still (now : Nat) (s : Session π γ κ) : Prop :=
  s.annotations = none ∧ s.delays = {} ∧ s.clock.Reads now

namespace Still

variable {now : Nat} {s t : Session π γ κ}

theorem bare (h : s.Still now) : s.annotations = none := h.1

theorem delays (h : s.Still now) : s.delays = {} := h.2.1

theorem clock (h : s.Still now) : s.clock.Reads now := h.2.2

/-- Work does not move the clock. -/
theorem keeps (h : s.Still now) (course : s.SameCourse t) (keeps : s.Keeps t) : t.Still now := by
  have runs := keeps.clock
  rw [h.delays] at runs
  exact ⟨course.annotations.trans h.bare, course.delays.trans h.delays, h.clock.runs runs⟩

end Still

theorem checkOperands_eq (i : Instruction) (now : Nat) (names : List String) (s : Session π γ κ) :
    ∃ diagnostics, names.foldl (checkOperand i now) s = { s with diagnostics } := by
  induction names generalizing s with
  | nil => exact ⟨_, rfl⟩
  | cons name rest ih =>
    obtain ⟨diagnostics, he⟩ := ih (checkOperand i now s name)
    rw [List.foldl_cons, he]
    unfold checkOperand
    split <;> exact ⟨diagnostics, rfl⟩

/-- To look at what an instruction left behind takes a reading, and may add findings. -/
theorem checkAfter_eq (s : Session π γ κ) (i : Instruction) (approved : Bool) :
    ∃ diagnostics, s.checkAfter i approved = { s with clock := s.clock.read.2, diagnostics } := by
  obtain ⟨diagnostics, he⟩ := checkOperands_eq i s.clock.now i.interactionOperands s.readClock.2
  unfold checkAfter
  dsimp only [readClock] at he ⊢
  rw [he]
  unfold checkOversight
  split
  · split <;> exact ⟨_, rfl⟩
  · exact ⟨_, rfl⟩

end Session

/-! ## Domains -/

/-- **A part of the machine**: its instructions, and what of a session it sees. -/
structure Domain (π κ : Type) where
  /-- The instruction belongs to it. -/
  covers : Instruction → Bool
  /-- Requests belong to it. -/
  oversees : Bool
  physics : π → π
  coordinator : κ → κ
  nextHandle : Nat → Nat
  tables : Tables → Tables

namespace Domain

variable {π γ κ : Type}

/-- The session as the domain sees it. -/
def veil (D : Domain π κ) (s : Session π γ κ) : Session π γ κ :=
  { s with
    physics := D.physics s.physics
    coordinator := D.coordinator s.coordinator
    nextHandle := D.nextHandle s.nextHandle
    tables := D.tables s.tables }

/-- The tables once the deadlines of a moment are noted. -/
def expired (now : Nat) (t : Tables) : Tables :=
  { t with register := t.register.mapHandles (·.expire now) }

theorem expired_expired (now : Nat) (t : Tables) : expired now (expired now t) = expired now t := by
  have again (e : Nat × Handle) : (e.1, (e.2.expire now).expire now) = (e.1, e.2.expire now) := by
    rw [Handle.expire_expire]
  simp only [expired, Register.mapHandles, Table.map, List.map_map, Function.comp_def, again]

/-- **What makes a domain**: its instructions look at nothing behind the veil and put nothing there,
and the others do nothing in front of it. Requests are made by instructions of the domain, or by
others, but not by both. -/
structure Lawful (γ : Type) [Physics π] [Coordinator κ] (D : Domain π κ) : Prop where
  timers (t : Tables) (now : Nat) : D.tables (expired now t) = expired now (D.tables t)
  requests {i : Instruction} : i.opcode.operationKind.isGated = true → D.covers i = D.oversees
  entities (t : Tables) : D.oversees = true → (D.tables t).entities = t.entities
  attempt (s : Session π γ κ) {i : Instruction} : D.covers i = true →
    (D.veil s).attempt i = (s.attempt i).map D.veil
  checkAfter (s : Session π γ κ) {i : Instruction} (approved : Bool) : D.covers i = true →
    (D.veil s).checkAfter i approved = D.veil (s.checkAfter i approved)
  unseen (s : Session π γ κ) {i : Instruction} : D.covers i = false →
    D.physics (s.attempt i).session.physics = D.physics s.physics ∧
    D.coordinator (s.attempt i).session.coordinator = D.coordinator s.coordinator ∧
    D.nextHandle (s.attempt i).session.nextHandle = D.nextHandle s.nextHandle ∧
    D.tables (s.attempt i).session.tables = D.tables s.tables

/-- **The domain cannot tell two sessions apart**: both are still, and they are the same in front of
the veil. -/
structure Same (D : Domain π κ) (now : Nat) (s s' : Session π γ κ) : Prop where
  still : s.Still now
  still' : s'.Still now
  id : s'.id = s.id
  settings : s'.settings = s.settings
  explainer : s'.explainer = s.explainer
  gateway : D.oversees = true → s'.gateway = s.gateway
  reviews : D.oversees = true → s'.reviews = s.reviews
  physics : D.physics s'.physics = D.physics s.physics
  coordinator : D.coordinator s'.coordinator = D.coordinator s.coordinator
  nextHandle : D.nextHandle s'.nextHandle = D.nextHandle s.nextHandle
  tables : D.tables s'.tables = D.tables s.tables

/-- What was done on the way from `s` to `t` was also done on the way from `s'` to `t'`. -/
structure Alike (D : Domain π κ) (now : Nat) (s s' t t' : Session π γ κ) : Prop where
  same : D.Same now t t'
  wrote : ∃ lines found, s.Wrote lines found t ∧ s'.Wrote lines found t'

section

variable {D : Domain π κ} {now : Nat} {s s' t t' u u' : Session π γ κ} {i : Instruction}

namespace Same

theorem refl (still : s.Still now) : D.Same now s s :=
  ⟨still, still, rfl, rfl, rfl, fun _ => rfl, fun _ => rfl, rfl, rfl, rfl, rfl⟩

theorem symm (h : D.Same now s s') : D.Same now s' s :=
  ⟨h.still', h.still, h.id.symm, h.settings.symm,
    h.explainer.symm, fun desk => (h.gateway desk).symm, fun desk => (h.reviews desk).symm,
    h.physics.symm, h.coordinator.symm, h.nextHandle.symm, h.tables.symm⟩

theorem trans (h : D.Same now s t) (g : D.Same now t u) : D.Same now s u :=
  ⟨h.still, g.still', g.id.trans h.id, g.settings.trans h.settings, g.explainer.trans h.explainer,
    fun desk => (g.gateway desk).trans (h.gateway desk),
    fun desk => (g.reviews desk).trans (h.reviews desk), g.physics.trans h.physics,
    g.coordinator.trans h.coordinator, g.nextHandle.trans h.nextHandle, g.tables.trans h.tables⟩

/-- Veiled, they are kin. -/
theorem kin [Physics π] (h : D.Same now s s') (limit : Nat) :
    (D.veil s).Kin (.still limit s.console s'.console s.diagnostics s'.diagnostics) (D.veil s') :=
  .of_same (fun _ => rfl) (fun _ => rfl) h.id h.settings (h.still'.delays.trans h.still.delays.symm)
    h.physics h.coordinator h.explainer h.nextHandle h.tables ⟨now, h.still.clock, h.still'.clock⟩
    ⟨[], (List.append_nil _).symm, (List.append_nil _).symm⟩ ⟨[], rfl, rfl⟩

/-- Work after which they are kin when veiled is alike. -/
theorem alike_of_kin [Physics π] (h : D.Same now s s') {limit : Nat}
    (kin : (D.veil t).Kin (.still limit s.console s'.console s.diagnostics s'.diagnostics)
      (D.veil t'))
    (course : s.SameCourse t) (course' : s'.SameCourse t') (keeps : s.Keeps t)
    (keeps' : s'.Keeps t') : D.Alike now s s' t t' where
  same :=
    { still := h.still.keeps course keeps
      still' := h.still'.keeps course' keeps'
      id := kin.id
      settings := by rw [course'.settings, h.settings, course.settings]
      explainer := congrArg Staff.explainer kin.staff
      gateway := fun desk => by rw [keeps'.gateway, h.gateway desk, keeps.gateway]
      reviews := fun desk => by rw [keeps'.reviews, h.reviews desk, keeps.reviews]
      physics := congrArg Staff.physics kin.staff
      coordinator := kin.coordinator
      nextHandle := kin.nextHandle
      tables := kin.tables.eq }
  wrote := by
    obtain ⟨lines, hl, hl'⟩ := kin.console
    obtain ⟨found, hf, hf'⟩ := kin.diagnostics
    exact ⟨lines, found, ⟨hl, hf⟩, ⟨hl', hf'⟩⟩

/-- Work that the domain does not see. -/
theorem of_unseen (still : s.Still now) (course : s.SameCourse t) (keeps : s.Keeps t)
    (physics : D.physics t.physics = D.physics s.physics)
    (coordinator : D.coordinator t.coordinator = D.coordinator s.coordinator)
    (nextHandle : D.nextHandle t.nextHandle = D.nextHandle s.nextHandle)
    (tables : D.tables t.tables = D.tables s.tables) : D.Same now s t :=
  ⟨still, still.keeps course keeps, course.id, course.settings, course.explainer,
    fun _ => keeps.gateway, fun _ => keeps.reviews, physics, coordinator, nextHandle, tables⟩

/-- A domain without requests does not see the desk. -/
theorem of_desk (still : s.Still now) (desk : D.oversees = false) (gateway : γ)
    (reviews : Array LogEntry) (status : Status) (suspension : Option Suspension)
    (console : Array String) (diagnostics : Diagnostics) :
    D.Same now s { s with gateway, reviews, status, suspension, console, diagnostics } :=
  { refl still with gateway := by simp [desk], reviews := by simp [desk] }

end Same

theorem Alike.trans (h : D.Alike now s s' t t') (g : D.Alike now t t' u u') :
    D.Alike now s s' u u' := by
  obtain ⟨lines, found, hw, hw'⟩ := h.wrote
  obtain ⟨more, others, gw, gw'⟩ := g.wrote
  exact ⟨g.same, lines ++ more, found ++ others, hw.trans gw, hw'.trans gw'⟩

/-- Where nothing was written before. -/
theorem Alike.since (h : D.Alike now t t' u u') (lines : t.console = s.console)
    (found : t.diagnostics = s.diagnostics) (lines' : t'.console = s'.console)
    (found' : t'.diagnostics = s'.diagnostics) : D.Alike now s s' u u' := by
  obtain ⟨more, others, hw, hw'⟩ := h.wrote
  exact ⟨h.same, more, others, ⟨lines ▸ hw.1, found ▸ hw.2⟩, ⟨lines' ▸ hw'.1, found' ▸ hw'.2⟩⟩

namespace Same

theorem report (h : D.Same now s s') (d : Diagnostic) :
    D.Alike now s s' (s.report d) (s'.report d) where
  same := { h with }
  wrote := ⟨[], [d], ⟨(List.append_nil _).symm, rfl⟩, ⟨(List.append_nil _).symm, rfl⟩⟩

theorem say (h : D.Same now s s') (line : String) :
    D.Alike now s s' (s.say line) (s'.say line) where
  same := { h with }
  wrote := ⟨[line], [], ⟨Array.toList_push, rfl⟩, ⟨Array.toList_push, rfl⟩⟩

variable [Physics π] [Coordinator κ]

/-! ## Instructions -/

/-- Deadlines are noted alike. -/
theorem fireTimers (law : D.Lawful γ) (h : D.Same now s s') :
    D.Same now s.fireTimers s'.fireTimers := by
  have fired {r : Session π γ κ} (still : r.Still now) :
      D.tables r.fireTimers.tables = expired now (D.tables r.tables) := by
    rw [← law.timers, ← still.clock.now_eq]
    rfl
  exact
    { h with
      still := h.still.keeps s.fireTimers_sameCourse s.fireTimers_keeps
      still' := h.still'.keeps s'.fireTimers_sameCourse s'.fireTimers_keeps
      tables := by rw [fired h.still, fired h.still', h.tables] }

/-- **An instruction of the domain is attempted alike.** -/
theorem attempt (law : D.Lawful γ) (h : D.Same now s s') (covers : D.covers i = true) :
    Attempt.Alike (fun t t' => D.Alike now s s' t t') (s.attempt i) (s'.attempt i) := by
  have course := s.attempt_sameCourse i
  have course' := s'.attempt_sameCourse i
  have keeps := s.attempt_keeps i
  have keeps' := s'.attempt_keeps i
  obtain ⟨limit, alike⟩ : ∃ limit, Attempt.Alike
      (Session.Kin (.still limit s.console s'.console s.diagnostics s'.diagnostics))
      ((D.veil s).attempt i) ((D.veil s').attempt i) :=
    ⟨_, (h.kin _).attempt trivial (Nat.le_refl _)⟩
  rw [law.attempt s covers, law.attempt s' covers] at alike
  generalize s.attempt i = a at course keeps alike
  generalize s'.attempt i = a' at course' keeps' alike
  cases a with
  | done t =>
    cases a' with
    | done t' =>
      cases alike with
      | done kin => exact .done (h.alike_of_kin kin course course' keeps keeps')
    | failed f' t' => cases alike
  | failed f t =>
    cases a' with
    | done t' => cases alike
    | failed f' t' =>
      cases alike with
      | failed f kin => exact .failed f (h.alike_of_kin kin course course' keeps keeps')

theorem checkAfter (law : D.Lawful γ) (h : D.Same now s s') (covers : D.covers i = true)
    (approved : Bool) : D.Alike now s s' (s.checkAfter i approved) (s'.checkAfter i approved) := by
  have kin := (h.kin (s.clock.taken + 1)).checkAfter i approved (Nat.lt_succ_self _)
  rw [law.checkAfter s approved covers, law.checkAfter s' approved covers] at kin
  exact h.alike_of_kin kin (s.checkAfter_untouched i approved).toSameCourse
    (s'.checkAfter_untouched i approved).toSameCourse (s.checkAfter_keeps i approved)
    (s'.checkAfter_keeps i approved)

/-- **An instruction of the domain is carried out alike.** -/
theorem settle (law : D.Lawful γ) (h : D.Same now s s') (covers : D.covers i = true)
    (index index' : Nat) (approved : Bool) :
    D.Alike now s s' (s.settle index i approved) (s'.settle index' i approved) := by
  have attempts := h.attempt law covers
  unfold Session.settle
  generalize s.attempt i = a at attempts
  generalize s'.attempt i = a' at attempts
  cases attempts with
  | done alike =>
    dsimp only
    rw [Session.validate_of_plain alike.same.still.bare,
      Session.validate_of_plain alike.same.still'.bare]
    exact alike.trans (alike.same.checkAfter law covers approved)
  | failed f alike => exact alike.trans (alike.same.report _)

/-- What any other instruction does goes unnoticed. -/
theorem settle_right (law : D.Lawful γ) (still : s.Still now) (uncovered : D.covers i = false)
    (index : Nat) (approved : Bool) : D.Same now s (s.settle index i approved) := by
  obtain ⟨physics, coordinator, nextHandle, tables⟩ := law.unseen s uncovered
  have attempted : D.Same now s (s.attempt i).session :=
    .of_unseen still (s.attempt_sameCourse i) (s.attempt_keeps i) physics coordinator
      nextHandle tables
  rcases s.settle_cases index i approved with ⟨f, t, ha, -, he⟩ | ⟨t, ha, -, he⟩ <;>
    rw [ha] at attempted <;> rw [he]
  · exact attempted.trans
      (.of_unseen attempted.still' (t.record_untouched f i.location).toSameCourse
      (t.record_keeps f i.location) rfl rfl rfl rfl)
  · rw [Session.validate_of_plain (show t.annotations = none from attempted.still'.bare)]
    have course := (t.checkAfter_untouched i approved).toSameCourse
    have keeps := t.checkAfter_keeps i approved
    obtain ⟨diagnostics, after⟩ := t.checkAfter_eq i approved
    rw [after] at course keeps ⊢
    exact attempted.trans (.of_unseen attempted.still' course keeps rfl rfl rfl rfl)

/-! ## Requests -/

section

variable (law : D.Lawful γ) (h : D.Same now s s')
include law h

theorem gate (desk : D.oversees = true) :
    s'.gate i (Profile.ofInstruction i s'.tables.entities s'.settings) =
      s.gate i (Profile.ofInstruction i s.tables.entities s.settings) := by
  have entities : s'.tables.entities = s.tables.entities := by
    rw [← law.entities s'.tables desk, h.tables, law.entities s.tables desk]
  unfold Session.gate
  rw [entities, h.settings]

variable [Gateway γ] (decide : Request → Decision)

omit [Physics π] [Coordinator κ] law in
/-- A request of the domain is filed alike. -/
theorem file (desk : D.oversees = true) (filing : Filing) :
    (s'.file i filing).1 = (s.file i filing).1 ∧
      D.Alike now s s' (s.file i filing).2 (s'.file i filing).2 := by
  have filed (request : Request) (gateway : γ) :
      D.Same now { s with gateway, reviews := s.reviews.push ⟨request, none⟩ }
        { s' with gateway, reviews := s'.reviews.push ⟨request, none⟩ } :=
    { h with gateway := fun _ => rfl, reviews := fun _ => by rw [h.reviews desk] }
  unfold Session.file
  rw [h.gateway desk]
  exact ⟨rfl, ((filed _ _).say _).since rfl rfl rfl rfl⟩

/-- The answer to a request of the domain is taken alike. -/
theorem heard (covers : D.covers i = true) (desk : D.oversees = true) (request : Request)
    (index index' : Nat) :
    D.Alike now s s' (Session.heard decide s ⟨request, i, index⟩)
      (Session.heard decide s' ⟨request, i, index'⟩) := by
  unfold Session.heard
  dsimp only
  rw [h.gateway desk]
  rcases Gateway.answer s.gateway request.id (decide request) with ⟨⟨e⟩ | ⟨⟩, gateway⟩
  · have idle : D.Same now { s with gateway, suspension := none, status := .running }
        { s' with gateway, suspension := none, status := .running } :=
      { h with gateway := fun _ => rfl }
    exact (idle.report _).since rfl rfl rfl rfl
  · have answered (d : Decision) : D.Same now
        { s with
          gateway
          suspension := none
          status := .running
          reviews := (Session.decideLast request.id d s.reviews.toList).toArray }
        { s' with
          gateway
          suspension := none
          status := .running
          reviews := (Session.decideLast request.id d s'.reviews.toList).toArray } :=
      { h with gateway := fun _ => rfl, reviews := fun _ => by rw [h.reviews desk] }
    dsimp only
    cases decide request with
    | approve =>
      have said (line : String) := (answered .approve).say line
      exact ((said _).trans ((said _).same.settle law covers index index' true)).since
        rfl rfl rfl rfl
    | reject => exact ((answered .reject).report _).since rfl rfl rfl rfl

/-- The request of an instruction of the domain is made and answered alike. -/
theorem dispatch (covers : D.covers i = true) (index index' : Nat) :
    D.Alike now s s' (Session.concluded decide i (s.dispatch index i))
      (Session.concluded decide i (s'.dispatch index' i)) := by
  have settled := h.settle law covers index index' false
  have kind (r : Session π γ κ) :
      (Profile.ofInstruction i r.tables.entities r.settings).kind = i.opcode.operationKind := rfl
  unfold Session.dispatch
  dsimp only
  rw [kind s, kind s']
  by_cases gated : i.opcode.operationKind.isGated = true
  · have desk : D.oversees = true := (law.requests gated).symm.trans covers
    rw [if_pos gated, if_pos gated, h.gate law desk]
    cases s.gate i (Profile.ofInstruction i s.tables.entities s.settings) with
    | passed => exact settled
    | closed f => exact h.report _
    | review filing =>
      obtain ⟨request, filed⟩ := h.file desk filing (i := i)
      dsimp only [Session.concluded]
      rw [request]
      have waits : D.Same now
          { (s.file i filing).2 with
            status := .suspended
            suspension := some ⟨(s.file i filing).1, i, (s.file i filing).2.position⟩ }
          { (s'.file i filing).2 with
            status := .suspended
            suspension := some ⟨(s.file i filing).1, i, (s'.file i filing).2.position⟩ } :=
        { filed.same with }
      exact filed.trans ((waits.heard law decide covers desk _ _ _).since rfl rfl rfl rfl)
  · rw [if_neg gated, if_neg gated]
    exact settled

end

variable [Gateway γ] (decide : Request → Decision)

/-- Any other instruction makes its request unnoticed. -/
theorem dispatch_right (law : D.Lawful γ) (still : s.Still now) (uncovered : D.covers i = false)
    (index : Nat) : D.Same now s (Session.concluded decide i (s.dispatch index i)) := by
  have settled := settle_right law still uncovered index false
  have kind : (Profile.ofInstruction i s.tables.entities s.settings).kind =
      i.opcode.operationKind := rfl
  unfold Session.dispatch
  dsimp only
  rw [kind]
  by_cases gated : i.opcode.operationKind.isGated = true
  · have desk : D.oversees = false := (law.requests gated).symm.trans uncovered
    rw [if_pos gated]
    cases s.gate i (Profile.ofInstruction i s.tables.entities s.settings) with
    | passed => exact settled
    | closed f => exact of_desk still desk _ _ _ _ _ _
    | review filing =>
      dsimp only [Session.concluded, Session.heard]
      generalize (s.file i filing).1 = request
      split
      · rename_i gateway _
        cases decide request with
        | approve =>
          have answered (op : Suspension) : D.Same now s
              (({ (s.file i filing).2 with status := .suspended, suspension := some op } :
                Session π γ κ).answered op gateway .approve) :=
            of_desk still desk _ _ _ _ _ _
          exact (answered _).trans (settle_right law (answered _).still' uncovered _ true)
        | reject => exact of_desk still desk _ _ _ _ _ _
      · exact of_desk still desk _ _ _ _ _ _
  · rw [if_neg gated]
    exact settled

end Same

/-! ## Turns -/

/-- **Sessions in step**: the domain cannot tell them apart once their deadlines are noted. -/
def InStep (D : Domain π κ) (now : Nat) (s s' : Session π γ κ) : Prop :=
  D.Same now s.fireTimers s'.fireTimers

/-- To note deadlines again is of no use while the clock stands still. -/
theorem Same.fired (still : s.Still now) : D.Same now s.fireTimers s.fireTimers.fireTimers := by
  have again := still.keeps s.fireTimers_sameCourse s.fireTimers_keeps
  refine .of_unseen again s.fireTimers.fireTimers_sameCourse s.fireTimers.fireTimers_keeps
    rfl rfl rfl ?_
  have first : s.fireTimers.tables = expired now s.tables := by
    rw [← still.clock.now_eq]
    rfl
  have second : s.fireTimers.fireTimers.tables = expired now s.fireTimers.tables := by
    rw [← again.clock.now_eq]
    rfl
  rw [second, first, expired_expired]

namespace InStep

theorem still (h : D.InStep now s s') : s.Still now := by
  have still : s.fireTimers.Still now := Same.still h
  exact still

theorem still' (h : D.InStep now s s') : s'.Still now := by
  have still : s'.fireTimers.Still now := Same.still' h
  exact still

variable [Physics π] [Gateway γ] [Coordinator κ] (decide : Request → Decision) (law : D.Lawful γ)
include law

/-- **In the turn of an instruction of the domain both write the same**, and stay in step. -/
theorem turn (h : D.InStep now s s') (covers : D.covers i = true) :
    D.Alike now s s' (s.turn decide i) (s'.turn decide i) := by
  have counted : D.Same now s.counted.fireTimers s'.counted.fireTimers := { h with }
  have done := counted.dispatch law decide covers s.position s'.position
  rw [Session.turn_of_plain decide h.still.bare, Session.turn_of_plain decide h.still'.bare]
  exact ⟨{ done.same with }, done.wrote⟩

/-- **The turn of any other instruction goes unnoticed.** -/
theorem turn_left (h : D.InStep now s s') (uncovered : D.covers i = false) :
    D.InStep now (s.turn decide i) s' := by
  have still : s.counted.fireTimers.Still now := h.still
  have done := Same.dispatch_right decide law still uncovered s.position
  have unseen : D.Same now s.fireTimers (s.turn decide i) := by
    rw [Session.turn_of_plain decide h.still.bare]
    exact { done with }
  exact (unseen.fireTimers law).symm.trans ((Same.fired h.still).symm.trans h)

/-- Instructions of the domain, one after another. -/
theorem turns (is : List Instruction) (h : D.InStep now s s')
    (covered : ∀ i ∈ is, D.covers i = true) :
    D.InStep now (is.foldl (Session.turn decide) s) (is.foldl (Session.turn decide) s') ∧
      ∃ lines found, s.Wrote lines found (is.foldl (Session.turn decide) s) ∧
        s'.Wrote lines found (is.foldl (Session.turn decide) s') := by
  induction is generalizing s s' with
  | nil => exact ⟨h, [], [], .refl s, .refl s'⟩
  | cons i rest ih =>
    obtain ⟨same, lines, found, hw, hw'⟩ := h.turn decide law (covered i List.mem_cons_self)
    obtain ⟨after, more, others, gw, gw'⟩ :=
      ih (same.fireTimers law) fun j hj => covered j (List.mem_cons_of_mem i hj)
    exact ⟨after, lines ++ more, found ++ others, hw.trans gw, hw'.trans gw'⟩

/-- **All other instructions might as well be left out.** -/
theorem turns_filter (is : List Instruction) (h : D.InStep now s s') :
    D.InStep now (is.foldl (Session.turn decide) s)
      ((is.filter D.covers).foldl (Session.turn decide) s') := by
  induction is generalizing s s' with
  | nil => exact h
  | cons i rest ih =>
    cases covers : D.covers i with
    | true =>
      rw [List.filter_cons_of_pos covers]
      exact ih ((h.turn decide law covers).same.fireTimers law)
    | false =>
      rw [List.filter_cons_of_neg (by simp [covers])]
      exact ih (h.turn_left decide law covers)

end InStep

end

end Domain

end GovernedQuantum
