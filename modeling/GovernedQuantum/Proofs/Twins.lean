import GovernedQuantum.Proofs.Kinship

/-!
# Sessions with other collaborators

Two sessions are **twins** when they agree in all that instructions act on, and differ in who
measures and who explains. A physics leaves its numbers in the records and in the details of
tickets, an explainer its words on the console, and neither is asked for anything else. This is a
kinship: what one of two twins can do the other can do too, and they stay twins.

* `Session.Twin`, `Session.Abreast`: twins, and twins that stand at the same place of the same run.
* `SameLine`: how two runs write a line.
* `Kinship.twins`: how twins differ.
* `Session.Abreast.of_kin`: work that kin do alike keeps them abreast.
* `Session.Abreast.attempt`: **twins carry out an instruction alike**, and fail by the same fault.
-/

namespace GovernedQuantum

/-! ## What may differ -/

/-- Records of one measurement, with what each physics made of it. -/
def Record.Alike (r r' : Record) : Prop :=
  ∃ outcome probability, r' = { r with outcome, probability }

/-- Tickets for one delegation, with what each physics added. -/
def Ticket.Alike (t t' : Ticket) : Prop := ∃ detail, t' = { t with detail }

/-- Tables with the same entries, up to the numbers of a physics. -/
def Tables.Alike (t t' : Tables) : Prop := t.Agree Record.Alike Ticket.Alike t'

/-- How two runs of `is` write a line: in the same words, unless a measurement, a verification or a
decision among the instructions writes it. -/
inductive SameLine (is : List Instruction) : String → String → Prop
  | same (line : String) : SameLine is line line
  | measured {i : Instruction} (mem : i ∈ is) (op : i.opcode = .measure) (m m' : Measurement) :
      SameLine is (Line.measured (i.arg 0) m) (Line.measured (i.arg 0) m')
  | verified {i : Instruction} (mem : i ∈ is) (op : i.opcode = .verify) (passed : Bool)
      (summary summary' : String) :
      SameLine is (Line.verified (i.arg 0) passed summary) (Line.verified (i.arg 0) passed summary')
  | decided {i : Instruction} (mem : i ∈ is) (op : i.opcode = .decide) (summary summary' : String) :
      SameLine is (Line.decided (i.arg 0) (i.arg 1) summary)
        (Line.decided (i.arg 0) (i.arg 1) summary')

/-! ## Clocks -/

namespace Clock

/-- Clocks that show the same from now on. -/
structure Alike (c c' : Clock) : Prop where
  source : c'.source = c.source
  taken : c'.taken = c.taken
  offset : c'.offset % span = c.offset % span

variable {c c' : Clock}

theorem Alike.now (h : c.Alike c') : c'.now = c.now := by
  unfold Clock.now
  rw [h.source, h.taken, Nat.add_mod, h.offset, ← Nat.add_mod]

theorem Alike.read (h : c.Alike c') : c.read.2.Alike c'.read.2 :=
  { h with taken := congrArg (· + 1) h.taken }

theorem Alike.advance (h : c.Alike c') (ms : Nat) : (c.advance ms).Alike (c'.advance ms) where
  source := h.source
  taken := h.taken
  offset := by
    have moved : (c'.offset + ms) % span = (c.offset + ms) % span := by
      rw [Nat.add_mod, h.offset, ← Nat.add_mod]
    exact congrArg (· % span) moved

/-- To move a clock by nothing is to leave it alone. -/
theorem Alike.advance_zero_left (h : c.Alike c') : (c.advance 0).Alike c' :=
  { h with offset := h.offset.trans (Nat.mod_mod _ _).symm }

theorem Alike.advance_zero_right (h : c.Alike c') : c.Alike (c'.advance 0) :=
  { h with offset := (Nat.mod_mod _ _).trans h.offset }

end Clock

/-! ## Twins -/

namespace Staff

variable {π π' : Type}

/-- How far a call of each collaborator moves the clock. -/
def latencies (a : Staff π) : Delays :=
  { a.delays with
    explainer := if a.explainer.any (·.isAvailable) then a.delays.explainer else 0 }

/-- An explainer that is called and takes no time leaves the clock where one that is not called
does. -/
theorem awaited_alike {a : Staff π} {a' : Staff π'} {c c' : Clock}
    (same : a'.latencies = a.latencies) (h : c.Alike c') : (a.awaited c).Alike (a'.awaited c') := by
  have same : a'.latencies.explainer = a.latencies.explainer := by rw [same]
  unfold awaited
  unfold latencies at same
  cases available : a.explainer.any (·.isAvailable) <;>
    cases available' : a'.explainer.any (·.isAvailable) <;>
    simp only [available, available', if_true, Bool.false_eq_true, if_false] at same ⊢
  · exact h
  · rw [same]
    exact h.advance_zero_right
  · rw [← same]
    exact h.advance_zero_left
  · rw [same]
    exact h.advance _

end Staff

/-- Twins in a run of `is` differ in the numbers of their physics and the words of their
explainers. -/
def Kinship.twins {π π' : Type} [Physics π] [Physics π'] (is : List Instruction) (limit : Nat) :
    Kinship π π' where
  limit := limit
  shared i := i ∈ is
  clocks := Clock.Alike
  staff a a' := a'.latencies = a.latencies
  line := SameLine is
  console xs ys := List.Forall₂ (SameLine is) xs.toList ys.toList
  findings ds es := es = ds
  records := Record.Alike
  tickets := Ticket.Alike
  now h _ := h.now
  read h := h.read
  consulted {a a' _ _} same h := by
    have same : a'.latencies.physics = a.latencies.physics := congrArg Delays.physics same
    exact show Clock.Alike _ (Clock.advance _ a'.latencies.physics) from same ▸ h.advance _
  entrusted {a a' _ _} same h := by
    have same : a'.latencies.coordinator = a.latencies.coordinator :=
      congrArg Delays.coordinator same
    exact show Clock.Alike _ (Clock.advance _ a'.latencies.coordinator) from same ▸ h.advance _
  awaited same h := Staff.awaited_alike same h
  same := .same
  write h alike := forall₂_push h alike
  report d h := congrArg (·.push d) h
  measured mem op same _ _ _ _ _ _ _ :=
    ⟨same, .measured mem op _ _, fun _ => ⟨_, _, rfl⟩⟩
  keyed same _ _ _ _ _ _ _ _ _ := ⟨same, fun _ => ⟨_, rfl⟩⟩
  estimated same _ _ _ _ _ _ _ _ := ⟨same, fun _ => ⟨_, rfl⟩⟩
  plain ticket := ⟨ticket.detail, rfl⟩
  verified mem op _ passed _ := .verified mem op passed _ _
  decided mem op _ := .decided mem op _ _

namespace Session

variable {π π' γ κ : Type}

/-- How far a call of each collaborator moves the clock. -/
def latencies (s : Session π γ κ) : Delays :=
  { s.delays with
    explainer := if s.explainer.any (·.isAvailable) then s.delays.explainer else 0 }

/-- Sessions that differ in their physics and its seed, in their explainer, and in what these have
left behind. They are on one clock, so a call of either one's collaborator takes the same time. -/
structure Twin (s : Session π γ κ) (s' : Session π' γ κ) : Prop where
  id : s'.id = s.id
  settings : s'.settings = { s.settings with seed := s'.settings.seed }
  clock : s.clock.Alike s'.clock
  latencies : s'.latencies = s.latencies
  gateway : s'.gateway = s.gateway
  coordinator : s'.coordinator = s.coordinator
  nextHandle : s'.nextHandle = s.nextHandle
  tables : s.tables.Alike s'.tables
  reviews : s'.reviews = s.reviews

/-- The session with another physics, of another seed, and another explainer, each with its
delays. -/
def staffed (s : Session π γ κ) (physics : π') (explainer : Option Provider) (delays : Delays)
    (seed : Nat) : Session π' γ κ :=
  { s with physics, explainer, delays, settings := { s.settings with seed } }

theorem twin_staffed (s : Session π γ κ) (physics : π') (explainer : Option Provider)
    (delays : Delays) (seed : Nat)
    (paced : (s.staffed physics explainer delays seed).latencies = s.latencies) :
    s.Twin (s.staffed physics explainer delays seed) where
  id := rfl
  settings := rfl
  clock := ⟨rfl, rfl, rfl⟩
  latencies := paced
  gateway := rfl
  coordinator := rfl
  nextHandle := rfl
  tables := .refl (fun r => ⟨r.outcome, r.probability, rfl⟩) (fun k => ⟨k.detail, rfl⟩) s.tables
  reviews := rfl

/-- Twins at the same place of a run of `is`, with the same findings and the same lines written. -/
structure Abreast (is : List Instruction) (s : Session π γ κ) (s' : Session π' γ κ) : Prop
    extends Twin s s' where
  status : s'.status = s.status
  program : s'.program = s.program
  annotations : s'.annotations = s.annotations
  position : s'.position = s.position
  steps : s'.steps = s.steps
  suspension : s'.suspension = s.suspension
  diagnostics : s'.diagnostics = s.diagnostics
  console : List.Forall₂ (SameLine is) s.console.toList s'.console.toList
  runs : s.program.instructions = is
  waits : ∀ op ∈ s.suspension, op.instruction ∈ is

namespace Abreast

variable {is : List Instruction} {s t : Session π γ κ} {s' t' : Session π' γ κ}

section Kinship

variable [Physics π] [Physics π']

theorem kin (h : Abreast is s s') (limit : Nat) : Kin (.twins is limit) s s' :=
  { h with staff := h.latencies }

/-- Work that kin do alike keeps them abreast, if it leaves their place in the run alone. -/
theorem of_kin (h : Abreast is s s') {limit : Nat} (kin : Kin (.twins is limit) t t')
    (keeps : s.Keeps t) (course : s.SameCourse t) (keeps' : s'.Keeps t')
    (course' : s'.SameCourse t') : Abreast is t t' where
  id := kin.id
  settings := kin.settings
  clock := kin.clock
  latencies := kin.staff
  gateway := by rw [keeps'.gateway, h.gateway, keeps.gateway]
  coordinator := kin.coordinator
  nextHandle := kin.nextHandle
  tables := kin.tables
  reviews := by rw [keeps'.reviews, h.reviews, keeps.reviews]
  status := by rw [course'.status, h.status, course.status]
  program := by rw [course'.program, h.program, course.program]
  annotations := by rw [course'.annotations, h.annotations, course.annotations]
  position := by rw [course'.position, h.position, course.position]
  steps := by rw [course'.steps, h.steps, course.steps]
  suspension := by rw [course'.suspension, h.suspension, course.suspension]
  diagnostics := kin.diagnostics
  console := kin.console
  runs := by rw [course.program, h.runs]
  waits := by
    rw [course.suspension]
    exact h.waits

/-- **Twins carry out an instruction alike.** -/
theorem attempt [Coordinator κ] (h : Abreast is s s') {i : Instruction} (mem : i ∈ is) :
    Attempt.Alike (Abreast is) (s.attempt i) (s'.attempt i) := by
  have keeps := s.attempt_keeps i
  have keeps' := s'.attempt_keeps i
  have course := s.attempt_sameCourse i
  have course' := s'.attempt_sameCourse i
  obtain ⟨limit, alike⟩ : ∃ limit, Attempt.Alike (Kin (.twins is limit)) (s.attempt i)
      (s'.attempt i) :=
    ⟨_, (h.kin _).attempt mem (Nat.le_refl _)⟩
  generalize s.attempt i = a at *
  generalize s'.attempt i = a' at *
  cases alike with
  | done kin => exact .done (h.of_kin kin keeps course keeps' course')
  | failed f kin => exact .failed f (h.of_kin kin keeps course keeps' course')

end Kinship

end Abreast

end Session

end GovernedQuantum
