import GovernedQuantum.Proofs.Scan
import Mathlib.Data.List.Forall2

/-!
# Sessions that do the same

An instruction acts on the tables and asks collaborators. It takes readings of the clock, it leaves
numbers and words of others in records, tickets and lines, and it writes findings; of all these it
never looks at anything but the clock again. So two sessions that differ in them do the same as long
as their clocks show the same.

* `Kinship`: how two sessions may differ, and that it lasts. `Kinship.exact`: not in whom they ask.
* `Session.Kin K`: sessions that differ by `K`, and otherwise only in what instructions never look
  at.
* `Session.Kin.effect`, `Session.Kin.fails`: whatever one of them does, the other can do.
* `Session.Kin.attempt`: **kin carry out an instruction alike**, and fail by the same fault.
* `Session.Kin.checkAfter`, `Session.Kin.finalScan`: and so it is with what is looked at around
  them.
-/

namespace GovernedQuantum

theorem forall₂_push {α : Type} {R : α → α → Prop} {xs ys : Array α} {x y : α}
    (h : List.Forall₂ R xs.toList ys.toList) (last : R x y) :
    List.Forall₂ R (xs.push x).toList (ys.push y).toList := by
  rw [Array.toList_push, Array.toList_push]
  exact List.rel_append h (.cons last .nil)

theorem Clock.Runs.taken_le {d : Delays} {c c' : Clock} (h : Clock.Runs d c c') :
    c.taken ≤ c'.taken := by
  induction h with
  | refl => exact Nat.le_refl _
  | read _ ih => exact Nat.le_succ_of_le ih
  | physics _ ih => exact ih
  | coordinator _ ih => exact ih
  | explainer _ ih => exact ih

theorem Clock.Runs.source_eq {d : Delays} {c c' : Clock} (h : Clock.Runs d c c') :
    c'.source = c.source := by
  induction h with
  | refl => rfl
  | read _ ih => exact ih
  | physics _ ih => exact ih
  | coordinator _ ih => exact ih
  | explainer _ ih => exact ih

/-! ## Tables -/

namespace Tables

/-- Tables with the same entries, up to what records and tickets hold. -/
structure Agree (records : Record → Record → Prop) (tickets : Ticket → Ticket → Prop)
    (t t' : Tables) : Prop where
  register : t'.register = t.register
  bindings : t'.bindings = t.bindings
  usage : t'.usage = t.usage
  entangled : t'.entangled = t.entangled
  entities : t'.entities = t.entities
  values : t'.values = t.values
  records : List.Forall₂ records t.records.toList t'.records.toList
  targetNode : t'.network.targetNode = t.network.targetNode
  channel : t'.network.channel = t.network.channel
  barriers : t'.network.barriers = t.network.barriers
  windows : t'.network.windows = t.network.windows
  delegations : List.Forall₂ tickets t.network.delegations.toList t'.network.delegations.toList

namespace Agree

variable {R : Record → Record → Prop} {T : Ticket → Ticket → Prop}

theorem refl (record : ∀ r, R r r) (ticket : ∀ k, T k k) (t : Tables) : Agree R T t t where
  register := rfl
  bindings := rfl
  usage := rfl
  entangled := rfl
  entities := rfl
  values := rfl
  records := List.forall₂_same.2 fun r _ => record r
  targetNode := rfl
  channel := rfl
  barriers := rfl
  windows := rfl
  delegations := List.forall₂_same.2 fun k _ => ticket k

/-- Up to nothing, they are the same tables. -/
theorem eq {t t' : Tables} (h : Agree Eq Eq t t') : t' = t := by
  obtain ⟨register, bindings, usage, entangled, entities, values, records, targetNode, channel,
    barriers, windows, delegations⟩ := h
  rw [List.forall₂_eq_eq_eq, Array.toList_inj] at records delegations
  obtain ⟨_, _, _, _, _, _, _, ⟨_, _, _, _, _⟩⟩ := t
  obtain ⟨_, _, _, _, _, _, _, ⟨_, _, _, _, _⟩⟩ := t'
  simp_all

variable {t t' : Tables} (h : Agree R T t t')
include h

theorem usageOf (name : String) : t'.usageOf name = t.usageOf name := by
  rw [Tables.usageOf, Tables.usageOf, h.usage]

theorem handle? (name : String) : t'.handle? name = t.handle? name := by
  rw [Tables.handle?, Tables.handle?, h.bindings, h.register]

theorem resolve (name : String) : t'.resolve name = t.resolve name := by
  simp only [Tables.resolve, h.bindings, h.usageOf, h.register]

theorem context (now : Nat) : t'.context now = t.context now := by
  have counts : t'.usageOf = t.usageOf := funext h.usageOf
  simp only [Tables.context, counts, h.handle?, h.entangled, h.entities]

theorem withRegister {r r' : Register} (same : r' = r) :
    Agree R T { t with register := r } { t' with register := r' } :=
  { h with register := same }

theorem modifyHandle (x : Nat) (f : Handle → Handle) :
    Agree R T (t.modifyHandle x f) (t'.modifyHandle x f) :=
  h.withRegister (by rw [h.register])

theorem putEntity (name : String) (e : Entity) :
    Agree R T (t.putEntity name e) (t'.putEntity name e) :=
  { h with entities := congrArg (·.insert name e) h.entities }

theorem dissolves (x : Nat) : t'.dissolves x = t.dissolves x := by
  rw [Tables.dissolves, Tables.dissolves, h.register]

theorem spend (name : String) (x : Nat) : Agree R T (t.spend name x) (t'.spend name x) := by
  have counted : t'.usage.insert name (t'.usageOf name + 1) =
      t.usage.insert name (t.usageOf name + 1) := by
    rw [h.usage, h.usageOf]
  exact { h with
    register := by rw [Tables.spend, Tables.spend, countUse, countUse, h.register]
    usage := counted }

theorem filed {ticket ticket' : Ticket} (alike : T ticket ticket') :
    Agree R T (t.filed ticket) (t'.filed ticket') :=
  { h with delegations := forall₂_push h.delegations alike }

end Agree

end Tables

/-! ## Tickets -/

namespace Line

-- what is said about a ticket does not tell what the local side has added to it

theorem delegated_withKey (ticket : Ticket) (key : KeyMaterial) :
    delegated (ticket.withKey key) = delegated ticket := rfl

theorem delegated_withFidelity (ticket : Ticket) (fidelity : Binary64) :
    delegated (ticket.withFidelity fidelity) = delegated ticket := rfl

end Line

/-! ## Kinship -/

/-- Whom a session works with on site, and the time that each takes. -/
structure Staff (π : Type) where
  physics : π
  explainer : Option Provider
  delays : Delays

/-- The clock after a call of the explainer, if there is one to call. -/
def Staff.awaited {π : Type} (a : Staff π) (c : Clock) : Clock :=
  if a.explainer.any (·.isAvailable) then c.advance a.delays.explainer else c

/-- **How two sessions may differ.** Their clocks show the same until the first has taken `limit`
readings, and what holds between them goes on to hold while they do the same: read the clock, call a
collaborator, write a line on an instruction that they share, report, file a record or a ticket. -/
structure Kinship (π π' : Type) [Physics π] [Physics π'] where
  limit : Nat
  shared : Instruction → Prop
  clocks : Clock → Clock → Prop
  staff : Staff π → Staff π' → Prop
  line : String → String → Prop
  console : Array String → Array String → Prop
  findings : Diagnostics → Diagnostics → Prop
  records : Record → Record → Prop
  tickets : Ticket → Ticket → Prop
  now {c c' : Clock} : clocks c c' → c.taken < limit → c'.now = c.now
  read {c c' : Clock} : clocks c c' → clocks c.read.2 c'.read.2
  consulted {a : Staff π} {a' : Staff π'} {c c' : Clock} : staff a a' → clocks c c' →
    clocks (c.advance a.delays.physics) (c'.advance a'.delays.physics)
  entrusted {a : Staff π} {a' : Staff π'} {c c' : Clock} : staff a a' → clocks c c' →
    clocks (c.advance a.delays.coordinator) (c'.advance a'.delays.coordinator)
  awaited {a : Staff π} {a' : Staff π'} {c c' : Clock} : staff a a' → clocks c c' →
    clocks (a.awaited c) (a'.awaited c')
  same (l : String) : line l l
  write {xs ys : Array String} {l l' : String} : console xs ys → line l l' →
    console (xs.push l) (ys.push l')
  report {ds es : Diagnostics} (d : Diagnostic) : findings ds es → findings (ds.push d) (es.push d)
  measured {a : Staff π} {a' : Staff π'} {i : Instruction} : shared i → i.opcode = .measure →
    staff a a' → ∀ {d m m' p p'}, Physics.measure a.physics d = (m, p) →
      Physics.measure a'.physics d = (m', p') →
      staff { a with physics := p } { a' with physics := p' } ∧
        line (Line.measured (i.arg 0) m) (Line.measured (i.arg 0) m') ∧
        ∀ r : Record, records { r with outcome := m.outcome, probability := m.probability }
          { r with outcome := m'.outcome, probability := m'.probability }
  keyed {a : Staff π} {a' : Staff π'} : staff a a' →
    ∀ {here there n k k' p p'}, Physics.distributeKey a.physics here there n = (k, p) →
      Physics.distributeKey a'.physics here there n = (k', p') →
      staff { a with physics := p } { a' with physics := p' } ∧
        ∀ ticket : Ticket, tickets (ticket.withKey k) (ticket.withKey k')
  estimated {a : Staff π} {a' : Staff π'} : staff a a' →
    ∀ {here there f f' p p'}, Physics.fidelity a.physics here there = (f, p) →
      Physics.fidelity a'.physics here there = (f', p') →
      staff { a with physics := p } { a' with physics := p' } ∧
        ∀ ticket : Ticket, tickets (ticket.withFidelity f) (ticket.withFidelity f')
  plain (ticket : Ticket) : tickets ticket ticket
  verified {a : Staff π} {a' : Staff π'} {i : Instruction} : shared i → i.opcode = .verify →
    staff a a' → ∀ passed reasons,
      line (Line.verified (i.arg 0) passed
          (summarizeVerification a.explainer (i.arg 0) passed reasons))
        (Line.verified (i.arg 0) passed
          (summarizeVerification a'.explainer (i.arg 0) passed reasons))
  decided {a : Staff π} {a' : Staff π'} {i : Instruction} : shared i → i.opcode = .decide →
    staff a a' →
      line (Line.decided (i.arg 0) (i.arg 1)
          (explainDecision a.explainer (i.arg 0) (i.arg 1)).summary)
        (Line.decided (i.arg 0) (i.arg 1)
          (explainDecision a'.explainer (i.arg 0) (i.arg 1)).summary)

namespace Kinship

/-- Sessions with the same staff: clocks, consoles and findings are all they differ in. -/
def exact {π : Type} [Physics π] (limit : Nat) (clocks : Clock → Clock → Prop)
    (console : Array String → Array String → Prop) (findings : Diagnostics → Diagnostics → Prop)
    (now : ∀ {c c'}, clocks c c' → c.taken < limit → c'.now = c.now)
    (read : ∀ {c c'}, clocks c c' → clocks c.read.2 c'.read.2)
    (advance : ∀ {c c'} ms, clocks c c' → clocks (c.advance ms) (c'.advance ms))
    (say : ∀ {xs ys} line, console xs ys → console (xs.push line) (ys.push line))
    (report : ∀ {ds es} d, findings ds es → findings (ds.push d) (es.push d)) : Kinship π π where
  limit := limit
  shared _ := True
  clocks := clocks
  staff a a' := a' = a
  line l l' := l' = l
  console := console
  findings := findings
  records := Eq
  tickets := Eq
  now := now
  read := read
  consulted := by
    rintro a _ c c' rfl h
    exact advance _ h
  entrusted := by
    rintro a _ c c' rfl h
    exact advance _ h
  awaited := by
    rintro a _ c c' rfl h
    unfold Staff.awaited
    split
    · exact advance _ h
    · exact h
  same l := rfl
  write := by
    rintro xs ys _ l h rfl
    exact say l h
  report := report
  measured := by
    rintro a _ i - - rfl d m m' p p' here there
    obtain ⟨rfl, rfl⟩ := Prod.mk.inj (here.symm.trans there)
    exact ⟨rfl, rfl, fun _ => rfl⟩
  keyed := by
    rintro a _ rfl l r n k k' p p' here there
    obtain ⟨rfl, rfl⟩ := Prod.mk.inj (here.symm.trans there)
    exact ⟨rfl, fun _ => rfl⟩
  estimated := by
    rintro a _ rfl l r f f' p p' here there
    obtain ⟨rfl, rfl⟩ := Prod.mk.inj (here.symm.trans there)
    exact ⟨rfl, fun _ => rfl⟩
  plain _ := rfl
  verified := by
    rintro a _ i - - rfl passed reasons
    rfl
  decided := by
    rintro a _ i - - rfl
    rfl

variable {π π' : Type} [Physics π] [Physics π'] (K : Kinship π π')

theorem after {c c' : Clock} (h : K.clocks c c') (n : Nat) : K.clocks (c.after n) (c'.after n) := by
  induction n with
  | zero => exact h
  | succ n ih => exact K.read ih

theorem reports {ds es : Diagnostics} (found : List Diagnostic) (h : K.findings ds es) :
    K.findings (ds.pushAll found) (es.pushAll found) := by
  induction found generalizing ds es with
  | nil => exact h
  | cons d rest ih => exact ih (K.report d h)

/-- Both find the same leaks. -/
theorem leaked {c c' : Clock} (h : K.clocks c c') {hs : List Handle}
    (within : c.taken + hs.length ≤ K.limit) : c'.leaked hs = c.leaked hs := by
  induction hs generalizing c c' with
  | nil => rfl
  | cons q rest ih =>
    rw [List.length_cons] at within
    have shows : c'.now = c.now := K.now h (by omega)
    have room : (c.after 1).taken + rest.length ≤ K.limit := by
      show c.taken + 1 + rest.length ≤ K.limit
      omega
    rw [Clock.leaked, Clock.leaked, shows, ih (K.after h 1) room]

end Kinship

/-- Attempts that end alike: both take effect, or both fail by the same fault. -/
inductive Attempt.Alike {σ σ' : Type} (R : σ → σ' → Prop) : Attempt σ → Attempt σ' → Prop
  | done {s : σ} {s' : σ'} (h : R s s') : Alike R (.done s) (.done s')
  | failed (f : Fault) {s : σ} {s' : σ'} (h : R s s') : Alike R (.failed f s) (.failed f s')

namespace Session

variable {π π' γ κ : Type}

def staff (s : Session π γ κ) : Staff π := ⟨s.physics, s.explainer, s.delays⟩

variable [Physics π] [Physics π']

/-- **Kin**: sessions that differ by `K`, and otherwise in nothing that instructions look at. -/
structure Kin (K : Kinship π π') (s : Session π γ κ) (s' : Session π' γ κ) : Prop where
  id : s'.id = s.id
  settings : s'.settings = { s.settings with seed := s'.settings.seed }
  coordinator : s'.coordinator = s.coordinator
  nextHandle : s'.nextHandle = s.nextHandle
  tables : s.tables.Agree K.records K.tickets s'.tables
  staff : K.staff s.staff s'.staff
  clock : K.clocks s.clock s'.clock
  console : K.console s.console s'.console
  diagnostics : K.findings s.diagnostics s'.diagnostics

namespace Kin

variable {K : Kinship π π'} {s t : Session π γ κ} {s' : Session π' γ κ} {i : Instruction}

/-- Sessions with the same staff and the same tables. -/
theorem of_same {K : Kinship π π} {s s' : Session π γ κ} (staffed : ∀ a, K.staff a a)
    (recorded : ∀ r, K.records r r) (id : s'.id = s.id) (settings : s'.settings = s.settings)
    (delays : s'.delays = s.delays) (physics : s'.physics = s.physics)
    (coordinator : s'.coordinator = s.coordinator) (explainer : s'.explainer = s.explainer)
    (nextHandle : s'.nextHandle = s.nextHandle) (tables : s'.tables = s.tables)
    (clock : K.clocks s.clock s'.clock) (console : K.console s.console s'.console)
    (diagnostics : K.findings s.diagnostics s'.diagnostics) : Kin K s s' where
  id := id
  settings := by rw [settings]
  coordinator := coordinator
  nextHandle := nextHandle
  tables := tables ▸ .refl recorded K.plain s.tables
  staff := by
    rw [Session.staff, Session.staff, physics, explainer, delays]
    exact staffed _
  clock := clock
  console := console
  diagnostics := diagnostics

/-! ## What attempts are made of -/

section Parts

variable (h : Kin K s s')
include h

theorem coherenceTime : s'.settings.coherenceTime = s.settings.coherenceTime := by rw [h.settings]

theorem localNode : s'.settings.localNode = s.settings.localNode := by rw [h.settings]

theorem profile (i : Instruction) :
    Profile.ofInstruction i s'.tables.entities s'.settings =
      Profile.ofInstruction i s.tables.entities s.settings := by
  rw [h.tables.entities, h.settings]
  rfl

theorem requestFor (i : Instruction) (handles : List Nat) :
    s'.requestFor i handles = s.requestFor i handles := by
  simp only [Session.requestFor, delegationRequest, h.localNode, h.tables.channel, h.id,
    h.tables.targetNode]

theorem now (n : Nat) (within : s.clock.taken + n < K.limit) :
    (s'.clock.after n).now = (s.clock.after n).now :=
  K.now (K.after h.clock n) within

theorem later (n : Nat) : Kin K (s.later n) (s'.later n) := { h with clock := K.after h.clock n }

theorem write {line line' : String} (alike : K.line line line') :
    Kin K (s.say line) (s'.say line') :=
  { h with console := K.write h.console alike }

theorem say (line : String) : Kin K (s.say line) (s'.say line) := h.write (K.same line)

theorem sayDissolved (groups : List Nat) :
    Kin K (s.sayDissolved groups) (s'.sayDissolved groups) := by
  induction groups generalizing s s' with
  | nil => exact h
  | cons g rest ih => exact ih (h.say (Line.dissolved g))

theorem report (d : Diagnostic) : Kin K (s.report d) (s'.report d) :=
  { h with diagnostics := K.report d h.diagnostics }

theorem reportUnless (passed : Bool) (d : Diagnostic) :
    Kin K (s.reportUnless passed d) (s'.reportUnless passed d) := by
  cases passed with
  | true => exact h
  | false => exact h.report d

theorem withTables {u u' : Tables} (agree : u.Agree K.records K.tickets u') :
    Kin K (s.withTables u) (s'.withTables u') :=
  { h with tables := agree }

theorem awaitExplainer : Kin K s.awaitExplainer s'.awaitExplainer :=
  { h with clock := K.awaited h.staff h.clock }

theorem entrust (c : κ) : Kin K (s.entrust c) (s'.entrust c) :=
  { h with coordinator := rfl, clock := K.entrusted h.staff h.clock }

/-- A call of the physics: each is left with its own. -/
theorem consult {p : π} {p' : π'}
    (staff : K.staff { s.staff with physics := p } { s'.staff with physics := p' }) :
    Kin K (s.consult p) (s'.consult p') :=
  { h with staff := staff, clock := K.consulted h.staff h.clock }

/-- Both find the operand. -/
theorem finds {k x : Nat} {r : String} (found : s.FindsOperand i k r x)
    (within : i.needsCoherence = true → s.clock.taken + k < K.limit) : s'.FindsOperand i k r x where
  resolves := by rw [h.tables.resolve, found.resolves]
  coherent needs := by rw [h.tables.register, h.now k (within needs), found.coherent needs]

theorem getsTo {k : Nat} (gets : s.GetsTo i k)
    (within : i.needsCoherence = true → s.clock.taken + k ≤ K.limit) : s'.GetsTo i k where
  distinct := gets.distinct
  found j r before operand := by
    obtain ⟨x, found⟩ := gets.found j r before operand
    exact ⟨x, h.finds found fun needs => Nat.lt_of_lt_of_le (Nat.add_lt_add_left before _)
      (within needs)⟩

end Parts

/-! ## Attempts -/

section Attempts

variable (h : Kin K s s')
include h

/-- What an instruction makes of an entity, and what is said of it. -/
theorem governs {e e' : Entity} (shared : K.shared i) (change : s.Governs i e e' t) :
    ∃ t', s'.Governs i e e' t' ∧ Kin K t t' := by
  cases change with
  | explainability op literal => exact ⟨_, .explainability op literal, h.say _⟩
  | oversight op literal => exact ⟨_, .oversight op literal, h.say _⟩
  | criticality op literal => exact ⟨_, .criticality op literal, h.say _⟩
  | approve op => exact ⟨_, .approve op, h.say _⟩
  | deploy op => exact ⟨_, .deploy op, h.say _⟩
  | @verify verdict op judged =>
    refine ⟨_, .verify op (by rw [h.profile, judged]), ?_⟩
    have line := K.verified shared op h.staff verdict.passed verdict.reasons
    exact (h.awaitExplainer.reportUnless _ _).write line
  | decide op =>
    refine ⟨_, .decide op, ?_⟩
    have line := K.decided shared op h.staff
    exact h.awaitExplainer.write line

variable [Coordinator κ]

/-- **What takes effect in one session takes effect in its kin**, if their clocks agree that
long. -/
theorem effect (shared : K.shared i) (effect : s.Effect i t)
    (within : t.clock.taken ≤ K.limit) : ∃ t', s'.Effect i t' ∧ Kin K t t' := by
  cases effect with
  | @allocate d op unbound literal =>
    refine ⟨_, .allocate op (by rw [h.tables.bindings, unbound]) literal, ?_⟩
    have now : s'.clock.now = s.clock.now := h.now 0 within
    have numbered : Kin K { s.later 1 with nextHandle := s.nextHandle + 1 }
        { s'.later 1 with nextHandle := s.nextHandle + 1 } :=
      { h.later 1 with nextHandle := rfl }
    rw [h.nextHandle, now, h.coherenceTime, h.tables.register, h.tables.bindings]
    exact (numbered.say _).withTables { h.tables with register := rfl, bindings := rfl }
  | @entangle x y now op distinct left right apart time =>
    have room : s.clock.taken + 3 ≤ K.limit := within
    refine ⟨_, .entangle op distinct (h.finds left fun _ => by omega)
      (h.finds right fun _ => by omega) (by rw [h.tables.register, apart])
      ((h.now 2 (by omega)).trans time), ?_⟩
    rw [h.coherenceTime, h.tables.register, h.tables.entangled]
    exact ((h.later 3).say _).withTables { h.tables with register := rfl, entangled := rfl }
  | @disentangle x y g op left right joined =>
    have plain : i.needsCoherence ≠ true := by simp [Instruction.needsCoherence, op]
    refine ⟨_, .disentangle op (h.finds left (absurd · plain)) (h.finds right (absurd · plain))
      (by rw [h.tables.register, joined]), ?_⟩
    have now : s'.clock.now = s.clock.now := h.now 0 within
    rw [now]
    exact ((h.later 1).say _).withTables (h.tables.withRegister (by rw [h.tables.register]))
  | @applyGate x op operand =>
    have room : s.clock.taken + 2 ≤ K.limit := within
    refine ⟨_, .applyGate op (h.finds operand fun _ => by omega), ?_⟩
    rw [h.now 1 (by omega)]
    exact ((h.later 2).say _).withTables (h.tables.modifyHandle x _)
  | @measure x q m p op operand live measured =>
    have plain : i.needsCoherence ≠ true := by simp [Instruction.needsCoherence, op]
    rcases measured' : Physics.measure s'.physics q.dimension with ⟨m', p'⟩
    obtain ⟨staff, line, records⟩ := K.measured shared op h.staff measured measured'
    refine ⟨_, .measure op (h.finds operand (absurd · plain)) (by rw [h.tables.register, live])
      measured', ?_⟩
    have asked : Kin K (s.consult p) (s'.consult p') := h.consult staff
    have now : (s'.consult p').clock.now = (s.consult p).clock.now := asked.now 0 within
    rw [now, h.tables.dissolves, h.tables.register]
    refine (((asked.later 1).sayDissolved _).write line).withTables ?_
    have spent := h.tables.spend (i.arg 0) x
    exact { spent with
      records := forall₂_push spent.records (records ⟨_, _, _, m.outcome, m.probability, _, _⟩) }
  | @release x op operand =>
    have plain : i.needsCoherence ≠ true := by simp [Instruction.needsCoherence, op]
    refine ⟨_, .release op (h.finds operand (absurd · plain)), ?_⟩
    rw [h.tables.dissolves]
    exact ((h.sayDissolved _).say _).withTables (h.tables.spend _ x)
  | declare op unknown =>
    refine ⟨_, .declare op (by rw [h.tables.entities, unknown]), ?_⟩
    exact (h.say _).withTables (h.tables.putEntity _ _)
  | govern known change =>
    obtain ⟨u', change', changed⟩ := h.governs shared change
    refine ⟨_, .govern (by rw [h.tables.entities, known]) change', ?_⟩
    exact changed.withTables (h.tables.putEntity _ _)
  | bind op =>
    refine ⟨_, .bind op, h.withTables ?_⟩
    exact { h.tables with values := by rw [h.tables.values] }
  | print op known => exact ⟨_, .print op (by rw [h.tables.values, known]), h.say _⟩
  | targetNode op =>
    exact ⟨_, .targetNode op, (h.say _).withTables { h.tables with targetNode := rfl }⟩
  | channel op =>
    exact ⟨_, .channel op, (h.say _).withTables { h.tables with channel := rfl }⟩
  | @barrier deadline op literal =>
    refine ⟨_, .barrier op literal, ?_⟩
    have now : s'.clock.now = s.clock.now := h.now 0 within
    rw [now, h.localNode, h.tables.barriers]
    exact ((h.later 1).say _).withTables { h.tables with barriers := rfl }
  | @window soft hard op first last order =>
    refine ⟨_, .window op first last order, ?_⟩
    have now : s'.clock.now = s.clock.now := h.now 0 within
    rw [now, h.tables.windows]
    exact ((h.later 1).say _).withTables { h.tables with windows := rfl }
  | @entangleRemote x ticket c key p op operand accepted keyed =>
    have room : s.clock.taken + 1 + 1 ≤ K.limit := within
    rw [← h.localNode] at keyed
    rcases keyed' : Physics.distributeKey s'.physics s'.settings.localNode (i.arg 1) keyQubits with
      ⟨key', p'⟩
    obtain ⟨staff, tickets⟩ := K.keyed h.staff keyed keyed'
    refine ⟨_, .entangleRemote op (h.finds operand fun _ => by omega)
      (by rw [h.coordinator, h.requestFor, accepted]) keyed', ?_⟩
    have asked : Kin K (s.calledUpon c p) (s'.calledUpon c p') :=
      ((h.later 1).entrust c).consult staff
    have now : (s'.calledUpon c p').clock.now = (s.calledUpon c p).clock.now := asked.now 0 within
    rw [now, Line.delegated_withKey, Line.delegated_withKey]
    exact ((asked.later 1).say _).withTables
      ((h.tables.modifyHandle x _).filed (tickets ticket))
  | @teleport x q ticket c fidelity p op operand live accepted estimated =>
    have room : s.clock.taken + 1 ≤ K.limit := within
    rw [← h.localNode] at estimated
    rcases estimated' : Physics.fidelity s'.physics s'.settings.localNode (i.arg 1) with
      ⟨fidelity', p'⟩
    obtain ⟨staff, tickets⟩ := K.estimated h.staff estimated estimated'
    refine ⟨_, .teleport op (h.finds operand fun _ => by omega) (by rw [h.tables.register, live])
      (by rw [h.coordinator, h.requestFor, accepted]) estimated', ?_⟩
    have asked : Kin K (s.calledUpon c p) (s'.calledUpon c p') :=
      ((h.later 1).entrust c).consult staff
    rw [h.tables.dissolves, Line.delegated_withFidelity, Line.delegated_withFidelity]
    exact ((asked.sayDissolved _).say _).withTables
      ((h.tables.spend _ x).filed (tickets ticket))
  | @swap x y ticket c op distinct left right accepted =>
    have plain : i.needsCoherence ≠ true := by simp [Instruction.needsCoherence, op]
    refine ⟨_, .swap op distinct (h.finds left (absurd · plain)) (h.finds right (absurd · plain))
      (by rw [h.coordinator, h.requestFor, accepted]), ?_⟩
    have asked := h.entrust c
    have now : (s'.entrust c).clock.now = (s.entrust c).clock.now := asked.now 0 within
    rw [now]
    exact ((asked.later 1).say _).withTables
      (((h.tables.modifyHandle x _).modifyHandle y _).filed (K.plain ticket))

/-- **What fails in one session fails in its kin**, and by the same fault. -/
theorem fails {f : Fault} (fails : s.Fails i f t) (within : t.clock.taken ≤ K.limit) :
    ∃ t', s'.Fails i f t' ∧ Kin K t t' := by
  cases fails with
  | alreadyBound op bound => exact ⟨s', .alreadyBound op (by rw [h.tables.bindings, bound]), h⟩
  | invalidDimension op unbound literal =>
    exact ⟨s', .invalidDimension op (by rw [h.tables.bindings, unbound]) literal, h⟩
  | @unresolved k n r f gets operand cause readings =>
    refine ⟨s'.later n, .unresolved (h.getsTo gets fun needs => ?_) operand
      (by rw [h.tables.resolve, cause]) readings, h.later n⟩
    rw [needs, if_pos rfl] at readings
    exact readings ▸ within
  | @decoherent k x r gets operand needs resolves stale =>
    refine ⟨s'.later (k + 1), .decoherent (h.getsTo gets fun _ => Nat.le_of_succ_le within) operand
      needs (by rw [h.tables.resolve, resolves]) ?_, h.later (k + 1)⟩
    rw [h.tables.register, h.now k within, stale]
  | selfEntanglement op same => exact ⟨s', .selfEntanglement op same, h⟩
  | alreadyEntangled op distinct left right joined =>
    have room : s.clock.taken + 2 ≤ K.limit := within
    exact ⟨s'.later 2, .alreadyEntangled op distinct (h.finds left fun _ => by omega)
      (h.finds right fun _ => by omega) (by rw [h.tables.register, joined]), h.later 2⟩
  | notEntangled op left right apart =>
    have plain : i.needsCoherence ≠ true := by simp [Instruction.needsCoherence, op]
    exact ⟨s', .notEntangled op (h.finds left (absurd · plain)) (h.finds right (absurd · plain))
      (by rw [h.tables.register, apart]), h⟩
  | unknownEntity about literal unknown =>
    exact ⟨s', .unknownEntity about literal (by rw [h.tables.entities, unknown]), h⟩
  | entityExists op known => exact ⟨s', .entityExists op (by rw [h.tables.entities, known]), h⟩
  | invalidScore op literal => exact ⟨s', .invalidScore op literal, h⟩
  | invalidOversight op literal => exact ⟨s', .invalidOversight op literal, h⟩
  | invalidCriticality op literal => exact ⟨s', .invalidCriticality op literal, h⟩
  | unboundVariable op unknown =>
    exact ⟨s', .unboundVariable op (by rw [h.tables.values, unknown]), h⟩
  | invalidBarrier op literal => exact ⟨s', .invalidBarrier op literal, h⟩
  | invalidSoft op literal => exact ⟨s', .invalidSoft op literal, h⟩
  | invalidHard op first literal => exact ⟨s', .invalidHard op first literal, h⟩
  | invertedWindow op first last order => exact ⟨s', .invertedWindow op first last order, h⟩
  | @refused x e c op operand answer =>
    exact ⟨_, .refused op (h.finds operand fun _ => within)
      (by rw [h.coordinator, h.requestFor, answer]), (h.later 1).entrust c⟩
  | @swapRefused x y e c op distinct left right answer =>
    have plain : i.needsCoherence ≠ true := by simp [Instruction.needsCoherence, op]
    exact ⟨_, .swapRefused op distinct (h.finds left (absurd · plain))
      (h.finds right (absurd · plain)) (by rw [h.coordinator, h.requestFor, answer]), h.entrust c⟩

/-- **Kin carry out an instruction alike**, if their clocks agree as long as it takes. -/
theorem attempt (shared : K.shared i) (within : (s.attempt i).session.clock.taken ≤ K.limit) :
    Attempt.Alike (Kin K) (s.attempt i) (s'.attempt i) := by
  cases ends : s.attempt i with
  | done t =>
    rw [ends] at within
    obtain ⟨t', effect, kin⟩ := h.effect shared (attempt_done_iff.1 ends) within
    rw [attempt_done_iff.2 effect]
    exact .done kin
  | failed f t =>
    rw [ends] at within
    obtain ⟨t', fails, kin⟩ := h.fails (attempt_failed_iff.1 ends) within
    rw [attempt_failed_iff.2 fails]
    exact .failed f kin

end Attempts

/-! ## Around attempts -/

section Around

variable (h : Kin K s s')
include h

theorem foldl {α : Type} {f : Session π γ κ → α → Session π γ κ}
    {f' : Session π' γ κ → α → Session π' γ κ}
    (keeps : ∀ {t t'} (x : α), Kin K t t' → Kin K (f t x) (f' t' x)) (xs : List α) :
    Kin K (xs.foldl f s) (xs.foldl f' s') := by
  induction xs generalizing s s' with
  | nil => exact h
  | cons x rest ih => exact ih (keeps x h)

theorem fireTimers (within : s.clock.taken < K.limit) : Kin K s.fireTimers s'.fireTimers := by
  have now : s'.clock.now = s.clock.now := K.now h.clock within
  unfold Session.fireTimers
  dsimp only [Session.readClock]
  rw [now]
  exact (h.later 1).withTables (h.tables.withRegister (by rw [h.tables.register]))

theorem checkOperand (i : Instruction) (now : Nat) (name : String) :
    Kin K (Session.checkOperand i now s name) (Session.checkOperand i now s' name) := by
  unfold Session.checkOperand
  rw [h.tables.handle?]
  split
  · exact h.report _
  · exact h

/-- The oversight rule does not look at the clock, only at the entity. -/
theorem checkOversight (i : Instruction) (approved : Bool) :
    Kin K (s.checkOversight i approved) (s'.checkOversight i approved) := by
  have timeless :
      (Constraint.humanOversight (i.arg 0) .post).evaluate (s'.tables.context s'.clock.now) =
        (Constraint.humanOversight (i.arg 0) .post).evaluate (s.tables.context s.clock.now) := by
    rw [h.tables.context]
    rfl
  unfold Session.checkOversight
  rw [timeless]
  split
  · split
    · exact h.report _
    · exact h
  · exact h

theorem checkAfter (i : Instruction) (approved : Bool) (within : s.clock.taken < K.limit) :
    Kin K (s.checkAfter i approved) (s'.checkAfter i approved) := by
  have now : s'.clock.now = s.clock.now := K.now h.clock within
  unfold Session.checkAfter
  dsimp only [Session.readClock]
  rw [now]
  exact ((h.later 1).foldl (fun name h => h.checkOperand i _ name) _).checkOversight i approved

theorem finalScan (program : s'.program = s.program)
    (within : s.finalScan.clock.taken ≤ K.limit) : Kin K s.finalScan s'.finalScan := by
  rw [finalScan_eq] at within
  have room : s.clock.taken + 1 + s.fireTimers.tables.register.handles.values.length ≤ K.limit :=
    within
  have fired : Kin K s.fireTimers s'.fireTimers := h.fireTimers (by omega)
  have scanned : s'.fireTimers.scanned = s.fireTimers.scanned := by
    have location : s'.fireTimers.scanLocation = s.fireTimers.scanLocation := by
      show (s'.program.instructions.getLast?.map (·.location)).getD {} = _
      rw [program]
      rfl
    rw [Session.scanned, Session.scanned, fired.tables.register,
      K.leaked fired.clock room, location]
  rw [finalScan_eq, finalScan_eq, scanned, fired.tables.register]
  exact { fired with
    clock := K.after fired.clock _
    diagnostics := K.reports s.fireTimers.scanned h.diagnostics }

end Around

end Kin

end Session

end GovernedQuantum
