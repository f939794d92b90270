import GovernedQuantum.Proofs.Opacity
import GovernedQuantum.Proofs.Reuse
import GovernedQuantum.Proofs.StaticSoundness

/-!
# Annotated and bare runs

Annotations are constraints, and a session evaluates them around its instructions. A required one
that fails before an instruction holds it back. Whatever else they find is only reported: it alters
no table, no line, no request and no answer.

To evaluate a constraint may take a reading of the clock. So the bare run that an annotated run is
compared with is on a clock that shows what the annotated run saw, but for the readings that
constraints took. On a clock that stands still this is the same clock.

* `Clock.Shows`: what a clock shows next.
* `Diagnostics.Padded A`: findings, and the same with findings of the kind `A` in between.
* `Session.Echo`: a bare session that is where an annotated one is.
* `Session.Echoed`: whatever the annotated session has done, its echo can do.
* `Session.echoed_step`, `Session.echoed_drive`: **an instruction that is not held back is echoed**,
  and so is a run in which none is.
-/

namespace GovernedQuantum

/-! ## Readings -/

namespace Clock

/-- The `n` readings of a source from the `k`-th on. -/
def shown (source : Nat → Nat) (k n : Nat) : List Nat := (List.range' k n).map source

/-- From the `k`-th reading on the source shows what was seen. -/
def Shows (source : Nat → Nat) (k : Nat) (seen : List Nat) : Prop :=
  ∀ j x, seen[j]? = some x → source (k + j) = x

/-- The clock has taken `n` readings, and may have been moved. -/
structure Takes (n : Nat) (c c' : Clock) : Prop where
  source : c'.source = c.source
  taken : c'.taken = c.taken + n

variable {source source' : Nat → Nat} {k k' n : Nat} {c c' c'' : Clock}

theorem shown_add (source : Nat → Nat) (k m n : Nat) :
    shown source k (m + n) = shown source k m ++ shown source (k + m) n := by
  simp only [shown, ← List.map_append, List.range'_append_1]

theorem Shows.left {seen more : List Nat} (h : Shows source k (seen ++ more)) :
    Shows source k seen := by
  intro j x hx
  refine h j x ?_
  have bound : j < seen.length := (List.getElem?_eq_some_iff.1 hx).1
  rwa [List.getElem?_append_left bound]

theorem Shows.right {seen more : List Nat} (h : Shows source k (seen ++ more)) :
    Shows source (k + seen.length) more := by
  intro j x hx
  rw [Nat.add_assoc]
  refine h _ x ?_
  rwa [List.getElem?_append_right (Nat.le_add_right _ _), Nat.add_sub_cancel_left]

/-- Two sources that show the same, reading by reading. -/
theorem Shows.agree (h : Shows source' k' (shown source k n)) (j : Nat) (bound : j < n) :
    source' (k' + j) = source (k + j) := by
  refine h j _ ?_
  simp [shown, bound]

/-- A source that stands still shows everything that was seen there, whichever reading one begins
with. -/
theorem shows_of_still {time : Nat} (still : ∀ j, source j = time) {seen : List Nat}
    (sub : seen.Sublist (shown source k n)) (k' : Nat) : Shows source k' seen := by
  intro j x hx
  have mem := sub.subset (List.mem_of_getElem? hx)
  obtain ⟨i, -, rfl⟩ := List.mem_map.1 mem
  rw [still, still]

theorem Takes.refl (c : Clock) : c.Takes 0 c := ⟨rfl, rfl⟩

theorem Takes.trans {m : Nat} (h : Takes m c c') (g : Takes n c' c'') : Takes (m + n) c c'' :=
  ⟨g.source.trans h.source, by rw [g.taken, h.taken, Nat.add_assoc]⟩

theorem takes_after (c : Clock) (n : Nat) : c.Takes n (c.after n) := ⟨rfl, rfl⟩

theorem Runs.takes {d : Delays} (h : Runs d c c') : c.Takes (c'.taken - c.taken) c' :=
  ⟨h.source_eq, (Nat.add_sub_cancel' h.taken_le).symm⟩

end Clock

/-! ## Findings in between -/

namespace Diagnostics

theorem hasFatal_push_eq (ds : Diagnostics) (d : Diagnostic) :
    (ds.push d).hasFatal = (ds.hasFatal || (d.severity == .error && d.fatal)) := by
  unfold push hasFatal
  cases d.severity <;> simp

/-- **The findings `es` are the findings `ds` with others of the kind `A` in between.** -/
inductive Padded (A : Diagnostic → Prop) : Diagnostics → Diagnostics → Prop
  | refl (ds : Diagnostics) : Padded A ds ds
  | both {ds es : Diagnostics} (d : Diagnostic) (before : Padded A ds es) :
      Padded A (ds.push d) (es.push d)
  | extra {ds es : Diagnostics} {d : Diagnostic} (before : Padded A ds es) (kind : A d) :
      Padded A ds (es.push d)

namespace Padded

variable {A : Diagnostic → Prop} {ds es : Diagnostics}

theorem extras {found : List Diagnostic} (h : Padded A ds es) (kind : ∀ d ∈ found, A d) :
    Padded A ds (es.pushAll found) := by
  induction found generalizing es with
  | nil => exact h
  | cons d rest ih =>
    obtain ⟨head, tail⟩ := List.forall_mem_cons.1 kind
    exact ih (h.extra head) tail

/-- Errors and warnings each keep their order. -/
theorem sublist (h : Padded A ds es) :
    ds.errors.toList.Sublist es.errors.toList ∧ ds.warnings.toList.Sublist es.warnings.toList := by
  induction h with
  | refl ds => exact ⟨.refl _, .refl _⟩
  | both d before ih =>
    unfold push
    cases d.severity with
    | error =>
      simp only [Array.toList_push]
      exact ⟨ih.1.append (.refl _), ih.2⟩
    | warning =>
      simp only [Array.toList_push]
      exact ⟨ih.1, ih.2.append (.refl _)⟩
  | @extra ds es d before kind ih =>
    unfold push
    cases d.severity with
    | error =>
      simp only [Array.toList_push]
      exact ⟨ih.1.trans (List.sublist_append_left _ _), ih.2⟩
    | warning =>
      simp only [Array.toList_push]
      exact ⟨ih.1, ih.2.trans (List.sublist_append_left _ _)⟩

/-- What stands in between stops nothing. -/
theorem hasFatal (h : Padded A ds es) (quiet : ∀ d, A d → d.fatal = false) :
    ds.hasFatal = es.hasFatal := by
  induction h with
  | refl ds => rfl
  | both d before ih => rw [hasFatal_push_eq, hasFatal_push_eq, ih]
  | extra before kind ih =>
    rw [hasFatal_push_eq, quiet _ kind, Bool.and_false, Bool.or_false]
    exact ih

end Padded

end Diagnostics

/-- An attempt that ends in the same way with another session. -/
def Attempt.withSession {σ : Type} : Attempt σ → σ → Attempt σ
  | .done _, t => .done t
  | .failed f _, t => .failed f t

/-- A step that ends in the same way with another session. -/
def Stepped.withSession {σ : Type} : Stepped σ → σ → Stepped σ
  | .next _, t => .next t
  | .suspended request _, t => .suspended request t

/-- Clocks of two sessions that have taken as many readings since `c` and `c'`, which show the same
`n` times. The findings of the first may have others in between. -/
def Kinship.since {π : Type} [Physics π] (A : Diagnostic → Prop) (c c' : Clock) (n : Nat)
    (agree : ∀ j < n, c'.source (c'.taken + j) = c.source (c.taken + j)) : Kinship π π :=
  .exact (c.taken + n) (fun a b => a.offset = b.offset ∧ ∃ j, c.Takes j a ∧ c'.Takes j b)
    (fun xs ys => ys = xs) (fun ds es => Diagnostics.Padded A es ds)
    (by
      rintro a b ⟨offset, j, ha, hb⟩ within
      rw [ha.taken] at within
      rw [Clock.now, Clock.now, ha.source, hb.source, ha.taken, hb.taken, offset,
        agree j (by omega)])
    (by
      rintro a b ⟨offset, j, ha, hb⟩
      exact ⟨offset, j + 1, ha.trans (a.takes_after 1), hb.trans (b.takes_after 1)⟩)
    (by
      rintro a b ms ⟨offset, j, ha, hb⟩
      refine ⟨?_, j, ⟨ha.source, ha.taken⟩, ⟨hb.source, hb.taken⟩⟩
      rw [Clock.advance, Clock.advance, offset])
    (fun line h => congrArg (Array.push · line) h) (fun d h => h.both d)

theorem Constraint.fatal_of_finding {c : Constraint} {ctx : Context} {l : Location} {d : Diagnostic}
    (h : c.finding? ctx l = some d) : d.fatal = false := by
  obtain ⟨v, -, rfl⟩ := Option.map_eq_some_iff.1 h
  rfl

namespace Session

variable {π γ κ : Type}

/-! ## Echoes -/

/-- **A bare session that echoes an annotated one**: what annotations cannot alter is the same, and
the annotated session has reported what the bare one has, with findings of the kind `A` in between.
Each has a clock of its own. -/
structure Echo (A : Diagnostic → Prop) (s s' : Session π γ κ) : Prop where
  bare : s'.annotations = none
  tables : s'.tables = s.tables
  console : s'.console = s.console
  reviews : s'.reviews = s.reviews
  gateway : s'.gateway = s.gateway
  diagnostics : Diagnostics.Padded A s'.diagnostics s.diagnostics
  offset : s'.clock.offset = s.clock.offset
  physics : s'.physics = s.physics
  coordinator : s'.coordinator = s.coordinator
  nextHandle : s'.nextHandle = s.nextHandle
  position : s'.position = s.position
  steps : s'.steps = s.steps
  suspension : s'.suspension = s.suspension
  program : s'.program = s.program
  id : s'.id = s.id
  settings : s'.settings = s.settings
  delays : s'.delays = s.delays
  explainer : s'.explainer = s.explainer

namespace Echo

variable {A : Diagnostic → Prop} {s s' t t' : Session π γ κ}

/-- An echo is kin as long as its clock shows the same. -/
theorem kin [Physics π] (h : Echo A s s') {n : Nat}
    (agree : ∀ j < n, s'.clock.source (s'.clock.taken + j) = s.clock.source (s.clock.taken + j)) :
    Kin (.since A s.clock s'.clock n agree) s s' :=
  .of_same (fun _ => rfl) (fun _ => rfl) h.id h.settings h.delays h.physics h.coordinator
    h.explainer h.nextHandle h.tables ⟨h.offset.symm, 0, .refl _, .refl _⟩ h.console h.diagnostics

/-- Kin that leave alone what kin need not share are echoes again. -/
theorem of_kin [Physics π] (h : Echo A s s') {n : Nat}
    {agree : ∀ j < n, s'.clock.source (s'.clock.taken + j) = s.clock.source (s.clock.taken + j)}
    (kin : Kin (.since A s.clock s'.clock n agree) t t') (desk : s.SameDesk t)
    (course : s.SameCourse t) (desk' : s'.SameDesk t') (course' : s'.SameCourse t') :
    Echo A t t' where
  bare := course'.annotations.trans h.bare
  tables := kin.tables.eq
  console := kin.console
  reviews := by rw [desk'.reviews, desk.reviews, h.reviews]
  gateway := by rw [desk'.gateway, desk.gateway, h.gateway]
  diagnostics := kin.diagnostics
  offset := kin.clock.1.symm
  physics := congrArg Staff.physics kin.staff
  coordinator := kin.coordinator
  nextHandle := kin.nextHandle
  position := by rw [course'.position, course.position, h.position]
  steps := by rw [course'.steps, course.steps, h.steps]
  suspension := by rw [course'.suspension, course.suspension, h.suspension]
  program := by rw [course'.program, course.program, h.program]
  id := kin.id
  settings := by rw [course'.settings, course.settings, h.settings]
  delays := congrArg Staff.delays kin.staff
  explainer := congrArg Staff.explainer kin.staff

theorem report (h : Echo A s s') (d : Diagnostic) : Echo A (s.report d) (s'.report d) :=
  { h with diagnostics := h.diagnostics.both d }

theorem say (h : Echo A s s') (line : String) : Echo A (s.say line) (s'.say line) :=
  { h with console := congrArg (·.push line) h.console }

end Echo

/-- **Whatever the annotated session did on the way from `s` to `t`, its echo can do**, if its clock
shows the readings taken on the way but for some that it does not take: it comes to a session that
echoes `t`, and `Q` says how. -/
structure Echoed (A : Diagnostic → Prop) (s t : Session π γ κ)
    (Q : Session π γ κ → Session π γ κ → Prop) : Prop where
  annotations : t.annotations = s.annotations
  way : ∃ n seen, s.clock.Takes n t.clock ∧
    seen.Sublist (Clock.shown s.clock.source s.clock.taken n) ∧
    ∀ s', Echo A s s' → Clock.Shows s'.clock.source s'.clock.taken seen →
      ∃ t', Q s' t' ∧ Echo A t t' ∧ s'.clock.Takes seen.length t'.clock

namespace Echoed

variable {A : Diagnostic → Prop} {s t u : Session π γ κ}
  {P Q R : Session π γ κ → Session π γ κ → Prop}

/-- The clock stands still on the way. -/
theorem still (annotations : t.annotations = s.annotations) (clock : t.clock = s.clock)
    (way : ∀ s', Echo A s s' → ∃ t', Q s' t' ∧ Echo A t t' ∧ t'.clock = s'.clock) :
    Echoed A s t Q := by
  refine ⟨annotations, 0, [], clock ▸ .refl _, List.nil_sublist _, fun s' echo _ => ?_⟩
  obtain ⟨t', hQ, echo', clock'⟩ := way s' echo
  exact ⟨t', hQ, echo', clock' ▸ .refl _⟩

/-- One way after another. -/
theorem trans (h : Echoed A s t P) (g : Echoed A t u Q)
    (join : ∀ {s' t' u'}, Echo A s s' → Echo A t t' → P s' t' → Q t' u' → R s' u') :
    Echoed A s u R := by
  obtain ⟨annotations, n, seen, takes, sub, way⟩ := h
  obtain ⟨annotations', m, seen', takes', sub', way'⟩ := g
  refine ⟨annotations'.trans annotations, n + m, seen ++ seen', takes.trans takes', ?_,
    fun s' echo shows => ?_⟩
  · rw [takes.source, takes.taken] at sub'
    rw [Clock.shown_add]
    exact sub.append sub'
  · obtain ⟨t', hP, echo', moved⟩ := way s' echo shows.left
    have shows' : Clock.Shows t'.clock.source t'.clock.taken seen' := by
      rw [moved.source, moved.taken]
      exact shows.right
    obtain ⟨u', hQ, echo'', moved'⟩ := way' t' echo' shows'
    refine ⟨u', join echo echo' hP hQ, echo'', ?_⟩
    rw [List.length_append]
    exact moved.trans moved'

theorem mono (h : Echoed A s t P) (le : ∀ {s' t'}, Echo A s s' → P s' t' → Q s' t') :
    Echoed A s t Q := by
  obtain ⟨annotations, n, seen, takes, sub, way⟩ := h
  refine ⟨annotations, n, seen, takes, sub, fun s' echo shows => ?_⟩
  obtain ⟨t', hP, rest⟩ := way s' echo shows
  exact ⟨t', le echo hP, rest⟩

/-- What kin do alike is echoed, with every reading that it takes. -/
theorem of_kin [Physics π] (keeps : s.Keeps t) (course : s.SameCourse t)
    (alike : ∀ {K : Kinship π π} {s' : Session π γ κ}, (∀ i, K.shared i) → Echo A s s' →
      Kin K s s' → t.clock.taken ≤ K.limit →
      ∃ t', Q s' t' ∧ Kin K t t' ∧ s'.Keeps t' ∧ s'.SameCourse t') : Echoed A s t Q := by
  have takes := keeps.clock.takes
  refine ⟨course.annotations, _, _, takes, .refl _, fun s' echo shows => ?_⟩
  obtain ⟨t', hQ, kin, keeps', course'⟩ :=
    alike (fun _ => trivial) echo (echo.kin shows.agree) (Nat.le_of_eq takes.taken)
  refine ⟨t', hQ, echo.of_kin kin keeps.toSameDesk course keeps'.toSameDesk course', ?_⟩
  obtain ⟨-, j, moved, moved'⟩ := kin.clock
  have all : j = t.clock.taken - s.clock.taken := by
    have taken := moved.taken
    omega
  rw [all] at moved'
  rw [Clock.shown, List.length_map, List.length_range']
  exact moved'

end Echoed

/-! ## The cycle of an instruction -/

section Cycle

variable {A : Diagnostic → Prop} {s t : Session π γ κ} {index : Nat} {i : Instruction}

/-- What the constraints on the instruction at `index` can find is of the kind `A`. -/
def Covers (A : Diagnostic → Prop) (s : Session π γ κ) (index : Nat) (i : Instruction) : Prop :=
  ∀ phase, ∀ c ∈ s.constraintsAt index phase, ∀ context d,
    c.finding? context i.location = some d → A d

theorem Covers.of_annotations (h : s.Covers A index i) (same : t.annotations = s.annotations) :
    t.Covers A index i := by
  unfold Covers constraintsAt
  rw [same]
  exact h

/-- An echoed way leaves the constraints as they are. -/
theorem Echoed.covers {Q : Session π γ κ → Session π γ κ → Prop} (h : Echoed A s t Q)
    (covers : ∀ index i, s.Covers A index i) (index : Nat) (i : Instruction) : t.Covers A index i :=
  (covers index i).of_annotations h.annotations

theorem echoed_fireTimers [Physics π] (A : Diagnostic → Prop) (s : Session π γ κ) :
    Echoed A s s.fireTimers fun s' t' => t' = s'.fireTimers :=
  .of_kin s.fireTimers_keeps s.fireTimers_sameCourse fun _ _ kin within =>
    ⟨_, rfl, kin.fireTimers within, fireTimers_keeps _, fireTimers_sameCourse _⟩

/-- While constraints are evaluated the echo does nothing. -/
theorem echoed_validate (covers : s.Covers A index i) (phase : Phase) :
    Echoed A s (s.validate index phase i.location).2 fun s' t' => t' = s' := by
  obtain ⟨n, he⟩ := validateAll_eq_findings i.location (s.constraintsAt index phase) s
  rw [validate, he]
  refine ⟨rfl, n, [], s.clock.takes_after n, List.nil_sublist _, fun s' echo _ => ?_⟩
  refine ⟨s', rfl, { echo with diagnostics := echo.diagnostics.extras fun d hd => ?_ }, .refl _⟩
  obtain ⟨c, hc, now, found⟩ := found_of_mem_findings hd
  exact covers phase c hc _ d found

theorem echoed_record (A : Diagnostic → Prop) (s : Session π γ κ) (f : Fault) (l : Location) :
    Echoed A s (s.record f l) fun s' t' => t' = s'.record f l :=
  .still rfl rfl fun s' echo => ⟨s'.record f l, rfl, echo.report _, rfl⟩

theorem echoed_checkAfter [Physics π] (A : Diagnostic → Prop) (s : Session π γ κ) (i : Instruction)
    (approved : Bool) :
    Echoed A s (s.checkAfter i approved) fun s' t' => t' = s'.checkAfter i approved := by
  refine .of_kin (s.checkAfter_keeps i approved) (s.checkAfter_untouched i approved).toSameCourse
    fun {K s'} _ _ kin within => ?_
  rw [checkAfter_clock] at within
  exact ⟨_, rfl, kin.checkAfter i approved within, s'.checkAfter_keeps i approved,
    (s'.checkAfter_untouched i approved).toSameCourse⟩

variable [Physics π] [Coordinator κ]

/-- An attempt is echoed: it ends for both in the same way. -/
theorem echoed_attempt (A : Diagnostic → Prop) (s : Session π γ κ) (i : Instruction) :
    Echoed A s (s.attempt i).session fun s' t' => s'.attempt i = (s.attempt i).withSession t' := by
  refine .of_kin (s.attempt_keeps i) (s.attempt_sameCourse i)
    fun {K s'} shared _ kin within => ?_
  have alike := kin.attempt (shared i) within
  have keeps := s'.attempt_keeps i
  have course := s'.attempt_sameCourse i
  generalize s.attempt i = a at alike
  generalize s'.attempt i = a' at alike keeps course
  cases alike with
  | done h => exact ⟨_, rfl, h, keeps, course⟩
  | failed f h => exact ⟨_, rfl, h, keeps, course⟩

/-- **What an instruction does is echoed**, with whatever is found after it. -/
theorem echoed_settle (covers : s.Covers A index i) (approved : Bool) :
    Echoed A s (s.settle index i approved) fun s' t' => t' = s'.settle index i approved := by
  have attempted := echoed_attempt A s i
  have course := s.attempt_sameCourse i
  unfold settle
  cases he : s.attempt i with
  | failed f t =>
    rw [he] at attempted
    refine attempted.trans (echoed_record A t f i.location) fun {s' t' u'} _ _ ends recorded => ?_
    rw [ends]
    exact recorded
  | done t =>
    rw [he] at attempted course
    have found := echoed_validate (covers.of_annotations course.annotations) .post
    have after := found.trans (echoed_checkAfter A _ i approved)
      (R := fun t' u' => u' = t'.checkAfter i approved) fun _ _ same checked => same ▸ checked
    refine attempted.trans after fun {s' t' u'} _ echo ends checked => ?_
    rw [ends, checked]
    dsimp only [Attempt.withSession]
    rw [validate_of_plain echo.bare]

variable [Gateway γ]

/-- The rest of a cycle, once the constraints before the instruction have let it through. -/
def dispatch (s : Session π γ κ) (index : Nat) (i : Instruction) : Stepped (Session π γ κ) :=
  let profile := Profile.ofInstruction i s.tables.entities s.settings
  if profile.kind.isGated then
    match s.gate i profile with
    | .passed => .next (s.settle index i false)
    | .closed f => .next (s.record f i.location)
    | .review filing => .suspended (s.file i filing).1 (s.file i filing).2
  else .next (s.settle index i false)

theorem step_of_prepared (h : (s.prepared index i).1 = true) :
    s.step index i = (s.prepared index i).2.dispatch index i := by
  unfold step
  rw [show s.fireTimers.validate index .pre i.location = s.prepared index i from rfl]
  generalize s.prepared index i = prepared at h ⊢
  obtain ⟨passed, t⟩ := prepared
  obtain rfl : passed = true := h
  rfl

omit [Physics π] [Coordinator κ] in
/-- The gateway gives the request of both the same number. -/
theorem echoed_file (A : Diagnostic → Prop) (s : Session π γ κ) (i : Instruction)
    (filing : Filing) :
    Echoed A s (s.file i filing).2 fun s' t' => s'.file i filing = ((s.file i filing).1, t') := by
  refine .still rfl rfl fun s' echo => ⟨(s'.file i filing).2, ?_, ?_, rfl⟩ <;> unfold file <;>
    rw [echo.gateway]
  rw [echo.reviews]
  refine Echo.say ?_ _
  exact { echo with gateway := rfl, reviews := rfl }

/-- The gate looks at entities and settings, which annotations do not alter. -/
theorem echoed_dispatch (covers : s.Covers A index i) :
    Echoed A s (s.dispatch index i).session fun s' t' =>
      s'.dispatch index i = (s.dispatch index i).withSession t' := by
  have profiles {s'} (echo : Echo A s s') : Profile.ofInstruction i s'.tables.entities s'.settings =
      Profile.ofInstruction i s.tables.entities s.settings := by
    rw [echo.tables, echo.settings]
  have gates {s'} (echo : Echo A s s') (profile : Profile) :
      s'.gate i profile = s.gate i profile := by
    unfold gate
    rw [echo.tables]
  have settled := echoed_settle covers false
  unfold dispatch
  generalize Profile.ofInstruction i s.tables.entities s.settings = profile at profiles ⊢
  dsimp only
  split
  · rename_i gated
    cases hg : s.gate i profile with
    | passed =>
      refine settled.mono fun echo he => ?_
      rw [profiles echo, if_pos gated, gates echo, hg, he]
      rfl
    | closed f =>
      refine (echoed_record A s f i.location).mono fun echo he => ?_
      rw [profiles echo, if_pos gated, gates echo, hg, he]
      rfl
    | review filing =>
      refine (echoed_file A s i filing).mono fun echo he => ?_
      rw [profiles echo, if_pos gated, gates echo, hg]
      dsimp only
      rw [he]
      rfl
  · rename_i free
    refine settled.mono fun echo he => ?_
    rw [profiles echo, if_neg free, he]
    rfl

/-- **An instruction that no constraint holds back is echoed.** -/
theorem echoed_step (covers : s.Covers A index i) (passed : (s.prepared index i).1 = true) :
    Echoed A s (s.step index i).session fun s' t' =>
      s'.step index i = (s.step index i).withSession t' := by
  have ready : Echoed A s (s.prepared index i).2 fun s' t' => t' = s'.fireTimers :=
    (echoed_fireTimers A s).trans
      (echoed_validate (covers.of_annotations s.fireTimers_sameCourse.annotations) .pre)
      fun _ _ fired same => same.trans fired
  rw [step_of_prepared passed]
  refine ready.trans (echoed_dispatch (covers.of_annotations ready.annotations))
    fun {s' t' u'} echo _ fired ends => ?_
  rw [step_of_prepared (by rw [prepared_of_plain echo.bare]), prepared_of_plain echo.bare,
    ← ends, fired]

end Cycle

/-! ## What holds an instruction back -/

/-- Errors that constraints find before the instruction at `index`. -/
def obstacles (s : Session π γ κ) (index : Nat) (i : Instruction) : List Diagnostic :=
  (findings i.location (s.constraintsAt index .pre) s.fireTimers).filter (·.severity = .error)

/-- Each is the violation of a required constraint. -/
theorem required_of_mem_obstacles {s : Session π γ κ} {index : Nat} {i : Instruction}
    {d : Diagnostic} (h : d ∈ s.obstacles index i) :
    ∃ c ∈ s.constraintsAt index .pre, c.required = true ∧
      ∃ now, c.finding? (s.fireTimers.tables.context now) i.location = some d := by
  obtain ⟨hd, severity⟩ := List.mem_filter.1 h
  obtain ⟨c, hc, now, found⟩ := found_of_mem_findings hd
  refine ⟨c, hc, ?_, now, found⟩
  have rank := Constraint.severity_of_finding found
  rw [of_decide_eq_true severity] at rank
  by_contra optional
  rw [if_neg optional] at rank
  exact absurd rank (by simp)

/-- To prepare an instruction is to note the deadlines, to read the clock and to report. -/
theorem prepared_eq_findings (s : Session π γ κ) (index : Nat) (i : Instruction) :
    ∃ n, s.prepared index i = ((s.obstacles index i).isEmpty,
      { s.fireTimers with
        clock := s.fireTimers.clock.after n
        diagnostics := s.diagnostics.pushAll
          (findings i.location (s.constraintsAt index .pre) s.fireTimers) }) := by
  obtain ⟨n, he⟩ := validateAll_eq_findings i.location (s.constraintsAt index .pre) s.fireTimers
  refine ⟨n, he.trans ?_⟩
  have passes : (findings i.location (s.constraintsAt index .pre) s.fireTimers).all
      (·.severity != .error) = (s.obstacles index i).isEmpty := by
    rw [Bool.eq_iff_iff]
    simp [obstacles, List.filter_eq_nil_iff]
  rw [passes]
  rfl

theorem prepared_of_free {s : Session π γ κ} {index : Nat} {i : Instruction}
    (free : s.obstacles index i = []) : (s.prepared index i).1 = true := by
  obtain ⟨n, he⟩ := s.prepared_eq_findings index i
  rw [he, free]
  rfl

end Session

/-- A cycle whose instruction is held back. -/
def Event.IsHeldBack {π γ κ : Type} : Event π γ κ → Prop
  | .cycle s index i => s.obstacles index i ≠ []
  | .answer _ _ _ _ => False

instance {π γ κ : Type} (e : Event π γ κ) : Decidable e.IsHeldBack :=
  match e with
  | .cycle s index i => inferInstanceAs (Decidable (s.obstacles index i ≠ []))
  | .answer _ _ _ _ => inferInstanceAs (Decidable False)

namespace Session

variable {π γ κ : Type}

/-! ## Runs -/

section Runs

variable {A : Diagnostic → Prop} {s : Session π γ κ}

theorem echoed_halt (A : Diagnostic → Prop) (s : Session π γ κ) :
    Echoed A s s.halt fun s' t' => t' = s'.halt :=
  .still rfl rfl fun s' echo => ⟨s'.halt, rfl, { echo with }, rfl⟩

theorem echoed_finalScan [Physics π] (A : Diagnostic → Prop) (s : Session π γ κ) :
    Echoed A s s.finalScan fun s' t' => t' = s'.finalScan :=
  .of_kin s.finalScan_keeps s.finalScan_sameCourse fun {_ s'} _ echo kin within =>
    ⟨_, rfl, kin.finalScan echo.program within, s'.finalScan_keeps, s'.finalScan_sameCourse⟩

variable [Physics π] [Gateway γ] [Coordinator κ]

/-- What a run makes of a step: it waits, or it goes on unless a fatal finding stops it. -/
def proceed (rest : List Instruction) (i : Instruction) : Stepped (Session π γ κ) → Session π γ κ
  | .suspended request s =>
    { s with status := .suspended, suspension := some ⟨request, i, s.position⟩ }
  | .next s =>
    if s.diagnostics.hasFatal then ({ s with position := s.position + 1 } : Session π γ κ).halt
    else drive rest { s with position := s.position + 1 }

theorem drive_cons (i : Instruction) (rest : List Instruction) (s : Session π γ κ) :
    drive (i :: rest) s =
      if s.settings.maxSteps < s.steps + 1 then
        (s.counted.record (.stepLimit s.settings.maxSteps) i.location).halt
      else proceed rest i (s.counted.step s.position i) := by
  rw [drive]
  rfl

/-- The events of a run begin with its first cycle. -/
theorem driveEvents_cons {i : Instruction} {rest : List Instruction} {s : Session π γ κ}
    (within : ¬ s.settings.maxSteps < s.steps + 1) :
    driveEvents (i :: rest) s = .cycle s.counted s.position i ::
      match s.counted.step s.position i with
      | .suspended _ _ => []
      | .next t =>
        if t.diagnostics.hasFatal then []
        else driveEvents rest { t with position := t.position + 1 } := by
  have traced : driveTrace (i :: rest) s = .cons (.cycle s.counted s.position i) _ := if_neg within
  rw [driveEvents, traced, show s.counted.position = s.position from rfl]
  cases s.counted.step s.position i with
  | suspended request t => rfl
  | next t =>
    dsimp only
    by_cases fatal : t.diagnostics.hasFatal = true
    · rw [if_pos fatal, if_pos fatal]
      rfl
    · rw [if_neg fatal, if_neg fatal]
      rfl

/-- What is made of a step is echoed, if what the session goes on to is. -/
theorem echoed_proceed (quiet : ∀ d, A d → d.fatal = false) (i : Instruction)
    (rest : List Instruction) (stepped : Stepped (Session π γ κ))
    (further : ∀ t, stepped = .next t → ¬ t.diagnostics.hasFatal →
      Echoed A { t with position := t.position + 1 }
        (drive rest { t with position := t.position + 1 })
        fun s' t' => t' = drive rest s') :
    Echoed A stepped.session (proceed rest i stepped) fun t' u' =>
      u' = proceed rest i (stepped.withSession t') := by
  cases stepped with
  | suspended request t =>
    refine .still rfl rfl fun t' echo => ⟨_, rfl, { echo with suspension := ?_ }, rfl⟩
    show some (Suspension.mk request i t'.position) = _
    rw [echo.position]
    rfl
  | next t =>
    have moved : Echoed A t { t with position := t.position + 1 } fun t' u' =>
        u' = { t' with position := t'.position + 1 } :=
      .still rfl rfl fun t' echo =>
        ⟨_, rfl, { echo with position := congrArg (· + 1) echo.position }, rfl⟩
    dsimp only [proceed, Stepped.withSession, Stepped.session]
    split
    · rename_i fatal
      refine moved.trans (echoed_halt A _) fun {t' u' v'} echo _ same halted => ?_
      rw [echo.diagnostics.hasFatal quiet, if_pos fatal, halted, same]
    · rename_i mild
      refine moved.trans (further t rfl mild) fun {t' u' v'} echo _ same driven => ?_
      rw [echo.diagnostics.hasFatal quiet, if_neg mild, driven, same]

/-- **A run in which nothing is held back is echoed**, to its end or to the request it waits for. -/
theorem echoed_drive (quiet : ∀ d, A d → d.fatal = false) (covers : ∀ index i, s.Covers A index i)
    {rest : List Instruction} (free : ∀ e ∈ driveEvents rest s, ¬ e.IsHeldBack) :
    Echoed A s (drive rest s) fun s' t' => t' = drive rest s' := by
  induction rest generalizing s with
  | nil =>
    refine (echoed_finalScan A s).trans (echoed_halt A _) fun _ _ scanned halted => ?_
    rw [halted, scanned]
    rfl
  | cons i rest ih =>
    have counted : Echoed A s s.counted fun s' t' => t' = s'.counted :=
      .still rfl rfl fun s' echo => ⟨s'.counted, rfl,
        { echo with steps := congrArg (· + 1) echo.steps }, rfl⟩
    rw [drive_cons]
    split
    · rename_i spent
      have ended := (echoed_record A s.counted (.stepLimit s.settings.maxSteps) i.location).trans
        (echoed_halt A _)
        (R := fun t' u' => u' = (t'.record (.stepLimit s.settings.maxSteps) i.location).halt)
        fun _ _ recorded halted => by rw [halted, recorded]
      refine counted.trans ended fun {s' t' u'} echo _ same halted => ?_
      rw [drive_cons, echo.settings, echo.steps, if_pos spent, halted, same]
    · rename_i within
      rw [driveEvents_cons within] at free
      obtain ⟨head, free⟩ := List.forall_mem_cons.1 free
      have stepped := counted.trans
        (echoed_step (s := s.counted) (covers s.position i) (prepared_of_free (not_not.1 head)))
        (R := fun s' t' => s'.counted.step s.position i =
          (s.counted.step s.position i).withSession t')
        fun _ _ same ends => same ▸ ends
      have proceeds :=
        echoed_proceed quiet i rest (s.counted.step s.position i) fun t ends mild => by
        rw [ends] at free stepped
        refine ih (stepped.covers covers) ?_
        dsimp only at free
        rwa [if_neg mild] at free
      refine stepped.trans proceeds fun {s' t' u'} echo _ ends driven => ?_
      rw [drive_cons, echo.settings, echo.steps, if_neg within, echo.position, ends, driven]

theorem echoed_driveAfter (quiet : ∀ d, A d → d.fatal = false)
    (covers : ∀ index i, s.Covers A index i) {index : Nat}
    (free : ∀ e ∈ s.driveAfterEvents index, ¬ e.IsHeldBack) :
    Echoed A s (s.driveAfter index) fun s' t' => t' = s'.driveAfter index := by
  have moved : Echoed A s { s with position := index + 1 } fun s' t' =>
      t' = { s' with position := index + 1 } :=
    .still rfl rfl fun s' echo => ⟨_, rfl, { echo with position := rfl }, rfl⟩
  have same {s'} (echo : Echo A s s') : s'.program.instructions = s.program.instructions := by
    rw [echo.program]
  refine moved.trans (echoed_drive (s := { s with position := index + 1 }) quiet covers free)
    fun {s' t' u'} echo _ further driven => ?_
  unfold driveAfter
  rw [driven, further, same echo]

omit [Physics π] [Gateway γ] [Coordinator κ] in
theorem echoed_answered (A : Diagnostic → Prop) (s : Session π γ κ) (op : Suspension) (gateway : γ)
    (d : Decision) :
    Echoed A s (s.answered op gateway d) fun s' t' => t' = s'.answered op gateway d := by
  have decided {s' : Session π γ κ} (echo : Echo A s s') : Echo A
      { s with
        gateway, suspension := none, status := .running
        reviews := (decideLast op.request.id d s.reviews.toList).toArray }
      { s' with
        gateway, suspension := none, status := .running
        reviews := (decideLast op.request.id d s'.reviews.toList).toArray } :=
    { echo with gateway := rfl, suspension := rfl, reviews := by rw [echo.reviews] }
  cases d with
  | approve => exact .still rfl rfl fun s' echo => ⟨_, rfl, (decided echo).say _, rfl⟩
  | reject => exact .still rfl rfl fun s' echo => ⟨_, rfl, (decided echo).report _, rfl⟩

theorem resume_of_refused {op : Suspension} {d : Decision} {e : ReviewError} {gateway : γ}
    (waits : s.suspension = some op)
    (refused : Gateway.answer s.gateway op.request.id d = (.error e, gateway)) :
    s.resume op.request.id d = (.error e, { s with gateway }) := by
  unfold resume
  rw [waits]
  dsimp only
  rw [if_neg (not_not.2 rfl), refused]

theorem resume_of_taken {op : Suspension} {d : Decision} {gateway : γ}
    (waits : s.suspension = some op)
    (taken : Gateway.answer s.gateway op.request.id d = (.ok (), gateway)) :
    s.resume op.request.id d =
      (.ok (), ((s.answered op gateway d).acted op d).driveAfter op.index) := by
  unfold resume
  rw [waits]
  dsimp only
  rw [if_neg (not_not.2 rfl), taken]
  cases d <;> rfl

/-- **An answer is echoed**: it is taken by both, or refused to both for the same reason. -/
theorem echoed_resume (quiet : ∀ d, A d → d.fatal = false) (covers : ∀ index i, s.Covers A index i)
    {op : Suspension} (waits : s.suspension = some op) {d : Decision}
    (free : ∀ e ∈ s.resumeEvents op.request.id d, ¬ e.IsHeldBack) :
    Echoed A s (s.resume op.request.id d).2 fun s' t' =>
      s'.resume op.request.id d = ((s.resume op.request.id d).1, t') := by
  have waits' {s'} (echo : Echo A s s') : s'.suspension = some op := echo.suspension.trans waits
  rcases s.resume_ends op.request.id d with ⟨other, -⟩ | ⟨_, gateway, e, again, -, refused, -, he⟩ |
    ⟨_, gateway, again, -, taken, traced, he⟩
  · exact absurd rfl (other op waits)
  · rw [he]
    refine .still rfl rfl fun s' echo => ⟨{ s' with gateway }, ?_,
      { echo with gateway := rfl }, rfl⟩
    exact resume_of_refused (waits' echo) (by rw [echo.gateway, refused])
  · obtain rfl := Option.some.inj (waits.symm.trans again)
    rw [resumeEvents, traced] at free
    rw [he]
    have free := (List.forall_mem_cons.1 free).2
    have answered := echoed_answered A s op gateway d
    have acted : Echoed A (s.answered op gateway d) ((s.answered op gateway d).acted op d)
        fun s' t' => t' = s'.acted op d := by
      cases d with
      | approve =>
        exact echoed_settle (answered.covers covers op.index op.instruction) true
      | reject => exact .still rfl rfl fun s' echo => ⟨s', rfl, echo, rfl⟩
    have both := answered.trans acted (R := fun s' t' => t' = (s'.answered op gateway d).acted op d)
      fun _ _ same further => same ▸ further
    refine both.trans (echoed_driveAfter quiet (both.covers covers) free)
      fun {s' t' u'} echo _ same driven => ?_
    rw [resume_of_taken (waits' echo) (by rw [echo.gateway, taken]), driven, same]

/-- What waits is given up by both. -/
theorem echoed_abandon (quiet : ∀ d, A d → d.fatal = false) (covers : ∀ index i, s.Covers A index i)
    {op : Suspension} {e : ReviewError}
    (free : ∀ event ∈ s.abandonEvents op e, ¬ event.IsHeldBack) :
    Echoed A s (s.abandon op e) fun s' t' => t' = s'.abandon op e := by
  have idle {s'} (echo : Echo A s s') : Echo A { s with suspension := none, status := .running }
      { s' with suspension := none, status := .running } :=
    { echo with suspension := rfl }
  have givenUp : Echoed A s (s.givenUp op e) fun s' t' => t' = s'.givenUp op e :=
    .still rfl rfl fun s' echo => ⟨_, rfl, (idle echo).report _, rfl⟩
  refine givenUp.trans (echoed_driveAfter quiet (givenUp.covers covers) free)
    fun {s' t' u'} _ _ same driven => ?_
  rw [driven, same]
  rfl

/-- An answer that is refused makes no event. -/
theorem resumeEvents_of_refused {t : Session π γ κ} {id : Nat} {d : Decision} {e : ReviewError}
    (refused : s.resume id d = (.error e, t)) : s.resumeEvents id d = [] := by
  rcases s.resume_cases id d with ⟨traced, -⟩ | ⟨_, _, -, -, taken⟩
  · rw [resumeEvents, traced]
  · exact absurd (taken.symm.trans refused) (by simp)

/-- **A run to its end is echoed**, request by request. -/
theorem echoed_answerAll (quiet : ∀ d, A d → d.fatal = false)
    (covers : ∀ index i, s.Covers A index i) (decide : List Request → Request → Decision)
    {fuel : Nat} {asked : List Request}
    (free : ∀ e ∈ answerAllEvents decide fuel asked s, ¬ e.IsHeldBack) :
    Echoed A s (answerAll decide fuel asked s).2 fun s' t' =>
      answerAll decide fuel asked s' = ((answerAll decide fuel asked s).1, t') := by
  induction fuel generalizing asked s with
  | zero => exact .still rfl rfl fun s' echo => ⟨s', rfl, echo, rfl⟩
  | succ fuel ih =>
    rw [answerAllEvents] at free
    rw [answerAll]
    cases waits : s.suspension with
    | none =>
      refine .still rfl rfl fun s' echo => ⟨s', ?_, echo, rfl⟩
      rw [answerAll, echo.suspension, waits]
    | some op =>
      have resumed := echoed_resume quiet covers waits (d := decide asked op.request)
      rw [waits] at free
      dsimp only at free ⊢
      cases he : s.resume op.request.id (decide asked op.request) with
      | mk answer t =>
        rw [he] at resumed free
        cases answer with
        | ok _ =>
          obtain ⟨early, late⟩ := List.forall_mem_append.1 free
          have resumed := resumed early
          refine resumed.trans (ih (resumed.covers covers) late)
            fun {s' t' u'} echo _ answered all => ?_
          rw [answerAll, echo.suspension, waits]
          dsimp only
          rw [answered]
          exact all
        | error e =>
          obtain ⟨early, late⟩ := List.forall_mem_append.1 free
          have resumed := resumed (by simp [resumeEvents_of_refused he])
          have abandoned := echoed_abandon quiet (resumed.covers covers) early
          have both := resumed.trans abandoned (R := fun s' t' => ∃ v,
              s'.resume op.request.id (decide asked op.request) = (.error e, v) ∧
              t' = v.abandon op e)
            fun _ _ refused same => ⟨_, refused, same⟩
          refine both.trans (ih (both.covers covers) late)
            fun {s' t' u'} echo _ refused all => ?_
          obtain ⟨v, refused, rfl⟩ := refused
          rw [answerAll, echo.suspension, waits]
          dsimp only
          rw [refused]
          exact all

end Runs

/-! ## Annotated against bare -/

/-- What the constraints on one instruction can find. -/
def Finds (s : Session π γ κ) (index : Nat) (i : Instruction) (d : Diagnostic) : Prop :=
  ∃ phase, ∃ c ∈ s.constraintsAt index phase, ∃ context, c.finding? context i.location = some d

/-- What the constraints of a program's types can find. -/
def FoundBy (types : List InferredType) (d : Diagnostic) : Prop :=
  ∃ type ∈ types, ∃ c ∈ type.constraints, ∃ context location, c.finding? context location = some d

/-- The session without annotations, on a clock that shows something else from now on. -/
def bared (s : Session π γ κ) (source : Nat → Nat) : Session π γ κ :=
  { s with annotations := none, clock := { s.clock with source } }

theorem echo_bared (A : Diagnostic → Prop) (s : Session π γ κ) (source : Nat → Nat) :
    Echo A s (s.bared source) := by
  constructor <;> first | rfl | exact .refl _

theorem covers_of_fits {s : Session π γ κ} {program : Program} {types : List InferredType}
    (fits : types.length = program.length) (index : Nat) (i : Instruction) :
    (s.start program (some types)).Covers (FoundBy types) index i := by
  rw [s.start_of_fits fits]
  intro phase c hc context d found
  unfold constraintsAt at hc
  rw [Option.bind_some, List.getElem?_toArray] at hc
  split at hc
  · exact absurd hc List.not_mem_nil
  · rename_i type ht
    exact ⟨type, List.mem_of_getElem? ht, c, (InferredType.mem_constraintsIn.1 hc).1,
      context, _, found⟩

/-- An echoed way from an annotated session, for the bare session on every clock that will do. -/
theorem Echoed.on_sources {A : Diagnostic → Prop} {s t : Session π γ κ}
    {Q : Session π γ κ → Session π γ κ → Prop} (h : Echoed A s t Q) :
    ∃ seen, seen.Sublist
      (Clock.shown s.clock.source s.clock.taken (t.clock.taken - s.clock.taken)) ∧
      ∀ source, (Clock.Shows source s.clock.taken seen ∨
          source = s.clock.source ∧ ∃ time, ∀ n, source n = time) →
        ∃ t', Q (s.bared source) t' ∧ Echo A t t' := by
  obtain ⟨-, n, seen, takes, sub, way⟩ := h
  have count : t.clock.taken - s.clock.taken = n := by
    have taken := takes.taken
    omega
  refine ⟨seen, count ▸ sub, fun source like => ?_⟩
  have shows : Clock.Shows source s.clock.taken seen := by
    rcases like with shows | ⟨rfl, time, still⟩
    · exact shows
    · exact Clock.shows_of_still still sub _
  obtain ⟨t', hQ, echo, -⟩ := way (s.bared source) (echo_bared A s source) shows
  exact ⟨t', hQ, echo⟩

variable [Physics π] [Gateway γ] [Coordinator κ]

/-- An instruction that is held back is passed over, and what was found is reported. -/
theorem step_of_obstacles {s : Session π γ κ} {index : Nat} {i : Instruction}
    (held : s.obstacles index i ≠ []) :
    ∃ n diagnostics, (∀ d ∈ s.obstacles index i, d ∈ diagnostics.errors) ∧
      s.diagnostics.Gains (s.Finds index i) diagnostics ∧
      s.step index i = .next { s.fireTimers with clock := s.clock.after n, diagnostics } := by
  obtain ⟨n, he⟩ := s.prepared_eq_findings index i
  have stopped : (s.prepared index i).1 = false := by
    rw [he]
    exact List.isEmpty_eq_false_iff.2 held
  have passedOver : s.step index i = .next (s.prepared index i).2 := by
    rcases s.step_cases index i with ⟨-, -, he⟩ | ⟨passed, -⟩ | ⟨passed, -⟩ | ⟨passed, -⟩
    · exact he
    all_goals exact absurd (stopped.symm.trans passed) (by simp)
  refine ⟨1 + n,
    s.diagnostics.pushAll (findings i.location (s.constraintsAt index .pre) s.fireTimers),
    fun d hd => ?_, ⟨_, rfl, fun d hd => ?_⟩, ?_⟩
  · obtain ⟨hd, severity⟩ := List.mem_filter.1 hd
    exact mem_errors_pushAll.2 (.inr ⟨hd, of_decide_eq_true severity⟩)
  · obtain ⟨c, hc, now, found⟩ := found_of_mem_findings hd
    exact ⟨.pre, c, hc, _, found⟩
  · rw [passedOver, he, ← Clock.after_after]
    rfl

/-- **A run to its end is echoed** if nothing is held back in it. -/
theorem echoed_completion {s : Session π γ κ} {program : Program} {types : List InferredType}
    (fits : types.length = program.length) (decide : List Request → Request → Decision)
    (free : ∀ e ∈ s.completionEvents program (some types) decide, ¬ e.IsHeldBack) :
    Echoed (FoundBy types) (s.start program (some types))
      (s.runToCompletion program (some types) decide).2 fun s' t' =>
        ((answerAll decide program.length [] (drive program.instructions s')).1.reverse,
          (answerAll decide program.length [] (drive program.instructions s')).2) =
        ((s.runToCompletion program (some types) decide).1, t') := by
  have quiet (d : Diagnostic) : FoundBy types d → d.fatal = false := by
    rintro ⟨type, -, c, -, context, location, found⟩
    exact Constraint.fatal_of_finding found
  have covers := covers_of_fits (s := s) fits
  obtain ⟨early, late⟩ := List.forall_mem_append.1 free
  have driven := echoed_drive quiet covers early
  refine driven.trans (echoed_answerAll quiet (driven.covers covers) decide late)
    fun _ _ same all => ?_
  rw [← same, all]
  rfl

/-- **Annotations only block or report.** A cycle of any session, with any constraints on its
instruction, is of one of two kinds.

Either constraints find errors before the instruction. Each is the violation of a required one; they
are reported, the instruction is passed over, and nothing else has happened but that deadlines were
noted and readings taken. Or the cycle without annotations ends in the same way, with the same
tables, lines, requests and gateway, and the findings differ by those of the constraints. The bare
session is on a clock that shows what was seen, or on the same clock if that stands still.

So it is for whole runs: where no instruction of an annotated run is held back, the bare run is
asked the same, ends with the same tables and lines, and its errors stand among those of the
annotated run in the same order. -/
theorem annotations_only_block (s : Session π γ κ) :
    (∀ (index : Nat) (i : Instruction),
      (s.obstacles index i ≠ [] ∧
        (∀ d ∈ s.obstacles index i, ∃ c ∈ s.constraintsAt index .pre, c.required = true ∧
          ∃ now, c.finding? (s.fireTimers.tables.context now) i.location = some d) ∧
        ∃ n diagnostics, (∀ d ∈ s.obstacles index i, d ∈ diagnostics.errors) ∧
          s.diagnostics.Gains (s.Finds index i) diagnostics ∧
          s.step index i = .next { s.fireTimers with clock := s.clock.after n, diagnostics }) ∨
      (s.obstacles index i = [] ∧
        ∃ seen, seen.Sublist (Clock.shown s.clock.source s.clock.taken
            ((s.step index i).session.clock.taken - s.clock.taken)) ∧
          ∀ source, (Clock.Shows source s.clock.taken seen ∨
              source = s.clock.source ∧ ∃ time, ∀ n, source n = time) →
            Stepped.Alike (Echo (s.Finds index i)) (s.step index i)
              ((s.bared source).step index i))) ∧
    ∀ (program : Program) (types : List InferredType) (decide : List Request → Request → Decision),
      types.length = program.length →
      (∀ e ∈ s.completionEvents program (some types) decide, ¬ e.IsHeldBack) →
      ∃ seen, seen.Sublist (Clock.shown s.clock.source s.clock.taken
          ((s.runToCompletion program (some types) decide).2.clock.taken - s.clock.taken)) ∧
        ∀ source, (Clock.Shows source s.clock.taken seen ∨
            source = s.clock.source ∧ ∃ time, ∀ n, source n = time) →
          ((s.bared source).runToCompletion program none decide).1 =
            (s.runToCompletion program (some types) decide).1 ∧
          Echo (FoundBy types) (s.runToCompletion program (some types) decide).2
            ((s.bared source).runToCompletion program none decide).2 ∧
          ((s.bared source).runToCompletion program none decide).2.diagnostics.errors.toList.Sublist
            (s.runToCompletion program (some types) decide).2.diagnostics.errors.toList := by
  refine ⟨fun index i => ?_, fun program types decide fits free => ?_⟩
  · by_cases free : s.obstacles index i = []
    · refine .inr ⟨free, ?_⟩
      have covers : s.Covers (s.Finds index i) index i :=
        fun phase c hc context d found => ⟨phase, c, hc, context, found⟩
      obtain ⟨seen, sub, way⟩ := (echoed_step covers (prepared_of_free free)).on_sources
      refine ⟨seen, sub, fun source like => ?_⟩
      obtain ⟨t', ends, echo⟩ := way source like
      rw [ends]
      generalize s.step index i = a at echo
      cases a with
      | next t => exact .next echo
      | suspended request t => exact .suspended request echo
    · refine .inl ⟨free, fun d hd => required_of_mem_obstacles hd, ?_⟩
      exact step_of_obstacles free
  · obtain ⟨seen, sub, way⟩ := (echoed_completion fits decide free).on_sources
    rw [s.start_of_fits fits] at sub way
    refine ⟨seen, sub, fun source like => ?_⟩
    obtain ⟨t', ends, echo⟩ := way source like
    have bare : (s.bared source).runToCompletion program none decide =
        ((s.runToCompletion program (some types) decide).1, t') := ends
    rw [bare]
    exact ⟨rfl, echo, echo.diagnostics.sublist.1⟩

/-- Entangled qudits, whose constraints read the clock, and a contract that is blamed for its
default score. -/
def entrusted : Compilation :=
  compile "qudit a 2 qudit b 2 entangle a b apply x b contract c explain c 0.95 measure a release b"
    { explainabilityThreshold := 0.9 }

/-- A session whose clock shows a later time at every reading. -/
def ticking : Session SeededPhysics MemoryGateway Loopback :=
  { Session.standard 1 {} with clock := { source := fun n => n } }

/-- Nothing is held back, one error is found by a constraint, and three readings are taken for
constraints: the bare run on a clock that shows the others is the same but for the error. -/
theorem annotations_only_block_entrusted :
    entrusted.types.length = entrusted.program.length ∧
    (∀ e ∈ ticking.completionEvents entrusted.program (some entrusted.types) fun _ _ => .approve,
      ¬ e.IsHeldBack) ∧
    (ticking.runToCompletion entrusted.program (some entrusted.types)
      fun _ _ => .approve).2.diagnostics.errors.size = 1 ∧
    ∃ seen, seen.Sublist (Clock.shown ticking.clock.source ticking.clock.taken
        ((ticking.runToCompletion entrusted.program (some entrusted.types)
          fun _ _ => .approve).2.clock.taken - ticking.clock.taken)) ∧
      ∀ source, Clock.Shows source ticking.clock.taken seen →
        ((ticking.bared source).runToCompletion entrusted.program none
          fun _ _ => .approve).2.tables =
          (ticking.runToCompletion entrusted.program (some entrusted.types)
            fun _ _ => .approve).2.tables := by
  have fits : entrusted.types.length = entrusted.program.length := by decide +kernel
  have free : ∀ e ∈ ticking.completionEvents entrusted.program (some entrusted.types)
      fun _ _ => .approve, ¬ e.IsHeldBack := by
    decide +kernel
  refine ⟨fits, free, by decide +kernel, ?_⟩
  obtain ⟨seen, sub, way⟩ := (annotations_only_block ticking).2 _ _ _ fits free
  exact ⟨seen, sub, fun source shows => (way source (.inl shows)).2.1.tables⟩

end Session

end GovernedQuantum
