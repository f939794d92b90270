import GovernedQuantum.Proofs.Accounting
import GovernedQuantum.Proofs.Atomicity
import GovernedQuantum.Proofs.Domains

/-!
# What moves do to the books

Of a move, most is about where a run stands, what it has said and what time it is. This file keeps
the rest: who the session is, its settings, its tables and its coordinator. A law about these is
proved from what one attempt does to them.

* `Session.SameBooks`: two sessions that agree on all of these. `Session.Noted`: up to deadlines
  that have been noted.
* `Event.outcome`: **an event attempts its instruction once, or not at all.**
* `Session.Move.books`: a move makes one event, or leaves the books alone.
-/

namespace GovernedQuantum

namespace Session

variable {π γ κ : Type} {s t u : Session π γ κ}

/-- The same session with the same tables and the same coordinator; how far it has come, what it has
said and what time it is may differ. -/
structure SameBooks (s t : Session π γ κ) : Prop where
  id : t.id = s.id
  settings : t.settings = s.settings
  coordinator : t.coordinator = s.coordinator
  tables : t.tables = s.tables

namespace SameBooks

theorem refl (s : Session π γ κ) : s.SameBooks s := ⟨rfl, rfl, rfl, rfl⟩

theorem trans (h : s.SameBooks t) (g : t.SameBooks u) : s.SameBooks u :=
  ⟨g.id.trans h.id, g.settings.trans h.settings, g.coordinator.trans h.coordinator,
    g.tables.trans h.tables⟩

theorem start (s : Session π γ κ) (program : Program) (annotations : Option (List InferredType)) :
    s.SameBooks (s.start program annotations) := by
  unfold Session.start
  dsimp only
  split
  · exact ⟨rfl, rfl, rfl, rfl⟩
  · split <;> exact ⟨rfl, rfl, rfl, rfl⟩

theorem answered (s : Session π γ κ) (op : Suspension) (gateway : γ) (d : Decision) :
    s.SameBooks (s.answered op gateway d) := by
  cases d <;> exact ⟨rfl, rfl, rfl, rfl⟩

theorem validate (s : Session π γ κ) (index : Nat) (phase : Phase) (l : Location) :
    s.SameBooks (s.validate index phase l).2 := by
  obtain ⟨clock, diagnostics, validated⟩ := validateAll_eq l (s.constraintsAt index phase) s
  rw [Session.validate, validated]
  exact ⟨rfl, rfl, rfl, rfl⟩

theorem checkAfter (s : Session π γ κ) (i : Instruction) (approved : Bool) :
    s.SameBooks (s.checkAfter i approved) := by
  obtain ⟨diagnostics, checked⟩ := s.checkAfter_eq i approved
  rw [checked]
  exact ⟨rfl, rfl, rfl, rfl⟩

end SameBooks

/-- The same books, where **deadlines may have been noted** in the meantime. -/
def Noted (s t : Session π γ κ) : Prop := s.SameBooks t ∨ s.fireTimers.SameBooks t

namespace Noted

theorem id (h : s.Noted t) : t.id = s.id := h.elim (·.id) (·.id)

theorem settings (h : s.Noted t) : t.settings = s.settings := h.elim (·.settings) (·.settings)

theorem coordinator (h : s.Noted t) : t.coordinator = s.coordinator :=
  h.elim (·.coordinator) (·.coordinator)

theorem network (h : s.Noted t) : t.tables.network = s.tables.network := by
  rcases h with same | same <;> rw [same.tables]
  rfl

/-- Nothing has changed about who owns what and who is entangled. -/
theorem sameQudits (h : s.Noted t) : s.tables.SameQudits t.tables := by
  rcases h with same | same <;> rw [same.tables]
  · exact .refl _
  · exact s.fireTimers_sameQudits

theorem prepared (s : Session π γ κ) (index : Nat) (i : Instruction) :
    s.Noted (s.prepared index i).2 := by
  obtain ⟨clock, diagnostics, prepared⟩ := s.prepared_eq index i
  rw [prepared]
  exact .inr ⟨rfl, rfl, rfl, rfl⟩

end Noted

section

variable [Physics π] [Coordinator κ]

/-- Carrying out an instruction attempts it once. -/
theorem settle_books (s : Session π γ κ) (index : Nat) (i : Instruction) (approved : Bool) :
    (s.took i = [] ∧ ∃ f t, s.attempt i = .failed f t ∧ t.SameBooks (s.settle index i approved)) ∨
    s.took i = [i] ∧ ∃ t, s.attempt i = .done t ∧ t.SameBooks (s.settle index i approved) := by
  rcases s.settle_cases index i approved with ⟨f, t, failed, took, settled⟩ |
      ⟨t, done, took, settled⟩
  · refine .inl ⟨took, f, t, failed, ?_⟩
    rw [settled]
    exact ⟨rfl, rfl, rfl, rfl⟩
  · refine .inr ⟨took, t, done, ?_⟩
    rw [settled]
    exact (SameBooks.validate t index .post i.location).trans (.checkAfter _ i approved)

end

end Session

/-! ## Events -/

namespace Event

variable {π γ κ : Type} [Physics π] [Gateway γ] [Coordinator κ]

/-- **How an event ends** for a session `u` that stands just before the attempt. -/
inductive Outcome (e : Event π γ κ) (u : Session π γ κ) : Prop
  | idle (log : e.log = []) (same : u.SameBooks e.after)
  | failed {f : Fault} {v : Session π γ κ} (log : e.log = [])
      (failed : u.attempt e.instruction = .failed f v) (same : v.SameBooks e.after)
  | done {v : Session π γ κ} (log : e.log = [e.instruction])
      (done : u.attempt e.instruction = .done v) (same : v.SameBooks e.after)

/-- **An event attempts its instruction once, or not at all**; deadlines may be noted before. -/
theorem outcome (e : Event π γ κ) : ∃ u, e.before.Noted u ∧ e.Outcome u := by
  cases e with
  | cycle s index i =>
    refine ⟨(s.prepared index i).2, .prepared s index i, ?_⟩
    rcases s.step_cases index i with ⟨-, log, he⟩ | ⟨-, log, -, operation, reasons, he⟩ |
      ⟨-, log, -, filing, he⟩ | ⟨-, log, he⟩
    · exact .idle log (by rw [after, he]; exact .refl _)
    · exact .idle log (by rw [after, he]; exact ⟨rfl, rfl, rfl, rfl⟩)
    · exact .idle log (by rw [after, he]; exact ⟨rfl, rfl, rfl, rfl⟩)
    · rcases (s.prepared index i).2.settle_books index i false with
        ⟨took, f, t, failed, same⟩ | ⟨took, t, done, same⟩
      · exact .failed (log.trans took) failed (by rw [after, he]; exact same)
      · exact .done (log.trans took) done (by rw [after, he]; exact same)
  | answer s op gateway d =>
    -- an answer is acted on at once: deadlines are noted only in cycles
    refine ⟨s.answered op gateway d, .inl (.answered s op gateway d), ?_⟩
    cases d with
    | reject => exact .idle rfl (.refl _)
    | approve =>
      rcases (s.answered op gateway .approve).settle_books op.index op.instruction true with
        ⟨took, f, t, failed, same⟩ | ⟨took, t, done, same⟩
      · exact .failed took failed same
      · exact .done took done same

end Event

/-! ## Moves -/

namespace Session

variable {π γ κ : Type} [Physics π] [Gateway γ] [Coordinator κ] {s t : Session π γ κ}

/-- **A move makes one event, or leaves the books alone** but for deadlines that are noted. -/
theorem Move.books {e : List (Event π γ κ)} (m : Move s e t) :
    (e = [] ∧ s.Noted t) ∨ ∃ x, e = [x] ∧ s.SameBooks x.before ∧ x.after.SameBooks t := by
  cases m with
  | @pass t i rest ready within passed =>
    refine .inr ⟨_, rfl, ⟨rfl, rfl, rfl, rfl⟩, ?_⟩
    rw [Event.after, passed]
    exact ⟨rfl, rfl, rfl, rfl⟩
  | @ask t i rest request ready within asked =>
    refine .inr ⟨_, rfl, ⟨rfl, rfl, rfl, rfl⟩, ?_⟩
    rw [Event.after, asked]
    exact ⟨rfl, rfl, rfl, rfl⟩
  | finish =>
    rw [finalScan_eq]
    exact .inl ⟨rfl, .inr ⟨rfl, rfl, rfl, rfl⟩⟩
  | answer => exact .inr ⟨_, rfl, .refl s, ⟨rfl, rfl, rfl, rfl⟩⟩
  | exhaust | collapse | refuse | abandon => exact .inl ⟨rfl, .inl ⟨rfl, rfl, rfl, rfl⟩⟩

end Session

end GovernedQuantum
