import GovernedQuantum.Proofs.History

/-!
# Reachable sessions

What calls can make of a session, whatever the programs, arguments and answers. Between calls its
collaborators may be changed for others, and handle numbers may be given away elsewhere; its
settings, its gateway and all that calls have left in it stay.

* `Session.Reaches`: what becomes of a session by calls.
* `Session.reaches_runToCompletion`: a run to completion is made of such calls.
* `Session.Kept`: laws that single moves keep. `Session.Kept.reaches`: **they hold of every session
  that is reached from one where they hold.**
* `Session.Stable.kept`: a stable law is kept by every move.
-/

namespace GovernedQuantum.Session

variable {π γ κ : Type} [Physics π] [Gateway γ] [Coordinator κ]

/-- Collaborators may have changed, and handle numbers may have been given away. -/
def Outlives (s t : Session π γ κ) : Prop :=
  ∃ clock delays physics coordinator explainer nextHandle, s.nextHandle ≤ nextHandle ∧
    t = { s with clock, delays, physics, coordinator, explainer, nextHandle }

/-- **What becomes of a session by calls**: programs are run, requests are answered or given up, and
meanwhile collaborators change and handle numbers are given away. -/
def Reaches (s₀ s : Session π γ κ) : Prop := ∃ h, s₀.History (.events true Outlives) h s

theorem Reaches.refl (s : Session π γ κ) : s.Reaches s := ⟨[], .new⟩

theorem Reaches.run {s₀ s : Session π γ κ} (reached : s₀.Reaches s) (program : Program)
    (annotations : Option (List InferredType)) : s₀.Reaches (s.run program annotations) := by
  obtain ⟨h, life⟩ := reached
  exact ⟨_, life.run program annotations⟩

theorem reaches_runToCompletion {s₀ s : Session π γ κ} (reached : s₀.Reaches s) (program : Program)
    (annotations : Option (List InferredType)) (decide : List Request → Request → Decision) :
    s₀.Reaches (s.runToCompletion program annotations decide).2 := by
  obtain ⟨h, life⟩ := reached.run program annotations
  exact ⟨_, life.answerAll decide _ _⟩

/-! ## Laws about reachable sessions -/

/-- **Laws that single moves keep.** -/
abbrev Kept (P : Session π γ κ → Prop) : Prop := Law true Outlives fun _ => P

namespace Kept

variable {P : Session π γ κ → Prop} {s t : Session π γ κ}

theorem start (hP : Kept P) (hs : P s) (program : Program)
    (annotations : Option (List InferredType)) : P (s.start program annotations) :=
  Law.start hP (h := []) program annotations rfl hs

theorem move (hP : Kept P) (hs : P s) {e : List (Event π γ κ)} (m : Move s e t) : P t :=
  Law.move hP (h := []) hs m

theorem path (hP : Kept P) (hs : P s) {e : List (Event π γ κ)} (p : Path s e t) : P t :=
  Law.path hP (h := []) hs p

/-- **A law that moves keep holds of every session that is reached.** -/
theorem reaches (hP : Kept P) (hs : P s) (reached : s.Reaches t) : P t := by
  obtain ⟨h, life⟩ := reached
  exact hP.history hs life

end Kept

/-- A stable law that does not ask what took effect is kept by every move. -/
theorem Stable.kept {P : Session π γ κ → Prop} (hP : Stable fun _ => P) : Kept P where
  start program annotations _ hs := hP.still (h := []) hs (start_alike _ program annotations)
  move hs m := hP.move (h := []) hs m
  meanwhile hs := by
    rintro ⟨clock, delays, physics, coordinator, explainer, nextHandle, supply, rfl⟩
    exact hP.still (h := []) hs ⟨rfl, supply⟩

end GovernedQuantum.Session
