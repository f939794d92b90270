import GovernedQuantum.Proofs.EntanglementGraph
import GovernedQuantum.Proofs.Reachability
import GovernedQuantum.Proofs.Reporting

/-!
# Groups that always fit

The scan at the end of a run looks for groups that do not fit the live handles, and would stop the
run with a fatal finding. It never finds one: whatever programs a session is given, its groups are
pairs of live handles, and their numbers are used once.

* `Register.Paired.inconsistencies`: paired groups have no defects.
* `Register.Later`: a register in which no number of an earlier one stands for another group.
* `Session.OnlyStepLimit`: nothing fatal is on record but that there were too many steps.
* `Session.group_consistency`: **the groups of every reachable session fit**, and its final scans
  have found nothing.
-/

namespace GovernedQuantum

/-! ## The numbers of groups -/

namespace Register

/-- A register in which no number of the earlier register `r` stands for another group: old groups
may be gone, and new ones have new numbers. -/
structure Later (r r' : Register) : Prop where
  lastGroup : r.lastGroup ≤ r'.lastGroup
  old : ∀ {k g}, k ≤ r.lastGroup → r'.groups.find? k = some g → r.groups.find? k = some g

namespace Later

variable {r r' r'' : Register}

theorem refl (r : Register) : r.Later r := ⟨Nat.le_refl _, fun _ h => h⟩

theorem trans (h : r.Later r') (g : r'.Later r'') : r.Later r'' :=
  ⟨Nat.le_trans h.lastGroup g.lastGroup,
    fun hk hg => h.old hk (g.old (Nat.le_trans hk h.lastGroup) hg)⟩

theorem of_same (same : r.SameQudits r') : r.Later r' :=
  ⟨Nat.le_of_eq same.lastGroup.symm, fun _ hg => same.groups ▸ hg⟩

theorem insert (r : Register) (q : Handle) : r.Later (r.insert q) := ⟨Nat.le_refl _, fun _ hg => hg⟩

theorem join (r : Register) (x y now life : Nat) : r.Later (r.join [x, y] now life).2 where
  lastGroup := Nat.le_succ _
  old := by
    intro k g hk hg
    rcases (find?_groups_join now life k g).1 hg with ⟨rfl, -⟩ | ⟨-, hg⟩
    · omega
    · exact hg

theorem removeGroup (r : Register) (k : Nat) : r.Later (r.removeGroup k) :=
  ⟨Nat.le_refl _, fun _ hg => ((find?_groups_removeGroup _ _).1 hg).2⟩

theorem drop (paired : r.Paired) (x : Nat) : r.Later (r.drop x) :=
  ⟨Nat.le_refl _, fun _ hg => ((paired.find?_groups_drop x _ _).1 hg).1⟩

end Later

/-- Paired groups have no defects. -/
theorem Paired.inconsistencies {r : Register} (h : r.Paired) : r.inconsistencies = [] := by
  refine List.flatMap_eq_nil_iff.2 fun g hg => ?_
  obtain ⟨k, hk⟩ := Table.mem_values_iff.1 hg
  obtain ⟨-, x, y, members, hne, hx, hy⟩ := h.pair hk
  have live : ∀ z ∈ g.participants, r.contains z = true := by
    intro z hz
    rw [members] at hz
    rcases List.mem_pair.1 hz with rfl | rfl
    · exact hx
    · exact hy
  have none_dead : g.participants.filter (!r.contains ·) = [] := by
    refine List.filter_eq_nil_iff.2 fun z hz => ?_
    simp [live z hz]
  rw [Group.defects, none_dead, members]
  simp [hne]

end Register

/-- No effect gives a number away twice. -/
theorem Tables.QuditEffect.later {t u : Tables} {i : Instruction} {next n : Nat}
    (paired : t.register.Paired) (he : t.QuditEffect i next u n) : t.register.Later u.register := by
  cases he with
  | allocate op unbound id name same =>
    exact (Register.Later.insert _ _).trans (.of_same same.register)
  | entangle op distinct left right apart same =>
    exact (Register.Later.join _ _ _ _ _).trans (.of_same same.register)
  | disentangle op left right joined same =>
    exact (Register.Later.removeGroup _ _).trans (.of_same same.register)
  | consume op operand same => exact (Register.Later.drop paired _).trans (.of_same same.register)
  | keep _ _ _ _ same => exact .of_same same.register

namespace Session

variable {π γ κ : Type}

/-! ## What the books of a session say for good -/

/-- The books are in order, and the groups of the register fit its live handles. -/
def InOrder (s : Session π γ κ) : Prop :=
  s.tables.Owned s.nextHandle ∧ s.tables.register.Paired

theorem IsFresh.inOrder {s : Session π γ κ} (fresh : s.IsFresh) : s.InOrder := by
  refine ⟨fresh.owned, ?_⟩
  rw [fresh]
  exact .empty

/-- The scan at the end of a run sees the groups as they are. -/
theorem InOrder.scan {s : Session π γ κ} (h : s.InOrder) :
    s.fireTimers.tables.register.inconsistencies = [] :=
  (h.2.of_same s.fireTimers_sameQudits.register).inconsistencies

section

variable [Physics π] [Coordinator κ]

theorem later_stable (r : Register) : Stable fun _ (s : Session π γ κ) =>
    s.InOrder ∧ r.Later s.tables.register where
  still h same := ⟨graph_stable.still (h := []) h.1 same, same.tables ▸ h.2⟩
  timers {_ s} h :=
    ⟨graph_stable.timers (h := []) h.1, h.2.trans (.of_same s.fireTimers_sameQudits.register)⟩
  effect h done :=
    ⟨graph_stable.effect (h := []) h.1 done, h.2.trans ((attempt_qudits done).later h.1.2)⟩

theorem inOrder_kept [Gateway γ] : Kept (InOrder : Session π γ κ → Prop) := graph_stable.kept

end

/-! ## Fatal findings -/

open Diagnostics (Gains)

/-- Nothing fatal is on record but that there were too many steps. -/
def OnlyStepLimit (s : Session π γ κ) : Prop :=
  ∀ d ∈ s.diagnostics.errors, d.fatal = true →
    ∃ l, d = (Fault.stepLimit s.settings.maxSteps).diagnostic l

namespace OnlyStepLimit

variable {s t : Session π γ κ}

theorem of_same (h : s.OnlyStepLimit) (settings : t.settings = s.settings)
    (same : t.diagnostics = s.diagnostics) : t.OnlyStepLimit := by
  intro d hd
  rw [same] at hd
  rw [settings]
  exact h d hd

theorem halt (h : s.OnlyStepLimit) : s.halt.OnlyStepLimit := h.of_same rfl rfl

theorem of_gains (h : s.OnlyStepLimit) (settings : t.settings = s.settings)
    (gains : Gains (fun d => d.severity = .error → d.fatal = false) s.diagnostics t.diagnostics) :
    t.OnlyStepLimit := by
  intro d hd fatal
  rw [settings]
  rcases gains.of_mem_errors hd with hd | ⟨severity, mild⟩
  · exact h d hd fatal
  · exact absurd fatal (by simp [mild severity])

/-- Minor findings stop nothing. -/
theorem of_minor (h : s.OnlyStepLimit) (settings : t.settings = s.settings) {i : Instruction}
    (gains : Gains i.Minor s.diagnostics t.diagnostics) : t.OnlyStepLimit := by
  refine h.of_gains settings (gains.mono fun d minor severity => ?_)
  rcases minor with warning | ⟨-, mild⟩
  · exact absurd (severity.symm.trans warning) (by simp)
  · exact mild

theorem of_warnings (h : s.OnlyStepLimit) (settings : t.settings = s.settings)
    (gains : Gains (·.severity = .warning) s.diagnostics t.diagnostics) : t.OnlyStepLimit := by
  refine h.of_gains settings (gains.mono fun d warning severity => ?_)
  exact absurd (severity.symm.trans warning) (by simp)

theorem start (s : Session π γ κ) (program : Program) (annotations : Option (List InferredType)) :
    (s.start program annotations).OnlyStepLimit := by
  intro d hd
  have none : (s.start program annotations).diagnostics.errors = #[] := by
    unfold Session.start
    dsimp only
    split
    · rfl
    · split <;> rfl
  rw [none] at hd
  exact absurd hd (by simp)

/-- **A move adds nothing fatal** but that there were too many steps: where the groups fit, the scan
at the end finds nothing. -/
theorem move [Physics π] [Gateway γ] [Coordinator κ] (inOrder : s.InOrder) (h : s.OnlyStepLimit)
    {e : List (Event π γ κ)} (m : Move s e t) : t.OnlyStepLimit := by
  cases m with
  | @pass t i rest ready within passed =>
    have gains := s.counted.step_gains s.position i
    have course := step_next_sameCourse passed
    rw [passed] at gains
    exact h.of_minor course.settings gains
  | @ask t i rest request ready within asked =>
    have gains := s.counted.step_gains s.position i
    have course := (asks_of_suspended asked).course
    rw [asked] at gains
    exact h.of_minor course.settings gains
  | exhaust ready spent =>
    intro d hd fatal
    rcases Array.mem_push.1 hd with hd | rfl
    · exact h d hd fatal
    · exact ⟨_, rfl⟩
  | collapse => exact h.halt
  | finish =>
    have scanned : s.finalScan.OnlyStepLimit :=
      h.of_warnings s.finalScan_sameCourse.settings (finalScan_gains inOrder.scan)
    exact scanned.halt
  | @answer op d gateway waits taken =>
    have answered : (s.answered op gateway d).settings = s.settings := by cases d <;> rfl
    have settings := (s.acted_course op gateway d).settings.trans answered
    exact (h.of_minor settings (s.acted_gains op gateway d)).of_same rfl rfl
  | refuse => exact h.of_same rfl rfl
  | @abandon op waits e =>
    have given : (s.givenUp op e).OnlyStepLimit := h.of_minor rfl (s.givenUp_gains op e)
    exact given.of_same rfl rfl

theorem kept [Physics π] [Gateway γ] [Coordinator κ] :
    Kept fun s : Session π γ κ => s.InOrder ∧ s.OnlyStepLimit where
  start program annotations _ h := ⟨inOrder_kept.start h.1 program annotations, start _ _ _⟩
  move h m := ⟨inOrder_kept.move h.1 m, move h.1 h.2 m⟩
  meanwhile h change := by
    refine ⟨inOrder_kept.meanwhile (h := []) h.1 change, ?_⟩
    obtain ⟨_, _, _, _, _, _, -, rfl⟩ := change
    exact h.2.of_same rfl rfl

end OnlyStepLimit

/-! ## Consistency -/

/-- **The groups of a session fit**, now and for good. -/
structure Consistent [Physics π] [Gateway γ] [Coordinator κ] (s : Session π γ κ) : Prop where
  /-- A scan finds nothing. -/
  scan : s.tables.register.inconsistencies = []
  /-- A group goes by its number, which has been given away, and joins two live handles. -/
  pairs : ∀ k g, s.tables.register.groups.find? k = some g →
    g.id = k ∧ k ≤ s.tables.register.lastGroup ∧ g.kind = .bipartite ∧
      ∃ x y, g.participants = [x, y] ∧ x ≠ y ∧ s.tables.register.contains x = true ∧
        s.tables.register.contains y = true
  /-- No two groups join the same handles. -/
  once : ∀ k l g g', s.tables.register.groups.find? k = some g →
    s.tables.register.groups.find? l = some g' →
    (∀ x, x ∈ g.participants ↔ x ∈ g'.participants) → k = l
  /-- Whatever becomes of the session, a number that was given away stands for the same group as
  now, if for any. -/
  lasting : ∀ t, s.Reaches t → s.tables.register.lastGroup ≤ t.tables.register.lastGroup ∧
    ∀ k g, k ≤ s.tables.register.lastGroup → t.tables.register.groups.find? k = some g →
      s.tables.register.groups.find? k = some g
  /-- The run did not record a group that does not fit. -/
  unrecorded : ∀ d ∈ s.diagnostics.errors, ∀ group detail l,
    d ≠ (Fault.inconsistentGroup group detail).diagnostic l
  /-- What stopped the run, if anything, is that there were too many steps. -/
  fatal : ∀ d ∈ s.diagnostics.errors, d.fatal = true →
    ∃ l, d = (Fault.stepLimit s.settings.maxSteps).diagnostic l

variable [Physics π] [Gateway γ] [Coordinator κ]

/-- **The groups of every reachable session fit its live handles**: whatever programs are run and
whatever requests are answered, with any arguments, clocks and collaborators, every group is a pair
of live handles of its own, numbers of groups are not used again, and no final scan finds
anything. -/
theorem group_consistency {s₀ s : Session π γ κ} (fresh : s₀.IsFresh) (clear : s₀.diagnostics = {})
    (reached : s₀.Reaches s) : s.Consistent := by
  have limited : s₀.OnlyStepLimit := by
    intro d hd
    rw [clear] at hd
    exact absurd hd (by simp)
  obtain ⟨inOrder, only⟩ := OnlyStepLimit.kept.reaches ⟨fresh.inOrder, limited⟩ reached
  have paired := inOrder.2
  refine ⟨paired.inconsistencies, ?_, ?_, ?_, ?_, only⟩
  · intro k g hk
    obtain ⟨id, le⟩ := paired.id hk
    obtain ⟨kind, x, y, members, hne, hx, hy⟩ := paired.pair hk
    exact ⟨id, le, kind, x, y, members, hne, hx, hy⟩
  · intro k l g g' hk hl same
    obtain ⟨-, x, y, members, hne, -, -⟩ := paired.pair hk
    have hx : x ∈ g.participants := by simp [members]
    have hy : y ∈ g.participants := by simp [members]
    exact paired.once hne hk hx hy hl ((same x).1 hx) ((same y).1 hy)
  · intro t further
    obtain ⟨-, later⟩ :=
      (later_stable s.tables.register).kept.reaches ⟨inOrder, .refl _⟩ further
    exact ⟨later.lastGroup, fun _ _ hk hg => later.old hk hg⟩
  · rintro d hd group detail l rfl
    -- a finding of the scan is fatal, but not about steps
    obtain ⟨l', he⟩ := only _ hd rfl
    exact absurd (congrArg Diagnostic.category he) (by simp [Fault.diagnostic, Fault.category])

/-- A chain of three, taken apart and joined anew in a second run. -/
def rejoin : Program where
  instructions :=
    [⟨.disentangle, ["a", "b"], {}⟩, ⟨.release, ["c"], {}⟩, ⟨.entangle, ["a", "b"], {}⟩]

/-- The pair that is joined a second time is a third group, and the only one left. -/
theorem group_consistency_rejoin :
    (standard 1 {}).IsFresh ∧ (standard 1 {}).diagnostics = {} ∧
      (standard 1 {}).Reaches (((standard 1 {}).run chain none).run rejoin none) ∧
      (((standard 1 {}).run chain none).run rejoin none).Consistent ∧
      ((standard 1 {}).run chain none).tables.register.groups.keys = [1, 2] ∧
      (((standard 1 {}).run chain none).run rejoin none).tables.register.groups.keys = [3] := by
  have fresh : (standard 1 {}).IsFresh := rfl
  have reached : (standard 1 {}).Reaches (((standard 1 {}).run chain none).run rejoin none) :=
    .run (.run (.refl _) chain none) rejoin none
  exact ⟨fresh, rfl, reached, group_consistency fresh rfl reached, by decide +kernel,
    by decide +kernel⟩

end Session

end GovernedQuantum
