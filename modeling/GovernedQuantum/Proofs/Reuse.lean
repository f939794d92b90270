import GovernedQuantum.Proofs.Findings
import GovernedQuantum.Proofs.Pace

/-!
# Reuse, as it is seen and as it happens

The checker counts the uses of qudits, failed ones included, and a session keeps the books of live
handles. This file compares the two instruction by instruction.

* `foundAt`: what the replay finds at one node. `mem_replay_iff`: nothing is found elsewhere.
* `mem_reused_of_twice`: a qudit that is consumed twice is reported where it is reused, so that the
  last pass has nothing to add.
* `FindingsOf.exists_noCloning_iff`: **the checker reports reuse at an instruction** exactly where
  one of its operands was consumed before it.
* `Session.reuse_agreement`: **so does the session that runs it.**
-/

namespace GovernedQuantum

/-! ## What is found at a node -/

/-- What was found between two points of a pass. -/
def Findings.since (g f : Findings) : List Diagnostic :=
  g.diagnostics.toList.drop f.diagnostics.size

section

variable (views : EntityViews) (budget : Nat) (nodes : List (Node × InferredType))

/-- The replay behind the first `k` nodes. -/
def replayBehind (k : Nat) : Replay := (nodes.take k).foldl (Replay.step views budget) {}

/-- The findings when the last pass is behind the first `k` nodes. -/
def lastPassBehind (k : Nat) : Findings :=
  let final := replayBehind views budget nodes nodes.length
  let ctx := final.facts.context views budget
  (nodes.take k).foldl (fun f (node, type) => f.judgeAll ctx node type .final) final.findings

/-- **What is found at the node at `k`**, when the replay comes to it and in the last pass. -/
def foundAt (k : Nat) : List Diagnostic :=
  (replayBehind views budget nodes (k + 1)).findings.since
      (replayBehind views budget nodes k).findings ++
    (lastPassBehind views budget nodes (k + 1)).since (lastPassBehind views budget nodes k)

end

/-! ## Judging -/

namespace Findings

/-- **What judging constraints does**: `found` is added, and reuse that is reported is noted. -/
structure Judged (ctx : Context) (l : Location) (cs : List Constraint) (f g : Findings)
    (found : List Diagnostic) : Prop where
  diagnostics : g.diagnostics.toList = f.diagnostics.toList ++ found
  /-- Every finding is that of a constraint, and none is reported twice. -/
  sound : ∀ d ∈ found, ∃ c ∈ cs, c.finding? ctx l = some d ∧
    ∀ r, c.kind = .noCloning r .program → r ∉ f.reused
  /-- Only the count over the whole program may be passed over. -/
  complete : ∀ c ∈ cs, (∀ r, c.kind ≠ .noCloning r .program) →
    ∀ d, c.finding? ctx l = some d → d ∈ found
  kept : ∀ r ∈ f.reused, r ∈ g.reused
  noted : ∀ c ∈ cs, ∀ r, c.kind = .noCloning r .operation → c.evaluate ctx ≠ none → r ∈ g.reused

variable {ctx : Context} {l : Location} {cs : List Constraint} {f g : Findings}

theorem Judged.one {c : Constraint} {found : List Diagnostic}
    (diagnostics : g.diagnostics.toList = f.diagnostics.toList ++ found)
    (sound : ∀ d ∈ found, c.finding? ctx l = some d ∧ ∀ r, c.kind = .noCloning r .program →
      r ∉ f.reused)
    (complete : (∀ r, c.kind ≠ .noCloning r .program) → ∀ d, c.finding? ctx l = some d → d ∈ found)
    (kept : ∀ r ∈ f.reused, r ∈ g.reused)
    (noted : ∀ r, c.kind = .noCloning r .operation → c.evaluate ctx ≠ none → r ∈ g.reused) :
    Judged ctx l [c] f g found where
  diagnostics := diagnostics
  sound d hd := ⟨c, List.mem_singleton_self c, sound d hd⟩
  complete _ hc := List.mem_singleton.1 hc ▸ complete
  kept := kept
  noted _ hc := List.mem_singleton.1 hc ▸ noted

theorem judged_judge (c : Constraint) : ∃ found, Judged ctx l [c] f (f.judge ctx l c) found := by
  unfold judge
  split
  · -- reuse over the whole program, reported before
    rename_i covered
    unfold covers at covered
    split at covered
    · rename_i r kind
      refine ⟨[], .one (by simp) (by simp) (fun other => absurd kind (other r)) (fun _ hr => hr) ?_⟩
      intro r' kind'
      exact absurd (kind.symm.trans kind') (by simp)
    · exact absurd covered (by simp)
  · rename_i uncovered
    split
    · rename_i silent
      refine ⟨[],
        .one (by simp) (by simp) (fun _ d hd => ?_) (fun _ hr => hr) fun r _ violated => ?_⟩
      · exact absurd (silent.symm.trans hd) (by simp)
      · exact absurd (Option.map_eq_none_iff.1 silent) violated
    · rename_i d found
      refine ⟨[d], .one Array.toList_push ?_ ?_ ?_ ?_⟩
      · intro d' hd'
        obtain rfl := List.mem_singleton.1 hd'
        refine ⟨found, fun r kind reused => uncovered ?_⟩
        rw [kind]
        exact List.contains_iff_mem.2 reused
      · intro _ d' hd'
        exact List.mem_singleton.2 (Option.some.inj (hd'.symm.trans found))
      · intro r hr
        show r ∈ f.note c.kind
        unfold note
        split
        · exact List.mem_cons_of_mem _ hr
        · exact hr
      · intro r kind _
        show r ∈ f.note c.kind
        rw [kind]
        exact List.mem_cons_self

theorem Judged.append {cs' : List Constraint} {h : Findings} {found found' : List Diagnostic}
    (first : Judged ctx l cs f g found) (second : Judged ctx l cs' g h found') :
    Judged ctx l (cs ++ cs') f h (found ++ found') where
  diagnostics := by rw [second.diagnostics, first.diagnostics, List.append_assoc]
  sound := by
    intro d hd
    rcases List.mem_append.1 hd with hd | hd
    · obtain ⟨c, hc, finding, new⟩ := first.sound d hd
      exact ⟨c, List.mem_append_left _ hc, finding, new⟩
    · obtain ⟨c, hc, finding, new⟩ := second.sound d hd
      exact ⟨c, List.mem_append_right _ hc, finding, fun r kind hr => new r kind (first.kept r hr)⟩
  complete := by
    intro c hc other d hd
    rcases List.mem_append.1 hc with hc | hc
    · exact List.mem_append_left _ (first.complete c hc other d hd)
    · exact List.mem_append_right _ (second.complete c hc other d hd)
  kept r hr := second.kept r (first.kept r hr)
  noted := by
    intro c hc r kind violated
    rcases List.mem_append.1 hc with hc | hc
    · exact second.kept r (first.noted c hc r kind violated)
    · exact second.noted c hc r kind violated

theorem judged_judgeAll (ctx : Context) (node : Node) (type : InferredType) (phase : Phase)
    (f : Findings) :
    ∃ found,
      Judged ctx node.location (type.constraintsIn phase) f
        (f.judgeAll ctx node type phase) found := by
  unfold judgeAll
  generalize type.constraintsIn phase = cs
  induction cs generalizing f with
  | nil => exact ⟨[], by simp, by simp, by simp, fun _ hr => hr, by simp⟩
  | cons c rest ih =>
    obtain ⟨found, first⟩ :
        ∃ found, Judged ctx node.location [c] f (f.judge ctx node.location c) found :=
      judged_judge c
    obtain ⟨found', others⟩ := ih (f.judge ctx node.location c)
    exact ⟨found ++ found', first.append others⟩

theorem since_eq {found : List Diagnostic}
    (h : g.diagnostics.toList = f.diagnostics.toList ++ found) : g.since f = found := by
  rw [since, h, ← Array.length_toList]
  exact List.drop_left

/-- Findings that grow are what was found first, and what was found since. -/
theorem mem_iff_since (grows : f.diagnostics.toList <+: g.diagnostics.toList) {d : Diagnostic} :
    d ∈ g.diagnostics.toList ↔ d ∈ f.diagnostics.toList ∨ d ∈ g.since f := by
  rw [← List.mem_append, since, ← Array.length_toList, List.prefix_iff_eq_append.1 grows]

theorem prefix_judgeAll (ctx : Context) (node : Node) (type : InferredType) (phase : Phase)
    (f : Findings) :
    f.diagnostics.toList <+: (f.judgeAll ctx node type phase).diagnostics.toList := by
  obtain ⟨found, h⟩ := judged_judgeAll ctx node type phase f
  exact ⟨found, h.diagnostics.symm⟩

/-- What findings hold that grow step by step. -/
theorem mem_iff_exists_since {F : Nat → Findings}
    (grows : ∀ k, (F k).diagnostics.toList <+: (F (k + 1)).diagnostics.toList) {d : Diagnostic}
    (n : Nat) :
    d ∈ (F n).diagnostics.toList ↔
      d ∈ (F 0).diagnostics.toList ∨ ∃ k < n, d ∈ (F (k + 1)).since (F k) := by
  induction n with
  | zero => simp
  | succ n ih =>
    rw [mem_iff_since (grows n), ih]
    constructor
    · rintro ((first | ⟨k, hk, hd⟩) | last)
      · exact .inl first
      · exact .inr ⟨k, by omega, hd⟩
      · exact .inr ⟨n, by omega, last⟩
    · rintro (first | ⟨k, hk, hd⟩)
      · exact .inl (.inl first)
      · rcases Nat.lt_succ_iff_lt_or_eq.1 hk with earlier | rfl
        · exact .inl (.inr ⟨k, earlier, hd⟩)
        · exact .inr hd

end Findings

/-! ## Nothing is found elsewhere -/

section

variable (views : EntityViews) (budget : Nat) (nodes : List (Node × InferredType))

theorem replayBehind_grows (k : Nat) :
    (replayBehind views budget nodes k).findings.diagnostics.toList <+:
      (replayBehind views budget nodes (k + 1)).findings.diagnostics.toList := by
  unfold replayBehind
  rw [List.take_add_one, List.foldl_append]
  cases nodes[k]? with
  | none => exact List.prefix_rfl
  | some nt =>
    show _ <+: (Replay.step views budget _ nt).findings.diagnostics.toList
    unfold Replay.step
    dsimp only
    split
    · exact List.prefix_rfl
    · exact (Findings.prefix_judgeAll _ _ _ _ _).trans (Findings.prefix_judgeAll _ _ _ _ _)

theorem lastPassBehind_grows (k : Nat) :
    (lastPassBehind views budget nodes k).diagnostics.toList <+:
      (lastPassBehind views budget nodes (k + 1)).diagnostics.toList := by
  unfold lastPassBehind
  dsimp only
  rw [List.take_add_one, List.foldl_append]
  cases nodes[k]? with
  | none => exact List.prefix_rfl
  | some nt => exact Findings.prefix_judgeAll _ _ _ _ _

/-- **Everything that the replay finds is found at some node.** -/
theorem mem_replay_iff (d : Diagnostic) :
    d ∈ (replay views budget nodes).diagnostics.toList ↔
      ∃ k < nodes.length, d ∈ foundAt views budget nodes k := by
  have whole : replay views budget nodes = lastPassBehind views budget nodes nodes.length := by
    unfold replay lastPassBehind replayBehind
    rw [List.take_length]
  rw [whole, Findings.mem_iff_exists_since (lastPassBehind_grows views budget nodes)]
  show d ∈ (replayBehind views budget nodes nodes.length).findings.diagnostics.toList ∨ _ ↔ _
  rw [Findings.mem_iff_exists_since (F := fun k => (replayBehind views budget nodes k).findings)
    (replayBehind_grows views budget nodes)]
  have none : d ∉ (replayBehind views budget nodes 0).findings.diagnostics.toList := by
    simp [replayBehind]
  simp only [none, false_or, foundAt, List.mem_append, and_or_left, exists_or]

end

theorem mem_errors_pushAll {ds : Diagnostics} {found : List Diagnostic} {d : Diagnostic} :
    d ∈ (ds.pushAll found).errors ↔ d ∈ ds.errors ∨ d ∈ found ∧ d.severity = .error := by
  induction found generalizing ds with
  | nil => simp [Diagnostics.pushAll]
  | cons e rest ih =>
    have push : d ∈ (ds.push e).errors ↔ d ∈ ds.errors ∨ d = e ∧ d.severity = .error := by
      unfold Diagnostics.push
      cases severity : e.severity with
      | error =>
        rw [Array.mem_push]
        refine or_congr_right ⟨fun he => ⟨he, he ▸ severity⟩, fun he => he.1⟩
      | warning =>
        refine (or_iff_left ?_).symm
        rintro ⟨rfl, error⟩
        exact absurd (severity.symm.trans error) (by simp)
    show d ∈ ((ds.push e).pushAll rest).errors ↔ _
    rw [ih, push, List.mem_cons, or_and_right, or_assoc]

/-- What the checker finds at the node at `k` once all nodes are typed. -/
def findingsAt (nodes : List Node) (options : CheckOptions) (k : Nat) : List Diagnostic :=
  foundAt (foldEntities nodes) options.maxCoherentOperations
    (annotated (foldEntities nodes) options nodes) k

theorem length_annotated (views : EntityViews) (options : CheckOptions) (nodes : List Node) :
    (annotated views options nodes).length = nodes.length := by
  rw [annotated, List.length_zip, length_types, Nat.min_self]

/-- Where typing finds no error, every error of the checker is found at some node. -/
theorem mem_errors_check_iff {nodes : List Node} {options : CheckOptions}
    (typed : Quiet (inferAll (foldEntities nodes) options nodes).findings.toList) (d : Diagnostic) :
    d ∈ (check nodes options).diagnostics.errors ↔
      ∃ k < nodes.length, d ∈ findingsAt nodes options k ∧ d.severity = .error := by
  show d ∈ ((({} : Diagnostics).pushAll _).pushAll
    (replay _ _ (annotated _ _ _)).diagnostics.toList).errors
    ↔ _
  rw [mem_errors_pushAll, mem_errors_pushAll, mem_replay_iff, length_annotated]
  have none : ¬ (d ∈ ({} : Diagnostics).errors ∨
      d ∈ (inferAll (foldEntities nodes) options nodes).findings.toList ∧ d.severity = .error) := by
    rintro (early | ⟨found, error⟩)
    · exact absurd early (by simp)
    · exact typed d found error
  rw [or_iff_right none]
  constructor
  · rintro ⟨⟨k, hk, hd⟩, error⟩
    exact ⟨k, hk, hd, error⟩
  · rintro ⟨k, hk, hd, error⟩
    exact ⟨⟨k, hk, hd⟩, error⟩

/-! ## Counting and reporting -/

section

variable (views : EntityViews) (options : CheckOptions) (lines : Array (List Char))
  (partners : Partners)

theorem annotated_take (nodes : List Node) (k : Nat) :
    (annotated views options nodes).take k = annotated views options (nodes.take k) := by
  induction nodes using List.reverseRecOn with
  | nil => simp [annotated]
  | append_singleton nodes node ih =>
    by_cases hk : k ≤ nodes.length
    · rw [annotated_concat, List.take_append_of_le_length (by rwa [length_annotated]), ih,
        List.take_append_of_le_length hk]
    · have all : (nodes ++ [node]).length ≤ k := by
        rw [List.length_append, List.length_singleton]
        omega
      rw [List.take_of_length_le (by rwa [length_annotated]), List.take_of_length_le all]

theorem consumedCount_concat_le {is : List Instruction} {i : Instruction} (resolves : i.Resolves is)
    (r : String) :
    (contextAfter views options lines partners (is ++ [i])).consumedCount r ≤
      (contextAfter views options lines partners is).consumedCount r +
        if r ∈ i.resources then 1 else 0 := by
  obtain ⟨type, -, hr⟩ := replayed_concat views options lines partners resolves
  show (((replayed views options lines partners (is ++ [i])).facts.find? r).map
    Facts.consumed).getD 0 ≤
    (((replayed views options lines partners is).facts.find? r).map Facts.consumed).getD 0 + _
  rw [hr]
  dsimp only
  rw [FactTable.apply_node]
  split
  · rw [Table.find?_insert]
    split
    · exact Nat.zero_le _
    · exact Nat.le_add_right _ _
  · rw [FactTable.find?_modifyAll _ resolves.nodup]
    split
    · cases (replayed views options lines partners is).facts.find? r with
      | none => exact Nat.zero_le _
      | some f =>
        show (if i.opcode.isConsuming then f.consumed + 1 else f.consumed) ≤ f.consumed + 1
        split <;> omega
    · exact Nat.le_refl _

/-- **What the replay does at an instruction**: what the instruction owes is judged before it and
after it. -/
theorem judged_replayed {is : List Instruction} {i : Instruction} (resolves : i.Resolves is) :
    ∃ (type : InferredType) (between : Findings) (pre post : List Diagnostic),
      type.constraints = owed options.explainabilityThreshold views partners i ∧
      Findings.Judged (contextAfter views options lines partners is) i.location
        (type.constraintsIn .pre) (replayed views options lines partners is).findings between pre ∧
      Findings.Judged (contextAfter views options lines partners (is ++ [i])) i.location
        (type.constraintsIn .post) between
        (replayed views options lines partners (is ++ [i])).findings post := by
  obtain ⟨type, constraints, hr⟩ := replayed_concat views options lines partners resolves
  obtain ⟨pre, before⟩ := Findings.judged_judgeAll (contextAfter views options lines partners is)
    (i.node lines partners) type .pre (replayed views options lines partners is).findings
  obtain ⟨post, after⟩ := Findings.judged_judgeAll
    (contextAfter views options lines partners (is ++ [i])) (i.node lines partners) type .post
    ((replayed views options lines partners is).findings.judgeAll
      (contextAfter views options lines partners is) (i.node lines partners) type .pre)
  refine ⟨type, _, pre, post, constraints, before, ?_⟩
  rw [contextAfter, hr] at after ⊢
  exact after

/-- A qudit that is consumed twice is reported where it is reused. -/
theorem mem_reused_of_twice {is : List Instruction} (resolved : Resolved is) {r : String}
    (twice : 1 < (contextAfter views options lines partners is).consumedCount r) :
    r ∈ (replayed views options lines partners is).findings.reused := by
  induction is using List.reverseRecOn with
  | nil => exact absurd twice (by simp [contextAfter, replayed, annotated, FactTable.context])
  | append_singleton is i ih =>
    obtain ⟨earlier, resolves⟩ := everywhere_concat.1 resolved
    have count := consumedCount_concat_le views options lines partners resolves r
    obtain ⟨type, between, pre, post, constraints, before, after⟩ :=
      judged_replayed views options lines partners resolves
    refine after.kept r ?_
    by_cases again : 1 < (contextAfter views options lines partners is).consumedCount r
    · exact before.kept r (ih earlier again)
    · -- the second use is the first reuse
      have operand : r ∈ i.resources := by
        by_contra other
        rw [if_neg other] at count
        omega
      rw [if_pos operand] at count
      have used : (contextAfter views options lines partners is).consumedCount r ≠ 0 := by omega
      have owes : Constraint.noCloning r .operation ∈ type.constraintsIn .pre :=
        InferredType.mem_constraintsIn.2 ⟨constraints ▸ mem_owed_unused operand, rfl⟩
      exact before.noted _ owes r rfl fun silent =>
        used (Constraint.upheld_unused.1 fun _ => silent)

/-! ## Findings at an instruction -/

theorem replayBehind_annotated (is : List Instruction) (k : Nat) :
    replayBehind views options.maxCoherentOperations
        (annotated views options (is.map (·.node lines partners))) k =
      replayed views options lines partners (is.take k) := by
  rw [replayBehind, annotated_take, ← List.map_take]
  rfl

/-- The last pass of a resolved program at an instruction. -/
theorem judged_lastPass {is : List Instruction} (resolved : Resolved is) {k : Nat} {i : Instruction}
    (here : is[k]? = some i) :
    ∃ (type : InferredType) (last : List Diagnostic),
      type.constraints = owed options.explainabilityThreshold views partners i ∧
      Findings.Judged (contextAfter views options lines partners is) i.location
        (type.constraintsIn .final)
        (lastPassBehind views options.maxCoherentOperations
          (annotated views options (is.map (·.node lines partners))) k)
        (lastPassBehind views options.maxCoherentOperations
          (annotated views options (is.map (·.node lines partners))) (k + 1)) last := by
  obtain ⟨-, constraints⟩ := typeAfter_of_resolves views options lines partners
    (resolved.resolves_at here)
  have final : replayBehind views options.maxCoherentOperations
      (annotated views options (is.map (·.node lines partners)))
      (annotated views options (is.map (·.node lines partners))).length =
        replayed views options lines partners is := by
    rw [replayBehind_annotated, length_annotated, List.length_map, List.take_length]
  unfold lastPassBehind
  dsimp only
  rw [final, annotated_take, annotated_take, ← List.map_take, ← List.map_take,
    take_succ_of_getElem? here, List.map_append, List.map_singleton, annotated_concat,
    List.foldl_append]
  obtain ⟨last, judged⟩ := Findings.judged_judgeAll (contextAfter views options lines partners is)
    (i.node lines partners) _ .final _
  exact ⟨_, last, constraints, judged⟩

/-- Reuse that was reported is not forgotten in the last pass. -/
theorem reused_lastPass (nodes : List (Node × InferredType)) (budget k : Nat) {r : String}
    (h : r ∈ (replayBehind views budget nodes nodes.length).findings.reused) :
    r ∈ (lastPassBehind views budget nodes k).reused := by
  unfold lastPassBehind
  dsimp only
  generalize nodes.take k = front
  generalize (replayBehind views budget nodes nodes.length).findings = f at h
  induction front generalizing f with
  | nil => exact h
  | cons nt rest ih =>
    obtain ⟨found, judged⟩ := Findings.judged_judgeAll _ nt.1 nt.2 .final f
    exact ih _ (judged.kept r h)

end

/-! ## Reuse -/

section

variable (options : CheckOptions) (lines : Array (List Char)) (is : List Instruction)

/-- The checker's context behind the instructions `before` of the program `is`. -/
def contextWithin (before : List Instruction) : Context :=
  contextAfter (viewsOf lines (.ofInstructions is) is) options lines (.ofInstructions is) before

/-- What an instruction of the program `is` owes. -/
def owedWithin (i : Instruction) : List Constraint :=
  owed options.explainabilityThreshold (viewsOf lines (.ofInstructions is) is)
    (.ofInstructions is) i

/-- **The findings at the instruction at `k`**: those of what it owes before it, after it and at the
end, where no reuse is reported that was reported before. -/
structure FindingsOf (k : Nat) (i : Instruction) (found : List Diagnostic) : Prop where
  sound : ∀ d ∈ found, ∃ c ∈ owedWithin options lines is i,
    (c.phase = .pre ∧ c.finding? (contextWithin options lines is (is.take k)) i.location = some d) ∨
    (c.phase = .post ∧
      c.finding? (contextWithin options lines is (is.take k ++ [i])) i.location = some d) ∨
    (c.phase = .final ∧ c.finding? (contextWithin options lines is is) i.location = some d ∧
      ∀ r, c.kind = .noCloning r .program →
        (contextWithin options lines is is).consumedCount r ≤ 1)
  complete : ∀ c ∈ owedWithin options lines is i, c.phase = .pre → ∀ d,
    c.finding? (contextWithin options lines is (is.take k)) i.location = some d → d ∈ found

variable {is} {k : Nat} {i : Instruction}

theorem mem_constraintsIn_iff_owed {type : InferredType}
    (constraints : type.constraints = owedWithin options lines is i) {c : Constraint}
    {phase : Phase} :
    c ∈ type.constraintsIn phase ↔ c ∈ owedWithin options lines is i ∧ c.phase = phase := by
  rw [InferredType.mem_constraintsIn, constraints]

/-- What the checker finds at an instruction of a resolved program. -/
theorem findingsOf_foundAt (resolved : Resolved is) (here : is[k]? = some i) :
    FindingsOf options lines is k i
      (foundAt (viewsOf lines (.ofInstructions is) is) options.maxCoherentOperations
        (annotated (viewsOf lines (.ofInstructions is) is) options
          (is.map (·.node lines (.ofInstructions is)))) k) := by
  obtain ⟨type, between, pre, post, constraints, before, after⟩ :=
    judged_replayed (viewsOf lines (.ofInstructions is) is) options lines (.ofInstructions is)
      (resolved.resolves_at here)
  obtain ⟨type', last, constraints', final⟩ :=
    judged_lastPass (viewsOf lines (.ofInstructions is) is) options lines (.ofInstructions is)
      resolved here
  have replayed :
      (replayBehind (viewsOf lines (.ofInstructions is) is) options.maxCoherentOperations
          (annotated (viewsOf lines (.ofInstructions is) is) options
            (is.map (·.node lines (.ofInstructions is)))) (k + 1)).findings.since
        (replayBehind (viewsOf lines (.ofInstructions is) is) options.maxCoherentOperations
          (annotated (viewsOf lines (.ofInstructions is) is) options
            (is.map (·.node lines (.ofInstructions is)))) k).findings = pre ++ post := by
    rw [replayBehind_annotated, replayBehind_annotated, take_succ_of_getElem? here]
    apply Findings.since_eq
    rw [after.diagnostics, before.diagnostics, List.append_assoc]
  rw [foundAt, replayed, Findings.since_eq final.diagnostics]
  constructor
  · intro d hd
    rcases List.mem_append.1 hd with hd | hd
    · rcases List.mem_append.1 hd with hd | hd
      · obtain ⟨c, hc, finding, -⟩ := before.sound d hd
        obtain ⟨hc, phase⟩ := (mem_constraintsIn_iff_owed options lines constraints).1 hc
        exact ⟨c, hc, .inl ⟨phase, finding⟩⟩
      · obtain ⟨c, hc, finding, -⟩ := after.sound d hd
        obtain ⟨hc, phase⟩ := (mem_constraintsIn_iff_owed options lines constraints).1 hc
        exact ⟨c, hc, .inr (.inl ⟨phase, finding⟩)⟩
    · obtain ⟨c, hc, finding, new⟩ := final.sound d hd
      obtain ⟨hc, phase⟩ := (mem_constraintsIn_iff_owed options lines constraints').1 hc
      refine ⟨c, hc, .inr (.inr ⟨phase, finding, fun r kind => ?_⟩)⟩
      by_contra twice
      refine new r kind (reused_lastPass _ _ _ _ ?_)
      rw [replayBehind_annotated, length_annotated, List.length_map, List.take_length]
      exact mem_reused_of_twice _ options lines _ resolved (Nat.lt_of_not_le twice)
  · intro c hc phase d finding
    refine List.mem_append_left _
      (List.mem_append_left _ (before.complete c ?_ (fun r kind => ?_) d finding))
    · exact (mem_constraintsIn_iff_owed options lines constraints).2 ⟨hc, phase⟩
    · exact absurd (phase.symm.trans (phase_of_mem_owed _ _ hc kind)) (by simp)

/-- Before an instruction whose operands are all unused, its names are answered for. -/
theorem grounded_pre (resolved : Resolved is) (here : is[k]? = some i)
    (unused : ∀ r ∈ i.resources, ¬ Consumed (is.take k) r) :
    i.Grounded (contextWithin options lines is (is.take k)) .pre := by
  have resolves := resolved.resolves_at here
  have earlier : Resolved (is.take k) := resolved.of_prefix (List.take_prefix _ _)
  refine ⟨fun r hr => ⟨?_, ?_⟩, fun e he => ⟨finalView is e, ?_⟩⟩
  · exact (isTracked_contextAfter options lines _ earlier r).2 (resolves.allocated r hr)
  · exact (consumedCount_contextAfter options lines _ earlier r).2 (unused r hr)
  · exact entity_contextAfter options lines _ resolved
      (resolved.declared (List.mem_of_getElem? here) he) _

/-- After an instruction, its names are answered for. -/
theorem grounded_post (resolved : Resolved is) (here : is[k]? = some i) :
    i.Grounded (contextWithin options lines is (is.take k ++ [i])) .post := by
  have behind : Resolved (is.take k ++ [i]) :=
    resolved.of_prefix (take_succ_of_getElem? here ▸ List.take_prefix _ _)
  refine ⟨fun op => ?_, fun op => ⟨finalView is (i.arg 0), ?_⟩⟩
  · exact (isTracked_contextAfter options lines _ behind _).2 (allocated_concat.2 (.inr ⟨op, rfl⟩))
  · exact entity_contextAfter options lines _ resolved
      ⟨i, List.mem_of_getElem? here, op, rfl⟩ _

/-- At the end of a resolved program nothing fails but the count of uses. -/
theorem finding?_final (resolved : Resolved is) {c : Constraint}
    (hc : c ∈ owedWithin options lines is i) (phase : c.phase = .final) (l : Location)
    (once : ∀ r, c.kind = .noCloning r .program →
      (contextWithin options lines is is).consumedCount r ≤ 1) :
    c.finding? (contextWithin options lines is is) l = none := by
  refine Option.map_eq_none_iff.2 ?_
  cases owes_of_mem hc with
  | total op => exact Constraint.upheld_total.2 (once _ rfl) rfl
  | entangled op =>
    refine Constraint.upheld_entanglementConsistency (fun p hp => ?_) rfl
    obtain ⟨j, hj, jop, hr⟩ := exists_entangle_of_mem_partners hp
    exact wasEntangled_contextAfter options lines _ resolved hj jop hr
  | _ => exact absurd phase (by simp)

end

/-- The diagnostic reports that a qudit is used after it was consumed, or consumed more than
once. -/
def Diagnostic.IsNoCloning (d : Diagnostic) : Prop :=
  ∃ r scope ctx l, (Constraint.noCloning r scope).finding? ctx l = some d

/-- What an instruction owes tells of reuse only where its names are not answered for. -/
theorem not_noCloning {options : CheckOptions} {lines : Array (List Char)} {is : List Instruction}
    {i : Instruction} {c : Constraint} {ctx : Context} {l : Location} {d : Diagnostic}
    (hc : c ∈ owedWithin options lines is i) (grounded : i.Grounded ctx c.phase)
    (found : c.finding? ctx l = some d) : ¬ d.IsNoCloning := by
  rintro ⟨r, scope, ctx', l', reuse⟩
  obtain ⟨v, hv, rfl⟩ := Option.map_eq_some_iff.1 found
  exact ((owes_of_mem hc).permitted grounded hv l).not_prevented (.noCloning reuse)

/-- **The checker reports reuse at an instruction** of a resolved program exactly where one of its
operands was consumed before it. -/
theorem FindingsOf.exists_noCloning_iff {options : CheckOptions} {lines : Array (List Char)}
    {is : List Instruction} {k : Nat} {i : Instruction} {found : List Diagnostic}
    (h : FindingsOf options lines is k i found) (resolved : Resolved is) (here : is[k]? = some i) :
    (∃ d ∈ found, d.IsNoCloning) ↔ ∃ r ∈ i.resources, Consumed (is.take k) r := by
  constructor
  · rintro ⟨d, hd, reuse⟩
    by_contra none
    have unused : ∀ r ∈ i.resources, ¬ Consumed (is.take k) r := fun r hr hc => none ⟨r, hr, hc⟩
    obtain ⟨c, hc, ⟨phase, finding⟩ | ⟨phase, finding⟩ | ⟨phase, finding, once⟩⟩ := h.sound d hd
    · exact not_noCloning hc (phase ▸ grounded_pre options lines resolved here unused) finding reuse
    · exact not_noCloning hc (phase ▸ grounded_post options lines resolved here) finding reuse
    · have silent := finding?_final options lines resolved hc phase i.location once
      exact absurd (silent.symm.trans finding) (by simp)
  · rintro ⟨r, hr, consumed⟩
    have earlier : Resolved (is.take k) := resolved.of_prefix (List.take_prefix _ _)
    have violated : (Constraint.noCloning r .operation).evaluate
        (contextWithin options lines is (is.take k)) ≠ none := by
      intro silent
      have unused := Constraint.upheld_unused.1 fun _ => silent
      exact (consumedCount_contextAfter options lines _ earlier r).1 unused consumed
    obtain ⟨v, hv⟩ := Option.ne_none_iff_exists'.1 violated
    have finding := congrArg (Option.map (·.diagnostic i.location true)) hv
    exact ⟨_, h.complete _ (mem_owed_unused hr) rfl _ finding, r, .operation, _, _, finding⟩

/-- Findings stand where their instruction stands. -/
theorem FindingsOf.location {options : CheckOptions} {lines : Array (List Char)}
    {is : List Instruction} {k : Nat} {i : Instruction} {found : List Diagnostic}
    (h : FindingsOf options lines is k i found) : ∀ d ∈ found, d.location = i.location := by
  have located {c : Constraint} {ctx : Context} {d : Diagnostic}
      (finding : c.finding? ctx i.location = some d) : d.location = i.location := by
    obtain ⟨v, -, rfl⟩ := Option.map_eq_some_iff.1 finding
    rfl
  intro d hd
  obtain ⟨c, -, ⟨-, finding⟩ | ⟨-, finding⟩ | ⟨-, finding, -⟩⟩ := h.sound d hd
  · exact located finding
  · exact located finding
  · exact located finding

theorem Diagnostic.IsNoCloning.severity {d : Diagnostic} (h : d.IsNoCloning) :
    d.severity = .error := by
  obtain ⟨r, scope, ctx, l, found⟩ := h
  exact (Findings.severity_of_finding? found).2.2 (Constraint.required_noCloning scope)

/-- What is found at an instruction whose program is typed. -/
theorem findingsOf_findingsAt {is : List Instruction} (resolved : Resolved is) {k : Nat}
    {i : Instruction} (here : is[k]? = some i) (source : String) (options : CheckOptions) :
    FindingsOf options (Text.lines source.toList).toArray is k i
      (findingsAt (Node.ofInstructions is source) options k) :=
  findingsOf_foundAt options _ resolved here

theorem exists_noCloning_findingsAt_iff {is : List Instruction} (resolved : Resolved is) {k : Nat}
    {i : Instruction} (here : is[k]? = some i) (source : String) (options : CheckOptions) :
    (∃ d ∈ findingsAt (Node.ofInstructions is source) options k,
        d.severity = .error ∧ d.IsNoCloning) ↔
      ∃ r ∈ i.resources, Consumed (is.take k) r := by
  rw [← (findingsOf_findingsAt resolved here source options).exists_noCloning_iff resolved here]
  exact exists_congr fun d => and_congr_right fun _ => and_iff_right_of_imp (·.severity)

namespace Session

variable {π γ : Type} [Physics π] [Gateway γ]

/-- **Reuse is seen where it happens.** A program whose nodes are all typed is run to completion
without annotations, however requests are answered, in a fresh session in which no time passes,
whose coordinator accepts everything and which has steps enough.

Every error of the checker is then found at some instruction, and stands where that stands; every
instruction has its cycle, once and in order, and what it fails with is reported. The checker
reports reuse at an instruction exactly where the instruction fails over a consumed qudit. -/
theorem reuse_agreement {s : Session π γ Loopback} {now : Nat} {is : List Instruction}
    {source : String} {options : CheckOptions} (decide : List Request → Request → Decision)
    (typed : Quiet (inferAll (foldEntities (Node.ofInstructions is source)) options
      (Node.ofInstructions is source)).findings.toList)
    (fresh : s.IsFresh) (reads : s.clock.Reads now) (delays : s.delays = {})
    (lasting : now < Handle.deadline now s.settings.coherenceTime)
    (room : is.length ≤ s.settings.maxSteps) :
    (∀ d, d ∈ (check (Node.ofInstructions is source) options).diagnostics.errors ↔
      ∃ k < is.length, d ∈ findingsAt (Node.ofInstructions is source) options k ∧
      d.severity = .error) ∧
    Path (s.start ⟨is⟩ none) (s.completionEvents ⟨is⟩ none decide)
      (s.runToCompletion ⟨is⟩ none decide).2 ∧
    (s.completionEvents ⟨is⟩ none decide).filterMap Event.cycle? = List.range is.length ∧
    (∀ e ∈ s.completionEvents ⟨is⟩ none decide, is[e.index]? = some e.instruction ∧
      ∀ f, e.fault? = some f →
        e.after.diagnostics = e.before.diagnostics.push (f.diagnostic e.instruction.location)) ∧
    ∀ k i, is[k]? = some i →
      (∀ d ∈ findingsAt (Node.ofInstructions is source) options k, d.location = i.location) ∧
      ((∃ d ∈ findingsAt (Node.ofInstructions is source) options k,
          d.severity = .error ∧ d.IsNoCloning) ↔
        ∃ e ∈ s.completionEvents ⟨is⟩ none decide, e.index = k ∧
          ∃ r, e.fault? = some (.consumedHandle r)) := by
  have resolved : Resolved is := (quiet_inferAll_iff _ options _ _ is).1 typed
  obtain ⟨fair, cycles⟩ :=
    follows_completion (fresh.pace reads delays lasting ⟨is⟩) resolved room decide
  refine ⟨fun d => ?_, ?_, cycles, fun e he => ⟨(fair e he).place, (fair e he).reported⟩, ?_⟩
  · rw [mem_errors_check_iff typed, Node.ofInstructions, List.length_map]
  · exact s.path_completion ⟨is⟩ none decide
  · intro k i here
    refine ⟨(findingsOf_findingsAt resolved here source options).location, ?_⟩
    rw [exists_noCloning_findingsAt_iff resolved here]
    constructor
    · intro consumed
      -- the instruction had its cycle, and there it failed
      have turn : k ∈ (s.completionEvents ⟨is⟩ none decide).filterMap Event.cycle? := by
        rw [cycles, List.mem_range]
        exact (List.getElem?_eq_some_iff.1 here).1
      obtain ⟨e, he, cycle⟩ := List.mem_filterMap.1 turn
      obtain rfl := Event.index_of_cycle? cycle
      obtain rfl := Option.some.inj ((fair e he).place.symm.trans here)
      exact ⟨e, he, rfl, (fair e he).consumed.2 consumed⟩
    · rintro ⟨e, he, rfl, fault⟩
      obtain rfl := Option.some.inj ((fair e he).place.symm.trans here)
      exact (fair e he).consumed.1 fault

/-- A program that names `a` twice after it was measured. -/
def leftovers : List Instruction :=
  [⟨.allocQudit, ["a", "2"], ⟨1, 1⟩⟩, ⟨.allocQudit, ["b", "3"], ⟨2, 1⟩⟩, ⟨.measure, ["a"], ⟨3, 1⟩⟩,
    ⟨.entangle, ["b", "a"], ⟨4, 1⟩⟩, ⟨.release, ["b"], ⟨5, 1⟩⟩, ⟨.measure, ["a"], ⟨6, 1⟩⟩]

theorem reuse_agreement_leftovers :
    Quiet (inferAll (foldEntities (Node.ofInstructions leftovers "")) {}
      (Node.ofInstructions leftovers "")).findings.toList ∧
    (Session.standard 1 {}).IsFresh ∧ (Session.standard 1 {}).clock.Reads 0 ∧
    0 < Handle.deadline 0 (Session.standard 1 {}).settings.coherenceTime ∧
    leftovers.length ≤ (Session.standard 1 {}).settings.maxSteps ∧
    ∀ k < leftovers.length,
      (∃ e ∈ (Session.standard 1 {}).completionEvents ⟨leftovers⟩ none fun _ _ => .reject,
        e.index = k ∧ ∃ r, e.fault? = some (.consumedHandle r)) ↔ k = 3 ∨ k = 5 := by
  have typed : Quiet (inferAll (foldEntities (Node.ofInstructions leftovers "")) {}
      (Node.ofInstructions leftovers "")).findings.toList := by
    unfold Quiet
    decide +kernel
  have fresh : (Session.standard 1 {}).IsFresh := rfl
  have reads : (Session.standard 1 {}).clock.Reads 0 := fun _ => rfl
  have lasting : 0 < Handle.deadline 0 (Session.standard 1 {}).settings.coherenceTime := by
    decide +kernel
  have room : leftovers.length ≤ (Session.standard 1 {}).settings.maxSteps := by decide +kernel
  have reused : ∀ k (h : k < leftovers.length),
      (∃ r ∈ leftovers[k].resources, Consumed (leftovers.take k) r) ↔ k = 3 ∨ k = 5 := by
    decide +kernel
  refine ⟨typed, fresh, reads, lasting, room, fun k h => ?_⟩
  have here := List.getElem?_eq_getElem h
  have resolved : Resolved leftovers := (quiet_inferAll_iff _ {} _ _ leftovers).1 typed
  obtain ⟨-, agree⟩ :=
    (reuse_agreement (fun _ _ => .reject) typed fresh reads rfl lasting room).2.2.2.2 k _ here
  rw [← agree, exists_noCloning_findingsAt_iff resolved here]
  exact reused k h

end Session

end GovernedQuantum
