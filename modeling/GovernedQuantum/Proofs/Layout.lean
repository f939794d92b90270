import GovernedQuantum.Proofs.RoundTrip

/-!
# Layout does not matter

Where a word stands in a source is carried from its token to its instruction, its node and whatever
is found about it, and the text of a node is taken from the line. Nothing is decided by these. This
file forgets places at every stage and shows that the stages do not notice: the checker finds the
same about nodes without places, less the places, and statements are assembled from the words alone.

* `unplaced`, on findings, nodes, types and states of the checker: the same without places.
* `check_unplaced`: **checking commutes with forgetting places.**
* `Assembly.SameWork`: two passes over words have made the same of them, up to places and warnings.
* `layout_invariance`: **what a source compiles to is decided by its words.** Line breaks, blanks,
  comments and punctuation change nothing but places.
-/

namespace GovernedQuantum

/-- A fold commutes with what its step commutes with. -/
theorem foldl_map_eq {α β S T : Type} {f : S → α → S} {g : T → β → T} {h : S → T} {e : α → β}
    {s : S} {t : T} (start : t = h s) (step : ∀ s a, g (h s) (e a) = h (f s a)) (l : List α) :
    (l.map e).foldl g t = h (l.foldl f s) := by
  rw [start, List.foldl_map]
  exact List.foldl_hom h step

/-! ## Findings without places -/

/-- The finding without its place. -/
def Diagnostic.unplaced (d : Diagnostic) : Diagnostic := { d with location := {} }

namespace Diagnostics

/-- The findings without their places. -/
def unplaced (ds : Diagnostics) : Diagnostics :=
  ⟨ds.errors.map Diagnostic.unplaced, ds.warnings.map Diagnostic.unplaced⟩

theorem unplaced_push (ds : Diagnostics) (d : Diagnostic) :
    ds.unplaced.push d.unplaced = (ds.push d).unplaced := by
  obtain ⟨severity, category, location, message, suggestion, fatal⟩ := d
  cases severity <;> simp [push, unplaced, Diagnostic.unplaced]

theorem unplaced_pushAll (ds : Diagnostics) (found : List Diagnostic) :
    ds.unplaced.pushAll (found.map Diagnostic.unplaced) = (ds.pushAll found).unplaced :=
  foldl_map_eq rfl unplaced_push found

theorem hasErrors_unplaced (ds : Diagnostics) : ds.unplaced.hasErrors = ds.hasErrors := by
  simp [hasErrors, unplaced, Array.isEmpty]

theorem unplaced_empty : ({} : Diagnostics).unplaced = {} := by simp [unplaced]

end Diagnostics

/-! ## Checking without places -/

/-- The node without its place and text. -/
def Node.unplaced (node : Node) : Node := { node with location := {}, text := "" }

theorem foldEntities_unplaced (nodes : List Node) :
    foldEntities (nodes.map Node.unplaced) = foldEntities nodes :=
  List.foldl_map

namespace Typing

/-- The typing, with its findings unplaced. -/
def unplaced (t : Typing) : Typing := { t with findings := t.findings.map Diagnostic.unplaced }

theorem unplaced_reporting (σ : Symbols) (l : Location) (type : InferredType)
    (issues : List TypeIssue) :
    (reporting σ l type issues).unplaced = reporting σ {} type issues := by
  simp only [unplaced, reporting, List.map_map]
  rfl

theorem unplaced_ofEntity (σ : Symbols) (l : Location) (entity : String) (t : Typing) :
    (ofEntity σ l entity t).unplaced = ofEntity σ {} entity t.unplaced := by
  unfold ofEntity
  split
  · rfl
  · exact unplaced_reporting σ l _ _

end Typing

theorem directiveType_unplaced (l : Location) (d : Directive) :
    directiveType {} d =
      ((directiveType l d).1, (directiveType l d).2.map Diagnostic.unplaced) := by
  cases d with
  | targetNode | channel => rfl
  | barrier name deadline => cases deadline <;> rfl
  | window name soft hard =>
    cases soft with
    | none => rfl
    | some soft =>
      cases hard with
      | none => rfl
      | some hard =>
        simp only [directiveType]
        split <;> rfl

/-- **A node is typed whatever its place**, and what is found has the place of the node. -/
theorem infer_unplaced (views : EntityViews) (options : CheckOptions) (σ : Symbols) (node : Node) :
    infer views options σ node.unplaced = (infer views options σ node).unplaced := by
  obtain ⟨opcode, location, text, metadata⟩ := node
  cases metadata with
  | resource name dimension partners =>
    simp only [infer, Node.unplaced]
    split
    · exact (Typing.unplaced_reporting σ location _ _).symm
    · exact (Typing.unplaced_reporting _ location _ _).symm
  | operation operands gate remote consuming =>
    simp only [infer, Node.unplaced]
    split
    · exact (Typing.unplaced_reporting σ location _ _).symm
    · exact (Typing.unplaced_reporting σ location _ _).symm
  | entity name explainability oversight criticality =>
    simp only [infer, Node.unplaced]
    split
    · exact (Typing.unplaced_reporting σ location _ _).symm
    · rfl
  | modifier entity m =>
    simp only [infer, Node.unplaced, Typing.unplaced_ofEntity, Typing.unplaced_reporting]
  | governed entity action =>
    simp only [infer, Node.unplaced, Typing.unplaced_ofEntity]
    rfl
  | decision entity action =>
    simp only [infer, Node.unplaced, Typing.unplaced_ofEntity]
    rfl
  | literal name value => rfl
  | reference name =>
    simp only [infer, Node.unplaced]
    split
    · rfl
    · exact (Typing.unplaced_reporting σ location _ _).symm
  | directive d =>
    simp only [infer, Node.unplaced, directiveType_unplaced location d]
    rfl

namespace Inference

def unplaced (s : Inference) : Inference :=
  { s with findings := s.findings.map Diagnostic.unplaced }

theorem unplaced_step (views : EntityViews) (options : CheckOptions) (s : Inference) (node : Node) :
    s.unplaced.step views options node.unplaced = (s.step views options node).unplaced := by
  have typing := infer_unplaced views options s.symbols node
  simp only [step, unplaced, typing, Typing.unplaced]
  congr 1
  apply Array.toList_inj.1
  simp

end Inference

theorem inferAll_unplaced (views : EntityViews) (options : CheckOptions) (nodes : List Node) :
    inferAll views options (nodes.map Node.unplaced) = (inferAll views options nodes).unplaced :=
  foldl_map_eq (by simp [Inference.unplaced]) (Inference.unplaced_step views options) nodes

namespace Findings

def unplaced (f : Findings) : Findings :=
  { f with diagnostics := f.diagnostics.map Diagnostic.unplaced }

theorem unplaced_judge (ctx : Context) (l : Location) (f : Findings) (c : Constraint) :
    f.unplaced.judge ctx {} c = (f.judge ctx l c).unplaced := by
  have covers : f.unplaced.covers c.kind = f.covers c.kind := rfl
  have note : f.unplaced.note c.kind = f.note c.kind := rfl
  have finding : c.finding? ctx {} = (c.finding? ctx l).map Diagnostic.unplaced := by
    rw [Constraint.finding?, Constraint.finding?, Option.map_map]
    rfl
  simp only [judge, covers, note, finding]
  split
  · rfl
  · cases c.finding? ctx l with
    | none => rfl
    | some d => simp [unplaced]

theorem unplaced_judgeAll (ctx : Context) (node : Node) (type : InferredType) (phase : Phase)
    (f : Findings) :
    f.unplaced.judgeAll ctx node.unplaced type phase = (f.judgeAll ctx node type phase).unplaced :=
  List.foldl_hom unplaced (unplaced_judge ctx node.location)

end Findings

namespace Replay

def unplaced (r : Replay) : Replay := { r with findings := r.findings.unplaced }

theorem unplaced_step (views : EntityViews) (budget : Nat) (r : Replay) (node : Node)
    (type : InferredType) :
    r.unplaced.step views budget (node.unplaced, type) =
      (r.step views budget (node, type)).unplaced := by
  have facts : r.facts.apply node.unplaced = r.facts.apply node := rfl
  simp only [step]
  split
  · rfl
  · simp only [unplaced, facts, Findings.unplaced_judgeAll]

end Replay

theorem replay_unplaced (views : EntityViews) (budget : Nat) (nodes : List (Node × InferredType)) :
    replay views budget (nodes.map (Prod.map Node.unplaced id)) =
      (replay views budget nodes).unplaced := by
  have pass : (nodes.map (Prod.map Node.unplaced id)).foldl (Replay.step views budget) {} =
      (nodes.foldl (Replay.step views budget) {}).unplaced :=
    foldl_map_eq (by simp [Replay.unplaced, Findings.unplaced])
      (fun r x => r.unplaced_step views budget x.1 x.2) nodes
  simp only [replay, pass]
  exact foldl_map_eq (h := Findings.unplaced) (e := Prod.map Node.unplaced id) rfl
    (fun f x => Findings.unplaced_judgeAll _ x.1 x.2 .final f) nodes

/-- The report, with its findings unplaced. -/
def CheckReport.unplaced (r : CheckReport) : CheckReport :=
  { r with diagnostics := r.diagnostics.unplaced }

/-- **Checking commutes with forgetting places.** -/
theorem check_unplaced (nodes : List Node) (options : CheckOptions) :
    check (nodes.map Node.unplaced) options = (check nodes options).unplaced := by
  have zipped (types : List InferredType) :
      (nodes.map Node.unplaced).zip types = (nodes.zip types).map (Prod.map Node.unplaced id) := by
    rw [List.zip_map_left]
  simp only [check, foldEntities_unplaced, inferAll_unplaced, Inference.unplaced, zipped,
    replay_unplaced, Findings.unplaced, CheckReport.unplaced, Array.toList_map,
    ← Diagnostics.unplaced_pushAll, Diagnostics.unplaced_empty]

/-! ## Nodes of instructions -/

/-- Nodes of the same instructions are the same without their places. -/
theorem unplaced_ofInstructions {is js : List Instruction}
    (h : is.map Instruction.content = js.map Instruction.content) (source source' : String) :
    (Node.ofInstructions is source).map Node.unplaced =
      (Node.ofInstructions js source').map Node.unplaced := by
  -- all that is read of an instruction is read of its content
  let whole (c : Opcode × List String) : Instruction := ⟨c.1, c.2, {}⟩
  let bare (partners : Partners) (c : Opcode × List String) : Node :=
    ⟨c.1, {}, "", .ofInstruction partners (whole c)⟩
  have partners (is : List Instruction) :
      Partners.ofInstructions is =
        Partners.ofInstructions ((is.map Instruction.content).map whole) := by
    rw [List.map_map, Partners.ofInstructions, Partners.ofInstructions, List.foldl_map]
    rfl
  have nodes (is : List Instruction) (source : String) :
      (Node.ofInstructions is source).map Node.unplaced =
        (is.map Instruction.content).map (bare (Partners.ofInstructions is)) := by
    simp only [Node.ofInstructions, List.map_map]
    rfl
  rw [nodes, nodes, partners is, partners js, h]

theorem Program.lines_congr {p q : Program} (h : p.content = q.content) : p.lines = q.lines := by
  have read (p : Program) :
      p.lines = p.content.map fun c => (⟨c.1, c.2, {}⟩ : Instruction).line := by
    rw [content, lines, List.map_map]
    rfl
  rw [read, read, h]

theorem Program.digest_congr {p q : Program} (h : p.content = q.content) : p.digest = q.digest := by
  rw [digest, digest, encode, encode, lines_congr h]

/-! ## Statements from words -/

/-- The texts of the tokens that are no punctuation. -/
def Token.words (tokens : List Token) : List String :=
  (tokens.filter fun t => !t.isPunctuation).map Token.text

namespace Assembly

/-- **Two passes have made the same of their words**, up to places and warnings. -/
structure SameWork (a b : Assembly) : Prop where
  done : a.done.map Instruction.content = b.done.map Instruction.content
  pending : (a.pending.map fun s => (s.opcode, s.args)) = b.pending.map fun s => (s.opcode, s.args)
  unknown : a.unknown = b.unknown

namespace SameWork

variable {a b : Assembly}

theorem start (h : a.SameWork b) (cap : Nat) {t u : Token} (text : t.text = u.text) :
    (a.start cap t).SameWork (b.start cap u) := by
  unfold Assembly.start
  rw [text]
  cases Opcode.ofKeyword? u.text with
  | some op => exact ⟨h.done, rfl, h.unknown⟩
  | none => exact ⟨h.done, h.pending, congrArg (· + 1) h.unknown⟩

theorem argument (h : a.SameWork b) {s s' : Statement} (opcode : s.opcode = s'.opcode)
    (args : s.args = s'.args) (word : String) :
    (a.argument s word).SameWork (b.argument s' word) := by
  unfold Assembly.argument
  simp only [opcode, args]
  split
  · exact ⟨h.done, by simp only [Option.map_some], h.unknown⟩
  · refine ⟨?_, rfl, h.unknown⟩
    simp only [List.map_cons, Instruction.content, h.done]

/-- One word does the same to both. -/
theorem feed (h : a.SameWork b) (cap : Nat) {t u : Token} (text : t.text = u.text) :
    (a.feed cap t).SameWork (b.feed cap u) := by
  have pending := h.pending
  unfold Assembly.feed
  cases ha : a.pending with
  | none =>
    rw [ha, Option.map_none, eq_comm, Option.map_eq_none_iff] at pending
    rw [pending]
    exact h.start cap text
  | some s =>
    rw [ha, Option.map_some, eq_comm, Option.map_eq_some_iff] at pending
    obtain ⟨s', hb, same⟩ := pending
    obtain ⟨opcode, args⟩ := Prod.mk.inj same
    rw [hb, text]
    exact h.argument opcode.symm args.symm u.text

/-- A whole pass. -/
theorem foldl (cap : Nat) {ts us : List Token} (h : a.SameWork b)
    (texts : ts.map Token.text = us.map Token.text) :
    (ts.foldl (Assembly.feed cap) a).SameWork (us.foldl (Assembly.feed cap) b) := by
  induction ts generalizing us a b with
  | nil =>
    obtain rfl : us = [] := List.map_eq_nil_iff.1 texts.symm
    exact h
  | cons t ts ih =>
    cases us with
    | nil => exact absurd texts (by simp)
    | cons u us =>
      obtain ⟨text, texts⟩ := List.cons.inj texts
      rw [List.foldl_cons, List.foldl_cons]
      exact ih (h.feed cap text) texts

end SameWork

end Assembly

/-- **Statements are made of words.** -/
theorem content_parse {ts us : List Token} (h : Token.words ts = Token.words us) (limits : Limits) :
    (parse ts limits).instructions.map Instruction.content =
      (parse us limits).instructions.map Instruction.content := by
  have start : Assembly.SameWork { diagnostics := largeInput ts limits }
      { diagnostics := largeInput us limits } := ⟨rfl, rfl, rfl⟩
  have done := (start.foldl limits.maxUnknownKeywordWarnings h).done
  simp only [parse, parseWithin_eq (length_le_turnLimit _), Assembly.done_finish,
    List.map_reverse, done]

/-! ## Whole sources -/

namespace Compilation

/-- **Two compilations that differ in places only**: they succeed or fail together, hand on the same
bytecode, and find the same errors. -/
structure SameUpToPlaces (c d : Compilation) : Prop where
  success : c.success = d.success
  bytecode : c.bytecode = d.bytecode
  digest : c.digest = d.digest
  types : c.types = d.types
  program : c.program.content = d.program.content
  errors : c.diagnostics.errors.map Diagnostic.unplaced =
    d.diagnostics.errors.map Diagnostic.unplaced

/-- Compilations that failed agree if they have the same types and errors. -/
theorem sameUpToPlaces_of_failed {ns ns' : List Node} {types types' : List InferredType}
    {ds ds' : Diagnostics} (ht : types = types')
    (he : ds.errors.map Diagnostic.unplaced = ds'.errors.map Diagnostic.unplaced) :
    SameUpToPlaces { nodes := ns, types, diagnostics := ds }
      { nodes := ns', types := types', diagnostics := ds' } :=
  ⟨rfl, rfl, rfl, ht, rfl, he⟩

/-- **What becomes of tokens without errors is decided by the check.** -/
theorem ofTokens_of_clean {stream : Token.Stream} (clean : stream.diagnostics.hasErrors = false)
    (source : String) (limits : Limits) {is : List Instruction} {report : CheckReport}
    (his : (parse stream.tokens limits).instructions = is)
    (hr : check (Node.ofInstructions is source) limits.toCheckOptions = report) :
    ∃ diagnostics : Diagnostics, diagnostics.errors = report.diagnostics.errors ∧
      ofTokens stream source limits =
        if report.isOk then
          { success := true, program := ⟨is⟩, nodes := Node.ofInstructions is source,
            types := report.types, diagnostics, digest := some (Program.digest ⟨is⟩) }
        else { nodes := Node.ofInstructions is source, types := report.types, diagnostics } := by
  subst his hr
  generalize hr : check _ _ = report
  have none : stream.diagnostics.errors = #[] := by simpa [Diagnostics.hasErrors] using clean
  have fatal : stream.diagnostics.hasFatal = false := by simp [Diagnostics.hasFatal, none]
  have errors : ((stream.diagnostics.extend (parse stream.tokens limits).diagnostics).extend
      report.diagnostics).errors = report.diagnostics.errors := by
    simp [Diagnostics.extend, none, errors_parse]
  have found : ((stream.diagnostics.extend (parse stream.tokens limits).diagnostics).extend
      report.diagnostics).hasErrors = !report.isOk := by
    rw [Diagnostics.hasErrors, errors, CheckReport.isOk, Diagnostics.hasErrors, Bool.not_not]
  refine ⟨_, errors, ?_⟩
  simp only [ofTokens_eq, fatal, Bool.false_eq_true, if_false, hr, found]
  cases report.isOk <;> rfl

end Compilation

/-- **Layout does not matter.** Two sources whose tokens carry no errors, so that neither is above
the size limit, and that have the same words, whatever stands between these, compile alike: to the
same bytecode, digest and types if they compile, and else with the same errors, up to places. -/
theorem layout_invariance (limits : Limits) {source other : String}
    (clean : (Token.tokenize source limits).diagnostics.hasErrors = false)
    (clean' : (Token.tokenize other limits).diagnostics.hasErrors = false)
    (same : Token.words (Token.tokenize source limits).tokens =
      Token.words (Token.tokenize other limits).tokens) :
    (compile source limits).SameUpToPlaces (compile other limits) := by
  have content := content_parse same limits
  have nodes := unplaced_ofInstructions content source other
  have reports := congrArg (check · limits.toCheckOptions) nodes
  simp only [check_unplaced] at reports
  obtain ⟨ds, errors, hc⟩ := Compilation.ofTokens_of_clean clean source limits rfl rfl
  obtain ⟨ds', errors', hc'⟩ := Compilation.ofTokens_of_clean clean' other limits rfl rfl
  generalize check (Node.ofInstructions _ source) _ = report at reports errors hc
  generalize check (Node.ofInstructions _ other) _ = report' at reports errors' hc'
  -- nothing more is asked of the nodes
  generalize Node.ofInstructions _ source = ns at hc
  generalize Node.ofInstructions _ other = ns' at hc'
  obtain ⟨types, found⟩ : report.types = report'.types ∧
      report.diagnostics.unplaced = report'.diagnostics.unplaced := CheckReport.mk.inj reports
  have ok : report.isOk = report'.isOk := by
    rw [CheckReport.isOk, CheckReport.isOk, ← Diagnostics.hasErrors_unplaced, found,
      Diagnostics.hasErrors_unplaced]
  have errors : ds.errors.map Diagnostic.unplaced = ds'.errors.map Diagnostic.unplaced := by
    rw [errors, errors']
    exact congrArg Diagnostics.errors found
  rw [compile, compile, hc, hc', ok]
  cases report'.isOk with
  | true =>
    rw [if_pos rfl, if_pos rfl]
    exact ⟨rfl, Program.lines_congr content, congrArg some (Program.digest_congr content),
      types, content, errors⟩
  | false =>
    rw [if_neg Bool.false_ne_true, if_neg Bool.false_ne_true]
    exact Compilation.sameUpToPlaces_of_failed types errors

/-- A qudit that is measured twice, one statement a line. -/
def tidy : String := "qudit a 2\nmeasure a\nmeasure a\n"

/-- The same words with marks, comments and line breaks between them. -/
def untidy : String := "qudit(a,\r\n  2); # fresh\n\tmeasure a; measure // again\n[a]"

/-- The second measurement is found in both, at different places. -/
theorem layout_invariance_untidy :
    (Token.tokenize tidy {}).diagnostics.hasErrors = false ∧
      (Token.tokenize untidy {}).diagnostics.hasErrors = false ∧
      Token.words (Token.tokenize tidy {}).tokens = Token.words (Token.tokenize untidy {}).tokens ∧
      (compile tidy {}).SameUpToPlaces (compile untidy {}) ∧
      (compile tidy {}).diagnostics.errors.map (·.location) = #[⟨3, 1⟩] ∧
      (compile untidy {}).diagnostics.errors.map (·.location) = #[⟨3, 13⟩] := by
  have clean : (Token.tokenize tidy {}).diagnostics.hasErrors = false := by decide +kernel
  have clean' : (Token.tokenize untidy {}).diagnostics.hasErrors = false := by decide +kernel
  have same : Token.words (Token.tokenize tidy {}).tokens =
      Token.words (Token.tokenize untidy {}).tokens := by
    decide +kernel
  exact ⟨clean, clean', same,
    layout_invariance {} clean clean' same, by decide +kernel, by decide +kernel⟩

end GovernedQuantum
