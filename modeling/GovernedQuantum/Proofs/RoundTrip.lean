import GovernedQuantum.Proofs.Conservation
import GovernedQuantum.Proofs.Statements

/-!
# Compiled programs are read back

Writing a program adds no quotes, and reading one splits lines by rules of its own. That the two
agree on compiled programs is due to the tokens: a word has neither blanks nor quotes, and a string
has its quotes at both ends, no others, and stays on its line. Statements take their arguments from
tokens as they are, so every argument is one field.

* `Token.Form.isField`: what has the form of a token is one field.
* `args_of_mem_parse`: arguments are tokens, as many as the operation takes.
* `isWritable_of_mem_parse`: **what is parsed from tokens can be written.**
* `decode_encode_ofSource`: **the bytecode of every parsed source is read back**, instruction by
  instruction, and written again it is the same text.
-/

namespace GovernedQuantum

/-! ## Tokens -/

/-- What has the form of a token and stays on its line is one field. -/
theorem Token.Form.isField {cs : List Char} (h : Form cs) (noFeed : '\n' ∉ cs) :
    Text.IsField cs := by
  cases h with
  | mark mark =>
    refine Text.isField_of_plain (List.cons_ne_nil _ []) fun c hc => ?_
    rw [List.mem_singleton.1 hc]
    exact ⟨ne_quote_of_mem_punctuation mark, isBlank_of_mem_punctuation mark⟩
  | string closed =>
    refine Text.isField_of_quoted fun c hc => ⟨?_, ?_⟩
    · rintro rfl
      exact closed hc
    · rintro rfl
      exact noFeed (List.mem_cons_of_mem _ (List.mem_append_left _ hc))
  | word word =>
    obtain ⟨ne, plain, -⟩ := word
    exact Text.isField_of_plain ne fun c hc => ⟨(plain c hc).1.1, (plain c hc).1.2.1⟩

/-! ## Statements -/

namespace Assembly

/-- **What a pass over words has made of them**: finished statements have all of their arguments,
the pending one lacks some, and every argument is a word with the property `P`. -/
structure Made (P : String → Prop) (a : Assembly) : Prop where
  done : ∀ i ∈ a.done, i.args.length = i.opcode.arity ∧ ∀ word ∈ i.args, P word
  pending : ∀ s ∈ a.pending, s.args.length < s.opcode.arity ∧ ∀ word ∈ s.args, P word

variable {P : String → Prop} {a : Assembly}

theorem Made.start (h : a.Made P) (idle : a.pending = none) (cap : Nat) (t : Token) :
    (a.start cap t).Made P := by
  unfold Assembly.start
  split
  · rename_i op _
    refine ⟨h.done, fun s hs => ?_⟩
    obtain rfl := Option.some.inj hs
    exact ⟨op.arity_pos, fun word hw => absurd hw List.not_mem_nil⟩
  · exact ⟨h.done, fun s hs => absurd (idle.symm.trans hs) (by simp)⟩

theorem Made.argument (h : a.Made P) {s : Statement} (waits : a.pending = some s) {word : String}
    (hw : P word) : (a.argument s word).Made P := by
  obtain ⟨short, args⟩ := h.pending s waits
  have args' : ∀ w ∈ word :: s.args, P w := List.forall_mem_cons.2 ⟨hw, args⟩
  unfold Assembly.argument
  dsimp only
  split
  · rename_i more
    refine ⟨h.done, fun s' hs => ?_⟩
    obtain rfl := Option.some.inj hs
    exact ⟨more, args'⟩
  · rename_i full
    rw [List.length_cons] at full
    refine ⟨List.forall_mem_cons.2 ⟨⟨?_, ?_⟩, h.done⟩, fun s' hs => absurd hs (by simp)⟩
    · rw [List.length_reverse, List.length_cons]
      dsimp only
      omega
    · exact fun w hm => args' w (List.mem_reverse.1 hm)

/-- A whole pass. -/
theorem Made.foldl (cap : Nat) {words : List Token} (hw : ∀ t ∈ words, P t.text) (h : a.Made P) :
    (words.foldl (feed cap) a).Made P := by
  induction words generalizing a with
  | nil => exact h
  | cons t rest ih =>
    obtain ⟨first, others⟩ := List.forall_mem_cons.1 hw
    refine ih others ?_
    unfold feed
    split
    · rename_i idle
      exact h.start idle cap t
    · rename_i s waits
      exact h.argument waits first

/-- What is said at the end of a pass leaves its statements alone. -/
theorem done_finish (a : Assembly) (cap : Nat) (last : Location) :
    (a.closeStatement.summarize cap last).done = a.done := by
  unfold summarize closeStatement
  split <;> split <;> rfl

end Assembly

/-- The arguments of parsed instructions are tokens, as many as the operation takes. -/
theorem args_of_mem_parse {tokens : List Token} {limits : Limits} {i : Instruction}
    (h : i ∈ (parse tokens limits).instructions) :
    i.args.length = i.opcode.arity ∧ ∀ a ∈ i.args, ∃ t ∈ tokens, t.text = a := by
  have made : Assembly.Made (fun a => ∃ t ∈ tokens, t.text = a)
      ((tokens.filter fun t => !t.isPunctuation).foldl
        (Assembly.feed limits.maxUnknownKeywordWarnings)
        { diagnostics := largeInput tokens limits }) := by
    refine .foldl _ (fun t ht => ⟨t, (List.mem_filter.1 ht).1, rfl⟩) ⟨?_, ?_⟩
    · exact fun i hi => absurd hi List.not_mem_nil
    · exact fun s hs => absurd hs (by simp)
  refine made.done i ?_
  rw [parse, parseWithin_eq (length_le_turnLimit tokens), List.mem_reverse,
    Assembly.done_finish] at h
  exact h

/-- **What is parsed from the tokens of a source can be written.** -/
theorem isWritable_of_mem_parse {source : String} {limits : Limits} {i : Instruction}
    (h : i ∈ (parse (Token.tokenize source limits).tokens limits).instructions) : i.IsWritable := by
  obtain ⟨arity, args⟩ := args_of_mem_parse h
  refine ⟨arity, fun a ha => ?_⟩
  obtain ⟨t, ht, rfl⟩ := args a ha
  obtain ⟨form, noFeed⟩ := Token.form_of_mem_tokenize ht
  exact form.isField noFeed

/-! ## The round trip -/

/-- A compilation that succeeds hands on what it parsed. -/
theorem Compilation.program_of_success {stream : Token.Stream} {source : String} {limits : Limits}
    (h : (ofTokens stream source limits).success = true) :
    (ofTokens stream source limits).program = ⟨(parse stream.tokens limits).instructions⟩ := by
  rw [ofTokens_eq] at h ⊢
  split at h
  · exact absurd h (by simp)
  · rename_i fatal
    rw [if_neg fatal]
    dsimp only at h ⊢
    split at h
    · exact absurd h (by simp)
    · rename_i errors
      rw [if_neg errors]

/-- The program of the instructions that a source is parsed to. -/
def Program.ofSource (source : String) (limits : Limits) : Program :=
  ⟨(parse (Token.tokenize source limits).tokens limits).instructions⟩

/-- **Compiled bytecode is read back.** Whatever the source and the limits, the program of its
parsed instructions, which is what a successful compilation hands on, is written as a text that
decodes to the same operations with the same arguments, one a line, and that is written again as it
was. -/
theorem decode_encode_ofSource (source : String) (limits : Limits) :
    ((compile source limits).success = true →
      (compile source limits).program = Program.ofSource source limits) ∧
    ∃ q : Program, Program.decode (Program.ofSource source limits).encode = .ok q ∧
      q.length = (Program.ofSource source limits).length ∧
      q.instructions.map (·.opcode) = (Program.ofSource source limits).instructions.map (·.opcode) ∧
      q.instructions.map (·.args) = (Program.ofSource source limits).instructions.map (·.args) ∧
      (∀ (k : Nat) (i : Instruction), q.instructions[k]? = some i → i.location = ⟨k + 1, 1⟩) ∧
      q.encode = (Program.ofSource source limits).encode ∧
      q.digest = (Program.ofSource source limits).digest := by
  refine ⟨Compilation.program_of_success, ?_⟩
  have written : ∀ i ∈ (Program.ofSource source limits).instructions, i.IsWritable :=
    fun i hi => isWritable_of_mem_parse hi
  generalize Program.ofSource source limits = p at written
  refine ⟨p.numbered, Program.decode_encode written, List.length_mapIdx, ?_, ?_, fun k i hi => ?_,
    p.encode_numbered, ?_⟩
  · exact List.ext_getElem? fun k => by
      simp [Program.numbered, Function.comp_def, Instruction.atLine]
  · exact List.ext_getElem? fun k => by
      simp [Program.numbered, Function.comp_def, Instruction.atLine]
  · simp only [Program.numbered, List.getElem?_mapIdx] at hi
    obtain ⟨j, -, rfl⟩ := Option.map_eq_some_iff.1 hi
    rfl
  · rw [Program.digest, p.encode_numbered, Program.digest]

end GovernedQuantum
