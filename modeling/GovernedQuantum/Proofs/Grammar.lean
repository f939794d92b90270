import GovernedQuantum.Proofs.ExactCodec

/-!
# The grammar of bytecode

A line of bytecode is blank, or fields with blanks between them, the first of which is a mnemonic
and is followed by as many as its operation takes. A text is read if and only if all its lines are
such, and the first line that is not is the one reported, for the first of three flaws that it has.

* `fields?_eq_some_iff`: **a reader finds the fields of a line**, and `fields?_eq_none_iff`: it
  finds none where the number of quotes is odd.
* `Program.Grammatical`, `Program.Flaw`: the lines of the grammar, and what is wrong with the
  others. `Program.grammatical_or_flaw`: every line is the one or has the other.
* `Program.decodeFrom_of_grammatical`, `Program.decodeFrom_of_flaw`: **what a run over lines comes
  to**.
* `Program.decode_grammar`: **exactly the grammar is read**, the first bad line is reported whatever
  follows it, and what is read is stable under writing and reading again.
-/

namespace GovernedQuantum

/-! ## The fields of a line -/

namespace Text

/-- Blank lines are those without fields. -/
theorem spaced_nil_iff {cs : List Char} : Spaced cs [] ↔ ∀ c ∈ cs, isBlank c = true := by
  constructor
  · intro h
    generalize empty : ([] : List String) = fields at h
    induction h with
    | finish => exact List.forall_mem_nil _
    | blank hb _ ih => exact List.forall_mem_cons.2 ⟨hb, ih empty⟩
    | field => exact absurd empty (by simp)
  · intro h
    induction cs with
    | nil => exact .finish
    | cons c cs ih =>
      obtain ⟨hb, others⟩ := List.forall_mem_cons.1 h
      exact .blank hb (ih others)

end Text

open Text (Spaced)

/-- A blank finishes a field outside quotes. -/
theorem fieldsFrom_blank {c : Char} (hb : Text.isBlank c = true) (field : List Char)
    (fields : List String) (rest : List Char) :
    fieldsFrom false field fields (c :: rest) =
      fieldsFrom false [] (closeField field fields) rest := by
  have hq : c ≠ '"' := by
    rintro rfl
    exact absurd hb (by decide)
  rw [fieldsFrom, if_neg hq, hb]
  rfl

/-- The end of the line finishes it as well. -/
theorem fieldsFrom_closeField {rest : List Char} (blank : ∀ c ∈ rest.head?, Text.isBlank c = true)
    (field : List Char) (fields : List String) :
    fieldsFrom false field fields rest = fieldsFrom false [] (closeField field fields) rest := by
  cases rest with
  | nil => rfl
  | cons c rest =>
    rw [fieldsFrom_blank (blank c rfl), fieldsFrom_blank (blank c rfl)]
    rfl

/-- **The fields of a line are found.** -/
theorem Text.Spaced.fieldsFrom {cs : List Char} {fields : List String} (h : Spaced cs fields)
    (done : List String) : fieldsFrom false [] done cs = some (done.reverse ++ fields) := by
  induction h generalizing done with
  | finish => rw [List.append_nil]; rfl
  | blank hb _ ih =>
    rw [fieldsFrom_blank hb]
    exact ih done
  | field whole blank _ ih =>
    obtain ⟨ne, whole⟩ := Text.isField_iff_sealed.2 whole
    rw [fieldsFrom_append whole, List.append_nil, fieldsFrom_closeField blank,
      closeField_reverse ne, ih, List.reverse_cons, List.append_assoc, List.singleton_append]

theorem Text.Spaced.fields? {cs : List Char} {fields : List String} (h : Spaced cs fields) :
    fields? cs = some fields := h.fieldsFrom []

/-- **Fields are found outside quotes only**; one quote more counts where the line starts between
quotes. -/
theorem fieldsFrom_eq_none_iff {quoted : Bool} {field : List Char} {done : List String}
    {cs : List Char} :
    fieldsFrom quoted field done cs = none ↔ Odd (cs.count '"' + quoted.toNat) := by
  induction cs generalizing quoted field done with
  | nil => cases quoted <;> simp [fieldsFrom]
  | cons c cs ih =>
    rw [fieldsFrom]
    split
    · rename_i hq
      subst hq
      rw [ih, List.count_cons_self]
      cases quoted with
      | false => exact Iff.rfl
      | true => simp [Nat.odd_add_one, Nat.not_odd_iff_even]
    · rename_i hq
      rw [List.count_cons_of_ne hq]
      split
      · rename_i ends
        obtain rfl : quoted = false := by simpa using (Bool.and_eq_true_iff.1 ends).2
        exact ih
      · exact ih

section Line

variable {line : List Char}

theorem fields?_eq_some_iff (noFeed : '\n' ∉ line) {fields : List String} :
    fields? line = some fields ↔ Spaced line fields := by
  constructor
  · intro h
    obtain ⟨found, rfl, spaced⟩ := spaced_of_fieldsFrom noFeed Text.opens_nil h
    exact spaced
  · exact Spaced.fields?

theorem fields?_eq_none_iff : fields? line = none ↔ Odd (line.count '"') := fieldsFrom_eq_none_iff

end Line

/-! ## The lines of the grammar -/

/-- **The instruction stands on line number `n`**, which has its mnemonic and its arguments for
fields. -/
structure Instruction.StandsOn (i : Instruction) (n : Nat) (line : List Char) : Prop where
  spaced : Spaced line (i.opcode.mnemonic :: i.args)
  arity : i.args.length = i.opcode.arity
  place : i.location = ⟨n, 1⟩

namespace Program

/-- **A line of the grammar**: only blanks, or a mnemonic followed by as many fields as its
operation takes. -/
def Grammatical (line : List Char) : Prop :=
  (∀ c ∈ line, Text.isBlank c = true) ∨
    ∃ (op : Opcode) (args : List String), Spaced line (op.mnemonic :: args) ∧ args.length = op.arity

/-- **What is wrong with line number `n`.** An open quote comes first: a line with one has no
fields. The number of arguments comes last: it is wrong for an operation only. -/
inductive Flaw (n : Nat) (line : List Char) : DecodeError → Prop
  | unterminatedQuote : Odd (line.count '"') → Flaw n line (.unterminatedQuote n)
  | unknownOpcode {word : String} {args : List String} :
      Spaced line (word :: args) → (∀ op : Opcode, op.mnemonic ≠ word) →
      Flaw n line (.unknownOpcode n word)
  | wrongArity {op : Opcode} {args : List String} :
      Spaced line (op.mnemonic :: args) → args.length ≠ op.arity →
      Flaw n line (.wrongArity n op args.length)

end Program

/-! ## What is read from one line -/

section

variable {n : Nat} {line : List Char}

theorem Program.decodeLine_of_blank (h : ∀ c ∈ line, Text.isBlank c = true) :
    decodeLine n line = .ok none := by
  rw [decodeLine, (Text.spaced_nil_iff.2 h).fields?]

theorem Instruction.StandsOn.decodeLine {i : Instruction} (h : i.StandsOn n line) :
    Program.decodeLine n line = .ok (some i) := by
  obtain ⟨op, args, location⟩ := i
  obtain ⟨spaced, arity, rfl⟩ := h
  rw [Program.decodeLine, spaced.fields?]
  dsimp only
  rw [Opcode.ofMnemonic?_mnemonic]
  exact if_pos arity

/-- A line with an instruction is not blank. -/
theorem Instruction.StandsOn.exists_ink {i : Instruction} (h : i.StandsOn n line) :
    ¬ ∀ c ∈ line, Text.isBlank c = true := by
  intro blank
  have both := h.decodeLine
  rw [Program.decodeLine_of_blank blank] at both
  exact absurd both (by simp)

namespace Program

theorem Flaw.decodeLine {e : DecodeError} (h : Flaw n line e) : decodeLine n line = .error e := by
  cases h with
  | unterminatedQuote odd => rw [Program.decodeLine, fields?_eq_none_iff.2 odd]
  | @unknownOpcode word args spaced other =>
    have unknown : Opcode.ofMnemonic? word = none := by
      cases known : Opcode.ofMnemonic? word with
      | none => rfl
      | some op => exact absurd (Opcode.mnemonic_of_ofMnemonic? known) (other op)
    rw [Program.decodeLine, spaced.fields?]
    dsimp only
    rw [unknown]
  | @wrongArity op args spaced arity =>
    rw [Program.decodeLine, spaced.fields?]
    dsimp only
    rw [Opcode.ofMnemonic?_mnemonic]
    exact if_neg arity

theorem Flaw.line_eq {e : DecodeError} (h : Flaw n line e) : e.line = n := by
  cases h <;> rfl

/-- A line of the grammar is blank or has an instruction, wherever it stands. -/
theorem Grammatical.blank_or_standsOn (h : Grammatical line) (n : Nat) :
    (∀ c ∈ line, Text.isBlank c = true) ∨ ∃ i : Instruction, i.StandsOn n line :=
  h.imp_right fun ⟨op, args, spaced, arity⟩ => ⟨⟨op, args, ⟨n, 1⟩⟩, spaced, arity, rfl⟩

theorem Flaw.not_grammatical {e : DecodeError} (h : Flaw n line e) : ¬ Grammatical line := by
  intro good
  have failed := h.decodeLine
  rcases good.blank_or_standsOn n with blank | ⟨i, stands⟩
  · rw [decodeLine_of_blank blank] at failed
    exact absurd failed (by simp)
  · rw [stands.decodeLine] at failed
    exact absurd failed (by simp)

/-- **Every line is of the grammar or has a flaw.** -/
theorem grammatical_or_flaw (noFeed : '\n' ∉ line) (n : Nat) :
    Grammatical line ∨ ∃ e, Flaw n line e := by
  cases found : fields? line with
  | none => exact .inr ⟨_, .unterminatedQuote (fields?_eq_none_iff.1 found)⟩
  | some fields =>
    have spaced := (fields?_eq_some_iff noFeed).1 found
    cases fields with
    | nil => exact .inl (.inl (Text.spaced_nil_iff.1 spaced))
    | cons word args =>
      by_cases known : ∃ op : Opcode, op.mnemonic = word
      · obtain ⟨op, rfl⟩ := known
        by_cases arity : args.length = op.arity
        · exact .inl (.inr ⟨op, args, spaced, arity⟩)
        · exact .inr ⟨_, .wrongArity spaced arity⟩
      · exact .inr ⟨_, .unknownOpcode spaced (not_exists.1 known)⟩

end Program

end

/-! ## What is read from a text -/

namespace Program

/-- The lines that are not blank, with their numbers from `n` on. -/
def inkedLines (n : Nat) (ls : List (List Char)) : List (List Char × Nat) :=
  (ls.zipIdx n).filter fun x => !x.1.all Text.isBlank

variable {n : Nat} {line : List Char}

theorem inkedLines_of_blank (h : ∀ c ∈ line, Text.isBlank c = true) (ls : List (List Char)) :
    inkedLines n (line :: ls) = inkedLines (n + 1) ls := by
  rw [inkedLines, List.zipIdx_cons, List.filter_cons_of_neg (by simpa using h)]
  rfl

theorem inkedLines_of_ink (h : ¬ ∀ c ∈ line, Text.isBlank c = true) (ls : List (List Char)) :
    inkedLines n (line :: ls) = (line, n) :: inkedLines (n + 1) ls := by
  rw [inkedLines, List.zipIdx_cons, List.filter_cons_of_pos (by simpa using h)]
  rfl

/-- **Lines of the grammar are read**, an instruction from each that is not blank. -/
theorem decodeFrom_of_grammatical {ls : List (List Char)}
    (h : ∀ line ∈ ls, Grammatical line) (n : Nat) (done : List Instruction) :
    ∃ is, List.Forall₂ (fun x i => i.StandsOn x.2 x.1) (inkedLines n ls) is ∧
      decodeFrom n done ls = .ok ⟨done.reverse ++ is⟩ := by
  induction ls generalizing n done with
  | nil => exact ⟨[], .nil, by rw [List.append_nil]; rfl⟩
  | cons line ls ih =>
    obtain ⟨first, others⟩ := List.forall_mem_cons.1 h
    rcases first.blank_or_standsOn n with blank | ⟨i, stands⟩
    · obtain ⟨is, stand, run⟩ := ih others (n + 1) done
      rw [inkedLines_of_blank blank, decodeFrom, decodeLine_of_blank blank]
      exact ⟨is, stand, run⟩
    · obtain ⟨is, stand, run⟩ := ih others (n + 1) (i :: done)
      rw [inkedLines_of_ink stands.exists_ink, decodeFrom, stands.decodeLine]
      refine ⟨i :: is, .cons stands stand, ?_⟩
      rwa [List.reverse_cons, List.append_assoc, List.singleton_append] at run

/-- **The first flaw is reported**, whatever stands behind it. -/
theorem decodeFrom_of_flaw {before : List (List Char)} (good : ∀ l ∈ before, Grammatical l)
    {e : DecodeError} (flaw : Flaw (n + before.length) line e) (done : List Instruction)
    (after : List (List Char)) : decodeFrom n done (before ++ line :: after) = .error e := by
  -- on the lines before the bad one, each of which is passed over or taken in
  induction before generalizing n done with
  | nil =>
    rw [List.length_nil, Nat.add_zero] at flaw
    rw [List.nil_append, decodeFrom, flaw.decodeLine]
  | cons l before ih =>
    obtain ⟨first, others⟩ := List.forall_mem_cons.1 good
    rw [List.length_cons, Nat.add_comm before.length, ← Nat.add_assoc] at flaw
    rw [List.cons_append, decodeFrom]
    rcases first.blank_or_standsOn n with blank | ⟨i, stands⟩
    · rw [decodeLine_of_blank blank]
      exact ih others flaw done
    · rw [stands.decodeLine]
      exact ih others flaw (i :: done)

/-- Lines are of the grammar, or one of them is the first that is not. -/
theorem forall_grammatical_or_first {ls : List (List Char)}
    (noFeed : ∀ l ∈ ls, '\n' ∉ l) (n : Nat) :
    (∀ l ∈ ls, Grammatical l) ∨ ∃ before line after e,
      ls = before ++ line :: after ∧ (∀ l ∈ before, Grammatical l) ∧
      Flaw (n + before.length) line e := by
  induction ls generalizing n with
  | nil => exact .inl (List.forall_mem_nil _)
  | cons l ls ih =>
    obtain ⟨feed, feeds⟩ := List.forall_mem_cons.1 noFeed
    rcases grammatical_or_flaw feed n with good | ⟨e, flaw⟩
    · refine (ih feeds (n + 1)).imp (fun others => List.forall_mem_cons.2 ⟨good, others⟩) ?_
      rintro ⟨before, line, after, e, rfl, goods, flaw⟩
      rw [Nat.add_assoc, Nat.add_comm 1] at flaw
      exact ⟨l :: before, line, after, e, rfl, List.forall_mem_cons.2 ⟨good, goods⟩, flaw⟩
    · exact .inr ⟨[], l, ls, e, rfl, List.forall_mem_nil _, flaw⟩

theorem decode_of_flaw {text : String} {before after : List (List Char)} {e : DecodeError}
    (split : Text.lines text.toList = before ++ line :: after) (good : ∀ l ∈ before, Grammatical l)
    (flaw : Flaw (before.length + 1) line e) : decode text = .error e := by
  rw [Nat.add_comm] at flaw
  rw [decode, split, decodeFrom_of_flaw good flaw]

/-- **A text is read if its lines are of the grammar, and else the first that is not is
reported.** -/
theorem decode_cases (text : String) :
    ((∀ line ∈ Text.lines text.toList, Grammatical line) ∧ ∃ p, decode text = .ok p ∧
        List.Forall₂ (fun x i => i.StandsOn x.2 x.1) (inkedLines 1 (Text.lines text.toList))
          p.instructions) ∨
      ∃ before line after e, Text.lines text.toList = before ++ line :: after ∧
      (∀ l ∈ before, Grammatical l) ∧
        Flaw (before.length + 1) line e ∧ decode text = .error e := by
  have noFeed : ∀ l ∈ Text.lines text.toList, '\n' ∉ l :=
    fun _ hl => Text.newline_not_mem_of_mem_lines hl
  rcases forall_grammatical_or_first noFeed 1 with good |
      ⟨before, line, after, e, split, good, flaw⟩
  · obtain ⟨is, stand, run⟩ := decodeFrom_of_grammatical good 1 []
    exact .inl ⟨good, ⟨is⟩, run, stand⟩
  · rw [Nat.add_comm] at flaw
    exact .inr ⟨before, line, after, e, split, good, flaw, decode_of_flaw split good flaw⟩

section

variable {text : String}

theorem exists_decode_iff :
    (∃ p, decode text = .ok p) ↔ ∀ line ∈ Text.lines text.toList, Grammatical line := by
  rcases decode_cases text with ⟨good, p, read, -⟩ | ⟨_, line, _, e, split, -, flaw, failed⟩
  · exact ⟨fun _ => good, fun _ => ⟨p, read⟩⟩
  · constructor
    · rintro ⟨p, read⟩
      exact absurd (read.symm.trans failed) (by simp)
    · intro good
      exact absurd (good line (by simp [split])) flaw.not_grammatical

theorem decode_eq_error_iff {e : DecodeError} :
    decode text = .error e ↔ ∃ before line after,
      Text.lines text.toList = before ++ line :: after ∧ (∀ l ∈ before, Grammatical l) ∧
      ¬ Grammatical line ∧
        Flaw (before.length + 1) line e := by
  constructor
  · intro failed
    rcases decode_cases text with ⟨-, p, read, -⟩ |
        ⟨before, line, after, e', split, good, flaw, reported⟩
    · exact absurd (read.symm.trans failed) (by simp)
    · obtain rfl := Except.error.inj (reported.symm.trans failed)
      exact ⟨before, line, after, split, good, flaw.not_grammatical, flaw⟩
  · rintro ⟨before, line, after, split, good, -, flaw⟩
    exact decode_of_flaw split good flaw

/-- What is reported is seen from the lines up to the bad one. -/
theorem decode_eq_error_of_take {e : DecodeError} (failed : decode text = .error e) {other : String}
    (agree : (Text.lines other.toList).take e.line = (Text.lines text.toList).take e.line) :
    decode other = .error e := by
  obtain ⟨before, line, after, split, good, -, flaw⟩ := decode_eq_error_iff.1 failed
  -- the number in the report says how many lines the two texts share: those before the bad one, and
  -- this one
  have upTo : (before ++ line :: after).take (before.length + 1) = before ++ [line] := by
    rw [← List.singleton_append, ← List.append_assoc]
    exact List.take_left' (by simp)
  rw [flaw.line_eq, split, upTo] at agree
  have split' := List.take_append_drop (before.length + 1) (Text.lines other.toList)
  rw [agree, List.append_assoc, List.singleton_append] at split'
  exact decode_of_flaw split'.symm good flaw

variable {p : Program}

theorem standsOn_of_decode (read : decode text = .ok p) :
    List.Forall₂ (fun x i => i.StandsOn x.2 x.1) (inkedLines 1 (Text.lines text.toList))
      p.instructions := by
  rcases decode_cases text with ⟨-, q, again, stand⟩ | ⟨_, _, _, e, -, -, -, failed⟩
  · obtain rfl := Except.ok.inj (read.symm.trans again)
    exact stand
  · exact absurd (read.symm.trans failed) (by simp)

/-- What is read from a text is read again from what is written of it, and written the same. -/
theorem decode_encode_of_decode (read : decode text = .ok p) :
    ∃ q, decode p.encode = .ok q ∧ q.content = p.content ∧ q.encode = p.encode :=
  ⟨p.numbered, decode_encode (isWritable_of_decode read), p.content_numbered, p.encode_numbered⟩

end

/-- **Exactly the grammar is read.** A text is read if and only if all its lines are of the grammar.
It is refused for the first line that is not, with the first flaw of this line, whatever the lines
behind it are. The instructions stand on the lines that are not blank, in order; and written and
read again they are the same operations with the same arguments, and written the same. -/
theorem decode_grammar (text : String) :
    ((∃ p, decode text = .ok p) ↔ ∀ line ∈ Text.lines text.toList, Grammatical line) ∧
      (∀ e, decode text = .error e ↔ ∃ before line after,
        Text.lines text.toList = before ++ line :: after ∧ (∀ l ∈ before, Grammatical l) ∧
        ¬ Grammatical line ∧
          Flaw (before.length + 1) line e) ∧
      (∀ e other, decode text = .error e →
        (Text.lines other.toList).take e.line = (Text.lines text.toList).take e.line →
          decode other = .error e) ∧
      ∀ p, decode text = .ok p →
        List.Forall₂ (fun x i => i.StandsOn x.2 x.1) (inkedLines 1 (Text.lines text.toList))
          p.instructions ∧
          ∃ q, decode p.encode = .ok q ∧ q.content = p.content ∧ q.encode = p.encode :=
  ⟨exists_decode_iff, fun _ => decode_eq_error_iff,
    fun _ _ failed agree => decode_eq_error_of_take failed agree,
    fun _ read => ⟨standsOn_of_decode read, decode_encode_of_decode read⟩⟩

/-- Blanks of several kinds, a quote in the middle of a field, and lines ended in two ways. -/
def airy : String := "\u00a0\t\r\n  APPROVE\u2003x\"\t \"y \r\n\nVERIFY z"

/-- Three bad lines: an open quote behind an unknown mnemonic, the latter alone, and an argument too
few. -/
def faulty : String := "VERIFY z\n \nNOPE \"x\nNOPE x\nAPPROVE"

/-- The first bad line is reported for its quote, also when other lines follow. -/
theorem decode_grammar_faulty :
    decode airy = .ok ⟨[⟨.approve, ["x\"\t \"y"], ⟨2, 1⟩⟩, ⟨.verify, ["z"], ⟨4, 1⟩⟩]⟩ ∧
      (∀ line ∈ Text.lines airy.toList, Grammatical line) ∧
      decode faulty = .error (.unterminatedQuote 3) ∧
      decode "VERIFY z\n \nNOPE \"x\n\"" = .error (.unterminatedQuote 3) := by
  have read :
      decode airy = .ok ⟨[⟨.approve, ["x\"\t \"y"], ⟨2, 1⟩⟩, ⟨.verify, ["z"], ⟨4, 1⟩⟩]⟩ := by
    decide +kernel
  have failed : decode faulty = .error (.unterminatedQuote 3) := by decide +kernel
  exact ⟨read, (decode_grammar airy).1.1 ⟨_, read⟩, failed,
    (decode_grammar faulty).2.2.1 _ _ failed (by decide +kernel)⟩

end Program

end GovernedQuantum
