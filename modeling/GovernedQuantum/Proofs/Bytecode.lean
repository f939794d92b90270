import GovernedQuantum.Program

/-!
# Bytecode that is read back

A program is written without any quoting of its own: arguments stand in the text as they are. What
the text means therefore hangs on the arguments. One that has quotes around its blanks and closes
them, and does not end a line, comes back as one field; all else may fall apart.

* `Text.holds`: a text stays in one piece, read from inside or outside quotes.
* `Instruction.IsWritable`: the arguments are as many as the operation takes, and each is one piece.
* `Program.decode_encode`: **a program of writable instructions is read back** with its instructions
  at the lines they were written on.
-/

namespace GovernedQuantum

/-! ## Pieces of a line -/

namespace Text

/-- The text stays in one piece: outside quotes it has no blanks, it closes its quotes, and it does
not end the line. `quoted` says where it starts. -/
def holds (quoted : Bool) : List Char → Bool
  | [] => !quoted
  | c :: rest =>
    if c = '"' then holds (!quoted) rest
    else (quoted || !isBlank c) && c != '\n' && holds quoted rest

/-- A text that is one field of a line. -/
def IsField (cs : List Char) : Prop := cs ≠ [] ∧ holds false cs = true

instance (cs : List Char) : Decidable (IsField cs) := inferInstanceAs (Decidable (_ ∧ _))

theorem holds_cons_of_ne {c : Char} (h : c ≠ '"') (quoted : Bool) (rest : List Char) :
    holds quoted (c :: rest) = true ↔
      (quoted = true ∨ isBlank c = false) ∧ c ≠ '\n' ∧ holds quoted rest = true := by
  rw [holds, if_neg h, Bool.and_eq_true, Bool.and_eq_true, Bool.or_eq_true, Bool.not_eq_true',
    bne_iff_ne, and_assoc]

theorem holds_quote (quoted : Bool) (rest : List Char) :
    holds quoted ('"' :: rest) = holds (!quoted) rest := rfl

theorem newline_not_mem_of_holds {quoted : Bool} {cs : List Char} (h : holds quoted cs = true) :
    '\n' ∉ cs := by
  induction cs generalizing quoted with
  | nil => exact List.not_mem_nil
  | cons c rest ih =>
    by_cases hc : c = '"'
    · subst hc
      rw [List.mem_cons, not_or]
      exact ⟨by decide, ih h⟩
    · obtain ⟨-, hn, hr⟩ := (holds_cons_of_ne hc quoted rest).1 h
      rw [List.mem_cons, not_or]
      exact ⟨hn.symm, ih hr⟩

/-- A piece does not end in a blank: outside quotes it has none, and inside it would not be
closed. -/
theorem not_isBlank_of_holds {quoted : Bool} {front : List Char} {c : Char}
    (h : holds quoted (front ++ [c]) = true) : isBlank c = false := by
  induction front generalizing quoted with
  | nil =>
    by_cases hc : c = '"'
    · subst hc
      decide
    · obtain ⟨inside, -, closed⟩ := (holds_cons_of_ne hc quoted []).1 h
      rw [holds, Bool.not_eq_true'] at closed
      rw [closed] at inside
      exact inside.resolve_left Bool.false_ne_true
  | cons d front ih =>
    by_cases hd : d = '"'
    · subst hd
      exact ih h
    · exact ih ((holds_cons_of_ne hd quoted _).1 h).2.2

/-- Text without quotes and blanks is a piece. -/
theorem isField_of_plain {cs : List Char} (ne : cs ≠ [])
    (plain : ∀ c ∈ cs, c ≠ '"' ∧ isBlank c = false) : IsField cs := by
  refine ⟨ne, ?_⟩
  clear ne
  induction cs with
  | nil => rfl
  | cons c rest ih =>
    obtain ⟨⟨hq, hb⟩, others⟩ := List.forall_mem_cons.1 plain
    refine (holds_cons_of_ne hq false rest).2 ⟨.inr hb, ?_, ih others⟩
    rintro rfl
    exact absurd hb (by decide)

/-- Text between two quotes is a piece, whatever blanks it has. -/
theorem isField_of_quoted {body : List Char} (plain : ∀ c ∈ body, c ≠ '"' ∧ c ≠ '\n') :
    IsField ('"' :: (body ++ ['"'])) := by
  refine ⟨List.cons_ne_nil _ _, ?_⟩
  rw [holds_quote, Bool.not_false]
  induction body with
  | nil => rfl
  | cons c rest ih =>
    obtain ⟨⟨hq, hn⟩, others⟩ := List.forall_mem_cons.1 plain
    exact (holds_cons_of_ne hq true _).2 ⟨.inl rfl, hn, ih others⟩

end Text

/-! ## Fields -/

/-- A piece is taken into the field that is being read. -/
theorem fieldsFrom_append {quoted : Bool} {cs : List Char} (h : Text.holds quoted cs = true)
    (field : List Char) (fields : List String) (rest : List Char) :
    fieldsFrom quoted field fields (cs ++ rest) =
      fieldsFrom false (cs.reverse ++ field) fields rest := by
  induction cs generalizing quoted field with
  | nil =>
    rw [Text.holds, Bool.not_eq_true'] at h
    rw [h]
    rfl
  | cons c cs ih =>
    rw [List.cons_append, fieldsFrom, List.reverse_cons, List.append_assoc, List.singleton_append]
    by_cases hc : c = '"'
    · subst hc
      rw [if_pos rfl]
      exact ih h (_ :: field)
    · obtain ⟨hb, -, hr⟩ := (Text.holds_cons_of_ne hc quoted cs).1 h
      have stays : (Text.isBlank c && !quoted) = false := by
        rcases hb with hb | hb <;> simp [hb]
      rw [if_neg hc, stays, if_neg Bool.false_ne_true]
      exact ih hr (c :: field)

theorem closeField_reverse {word : String} (h : word.toList ≠ []) (fields : List String) :
    closeField word.toList.reverse fields = word :: fields := by
  rw [closeField, if_neg (by simpa using h), List.reverse_reverse, String.ofList_toList]

/-- The arguments of a line as they are written behind its mnemonic. -/
def argumentText (args : List String) : List Char := args.flatMap fun a => ' ' :: a.toList

/-- Arguments that are fields are read back behind whatever stands before them. -/
theorem fieldsFrom_arguments {args : List String} (h : ∀ a ∈ args, Text.IsField a.toList)
    (field : List Char) (fields : List String) :
    fieldsFrom false field fields (argumentText args) =
      some ((closeField field fields).reverse ++ args) := by
  induction args generalizing field fields with
  | nil =>
    rw [argumentText, List.flatMap_nil, fieldsFrom, if_neg Bool.false_ne_true, List.append_nil]
  | cons a rest ih =>
    obtain ⟨⟨ne, whole⟩, others⟩ := List.forall_mem_cons.1 h
    have space : fieldsFrom false field fields (argumentText (a :: rest)) =
        fieldsFrom false [] (closeField field fields) (a.toList ++ argumentText rest) := rfl
    rw [space, fieldsFrom_append whole, List.append_nil, ih others, closeField_reverse ne,
      List.reverse_cons, List.append_assoc, List.singleton_append]

/-! ## Lines -/

namespace Text

theorem linesFrom_newline (opened : List Char) (closed : List (List Char)) (rest : List Char) :
    linesFrom opened closed ('\n' :: rest) =
      linesFrom [] ((dropReturn opened).reverse :: closed) rest := rfl

theorem linesFrom_cons_of_ne {c : Char} (h : c ≠ '\n') (opened : List Char)
    (closed : List (List Char)) (rest : List Char) :
    linesFrom opened closed (c :: rest) = linesFrom (c :: opened) closed rest := by
  rw [linesFrom]
  exact h

/-- Up to the next line feed, a line takes in every character. -/
theorem linesFrom_append {line : List Char} (h : '\n' ∉ line) (opened : List Char)
    (closed : List (List Char)) (rest : List Char) :
    linesFrom opened closed (line ++ rest) = linesFrom (line.reverse ++ opened) closed rest := by
  induction line generalizing opened with
  | nil => rfl
  | cons c line ih =>
    rw [List.mem_cons, not_or] at h
    rw [List.cons_append, linesFrom_cons_of_ne (Ne.symm h.1), ih h.2, List.reverse_cons,
      List.append_assoc, List.singleton_append]

theorem dropReturn_of_head {cs : List Char} (h : cs.head? ≠ some '\r') : dropReturn cs = cs := by
  unfold dropReturn
  split
  · exact absurd rfl h
  · rfl

/-- A line that a text can be cut into again: no line feed in it, and no carriage return at its
end. -/
def IsLine (line : List Char) : Prop := '\n' ∉ line ∧ line.getLast? ≠ some '\r'

/-- Lines that are ended by line feeds are found again. -/
theorem linesFrom_flatMap {ls : List (List Char)} (h : ∀ l ∈ ls, IsLine l)
    (closed : List (List Char)) :
    linesFrom [] closed (ls.flatMap fun l => l ++ ['\n']) = closed.reverse ++ ls := by
  induction ls generalizing closed with
  | nil => rw [List.flatMap_nil, linesFrom, if_pos List.isEmpty_nil, List.append_nil]
  | cons l rest ih =>
    obtain ⟨⟨noFeed, noReturn⟩, others⟩ := List.forall_mem_cons.1 h
    have kept : dropReturn l.reverse = l.reverse :=
      dropReturn_of_head (by rwa [List.head?_reverse])
    rw [List.flatMap_cons, List.append_assoc, linesFrom_append noFeed, List.singleton_append,
      linesFrom_newline, List.append_nil, kept, List.reverse_reverse, ih others, List.reverse_cons,
      List.append_assoc, List.singleton_append]

theorem lines_flatMap {ls : List (List Char)} (h : ∀ l ∈ ls, IsLine l) :
    lines (ls.flatMap fun l => l ++ ['\n']) = ls :=
  linesFrom_flatMap h []

/-- No line of a text holds a line feed. -/
theorem newline_not_mem_of_mem_lines {cs line : List Char} (h : line ∈ lines cs) : '\n' ∉ line := by
  have aux : ∀ (cs opened : List Char) (closed : List (List Char)), '\n' ∉ opened →
      (∀ l ∈ closed, '\n' ∉ l) → ∀ l ∈ linesFrom opened closed cs, '\n' ∉ l := by
    intro cs
    induction cs with
    | nil =>
      intro opened closed ho hc l hl
      rw [linesFrom, List.mem_reverse] at hl
      split at hl
      · exact hc l hl
      · rcases List.mem_cons.1 hl with rfl | hl
        · simpa using ho
        · exact hc l hl
    | cons c rest ih =>
      intro opened closed ho hc
      by_cases hn : c = '\n'
      · subst hn
        refine ih [] _ List.not_mem_nil (List.forall_mem_cons.2 ⟨fun hm => ho ?_, hc⟩)
        rw [List.mem_reverse] at hm
        unfold dropReturn at hm
        split at hm
        · exact List.mem_cons_of_mem _ hm
        · exact hm
      · rw [linesFrom_cons_of_ne hn]
        refine ih _ closed ?_ hc
        rw [List.mem_cons, not_or]
        exact ⟨Ne.symm hn, ho⟩
  exact aux cs [] [] List.not_mem_nil (by simp) line h

end Text

/-! ## Instructions -/

namespace Instruction

/-- **The instruction is read back from its line**: it has as many arguments as its operation takes,
and each of them is one field. -/
def IsWritable (i : Instruction) : Prop :=
  i.args.length = i.opcode.arity ∧ ∀ a ∈ i.args, Text.IsField a.toList

/-- The instruction as it is read from line number `n`. -/
def atLine (i : Instruction) (n : Nat) : Instruction := { i with location := ⟨n, 1⟩ }

/-- The operation and its arguments, without the place. -/
def content (i : Instruction) : Opcode × List String := (i.opcode, i.args)

theorem toList_line (i : Instruction) :
    i.line.toList = i.opcode.mnemonic.toList ++ argumentText i.args := by
  have aux : ∀ (args : List String) (s : String),
      (args.foldl (fun s a => s ++ " " ++ a) s).toList = s.toList ++ argumentText args := by
    intro args
    induction args with
    | nil => intro s; simp [argumentText]
    | cons a rest ih =>
      intro s
      rw [List.foldl_cons, ih]
      simp [argumentText]
  exact aux i.args _

theorem isField_mnemonic (op : Opcode) : Text.IsField op.mnemonic.toList := by
  cases op <;> decide

variable {i : Instruction}

theorem fields?_line (h : i.IsWritable) :
    fields? i.line.toList = some (i.opcode.mnemonic :: i.args) := by
  obtain ⟨ne, whole⟩ := isField_mnemonic i.opcode
  rw [fields?, toList_line, fieldsFrom_append whole, List.append_nil, fieldsFrom_arguments h.2,
    closeField_reverse ne, List.reverse_singleton, List.singleton_append]

/-- The line of an instruction ends with a field. -/
theorem exists_field_of_line (h : i.IsWritable) :
    ∃ front field, i.line.toList = front ++ field ∧ Text.IsField field := by
  rw [toList_line]
  rcases List.eq_nil_or_concat i.args with he | ⟨args, a, he⟩
  · exact ⟨[], _, by rw [he]; simp [argumentText], isField_mnemonic i.opcode⟩
  · refine ⟨i.opcode.mnemonic.toList ++ (argumentText args ++ [' ']), a.toList, ?_, h.2 a ?_⟩
    · rw [he]
      simp [argumentText]
    · rw [he]
      simp

theorem isLine_line (h : i.IsWritable) : Text.IsLine i.line.toList := by
  constructor
  · rw [toList_line, List.mem_append, argumentText, List.mem_flatMap, not_or]
    refine ⟨Text.newline_not_mem_of_holds (isField_mnemonic i.opcode).2, ?_⟩
    rintro ⟨a, ha, hm⟩
    rcases List.mem_cons.1 hm with hm | hm
    · exact absurd hm (by decide)
    · exact Text.newline_not_mem_of_holds (h.2 a ha).2 hm
  · obtain ⟨front, field, he, ne, whole⟩ := exists_field_of_line h
    rcases List.eq_nil_or_concat field with hn | ⟨initial, c, hc⟩
    · exact absurd hn ne
    · rw [hc, List.concat_eq_append] at whole he
      rw [he, ← List.append_assoc, List.getLast?_append, List.getLast?_singleton]
      rintro ⟨⟩
      exact absurd (Text.not_isBlank_of_holds whole) (by decide)

theorem decodeLine_line (h : i.IsWritable) (n : Nat) :
    Program.decodeLine n i.line.toList = .ok (some (i.atLine n)) := by
  rw [Program.decodeLine, fields?_line h]
  dsimp only
  rw [Opcode.ofMnemonic?_mnemonic]
  exact if_pos h.1

end Instruction

/-! ## Programs -/

namespace Program

/-- The program as it is read from its text: the instructions stand on lines 1, 2, 3, … -/
def numbered (p : Program) : Program := ⟨p.instructions.mapIdx fun k i => i.atLine (k + 1)⟩

theorem toList_encode (p : Program) :
    p.encode.toList = (p.instructions.map (·.line.toList)).flatMap fun l => l ++ ['\n'] := by
  have aux : ∀ (ls : List String) (s : String),
      (ls.foldl (fun s line => s ++ line ++ "\n") s).toList =
        s.toList ++ (ls.map String.toList).flatMap fun l => l ++ ['\n'] := by
    intro ls
    induction ls with
    | nil => intro s; simp
    | cons l rest ih =>
      intro s
      rw [List.foldl_cons, ih]
      simp
  rw [encode, aux, lines, List.map_map]
  rfl

theorem encode_numbered (p : Program) : p.numbered.encode = p.encode := by
  have same : p.numbered.lines = p.lines := by
    refine List.ext_getElem? fun k => ?_
    simp only [lines, numbered, List.getElem?_map, List.getElem?_mapIdx, Option.map_map]
    rfl
  rw [encode, encode, same]

/-- The operations and arguments of a program, without their places. -/
def content (p : Program) : List (Opcode × List String) := p.instructions.map Instruction.content

theorem content_numbered (p : Program) : p.numbered.content = p.content := by
  refine List.ext_getElem? fun k => ?_
  simp only [content, numbered, List.getElem?_map, List.getElem?_mapIdx, Option.map_map]
  rfl

theorem decodeFrom_lines {is : List Instruction} (h : ∀ i ∈ is, i.IsWritable) (n : Nat)
    (done : List Instruction) :
    decodeFrom n done (is.map (·.line.toList)) =
      .ok ⟨done.reverse ++ is.mapIdx fun k i => i.atLine (n + k)⟩ := by
  induction is generalizing n done with
  | nil => simp [decodeFrom]
  | cons i rest ih =>
    obtain ⟨first, others⟩ := List.forall_mem_cons.1 h
    rw [List.map_cons, decodeFrom, Instruction.decodeLine_line first]
    dsimp only
    rw [ih others, List.mapIdx_cons, List.reverse_cons, List.append_assoc, List.singleton_append]
    simp only [Nat.add_zero, Nat.add_assoc, Nat.add_comm 1]

/-- **A program of writable instructions is read back.** -/
theorem decode_encode {p : Program} (h : ∀ i ∈ p.instructions, i.IsWritable) :
    decode p.encode = .ok p.numbered := by
  have whole : ∀ l ∈ p.instructions.map (·.line.toList), Text.IsLine l := by
    intro l hl
    obtain ⟨i, hi, rfl⟩ := List.mem_map.1 hl
    exact Instruction.isLine_line (h i hi)
  rw [decode, toList_encode, Text.lines_flatMap whole, decodeFrom_lines h, List.reverse_nil,
    List.nil_append]
  simp only [numbered, Nat.add_comm 1]

end Program

end GovernedQuantum
