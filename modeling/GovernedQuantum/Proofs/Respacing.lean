import GovernedQuantum.Proofs.Conservation

/-!
# Tokens with blanks between them

Where tokens touch in a source, or stand on different lines, or are followed by a comment, their
texts may as well be written on one line with a blank between any two: the same texts are read
again. What a token looks like by itself is enough for this, since a blank ends every word and
starts nothing.

* `Token.Form.lexeme`: what has the form of a token is one before a blank and at the end of a line.
* `Token.tokenize_joined`: **texts that have the form of tokens are read back** from a line that
  joins them.
* `Token.retokenize`: **tokenizing again gives the same texts**, and no error.
-/

namespace GovernedQuantum.Token

/-- A blank ends every word. -/
theorem endsWord_of_blank {rest : List Char} (blank : ∀ c ∈ rest.head?, Text.isBlank c = true) :
    EndsWord rest := by
  rintro ⟨c, later, rfl, runs⟩
  have plain := (runs_singleton.1 runs).1.2.1
  exact absurd (blank c rfl) (by simp [plain])

/-- **What has the form of a token is one** before a blank and at the end of a line. -/
theorem Form.lexeme {cs rest : List Char} (h : Form cs)
    (blank : ∀ c ∈ rest.head?, Text.isBlank c = true) : Lexeme rest cs := by
  cases h with
  | mark h => exact .mark h
  | string h => exact .string h
  | word h =>
    refine .word h.1 (h.runs fun slash => ?_) (endsWord_of_blank blank)
    exact absurd (blank '/' slash) (by decide)

/-- A token is not blank. -/
theorem Form.exists_ink {cs : List Char} (h : Form cs) : ∃ c ∈ cs, Text.isBlank c = false := by
  cases h with
  | @mark c h => exact ⟨c, List.mem_cons_self, isBlank_of_mem_punctuation h⟩
  | string h => exact ⟨'"', List.mem_cons_self, by decide⟩
  | word h =>
    obtain ⟨c, hc⟩ := List.exists_mem_of_ne_nil cs h.1
    exact ⟨c, hc, (h.2.1 c hc).1.2.1⟩

/-- **Texts that have the form of tokens are read back** from a line that joins them by blanks. -/
theorem exists_reads_joined {texts : List (List Char)} (forms : ∀ cs ∈ texts, Form cs)
    (line column : Nat) :
    ∃ ts, Reads line column ([' '].intercalate texts) ts none ∧ ts.map (·.text.toList) = texts := by
  induction texts generalizing column with
  | nil => exact ⟨[], .finish, rfl⟩
  | cons cs others ih =>
    obtain ⟨form, forms⟩ := List.forall_mem_cons.1 forms
    cases others with
    | nil =>
      have reads : Reads line column (cs ++ []) _ none := .token (form.lexeme (by simp)) .finish
      rw [List.append_nil] at reads
      exact ⟨_, by rwa [List.intercalate_singleton], by simp⟩
    | cons ds others =>
      obtain ⟨ts, later, same⟩ := ih forms (column + cs.length + 1)
      have blank :
          ∀ c ∈ (' ' :: [' '].intercalate (ds :: others)).head?, Text.isBlank c = true := by
        rintro c ⟨⟩
        decide
      have reads := Reads.token (form.lexeme blank) (.blank (by decide) later)
      refine ⟨_, by rwa [List.intercalate_cons_cons, List.append_assoc, List.singleton_append], ?_⟩
      rw [List.map_cons, String.toList_ofList, same]

/-- A text without line feeds is one line. -/
theorem lines_of_noFeed {cs : List Char} (ne : cs ≠ []) (noFeed : '\n' ∉ cs) :
    Text.lines cs = [cs] := by
  have whole := Text.linesFrom_append noFeed [] [] []
  rw [List.append_nil, List.append_nil] at whole
  rw [Text.lines, whole, Text.linesFrom, if_neg (by simpa using ne), List.reverse_reverse]
  rfl

/-- A line that joins texts consists of these and of blanks. -/
theorem mem_joined {c : Char} {texts : List (List Char)} (h : c ∈ [' '].intercalate texts) :
    c = ' ' ∨ ∃ cs ∈ texts, c ∈ cs := by
  induction texts with
  | nil => exact absurd h List.not_mem_nil
  | cons cs others ih =>
    cases others with
    | nil => exact .inr ⟨cs, List.mem_cons_self, by rwa [List.intercalate_singleton] at h⟩
    | cons ds others =>
      rw [List.intercalate_cons_cons, List.mem_append, List.mem_append, List.mem_singleton] at h
      rcases h with (h | h) | h
      · exact .inr ⟨cs, List.mem_cons_self, h⟩
      · exact .inl h
      · exact (ih h).imp_right fun ⟨es, hes, hc⟩ => ⟨es, List.mem_cons_of_mem cs hes, hc⟩

theorem prefix_joined (cs : List Char) (others : List (List Char)) :
    cs <+: [' '].intercalate (cs :: others) := by
  cases others with
  | nil => rw [List.intercalate_singleton]
  | cons ds others =>
    rw [List.intercalate_cons_cons, List.append_assoc]
    exact List.prefix_append _ _

/-- **Texts that have the form of tokens are tokenized as they are**, without an error, from one
line that joins them by blanks. -/
theorem tokenize_joined {texts : List String} (forms : ∀ s ∈ texts, Form s.toList ∧ '\n' ∉ s.toList)
    {limits : Limits} (fits : (" ".intercalate texts).utf8ByteSize ≤ limits.maxSourceBytes) :
    (tokenize (" ".intercalate texts) limits).tokens.map Token.text = texts ∧
      (tokenize (" ".intercalate texts) limits).diagnostics.errors = #[] := by
  cases texts with
  -- a blank source is refused with a warning
  | nil => exact ⟨rfl, rfl⟩
  | cons s others =>
    have joined : (" ".intercalate (s :: others)).toList =
        [' '].intercalate ((s :: others).map String.toList) :=
      String.toList_intercalate
    generalize " ".intercalate (s :: others) = source at fits joined ⊢
    have ink : ∃ c ∈ source.toList, Text.isBlank c = false := by
      obtain ⟨c, hc, ink⟩ := (forms s List.mem_cons_self).1.exists_ink
      rw [joined]
      exact ⟨c, (prefix_joined _ _).subset hc, ink⟩
    have noFeed : '\n' ∉ source.toList := by
      rw [joined]
      intro feed
      rcases mem_joined feed with h | ⟨cs, hcs, h⟩
      · exact absurd h (by decide)
      · obtain ⟨u, hu, rfl⟩ := List.mem_map.1 hcs
        exact (forms u hu).2 h
    have oneLine : Text.lines source.toList = [source.toList] := by
      obtain ⟨c, hc, -⟩ := ink
      exact lines_of_noFeed (List.ne_nil_of_mem hc) noFeed
    have formed : ∀ cs ∈ (s :: others).map String.toList, Form cs :=
      List.forall_mem_map.2 fun u hu => (forms u hu).1
    obtain ⟨ts, reads, same⟩ := exists_reads_joined formed 1 1
    rw [← joined] at reads
    have scanned := scanLine_eq_iff.2 reads
    rw [tokenize_eq fits ink, oneLine]
    simp only [List.zipIdx_cons, List.zipIdx_nil, List.flatMap_cons, List.flatMap_nil,
      List.append_nil, lineTokens, lineFindings, scanned, List.reverse_reverse]
    refine ⟨?_, rfl⟩
    apply List.map_injective_iff.2 fun _ _ => String.toList_inj.1
    rw [List.map_map]
    exact same

/-- The texts of the tokens of a source on one line, with a blank between any two. -/
def respaced (source : String) (limits : Limits) : String :=
  " ".intercalate ((tokenize source limits).tokens.map Token.text)

/-- **Tokenizing again gives the same texts.** Whatever the source, and whatever was reported of it,
the texts of its tokens on one line with a blank between any two are read as the same texts, without
an error, if only the limit admits that line. -/
theorem retokenize (source : String) (limits again : Limits)
    (fits : (respaced source limits).utf8ByteSize ≤ again.maxSourceBytes) :
    (tokenize (respaced source limits) again).tokens.map Token.text =
        (tokenize source limits).tokens.map Token.text ∧
      (tokenize (respaced source limits) again).diagnostics.errors = #[] :=
  tokenize_joined (List.forall_mem_map.2 fun _ ht => form_of_mem_tokenize ht) fits

/-- A carriage return inside a string, strings that touch, slashes, and a string that is not
closed. -/
def crowded : String := "print(\"a\r\"\"#\"),x/ /;//\n\"b"

/-- The string that is not closed is no token and an error the first time; all tokens are read
again. -/
theorem retokenize_crowded :
    respaced crowded {} = "print ( \"a\r\" \"#\" ) , x/ / ;" ∧
      (respaced crowded {}).utf8ByteSize ≤ ({} : Limits).maxSourceBytes ∧
      (tokenize crowded {}).diagnostics.errors.map (·.location) = #[⟨2, 1⟩] ∧
      (tokenize (respaced crowded {}) {}).tokens.map Token.text =
        (tokenize crowded {}).tokens.map Token.text ∧
      (tokenize (respaced crowded {}) {}).diagnostics.errors = #[] := by
  have fits : (respaced crowded {}).utf8ByteSize ≤ ({} : Limits).maxSourceBytes := by decide +kernel
  exact ⟨by decide +kernel, fits, by decide +kernel, retokenize crowded {} {} fits⟩

end GovernedQuantum.Token
