import GovernedQuantum.Token
import Mathlib.Data.List.Infix

/-!
# What a line consists of

A line is scanned in one pass that keeps the characters of an unfinished token and the column where
it began. This file says what comes of it without such a state: a line is blanks and tokens one
after another, up to its end, to a comment, or to a string that is not closed.

* `Token.Lexeme rest cs`: the characters `cs` are a token when `rest` follows. A word goes as far as
  it can.
* `Token.Reads`: the tokens of a line from some column on, and the column of a string left open.
* `Token.exists_reads`: every line reads as something. `Token.Reads.scanFrom`: a scan finds it.
* `Token.scanLine_eq_iff`: **scanning finds exactly what a line reads as.**
-/

namespace GovernedQuantum.Token

/-! ## Tokens among their neighbours -/

/-- A comment takes the rest of the line. -/
def StartsComment (cs : List Char) : Prop := ['#'] <+: cs ∨ ['/', '/'] <+: cs

/-- A character that words are made of. -/
def IsPlain (c : Char) : Prop := c ≠ '"' ∧ Text.isBlank c = false ∧ c ∉ punctuation

instance (cs : List Char) : Decidable (StartsComment cs) := inferInstanceAs (Decidable (_ ∨ _))
instance (c : Char) : Decidable (IsPlain c) := inferInstanceAs (Decidable (_ ∧ _))

/-- Plain characters among which no comment starts when `rest` follows. -/
def Runs (rest : List Char) : List Char → Prop
  | [] => True
  | c :: cs => IsPlain c ∧ ¬ StartsComment (c :: (cs ++ rest)) ∧ Runs rest cs

/-- A word does not go on into these characters. -/
def EndsWord (cs : List Char) : Prop := ¬ ∃ c rest, cs = c :: rest ∧ Runs rest [c]

/-- **The characters of a token** when `rest` follows: a mark, a string, or a whole word. -/
inductive Lexeme (rest : List Char) : List Char → Prop
  | mark {c : Char} (h : c ∈ punctuation) : Lexeme rest [c]
  | string {body : List Char} (h : '"' ∉ body) : Lexeme rest ('"' :: (body ++ ['"']))
  | word {cs : List Char} (ne : cs ≠ []) (runs : Runs rest cs) (ends : EndsWord rest) :
      Lexeme rest cs

/-- **What the characters of a line read as** from a column on: their tokens, and the column of a
string that is left open. -/
inductive Reads (line : Nat) : Nat → List Char → List Token → Option Nat → Prop
  | finish {column : Nat} : Reads line column [] [] none
  | comment {column : Nat} {cs : List Char} (h : StartsComment cs) : Reads line column cs [] none
  | unclosed {column : Nat} {body : List Char} (h : '"' ∉ body) :
      Reads line column ('"' :: body) [] (some column)
  | blank {column : Nat} {c : Char} {cs : List Char} {ts : List Token} {o : Option Nat}
      (h : Text.isBlank c = true) (later : Reads line (column + 1) cs ts o) :
      Reads line column (c :: cs) ts o
  | token {column : Nat} {cs rest : List Char} {ts : List Token} {o : Option Nat}
      (h : Lexeme rest cs) (later : Reads line (column + cs.length) rest ts o) :
      Reads line column (cs ++ rest) (⟨String.ofList cs, ⟨line, column⟩⟩ :: ts) o

/-! ## Kinds of characters -/

theorem startsComment_cons {c : Char} {rest : List Char} :
    StartsComment (c :: rest) ↔ c = '#' ∨ c = '/' ∧ rest.head? = some '/' := by
  cases rest <;> simp [StartsComment, eq_comm]

/-- The test of a scan for a comment. -/
theorem commentTest_iff {c : Char} {rest : List Char} :
    (c = '#' || (c = '/' && rest.head? = some '/')) = true ↔ StartsComment (c :: rest) := by
  rw [startsComment_cons]
  simp

theorem not_startsComment_quote (rest : List Char) : ¬ StartsComment ('"' :: rest) := by
  simp [startsComment_cons]

theorem not_startsComment_blank {c : Char} (h : Text.isBlank c = true) (rest : List Char) :
    ¬ StartsComment (c :: rest) := by
  rw [startsComment_cons]
  rintro (rfl | ⟨rfl, -⟩)
  · exact absurd h (by decide)
  · exact absurd h (by decide)

theorem not_startsComment_mark {c : Char} (h : c ∈ punctuation) (rest : List Char) :
    ¬ StartsComment (c :: rest) := by
  rw [startsComment_cons]
  rintro (rfl | ⟨rfl, -⟩)
  · exact absurd h (by decide)
  · exact absurd h (by decide)

theorem ne_quote_of_isBlank {c : Char} (h : Text.isBlank c = true) : c ≠ '"' := by
  rintro rfl
  exact absurd h (by decide)

theorem ne_quote_of_mem_punctuation {c : Char} (h : c ∈ punctuation) : c ≠ '"' := by
  rintro rfl
  exact absurd h (by decide)

theorem isBlank_of_mem_punctuation {c : Char} (h : c ∈ punctuation) : Text.isBlank c = false := by
  have all : punctuation.all fun c => !Text.isBlank c := by decide
  simpa using List.all_eq_true.1 all c h

theorem runs_singleton {c : Char} {rest : List Char} :
    Runs rest [c] ↔ IsPlain c ∧ ¬ StartsComment (c :: rest) := by
  simp [Runs]

theorem endsWord_nil : EndsWord [] := by simp [EndsWord]

theorem endsWord_cons {c : Char} {rest : List Char} : EndsWord (c :: rest) ↔ ¬ Runs rest [c] := by
  simp [EndsWord]

/-! ## Tokens by themselves -/

/-- A word: characters that are neither blank nor quotes, marks or `#`, without `//` among them. -/
def IsWord (cs : List Char) : Prop :=
  cs ≠ [] ∧ (∀ c ∈ cs, IsPlain c ∧ c ≠ '#') ∧ ¬ ['/', '/'] <:+: cs

/-- **What a token looks like**: a mark, a string with a quote at each end and no others, or a
word. -/
inductive Form : List Char → Prop
  | mark {c : Char} (h : c ∈ punctuation) : Form [c]
  | string {body : List Char} (h : '"' ∉ body) : Form ('"' :: (body ++ ['"']))
  | word {cs : List Char} (h : IsWord cs) : Form cs

/-- At each place of a run stands a plain character that starts no comment. -/
theorem Runs.drop {rest cs : List Char} (runs : Runs rest cs) {j : Nat} {c : Char}
    {later : List Char} (h : cs.drop j = c :: later) :
    IsPlain c ∧ ¬ StartsComment (c :: (later ++ rest)) := by
  induction cs generalizing j with
  | nil => exact absurd h (by simp)
  | cons d cs ih =>
    obtain ⟨plain, comment, runs⟩ := runs
    cases j with
    | zero =>
      obtain ⟨rfl, rfl⟩ := List.cons.inj h
      exact ⟨plain, comment⟩
    | succ j => exact ih runs h

theorem Runs.isWord {rest cs : List Char} (ne : cs ≠ []) (runs : Runs rest cs) : IsWord cs := by
  refine ⟨ne, fun c hc => ?_, ?_⟩
  · obtain ⟨front, later, rfl⟩ := List.append_of_mem hc
    have place : (front ++ c :: later).drop front.length = c :: later := List.drop_left
    obtain ⟨plain, comment⟩ := runs.drop place
    refine ⟨plain, ?_⟩
    rintro rfl
    exact comment (.inl (by simp))
  · rintro ⟨front, later, rfl⟩
    have place : (front ++ ['/', '/'] ++ later).drop front.length = '/' :: '/' :: later := by simp
    exact (runs.drop place).2 (.inr (by simp))

/-- A word that is followed by no slash is a run. -/
theorem IsWord.runs {cs rest : List Char} (h : IsWord cs) (slash : rest.head? ≠ some '/') :
    Runs rest cs := by
  obtain ⟨-, plain, slashes⟩ := h
  induction cs with
  | nil => trivial
  | cons c cs ih =>
    obtain ⟨first, others⟩ := List.forall_mem_cons.1 plain
    refine ⟨first.1, ?_, ih others fun h => slashes (h.trans (List.suffix_cons c cs).isInfix)⟩
    rw [startsComment_cons]
    rintro (hash | ⟨rfl, next⟩)
    · exact first.2 hash
    · cases cs with
      | nil => exact slash next
      | cons d cs =>
        obtain rfl : d = '/' := by simpa using next
        exact slashes ⟨[], cs, rfl⟩

namespace Lexeme

variable {rest cs : List Char}

theorem form (h : Lexeme rest cs) : Form cs := by
  cases h with
  | mark h => exact .mark h
  | string h => exact .string h
  | word ne runs _ => exact .word (runs.isWord ne)

theorem ne_nil (h : Lexeme rest cs) : cs ≠ [] := by
  cases h with
  | mark | string => exact List.cons_ne_nil _ _
  | word ne _ _ => exact ne

/-- A word goes as far as it can. -/
theorem endsWord (h : Lexeme rest cs) (word : IsWord cs) : EndsWord rest := by
  cases h with
  | @mark c h => exact absurd h (word.2.1 c List.mem_cons_self).1.2.2
  | string h => exact absurd rfl (word.2.1 '"' List.mem_cons_self).1.1
  | word _ _ ends => exact ends

end Lexeme

/-! ## Every line reads as something -/

/-- Some word can be read at the start, possibly an empty one, that goes as far as it can. -/
theorem exists_runs (cs : List Char) :
    ∃ word rest, cs = word ++ rest ∧ Runs rest word ∧ EndsWord rest := by
  induction cs with
  | nil => exact ⟨[], [], rfl, trivial, endsWord_nil⟩
  | cons c cs ih =>
    by_cases h : Runs cs [c]
    · obtain ⟨word, rest, rfl, runs, ends⟩ := ih
      obtain ⟨plain, comment⟩ := runs_singleton.1 h
      exact ⟨c :: word, rest, rfl, ⟨plain, comment, runs⟩, ends⟩
    · exact ⟨[], c :: cs, rfl, trivial, endsWord_cons.2 h⟩

variable {line : Nat}

theorem exists_reads (line column : Nat) (cs : List Char) : ∃ ts o, Reads line column cs ts o := by
  induction h : cs.length using Nat.strong_induction_on generalizing column cs with
  | _ n ih =>
    subst h
    -- a token is followed by fewer characters
    have token {text rest : List Char} (lexeme : Lexeme rest text) (he : cs = text ++ rest) :
        ∃ ts o, Reads line column cs ts o := by
      subst he
      have shorter : rest.length < (text ++ rest).length := by
        have := List.length_pos_iff.2 lexeme.ne_nil
        rw [List.length_append]
        omega
      obtain ⟨ts, o, later⟩ := ih _ shorter (column + text.length) rest rfl
      exact ⟨_, o, .token lexeme later⟩
    cases cs with
    | nil => exact ⟨[], none, .finish⟩
    | cons c cs =>
      by_cases comment : StartsComment (c :: cs)
      · exact ⟨[], none, .comment comment⟩
      by_cases quote : c = '"'
      · subst quote
        by_cases closed : '"' ∈ cs
        · obtain ⟨body, rest, rfl, inside⟩ := List.eq_append_cons_of_mem closed
          exact token (.string inside) (List.append_assoc ('"' :: body) ['"'] rest).symm
        · exact ⟨[], some column, .unclosed closed⟩
      by_cases blank : Text.isBlank c = true
      · obtain ⟨ts, o, later⟩ := ih cs.length (by simp) (column + 1) cs rfl
        exact ⟨ts, o, .blank blank later⟩
      by_cases mark : c ∈ punctuation
      · exact token (.mark mark) rfl
      obtain ⟨word, rest, rfl, runs, ends⟩ := exists_runs cs
      have plain : IsPlain c := ⟨quote, by simpa using blank, mark⟩
      exact token (.word (List.cons_ne_nil c word) ⟨plain, comment, runs⟩ ends) rfl

/-! ## What a scan does with a line -/

section Scanning

variable {start column : Nat} {chars : List Char} {done : List Token} {rest : List Char}

theorem closeWord_nil (line start : Nat) (done : List Token) :
    closeWord line start [] done = done := rfl

theorem closeWord_of_ne (ne : chars ≠ []) :
    closeWord line start chars done = ⟨String.ofList chars.reverse, ⟨line, start⟩⟩ :: done :=
  if_neg (by simpa using ne)

/-- Between quotes everything is taken in. -/
theorem scanFrom_body {body : List Char} (h : '"' ∉ body) :
    scanFrom line (.quoted start chars) done column (body ++ rest) =
      scanFrom line (.quoted start (body.reverse ++ chars)) done (column + body.length) rest := by
  induction body generalizing chars column with
  | nil => rfl
  | cons c body ih =>
    rw [List.mem_cons, not_or] at h
    rw [List.cons_append, scanFrom, if_neg (Ne.symm h.1), ih h.2, List.reverse_cons,
      List.append_assoc, List.singleton_append, List.length_cons, Nat.add_assoc, Nat.add_comm 1]

/-- A plain character that starts no comment is taken into the word. -/
theorem scanFrom_plain {c : Char} (h : Runs rest [c]) :
    scanFrom line (.word start chars) done column (c :: rest) =
      scanFrom line (.word (if chars.isEmpty then column else start) (c :: chars)) done
        (column + 1) rest := by
  obtain ⟨⟨quote, blank, mark⟩, comment⟩ := runs_singleton.1 h
  rw [scanFrom, if_neg (mt commentTest_iff.1 comment), if_neg quote, if_neg (by simp [blank]),
    if_neg (by simpa using mark)]

/-- The rest of a word is taken in. -/
theorem scanFrom_runs {cs : List Char} (runs : Runs rest cs) (ne : chars ≠ []) :
    scanFrom line (.word start chars) done column (cs ++ rest) =
      scanFrom line (.word start (cs.reverse ++ chars)) done (column + cs.length) rest := by
  induction cs generalizing chars column with
  | nil => rfl
  | cons c cs ih =>
    obtain ⟨plain, comment, runs⟩ := runs
    rw [List.cons_append, scanFrom_plain (runs_singleton.2 ⟨plain, comment⟩),
      if_neg (by simpa using ne), ih runs (List.cons_ne_nil c chars), List.reverse_cons,
      List.append_assoc, List.singleton_append, List.length_cons, Nat.add_assoc, Nat.add_comm 1]

/-- Where a word does not go on, it is closed before anything else happens. -/
theorem scanFrom_closes (ends : EndsWord rest) :
    scanFrom line (.word start chars) done column rest =
      scanFrom line (.word 0 []) (closeWord line start chars done) column rest := by
  cases rest with
  | nil => rfl
  | cons c rest =>
    rw [endsWord_cons, runs_singleton] at ends
    rw [scanFrom, scanFrom]
    by_cases comment : StartsComment (c :: rest)
    · rw [if_pos (commentTest_iff.2 comment), if_pos (commentTest_iff.2 comment), closeWord_nil]
    rw [if_neg (mt commentTest_iff.1 comment), if_neg (mt commentTest_iff.1 comment)]
    by_cases quote : c = '"'
    · rw [if_pos quote, if_pos quote, closeWord_nil]
    rw [if_neg quote, if_neg quote]
    by_cases blank : Text.isBlank c = true
    · rw [if_pos blank, if_pos blank, closeWord_nil]
    rw [if_neg blank, if_neg blank]
    by_cases mark : punctuation.contains c = true
    · rw [if_pos mark, if_pos mark, closeWord_nil]
    · exact absurd ⟨⟨quote, by simpa using blank, by simpa using mark⟩, comment⟩ ends

end Scanning

/-- **What a line reads as is found by scanning it.** -/
theorem Reads.scanFrom {column : Nat} {cs : List Char} {ts : List Token} {o : Option Nat}
    (h : Reads line column cs ts o) (done : List Token) :
    Token.scanFrom line (.word 0 []) done column cs = ⟨ts.reverse ++ done, o⟩ := by
  induction h generalizing done with
  | finish => rfl
  | @comment column cs h =>
    cases cs with
    | nil => exact absurd h (by simp [StartsComment])
    | cons c rest =>
      rw [Token.scanFrom, if_pos (commentTest_iff.2 h)]
      rfl
  | @unclosed column body h =>
    rw [Token.scanFrom, if_neg (mt commentTest_iff.1 (not_startsComment_quote _)), if_pos rfl,
      closeWord_nil, ← List.append_nil body, scanFrom_body h]
    rfl
  | @blank column c cs ts o h later ih =>
    rw [Token.scanFrom, if_neg (mt commentTest_iff.1 (not_startsComment_blank h _)),
      if_neg (ne_quote_of_isBlank h), if_pos h, closeWord_nil, ih]
  | @token column cs rest ts o h later ih =>
    rw [List.reverse_cons, List.append_assoc, List.singleton_append]
    cases h with
    | @mark c h =>
      rw [List.singleton_append, Token.scanFrom,
        if_neg (mt commentTest_iff.1 (not_startsComment_mark h _)),
        if_neg (ne_quote_of_mem_punctuation h), if_neg (by simp [isBlank_of_mem_punctuation h]),
        if_pos (List.contains_iff_mem.2 h), closeWord_nil]
      exact ih _
    | @string body h =>
      have inside : ('"' :: (body ++ ['"'])) ++ rest = '"' :: (body ++ '"' :: rest) := by simp
      rw [inside, Token.scanFrom, if_neg (mt commentTest_iff.1 (not_startsComment_quote _)),
        if_pos rfl, closeWord_nil, scanFrom_body h, Token.scanFrom, if_pos rfl]
      dsimp only
      have text : ('"' :: (body.reverse ++ ['"'])).reverse = '"' :: (body ++ ['"']) := by simp
      have length : column + 1 + body.length + 1 = column + ('"' :: (body ++ ['"'])).length := by
        simp only [List.length_cons, List.length_append, List.length_nil]
        omega
      rw [text, length]
      exact ih _
    | word ne runs ends =>
      cases cs with
      | nil => exact absurd rfl ne
      | cons c cs =>
        obtain ⟨plain, comment, runs⟩ := runs
        rw [List.cons_append, scanFrom_plain (runs_singleton.2 ⟨plain, comment⟩),
          if_pos List.isEmpty_nil, scanFrom_runs runs (List.cons_ne_nil c []), scanFrom_closes ends,
          closeWord_of_ne (by simp)]
        have text : (cs.reverse ++ [c]).reverse = c :: cs := by simp
        rw [text, Nat.add_assoc, Nat.add_comm 1]
        exact ih _

/-- **Scanning finds exactly what a line reads as.** -/
theorem scanLine_eq_iff {cs : List Char} {ts : List Token} {o : Option Nat} :
    scanLine line cs = ⟨ts.reverse, o⟩ ↔ Reads line 1 cs ts o := by
  have found {ts : List Token} {o : Option Nat} (h : Reads line 1 cs ts o) :
      scanLine line cs = ⟨ts.reverse, o⟩ := by
    rw [scanLine, h.scanFrom, List.append_nil]
  constructor
  · intro scanned
    obtain ⟨ts', o', reads⟩ := exists_reads line 1 cs
    obtain ⟨ht, ho⟩ := LineScan.mk.inj (scanned.symm.trans (found reads))
    rwa [List.reverse_injective ht, ho]
  · exact found

end GovernedQuantum.Token
