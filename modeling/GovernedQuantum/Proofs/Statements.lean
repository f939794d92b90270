import GovernedQuantum.Proofs.Inference

/-!
# No word is lost

The words of a source fall into statements, words that start none, and at the end possibly a
statement that is cut short. Where a statement ends is fixed by its keyword alone, so the words fall
apart in one way only, and what is made of a token list can be read off the parts: an instruction
for each statement, a warning for each of the others, as far as the cap allows.

* `Assembly.pass_eq_foldl`: **a pass does not run out of turns** that has one for every token.
* `Segmentation`: words in parts. `Segmentation.exists_covers`, `Segmentation.Covers.unique`:
  **words fall apart in exactly one way.**
* `Segmentation.Covers.foldl`: what a pass makes of the parts.
* `parse_conserves_words`: **what parsing gives is what the parts say**, and nothing else is said.
-/

namespace GovernedQuantum

/-! ## Turns -/

namespace Assembly

/-- **A pass does not run out of turns** if it has one for every token: it takes in all the
words. -/
theorem pass_eq_foldl (cap limit : Nat) {left : Nat} {tokens : List Token}
    (enough : tokens.length ≤ left) (a : Assembly) :
    pass cap limit left a tokens =
      (tokens.filter fun t => !t.isPunctuation).foldl (feed cap) a := by
  induction tokens generalizing left a with
  | nil => rfl
  | cons t rest ih =>
    rw [List.length_cons] at enough
    have taken (left : Nat) (h : rest.length ≤ left) : pass cap limit left (a.take cap t) rest =
        ((t :: rest).filter fun t => !t.isPunctuation).foldl (feed cap) a := by
      rw [ih h, take]
      cases mark : t.isPunctuation <;> simp [mark]
    unfold pass
    split
    · exact taken _ (by omega)
    · omega
    · exact taken _ (by omega)

end Assembly

/-- However high the ceiling, parsing makes the same of the words. -/
theorem parseWithin_eq {limit : Nat} {tokens : List Token} (enough : tokens.length ≤ limit)
    (limits : Limits) :
    parseWithin limit tokens limits =
      let final := (((tokens.filter fun t => !t.isPunctuation).foldl
        (Assembly.feed limits.maxUnknownKeywordWarnings)
          { diagnostics := largeInput tokens limits }).closeStatement).summarize
            limits.maxUnknownKeywordWarnings ((tokens.getLast?.map (·.location)).getD {})
      ⟨final.done.reverse, final.diagnostics⟩ := by
  rw [parseWithin, Assembly.pass_eq_foldl _ _ enough]

theorem length_le_turnLimit (tokens : List Token) : tokens.length ≤ turnLimit tokens.length := by
  rw [turnLimit]
  omega

/-! ## Keywords -/

namespace Opcode

/-- No two operations have the same keyword, up to case. -/
theorem eq_of_sameLetters {a b : Opcode} {word : String}
    (ha : Text.sameLetters a.keyword word = true) (hb : Text.sameLetters b.keyword word = true) :
    a = b := by
  have distinct : (all.map fun op => op.keyword.toList.map Char.toLower).Nodup := by decide +kernel
  have same : a.keyword.toList.map Char.toLower = b.keyword.toList.map Char.toLower :=
    (eq_of_beq ha).trans (eq_of_beq hb).symm
  exact List.inj_on_of_nodup_map distinct (mem_all a) (mem_all b) same

/-- **A keyword is recognized by its letters.** -/
theorem ofKeyword?_eq_some_iff {word : String} {op : Opcode} :
    ofKeyword? word = some op ↔ Text.sameLetters op.keyword word = true := by
  have recognized {op : Opcode} (h : ofKeyword? word = some op) :
      Text.sameLetters op.keyword word = true := by simpa using List.find?_some h
  constructor
  · exact recognized
  · intro h
    cases found : ofKeyword? word with
    | none => exact absurd h (List.find?_eq_none.1 found op (mem_all op))
    | some other => rw [eq_of_sameLetters (recognized found) h]

theorem ofKeyword?_eq_none_iff {word : String} :
    ofKeyword? word = none ↔ ∀ op : Opcode, Text.sameLetters op.keyword word = false := by
  rw [ofKeyword?, List.find?_eq_none]
  exact ⟨fun h op => by simpa using h op (mem_all op), fun h op _ => by simp [h op]⟩

end Opcode

/-! ## The parts of a source -/

/-- A keyword with tokens behind it. -/
structure Phrase where
  opcode : Opcode
  head : Token
  args : List Token

namespace Phrase

def tokens (p : Phrase) : List Token := p.head :: p.args

/-- The first token is the keyword, whatever the case of its letters. -/
def Opens (p : Phrase) : Prop := Text.sameLetters p.opcode.keyword p.head.text = true

/-- A statement: the keyword has as many tokens behind it as its operation takes. -/
def IsWhole (p : Phrase) : Prop := p.Opens ∧ p.args.length = p.opcode.arity

/-- A statement that is cut short. -/
def IsCut (p : Phrase) : Prop := p.Opens ∧ p.args.length < p.opcode.arity

/-- What a statement tells: its arguments are the tokens as they are, its place is that of the
keyword. -/
def instruction (p : Phrase) : Instruction := ⟨p.opcode, p.args.map Token.text, p.head.location⟩

end Phrase

/-- A part of a source: a statement, or a word that starts none. -/
inductive Piece where
  | statement (p : Phrase)
  | stray (t : Token)

namespace Piece

def tokens : Piece → List Token
  | statement p => p.tokens
  | stray t => [t]

/-- Statements are whole, and all that is astray is no keyword. -/
def IsProper : Piece → Prop
  | statement p => p.IsWhole
  | stray t => ∀ op : Opcode, Text.sameLetters op.keyword t.text = false

def instruction? : Piece → Option Instruction
  | statement p => some p.instruction
  | stray _ => none

def stray? : Piece → Option Token
  | statement _ => none
  | stray t => some t

end Piece

/-- Words in parts, with a statement that is cut short at the end, or without. -/
structure Segmentation where
  pieces : List Piece
  rest : Option Phrase

namespace Segmentation

def tokens (s : Segmentation) : List Token :=
  s.pieces.flatMap Piece.tokens ++ s.rest.toList.flatMap Phrase.tokens

/-- The instructions of the statements. -/
def instructions (s : Segmentation) : List Instruction := s.pieces.filterMap Piece.instruction?

/-- The words that start no statement. -/
def strays (s : Segmentation) : List Token := s.pieces.filterMap Piece.stray?

/-- **The parts make up the words**, in their order and with nothing between them. -/
structure Covers (s : Segmentation) (words : List Token) : Prop where
  whole : s.tokens = words
  proper : ∀ p ∈ s.pieces, p.IsProper
  cut : ∀ p ∈ s.rest, p.IsCut

/-- The parts with one more before them. -/
def cons (p : Piece) (s : Segmentation) : Segmentation := ⟨p :: s.pieces, s.rest⟩

theorem covers_cons {p : Piece} {s : Segmentation} {words : List Token} :
    (s.cons p).Covers words ↔ p.IsProper ∧ ∃ later, words = p.tokens ++ later ∧ s.Covers later := by
  have tokens : (s.cons p).tokens = p.tokens ++ s.tokens := by
    simp only [Segmentation.tokens, cons, List.flatMap_cons, List.append_assoc]
  constructor
  · rintro ⟨whole, proper, cut⟩
    obtain ⟨first, others⟩ := List.forall_mem_cons.1 proper
    exact ⟨first, s.tokens, whole.symm.trans tokens, rfl, others, cut⟩
  · rintro ⟨first, later, rfl, rfl, others, cut⟩
    exact ⟨tokens, List.forall_mem_cons.2 ⟨first, others⟩, cut⟩

/-- Words fall into parts. -/
theorem exists_covers (words : List Token) : ∃ s : Segmentation, s.Covers words := by
  -- a statement takes in several words at once
  induction h : words.length using Nat.strong_induction_on generalizing words with
  | _ n ih =>
    subst h
    cases words with
    | nil => exact ⟨⟨[], none⟩, rfl, by simp, by simp⟩
    | cons t later =>
      cases keyword : Opcode.ofKeyword? t.text with
      | none =>
        obtain ⟨s, hs⟩ := ih later.length (by simp) later rfl
        exact ⟨s.cons (.stray t),
          covers_cons.2 ⟨Opcode.ofKeyword?_eq_none_iff.1 keyword, later, rfl, hs⟩⟩
      | some op =>
        have opens := Opcode.ofKeyword?_eq_some_iff.1 keyword
        by_cases short : later.length < op.arity
        · refine ⟨⟨[], some ⟨op, t, later⟩⟩, ?_, by simp, ?_⟩
          · simp [Segmentation.tokens, Phrase.tokens]
          · rintro p ⟨⟩
            exact ⟨opens, short⟩
        · have fewer : (later.drop op.arity).length < (t :: later).length := by
            rw [List.length_drop, List.length_cons]
            omega
          obtain ⟨s, hs⟩ := ih _ fewer _ rfl
          refine ⟨s.cons (.statement ⟨op, t, later.take op.arity⟩),
            covers_cons.2 ⟨⟨opens, ?_⟩, _, ?_, hs⟩⟩
          · simp only [List.length_take]
            omega
          · simp [Piece.tokens, Phrase.tokens]

end Segmentation

/-- Phrases with the same first word are about the same operation. -/
theorem Phrase.Opens.opcode_eq {p q : Phrase} (hp : p.Opens) (hq : q.Opens)
    (head : p.head = q.head) : p.opcode = q.opcode := by
  rw [Opens, head] at hp
  exact Opcode.eq_of_sameLetters hp hq

/-- Where words start with a proper part, no other proper part starts them. -/
theorem Piece.IsProper.unique {p q : Piece} (hp : p.IsProper) (hq : q.IsProper)
    {later later' : List Token} (same : p.tokens ++ later = q.tokens ++ later') :
    p = q ∧ later = later' := by
  cases p with
  | stray t =>
    cases q with
    | stray u =>
      obtain ⟨rfl, rest⟩ := List.cons.inj same
      exact ⟨rfl, rest⟩
    | statement q =>
      obtain ⟨rfl, -⟩ := List.cons.inj same
      exact absurd hq.1 (by rw [Phrase.Opens, hp]; simp)
  | statement p =>
    cases q with
    | stray u =>
      obtain ⟨rfl, -⟩ := List.cons.inj same
      exact absurd hp.1 (by rw [Phrase.Opens, hq]; simp)
    | statement q =>
      obtain ⟨head, rest⟩ := List.cons.inj same
      have opcode := hp.1.opcode_eq hq.1 head
      obtain ⟨args, tail⟩ := List.append_inj rest (by rw [hp.2, hq.2, opcode])
      obtain ⟨op, t, as⟩ := p
      obtain ⟨op', t', as'⟩ := q
      dsimp only at opcode head args
      exact ⟨by rw [opcode, head, args], tail⟩

/-- A statement that is cut short starts with no proper part. -/
theorem Phrase.IsCut.ne_append {p : Phrase} (hp : p.IsCut) {q : Piece} (hq : q.IsProper)
    (later : List Token) : p.tokens ≠ q.tokens ++ later := by
  intro same
  cases q with
  | stray t =>
    obtain ⟨rfl, -⟩ := List.cons.inj same
    exact absurd hp.1 (by rw [Phrase.Opens, hq]; simp)
  | statement q =>
    obtain ⟨head, rest⟩ := List.cons.inj same
    have opcode := hp.1.opcode_eq hq.1 head
    have length : p.args.length = q.args.length + later.length := by
      rw [rest]; exact List.length_append
    have short := hp.2
    rw [length, hq.2, opcode] at short
    omega

namespace Segmentation

/-- Without proper parts, all words belong to the statement that is cut short. -/
theorem covers_nil {rest : Option Phrase} {words : List Token} (h : Covers ⟨[], rest⟩ words) :
    words = rest.toList.flatMap Phrase.tokens :=
  h.whole.symm

/-- Two ways to take words apart that both find no proper part at the start are the same. -/
theorem Covers.unique_rest {rest rest' : Option Phrase} {words : List Token}
    (h : Covers ⟨[], rest⟩ words) (h' : Covers ⟨[], rest'⟩ words) : rest = rest' := by
  have same := (covers_nil h).symm.trans (covers_nil h')
  cases rest with
  | none =>
    cases rest' with
    | none => rfl
    | some p => exact absurd same (by simp [Phrase.tokens])
  | some p =>
    cases rest' with
    | none => exact absurd same (by simp [Phrase.tokens])
    | some q =>
      simp only [Option.toList_some, List.flatMap_singleton] at same
      obtain ⟨head, args⟩ := List.cons.inj same
      have opcode := (h.cut p rfl).1.opcode_eq (h'.cut q rfl).1 head
      obtain ⟨op, t, as⟩ := p
      obtain ⟨op', t', as'⟩ := q
      dsimp only at opcode head args
      rw [opcode, head, args]

/-- Words whose first part is proper do not consist of a statement that is cut short. -/
theorem Covers.not_nil {p : Piece} {s : Segmentation} {words : List Token}
    (h : (s.cons p).Covers words) {rest : Option Phrase} : ¬ Covers ⟨[], rest⟩ words := by
  intro h'
  obtain ⟨proper, later, split, -⟩ := covers_cons.1 h
  have same := (covers_nil h').symm.trans split
  cases rest with
  | none => cases p <;> exact absurd same (by simp [Piece.tokens, Phrase.tokens])
  | some q =>
    rw [Option.toList_some, List.flatMap_singleton] at same
    exact (h'.cut q rfl).ne_append proper later same

/-- Words fall into parts in one way only. -/
theorem Covers.unique {s s' : Segmentation} {words : List Token} (h : s.Covers words)
    (h' : s'.Covers words) : s = s' := by
  obtain ⟨pieces, rest⟩ := s
  induction pieces generalizing s' words with
  | nil =>
    obtain ⟨pieces', rest'⟩ := s'
    cases pieces' with
    | nil => rw [h.unique_rest h']
    | cons q qs => exact absurd h (Covers.not_nil (s := ⟨qs, rest'⟩) h')
  | cons p ps ih =>
    obtain ⟨pieces', rest'⟩ := s'
    cases pieces' with
    | nil => exact absurd h' (Covers.not_nil (s := ⟨ps, rest⟩) h)
    | cons q qs =>
      obtain ⟨hp, later, split, inner⟩ := (covers_cons (s := ⟨ps, rest⟩)).1 h
      obtain ⟨hq, later', split', inner'⟩ := (covers_cons (s := ⟨qs, rest'⟩)).1 h'
      obtain ⟨rfl, rfl⟩ := hp.unique hq (split.symm.trans split')
      obtain ⟨rfl, rfl⟩ := Segmentation.mk.inj (ih inner' inner)
      rfl

end Segmentation

/-! ## What a pass makes of the parts -/

namespace Assembly

variable {cap : Nat} {a : Assembly}

/-- Arguments that leave a statement short are collected. -/
theorem foldl_collects {op : Opcode} {location : Location} {given : List String} {args : List Token}
    (short : given.length + args.length < op.arity) :
    args.foldl (feed cap) { a with pending := some ⟨op, location, given⟩ } =
      { a with pending := some ⟨op, location, (args.map Token.text).reverse ++ given⟩ } := by
  induction args generalizing given with
  | nil => rfl
  | cons t rest ih =>
    rw [List.length_cons] at short
    have next : feed cap { a with pending := some ⟨op, location, given⟩ } t =
        { a with pending := some ⟨op, location, t.text :: given⟩ } :=
      if_pos (by rw [List.length_cons]; dsimp only; omega)
    rw [List.foldl_cons, next, ih (by rw [List.length_cons]; omega), List.map_cons,
      List.reverse_cons, List.append_assoc, List.singleton_append]

/-- The keyword of a phrase makes its statement pending. -/
theorem feed_opens {p : Phrase} (opens : p.Opens) (idle : a.pending = none) :
    a.feed cap p.head = { a with pending := some ⟨p.opcode, p.head.location, []⟩ } := by
  unfold feed
  rw [idle]
  dsimp only
  rw [start, Opcode.ofKeyword?_eq_some_iff.2 opens]

/-- **A statement becomes an instruction.** -/
theorem foldl_whole {p : Phrase} (whole : p.IsWhole) (idle : a.pending = none) :
    p.tokens.foldl (feed cap) a = { a with done := p.instruction :: a.done } := by
  obtain ⟨opens, arity⟩ := whole
  obtain ⟨op, head, args⟩ := p
  rcases List.eq_nil_or_concat args with rfl | ⟨front, last, rfl⟩
  · exact absurd arity (Nat.ne_of_lt op.arity_pos)
  · rw [List.concat_eq_append] at arity ⊢
    dsimp only at arity
    rw [List.length_append, List.length_singleton] at arity
    rw [Phrase.tokens, List.foldl_cons, feed_opens opens idle, List.foldl_append,
      foldl_collects (by rw [List.length_nil]; dsimp only; omega), List.foldl_cons, List.foldl_nil]
    -- the last argument completes the statement
    have full : ¬ (last.text :: ((front.map Token.text).reverse ++ [])).length < op.arity := by
      rw [List.length_cons, List.append_nil, List.length_reverse, List.length_map]
      omega
    show argument _ _ _ = _
    rw [argument]
    dsimp only
    rw [if_neg full]
    simp [Phrase.instruction, idle]

/-- The warning on a word that starts no statement. -/
def strayWarning (t : Token) : Diagnostic :=
  (SyntaxIssue.unknownKeyword t.text).diagnostic t.location

/-- **A word that starts no statement is counted**, and as far as the cap allows there is a
warning. -/
theorem feed_stray {t : Token} (astray : ∀ op : Opcode, Text.sameLetters op.keyword t.text = false)
    (idle : a.pending = none) :
    a.feed cap t =
      { a with
        unknown := a.unknown + 1
        diagnostics := a.diagnostics.pushAll (([t].take (cap - a.unknown)).map strayWarning) } := by
  obtain ⟨done, pending, unknown, diagnostics⟩ := a
  obtain rfl : pending = none := idle
  show start cap _ t = _
  rw [start, Opcode.ofKeyword?_eq_none_iff.2 astray]
  by_cases room : unknown + 1 ≤ cap
  · obtain ⟨k, hk⟩ : ∃ k, cap - unknown = k + 1 := ⟨cap - unknown - 1, by omega⟩
    simp only [room, if_true, hk, List.take_succ_cons, List.take_nil, List.map_cons, List.map_nil]
    rfl
  · have none : cap - unknown = 0 := by omega
    simp only [room, if_false, none, List.take_zero, List.map_nil]
    rfl

/-- **What a pass makes of proper parts.** -/
theorem foldl_pieces {pieces : List Piece} (proper : ∀ p ∈ pieces, p.IsProper)
    (idle : a.pending = none) :
    (pieces.flatMap Piece.tokens).foldl (feed cap) a =
      { a with
        done := (pieces.filterMap Piece.instruction?).reverse ++ a.done
        unknown := a.unknown + (pieces.filterMap Piece.stray?).length
        diagnostics := a.diagnostics.pushAll
          (((pieces.filterMap Piece.stray?).take (cap - a.unknown)).map strayWarning) } := by
  induction pieces generalizing a with
  | nil => simp [Diagnostics.pushAll]
  | cons p rest ih =>
    obtain ⟨first, others⟩ := List.forall_mem_cons.1 proper
    rw [List.flatMap_cons, List.foldl_append]
    cases p with
    | statement p =>
      have instructions : (Piece.statement p :: rest).filterMap Piece.instruction? =
          p.instruction :: rest.filterMap Piece.instruction? := rfl
      have strays : (Piece.statement p :: rest).filterMap Piece.stray? =
          rest.filterMap Piece.stray? := rfl
      have after := ih (a := { a with done := p.instruction :: a.done }) others idle
      rw [Piece.tokens, foldl_whole first idle, after, instructions, strays]
      simp
    | stray t =>
      -- a warning on this word leaves room for one less
      have room : (t :: rest.filterMap Piece.stray?).take (cap - a.unknown) =
          [t].take (cap - a.unknown) ++
          (rest.filterMap Piece.stray?).take (cap - (a.unknown + 1)) := by
        rw [← List.singleton_append, List.take_append, List.length_singleton, Nat.sub_sub]
      have instructions : (Piece.stray t :: rest).filterMap Piece.instruction? =
          rest.filterMap Piece.instruction? := rfl
      have strays : (Piece.stray t :: rest).filterMap Piece.stray? =
          t :: rest.filterMap Piece.stray? := rfl
      have after := ih
        (a := { a with
          unknown := a.unknown + 1
          diagnostics := a.diagnostics.pushAll (([t].take (cap - a.unknown)).map strayWarning) })
        others idle
      rw [Piece.tokens, List.foldl_cons, List.foldl_nil, feed_stray first idle, after, instructions,
        strays, room]
      simp [Diagnostics.pushAll, Nat.add_comm 1, Nat.add_assoc]

end Assembly

/-- The statement that a phrase leaves pending. -/
def Phrase.pending (p : Phrase) : Statement :=
  ⟨p.opcode, p.head.location, (p.args.map Token.text).reverse⟩

/-- **What a pass makes of words**: the parts are there again, and some of the warnings. -/
theorem Segmentation.Covers.foldl {s : Segmentation} {words : List Token}
    (h : s.Covers words) (cap : Nat) (ds : Diagnostics) :
    words.foldl (Assembly.feed cap) { diagnostics := ds } =
      { done := s.instructions.reverse
        pending := s.rest.map Phrase.pending
        unknown := s.strays.length
        diagnostics := ds.pushAll ((s.strays.take cap).map Assembly.strayWarning) } := by
  obtain ⟨rfl, proper, cut⟩ := h
  rw [tokens, List.foldl_append, Assembly.foldl_pieces proper rfl]
  dsimp only
  rw [List.append_nil, Nat.zero_add, Nat.sub_zero]
  cases rest : s.rest with
  | none => rfl
  | some p =>
    obtain ⟨opens, short⟩ := cut p rest
    rw [Option.toList_some, List.flatMap_singleton, Phrase.tokens, List.foldl_cons,
      Assembly.feed_opens opens rfl, Assembly.foldl_collects (by rw [List.length_nil]; omega)]
    simp [Phrase.pending, instructions, strays]

/-! ## What is said about a source -/

namespace Assembly

theorem closeStatement_eq (a : Assembly) :
    a.closeStatement =
      { a with
        diagnostics := a.diagnostics.pushAll (a.pending.toList.map fun s =>
          (SyntaxIssue.truncatedStatement s.opcode s.args.length).diagnostic s.location) } := by
  obtain ⟨done, pending, unknown, diagnostics⟩ := a
  cases pending <;> rfl

theorem summarize_eq (cap : Nat) (last : Location) (a : Assembly) :
    a.summarize cap last =
      { a with
        diagnostics := a.diagnostics.pushAll (if cap < a.unknown then
          [(SyntaxIssue.unknownKeywordsSuppressed (a.unknown - cap)).diagnostic last]
        else []) } := by
  unfold summarize
  split <;> rfl

end Assembly

theorem largeInput_eq (tokens : List Token) (limits : Limits) :
    largeInput tokens limits = ({} : Diagnostics).pushAll
      (if limits.performanceWarningTokens < tokens.length then
        [(SyntaxIssue.largeInput tokens.length limits.performanceWarningTokens).diagnostic
          ((tokens.head?.map (·.location)).getD {})] else []) := by
  unfold largeInput
  dsimp only
  split <;> rfl

namespace Segmentation

/-- **The warnings on a token list in parts**: that it is long, on the words that start no statement
up to the cap, on a statement that is cut short, and how many words are beyond the cap. -/
def warnings (s : Segmentation) (tokens : List Token) (limits : Limits) : List Diagnostic :=
  let cap := limits.maxUnknownKeywordWarnings
  let first := (tokens.head?.map (·.location)).getD {}
  let last := (tokens.getLast?.map (·.location)).getD {}
  (if limits.performanceWarningTokens < tokens.length then
    [(SyntaxIssue.largeInput tokens.length limits.performanceWarningTokens).diagnostic first]
  else []) ++
  (s.strays.take cap).map (fun t => (SyntaxIssue.unknownKeyword t.text).diagnostic t.location) ++
  s.rest.toList.map (fun p =>
    (SyntaxIssue.truncatedStatement p.opcode p.args.length).diagnostic p.head.location) ++
  (if cap < s.strays.length then
    [(SyntaxIssue.unknownKeywordsSuppressed (s.strays.length - cap)).diagnostic last] else [])

theorem severity_of_mem_warnings {s : Segmentation} {tokens : List Token} {limits : Limits}
    {d : Diagnostic} (h : d ∈ s.warnings tokens limits) : d.severity = .warning := by
  simp only [warnings, List.mem_append, List.mem_map] at h
  rcases h with ((h | ⟨t, -, rfl⟩) | ⟨p, -, rfl⟩) | h
  · split at h
    · rw [List.mem_singleton.1 h]
      rfl
    · exact absurd h List.not_mem_nil
  · rfl
  · rfl
  · split at h
    · rw [List.mem_singleton.1 h]
      rfl
    · exact absurd h List.not_mem_nil

/-- **What parsing gives is what the parts say.** -/
theorem Covers.parseWithin {s : Segmentation} {tokens : List Token}
    (h : s.Covers (tokens.filter fun t => !t.isPunctuation)) {limit : Nat}
    (enough : tokens.length ≤ limit) (limits : Limits) :
    parseWithin limit tokens limits =
      ⟨s.instructions, ({} : Diagnostics).pushAll (s.warnings tokens limits)⟩ := by
  rw [parseWithin_eq enough, h.foldl, Assembly.closeStatement_eq, Assembly.summarize_eq,
    largeInput_eq]
  dsimp only
  rw [List.reverse_reverse, warnings]
  simp only [Diagnostics.pushAll, List.foldl_append, Option.toList_map, List.map_map]
  congr 4
  funext p
  simp [Phrase.pending]

end Segmentation

/-- **Assembling statements finds no errors**, only warnings. -/
theorem errors_parse (tokens : List Token) (limits : Limits) :
    (parse tokens limits).diagnostics.errors = #[] := by
  obtain ⟨s, hs⟩ := Segmentation.exists_covers (tokens.filter fun t => !t.isPunctuation)
  rw [parse, hs.parseWithin (length_le_turnLimit tokens), ← Array.toList_eq_nil_iff,
    Diagnostics.errors_pushAll, List.append_eq_nil_iff]
  refine ⟨rfl, List.filter_eq_nil_iff.2 fun d hd => ?_⟩
  simp [Segmentation.severity_of_mem_warnings hd]

/-- **No word is lost.** Without punctuation a token list falls into statements, words that are no
keyword, and possibly a last statement that is cut short, in exactly one way. Parsing gives the
instruction of each statement in order, with the tokens behind the keyword as arguments and at the
place of the keyword; it warns of each other word up to the cap, with a count of those beyond it, of
the last statement if it is cut short, and of a list above the threshold; it says nothing else and
finds no error; and its ceiling is never reached, since any other that allows a turn for each token
would give the same. -/
theorem parse_conserves_words (tokens : List Token) (limits : Limits) :
    ∃ s : Segmentation, s.Covers (tokens.filter fun t => !t.isPunctuation) ∧
      (∀ s' : Segmentation, s'.Covers (tokens.filter fun t => !t.isPunctuation) → s' = s) ∧
      (parse tokens limits).instructions = s.instructions ∧
      (parse tokens limits).diagnostics.errors = #[] ∧
      (parse tokens limits).diagnostics.warnings.toList = s.warnings tokens limits ∧
      ∀ limit, tokens.length ≤ limit → parseWithin limit tokens limits = parse tokens limits := by
  obtain ⟨s, hs⟩ := Segmentation.exists_covers (tokens.filter fun t => !t.isPunctuation)
  have parsed := hs.parseWithin (length_le_turnLimit tokens) limits
  refine ⟨s, hs, fun s' hs' => hs'.unique hs, ?_, errors_parse tokens limits,
    ?_, fun limit enough => ?_⟩
  · rw [parse, parsed]
  · rw [parse, parsed, Diagnostics.warnings_pushAll, List.filter_eq_self.2]
    · rfl
    · intro d hd
      simp [Segmentation.severity_of_mem_warnings hd]
  · rw [parse, parsed, hs.parseWithin enough]

/-! ## Compilations -/

/-- Parsing never stops a compilation. -/
theorem Compilation.ofTokens_eq (stream : Token.Stream) (source : String) (limits : Limits) :
    ofTokens stream source limits =
      if stream.diagnostics.hasFatal then { diagnostics := stream.diagnostics }
      else
        let parsed := parse stream.tokens limits
        let nodes := Node.ofInstructions parsed.instructions source
        let report := check nodes limits.toCheckOptions
        let diagnostics := (stream.diagnostics.extend parsed.diagnostics).extend report.diagnostics
        if diagnostics.hasErrors then { nodes, types := report.types, diagnostics }
        else
          { success := true, program := ⟨parsed.instructions⟩, nodes, types := report.types,
            diagnostics, digest := some (Program.digest ⟨parsed.instructions⟩) } := by
  have same : (stream.diagnostics.extend (parse stream.tokens limits).diagnostics).hasFatal =
      stream.diagnostics.hasFatal := by
    simp only [Diagnostics.hasFatal, Diagnostics.extend, errors_parse, Array.append_empty]
  unfold ofTokens
  dsimp only
  rw [same]
  split
  · rfl
  · rfl

end GovernedQuantum
