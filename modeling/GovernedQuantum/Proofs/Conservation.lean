import GovernedQuantum.Proofs.Bytecode
import GovernedQuantum.Proofs.Inference
import GovernedQuantum.Proofs.Lexemes
import Mathlib.Algebra.Ring.Parity
import Mathlib.Order.Bounds.Defs

/-!
# The tokens account for the source

What is scanned of a line is all there in its tokens, at the columns they name, with nothing but
blanks between them. The scan of a line ends at a comment, at a string that is not closed, or with
the line, whichever is first; a quote is inside a string exactly if the number of quotes before it
is odd.

* `Token.Stops row k`: at the offset `k` the scan of a line cannot go on.
* `Token.Accounts`: tokens account for a stretch of a line. `Token.Reads.accounts`: **what a line
  reads as accounts for it**, up to where the scan stops.
* `Token.tokenize_eq`: a source is its lines, one after another.
* `Token.tokenize_conserves`: **the tokens of a source account for each of its lines**, and each
  string that is left open is reported once.
-/

namespace GovernedQuantum.Token

/-! ## Stretches of a line -/

/-- The column behind a token. -/
def finish (t : Token) : Nat := t.location.column + t.text.toList.length

/-- The token has the character at the offset `k` of its line. -/
def Has (t : Token) (k : Nat) : Prop := t.location.column ≤ k + 1 ∧ k + 1 < t.finish

/-- A string that is not closed takes the rest of the line. -/
def StartsUnclosed (cs : List Char) : Prop := ∃ body, cs = '"' :: body ∧ '"' ∉ body

/-- **The scan of a line stops at the offset `k`**: outside strings, a comment starts there, or a
string that is not closed. -/
def Stops (row : List Char) (k : Nat) : Prop :=
  Even ((row.take k).count '"') ∧ (StartsComment (row.drop k) ∨ StartsUnclosed (row.drop k))

/-- **Tokens account for a line** of number `n` from the offset `first` to the offset `stop`. -/
structure Accounts (n : Nat) (row : List Char) (first stop : Nat) (ts : List Token) : Prop where
  /-- The stretch is a part of the line. -/
  le : first ≤ stop
  within : stop ≤ row.length
  /-- The tokens lie on the stretch. -/
  placed : ∀ t ∈ ts, t.location.line = n ∧ first < t.location.column ∧ t.finish ≤ stop + 1
  /-- They come one after another and do not overlap. -/
  ordered : ts.Pairwise fun t u => t.location.column < u.location.column ∧
    t.finish ≤ u.location.column
  /-- Each is what the line has there. -/
  text : ∀ t ∈ ts, t.text.toList <+: row.drop (t.location.column - 1)
  /-- What belongs to no token is blank. -/
  gaps : ∀ k c, first ≤ k → k < stop → row[k]? = some c → (∀ t ∈ ts, ¬ t.Has k) →
    Text.isBlank c = true
  formed : ∀ t ∈ ts, Form t.text.toList
  /-- Words are whole: none is followed by a character that could be a part of it. -/
  whole : ∀ t ∈ ts, IsWord t.text.toList → ∀ k c, t.finish = k + 1 → k < stop →
    row[k]? = some c → ¬ IsPlain c

section Stretches

variable {n : Nat} {row : List Char} {first stop : Nat} {ts : List Token}

theorem accounts_nil (h : first ≤ row.length) : Accounts n row first first [] where
  le := le_rfl
  within := h
  placed := by simp
  ordered := .nil
  text := by simp
  gaps := fun k c le lt => absurd lt (Nat.not_lt.2 le)
  formed := by simp
  whole := by simp

/-- A blank before a stretch. -/
theorem Accounts.blank {c : Char} (h : Accounts n row (first + 1) stop ts)
    (at_ : row[first]? = some c) (blank : Text.isBlank c = true) :
    Accounts n row first stop ts where
  le := Nat.le_of_succ_le h.le
  within := h.within
  placed :=
    fun t ht => ⟨(h.placed t ht).1, Nat.lt_of_succ_lt (h.placed t ht).2.1, (h.placed t ht).2.2⟩
  ordered := h.ordered
  text := h.text
  gaps := by
    intro k d le lt hd none
    rcases Nat.eq_or_lt_of_le le with rfl | le
    · rw [at_] at hd
      rwa [← Option.some.inj hd]
    · exact h.gaps k d le lt hd none
  formed := h.formed
  whole := h.whole

/-- A token before a stretch. -/
theorem Accounts.token {cs rest : List Char} (h : Accounts n row (first + cs.length) stop ts)
    (lexeme : Lexeme rest cs) (text : row.drop first = cs ++ rest)
    (unstopped : ∀ k, first + cs.length = k → k < stop → ¬ Stops row k)
    (outside : Even ((row.take (first + cs.length)).count '"')) :
    Accounts n row first stop (⟨String.ofList cs, ⟨n, first + 1⟩⟩ :: ts) := by
  have size : 0 < cs.length := List.length_pos_iff.2 lexeme.ne_nil
  have finish : finish ⟨String.ofList cs, ⟨n, first + 1⟩⟩ = first + cs.length + 1 := by
    simp only [Token.finish, String.toList_ofList]
    omega
  have behind := h.le
  have later : row.drop (first + cs.length) = rest := by
    rw [← List.drop_drop, text, List.drop_left]
  refine ⟨by omega, h.within, List.forall_mem_cons.2 ⟨⟨rfl, by simp, by omega⟩, ?_⟩,
    List.pairwise_cons.2 ⟨?_, h.ordered⟩, List.forall_mem_cons.2 ⟨?_, h.text⟩, ?_,
    List.forall_mem_cons.2 ⟨?_, h.formed⟩, List.forall_mem_cons.2 ⟨?_, h.whole⟩⟩
  · intro t ht
    obtain ⟨hl, hc, hf⟩ := h.placed t ht
    exact ⟨hl, by omega, hf⟩
  · intro u hu
    have hc := (h.placed u hu).2.1
    rw [finish]
    dsimp only
    omega
  · rw [String.toList_ofList, Nat.add_sub_cancel, text]
    exact List.prefix_append cs rest
  · intro k c le lt hc none
    obtain ⟨mine, others⟩ := List.forall_mem_cons.1 none
    have past : first + cs.length ≤ k := by
      by_contra inside
      exact mine ⟨by dsimp only; omega, by rw [finish]; omega⟩
    exact h.gaps k c past lt hc others
  · rw [String.toList_ofList]
    exact lexeme.form
  · intro word k c hk lt hc plain
    rw [String.toList_ofList] at word
    rw [finish] at hk
    obtain rfl : first + cs.length = k := by omega
    -- the word could go on only if a comment stopped the scan
    have next : rest = c :: rest.tail := by
      rw [← later, List.drop_eq_getElem_cons (by have := h.within; omega)]
      obtain ⟨_, he⟩ := List.getElem?_eq_some_iff.1 hc
      rw [he, List.tail_cons]
    have ends := lexeme.endsWord word
    rw [next, endsWord_cons, runs_singleton, not_and_not_right] at ends
    refine unstopped _ rfl lt ⟨outside, .inl ?_⟩
    rw [later, next]
    exact ends plain

end Stretches

/-! ## Where the scan stops -/

theorem Lexeme.even_count {rest cs : List Char} (h : Lexeme rest cs) : Even (cs.count '"') := by
  cases h with
  | @mark c h =>
    rw [List.count_singleton, if_neg (by simpa using ne_quote_of_mem_punctuation h)]
    exact Even.zero
  | @string body h =>
    rw [List.count_cons_self, List.count_append, List.count_eq_zero.2 h]
    decide
  | word ne runs ends =>
    rw [List.count_eq_zero.2 fun hc => ((runs.isWord ne).2.1 _ hc).1.1 rfl]
    exact Even.zero

/-- What no comment and no string starts with does not stop a scan. -/
theorem not_stops_of_drop {row later : List Char} {k : Nat} {c : Char}
    (text : row.drop k = c :: later) (comment : ¬ StartsComment (c :: later)) (quote : c ≠ '"') :
    ¬ Stops row k := by
  rintro ⟨-, h⟩
  rw [text] at h
  rcases h with h | ⟨body, he, -⟩
  · exact comment h
  · exact quote (List.cons.inj he).1

/-- **No scan stops inside a token.** -/
theorem Lexeme.not_stops {row rest cs : List Char} {first k : Nat} (h : Lexeme rest cs)
    (text : row.drop first = cs ++ rest) (outside : Even ((row.take first).count '"'))
    (le : first ≤ k) (lt : k < first + cs.length) : ¬ Stops row k := by
  obtain ⟨j, rfl⟩ := Nat.exists_eq_add_of_le le
  have inside : j < cs.length := by omega
  have drop : row.drop (first + j) = cs.drop j ++ rest := by
    rw [← List.drop_drop, text, List.drop_append_of_le_length inside.le]
  have take : row.take (first + j) = row.take first ++ cs.take j := by
    rw [List.take_add, text, List.take_append_of_le_length inside.le]
  cases h with
  | mark h =>
    obtain rfl : j = 0 := by simpa using inside
    exact not_stops_of_drop drop (not_startsComment_mark h _) (ne_quote_of_mem_punctuation h)
  | @string body h =>
    cases j with
    | zero =>
      -- the opening quote is followed by another one
      rintro ⟨-, stop⟩
      rw [drop] at stop
      rcases stop with comment | ⟨later, he, unclosed⟩
      · exact not_startsComment_quote _ comment
      · rw [← (List.cons.inj he).2] at unclosed
        simp at unclosed
    | succ j =>
      -- behind it, there is an odd number of quotes
      have quotes : (('"' :: (body ++ ['"'])).take (j + 1)).count '"' = 1 := by
        have short : j ≤ body.length := by
          rw [List.length_cons, List.length_append, List.length_singleton] at inside
          omega
        rw [List.take_succ_cons, List.take_append_of_le_length short, List.count_cons_self,
          List.count_eq_zero.2 fun hc => h (List.mem_of_mem_take hc)]
      rintro ⟨even, -⟩
      rw [take, List.count_append, quotes, Nat.even_add_one] at even
      exact even outside
  | word ne runs ends =>
    rw [List.drop_eq_getElem_cons inside, List.cons_append] at drop
    obtain ⟨plain, comment⟩ := runs.drop (List.drop_eq_getElem_cons inside)
    exact not_stops_of_drop drop comment plain.1

/-- **What a line reads as accounts for it**, from where it is read to where the scan stops
first. -/
theorem Reads.accounts {n column : Nat} {cs : List Char} {ts : List Token} {o : Option Nat}
    (h : Reads n column cs ts o) {row : List Char} {first : Nat} (text : row.drop first = cs)
    (le : first ≤ row.length) (place : column = first + 1)
    (outside : Even ((row.take first).count '"')) :
    ∃ stop, Accounts n row first stop ts ∧ (∀ k, first ≤ k → k < stop → ¬ Stops row k) ∧
      (Stops row stop ∨ stop = row.length) ∧ o = if row[stop]? = some '"' then some (stop + 1)
        else none := by
  have nowhere {P : Nat → Prop} (m : Nat) : ∀ k, m ≤ k → k < m → P k :=
    fun k hl hr => absurd hr (Nat.not_lt.2 hl)
  induction h generalizing first with
  | finish =>
    have ends : first = row.length := Nat.le_antisymm le (List.drop_eq_nil_iff.1 text)
    exact ⟨first, accounts_nil le, nowhere first, .inr ends, by simp [ends]⟩
  | @comment column cs h =>
    refine ⟨first, accounts_nil le, nowhere first, .inl ⟨outside, .inl (by rwa [text])⟩, ?_⟩
    rw [← List.head?_drop, text, if_neg]
    rcases h with ⟨_, rfl⟩ | ⟨_, rfl⟩ <;> simp
  | @unclosed column body h =>
    refine ⟨first, accounts_nil le, nowhere first, .inl ⟨outside, .inr ⟨body, text, h⟩⟩, ?_⟩
    rw [← List.head?_drop, text, List.head?_cons, if_pos rfl, place]
  | @blank column c cs ts o h later ih =>
    have next : row.drop (first + 1) = cs := by
      rw [← List.drop_drop, text, List.drop_one, List.tail_cons]
    have at_ : row[first]? = some c := by rw [← List.head?_drop, text, List.head?_cons]
    have lt : first < row.length := (List.getElem?_eq_some_iff.1 at_).1
    have count : (row.take (first + 1)).count '"' = (row.take first).count '"' := by
      rw [List.take_add, text, List.count_append, List.take_succ_cons, List.take_zero,
        List.count_singleton, if_neg (by simpa using ne_quote_of_isBlank h), Nat.add_zero]
    obtain ⟨stop, accounts, unstopped, stopped, ho⟩ := ih next lt (by rw [place]) (by rwa [count])
    refine ⟨stop, accounts.blank at_ h, fun k hl hr => ?_, stopped, ho⟩
    rcases Nat.eq_or_lt_of_le hl with rfl | hl
    · exact not_stops_of_drop text (not_startsComment_blank h cs) (ne_quote_of_isBlank h)
    · exact unstopped k hl hr
  | @token column cs rest ts o h later ih =>
    have next : row.drop (first + cs.length) = rest := by
      rw [← List.drop_drop, text, List.drop_left]
    have length : cs.length + rest.length = row.length - first := by
      rw [← List.length_drop, text, List.length_append]
    have outside' : Even ((row.take (first + cs.length)).count '"') := by
      rw [List.take_add, text, List.take_left, List.count_append]
      exact outside.add h.even_count
    obtain ⟨stop, accounts, unstopped, stopped, ho⟩ := ih next (by omega) (by omega) outside'
    subst place
    refine ⟨stop,
      accounts.token h text (fun k he hr => unstopped k he.le hr) outside', fun k hl hr => ?_,
      stopped, ho⟩
    by_cases inside : k < first + cs.length
    · exact h.not_stops text outside hl inside
    · exact unstopped k (Nat.not_lt.1 inside) hr

/-- The scan of a whole line. -/
theorem accounts_scanLine (n : Nat) (row : List Char) :
    ∃ stop, IsLeast {k | Stops row k ∨ k = row.length} stop ∧
      Accounts n row 0 stop (scanLine n row).tokens.reverse ∧
      (scanLine n row).openString = if row[stop]? = some '"' then some (stop + 1) else none := by
  obtain ⟨ts, o, reads⟩ := exists_reads n 1 row
  have whole : row.drop 0 = row := rfl
  obtain ⟨stop, accounts, unstopped, stopped, ho⟩ :=
    reads.accounts whole (Nat.zero_le _) rfl Even.zero
  rw [scanLine_eq_iff.2 reads, List.reverse_reverse]
  refine ⟨stop, ⟨stopped, fun k hk => ?_⟩, accounts, ho⟩
  by_contra lt
  rcases hk with hk | rfl
  · exact unstopped k (Nat.zero_le k) (Nat.not_le.1 lt) hk
  · exact lt accounts.within

/-! ## The lines of a source -/

/-- What is reported of a line. -/
def lineFindings (x : List Char × Nat) : List Diagnostic :=
  (scanLine x.2 x.1).openString.toList.map fun column =>
    SyntaxIssue.unterminatedString.diagnostic ⟨x.2, column⟩

/-- The tokens of a line, in order. -/
def lineTokens (x : List Char × Nat) : List Token := (scanLine x.2 x.1).tokens.reverse

theorem scanLines_eq (n : Nat) (done : List Token) (found : Diagnostics) (ls : List (List Char)) :
    scanLines n done found ls =
      ⟨done.reverse ++ (ls.zipIdx n).flatMap lineTokens,
        found.pushAll ((ls.zipIdx n).flatMap lineFindings)⟩ := by
  induction ls generalizing n done found with
  | nil => simp [scanLines, Diagnostics.pushAll]
  | cons row rest ih =>
    rw [scanLines, ih, List.zipIdx_cons, List.flatMap_cons, List.flatMap_cons]
    congr 1
    · rw [List.reverse_append, List.append_assoc]
      rfl
    · rw [Diagnostics.pushAll, Diagnostics.pushAll, List.foldl_append, lineFindings]
      cases (scanLine n row).openString <;> rfl

/-- **A source is its lines, one after another.** -/
theorem tokenize_eq {source : String} {limits : Limits}
    (fits : source.utf8ByteSize ≤ limits.maxSourceBytes)
    (ink : ∃ c ∈ source.toList, Text.isBlank c = false) :
    tokenize source limits =
      ⟨((Text.lines source.toList).zipIdx 1).flatMap lineTokens,
        ({} : Diagnostics).pushAll
          (((Text.lines source.toList).zipIdx 1).flatMap lineFindings)⟩ := by
  have visible : ¬ source.toList.all Text.isBlank = true := by
    obtain ⟨c, hc, blank⟩ := ink
    rw [List.all_eq_true]
    exact fun all => absurd (all c hc) (by simp [blank])
  rw [tokenize, if_neg (Nat.not_lt.2 fits), if_neg visible, scanLines_eq]
  rfl

/-- What comes of numbered items and carries their numbers can be told apart by these. -/
theorem filter_flatMap_zipIdx {α β : Type} {f : α × Nat → List β} {number : β → Nat}
    (own : ∀ x, ∀ b ∈ f x, number b = x.2) {xs : List α} {k : Nat} {x : α}
    (h : xs[k]? = some x) (n : Nat) :
    ((xs.zipIdx n).flatMap f).filter (fun b => number b = n + k) = f (x, n + k) := by
  have kept (x : α × Nat) : (f x).filter (fun b => number b = x.2) = f x :=
    List.filter_eq_self.2 fun b hb => by simp [own x b hb]
  have others {m : Nat} {xs : List (α × Nat)} (ne : ∀ x ∈ xs, x.2 ≠ m) :
      (xs.flatMap f).filter (fun b => number b = m) = [] := by
    refine List.filter_eq_nil_iff.2 fun b hb => ?_
    obtain ⟨x, hx, hb⟩ := List.mem_flatMap.1 hb
    simpa [own x b hb] using ne x hx
  induction xs generalizing k n with
  | nil => exact absurd h (by simp)
  | cons y ys ih =>
    rw [List.zipIdx_cons, List.flatMap_cons, List.filter_append]
    cases k with
    | zero =>
      obtain rfl : y = x := by simpa using h
      rw [Nat.add_zero, kept (y, n), others, List.append_nil]
      intro x hx
      have := List.le_snd_of_mem_zipIdx hx
      omega
    | succ k =>
      have before : ∀ x ∈ [(y, n)], x.2 ≠ n + (k + 1) := by simp
      have first := others before
      rw [List.flatMap_singleton] at first
      rw [first, List.nil_append, Nat.add_comm k, ← Nat.add_assoc]
      exact ih h (n + 1)

theorem line_of_mem_lineTokens {x : List Char × Nat} {t : Token} (h : t ∈ lineTokens x) :
    t.location.line = x.2 := by
  obtain ⟨stop, -, accounts, -⟩ := accounts_scanLine x.2 x.1
  exact (accounts.placed t h).1

theorem of_mem_lineFindings {x : List Char × Nat} {d : Diagnostic} (h : d ∈ lineFindings x) :
    d.location.line = x.2 ∧ d.severity = .error := by
  obtain ⟨column, -, rfl⟩ := List.mem_map.1 h
  exact ⟨rfl, rfl⟩

/-- The findings of the lines are the errors of a source, and there are no warnings. -/
theorem diagnostics_pushAll_lineFindings (xs : List (List Char × Nat)) :
    (({} : Diagnostics).pushAll (xs.flatMap lineFindings)).errors.toList = xs.flatMap lineFindings ∧
      (({} : Diagnostics).pushAll (xs.flatMap lineFindings)).warnings = #[] := by
  have errors : ∀ d ∈ xs.flatMap lineFindings, d.severity = .error := by
    intro d hd
    obtain ⟨x, -, hd⟩ := List.mem_flatMap.1 hd
    exact (of_mem_lineFindings hd).2
  constructor
  · rw [Diagnostics.errors_pushAll, List.filter_eq_self.2 fun d hd => by simp [errors d hd]]
    rfl
  · rw [← Array.toList_eq_nil_iff, Diagnostics.warnings_pushAll,
      List.filter_eq_nil_iff.2 fun d hd => by simp [errors d hd]]
    rfl

theorem line_of_mem_zipIdx {ls : List (List Char)} {x : List Char × Nat} (h : x ∈ ls.zipIdx 1) :
    ∃ k < ls.length, x.2 = k + 1 := by
  have le := List.le_snd_of_mem_zipIdx h
  have lt := List.snd_lt_of_mem_zipIdx h
  exact ⟨x.2 - 1, by omega, by omega⟩

/-- Tokens come line by line. -/
theorem pairwise_flatMap_lineTokens (ls : List (List Char)) (n : Nat) :
    ((ls.zipIdx n).flatMap lineTokens).Pairwise fun t u => t.location.line ≤ u.location.line := by
  have numbers : (ls.zipIdx n).Pairwise fun x y => x.2 < y.2 := by
    rw [← List.pairwise_map (f := Prod.snd) (R := (· < ·)), List.zipIdx_map_snd]
    exact List.pairwise_lt_range'
  rw [List.pairwise_flatMap]
  refine ⟨fun x _ => List.pairwise_of_forall_mem_list fun t ht u hu => ?_,
    numbers.imp fun lt t ht u hu => ?_⟩
  · rw [line_of_mem_lineTokens ht, line_of_mem_lineTokens hu]
  · rw [line_of_mem_lineTokens ht, line_of_mem_lineTokens hu]
    exact lt.le

/-- **Every token of a source has the form of one**, and stays on its line. -/
theorem form_of_mem_tokenize {source : String} {limits : Limits} {t : Token}
    (h : t ∈ (tokenize source limits).tokens) : Form t.text.toList ∧ '\n' ∉ t.text.toList := by
  unfold tokenize at h
  split at h
  · exact absurd h List.not_mem_nil
  split at h
  · exact absurd h List.not_mem_nil
  · rw [scanLines_eq, List.reverse_nil, List.nil_append] at h
    obtain ⟨x, hx, ht⟩ := List.mem_flatMap.1 h
    obtain ⟨stop, -, accounts, -⟩ := accounts_scanLine x.2 x.1
    have noFeed := Text.newline_not_mem_of_mem_lines (List.fst_mem_of_mem_zipIdx hx)
    refine ⟨accounts.formed t ht, fun feed => noFeed ?_⟩
    exact List.mem_of_mem_drop ((accounts.text t ht).subset feed)

/-- **The tokens account for the source.** Of each line of a source that is not blank and within the
size limit, the tokens of that number account for what is scanned, that is, for the line up to the
first place outside strings where a comment starts or a string that is not closed: they come in
order and do not overlap, each is what the line has at its column, what is between them is blank,
and each is a mark, a string or a word. If it is a string that stops the scan, this is reported
once, at its quote, and nothing else is reported of the line. There are no tokens and no errors but
those of lines, and tokens come line by line. -/
theorem tokenize_conserves {source : String} {limits : Limits}
    (fits : source.utf8ByteSize ≤ limits.maxSourceBytes)
    (ink : ∃ c ∈ source.toList, Text.isBlank c = false) :
    (∀ k row, (Text.lines source.toList)[k]? = some row →
      ∃ stop, IsLeast {j | Stops row j ∨ j = row.length} stop ∧
        Accounts (k + 1) row 0 stop
          ((tokenize source limits).tokens.filter fun t => t.location.line = k + 1) ∧
        (tokenize source limits).diagnostics.errors.toList.filter
          (fun d => d.location.line = k + 1) =
          if row[stop]? = some '"' then
            [SyntaxIssue.unterminatedString.diagnostic ⟨k + 1, stop + 1⟩]
          else []) ∧
      (tokenize source limits).tokens.Pairwise (fun t u => t.location.line ≤ u.location.line) ∧
      (∀ t ∈ (tokenize source limits).tokens, ∃ k < (Text.lines source.toList).length,
        t.location.line = k + 1) ∧
      (∀ d ∈ (tokenize source limits).diagnostics.errors,
        ∃ k < (Text.lines source.toList).length, d.location.line = k + 1) ∧
      (tokenize source limits).diagnostics.warnings = #[] := by
  rw [tokenize_eq fits ink]
  dsimp only
  generalize Text.lines source.toList = ls
  obtain ⟨errors, warnings⟩ := diagnostics_pushAll_lineFindings (ls.zipIdx 1)
  refine ⟨fun k row hk => ?_, pairwise_flatMap_lineTokens ls 1, fun t ht => ?_, fun d hd => ?_,
    warnings⟩
  · obtain ⟨stop, least, accounts, opened⟩ := accounts_scanLine (k + 1) row
    have tokens :=
      filter_flatMap_zipIdx (f := lineTokens) (fun x t ht => line_of_mem_lineTokens ht) hk 1
    have findings :=
      filter_flatMap_zipIdx (f := lineFindings) (fun x d hd => (of_mem_lineFindings hd).1) hk 1
    rw [Nat.add_comm 1 k] at tokens findings
    refine ⟨stop, least, by rwa [tokens], ?_⟩
    rw [errors, findings, lineFindings, opened]
    split <;> rfl
  · obtain ⟨x, hx, ht⟩ := List.mem_flatMap.1 ht
    rw [line_of_mem_lineTokens ht]
    exact line_of_mem_zipIdx hx
  · rw [← Array.mem_toList_iff, errors] at hd
    obtain ⟨x, hx, hd⟩ := List.mem_flatMap.1 hd
    rw [(of_mem_lineFindings hd).1]
    exact line_of_mem_zipIdx hx

/-- Tokens touch each other, slashes stand alone, and a comment and a string run to the ends of
their lines. -/
def ragged : String := "let s\"a#b\"x(/ /y)//\" end\nprint \"oops # here"

/-- The scan of the second line stops at its quote, in column 7. -/
theorem tokenize_conserves_ragged :
    ragged.utf8ByteSize ≤ ({} : Limits).maxSourceBytes ∧
    (∃ c ∈ ragged.toList, Text.isBlank c = false) ∧
      (Text.lines ragged.toList)[1]? = some "print \"oops # here".toList ∧
      (∃ stop, IsLeast {j | Stops "print \"oops # here".toList j ∨
        j = "print \"oops # here".toList.length} stop ∧
        Accounts 2 "print \"oops # here".toList 0 stop
          ((tokenize ragged {}).tokens.filter fun t => t.location.line = 2)) ∧
      (tokenize ragged {}).tokens.map Token.text =
        ["let", "s", "\"a#b\"", "x", "(", "/", "/y", ")", "print"] ∧
      (tokenize ragged {}).diagnostics.errors.map (·.location) = #[⟨2, 7⟩] := by
  have fits : ragged.utf8ByteSize ≤ ({} : Limits).maxSourceBytes := by decide +kernel
  have ink : ∃ c ∈ ragged.toList, Text.isBlank c = false := ⟨'l', by decide +kernel, by decide⟩
  have second : (Text.lines ragged.toList)[1]? = some "print \"oops # here".toList := by
    decide +kernel
  obtain ⟨stop, least, accounts, -⟩ := (tokenize_conserves fits ink).1 1 _ second
  exact ⟨fits, ink, second, ⟨stop, least, accounts⟩, by decide +kernel, by decide +kernel⟩

end GovernedQuantum.Token
