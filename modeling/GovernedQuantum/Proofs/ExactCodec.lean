import GovernedQuantum.Proofs.Bytecode
import Mathlib.Algebra.Ring.Parity

/-!
# Exactly what is read back

Arguments are written as they are, so a program with arguments of any kind has a text, and that text
may well be read as another program: two arguments with a quote in each can fuse into one, and one
with a blank falls apart. This file draws the line. What a reader makes of a line are fields, and a
field is known by its quotes alone: there is an even number of them, and an odd number before every
blank.

* `Text.Sealed`: a text that is one field, said by counting quotes. `Text.isField_iff_sealed`: it is
  the text that a reader leaves in one piece.
* `Text.Spaced`: the fields of a line. `spaced_of_fieldsFrom`: what a reader finds in a line are its
  fields.
* `Program.isWritable_of_decode`: **whatever the text, what is read from it can be written.**
* `Program.round_trip_iff`: **exactly the programs of sealed arguments are read back**, and no two
  of them have the same text.
-/

namespace GovernedQuantum

/-! ## Counting quotes -/

namespace Text

/-- **A text that is one field of a line**: it is not empty, it does not end the line, its quotes
come in pairs, and every blank stands inside a pair. -/
structure Sealed (cs : List Char) : Prop where
  ne : cs ≠ []
  noFeed : '\n' ∉ cs
  closed : Even (cs.count '"')
  inside : ∀ front c rest, cs = front ++ c :: rest → isBlank c = true → Odd (front.count '"')

/-- The places of a text are its first one and those behind it. -/
theorem forall_place_cons {P : List Char → Char → Prop} {d : Char} {cs : List Char} :
    (∀ front c rest, d :: cs = front ++ c :: rest → P front c) ↔
      P [] d ∧ ∀ front c rest, cs = front ++ c :: rest → P (d :: front) c := by
  constructor
  · intro h
    exact ⟨h [] d cs rfl,
      fun front c rest he => h (d :: front) c rest (by rw [he, List.cons_append])⟩
  · rintro ⟨first, others⟩ front c rest he
    cases front with
    | nil =>
      obtain ⟨rfl, -⟩ := List.cons.inj he
      exact first
    | cons e front =>
      obtain ⟨rfl, tail⟩ := List.cons.inj he
      exact others front c rest tail

/-- A text stays in one piece by its quotes; one more counts where the text starts between
quotes. -/
theorem holds_iff {quoted : Bool} {cs : List Char} :
    holds quoted cs = true ↔
      '\n' ∉ cs ∧ Even (cs.count '"' + quoted.toNat) ∧
        ∀ front c rest, cs = front ++ c :: rest → isBlank c = true →
          Odd (front.count '"' + quoted.toNat) := by
  induction cs generalizing quoted with
  | nil => cases quoted <;> simp [holds]
  | cons d cs ih =>
    rw [forall_place_cons
      (P := fun front c => isBlank c = true → Odd (front.count '"' + quoted.toNat))]
    by_cases hd : d = '"'
    · subst hd
      -- behind the quote the text starts on the other side, and all counts are one higher
      have even (n : Nat) : Even (n + 1 + quoted.toNat) ↔ Even (n + (!quoted).toNat) := by
        cases quoted with
        | false => exact Iff.rfl
        | true => simp [Nat.even_add_one]
      have odd (n : Nat) : Odd (n + 1 + quoted.toNat) ↔ Odd (n + (!quoted).toNat) := by
        rw [← Nat.not_even_iff_odd, ← Nat.not_even_iff_odd, even]
      have blank : isBlank '"' = true ↔ False := by decide
      simp only [holds_quote, ih, List.mem_cons, List.count_cons_self, even, odd, blank,
        false_imp_iff, true_and, not_or]
      exact ⟨fun h => ⟨⟨by decide, h.1⟩, h.2⟩, fun h => ⟨h.1.2, h.2⟩⟩
    · have first : (quoted = true ∨ isBlank d = false) ↔
          (isBlank d = true → Odd (0 + quoted.toNat)) := by
        cases quoted <;> simp
      simp only [holds_cons_of_ne hd, ih, List.mem_cons, List.count_cons_of_ne hd,
        List.count_nil, first, not_or, ne_comm (a := '\n')]
      constructor
      · rintro ⟨here, feed, noFeed, closed, inside⟩
        exact ⟨⟨feed, noFeed⟩, closed, here, inside⟩
      · rintro ⟨⟨feed, noFeed⟩, closed, here, inside⟩
        exact ⟨here, feed, noFeed, closed, inside⟩

/-- **Fields are the sealed texts.** -/
theorem isField_iff_sealed {cs : List Char} : IsField cs ↔ Sealed cs := by
  rw [IsField, holds_iff, Bool.toNat_false]
  exact ⟨fun ⟨ne, noFeed, closed, inside⟩ => ⟨ne, noFeed, closed, inside⟩,
    fun h => ⟨h.ne, h.noFeed, h.closed, h.inside⟩⟩

instance (cs : List Char) : Decidable (Sealed cs) := decidable_of_iff _ isField_iff_sealed

/-! ## What a reader makes of a line -/

/-- An unfinished field, backwards: whatever completes it from where it stands makes it one
piece. -/
def Opens (quoted : Bool) (field : List Char) : Prop :=
  ∀ rest, holds quoted rest = true → holds false (field.reverse ++ rest) = true

theorem opens_nil : Opens false [] := fun _ h => h

theorem Opens.quote {quoted : Bool} {field : List Char} (h : Opens quoted field) :
    Opens (!quoted) ('"' :: field) := by
  intro rest hr
  rw [List.reverse_cons, List.append_assoc, List.singleton_append]
  exact h _ (by rwa [holds_quote])

theorem Opens.char {quoted : Bool} {field : List Char} (h : Opens quoted field) {c : Char}
    (hq : c ≠ '"') (hn : c ≠ '\n') (stays : (isBlank c && !quoted) = false) :
    Opens quoted (c :: field) := by
  intro rest hr
  rw [List.reverse_cons, List.append_assoc, List.singleton_append]
  refine h _ ((holds_cons_of_ne hq quoted rest).2 ⟨?_, hn, hr⟩)
  cases quoted with
  | true => exact .inl rfl
  | false => exact .inr (by simpa using stays)

/-- **The fields of a line**, with any number of blanks around them and at least one between any
two. -/
inductive Spaced : List Char → List String → Prop
  | finish : Spaced [] []
  | blank {c : Char} {cs : List Char} {fields : List String} :
      isBlank c = true → Spaced cs fields → Spaced (c :: cs) fields
  | field {word : String} {rest : List Char} {fields : List String} :
      Sealed word.toList → (∀ c ∈ rest.head?, isBlank c = true) → Spaced rest fields →
      Spaced (word.toList ++ rest) (word :: fields)

theorem Opens.sealed {field : List Char} (h : Opens false field) (ne : field ≠ []) :
    Sealed (String.ofList field.reverse).toList := by
  rw [String.toList_ofList]
  refine isField_iff_sealed.1 ⟨by simpa using ne, ?_⟩
  simpa using h [] rfl

theorem Spaced.isField {cs : List Char} {fields : List String} (h : Spaced cs fields) :
    ∀ a ∈ fields, IsField a.toList := by
  induction h with
  | finish => exact List.forall_mem_nil _
  | blank _ _ ih => exact ih
  | field whole _ _ ih => exact List.forall_mem_cons.2 ⟨isField_iff_sealed.2 whole, ih⟩

end Text

open Text (Spaced)

/-- **What is found are the fields of the line.** The unfinished field is still in front of what is
to come, so that the two are a line together. -/
theorem spaced_of_fieldsFrom {cs : List Char} (noFeed : '\n' ∉ cs) {quoted : Bool}
    {field : List Char} (opens : Text.Opens quoted field) {done out : List String}
    (h : fieldsFrom quoted field done cs = some out) :
    ∃ fields, out = done.reverse ++ fields ∧ Spaced (field.reverse ++ cs) fields := by
  induction cs generalizing quoted field done with
  | nil =>
    cases quoted with
    | true => exact absurd h (by simp [fieldsFrom])
    | false =>
      obtain rfl := Option.some.inj h
      by_cases hf : field = []
      · subst hf
        exact ⟨[], (List.append_nil _).symm, .finish⟩
      · refine ⟨[String.ofList field.reverse], by simp [closeField, hf], ?_⟩
        have last : Spaced ((String.ofList field.reverse).toList ++ []) _ :=
          .field (opens.sealed hf) (by simp) .finish
        rwa [String.toList_ofList] at last
  | cons c cs ih =>
    rw [List.mem_cons, not_or] at noFeed
    -- a character that is taken moves from the front of the rest to the end of the field
    have moved : (c :: field).reverse ++ cs = field.reverse ++ c :: cs := by simp
    rw [fieldsFrom] at h
    split at h
    · rename_i hq
      subst hq
      rw [← moved]
      exact ih noFeed.2 opens.quote h
    · rename_i hq
      split at h
      · rename_i ends
        obtain ⟨hb, outside⟩ := Bool.and_eq_true_iff.1 ends
        obtain rfl : quoted = false := by simpa using outside
        obtain ⟨fields, rfl, spaced⟩ := ih noFeed.2 Text.opens_nil h
        by_cases hf : field = []
        · subst hf
          exact ⟨fields, rfl, .blank hb spaced⟩
        · refine ⟨String.ofList field.reverse :: fields, by simp [closeField, hf], ?_⟩
          have ended : ∀ d ∈ (c :: cs).head?, Text.isBlank d = true := by simpa using hb
          have first := Spaced.field (opens.sealed hf) ended (.blank hb spaced)
          rwa [String.toList_ofList] at first
      · rename_i stays
        rw [← moved]
        exact ih noFeed.2 (opens.char hq (Ne.symm noFeed.1) (by simpa using stays)) h

/-! ## What a reader makes of a text -/

namespace Program

theorem isWritable_of_decodeLine {n : Nat} {line : List Char} (noFeed : '\n' ∉ line)
    {i : Instruction} (h : decodeLine n line = .ok (some i)) : i.IsWritable := by
  unfold decodeLine at h
  split at h
  · exact absurd h (by simp)
  · exact absurd h (by simp)
  · rename_i word args hl
    split at h
    · exact absurd h (by simp)
    · split at h
      · rename_i op _ arity
        obtain rfl := Option.some.inj (Except.ok.inj h)
        obtain ⟨fields, rfl, spaced⟩ := spaced_of_fieldsFrom noFeed Text.opens_nil hl
        exact ⟨arity, (List.forall_mem_cons.1 spaced.isField).2⟩
      · exact absurd h (by simp)

theorem isWritable_of_decodeFrom {ls : List (List Char)} (noFeed : ∀ l ∈ ls, '\n' ∉ l) {n : Nat}
    {done : List Instruction} (hd : ∀ i ∈ done, i.IsWritable) {q : Program}
    (h : decodeFrom n done ls = .ok q) : ∀ i ∈ q.instructions, i.IsWritable := by
  induction ls generalizing n done with
  | nil =>
    obtain rfl := Except.ok.inj h
    intro i hi
    exact hd i (List.mem_reverse.1 hi)
  | cons l ls ih =>
    obtain ⟨first, others⟩ := List.forall_mem_cons.1 noFeed
    rw [decodeFrom] at h
    split at h
    · exact absurd h (by simp)
    · exact ih others hd h
    · rename_i i read
      exact ih others (List.forall_mem_cons.2 ⟨isWritable_of_decodeLine first read, hd⟩) h

/-- **Whatever is read can be written.** -/
theorem isWritable_of_decode {text : String} {q : Program} (h : decode text = .ok q) :
    ∀ i ∈ q.instructions, i.IsWritable :=
  isWritable_of_decodeFrom (fun _ hl => Text.newline_not_mem_of_mem_lines hl)
    (fun _ hi => absurd hi List.not_mem_nil) h

/-! ## The round trip -/

/-- A program whose instructions have as many arguments as they take, each of them sealed. -/
def IsSealed (p : Program) : Prop :=
  ∀ i ∈ p.instructions, i.args.length = i.opcode.arity ∧ ∀ a ∈ i.args, Text.Sealed a.toList

instance (p : Program) : Decidable p.IsSealed := inferInstanceAs (Decidable (∀ _ ∈ _, _))

theorem isSealed_iff {p : Program} : p.IsSealed ↔ ∀ i ∈ p.instructions, i.IsWritable := by
  simp only [IsSealed, Instruction.IsWritable, Text.isField_iff_sealed]

/-- Whether a program is sealed is seen from its operations and arguments. -/
theorem isSealed_congr {p q : Program} (h : p.content = q.content) : p.IsSealed ↔ q.IsSealed := by
  have seen (p : Program) : p.IsSealed ↔
      ∀ c ∈ p.content, c.2.length = c.1.arity ∧ ∀ a ∈ c.2, Text.Sealed a.toList := by
    rw [content, List.forall_mem_map]
    rfl
  rw [seen, seen, h]

theorem IsSealed.decode_encode {p : Program} (h : p.IsSealed) :
    ∃ q, decode p.encode = .ok q ∧ q.content = p.content :=
  ⟨p.numbered, Program.decode_encode (isSealed_iff.1 h), p.content_numbered⟩

/-- **The codec is exact.** The text of a program decodes to the same operations with the same
arguments if and only if the program is sealed; and two sealed programs with the same text have the
same operations and arguments. -/
theorem round_trip_iff :
    (∀ p : Program, (∃ q, decode p.encode = .ok q ∧ q.content = p.content) ↔ p.IsSealed) ∧
      ∀ p q : Program, p.IsSealed → q.IsSealed → p.encode = q.encode → p.content = q.content := by
  constructor
  · intro p
    constructor
    · rintro ⟨q, read, same⟩
      exact (isSealed_congr same).1 (isSealed_iff.2 (isWritable_of_decode read))
    · exact IsSealed.decode_encode
  · intro p q hp hq same
    obtain ⟨p', readP, sameP⟩ := hp.decode_encode
    obtain ⟨q', readQ, sameQ⟩ := hq.decode_encode
    rw [same, readQ] at readP
    rw [← sameP, ← sameQ, Except.ok.inj readP]

/-- A text with quotes in the middle, and with a carriage return and a tab between them. -/
def quotation : Program where
  instructions := [⟨.bind, ["x", "say\"\r \t\"so\"\""], {}⟩, ⟨.approve, ["x"], {}⟩]

/-- One argument too many, and each of the two opens a quote. -/
def fused : Program where
  instructions := [⟨.approve, ["a\"", "b\""], {}⟩]

/-- Quoted blanks are read back. Two halves of a quote are read as well, but as one argument. -/
theorem round_trip_iff_fused :
    quotation.IsSealed ∧ (∃ q, decode quotation.encode = .ok q ∧ q.content = quotation.content) ∧
      decode fused.encode = .ok ⟨[⟨.approve, ["a\" b\""], ⟨1, 1⟩⟩]⟩ ∧
      ¬ ∃ q, decode fused.encode = .ok q ∧ q.content = fused.content := by
  have whole : quotation.IsSealed := by decide
  have broken : ¬ fused.IsSealed := by decide
  exact ⟨whole, (round_trip_iff.1 quotation).2 whole, by decide +kernel,
    fun read => broken ((round_trip_iff.1 fused).1 read)⟩

end Program

end GovernedQuantum
