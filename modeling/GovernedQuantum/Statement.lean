import GovernedQuantum.Token
import GovernedQuantum.Instruction

/-!
# Statements

A statement is a keyword and as many words as its operation takes; punctuation between them does not
count. Assembling statements is one pass over the tokens that never fails: a word that should start
a statement and is no keyword is skipped with a warning, and so is a statement that the input cuts
short. The pass takes a turn at every token that stands outside a statement, and it has a ceiling of
turns, above all that it can need.

* `Assembly.feed` takes one word in: it starts a statement, is skipped, or is the next argument.
* `Assembly.pass` takes in a list of tokens, as long as there are turns left.
* `parse` gives the instructions of a token list, and what is to be said about it.
-/

namespace GovernedQuantum

/-- A statement whose arguments are being collected, last one first. -/
structure Statement where
  opcode : Opcode
  location : Location
  args : List String
deriving DecidableEq, Repr

/-- The state of a pass over the words of a source. -/
structure Assembly where
  /-- Finished statements, last one first. -/
  done : List Instruction := []
  pending : Option Statement := none
  /-- How many words were not recognized so far. -/
  unknown : Nat := 0
  diagnostics : Diagnostics := {}
deriving Repr

namespace Assembly

/-- A word where a statement should start. -/
def start (cap : Nat) (a : Assembly) (t : Token) : Assembly :=
  match Opcode.ofKeyword? t.text with
  | some op => { a with pending := some ⟨op, t.location, []⟩ }
  | none =>
    let unknown := a.unknown + 1
    let diagnostics :=
      if unknown ≤ cap then
        a.diagnostics.push ((SyntaxIssue.unknownKeyword t.text).diagnostic t.location)
      else a.diagnostics
    { a with unknown, diagnostics }

/-- The next argument of the pending statement, which is finished when it has all of them. -/
def argument (a : Assembly) (s : Statement) (word : String) : Assembly :=
  let args := word :: s.args
  if args.length < s.opcode.arity then { a with pending := some { s with args } }
  else { a with pending := none, done := ⟨s.opcode, args.reverse, s.location⟩ :: a.done }

/-- One word; `cap` limits the warnings on unrecognized ones. -/
def feed (cap : Nat) (a : Assembly) (t : Token) : Assembly :=
  match a.pending with
  | none => a.start cap t
  | some s => a.argument s t.text

/-- One token: punctuation is passed over. -/
def take (cap : Nat) (a : Assembly) (t : Token) : Assembly :=
  if t.isPunctuation then a else a.feed cap t

/-- The error of a pass without turns left, at the token that it does not take. -/
def giveUp (a : Assembly) (limit : Nat) (location : Location) : Assembly :=
  { a with
    diagnostics := a.diagnostics.push ((SyntaxIssue.iterationLimit limit).diagnostic location) }

/-- A pass over tokens that has `left` turns left of `limit`. Inside a statement no turns are
taken. -/
def pass (cap limit : Nat) : Nat → Assembly → List Token → Assembly
  | _, a, [] => a
  | left, a, t :: rest =>
    match a.pending, left with
    | some _, left => pass cap limit left (a.take cap t) rest
    | none, 0 => a.giveUp limit t.location
    | none, left + 1 => pass cap limit left (a.take cap t) rest

/-- The warning on a statement that the input cut short. -/
def closeStatement (a : Assembly) : Assembly :=
  match a.pending with
  | none => a
  | some s =>
    let issue := SyntaxIssue.truncatedStatement s.opcode s.args.length
    { a with diagnostics := a.diagnostics.push (issue.diagnostic s.location) }

/-- The warning that counts the unrecognized words beyond the cap. -/
def summarize (cap : Nat) (last : Location) (a : Assembly) : Assembly :=
  if cap < a.unknown then
    let issue := SyntaxIssue.unknownKeywordsSuppressed (a.unknown - cap)
    { a with diagnostics := a.diagnostics.push (issue.diagnostic last) }
  else a

end Assembly

/-- What parsing gives. -/
structure Parsed where
  instructions : List Instruction
  diagnostics : Diagnostics
deriving Repr

/-- The warning on a token list that is longer than expected. -/
def largeInput (tokens : List Token) (limits : Limits) : Diagnostics :=
  let count := tokens.length
  if limits.performanceWarningTokens < count then
    let issue := SyntaxIssue.largeInput count limits.performanceWarningTokens
    ({} : Diagnostics).push (issue.diagnostic ((tokens.head?.map (·.location)).getD {}))
  else {}

/-- The statements of a token list, assembled in at most `limit` turns. -/
def parseWithin (limit : Nat) (tokens : List Token) (limits : Limits) : Parsed :=
  let cap := limits.maxUnknownKeywordWarnings
  let start : Assembly := { diagnostics := largeInput tokens limits }
  let last := (tokens.getLast?.map (·.location)).getD {}
  let final := ((Assembly.pass cap limit limit start tokens).closeStatement).summarize cap last
  ⟨final.done.reverse, final.diagnostics⟩

/-- The ceiling of turns for so many tokens. -/
def turnLimit (tokens : Nat) : Nat := 2 * tokens + 16

/-- The statements of a token list. -/
def parse (tokens : List Token) (limits : Limits) : Parsed :=
  parseWithin (turnLimit tokens.length) tokens limits

end GovernedQuantum
