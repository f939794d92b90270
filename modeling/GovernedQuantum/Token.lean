import GovernedQuantum.Limits
import GovernedQuantum.SyntaxIssue
import GovernedQuantum.Text.Lines
import GovernedQuantum.Text.Utf8

/-!
# Tokens

A source text is read line by line. A line is a sequence of words, punctuation marks and quoted
strings, with blanks between them where they would touch; `#` or `//` outside a string ends the
line, even inside a word. A string keeps its quotes and stays on its line: one that is not closed
takes the rest of the line with it and is reported at its opening quote.

* `Token.scanLine` reads one line in a single pass, which is either between or inside words, or
  inside a string.
* `Token.tokenize` and `Token.tokenizeBytes` read a whole source.
-/

namespace GovernedQuantum

structure Token where
  text : String
  location : Location
deriving DecidableEq, Repr

namespace Token

/-- Marks that are tokens of their own and that statements skip. -/
def punctuation : List Char := ['(', ')', '\x7b', '\x7d', '[', ']', ',', ';']

def isPunctuation (t : Token) : Bool :=
  match t.text.toList with
  | [c] => punctuation.contains c
  | _ => false

/-- What a pass over a line stands in: a word, possibly still empty, or a string. The characters
read are kept backwards, with the column of the first. -/
inductive Scan where
  | word (start : Nat) (chars : List Char)
  | quoted (start : Nat) (chars : List Char)
deriving DecidableEq, Repr

/-- Tokens of a line, last one first, and the column of a string left open. -/
structure LineScan where
  tokens : List Token
  openString : Option Nat
deriving DecidableEq, Repr

/-- Ends a word: one that is empty leaves no token. -/
def closeWord (line start : Nat) (chars : List Char) (done : List Token) : List Token :=
  if chars.isEmpty then done else ⟨String.ofList chars.reverse, ⟨line, start⟩⟩ :: done

/-- Reads a line from column `column` on, `done` being the tokens before it, last one first. -/
def scanFrom (line : Nat) (scan : Scan) (done : List Token) (column : Nat) : List Char → LineScan
  | [] =>
    match scan with
    | .word start chars => ⟨closeWord line start chars done, none⟩
    | .quoted start _ => ⟨done, some start⟩
  | c :: rest =>
    match scan with
    | .quoted start chars =>
      if c = '"' then
        let token : Token := ⟨String.ofList (c :: chars).reverse, ⟨line, start⟩⟩
        scanFrom line (.word 0 []) (token :: done) (column + 1) rest
      else scanFrom line (.quoted start (c :: chars)) done (column + 1) rest
    | .word start chars =>
      if c = '#' || (c = '/' && rest.head? = some '/') then ⟨closeWord line start chars done, none⟩
      else if c = '"' then
        scanFrom line (.quoted column [c]) (closeWord line start chars done) (column + 1) rest
      else if Text.isBlank c then
        scanFrom line (.word 0 []) (closeWord line start chars done) (column + 1) rest
      else if punctuation.contains c then
        let mark : Token := ⟨String.ofList [c], ⟨line, column⟩⟩
        scanFrom line (.word 0 []) (mark :: closeWord line start chars done) (column + 1) rest
      else
        let start := if chars.isEmpty then column else start
        scanFrom line (.word start (c :: chars)) done (column + 1) rest

/-- The tokens of line number `line`, last one first. -/
def scanLine (line : Nat) (chars : List Char) : LineScan := scanFrom line (.word 0 []) [] 1 chars

/-- What tokenizing a source gives. -/
structure Stream where
  tokens : List Token := []
  diagnostics : Diagnostics := {}
deriving Repr

/-- A source that is refused as a whole. -/
def Stream.refused (issue : SyntaxIssue) (location : Location) : Stream :=
  ⟨[], ({} : Diagnostics).push (issue.diagnostic location)⟩

/-- Scans the lines from number `n` on; `done` holds the tokens before them, last one first. -/
def scanLines (n : Nat) (done : List Token) (found : Diagnostics) : List (List Char) → Stream
  | [] => ⟨done.reverse, found⟩
  | line :: rest =>
    let scan := scanLine n line
    let found :=
      match scan.openString with
      | some column => found.push (SyntaxIssue.unterminatedString.diagnostic ⟨n, column⟩)
      | none => found
    scanLines (n + 1) (scan.tokens ++ done) found rest

/-- The tokens of a source text. -/
def tokenize (source : String) (limits : Limits) : Stream :=
  if limits.maxSourceBytes < source.utf8ByteSize then
    .refused (.sourceTooLarge source.utf8ByteSize limits.maxSourceBytes) {}
  else if source.toList.all Text.isBlank then .refused .emptySource ⟨1, 1⟩
  else scanLines 1 [] {} (Text.lines source.toList)

/-- The tokens of a source given as bytes, which must be UTF-8. -/
def tokenizeBytes (bytes : List UInt8) (limits : Limits) : Stream :=
  if limits.maxSourceBytes < bytes.length then
    .refused (.sourceTooLarge bytes.length limits.maxSourceBytes) {}
  else
    match Text.decodeUtf8 bytes with
    | .ok source => tokenize source limits
    | .error defect => .refused (.notText defect.validUpTo) {}

end Token

end GovernedQuantum
