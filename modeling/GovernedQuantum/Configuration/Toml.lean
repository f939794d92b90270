import GovernedQuantum.Number.Reading
import GovernedQuantum.Text.Lines

/-!
# Configuration files

The part of TOML that configuration files use: comments, table headers, and lines `key = value`
with numbers, truth values and strings of one line. A document is flat here: every value stands
under its full path of names.

* `Toml.parse?` reads a document, and refuses a name that is defined twice.
-/

namespace GovernedQuantum.Toml

inductive Scalar where
  | text (s : String)
  | int (n : Int)
  | float (x : Binary64)
  | bool (b : Bool)
deriving DecidableEq, Repr

/-- Names from the outermost table inwards. -/
abbrev Path := List String

structure Document where
  /-- Tables opened by a header. -/
  headers : List Path := []
  /-- Tables opened by a key with dots. -/
  dotted : List Path := []
  entries : List (Path × Scalar) := []
deriving DecidableEq, Repr, Inhabited

/-! ## Words of a line -/

def isSpace (c : Char) : Bool := c = ' ' || c = '\t'

def skipSpace (cs : List Char) : List Char := cs.dropWhile isSpace

/-- Characters that may not stand in comments and strings. -/
def isControl (c : Char) : Bool := (c.toNat < 0x20 && c ≠ '\t') || c.toNat = 0x7F

/-- Nothing is left of the line but a comment. -/
def isOver (cs : List Char) : Bool :=
  match skipSpace cs with
  | [] => true
  | '#' :: rest => !rest.any isControl
  | _ => false

def hexValue? (c : Char) : Option Nat :=
  if c.isDigit then some (c.toNat - '0'.toNat)
  else if 'a' ≤ c.toLower ∧ c.toLower ≤ 'f' then some (c.toLower.toNat - 'a'.toNat + 10)
  else none

/-- The character with a code point in hexadecimal digits. -/
def codePoint? (digits : List Char) : Option Char := do
  let values ← digits.mapM hexValue?
  let n := values.foldl (fun n d => 16 * n + d) 0
  if n.isValidChar then some (Char.ofNat n) else none

def escaped? : Char → Option Char
  | 'b' => some (Char.ofNat 8)
  | 't' => some '\t'
  | 'n' => some '\n'
  | 'f' => some (Char.ofNat 12)
  | 'r' => some '\r'
  | '"' => some '"'
  | '\\' => some '\\'
  | _ => none

/-- The rest of a string in double quotes, with what follows it. -/
def basicFrom (done : List Char) : List Char → Option (String × List Char)
  | [] => none
  | '"' :: rest => some (String.ofList done.reverse, rest)
  | '\\' :: 'u' :: a :: b :: c :: d :: rest => do
    let x ← codePoint? [a, b, c, d]
    basicFrom (x :: done) rest
  | '\\' :: 'U' :: a :: b :: c :: d :: e :: f :: g :: h :: rest => do
    let x ← codePoint? [a, b, c, d, e, f, g, h]
    basicFrom (x :: done) rest
  | '\\' :: c :: rest => do
    let x ← escaped? c
    basicFrom (x :: done) rest
  | c :: rest => if isControl c then none else basicFrom (c :: done) rest

/-- The rest of a string in single quotes, with what follows it. -/
def literalFrom (done : List Char) : List Char → Option (String × List Char)
  | [] => none
  | '\'' :: rest => some (String.ofList done.reverse, rest)
  | c :: rest => if isControl c then none else literalFrom (c :: done) rest

/-! ## Numbers -/

/-- A run of digits in which single underscores may stand between digits, without these. -/
def digitRun (isDigit : Char → Bool) : List Char → Option (List Char)
  | [] => none
  | [c] => if isDigit c then some [c] else none
  | c :: '_' :: rest => if isDigit c then (digitRun isDigit rest).map (c :: ·) else none
  | c :: rest => if isDigit c then (digitRun isDigit rest).map (c :: ·) else none

/-- Decimal digits without a leading zero. -/
def decimalRun (cs : List Char) : Option (List Char) :=
  (digitRun Char.isDigit cs).filter fun ds => ds.length = 1 || ds.head? ≠ some '0'

def splitSign : List Char → Bool × List Char
  | '-' :: rest => (true, rest)
  | '+' :: rest => (false, rest)
  | cs => (false, cs)

/-- A number in a base other than ten, after its mark. -/
def based? (base : Nat) (cs : List Char) : Option Nat := do
  let digits ← digitRun (fun c => (hexValue? c).any (· < base)) cs
  let values ← digits.mapM hexValue?
  some (values.foldl (fun n d => base * n + d) 0)

/-- An integer of 64 bits. -/
def integer? (word : List Char) : Option Int :=
  let value : Option Int :=
    match word with
    | '0' :: 'x' :: rest => (based? 16 rest).map Int.ofNat
    | '0' :: 'o' :: rest => (based? 8 rest).map Int.ofNat
    | '0' :: 'b' :: rest => (based? 2 rest).map Int.ofNat
    | _ =>
      let (negative, body) := splitSign word
      (decimalRun body).map fun ds =>
        let n : Int := Number.ofDigits ds
        if negative then -n else n
  value.filter fun n => -(Number.signedLimit : Int) ≤ n ∧ n < (Number.signedLimit : Int)

def isMark (c : Char) : Bool := c = 'e' || c = 'E'

/-- A number with a point, an exponent or both; one too large to be finite is refused. -/
def float? (word : List Char) : Option Binary64 :=
  let (negative, body) := splitSign word
  let sign := if negative then ['-'] else []
  if body = ['i', 'n', 'f'] ∨ body = ['n', 'a', 'n'] then
    Number.real? (String.ofList (sign ++ body))
  else do
    let mantissa := body.takeWhile fun c => !isMark c
    let whole := mantissa.takeWhile (· ≠ '.')
    let ds ← decimalRun whole
    let places ←
      match mantissa.dropWhile (· ≠ '.') with
      | [] => some []
      | _ :: frac => (digitRun Char.isDigit frac).map ('.' :: ·)
    let exponent ←
      match body.dropWhile fun c => !isMark c with
      | [] => some []
      | _ :: rest =>
        let (down, digits) := splitSign rest
        (digitRun Char.isDigit digits).map fun ds => 'e' :: (if down then '-' :: ds else ds)
    if places.isEmpty && exponent.isEmpty then none
    else
      (Number.real? (String.ofList (sign ++ ds ++ places ++ exponent))).filter (· ≠ .infinity)

/-! ## Lines -/

/-- A value, with what follows it. -/
def value? (cs : List Char) : Option (Scalar × List Char) :=
  match cs with
  | '"' :: rest => (basicFrom [] rest).map fun (s, rest) => (.text s, rest)
  | '\'' :: rest => (literalFrom [] rest).map fun (s, rest) => (.text s, rest)
  | _ =>
    let isWord (c : Char) : Bool := !isSpace c && c ≠ '#'
    let word := cs.takeWhile isWord
    let rest := cs.dropWhile isWord
    if word = "true".toList then some (.bool true, rest)
    else if word = "false".toList then some (.bool false, rest)
    else
      match integer? word with
      | some n => some (.int n, rest)
      | none => (float? word).map fun x => (.float x, rest)

def isBare (c : Char) : Bool := c.isAlphanum || c = '_' || c = '-'

/-- One name of a path, with what follows it. -/
def name? (cs : List Char) : Option (String × List Char) :=
  match cs with
  | '"' :: rest => basicFrom [] rest
  | '\'' :: rest => literalFrom [] rest
  | _ =>
    let word := cs.takeWhile isBare
    if word.isEmpty then none else some (String.ofList word, cs.dropWhile isBare)

/-- Names with dots between them, with what follows; `fuel` bounds their number. -/
def path? : Nat → List Char → Option (Path × List Char)
  | 0, _ => none
  | fuel + 1, cs => do
    let (name, rest) ← name? (skipSpace cs)
    match skipSpace rest with
    | '.' :: more =>
      let (names, rest) ← path? fuel more
      some (name :: names, rest)
    | rest => some ([name], rest)

inductive Line where
  | nothing
  | header (path : Path)
  | entry (path : Path) (value : Scalar)
deriving DecidableEq, Repr

def line? (cs : List Char) : Option Line :=
  if isOver cs then some .nothing
  else
    match skipSpace cs with
    | '[' :: rest => do
      let (path, rest) ← path? rest.length rest
      match rest with
      | ']' :: rest => if isOver rest then some (.header path) else none
      | _ => none
    | cs => do
      let (path, rest) ← path? cs.length cs
      match rest with
      | '=' :: rest =>
        let (value, rest) ← value? (skipSpace rest)
        if isOver rest then some (.entry path value) else none
      | _ => none

/-! ## Documents -/

namespace Document

/-- A value stands at the path or above it. -/
def isBlocked (d : Document) (path : Path) : Bool := d.entries.any fun e => e.1.isPrefixOf path

/-- A header opens the table at the path, or one below it. -/
def isAbove (d : Document) (path : Path) : Bool := d.headers.any path.isPrefixOf

def addHeader (d : Document) (path : Path) : Option Document :=
  if d.isBlocked path ∨ path ∈ d.headers ∨ path ∈ d.dotted then none
  else some { d with headers := path :: d.headers }

/-- The tables that a key with dots leads through below the table it stands in. -/
def innerTables (table key : Path) : List Path :=
  (List.range (key.length - 1)).map fun n => table ++ key.take (n + 1)

/-- A key with dots leads through no table that has a header of its own, and it ends in a table that
such keys have opened. -/
def admits (d : Document) (inner : List Path) : Bool :=
  inner.all (fun t => decide (t ∉ d.headers)) && !(inner.getLast?.any d.isAbove)

def addEntry (d : Document) (table key : Path) (value : Scalar) : Option Document :=
  let path := table ++ key
  let inner := innerTables table key
  if d.isBlocked path ∨ (d.entries.any fun e => path.isPrefixOf e.1) ∨ d.isAbove path ∨
      d.admits inner = false then none
  else
    some
      { d with
        dotted := inner.filter (fun t => !d.isAbove t) ++ d.dotted
        entries := (path, value) :: d.entries }

def find? (d : Document) (path : Path) : Option Scalar := d.entries.lookup path

/-- A table stands at the path. -/
def isTable (d : Document) (path : Path) : Bool :=
  d.headers.any path.isPrefixOf || d.entries.any fun e => path.isPrefixOf e.1 && e.1 ≠ path

end Document

/-- Reads on in the table opened last. -/
def parseFrom (table : Path) (d : Document) : List (List Char) → Option Document
  | [] => some d
  | cs :: rest =>
    match line? cs with
    | none => none
    | some .nothing => parseFrom table d rest
    | some (.header path) => (d.addHeader path).bind fun d => parseFrom path d rest
    | some (.entry key value) => (d.addEntry table key value).bind fun d => parseFrom table d rest

/-- Reads a document, with or without a byte order mark in front. -/
def parse? (text : String) : Option Document :=
  match text.toList with
  | '\ufeff' :: cs => parseFrom [] {} (Text.lines cs)
  | cs => parseFrom [] {} (Text.lines cs)

end GovernedQuantum.Toml
