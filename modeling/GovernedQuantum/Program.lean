import GovernedQuantum.Instruction
import GovernedQuantum.Text.Lines
import GovernedQuantum.Digest.Blake3

/-!
# Programs and their bytecode

Bytecode is text with one instruction a line: the mnemonic and the arguments, separated by blanks.
Between double quotes blanks do not separate; the quotes stay part of the argument. Lines of blanks
only are skipped.

* `Program.encode` writes a program, `Program.decode` reads one.
* A line is refused for a quote that is not closed, else for its mnemonic, else for its number of
  arguments, and the first line refused is the one reported.
-/

namespace GovernedQuantum

/-- Why a line of bytecode is refused. -/
inductive DecodeError where
  | unknownOpcode (line : Nat) (token : String)
  | wrongArity (line : Nat) (opcode : Opcode) (found : Nat)
  | unterminatedQuote (line : Nat)
deriving DecidableEq, Repr

namespace DecodeError

def line : DecodeError → Nat
  | unknownOpcode n _ | wrongArity n _ _ | unterminatedQuote n => n

def message : DecodeError → String
  | unknownOpcode n token => s!"line {n}: unknown opcode '{token}'"
  | wrongArity n op found =>
    s!"line {n}: {op.mnemonic} expects {op.arity} argument(s), found {found}"
  | unterminatedQuote n => s!"line {n}: unterminated quoted argument"

/-- The start of the refused line. -/
def location (e : DecodeError) : Location := ⟨e.line, 1⟩

end DecodeError

/-- A field read backwards, put in front of the fields read so far if it is not empty. -/
def closeField (field : List Char) (fields : List String) : List String :=
  if field.isEmpty then fields else String.ofList field.reverse :: fields

/-- The fields of a line to come: `field` is the unfinished one backwards, `fields` the finished
ones, last one first. Nothing if the line ends between quotes. -/
def fieldsFrom (quoted : Bool) (field : List Char) (fields : List String) :
    List Char → Option (List String)
  | [] => if quoted then none else some (closeField field fields).reverse
  | c :: rest =>
    if c = '"' then fieldsFrom (!quoted) (c :: field) fields rest
    else if Text.isBlank c && !quoted then fieldsFrom false [] (closeField field fields) rest
    else fieldsFrom quoted (c :: field) fields rest

/-- The fields of a line, or nothing if a quote is left open. -/
def fields? (line : List Char) : Option (List String) := fieldsFrom false [] [] line

structure Program where
  instructions : List Instruction := []
deriving DecidableEq, Repr, Inhabited

namespace Program

def length (p : Program) : Nat := p.instructions.length

def lines (p : Program) : List String := p.instructions.map Instruction.line

/-- The bytecode text, every line ended by a line feed. -/
def encode (p : Program) : String := p.lines.foldl (fun s line => s ++ line ++ "\n") ""

/-- The instruction on line `n`, or nothing for a line of blanks. -/
def decodeLine (n : Nat) (line : List Char) : Except DecodeError (Option Instruction) :=
  match fields? line with
  | none => .error (.unterminatedQuote n)
  | some [] => .ok none
  | some (word :: args) =>
    match Opcode.ofMnemonic? word with
    | none => .error (.unknownOpcode n word)
    | some op =>
      if args.length = op.arity then .ok (some ⟨op, args, ⟨n, 1⟩⟩)
      else .error (.wrongArity n op args.length)

/-- Decodes the lines from number `n` on after the instructions `done`, last one first. -/
def decodeFrom (n : Nat) (done : List Instruction) : List (List Char) → Except DecodeError Program
  | [] => .ok ⟨done.reverse⟩
  | line :: rest =>
    match decodeLine n line with
    | .error e => .error e
    | .ok none => decodeFrom (n + 1) done rest
    | .ok (some i) => decodeFrom (n + 1) (i :: done) rest

def decode (text : String) : Except DecodeError Program := decodeFrom 1 [] (Text.lines text.toList)

/-- BLAKE3 digest of the bytecode text. -/
def digest (p : Program) : String := Blake3.hashText p.encode

end Program

end GovernedQuantum
