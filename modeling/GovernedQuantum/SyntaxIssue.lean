import GovernedQuantum.Opcode
import GovernedQuantum.Diagnostic

/-!
# What can be wrong with a source text
-/

namespace GovernedQuantum

inductive SyntaxIssue where
  /-- The bytes are not UTF-8. -/
  | notText (offset : Nat)
  | sourceTooLarge (size limit : Nat)
  /-- Nothing but blanks. -/
  | emptySource
  /-- A string runs to the end of its line. -/
  | unterminatedString
  /-- A word where a statement should start, and that starts none. -/
  | unknownKeyword (token : String)
  /-- Unrecognized keywords beyond those reported. -/
  | unknownKeywordsSuppressed (count : Nat)
  /-- The input ends inside a statement. -/
  | truncatedStatement (opcode : Opcode) (found : Nat)
  /-- Assembling statements has taken all the turns it may take. -/
  | iterationLimit (limit : Nat)
  | largeInput (tokens threshold : Nat)
deriving DecidableEq, Repr

namespace SyntaxIssue

def message : SyntaxIssue → String
  | notText offset => s!"input is not valid UTF-8 text (first bad byte at offset {offset})"
  | sourceTooLarge size limit => s!"source is {size} bytes, above the {limit} byte limit"
  | emptySource => "source is empty"
  | unterminatedString => "unterminated string literal"
  | unknownKeyword token => s!"unrecognized keyword '{token}'"
  | unknownKeywordsSuppressed count => s!"{count} more unrecognized keyword(s) skipped"
  | truncatedStatement op found =>
    s!"'{op.keyword}' expects {op.arity} argument(s), found {found} before end of input"
  | iterationLimit limit => s!"parser exceeded its iteration limit of {limit}"
  | largeInput tokens threshold =>
    s!"{tokens} tokens exceeds the {threshold} token performance threshold"

def category : SyntaxIssue → Category
  | largeInput _ _ => .performance
  | _ => .lexical

/-- What stops a compilation at once: input that is no text at all, and statements without end. -/
def isFatal : SyntaxIssue → Bool
  | notText _ | iterationLimit _ => true
  | _ => false

def severity : SyntaxIssue → Severity
  | notText _ | sourceTooLarge _ _ | unterminatedString | iterationLimit _ => .error
  | _ => .warning

def suggestion : SyntaxIssue → Option String
  | sourceTooLarge _ _ => some "split the program into smaller units"
  | unterminatedString => some "close the string with '\"'"
  | unknownKeyword _ => some "run `aegis opcodes` for the list of keywords"
  | _ => none

def diagnostic (issue : SyntaxIssue) (location : Location) : Diagnostic where
  severity := issue.severity
  category := issue.category
  location := location
  message := issue.message
  suggestion := issue.suggestion
  fatal := issue.isFatal

end SyntaxIssue

end GovernedQuantum
