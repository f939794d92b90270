import GovernedQuantum.Check
import GovernedQuantum.Program
import GovernedQuantum.Statement

/-!
# Compiling a source

Tokens, statements, nodes, check, bytecode. Bytecode is given only when no error was found, so a
program that failed is never handed on in part; nodes and types are given also then, unless what was
found is fatal, as for input that is no text at all.
-/

namespace GovernedQuantum

/-- Everything a compilation found out. -/
structure Compilation where
  success : Bool := false
  /-- Empty unless the compilation succeeded. -/
  program : Program := {}
  nodes : List Node := []
  types : List InferredType := []
  diagnostics : Diagnostics := {}
  /-- Digest of the bytecode, where there is one. -/
  digest : Option String := none

namespace Compilation

/-- The lines of bytecode. -/
def bytecode (c : Compilation) : List String := c.program.lines

/-- Carries on from the tokens of `source`. -/
def ofTokens (stream : Token.Stream) (source : String) (limits : Limits) : Compilation :=
  if stream.diagnostics.hasFatal then { diagnostics := stream.diagnostics }
  else
    let parsed := parse stream.tokens limits
    let found := stream.diagnostics.extend parsed.diagnostics
    if found.hasFatal then { diagnostics := found }
    else
      let nodes := Node.ofInstructions parsed.instructions source
      let report := check nodes limits.toCheckOptions
      let diagnostics := found.extend report.diagnostics
      if diagnostics.hasErrors then { nodes, types := report.types, diagnostics }
      else
        let program : Program := ⟨parsed.instructions⟩
        { success := true, program, nodes, types := report.types, diagnostics,
          digest := some program.digest }

end Compilation

/-- Compiles a source text. -/
def compile (source : String) (limits : Limits) : Compilation :=
  .ofTokens (Token.tokenize source limits) source limits

/-- Compiles a source given as bytes; where they are no text there is nothing to quote from. -/
def compileBytes (bytes : List UInt8) (limits : Limits) : Compilation :=
  let source :=
    match Text.decodeUtf8 bytes with
    | .ok text => text
    | .error _ => ""
  .ofTokens (Token.tokenizeBytes bytes limits) source limits

end GovernedQuantum
