import GovernedQuantum.CommandLine

/-!
# The program

Reads the files of an invocation, prints what it says and writes the file that it makes.
-/

open GovernedQuantum CommandLine

def usageText : String :=
  "Compile, check and run programs of governed quantum resources\n\n" ++
  "Usage: aegis [--config <path>] [-v]... <command>\n\n" ++
  "Commands:\n" ++
  "  compile <input> [-o <path>] [--json]\n" ++
  "  check <input> [--json]\n" ++
  "  run <input> [--approve-all | --reject-all] [--seed <number>] [--json]\n" ++
  "  tokens <input>\n" ++
  "  opcodes\n"

/-- Why the system did not read or write a file. -/
def fileError (e : IO.Error) : FileError :=
  match e with
  | .noFileOrDirectory .. => .notFound
  | .inappropriateType _ code _ => if code = 20 then .notDirectory else .isDirectory
  | e => .other (toString e)

def readFile (path : String) : IO (Except FileError (List UInt8)) := do
  try
    let bytes ← IO.FS.readBinFile path
    return .ok bytes.toList
  catch e => return .error (fileError e)

def writeFile (o : Output) : IO (Option FileError) := do
  try
    IO.FS.writeFile o.path o.text
    return none
  catch e => return some (fileError e)

def main (arguments : List String) : IO UInt32 := do
  match Invocation.parse arguments with
  | .error .usage =>
    IO.eprint usageText
    return 1
  | .error .help =>
    IO.print usageText
    return 0
  | .error .version =>
    IO.println versionText
    return 0
  | .ok i =>
    let files ← i.inputs.mapM fun path => do return (path, ← readFile path)
    let e := i.perform fun path => (files.lookup path).getD (.error .notFound)
    let unwritten ←
      match e.failure, e.output with
      | none, some o => writeFile o
      | _, _ => pure none
    let ending := e.finish unwritten
    IO.print ending.out
    IO.eprint ending.err
    return ending.exitCode.toUInt32
