import GovernedQuantum.CommandLine.Arguments
import GovernedQuantum.CommandLine.Files
import GovernedQuantum.Configuration
import GovernedQuantum.Report.Session
import GovernedQuantum.Session.Run
import GovernedQuantum.Token

/-!
# The command line

Compile, check and run programs in files. A command reads its files, and all that it does then is
described by an **effect**: what is printed, which file is written at the end, and why it failed.

* `Invocation.perform` is the effect of an invocation, given what its files hold.
* `Effect.finish` ends an effect when the file has been written or could not be.
* `runIn` runs a command line in a directory.
-/

namespace GovernedQuantum.CommandLine

/-! ## Failures -/

inductive Failure where
  | unreadable (path : String) (error : FileError)
  | unwritable (path : String) (error : FileError)
  | unreadableConfiguration (path : String) (error : FileError)
  | configuration (path : String) (error : ConfigurationError)
  | malformedInput (reason : String)
  | rejected (errors : Nat)
  | checkFailed (errors : Nat)
  | runFailed (errors : Nat)
deriving DecidableEq, Repr

namespace Failure

def message : Failure → String
  | unreadable path error =>
    let why := error.message
    s!"cannot read '{path}': {why}"
  | unwritable path error =>
    let why := error.message
    s!"cannot write '{path}': {why}"
  | unreadableConfiguration path error =>
    let why := error.message
    s!"cannot read config '{path}': {why}"
  | configuration path .malformed =>
    let why := ConfigurationError.malformed.message
    s!"cannot parse config '{path}': {why}"
  | configuration _ error => error.message
  | malformedInput reason => s!"malformed input: {reason}"
  | rejected errors => s!"input rejected with {errors} syntax error(s)"
  | checkFailed errors => s!"check failed with {errors} error(s)"
  | runFailed errors => s!"run failed with {errors} error(s)"

def exitCode : Failure → Nat
  | checkFailed _ => 2
  | runFailed _ => 3
  | _ => 1

end Failure

/-! ## Effects -/

/-- A file to be written, and what is said when it has been. -/
structure Output where
  path : String
  text : String
  notice : String
deriving DecidableEq, Repr

structure Effect where
  out : String := ""
  err : String := ""
  output : Option Output := none
  failure : Option Failure := none
deriving DecidableEq, Repr, Inhabited

/-- What has been printed when a command is over, and how it ended. -/
structure Ending where
  out : String
  err : String
  exitCode : Nat
deriving DecidableEq, Repr

namespace Effect

def print (e : Effect) (line : String) : Effect := { e with out := e.out ++ line ++ "\n" }

def note (e : Effect) (line : String) : Effect := { e with err := e.err ++ line ++ "\n" }

def printAll (e : Effect) (lines : List String) : Effect := lines.foldl print e

def noteAll (e : Effect) (lines : List String) : Effect := lines.foldl note e

def fail (e : Effect) (f : Failure) : Effect := { e with failure := some f }

/-- Warnings first, then errors. -/
def noteDiagnostics (e : Effect) (errors warnings : List Diagnostic) : Effect :=
  e.noteAll ((warnings ++ errors).map Diagnostic.display)

/-- The end of a command, given whether its file could not be written. -/
def finish (e : Effect) (unwritten : Option FileError) : Ending :=
  let (e, failure) :=
    match e.failure, e.output, unwritten with
    | some f, _, _ => (e, some f)
    | none, some o, some error => (e, some (.unwritable o.path error))
    | none, some o, none => (e.note o.notice, none)
    | none, none, _ => (e, none)
  match failure with
  | none => ⟨e.out, e.err, 0⟩
  | some f => ⟨e.out, e.err ++ "error: " ++ f.message ++ "\n", f.exitCode⟩

end Effect

/-! ## Commands -/

/-- Extension of files that hold encoded programs. -/
def bytecodeExtension : String := "aegb"

/-- How files are read. -/
abbrev Reader := String → Except FileError (List UInt8)

/-- Why a compilation counts as failed. -/
def compilationFailure (c : Compilation) : Failure :=
  let errors := c.diagnostics.errors
  if errors.any fun d => decide (d.category = .lexical) then .rejected errors.size
  else .checkFailed errors.size

/-- What is shown of a compilation. -/
def showCompilation (c : Compilation) (json : Bool) : Effect :=
  let e : Effect := {}
  if json then e.print c.json.pretty
  else e.noteDiagnostics c.diagnostics.errors.toList c.diagnostics.warnings.toList

def compileInput (read : Reader) (input : String) (limits : Limits) : Except Failure Compilation :=
  match read input with
  | .error error => .error (.unreadable input error)
  | .ok bytes => .ok (compileBytes bytes limits)

def performCompile (read : Reader) (configuration : Configuration) (input : String)
    (output : Option String) (json : Bool) : Effect :=
  match compileInput read input configuration.compiler with
  | .error f => Effect.fail {} f
  | .ok c =>
    let e := showCompilation c json
    if c.success then
      let path := output.getD (withExtension input bytecodeExtension)
      { e with
        output :=
          some
            { path
              text := c.program.encode
              notice := s!"compiled {c.program.length} instructions -> {path}" } }
    else e.fail (compilationFailure c)

def performCheck (read : Reader) (configuration : Configuration) (input : String) (json : Bool) :
    Effect :=
  match compileInput read input configuration.compiler with
  | .error f => Effect.fail {} f
  | .ok c =>
    let e := showCompilation c json
    if !c.success then e.fail (compilationFailure c)
    else if json then e
    else e.print s!"OK: {input} ({c.program.length} instructions)"

/-- The program in a file, with the checker's types if it was compiled; or what is shown of it and
why it cannot run. -/
def loadProgram (read : Reader) (configuration : Configuration) (input : String) :
    Except Effect (Program × Option (List InferredType)) :=
  if extension? input = some bytecodeExtension then
    match read input with
    | .error error => .error (Effect.fail {} (.unreadable input error))
    | .ok bytes =>
      match Text.decodeUtf8 bytes with
      | .error defect =>
        let why := defect.message
        .error (Effect.fail {} (.malformedInput s!"bytecode is not UTF-8: {why}"))
      | .ok text =>
        match Program.decode text with
        | .error e => .error (Effect.fail {} (.malformedInput e.message))
        | .ok p => .ok (p, none)
  else
    match compileInput read input configuration.compiler with
    | .error f => .error (Effect.fail {} f)
    | .ok c =>
      if c.success then .ok (c.program, some c.types)
      else .error ((showCompilation c false).fail (compilationFailure c))

/-- How an answered request is shown. -/
def answerLine (d : Decision) (r : Request) : String :=
  let label := Request.label r.id
  let verdict :=
    match d with
    | .approve => "approved"
    | .reject => "rejected"
  s!"oversight {label} ({r.level.name}, {r.criticality.name}): {r.details} -> {verdict}"

def performRun (read : Reader) (configuration : Configuration) (input : String)
    (approveAll : Bool) (seed : Option Nat) (json : Bool) : Effect :=
  match loadProgram read configuration input with
  | .error e => e
  | .ok (program, types) =>
    let settings := configuration.session
    let settings := { settings with seed := seed.getD settings.seed }
    let decision : Decision := if approveAll then .approve else .reject
    let (asked, s) :=
      (Session.standard 1 settings).runToCompletion program types fun _ _ => decision
    let r := s.result
    let e := Effect.noteAll {} (asked.map (answerLine decision))
    let e :=
      if json then e.print r.json.pretty
      else (e.printAll r.console).noteDiagnostics r.errors r.warnings
    if r.success then e else e.fail (.runFailed r.errors.length)

def performTokens (read : Reader) (configuration : Configuration) (input : String) : Effect :=
  match read input with
  | .error error => Effect.fail {} (.unreadable input error)
  | .ok bytes =>
    let stream := Token.tokenizeBytes bytes configuration.compiler
    let ds := stream.diagnostics
    let e := Effect.noteDiagnostics {} ds.errors.toList ds.warnings.toList
    if ds.hasFatal then e.fail (.rejected ds.errors.size)
    else e.printAll (stream.tokens.map fun t => t.location.display ++ "\t" ++ t.text)

/-- A column of a table. -/
def column (width : Nat) (text : String) : String :=
  text ++ String.ofList (List.replicate (width - text.length) ' ')

def tableLine (mnemonic keyword arity group handler : String) : String :=
  column 18 mnemonic ++ " " ++ column 16 keyword ++ " " ++ column 5 arity ++ " " ++
    column 12 group ++ " " ++ handler

def performOpcodes : Effect :=
  Effect.printAll {}
    (tableLine "MNEMONIC" "KEYWORD" "ARGS" "GROUP" "HANDLER" ::
      Opcode.all.map fun op =>
        tableLine op.mnemonic op.keyword (toString op.arity) op.group.name op.handler)

/-! ## Invocations -/

/-- The configuration that an invocation names. -/
def loadConfiguration (read : Reader) : Option String → Except Failure Configuration
  | none => .ok {}
  | some path =>
    match read path with
    | .error error => .error (.unreadableConfiguration path error)
    | .ok bytes =>
      match Text.decodeUtf8 bytes with
      | .error _ => .error (.unreadableConfiguration path .notText)
      | .ok text =>
        match Configuration.read text with
        | .error e => .error (.configuration path e)
        | .ok c => .ok c

def Command.perform (read : Reader) (configuration : Configuration) : Command → Effect
  | .compile input output json => performCompile read configuration input output json
  | .check input json => performCheck read configuration input json
  | .run input approveAll seed json => performRun read configuration input approveAll seed json
  | .tokens input => performTokens read configuration input
  | .opcodes => performOpcodes

def Command.input? : Command → Option String
  | .compile input .. | .check input _ | .run input .. | .tokens input => some input
  | .opcodes => none

/-- The files that an invocation reads. -/
def Invocation.inputs (i : Invocation) : List String := i.config.toList ++ i.command.input?.toList

def Invocation.perform (i : Invocation) (read : Reader) : Effect :=
  match loadConfiguration read i.config with
  | .error f => Effect.fail {} f
  | .ok c => i.command.perform read c

/-- What is printed on a call for the version. -/
def versionText : String := "aegis 0.1.0"

/-- Runs an invocation in a directory: how it ends, and the directory then. -/
def Invocation.runIn (i : Invocation) (d : Directory) : Ending × Directory :=
  let e := i.perform d.read
  match e.failure, e.output with
  | none, some o =>
    match d.write o.path o.text.toUTF8.data.toList with
    | .ok d => (e.finish none, d)
    | .error error => (e.finish (some error), d)
  | _, _ => (e.finish none, d)

end GovernedQuantum.CommandLine
