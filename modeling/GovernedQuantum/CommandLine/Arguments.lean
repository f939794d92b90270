import GovernedQuantum.Number.Reading

/-!
# Arguments of the command line

Options stand before or after the command, long ones with `--`, short ones with `-` and several of
these in one word; a value follows in the same word or in the next. Arguments are taken from left
to right, and a value in a word of its own is looked at when the next argument comes. So a call for
help is granted if everything before it is sound, whatever is still missing.

* `Invocation.parse` reads the arguments, or tells why nothing is to be done.
-/

namespace GovernedQuantum.CommandLine

/-! ## What can be asked -/

/-- What the program is to do. -/
inductive Command where
  | compile (input : String) (output : Option String) (json : Bool)
  | check (input : String) (json : Bool)
  | run (input : String) (approveAll : Bool) (seed : Option Nat) (json : Bool)
  | tokens (input : String)
  | opcodes
deriving DecidableEq, Repr

structure Invocation where
  /-- Path of a configuration file. -/
  config : Option String
  command : Command
deriving DecidableEq, Repr

/-- Why nothing is to be done. -/
inductive Refusal where
  | help
  | version
  /-- The arguments make no sense. -/
  | usage
deriving DecidableEq, Repr

def Refusal.exitCode : Refusal → Nat
  | help | version => 0
  | usage => 1

/-! ## Options -/

inductive Switch where
  | config | verbose | help | version | output | json | approveAll | rejectAll | seed
deriving DecidableEq, Repr

namespace Switch

def long : Switch → String
  | config => "config"
  | verbose => "verbose"
  | help => "help"
  | version => "version"
  | output => "output"
  | json => "json"
  | approveAll => "approve-all"
  | rejectAll => "reject-all"
  | seed => "seed"

def short? : Switch → Option Char
  | verbose => some 'v'
  | help => some 'h'
  | version => some 'V'
  | output => some 'o'
  | _ => none

def takesValue : Switch → Bool
  | config | output | seed => true
  | _ => false

/-- Paths are not empty, and a seed is a number of 64 bits. -/
def accepts (s : Switch) (value : String) : Bool :=
  match s with
  | config | output => !value.isEmpty
  | seed => (Number.unsigned? Number.maxWord64 value).isSome
  | _ => false

end Switch

/-- A place where arguments stand: before the command, or behind it. -/
inductive Scope where
  | program | compile | check | run | tokens | opcodes
deriving DecidableEq, Repr

namespace Scope

/-- The scopes behind a command, by its name. -/
def commands : List (String × Scope) :=
  [("compile", compile), ("check", check), ("run", run), ("tokens", tokens), ("opcodes", opcodes)]

def switches : Scope → List Switch
  | program => [.config, .verbose, .help, .version]
  | compile => [.config, .verbose, .help, .output, .json]
  | check => [.config, .verbose, .help, .json]
  | run => [.config, .verbose, .help, .approveAll, .rejectAll, .seed, .json]
  | tokens | opcodes => [.config, .verbose, .help]

/-- A file is named behind the command. -/
def takesInput : Scope → Bool
  | compile | check | run | tokens => true
  | program | opcodes => false

def long? (scope : Scope) (name : String) : Option Switch :=
  scope.switches.find? (·.long == name)

def short? (scope : Scope) (c : Char) : Option Switch :=
  scope.switches.find? (·.short? == some c)

end Scope

/-! ## Reading one scope -/

/-- An argument that has been seen but not yet looked at. -/
inductive Pending where
  | none
  /-- An option whose value has not come. -/
  | awaiting (s : Switch)
  | value (s : Switch) (text : String)
  | input (path : String)
deriving DecidableEq, Repr

/-- What the arguments of a scope have given so far. -/
structure Given where
  flags : List Switch := []
  values : List (Switch × String) := []
  input : Option String := Option.none
  pending : Pending := .none
  /-- The options are over. -/
  closed : Bool := false
deriving DecidableEq, Repr, Inhabited

namespace Given

def value? (g : Given) (s : Switch) : Option String := g.values.lookup s

/-- The last option still needs its value. -/
def isAwaiting (g : Given) : Bool :=
  match g.pending with
  | .awaiting _ => true
  | _ => false

/-- Takes a value; no option has two. -/
def take (g : Given) (s : Switch) (text : String) : Except Refusal Given :=
  if (g.value? s).isSome ∨ s.accepts text = false then .error .usage
  else .ok { g with values := (s, text) :: g.values }

/-- Looks at the argument that is pending. -/
def resolve (g : Given) : Except Refusal Given :=
  match g.pending with
  | .none => .ok g
  | .awaiting _ => .error .usage
  | .value s text => { g with pending := .none }.take s text
  | .input path =>
    if path.isEmpty then .error .usage
    else .ok { g with pending := .none, input := some path }

/-- Takes an option without a value; only `verbose` may be repeated. -/
def raise (g : Given) (s : Switch) : Except Refusal Given := do
  let g ← g.resolve
  match s with
  | .help => .error .help
  | .version => .error .version
  | .verbose => .ok g
  | _ => if s ∈ g.flags then .error .usage else .ok { g with flags := s :: g.flags }

def await (g : Given) (s : Switch) : Except Refusal Given := do
  let g ← g.resolve
  .ok { g with pending := .awaiting s }

def attach (g : Given) (s : Switch) (text : String) : Except Refusal Given := do
  let g ← g.resolve
  g.take s text

/-- A long option, the text behind its dashes. -/
def longOption (g : Given) (scope : Scope) (body : List Char) : Except Refusal Given :=
  let name := body.takeWhile (· ≠ '=')
  match scope.long? (String.ofList name), body.dropWhile (· ≠ '=') with
  | none, _ => .error .usage
  | some s, [] => if s.takesValue then g.await s else g.raise s
  | some s, _ :: text => if s.takesValue then g.attach s (String.ofList text) else .error .usage

/-- Short options, the text behind their dash. -/
def shortOptions (scope : Scope) : List Char → Given → Except Refusal Given
  | [], g => .ok g
  | c :: rest, g =>
    match scope.short? c with
    | none => .error .usage
    | some s =>
      if s.takesValue then
        match rest with
        | [] => g.await s
        | '=' :: text => g.attach s (String.ofList text)
        | text => g.attach s (String.ofList text)
      else do shortOptions scope rest (← g.raise s)

/-- A word that is no option: a value that is awaited, or the input. -/
def word (g : Given) (scope : Scope) (text : String) : Except Refusal Given :=
  match g.pending with
  | .awaiting s =>
    if g.closed then .error .usage else .ok { g with pending := .value s text }
  | .input _ => .error .usage
  | _ =>
    if scope.takesInput && g.input.isNone then do
      let g ← g.resolve
      .ok { g with pending := .input text }
    else .error .usage

/-- One argument. -/
def argument (g : Given) (scope : Scope) (text : String) : Except Refusal Given :=
  if g.closed then g.word scope text
  else
    match text.toList with
    | ['-', '-'] => .ok { g with closed := true }
    | '-' :: '-' :: body => g.longOption scope body
    | '-' :: c :: rest => shortOptions scope (c :: rest) g
    | _ => g.word scope text

def arguments (scope : Scope) : List String → Given → Except Refusal Given
  | [], g => g.resolve
  | text :: rest, g => do arguments scope rest (← g.argument scope text)

def flag (g : Given) (s : Switch) : Bool := decide (s ∈ g.flags)

end Given

/-! ## Commands -/

/-- The command of a scope with what was given behind it. -/
def Command.ofGiven (scope : Scope) (g : Given) : Except Refusal Command :=
  match scope, g.input with
  | .opcodes, _ => .ok .opcodes
  | .compile, some input => .ok (.compile input (g.value? .output) (g.flag .json))
  | .check, some input => .ok (.check input (g.flag .json))
  | .run, some input =>
    if g.flag .approveAll && g.flag .rejectAll then .error .usage
    else
      let seed := (g.value? .seed).bind (Number.unsigned? Number.maxWord64)
      .ok (.run input (g.flag .approveAll) seed (g.flag .json))
  | .tokens, some input => .ok (.tokens input)
  | _, _ => .error .usage

namespace Invocation

/-- What follows the command, with what was given before it. -/
def ofCommand (before : Given) (scope : Scope) (rest : List String) :
    Except Refusal Invocation := do
  let behind ← Given.arguments scope rest {}
  let command ← Command.ofGiven scope behind
  let before ← before.resolve
  .ok { config := (behind.value? .config).or (before.value? .config), command }

/-- A call for help names at most one command. -/
def helpOn : List String → Refusal
  | [] => .help
  | [name] => if name = "help" ∨ (Scope.commands.lookup name).isSome then .help else .usage
  | _ => .usage

/-- Reads arguments up to the command and then behind it. -/
def parseFrom (g : Given) : List String → Except Refusal Invocation
  | [] => .error .usage
  | text :: rest =>
    if g.closed || g.isAwaiting || (text.startsWith "-" && text ≠ "-") then do
      parseFrom (← g.argument .program text) rest
    else
      match Scope.commands.lookup text with
      | some scope => ofCommand g scope rest
      | none => .error (if text = "help" then helpOn rest else .usage)

def parse (arguments : List String) : Except Refusal Invocation := parseFrom {} arguments

end Invocation

end GovernedQuantum.CommandLine
