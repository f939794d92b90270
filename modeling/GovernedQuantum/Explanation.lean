import GovernedQuantum.Json

/-!
# Explanations

Decisions and verifications are explained in words. A **provider** writes the words; where there is
none, or it does not answer, or its answer is not an explanation, the template answers in its place.

* `Explanation.ofJson?` reads a provider's structured answer.
* `explainDecision`, `summarizeVerification`: the two questions that a session asks.
-/

namespace GovernedQuantum

structure Explanation where
  summary : String
  confidence : Binary64
  factors : List String := []
deriving DecidableEq, Repr

/-- Why a provider gave no explanation. -/
inductive ProviderError where
  | unavailable (provider : String)
  | malformed
deriving DecidableEq, Repr

def ProviderError.message : ProviderError → String
  | unavailable provider => s!"provider '{provider}' is unavailable"
  | malformed => "provider returned malformed output"

/-- Writes explanations; each request names a prompt and the most tokens to spend. -/
structure Provider where
  name : String
  isAvailable : Bool
  text : String → Nat → Except ProviderError String
  json : String → Nat → Except ProviderError Json

/-! ## Structured answers -/

namespace Explanation

def number? : Json → Option Binary64
  | .int n => some (.ofInt n)
  | .float x => some x
  | _ => none

def texts? : List Json → Option (List String)
  | [] => some []
  | .text s :: rest => (texts? rest).map (s :: ·)
  | _ :: _ => none

def factors? : Option Json → Option (List String)
  | none => some []
  | some (.list items) => texts? items
  | some _ => none

/-- An explanation from its three parts; the last may be left out. -/
def ofParts? (summary confidence : Json) (factors : Option Json) : Option Explanation :=
  match summary, number? confidence, factors? factors with
  | .text summary, some confidence, some factors => some { summary, confidence, factors }
  | _, _, _ => none

/-- Reads an object with the fields by name, or a list of the parts in order. -/
def ofJson? : Json → Option Explanation
  | .object fields =>
    match Json.field? "summary" fields, Json.field? "confidence" fields with
    | some summary, some confidence => ofParts? summary confidence (Json.field? "factors" fields)
    | _, _ => none
  | .list [summary, confidence] => ofParts? summary confidence none
  | .list [summary, confidence, factors] => ofParts? summary confidence (some factors)
  | _ => none

end Explanation

/-! ## The template -/

namespace Provider

/-- Tokens that a session spends on an answer. -/
def defaultTokens : Nat := 256

/-- A token stands for this many characters. -/
def charactersPerToken : Nat := 4

/-- The prompt itself, cut to the tokens allowed. -/
def templateText (prompt : String) (maxTokens : Nat) : String :=
  String.ofList (("explanation: " ++ prompt).toList.take (charactersPerToken * maxTokens))

/-- Answers the same to the same prompt, always. -/
def template : Provider where
  name := "template"
  isAvailable := true
  text prompt maxTokens := .ok (templateText prompt maxTokens)
  json prompt maxTokens :=
    .ok (.object [("summary", .text (templateText prompt maxTokens)), ("confidence", .float 0.85),
      ("factors", .list [])])

/-- The provider that answers now. -/
def current (primary : Option Provider) : Provider :=
  match primary with
  | some p => if p.isAvailable then p else template
  | none => template

/-- An answer read as an explanation. -/
def explain (p : Provider) (prompt : String) (maxTokens : Nat) : Except ProviderError Explanation :=
  match p.json prompt maxTokens with
  | .error e => .error e
  | .ok answer =>
    match Explanation.ofJson? answer with
    | some explanation => .ok explanation
    | none => .error .malformed

end Provider

/-! ## What a session asks -/

def templateExplanation (prompt : String) : Explanation where
  summary := Provider.templateText prompt Provider.defaultTokens
  confidence := 0.85

/-- Explains a decision of an entity. -/
def explainDecision (primary : Option Provider) (entity action : String) : Explanation :=
  let prompt := s!"why '{entity}' decided '{action}'"
  match (Provider.current primary).explain prompt Provider.defaultTokens with
  | .ok explanation => explanation
  | .error _ => templateExplanation prompt

/-- Sums up a verification of an entity. -/
def summarizeVerification (primary : Option Provider) (entity : String) (passed : Bool)
    (reasons : List String) : String :=
  let why := "; ".intercalate reasons
  let prompt :=
    if passed then s!"verification of '{entity}' passed"
    else s!"verification of '{entity}' failed: {why}"
  match (Provider.current primary).text prompt Provider.defaultTokens with
  | .ok text => text
  | .error _ => Provider.templateText prompt Provider.defaultTokens

end GovernedQuantum
