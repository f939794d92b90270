import GovernedQuantum.Number.Reading
import GovernedQuantum.Number.Shortest

/-!
# Classical values

What a name can be bound to: an integer of 64 bits, a finite real number, a truth value or a text.
A literal token is read in that order of preference, except that quotes make it a text at once and
that the two truth values come before numbers; a token that is none of these is a bare text.
-/

namespace GovernedQuantum

inductive Value where
  | int (n : Int)
  | float (x : Binary64)
  | bool (b : Bool)
  | text (s : String)
deriving DecidableEq, Repr

namespace Value

/-- The text between the quotes of a quoted token. -/
def unquote? (token : String) : Option String :=
  match token.toList with
  | '"' :: rest =>
    match rest.reverse with
    | '"' :: inner => some (String.ofList inner.reverse)
    | _ => none
  | _ => none

def ofLiteral (token : String) : Value :=
  match unquote? token with
  | some s => text s
  | none =>
    if token = "true" then bool true
    else if token = "false" then bool false
    else
      match Number.signed? token with
      | some n => int n
      | none =>
        match (Number.real? token).filter Binary64.isFinite with
        | some x => float x
        | none => text token

def typeName : Value → String
  | int _ => "Int"
  | float _ => "Float"
  | bool _ => "Bool"
  | text _ => "Text"

/-- The value as it is printed. -/
def display : Value → String
  | int n => toString n
  | float x => x.toText
  | bool b => if b then "true" else "false"
  | text s => s

end Value

end GovernedQuantum
