import GovernedQuantum.Number.Shortest

/-!
# JSON documents

What reports are made of, and what an explanation provider answers with. Objects keep the order of
their fields. `Json.pretty` is the text of a document, indented by two blanks a level; a number that
is not finite has no text of its own and is written as `null`.
-/

namespace GovernedQuantum

inductive Json where
  | null
  | bool (b : Bool)
  | int (n : Int)
  | float (x : Binary64)
  | text (s : String)
  | list (items : List Json)
  | object (fields : List (String × Json))
deriving Repr, Inhabited

namespace Json

def nat (n : Nat) : Json := int n

def texts (ss : List String) : Json := list (ss.map text)

def nats (ns : List Nat) : Json := list (ns.map nat)

/-- A document, or `null` where there is none. -/
def option {α : Type} (f : α → Json) : Option α → Json
  | none => null
  | some a => f a

/-- The value of a field; of two fields with one name the later counts. -/
def field? (name : String) (fields : List (String × Json)) : Option Json :=
  (fields.reverse.find? fun f => f.1 == name).map Prod.snd

/-! ## Text -/

/-- Exponents up to 16 are written positionally from 10⁻⁵ on, all others with an exponent; a
positional number shows a decimal place even when it is whole. -/
def numberText (x : Binary64) : String :=
  if !x.isFinite then "null"
  else
    let sign := if x.isNegative then "-" else ""
    if x.magnitude = 0 then sign ++ "0.0"
    else
      let d := x.shortest
      let digits := Nat.toDigits 10 d.digits
      let point : Int := digits.length + d.power
      let body :=
        if 0 ≤ d.power ∧ point ≤ 16 then d.positional ++ ".0"
        else if -5 < point ∧ point ≤ 16 then d.positional
        else
          let mantissa :=
            match digits with
            | [] => []
            | [c] => [c]
            | c :: rest => c :: '.' :: rest
          String.ofList mantissa ++ "e" ++ toString (point - 1)
      sign ++ body

def hexDigit (n : Nat) : Char := "0123456789abcdef".toList.getD n '0'

/-- A character inside a quoted text. -/
def escape (c : Char) : List Char :=
  if c = '"' then ['\\', '"']
  else if c = '\\' then ['\\', '\\']
  else if c = '\n' then ['\\', 'n']
  else if c = '\r' then ['\\', 'r']
  else if c = '\t' then ['\\', 't']
  else if c.toNat = 8 then ['\\', 'b']
  else if c.toNat = 12 then ['\\', 'f']
  else if c.toNat < 32 then
    ['\\', 'u', '0', '0', hexDigit (c.toNat / 16), hexDigit (c.toNat % 16)]
  else [c]

def quote (s : String) : String := "\"" ++ String.ofList (s.toList.flatMap escape) ++ "\""

def indent (depth : Nat) : String := String.ofList (List.replicate (2 * depth) ' ')

mutual

def prettyAt (depth : Nat) : Json → String
  | null => "null"
  | bool b => if b then "true" else "false"
  | int n => toString n
  | float x => numberText x
  | text s => quote s
  | list [] => "[]"
  | list items => "[\n" ++ prettyItems depth items ++ "\n" ++ indent depth ++ "]"
  | object [] => "\x7b\x7d"
  | object fields => "\x7b\n" ++ prettyFields depth fields ++ "\n" ++ indent depth ++ "\x7d"

def prettyItems (depth : Nat) : List Json → String
  | [] => ""
  | [j] => indent (depth + 1) ++ prettyAt (depth + 1) j
  | j :: rest => indent (depth + 1) ++ prettyAt (depth + 1) j ++ ",\n" ++ prettyItems depth rest

def prettyFields (depth : Nat) : List (String × Json) → String
  | [] => ""
  | [(name, j)] => indent (depth + 1) ++ quote name ++ ": " ++ prettyAt (depth + 1) j
  | (name, j) :: rest =>
    indent (depth + 1) ++ quote name ++ ": " ++ prettyAt (depth + 1) j ++ ",\n"
      ++ prettyFields depth rest

end

/-- The indented text of a document. -/
def pretty (j : Json) : String := prettyAt 0 j

end Json

end GovernedQuantum
