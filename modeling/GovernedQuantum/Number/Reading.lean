import GovernedQuantum.Number.Binary64

/-!
# Reading numbers

An integer is an optional sign and ASCII digits, nothing else, within the range its reader admits. A
real number is an optional sign, then `inf`, `infinity` or `nan` in any case, or digits with an
optional point (a digit stands on at least one side of it) and an optional exponent. An exponent
that has reached `exponentLimit` passes its further digits over, which only a number with about as
many digits of its own can tell.
-/

namespace GovernedQuantum.Number

/-- The value of a run of ASCII digits. -/
def ofDigits (cs : List Char) : Nat := cs.foldl (fun n c => 10 * n + (c.toNat - '0'.toNat)) 0

/-- A run of ASCII digits that is not empty. -/
def natural? (cs : List Char) : Option Nat :=
  if cs.isEmpty || !cs.all Char.isDigit then none else some (ofDigits cs)

/-- A natural number of at most `limit`, with an optional plus sign. -/
def unsigned? (limit : Nat) (text : String) : Option Nat :=
  let digits :=
    match text.toList with
    | '+' :: rest => rest
    | cs => cs
  (natural? digits).filter fun n => n ≤ limit

/-- Greatest value of a word of 32 bits. -/
def maxWord32 : Nat := 0xFFFFFFFF

/-- Greatest value of a word of 64 bits. -/
def maxWord64 : Nat := 0xFFFFFFFFFFFFFFFF

/-- Integers of 64 bits with a sign reach down to `-signedLimit` and stay below `signedLimit`. -/
def signedLimit : Nat := 0x8000000000000000

/-- An integer of 64 bits, with an optional sign. -/
def signed? (text : String) : Option Int :=
  match text.toList with
  | '-' :: rest => ((natural? rest).filter fun n => n ≤ signedLimit).map fun n => -(n : Int)
  | '+' :: rest => ((natural? rest).filter fun n => n < signedLimit).map Int.ofNat
  | cs => ((natural? cs).filter fun n => n < signedLimit).map Int.ofNat

/-- Exponents are read no further once they have reached this. -/
def exponentLimit : Nat := 0x10000

/-- The value of the digits of an exponent, up to the digit that takes it to the limit. -/
def exponentOf (cs : List Char) : Nat :=
  cs.foldl (fun n c => if n < exponentLimit then 10 * n + (c.toNat - '0'.toNat) else n) 0

/-- The digits of an exponent, of which there must be one. -/
def exponentDigits? (cs : List Char) : Option Nat :=
  if cs.isEmpty || !cs.all Char.isDigit then none else some (exponentOf cs)

/-- An optional exponent: nothing, or a mark, an optional sign and digits. -/
def exponent? : List Char → Option Int
  | [] => some 0
  | mark :: rest =>
    if mark = 'e' ∨ mark = 'E' then
      match rest with
      | '-' :: digits => (exponentDigits? digits).map fun n => -(n : Int)
      | '+' :: digits => (exponentDigits? digits).map Int.ofNat
      | digits => (exponentDigits? digits).map Int.ofNat
    else none

/-- A decimal without sign: its digits, where the point stands, and its exponent. -/
def decimal? (negative : Bool) (cs : List Char) : Option Binary64 :=
  let whole := cs.takeWhile Char.isDigit
  let (places, rest) :=
    match cs.dropWhile Char.isDigit with
    | '.' :: more => (more.takeWhile Char.isDigit, more.dropWhile Char.isDigit)
    | more => ([], more)
  if whole.isEmpty && places.isEmpty then none
  else (exponent? rest).map
    fun e => .ofDecimal negative (ofDigits (whole ++ places)) (e - places.length)

/-- A real number, rounded to the nearest binary64 number. -/
def real? (text : String) : Option Binary64 :=
  let (negative, body) :=
    match text.toList with
    | '-' :: rest => (true, rest)
    | '+' :: rest => (false, rest)
    | cs => (false, cs)
  let word := body.map Char.toLower
  if word = ['i', 'n', 'f'] ∨ word = ['i', 'n', 'f', 'i', 'n', 'i', 't', 'y'] then
    some (Binary64.infinity.signed negative)
  else if word = ['n', 'a', 'n'] then some (Binary64.nan.signed negative)
  else decimal? negative body

example : real? "1.5e3" = some 1500.0 := by decide +kernel
example : real? "." = none := by decide +kernel
example : real? "-.5E-1" = some ((0.05 : Binary64).signed true) := by decide +kernel
example : real? "1e99999999999999999999" = some .infinity := by decide +kernel
example : exponent? "e-700000".toList = some (-70000) := by decide +kernel
example : signed? "-9223372036854775808" = some (-9223372036854775808) := by decide +kernel
example : unsigned? maxWord32 "4294967296" = none := by decide +kernel

end GovernedQuantum.Number
