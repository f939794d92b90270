import GovernedQuantum.Number.Binary64

/-!
# Shortest decimals

The text of a number is the decimal with the fewest digits that reads back as that number, and among
those with the fewest digits the nearest one. It is always written positionally.

A finite number is `m · 2 ^ q`, and the decimals that read back as it fill an interval around it
whose ends belong to it exactly when `m` is even. For 1, 2, … digits the two neighbours of the
number on the grid of decimals with that many digits are tried; if any point of the grid lies in the
interval, one of the two does. All comparisons are of natural numbers.
-/

namespace GovernedQuantum

/-- A positive decimal `digits · 10 ^ power`. -/
structure Decimal where
  digits : Nat
  power : Int
deriving DecidableEq, Repr

namespace Decimal

/-- The same decimal without trailing zeros among its digits; `fuel` bounds their number. -/
def stripZeros : Nat → Decimal → Decimal
  | 0, d => d
  | fuel + 1, d =>
    if d.digits ≠ 0 ∧ d.digits % 10 = 0 then stripZeros fuel ⟨d.digits / 10, d.power + 1⟩ else d

/-- Positional text: no exponent, and no point where there is nothing after it. -/
def positional (d : Decimal) : String :=
  let text := Nat.toDigits 10 d.digits
  let zeros (n : Nat) : List Char := List.replicate n '0'
  String.ofList <|
    if 0 ≤ d.power then text ++ zeros d.power.toNat
    else
      let places := d.power.natAbs
      if places < text.length then
        text.take (text.length - places) ++ '.' :: text.drop (text.length - places)
      else '0' :: '.' :: zeros (places - text.length) ++ text

end Decimal

namespace Binary64

/-- The positive number `m · 2 ^ q` against powers of ten: `scaled x k` and `grid d k` are integers
in the ratio of `x · 2 ^ (q - 2)` and `d · 10 ^ k`. -/
structure Scale where
  number : Nat
  grid : Nat

def Scale.of (q k : Int) : Scale :=
  ⟨Nat.pow 2 (q - 2).toNat * Nat.pow 10 (-k).toNat, Nat.pow 2 (2 - q).toNat * Nat.pow 10 k.toNat⟩

/-- The greatest `k` with `10 ^ k ≤ m · 2 ^ q`, from an estimate that is off by one at most. -/
def decimalExponent (m : Nat) (q : Int) : Int :=
  let estimate := ((m.log2 : Int) + q) * 30103 / 100000
  let atLeast (k : Int) : Bool := let s := Scale.of q k; s.grid ≤ 4 * m * s.number
  if atLeast (estimate + 1) then estimate + 1 else if atLeast estimate then estimate
  else estimate - 1

/-- The nearer of the two decimals with power `k` next to `m · 2 ^ q` that read back as it, if one
does; halfway between two of them the larger is taken. `narrow` says that the gap below the number
is half the gap above it. -/
def candidate (m : Nat) (q : Int) (narrow : Bool) (k : Int) : Option Decimal :=
  let s := Scale.of q k
  let value := 4 * m * s.number
  let low := (4 * m - if narrow then 1 else 2) * s.number
  let high := (4 * m + 2) * s.number
  let inside (d : Nat) : Bool :=
    if m % 2 = 0 then low ≤ d * s.grid && d * s.grid ≤ high
    else low < d * s.grid && d * s.grid < high
  let down := value / s.grid
  let up := down + 1
  if inside down then
    if inside up && up * s.grid - value ≤ value - down * s.grid then some ⟨up, k⟩
    else some ⟨down, k⟩
  else if inside up then some ⟨up, k⟩
  else none

/-- The first grid, from `n` digits on, that has a decimal which reads back. -/
def shortestFrom (m : Nat) (q : Int) (narrow : Bool) (top : Int) : Nat → Nat → Decimal
  | 0, n => ⟨m, top - n⟩
  | fuel + 1, n =>
    match candidate m q narrow (top - n + 1) with
    | some d => d
    | none => shortestFrom m q narrow top fuel (n + 1)

/-- The **shortest** decimal of a finite number other than zero, sign aside. Seventeen digits
always suffice. -/
def shortest (x : Binary64) : Decimal :=
  let m := x.significand
  let q := x.exponent
  let narrow := m = hiddenBit ∧ -1074 < q
  (shortestFrom m q narrow (decimalExponent m q) 18 1).stripZeros 18

/-- Text of a number: shortest and positional, with a minus sign also on the negative zero. -/
def toText (x : Binary64) : String :=
  if x.isNaN then "NaN"
  else
    let sign := if x.isNegative then "-" else ""
    let body :=
      if !x.isFinite then "inf"
      else if x.magnitude = 0 then "0"
      else x.shortest.positional
    sign ++ body

example : (0.85 : Binary64).toText = "0.85" := by decide +kernel
example : (1.0 : Binary64).toText = "1" := by decide +kernel
example : (1e-7 : Binary64).toText = "0.0000001" := by decide +kernel
example : (1e21 : Binary64).toText = "1000000000000000000000" := by decide +kernel
example : (0.3333333333333333 : Binary64).toText = "0.3333333333333333" := by decide +kernel

end Binary64

end GovernedQuantum
