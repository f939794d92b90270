import GovernedQuantum.Number.Binary64

/-!
# Fixed decimal places

A number written with a fixed count of decimal places is its exact binary value rounded to that
grid, a value halfway between two points of the grid going to the even one.
-/

namespace GovernedQuantum

/-- The nearest natural number to `num / den`, a half going to the even neighbour. -/
def roundHalfEven (num den : Nat) : Nat :=
  let down := num / den
  let twice := 2 * (num % den)
  if twice < den ∨ (twice = den ∧ down % 2 = 0) then down else down + 1

namespace Binary64

/-- Text of a number with `places` decimals, of which there is at least one. -/
def toFixed (x : Binary64) (places : Nat) : String :=
  if x.isNaN then "NaN"
  else
    let sign := if x.isNegative then "-" else ""
    if !x.isFinite then sign ++ "inf"
    else
      let units :=
        roundHalfEven (x.significand * Nat.pow 10 places * Nat.pow 2 x.exponent.toNat)
          (Nat.pow 2 (-x.exponent).toNat)
      let text := Nat.toDigits 10 units
      let padded := List.replicate (places + 1 - text.length) '0' ++ text
      let whole := padded.length - places
      sign ++ String.ofList (padded.take whole ++ '.' :: padded.drop whole)

example : (0.85 : Binary64).toFixed 2 = "0.85" := by decide +kernel
example : (0.0625 : Binary64).toFixed 3 = "0.062" := by decide +kernel
example : (0.5 : Binary64).toFixed 3 = "0.500" := by decide +kernel
example : (12.996 : Binary64).toFixed 2 = "13.00" := by decide +kernel

end Binary64

end GovernedQuantum
