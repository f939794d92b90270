/-!
# Binary64 numbers

Scores, thresholds and probabilities are binary floating point numbers of 64 bits, held here as
their **bit pattern**. Equality of patterns is then decidable and tells the two zeros apart, and the
order of numbers is the order of an integer: `Binary64.key`, the magnitude bits with the sign of
the number.

* `le`, `lt`: the comparisons of numbers, false as soon as a NaN takes part.
* `le_trans`, `le_of_not_lt`: among numbers that are not NaN the order is total.
* `ofDecimal`: the number nearest to a decimal.
-/

namespace GovernedQuantum

/-- A binary64 number by its bit pattern. -/
structure Binary64 where
  bits : UInt64
deriving DecidableEq, Repr

namespace Binary64

/-- Place value of the sign. -/
def signBit : Nat := 0x8000000000000000

/-- Place value of the significand's leading bit, which normal numbers do not store. -/
def hiddenBit : Nat := 0x10000000000000

/-- The bits without the sign. -/
def magnitude (x : Binary64) : Nat := x.bits.toNat % signBit

def isNegative (x : Binary64) : Bool := signBit ≤ x.bits.toNat

/-- Magnitude of infinity; a NaN has a larger one. -/
def infiniteMagnitude : Nat := 0x7FF0000000000000

def isNaN (x : Binary64) : Bool := infiniteMagnitude < x.magnitude

def isFinite (x : Binary64) : Bool := x.magnitude < infiniteMagnitude

/-- An integer in the order of the numbers; both zeros have key 0. -/
def key (x : Binary64) : Int :=
  if x.isNegative then -(x.magnitude : Int) else x.magnitude

def le (x y : Binary64) : Bool := !x.isNaN && !y.isNaN && decide (x.key ≤ y.key)

def lt (x y : Binary64) : Bool := !x.isNaN && !y.isNaN && decide (x.key < y.key)

/-! ## Order -/

theorem le_iff {x y : Binary64} :
    x.le y = true ↔ x.isNaN = false ∧ y.isNaN = false ∧ x.key ≤ y.key := by
  simp [le, and_assoc]

theorem lt_iff {x y : Binary64} :
    x.lt y = true ↔ x.isNaN = false ∧ y.isNaN = false ∧ x.key < y.key := by
  simp [lt, and_assoc]

theorem le_trans {x y z : Binary64} (hxy : x.le y = true) (hyz : y.le z = true) :
    x.le z = true := by
  obtain ⟨hx, _, h⟩ := le_iff.1 hxy
  obtain ⟨_, hz, h'⟩ := le_iff.1 hyz
  exact le_iff.2 ⟨hx, hz, Int.le_trans h h'⟩

theorem le_of_not_lt {x y : Binary64} (hx : x.isNaN = false) (hy : y.isNaN = false)
    (h : x.lt y = false) : y.le x = true := by
  refine le_iff.2 ⟨hy, hx, Int.not_lt.1 fun hlt => ?_⟩
  rw [lt_iff.2 ⟨hx, hy, hlt⟩] at h
  exact Bool.noConfusion h

/-! ## Parts of a number -/

/-- Significand and exponent: a finite number is `significand · 2 ^ exponent` up to its sign. -/
def significand (x : Binary64) : Nat :=
  let fraction := x.magnitude % hiddenBit
  if x.magnitude / hiddenBit = 0 then fraction else fraction + hiddenBit

def exponent (x : Binary64) : Int :=
  let field : Nat := x.magnitude / hiddenBit
  if field = 0 then -1074 else (field : Int) - 1075

/-! ## Making numbers -/

def ofFloat (x : Float) : Binary64 := ⟨x.toBits⟩

def toFloat (x : Binary64) : Float := Float.ofBits x.bits

instance : OfScientific Binary64 where
  ofScientific m s e := ofFloat (Float.ofScientific m s e)

instance : Inhabited Binary64 := ⟨⟨0⟩⟩

def infinity : Binary64 := ⟨0x7FF0000000000000⟩

def nan : Binary64 := ⟨0x7FF8000000000000⟩

/-- The number with its sign bit turned on when `negative`. -/
def signed (negative : Bool) (x : Binary64) : Binary64 :=
  if negative then ⟨x.bits ||| 0x8000000000000000⟩ else x

/-- The number nearest to `digits · 10 ^ power`. A decimal beyond 10⁴⁰⁰ is infinite and one below
10⁻⁴⁰⁰ is zero, so the power of ten is never formed for them. -/
def ofDecimal (negative : Bool) (digits : Nat) (power : Int) : Binary64 :=
  let size : Int := (Nat.toDigits 10 digits).length + power
  signed negative <|
    if digits = 0 ∨ size < -400 then ⟨0⟩
    else if 400 < size then infinity
    else ofFloat (Float.ofScientific digits (decide (power < 0)) power.natAbs)

def ofInt (n : Int) : Binary64 := ofDecimal (decide (n < 0)) n.natAbs 0

/-- The closed unit interval, where scores and thresholds live. -/
def inUnit (x : Binary64) : Bool := le 0.0 x && le x 1.0

example : (0.85 : Binary64).bits = 0x3FEB333333333333 := by decide
example :
    ((0.85 : Binary64).significand, (0.85 : Binary64).exponent) = (7656119366529843, -53) := by
  decide
example : inUnit 1.0 && inUnit 0.0 && !inUnit nan && !inUnit 1.5 := by decide
example : inUnit ⟨0x8000000000000000⟩ := by decide

end Binary64

end GovernedQuantum
