/-!
# Reading UTF-8

Bytes are read one at a time. Between two characters nothing is pending; inside a character the
number of octets still owed is known, and with it the range of the next one, which is how overlong
forms, surrogates and values above U+10FFFF are refused at their second octet.

A **defect** tells where the longest valid beginning ends, and how many octets after it belong to
the sequence at fault: none are counted when the text merely stops inside a character.
-/

namespace GovernedQuantum.Text

/-- Why bytes are not UTF-8. -/
structure Defect where
  /-- Length of the longest valid beginning. -/
  validUpTo : Nat
  /-- Octets of the faulty sequence, or nothing when the input ends inside a character. -/
  length : Option Nat
deriving DecidableEq, Repr

def Defect.message (d : Defect) : String :=
  match d.length with
  | some n => s!"invalid utf-8 sequence of {n} bytes from index {d.validUpTo}"
  | none => s!"incomplete utf-8 byte sequence from index {d.validUpTo}"

/-- A character whose first `seen` octets have been read. -/
structure Unfinished where
  seen : Nat
  owed : Nat
  /-- Range of the next octet. -/
  low : Nat
  high : Nat
  value : Nat
deriving DecidableEq, Repr

/-- What the first octet of a character of two to four octets starts. -/
def Unfinished.ofLead (b : Nat) : Option Unfinished :=
  if 0xC2 ≤ b ∧ b ≤ 0xDF then some ⟨1, 1, 0x80, 0xBF, b - 0xC0⟩
  else if b = 0xE0 then some ⟨1, 2, 0xA0, 0xBF, 0⟩
  else if b = 0xED then some ⟨1, 2, 0x80, 0x9F, 0xD⟩
  else if 0xE1 ≤ b ∧ b ≤ 0xEF then some ⟨1, 2, 0x80, 0xBF, b - 0xE0⟩
  else if b = 0xF0 then some ⟨1, 3, 0x90, 0xBF, 0⟩
  else if 0xF1 ≤ b ∧ b ≤ 0xF3 then some ⟨1, 3, 0x80, 0xBF, b - 0xF0⟩
  else if b = 0xF4 then some ⟨1, 3, 0x80, 0x8F, 4⟩
  else none

/-- Reads on after `offset` octets of whole characters, `done` being these characters backwards. -/
def decodeFrom (offset : Nat) (pending : Option Unfinished) (done : List Char) :
    List UInt8 → Except Defect String
  | [] =>
    match pending with
    | none => .ok (String.ofList done.reverse)
    | some _ => .error ⟨offset, none⟩
  | byte :: rest =>
    let b := byte.toNat
    match pending with
    | none =>
      if b < 0x80 then decodeFrom (offset + 1) none (Char.ofNat b :: done) rest
      else
        match Unfinished.ofLead b with
        | none => .error ⟨offset, some 1⟩
        | some p => decodeFrom offset (some p) done rest
    | some p =>
      if p.low ≤ b ∧ b ≤ p.high then
        let value := p.value * 64 + b % 64
        if p.owed = 1 then
          decodeFrom (offset + p.seen + 1) none (Char.ofNat value :: done) rest
        else decodeFrom offset (some ⟨p.seen + 1, p.owed - 1, 0x80, 0xBF, value⟩) done rest
      else .error ⟨offset, some p.seen⟩

/-- The text of UTF-8 bytes. -/
def decodeUtf8 (bytes : List UInt8) : Except Defect String := decodeFrom 0 none [] bytes

example : decodeUtf8 [0x61, 0xC3, 0xA9] = .ok "aé" := rfl
example : decodeUtf8 [0x61, 0xE0, 0x80] = .error ⟨1, some 1⟩ := rfl
example : decodeUtf8 [0xF0, 0x9F, 0x98] = .error ⟨0, none⟩ := rfl

end GovernedQuantum.Text
