import GovernedQuantum.Opcode
import GovernedQuantum.Diagnostic

/-!
# Instructions

One operation with its argument tokens and the place it came from, whether it was written as a
statement or decoded from bytecode.
-/

namespace GovernedQuantum

structure Instruction where
  opcode : Opcode
  args : List String
  location : Location := {}
deriving DecidableEq, Repr, Inhabited

namespace Instruction

/-- The argument at a place, empty where there is none. -/
def arg (i : Instruction) (n : Nat) : String := i.args.getD n ""

/-- The bytecode line: mnemonic and arguments, one space between them. -/
def line (i : Instruction) : String := i.args.foldl (fun s a => s ++ " " ++ a) i.opcode.mnemonic

end Instruction

end GovernedQuantum
