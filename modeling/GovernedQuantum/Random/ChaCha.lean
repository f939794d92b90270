/-!
# A seeded stream of random words

ChaCha with eight rounds, a block counter of 64 bits that starts at zero, and a zero nonce. The
key's eight words are expanded from a seed of 64 bits. The stream is the concatenation of the
blocks; a draw of 64 bits takes two words of it, the low one first.
-/

namespace GovernedQuantum.Random

/-- A position in the stream: the key, the next block's number, and what is left of the current
block. -/
structure Stream where
  key : List UInt32
  counter : Nat
  buffer : List UInt32
deriving DecidableEq, Repr

/-- Words are below this bound. -/
def wordSpan : Nat := 0x100000000

/-! ## Seeding -/

def rotateRight (x : UInt32) (n : UInt32) : UInt32 :=
  (x >>> (n % 32)) ||| (x <<< ((32 - n % 32) % 32))

/-- One step of the seed's own generator: the next state and the key word it yields. -/
def seedStep (s : UInt64) : UInt64 × UInt32 :=
  let s := s * 6364136223846793005 + 11634580027462260723
  (s, rotateRight ((((s >>> 18) ^^^ s) >>> 27).toUInt32) (s >>> 59).toUInt32)

def seedWords : Nat → UInt64 → List UInt32
  | 0, _ => []
  | n + 1, s =>
    let (next, word) := seedStep s
    word :: seedWords n next

def Stream.ofSeed (seed : Nat) : Stream := ⟨seedWords 8 seed.toUInt64, 0, []⟩

/-! ## Blocks -/

def rotateLeft (x : UInt32) (n : UInt32) : UInt32 := (x <<< n) ||| (x >>> (32 - n))

/-- The quarter round on the words at four places of the state. -/
def quarter (v : Array UInt32) (a b c d : Nat) : Array UInt32 :=
  let va := v.getD a 0 + v.getD b 0
  let vd := rotateLeft (v.getD d 0 ^^^ va) 16
  let vc := v.getD c 0 + vd
  let vb := rotateLeft (v.getD b 0 ^^^ vc) 12
  let va := va + vb
  let vd := rotateLeft (vd ^^^ va) 8
  let vc := vc + vd
  let vb := rotateLeft (vb ^^^ vc) 7
  (((v.setIfInBounds a va).setIfInBounds b vb).setIfInBounds c vc).setIfInBounds d vd

/-- Columns, then diagonals. -/
def doubleRound (v : Array UInt32) : Array UInt32 :=
  let v := quarter (quarter (quarter (quarter v 0 4 8 12) 1 5 9 13) 2 6 10 14) 3 7 11 15
  quarter (quarter (quarter (quarter v 0 5 10 15) 1 6 11 12) 2 7 8 13) 3 4 9 14

/-- The sixteen words of block `counter`. -/
def block (key : List UInt32) (counter : Nat) : List UInt32 :=
  let start := [0x61707865, 0x3320646E, 0x79622D32, 0x6B206574] ++ key ++
    [counter.toUInt32, (counter / wordSpan).toUInt32, 0, 0]
  let mixed := doubleRound (doubleRound (doubleRound (doubleRound start.toArray)))
  start.zipWith (· + ·) mixed.toList

/-! ## Drawing -/

namespace Stream

def word (s : Stream) : UInt32 × Stream :=
  match s.buffer with
  | w :: rest => (w, { s with buffer := rest })
  | [] =>
    match block s.key s.counter with
    | [] => (0, { s with counter := s.counter + 1 })
    | w :: rest => (w, { s with counter := s.counter + 1, buffer := rest })

/-- Two words as one number, the low word first. -/
def wide (s : Stream) : Nat × Stream :=
  let (low, s) := s.word
  let (high, s) := s.word
  (low.toNat + wordSpan * high.toNat, s)

/-- A uniform number below `bound`: the high half of `word · bound`, redrawn while the low half lies
in the uneven rest of the range. `fuel` bounds the redraws. -/
def belowFrom (bound zone : Nat) : Nat → Stream → Nat × Stream
  | 0, s => (0, s)
  | fuel + 1, s =>
    let (w, s) := s.word
    let product := w.toNat * bound
    if product % wordSpan ≤ zone then (product / wordSpan, s) else belowFrom bound zone fuel s

/-- Redraws after which a draw gives up; each is needed with a chance below one half. -/
def patience : Nat := 4096

/-- A uniform number below `bound`, for `0 < bound < wordSpan`. -/
def below (bound : Nat) (s : Stream) : Nat × Stream :=
  belowFrom bound (bound * Nat.pow 2 (31 - bound.log2) - 1) patience s

def betweenFrom (low high : Float) : Nat → Stream → Float × Stream
  | 0, s => (low, s)
  | fuel + 1, s =>
    let (n, s) := s.wide
    let unit := Float.ofBits ((n / 0x1000).toUInt64 ||| 0x3FF0000000000000) - 1.0
    let x := unit * (high - low) + low
    if x < high then (x, s) else betweenFrom low high fuel s

/-- A number from `low` up to but not including `high`. -/
def between (low high : Float) (s : Stream) : Float × Stream := betweenFrom low high patience s

/-- A fair coin. -/
def coin (s : Stream) : Bool × Stream :=
  let (n, s) := s.wide
  (decide (n < 0x8000000000000000), s)

end Stream

end GovernedQuantum.Random
