/-!
# BLAKE3

The digest of a byte string: chunks of 1024 bytes are compressed block by block, each chunk starting
from the initial words and carrying its number; the chunk results are joined pairwise into a tree,
and the last compression of all is marked as the root.

Words are 32 bits wide and wrap, so `UInt32` is the domain.
-/

namespace GovernedQuantum.Blake3

/-- The initial chaining words. -/
def initial : List UInt32 :=
  [0x6A09E667, 0xBB67AE85, 0x3C6EF372, 0xA54FF53A, 0x510E527F, 0x9B05688C, 0x1F83D9AB, 0x5BE0CD19]

def chunkStart : UInt32 := 1
def chunkEnd : UInt32 := 2
def parentNode : UInt32 := 4
def rootNode : UInt32 := 8

/-- Where each message word goes between two rounds. -/
def permutation : List Nat := [2, 6, 3, 10, 7, 0, 4, 13, 1, 11, 12, 5, 9, 14, 15, 8]

def rotateRight (x : UInt32) (n : UInt32) : UInt32 := (x >>> n) ||| (x <<< (32 - n))

/-- The quarter round on the words at four places of the state. -/
def mix (v : Array UInt32) (a b c d : Nat) (x y : UInt32) : Array UInt32 :=
  let va := v.getD a 0 + v.getD b 0 + x
  let vd := rotateRight (v.getD d 0 ^^^ va) 16
  let vc := v.getD c 0 + vd
  let vb := rotateRight (v.getD b 0 ^^^ vc) 12
  let va := va + vb + y
  let vd := rotateRight (vd ^^^ va) 8
  let vc := vc + vd
  let vb := rotateRight (vb ^^^ vc) 7
  (((v.setIfInBounds a va).setIfInBounds b vb).setIfInBounds c vc).setIfInBounds d vd

/-- One round: the columns, then the diagonals. -/
def round (v m : Array UInt32) : Array UInt32 :=
  let w (i : Nat) : UInt32 := m.getD i 0
  let v := mix v 0 4 8 12 (w 0) (w 1)
  let v := mix v 1 5 9 13 (w 2) (w 3)
  let v := mix v 2 6 10 14 (w 4) (w 5)
  let v := mix v 3 7 11 15 (w 6) (w 7)
  let v := mix v 0 5 10 15 (w 8) (w 9)
  let v := mix v 1 6 11 12 (w 10) (w 11)
  let v := mix v 2 7 8 13 (w 12) (w 13)
  mix v 3 4 9 14 (w 14) (w 15)

def rounds : Nat → Array UInt32 → Array UInt32 → Array UInt32
  | 0, v, _ => v
  | n + 1, v, m =>
    rounds n (round v m) (permutation.map fun i => m.getD i 0).toArray

/-- A compression that has yet to be told whether it is the root. -/
structure Pending where
  chaining : List UInt32
  block : Array UInt32
  counter : Nat
  length : Nat
  flags : UInt32

/-- The eight chaining words that a compression gives. -/
def Pending.words (p : Pending) (extra : UInt32) : List UInt32 :=
  let start := p.chaining ++ initial.take 4 ++
    [p.counter.toUInt32, (p.counter / 0x100000000).toUInt32, p.length.toUInt32, p.flags ||| extra]
  let v := rounds 7 start.toArray p.block
  (List.range 8).map fun i => v.getD i 0 ^^^ v.getD (i + 8) 0

/-! ## Bytes and words -/

/-- Sixteen words of a block, low byte first, missing bytes being zero. -/
def blockWords (bytes : List UInt8) : Array UInt32 :=
  let bs := bytes.toArray
  ((List.range 16).map fun i =>
    (List.range 4).foldr
      (fun j (w : UInt32) => (w <<< 8) ||| (bs.getD (4 * i + j) 0).toUInt32) 0).toArray

def wordBytes (w : UInt32) : List UInt8 :=
  [w.toUInt8, (w >>> 8).toUInt8, (w >>> 16).toUInt8, (w >>> 24).toUInt8]

/-! ## Chunks and tree -/

/-- A chunk's blocks in order; the last one stays pending. `fuel` bounds the number of blocks. -/
def chunkFrom (number : Nat) : Nat → List UInt32 → UInt32 → List UInt8 → Pending
  | 0, chaining, flags, bytes =>
    ⟨chaining, blockWords bytes, number, bytes.length, flags ||| chunkEnd⟩
  | fuel + 1, chaining, flags, bytes =>
    match bytes.drop 64 with
    | [] => ⟨chaining, blockWords bytes, number, bytes.length, flags ||| chunkEnd⟩
    | more =>
      let block : Pending := ⟨chaining, blockWords (bytes.take 64), number, 64, flags⟩
      chunkFrom number fuel (block.words 0) 0 more

def chunk (number : Nat) (bytes : List UInt8) : Pending :=
  chunkFrom number 15 initial chunkStart bytes

/-- The chunks of a text of which `number` have been read; there is always at least one. -/
def chunksFrom : Nat → Nat → List UInt8 → List Pending
  | 0, number, bytes => [chunk number bytes]
  | fuel + 1, number, bytes =>
    match bytes.drop 1024 with
    | [] => [chunk number bytes]
    | more => chunk number (bytes.take 1024) :: chunksFrom fuel (number + 1) more

def join (left right : Pending) : Pending :=
  ⟨initial, (left.words 0 ++ right.words 0).toArray, 0, 64, parentNode⟩

/-- Joins neighbours from the left; an odd one at the end waits for the next level. -/
def joinPairs : List Pending → List Pending
  | a :: b :: rest => join a b :: joinPairs rest
  | rest => rest

/-- The one compression at the top of the tree; `fuel` bounds the number of levels. -/
def top : Nat → List Pending → Option Pending
  | 0, nodes => nodes.head?
  | fuel + 1, nodes =>
    match nodes with
    | [] => none
    | [node] => some node
    | nodes => top fuel (joinPairs nodes)

/-- The 32 bytes of the digest. -/
def digest (bytes : List UInt8) : List UInt8 :=
  let chunks := chunksFrom (bytes.length / 1024) 0 bytes
  match top chunks.length chunks with
  | none => []
  | some root => (root.words rootNode).flatMap wordBytes

def hexDigit (n : Nat) : Char := "0123456789abcdef".toList.getD n '0'

/-- Two lower-case hexadecimal digits a byte. -/
def toHex (bytes : List UInt8) : String :=
  String.ofList (bytes.flatMap fun b => [hexDigit (b.toNat / 16), hexDigit (b.toNat % 16)])

/-- The digest of a text's UTF-8 bytes, in hexadecimal. -/
def hashText (text : String) : String := toHex (digest text.toUTF8.data.toList)

end GovernedQuantum.Blake3
