import SearchLoad.Sampling.Draw

namespace SearchLoad.Sampling

structure Block where
  x0 : UInt32
  x1 : UInt32
  x2 : UInt32
  x3 : UInt32
  x4 : UInt32
  x5 : UInt32
  x6 : UInt32
  x7 : UInt32
  x8 : UInt32
  x9 : UInt32
  x10 : UInt32
  x11 : UInt32
  x12 : UInt32
  x13 : UInt32
  x14 : UInt32
  x15 : UInt32
deriving DecidableEq, Repr

def rotateLeft (x : UInt32) (n : UInt32) : UInt32 := (x <<< n) ||| (x >>> (32 - n))

def quarterRound (a b c d : UInt32) : UInt32 × UInt32 × UInt32 × UInt32 :=
  let a := a + b
  let d := rotateLeft (d ^^^ a) 16
  let c := c + d
  let b := rotateLeft (b ^^^ c) 12
  let a := a + b
  let d := rotateLeft (d ^^^ a) 8
  let c := c + d
  let b := rotateLeft (b ^^^ c) 7
  (a, b, c, d)

namespace Block

def columns (x : Block) : Block :=
  let (x0, x4, x8, x12) := quarterRound x.x0 x.x4 x.x8 x.x12
  let (x1, x5, x9, x13) := quarterRound x.x1 x.x5 x.x9 x.x13
  let (x2, x6, x10, x14) := quarterRound x.x2 x.x6 x.x10 x.x14
  let (x3, x7, x11, x15) := quarterRound x.x3 x.x7 x.x11 x.x15
  ⟨x0, x1, x2, x3, x4, x5, x6, x7, x8, x9, x10, x11, x12, x13, x14, x15⟩

def diagonals (x : Block) : Block :=
  let (x0, x5, x10, x15) := quarterRound x.x0 x.x5 x.x10 x.x15
  let (x1, x6, x11, x12) := quarterRound x.x1 x.x6 x.x11 x.x12
  let (x2, x7, x8, x13) := quarterRound x.x2 x.x7 x.x8 x.x13
  let (x3, x4, x9, x14) := quarterRound x.x3 x.x4 x.x9 x.x14
  ⟨x0, x1, x2, x3, x4, x5, x6, x7, x8, x9, x10, x11, x12, x13, x14, x15⟩

def mix : Nat → Block → Block
  | 0, x => x
  | n + 1, x => mix n x.columns.diagonals

def words (x : Block) : List UInt32 :=
  [x.x0, x.x1, x.x2, x.x3, x.x4, x.x5, x.x6, x.x7,
    x.x8, x.x9, x.x10, x.x11, x.x12, x.x13, x.x14, x.x15]

end Block

/-- The eight words of a key. -/
structure Key where
  k0 : UInt32
  k1 : UInt32
  k2 : UInt32
  k3 : UInt32
  k4 : UInt32
  k5 : UInt32
  k6 : UInt32
  k7 : UInt32
deriving DecidableEq, Repr

/-- What a block is mixed from: a constant, the key, the block's number and no nonce. -/
def Key.start (k : Key) (number : UInt64) : Block :=
  ⟨0x61707865, 0x3320646e, 0x79622d32, 0x6b206574,
    k.k0, k.k1, k.k2, k.k3, k.k4, k.k5, k.k6, k.k7,
    number.toUInt32, (number >>> 32).toUInt32, 0, 0⟩

/-- The words of a block: six double rounds, added to what they began with. -/
def Key.block (k : Key) (number : UInt64) : List UInt32 :=
  let x := k.start number
  List.zipWith (· + ·) (x.mix 6).words x.words

namespace Key

def advance (state : UInt64) : UInt64 := state * 6364136223846793005 + 11634580027462260723

/-- The word that a state stands for: a rotation by its upper bits. -/
def output (state : UInt64) : UInt32 :=
  let x := (((state >>> 18) ^^^ state) >>> 27).toUInt32
  let r := (state >>> 59).toUInt32
  (x >>> r) ||| (x <<< ((32 - r) % 32))

def ofSeed (seed : UInt64) : Key :=
  let s0 := advance seed
  let s1 := advance s0
  let s2 := advance s1
  let s3 := advance s2
  let s4 := advance s3
  let s5 := advance s4
  let s6 := advance s5
  let s7 := advance s6
  ⟨output s0, output s1, output s2, output s3, output s4, output s5, output s6, output s7⟩

end Key

/-- A place in the ChaCha stream of a key, with twelve rounds: the words left of the current block
and the next block's number. -/
structure Generator where
  key : Key
  next : UInt64
  left : List UInt32
deriving DecidableEq, Repr

namespace Generator

def ofKey (key : Key) : Generator := ⟨key, 0, []⟩

def ofSeed (seed : UInt64) : Generator := ofKey (.ofSeed seed)

/-- Hands out the next word of the stream. -/
def step (g : Generator) : UInt32 × Generator :=
  match g.left with
  | w :: left => (w, { g with left })
  | [] =>
    let ws := g.key.block g.next
    (ws.headD 0, ⟨g.key, g.next + 1, ws.tail⟩)

instance : WordSource Generator := ⟨step⟩

end Generator

end SearchLoad.Sampling
