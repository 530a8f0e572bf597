/-!
A stream of random words fixed by a seed: the ChaCha block function with twelve rounds, applied to a
key grown from the seed and to the block numbers 0, 1, 2, …. A generator is a key and a place in its
stream, so equal generators give equal words for ever.
-/

namespace FlagCombat

/-- Sixteen words, as a block function sees them. -/
abbrev Block := Vector UInt32 16

/-- A place in the stream of words of a key. -/
structure Generator where
  key : Vector UInt32 8
  position : Nat
deriving DecidableEq, Repr

namespace Generator

/-- `x` with its bits turned left by `n` places, `0 < n < 32`. -/
def rotateLeft (x n : UInt32) : UInt32 := (x <<< n) ||| (x >>> (32 - n))

def quarterRound (b : Block) (i j k l : Fin 16) : Block :=
  let a₁ := b[i] + b[j]
  let d₁ := rotateLeft (b[l] ^^^ a₁) 16
  let c₁ := b[k] + d₁
  let b₁ := rotateLeft (b[j] ^^^ c₁) 12
  let a₂ := a₁ + b₁
  let d₂ := rotateLeft (d₁ ^^^ a₂) 8
  let c₂ := c₁ + d₂
  let b₂ := rotateLeft (b₁ ^^^ c₂) 7
  (((b.set i a₂).set j b₂).set k c₂).set l d₂

/-- Four quarter rounds down the columns and four along the diagonals. -/
def doubleRound (b : Block) : Block :=
  let b := quarterRound b 0 4 8 12
  let b := quarterRound b 1 5 9 13
  let b := quarterRound b 2 6 10 14
  let b := quarterRound b 3 7 11 15
  let b := quarterRound b 0 5 10 15
  let b := quarterRound b 1 6 11 12
  let b := quarterRound b 2 7 8 13
  quarterRound b 3 4 9 14

/-- The first block state: four constant words, the key, and the number of the block in two
words. -/
def initialBlock (key : Vector UInt32 8) (number : UInt64) : Block :=
  #v[0x61707865, 0x3320646e, 0x79622d32, 0x6b206574,
    key[0], key[1], key[2], key[3], key[4], key[5], key[6], key[7],
    number.toUInt32, (number >>> 32).toUInt32, 0, 0]

/-- The words of a block: twelve rounds, then the first state added again. -/
def blockWords (key : Vector UInt32 8) (number : UInt64) : Block :=
  let start := initialBlock key number
  let mixed :=
    (doubleRound ∘ doubleRound ∘ doubleRound ∘ doubleRound ∘ doubleRound ∘ doubleRound) start
  mixed.zipWith (· + ·) start

def wordAt (key : Vector UInt32 8) (position : Nat) : UInt32 :=
  (blockWords key (position / 16).toUInt64)[position % 16]

def seedStep (s : UInt64) : UInt64 := s * 6364136223846793005 + 11634580027462260723

/-- The key word read off a state of that sequence: its high bits folded and turned right. -/
def seedWord (s : UInt64) : UInt32 :=
  let folded := (((s >>> 18) ^^^ s) >>> 27).toUInt32
  let turn := (s >>> 59).toUInt32
  (folded >>> turn) ||| (folded <<< ((32 - turn) % 32))

def ofSeed (seed : UInt64) : Generator :=
  let state (n : Nat) : UInt64 := (n + 1).repeat seedStep seed
  ⟨Vector.ofFn fun i => seedWord (state i), 0⟩

def word32 (g : Generator) : UInt32 × Generator :=
  (wordAt g.key g.position, { g with position := g.position + 1 })

/-- The next two words as one, the first being the low half. -/
def word64 (g : Generator) : UInt64 × Generator :=
  let (low, g) := g.word32
  let (high, g) := g.word32
  ((high.toUInt64 <<< 32) ||| low.toUInt64, g)

end Generator

end FlagCombat
