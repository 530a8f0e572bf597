/-!
Binary64 numbers as the words that hold them. A word tells, of what is not a number, which sign and
which payload it has, and all words stand in one order.
-/

namespace FlagCombat.Binary64

/-- A binary64 number by its bits. Unlike `Float` it tells apart what is not a number. -/
structure Word where
  bits : UInt64
deriving DecidableEq

namespace Word

/-- The word of a number; of what is not a number, the positive quiet one without a payload. -/
def ofFloat (x : Float) : Word := ⟨x.toBits⟩

def toFloat (w : Word) : Float := .ofBits w.bits

/-- The word with the bit set that makes what is not a number quiet. -/
def quiet (w : Word) : Word := ⟨w.bits ||| 0x0008000000000000⟩

/-- What infinities that cancel come to: not a number, quiet and negative. -/
def cancelled : Word := ⟨0xfff8000000000000⟩

/-- The sum of two words. What is not a number goes through an addition with its sign and payload,
the left one if both are such. -/
def add (x y : Word) : Word :=
  if x.toFloat.isNaN then x.quiet
  else if y.toFloat.isNaN then y.quiet
  else if (x.toFloat + y.toFloat).isNaN then cancelled
  else ofFloat (x.toFloat + y.toFloat)

/-- The sum of some words, from negative zero on. -/
def sum (words : List Word) : Word := words.foldl add (ofFloat (-0.0))

/-- The place of a word in the order `-NaN < -∞ < … < -0 < 0 < … < ∞ < NaN`. -/
def rank (w : Word) : Int :=
  if w.bits < 0x8000000000000000 then w.bits.toNat
  else 0x7fffffffffffffff - (w.bits.toNat : Int)

end Word

end FlagCombat.Binary64
