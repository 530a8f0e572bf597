import FlagCombat.Random.Stream

/-!
Draws from a generator: a whole number below a bound, a float of an interval, an event of a given
probability, an element of a list. A draw of no choice (a certain event, an empty list) takes no
word.
-/

namespace FlagCombat

/-- A probability outside the unit interval was asked for. -/
structure BadProbability where
  value : Float
deriving DecidableEq

namespace Generator

/-- A whole number below `n` from words below `size`: the high part of `word * n`, raised by one when
the low part and the high part of a second product overflow. The second word is drawn only if it can
matter. -/
def scaled (size : Nat) (draw : Generator → Nat × Generator) (n : Nat) (g : Generator) :
    Nat × Generator :=
  let (w, g) := draw g
  let high := w * n / size
  let low := w * n % size
  if size - n < low then
    let (w', g) := draw g
    (if size ≤ low + w' * n / size then high + 1 else high, g)
  else (high, g)

/-- A whole number below `n`, from 32-bit words. -/
def below32 (n : Nat) : Generator → Nat × Generator :=
  scaled UInt32.size (fun g => let (w, g) := g.word32; (w.toNat, g)) n

/-- A whole number below `n`, from 64-bit words. -/
def below64 (n : Nat) : Generator → Nat × Generator :=
  scaled UInt64.size (fun g => let (w, g) := g.word64; (w.toNat, g)) n

/-- A float of the interval from `low` to `high`: a multiple of `2 ^ -52` below one, stretched and
moved. -/
def uniform (low high : Float) (g : Generator) : Float × Generator :=
  let (w, g) := g.word64
  ((w >>> 12).toFloat / 4503599627370496.0 * (high - low) + low, g)

/-- An event of probability `p`. -/
def chance (p : Float) (g : Generator) : Except BadProbability (Bool × Generator) :=
  if p == 1.0 then .ok (true, g)
  else if 0.0 ≤ p ∧ p < 1.0 then
    let (w, g) := g.word64
    .ok (w < (p * 18446744073709551616.0).toUInt64, g)
  else .error ⟨p⟩

/-- An element of a list, none of the empty list. -/
def choose? {α : Type} (xs : List α) (g : Generator) : Option α × Generator :=
  if xs.isEmpty then (none, g)
  else
    let (i, g) := g.below32 xs.length
    (xs[i]?, g)

end Generator

end FlagCombat
