import FlagCombat.Decimal.Digits

/-!
Reading numbers: digits of a base, and decimal numbers with a point and an exponent, which are
rounded once to the nearest binary64 number.
-/

namespace FlagCombat.Decimal

def digitValue? (c : Char) : Option Nat :=
  if c.isDigit then some (c.toNat - '0'.toNat)
  else if 'a' ≤ c ∧ c ≤ 'f' then some (c.toNat - 'a'.toNat + 10)
  else if 'A' ≤ c ∧ c ≤ 'F' then some (c.toNat - 'A'.toNat + 10)
  else none

def continueNat? (base : Nat) : Nat → List Char → Option Nat
  | n, [] => some n
  | n, c :: rest =>
    match digitValue? c with
    | none => none
    | some d => if d < base then continueNat? base (base * n + d) rest else none

def natOf? (base : Nat) (digits : List Char) : Option Nat :=
  if digits.isEmpty then none else continueNat? base 0 digits

/-- The exponent after its mark: an optional sign and one or more digits. -/
def exponentOf? : List Char → Option Int
  | '-' :: digits => (natOf? 10 digits).map fun n => -n
  | '+' :: digits => (natOf? 10 digits).map fun n => n
  | digits => (natOf? 10 digits).map fun n => n

/-- The decimal of an unsigned text: digits with an optional point among or around them, and an
optional exponent. -/
def ofChars? (cs : List Char) : Option Decimal := do
  let whole := cs.takeWhile Char.isDigit
  let rest := cs.dropWhile Char.isDigit
  let (fraction, rest) := match rest with
    | '.' :: rest => (rest.takeWhile Char.isDigit, rest.dropWhile Char.isDigit)
    | rest => ([], rest)
  let digits ← natOf? 10 (whole ++ fraction)
  let exponent ← match rest with
    | [] => some 0
    | mark :: rest => if mark = 'e' ∨ mark = 'E' then exponentOf? rest else none
  return ⟨digits, exponent - fraction.length⟩

def floatOf? (cs : List Char) : Option Float :=
  match cs with
  | '-' :: rest => (ofChars? rest).map fun d => -d.toFloat
  | '+' :: rest => (ofChars? rest).map toFloat
  | rest => (ofChars? rest).map toFloat

end FlagCombat.Decimal
