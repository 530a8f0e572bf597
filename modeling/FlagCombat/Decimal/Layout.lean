import FlagCombat.Decimal.Digits

/-!
Texts of binary64 numbers. A `Layout` says where positional notation ends, how an exponent is
written, and which of two equally near texts is taken; the three layouts of this library are `plain`
(messages), `marked` (violations) and `document` (records). `fixedPlaces` writes a fixed number of
decimal places.
-/

namespace FlagCombat.Decimal

/-- How the digits `0.d₁d₂… * 10 ^ point` are laid out. -/
structure Layout where
  /-- The points written without an exponent, all of them if `none`. -/
  positional : Option (Int × Int)
  /-- Whether a whole number ends in `.0`. -/
  keepsPoint : Bool
  risingMark : String
  tie : Tie

/-- Never an exponent, and whole numbers without a point. -/
def plain : Layout := ⟨none, false, "e", .up⟩

/-- An exponent below `0.0001` and from `10 ^ 16` on; a whole number keeps its point. -/
def marked : Layout := ⟨some (-3, 16), true, "e", .up⟩

/-- An exponent below `0.00001` and from `10 ^ 16` on, written with its sign. -/
def document : Layout := ⟨some (-4, 16), true, "e+", .toEven⟩

/-- `count` zeros. -/
def zeros (count : Nat) : String := String.ofList (List.replicate count '0')

/-- The digits with the point after the first `point` of them. -/
def positionalText (layout : Layout) (digits : List Char) (point : Int) : String :=
  if point ≤ 0 then "0." ++ zeros (-point).toNat ++ String.ofList digits
  else if digits.length ≤ point.toNat then
    String.ofList digits ++ zeros (point.toNat - digits.length) ++
      (if layout.keepsPoint then ".0" else "")
  else String.ofList (digits.take point.toNat) ++ "." ++ String.ofList (digits.drop point.toNat)

/-- One digit before the point, the others after it, and the exponent. -/
def exponentText (layout : Layout) (digits : List Char) (point : Int) : String :=
  let exponent := point - 1
  let mantissa := match digits with
    | first :: second :: rest => String.ofList (first :: '.' :: second :: rest)
    | _ => String.ofList digits
  mantissa ++ (if exponent < 0 then "e-" else layout.risingMark) ++ toString exponent.natAbs

def text (layout : Layout) (d : Decimal) : String :=
  let digits := Nat.toDigits 10 d.digits
  let point := d.exponent + digits.length
  let isPositional := match layout.positional with
    | none => true
    | some (low, high) => low ≤ point ∧ point ≤ high
  if isPositional then positionalText layout digits point else exponentText layout digits point

/-- The sign, and what follows it for a finite number; infinities and not a number have their own
texts. -/
def signed (x : Float) (magnitude : Scaled → String) : String :=
  if x.isNaN then "NaN"
  else
    let s := Scaled.ofFloat x
    (if s.negative then "-" else "") ++ (if x.isInf then "inf" else magnitude s)

/-- The shortest text that reads back as `x`, in the given layout. -/
def floatText (layout : Layout) (x : Float) : String :=
  signed x fun s =>
    if s.mantissa = 0 then (if layout.keepsPoint then "0.0" else "0")
    else text layout (shortest layout.tie s.mantissa s.exponent)

/-- `x` with `places` decimal places, rounded from its exact value with ties to the even digit. -/
def fixedPlaces (places : Nat) (x : Float) : String :=
  signed x fun s =>
    let (a, b) := ratio s.mantissa s.exponent places
    let digits := Nat.toDigits 10 (divNearest .toEven a b)
    let digits := List.replicate (places + 1 - digits.length) '0' ++ digits
    String.ofList (digits.take (digits.length - places)) ++ "." ++
      String.ofList (digits.drop (digits.length - places))

end FlagCombat.Decimal
