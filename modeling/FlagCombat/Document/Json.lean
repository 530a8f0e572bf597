import FlagCombat.Document.Basic
import FlagCombat.Decimal.Reading

/-!
Reading JSON texts. A number without point and exponent that 64 bits hold is an integer, any other
number is real; negative zero is real. Of repeated names in an object the last value counts.
-/

namespace FlagCombat.Document.Json

def skip (cs : List Char) : List Char :=
  cs.dropWhile fun c => c = ' ' || c = '\n' || c = '\t' || c = '\r'

def number? (cs : List Char) : Option Document :=
  let (negative, digits) := match cs with
    | '-' :: digits => (true, digits)
    | digits => (false, digits)
  match Decimal.natOf? 10 digits with
  | some n =>
    if !negative && n < UInt64.size then some (.integer n)
    else if negative && n ≠ 0 && n ≤ 0x8000000000000000 then some (.integer (-n))
    else (Decimal.floatOf? cs).map .real
  | none => (Decimal.floatOf? cs).map .real

def inNumber (c : Char) : Bool := c.isDigit || c = '-' || c = '+' || c = '.' || c = 'e' || c = 'E'

/-- The character of four hexadecimal digits, and what follows; two escapes can make one
character. -/
def unicodeEscape? (cs : List Char) : Option (Char × List Char) := do
  let unit ← Decimal.natOf? 16 (cs.take 4)
  let rest := cs.drop 4
  if 0xd800 ≤ unit ∧ unit < 0xdc00 then
    match rest with
    | '\\' :: 'u' :: low =>
      let second ← Decimal.natOf? 16 (low.take 4)
      if 0xdc00 ≤ second ∧ second < 0xe000 then
        return (Char.ofNat (0x10000 + (unit - 0xd800) * 0x400 + (second - 0xdc00)), low.drop 4)
      else none
    | _ => none
  else return (Char.ofNat unit, rest)

/-- The rest of a quoted text, its characters being collected in reverse. -/
def quoted? : Nat → List Char → List Char → Option (String × List Char)
  | 0, _, _ => none
  | _, _, [] => none
  | _ + 1, read, '"' :: rest => some (String.ofList read.reverse, rest)
  | fuel + 1, read, '\\' :: c :: rest =>
    match c with
    | 'n' => quoted? fuel ('\n' :: read) rest
    | 't' => quoted? fuel ('\t' :: read) rest
    | 'r' => quoted? fuel ('\r' :: read) rest
    | 'b' => quoted? fuel ('\x08' :: read) rest
    | 'f' => quoted? fuel ('\x0c' :: read) rest
    | 'u' => do
      let (c, rest) ← unicodeEscape? rest
      quoted? fuel (c :: read) rest
    | c => if c = '"' ∨ c = '\\' ∨ c = '/' then quoted? fuel (c :: read) rest else none
  | fuel + 1, read, c :: rest => quoted? fuel (c :: read) rest

/-- The fields with one set, at the end or over the one of its name. -/
def setField (fields : List (String × Document)) (name : String) (value : Document) :
    List (String × Document) :=
  fields.filter (·.1 ≠ name) ++ [(name, value)]

mutual

/-- A value, and what follows it. -/
def value? : Nat → List Char → Option (Document × List Char)
  | 0, _ => none
  | fuel + 1, cs =>
    match skip cs with
    | 'n' :: 'u' :: 'l' :: 'l' :: rest => some (.null, rest)
    | 't' :: 'r' :: 'u' :: 'e' :: rest => some (.bool true, rest)
    | 'f' :: 'a' :: 'l' :: 's' :: 'e' :: rest => some (.bool false, rest)
    | '"' :: rest => (quoted? (rest.length + 1) [] rest).map fun (s, rest) => (.text s, rest)
    | '[' :: rest =>
      match skip rest with
      | ']' :: rest => some (.list [], rest)
      | rest => items? fuel [] rest
    | '\x7b' :: rest =>
      match skip rest with
      | '\x7d' :: rest => some (.record [], rest)
      | rest => fields? fuel [] rest
    | cs => (number? (cs.takeWhile inNumber)).map (·, cs.dropWhile inNumber)

/-- The rest of a list after some items, which are collected in reverse. -/
def items? : Nat → List Document → List Char → Option (Document × List Char)
  | 0, _, _ => none
  | fuel + 1, read, cs => do
    let (item, rest) ← value? fuel cs
    match skip rest with
    | ',' :: rest => items? fuel (item :: read) rest
    | ']' :: rest => some (.list (item :: read).reverse, rest)
    | _ => none

def fields? : Nat → List (String × Document) → List Char → Option (Document × List Char)
  | 0, _, _ => none
  | fuel + 1, read, cs =>
    match skip cs with
    | '"' :: rest => do
      let (name, rest) ← quoted? (rest.length + 1) [] rest
      match skip rest with
      | ':' :: rest =>
        let (value, rest) ← value? fuel rest
        let read := setField read name value
        match skip rest with
        | ',' :: rest => fields? fuel read rest
        | '\x7d' :: rest => some (.record read, rest)
        | _ => none
      | _ => none
    | _ => none

end

/-- The document of a JSON text. Every nested value starts after a character of its own, so twice
the length of the text bounds the depth of reading. -/
def ofText? (text : String) : Option Document :=
  let cs := text.toList
  match value? (2 * cs.length + 2) cs with
  | some (d, rest) => if (skip rest).isEmpty then some d else none
  | none => none

end FlagCombat.Document.Json
