import FlagCombat.Decimal.Layout

/-!
Documents: trees of named and listed values, as JSON and YAML texts hold them. A scalar that YAML
leaves unquoted is kept as it is written, because only its reader knows whether a number is meant.
`Document.render` writes a document as JSON without blanks, in which pairs of any other keys than
texts are lists of two.
-/

namespace FlagCombat

/-- A tree of values. A record keeps the order of its fields, and repeated ones. -/
inductive Document where
  | null
  | bool (value : Bool)
  | integer (value : Int)
  | real (value : Float)
  /-- A quoted text. -/
  | text (value : String)
  /-- An unquoted scalar, as written. -/
  | plain (written : String)
  | list (items : List Document)
  | record (fields : List (String × Document))
  /-- Pairs whose keys are not all texts. -/
  | mapping (pairs : List (Document × Document))
deriving Inhabited

namespace Document

def hexDigit (n : Nat) : Char := (Nat.digitChar n)

/-- A character of a quoted text: quotes, backslashes and controls are escaped. -/
def escape (c : Char) : List Char :=
  if c = '"' then ['\\', '"']
  else if c = '\\' then ['\\', '\\']
  else if c = '\n' then ['\\', 'n']
  else if c = '\r' then ['\\', 'r']
  else if c = '\t' then ['\\', 't']
  else if c.toNat = 8 then ['\\', 'b']
  else if c.toNat = 12 then ['\\', 'f']
  else if c.toNat < 32 then ['\\', 'u', '0', '0', hexDigit (c.toNat / 16), hexDigit (c.toNat % 16)]
  else [c]

def quote (s : String) : String := "\"" ++ String.ofList (s.toList.flatMap escape) ++ "\""

/-- A number; one that is not finite has no form and is written as null. -/
def renderReal (x : Float) : String :=
  if x.isFinite then Decimal.floatText Decimal.document x else "null"

mutual

/-- The document as JSON without blanks. -/
def render : Document → String
  | .null => "null"
  | .bool value => if value then "true" else "false"
  | .integer value => toString value
  | .real value => renderReal value
  | .text value => quote value
  | .plain written => quote written
  | .list items => "[" ++ ",".intercalate (renderItems items) ++ "]"
  | .record fields => "\x7b" ++ ",".intercalate (renderFields fields) ++ "\x7d"
  | .mapping pairs => "[" ++ ",".intercalate (renderPairs pairs) ++ "]"

def renderItems : List Document → List String
  | [] => []
  | item :: rest => render item :: renderItems rest

def renderFields : List (String × Document) → List String
  | [] => []
  | (name, value) :: rest => (quote name ++ ":" ++ render value) :: renderFields rest

def renderPairs : List (Document × Document) → List String
  | [] => []
  | (key, value) :: rest =>
    ("[" ++ render key ++ "," ++ render value ++ "]") :: renderPairs rest

end

end Document

end FlagCombat
