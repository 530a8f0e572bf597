import FlagCombat.Document.Yaml.Token

/-!
The document that the tokens of a YAML text stand for: one document of block and flow mappings and
sequences, and scalars. A value that is left out is the empty unquoted scalar.
-/

namespace FlagCombat.Document.Yaml

/-- The value that was left out. -/
def missing : Document := .plain ""

def keyText? : Document → Option String
  | .text s => some s
  | .plain s => some s
  | _ => none

/-- A record, or a mapping if a key is no text. -/
def ofPairs (pairs : List (Document × Document)) : Document :=
  match pairs.mapM fun (key, value) => (keyText? key).map (·, value) with
  | some fields => .record fields
  | none => .mapping pairs

/-- Whether a token comes after an item of a block that was left out. -/
def Token.endsItem : Token → Bool
  | .dash | .blockEnd => true
  | _ => false

/-- Whether a token comes after a key or a value of a block that was left out. -/
def Token.endsField : Token → Bool
  | .key | .value | .blockEnd => true
  | _ => false

/-- Whether a token comes after a key or a value inside brackets that was left out. -/
def Token.endsFlow : Token → Bool
  | .value | .comma | .flowListEnd | .flowMappingEnd => true
  | _ => false

/-- Whether a token comes after a document that was left out. -/
def Token.endsDocument : Token → Bool
  | .documentStart | .documentEnd => true
  | _ => false

/-- A comma, which separates all items but the first from the one before. -/
def separator? (isFirst : Bool) : List Token → Option (List Token)
  | .comma :: rest => if isFirst then some (.comma :: rest) else some rest
  | rest => if isFirst then some rest else none

mutual

/-- A node. `block` says whether it may be a block, and `flat` whether it may be a sequence in the
column of its key. -/
def node? : Nat → (block flat : Bool) → List Token → Option (Document × List Token)
  | 0, _, _, _ => none
  | fuel + 1, block, flat, tokens =>
    match tokens with
    | .scalar d :: rest => some (d, rest)
    | .flowList :: rest => flowItems? fuel true [] rest
    | .flowMapping :: rest => flowFields? fuel true [] rest
    | .blockList :: rest => if block then items? fuel [] rest else none
    | .blockMapping :: rest => if block then fields? fuel [] rest else none
    | .dash :: _ => if flat then flatItems? fuel [] tokens else none
    | _ => none

/-- A node, or the value that was left out if one of the tokens comes that end it. -/
def nodeOr? (ends : Token → Bool) :
    Nat → (block flat : Bool) → List Token → Option (Document × List Token)
  | 0, _, _, _ => none
  | fuel + 1, block, flat, tokens =>
    if tokens.head?.any ends then some (missing, tokens) else node? fuel block flat tokens

/-- The rest of a block sequence after some items, which are collected in reverse. -/
def items? : Nat → List Document → List Token → Option (Document × List Token)
  | 0, _, _ => none
  | fuel + 1, read, tokens =>
    match tokens with
    | .blockEnd :: rest => some (.list read.reverse, rest)
    | .dash :: rest => do
      let (item, rest) ← nodeOr? Token.endsItem fuel true false rest
      items? fuel (item :: read) rest
    | _ => none

/-- The rest of a block sequence in the column of its key. -/
def flatItems? : Nat → List Document → List Token → Option (Document × List Token)
  | 0, _, _ => none
  | fuel + 1, read, tokens =>
    match tokens with
    | .dash :: rest => do
      let (item, rest) ←
        nodeOr? (fun t => t.endsItem || t.endsField) fuel true false rest
      flatItems? fuel (item :: read) rest
    | _ => some (.list read.reverse, tokens)

/-- The rest of a block mapping after some fields, which are collected in reverse. -/
def fields? : Nat → List (Document × Document) → List Token → Option (Document × List Token)
  | 0, _, _ => none
  | fuel + 1, read, tokens =>
    match tokens with
    | .blockEnd :: rest => some (ofPairs read.reverse, rest)
    | .key :: rest => do
      let (key, rest) ← nodeOr? Token.endsField fuel true true rest
      let (value, rest) ← value? Token.endsField fuel true rest
      fields? fuel ((key, value) :: read) rest
    | _ => none

/-- The value of a pair, which may be left out. -/
def value? (ends : Token → Bool) :
    Nat → (block : Bool) → List Token → Option (Document × List Token)
  | 0, _, _ => none
  | fuel + 1, block, tokens =>
    match tokens with
    | .value :: rest => nodeOr? ends fuel block block rest
    | _ => some (missing, tokens)

/-- The rest of a flow sequence after some items, which are collected in reverse. An item with a key
is a mapping of one pair; a key that was left out takes the mark with it that follows. -/
def flowItems? : Nat → (isFirst : Bool) → List Document → List Token →
    Option (Document × List Token)
  | 0, _, _, _ => none
  | fuel + 1, isFirst, read, tokens =>
    match tokens with
    | .flowListEnd :: rest => some (.list read.reverse, rest)
    | _ => do
      match ← separator? isFirst tokens with
      | .flowListEnd :: rest => some (.list read.reverse, rest)
      | .key :: rest =>
        let (key, rest) ← match rest with
          | .value :: rest | .comma :: rest | .flowListEnd :: rest => some (missing, rest)
          | _ => node? fuel false false rest
        let (value, rest) ← value? Token.endsFlow fuel false rest
        flowItems? fuel false (ofPairs [(key, value)] :: read) rest
      | rest =>
        let (item, rest) ← node? fuel false false rest
        flowItems? fuel false (item :: read) rest

/-- The rest of a flow mapping after some fields, which are collected in reverse. A field without a
key token has no value. -/
def flowFields? : Nat → (isFirst : Bool) → List (Document × Document) → List Token →
    Option (Document × List Token)
  | 0, _, _, _ => none
  | fuel + 1, isFirst, read, tokens =>
    match tokens with
    | .flowMappingEnd :: rest => some (ofPairs read.reverse, rest)
    | _ => do
      match ← separator? isFirst tokens with
      | .flowMappingEnd :: rest => some (ofPairs read.reverse, rest)
      | .key :: rest =>
        let (key, rest) ← nodeOr? Token.endsFlow fuel false false rest
        let (value, rest) ← value? Token.endsFlow fuel false rest
        flowFields? fuel false ((key, value) :: read) rest
      | rest =>
        let (key, rest) ← node? fuel false false rest
        flowFields? fuel false ((key, missing) :: read) rest

end

/-- The only document of some tokens, which only end markers may follow; without tokens it is left
out. -/
def ofTokens? (tokens : List Token) : Option Document := do
  let fuel := 3 * tokens.length + 3
  let (d, rest) ← match tokens with
    | [] => some (missing, [])
    | .documentStart :: rest =>
      if rest.isEmpty then some (missing, rest)
      else nodeOr? Token.endsDocument fuel true false rest
    | _ => node? fuel true false tokens
  let rest := rest.dropWhile fun
    | .documentEnd => true
    | _ => false
  if rest.isEmpty then some d else none

def ofText? (text : String) : Option Document := (tokens? text.toList).bind ofTokens?

end FlagCombat.Document.Yaml
