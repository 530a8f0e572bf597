import FlagCombat.Document.Basic
import FlagCombat.Document.Yaml.Scalar

/-!
The tokens of a YAML text. Indentation becomes tokens that open and close blocks, and the colon
after a key becomes a token before the key too. What may turn out to be a key is remembered as a
`Candidate` until the colon comes; a key stands on one line and is at most 1024 bytes long. Anchors,
aliases, tags and directives are not read.
-/

namespace FlagCombat.Document.Yaml

/-- A token. -/
inductive Token where
  | documentStart
  | documentEnd
  | blockList
  | blockMapping
  | blockEnd
  | flowList
  | flowListEnd
  | flowMapping
  | flowMappingEnd
  | dash
  | comma
  | key
  | value
  | scalar (value : Document)

/-- Something that is a key if a colon follows. -/
structure Candidate where
  /-- The number of tokens before it. -/
  place : Nat
  mark : Mark
  /-- Whether it stands where only a key can. -/
  needed : Bool

/-- Whether a colon at a mark comes too late for a candidate. -/
def Candidate.isLate (k : Candidate) (m : Mark) : Bool :=
  k.mark.line < m.line || k.mark.offset + 1024 < m.offset

/-- The candidate that is left at a mark, if any; one that is needed may not be late. -/
def Candidate.keep? (m : Mark) : Option Candidate → Option (Option Candidate)
  | some k => if k.isLate m then (if k.needed then none else some none) else some (some k)
  | none => some none

/-- The tokens that were read so far, and what decides how the text goes on. -/
structure Lexer where
  cursor : Cursor
  tokens : Array Token := #[]
  /-- The columns of the open blocks, the innermost first. -/
  columns : List Nat := []
  /-- The candidate in the innermost brackets, or in the block if there are none. -/
  candidate : Option Candidate := none
  /-- The candidates outside of each open bracket, the innermost first. -/
  outer : List (Option Candidate) := []
  /-- Whether a key may start here. -/
  keyAllowed : Bool := true

namespace Lexer

def inFlow (l : Lexer) : Bool := !l.outer.isEmpty

/-- The column of the innermost block, less than zero if there is none. -/
def indent (l : Lexer) : Int := (l.columns.head?.map Int.ofNat).getD (-1)

/-- Adds a token that some characters make up. -/
def push (l : Lexer) (t : Token) (width : Nat) : Lexer :=
  { l with tokens := l.tokens.push t, cursor := l.cursor.drop width }

def dropLate? (l : Lexer) : Option Lexer := do
  let candidate ← Candidate.keep? l.cursor.mark l.candidate
  let outer ← l.outer.mapM (Candidate.keep? l.cursor.mark)
  return { l with candidate, outer }

/-- Forgets the candidate, which may not be needed. -/
def dropCandidate? (l : Lexer) : Option Lexer :=
  if l.candidate.any (·.needed) then none else some { l with candidate := none }

/-- Makes what comes next the candidate, if a key may start there. -/
def mayBeKey? (l : Lexer) : Option Lexer :=
  if l.keyAllowed then do
    let l ← l.dropCandidate?
    let needed := !l.inFlow && l.indent = l.cursor.mark.column
    return { l with candidate := some ⟨l.tokens.size, l.cursor.mark, needed⟩ }
  else some l

/-- Closes the blocks beyond a column; blocks do not end inside brackets. -/
def closeBlocks (l : Lexer) (column : Int) : Lexer :=
  if l.inFlow then l
  else
    let closed := l.columns.takeWhile fun (start : Nat) => column < start
    { l with
      columns := l.columns.drop closed.length
      tokens := l.tokens ++ Array.replicate closed.length Token.blockEnd }

/-- Opens a block at a column beyond the open ones; its token is placed after a number of tokens. -/
def openBlock (l : Lexer) (column place : Nat) (t : Token) : Lexer :=
  if l.inFlow || column ≤ l.indent then l
  else { l with columns := column :: l.columns, tokens := l.tokens.insertIdxIfInBounds place t }

/-- An opening bracket, which can be the start of a key, and after which a key can start. -/
def openBracket? (l : Lexer) (t : Token) : Option Lexer := do
  let l ← l.mayBeKey?
  let l := { l with outer := l.candidate :: l.outer, candidate := none, keyAllowed := true }
  return l.push t 1

def closeBracket? (l : Lexer) (t : Token) : Option Lexer := do
  let l ← l.dropCandidate?
  let l := match l.outer with
    | [] => l
    | candidate :: outer => { l with candidate, outer }
  return { l with keyAllowed := false }.push t 1

def comma? (l : Lexer) : Option Lexer := do
  let l ← l.dropCandidate?
  return { l with keyAllowed := true }.push .comma 1

def dash? (l : Lexer) : Option Lexer := do
  if !l.inFlow && !l.keyAllowed then none
  else
    let l ← (l.openBlock l.cursor.mark.column l.tokens.size .blockList).dropCandidate?
    return { l with keyAllowed := true }.push .dash 1

def questionMark? (l : Lexer) : Option Lexer := do
  if !l.inFlow && !l.keyAllowed then none
  else
    let l ← (l.openBlock l.cursor.mark.column l.tokens.size .blockMapping).dropCandidate?
    return { l with keyAllowed := !l.inFlow }.push .key 1

/-- The colon after a key, which makes the candidate the key. -/
def colon? (l : Lexer) : Option Lexer :=
  match l.candidate with
  | some k =>
    let l := { l with tokens := l.tokens.insertIdxIfInBounds k.place .key }
    let l := l.openBlock k.mark.column k.place .blockMapping
    some ({ l with candidate := none, keyAllowed := false }.push .value 1)
  | none =>
    if !l.inFlow && !l.keyAllowed then none
    else
      let l := l.openBlock l.cursor.mark.column l.tokens.size .blockMapping
      some ({ l with keyAllowed := !l.inFlow }.push .value 1)

/-- The marker of a document, which closes all blocks. -/
def marker? (l : Lexer) (t : Token) : Option Lexer := do
  let l ← (l.closeBlocks (-1)).dropCandidate?
  return { l with keyAllowed := false }.push t 3

/-- A scalar that can be a key; `fuel` is at least the number of characters left. -/
def scalar? (l : Lexer) (fuel : Nat) : Option Lexer := do
  let l ← l.mayBeKey?
  let c := l.cursor
  let (s, value) ← match c.rest with
    | '\'' :: _ => (single? fuel (c.drop 1)).map fun s => (s, Document.text s.text)
    | '"' :: _ => (double? fuel (c.drop 1)).map fun s => (s, Document.text s.text)
    | _ => (plain? l.inFlow (l.indent + 1).toNat fuel [] c).map fun s => (s, Document.plain s.text)
  return { l with
    cursor := s.cursor, tokens := l.tokens.push (.scalar value), keyAllowed := s.crossed }

/-- A block scalar, which is no key. -/
def block? (l : Lexer) (fuel : Nat) (literal : Bool) : Option Lexer := do
  let l ← l.dropCandidate?
  let s ← Yaml.block? literal l.indent fuel (l.cursor.drop 1)
  return { l with
    cursor := s.cursor, tokens := l.tokens.push (.scalar (.text s.text)), keyAllowed := true }

/-- Passes over white space; then blocks end that are indented further than the next token. -/
def approach? (l : Lexer) : Option Lexer := do
  let (keyAllowed, cursor) :=
    tokenStart l.inFlow false l.keyAllowed l.cursor.rest l.cursor.mark
  let l ← { l with keyAllowed, cursor }.dropLate?
  return l.closeBlocks cursor.mark.column

/-- Reads the token that starts with a character. -/
def token? (l : Lexer) (fuel : Nat) (c : Char) (rest : List Char) : Option Lexer :=
  let isMark := l.inFlow || startsSpace rest
  if l.cursor.hasMarker '-' then l.marker? .documentStart
  else if l.cursor.hasMarker '.' then l.marker? .documentEnd
  else match c with
    | '[' => l.openBracket? .flowList
    | '\x7b' => l.openBracket? .flowMapping
    | ']' => l.closeBracket? .flowListEnd
    | '\x7d' => l.closeBracket? .flowMappingEnd
    | ',' => l.comma?
    | '\'' => l.scalar? fuel
    | '"' => l.scalar? fuel
    | '-' => if startsSpace rest then l.dash? else l.scalar? fuel
    | '?' => if isMark then l.questionMark? else l.scalar? fuel
    | ':' => if isMark then l.colon? else l.scalar? fuel
    | '|' => if l.inFlow then none else l.block? fuel true
    | '>' => if l.inFlow then none else l.block? fuel false
    | c => if opensPlain c then l.scalar? fuel else none

/-- All tokens of the text; at its end all blocks are closed. Every token has a character, which
`fuel` counts. -/
def run? : Nat → Lexer → Option (List Token)
  | 0, _ => none
  | fuel + 1, l => do
    let l ← l.approach?
    match l.cursor.rest with
    | [] => (l.closeBlocks (-1)).dropCandidate?.map (·.tokens.toList)
    | c :: rest => run? fuel (← l.token? fuel c rest)

end Lexer

/-- The characters that a text may hold: no controls but tabs and line breaks. -/
def isAllowed (c : Char) : Bool :=
  ['\t', '\n', '\r', '\u0085'].contains c || (' ' ≤ c && c ≤ '~') ||
    ('\u00a0' ≤ c && c ≠ '\ufffe' && c ≠ '\uffff')

def unifyBreaks : List Char → List Char
  | '\r' :: '\n' :: rest => '\n' :: unifyBreaks rest
  | '\r' :: rest => '\n' :: unifyBreaks rest
  | '\u0085' :: rest => '\n' :: unifyBreaks rest
  | c :: rest => c :: unifyBreaks rest
  | [] => []

def tokens? (text : List Char) : Option (List Token) :=
  if text.all isAllowed then
    Lexer.run? (text.length + 2) { cursor := ⟨unifyBreaks text, {}⟩ }
  else none

end FlagCombat.Document.Yaml
