import FlagCombat.Document.Yaml.Cursor
import FlagCombat.Decimal.Reading

/-!
The scalars of YAML: unquoted, in single or double quotes, and literal or folded blocks.
-/

namespace FlagCombat.Document.Yaml

/-- A scalar that was read: its characters, the place after it, and whether that place is on a later
line than its last character. -/
structure Scalar where
  chars : List Char
  cursor : Cursor
  crossed : Bool := false

def Scalar.text (s : Scalar) : String := String.ofList s.chars

def Scalar.prepend (chars : List Char) (s : Scalar) : Scalar := { s with chars := chars ++ s.chars }

/-- The characters that stop an unquoted scalar inside brackets. -/
def isFlowMark (c : Char) : Bool := c = ',' || c = '[' || c = ']' || c = '\x7b' || c = '\x7d'

/-- Whether a character may open an unquoted scalar; a dash, a question mark or a colon may where it
is no mark. -/
def opensPlain (c : Char) : Bool :=
  !(isSpace c || isFlowMark c ||
    ['#', '&', '*', '!', '|', '>', '\'', '"', '%', '@', '\x60'].contains c)

/-- The characters of an unquoted scalar up to white space, up to a colon before white space, and
inside brackets up to their marks. There a colon may not stand before a mark or a question mark. -/
def plainChunk? (flow : Bool) : List Char → Option (List Char)
  | [] => some []
  | c :: rest =>
    if isSpace c then some []
    else if flow && c = ':' && rest.head?.any fun d => isFlowMark d || d = '?' then none
    else if (c = ':' && startsSpace rest) || (flow && isFlowMark c) then some []
    else (plainChunk? flow rest).map (c :: ·)

/-- An unquoted scalar, or the rest of one after white space. Lines that are indented far enough
continue it. The white space after it is passed over. -/
def plain? (flow : Bool) (indent : Nat) : Nat → List Char → Cursor → Option Scalar
  | 0, _, _ => none
  | fuel + 1, space, c => do
    let chunk ←
      if c.atMarker || c.rest.head? = some '#' then some [] else plainChunk? flow c.rest
    if chunk.isEmpty then return ⟨[], c, space.any isBreak⟩
    let read := foldSpace space ++ chunk
    let after := c.drop chunk.length
    let space := after.rest.takeWhile isSpace
    let next := after.drop space.length
    if tabIndents indent none space then none
    else if space.isEmpty || (!flow && next.mark.column < indent) then
      return ⟨read, next, space.any isBreak⟩
    else return (← plain? flow indent fuel space next).prepend read

/-- A scalar in single quotes, after the first one; a quote in it is written twice. -/
def single? : Nat → Cursor → Option Scalar
  | 0, _ => none
  | fuel + 1, c =>
    let chunk := c.rest.takeWhile fun d => !isSpace d && d ≠ '\''
    let next := c.drop chunk.length
    if c.atMarker then none
    else match next.rest with
      | [] => none
      | '\'' :: '\'' :: _ => (single? fuel (next.drop 2)).map (·.prepend (chunk ++ ['\'']))
      | '\'' :: _ => some ⟨chunk, next.drop 1, false⟩
      | rest =>
        (single? fuel (next.skip isSpace)).map
          (·.prepend (chunk ++ foldSpace (rest.takeWhile isSpace)))

/-- The character of an escape of one letter. -/
def simpleEscape? (c : Char) : Option Char :=
  match c with
  | '0' => some '\x00'
  | 'a' => some '\x07'
  | 'b' => some '\x08'
  | 't' => some '\t'
  | '\t' => some '\t'
  | 'n' => some '\n'
  | 'v' => some '\x0b'
  | 'f' => some '\x0c'
  | 'r' => some '\r'
  | 'e' => some '\x1b'
  | ' ' => some ' '
  | '"' => some '"'
  | '/' => some '/'
  | '\\' => some '\\'
  | 'N' => some '\u0085'
  | '_' => some '\u00a0'
  | 'L' => some '\u2028'
  | 'P' => some '\u2029'
  | _ => none

/-- The number of hexadecimal digits after the letter of an escape. -/
def escapeWidth? (c : Char) : Option Nat :=
  if c = 'x' then some 2 else if c = 'u' then some 4 else if c = 'U' then some 8 else none

/-- The character of an escape after its backslash, and the length of the escape. -/
def escape? (cs : List Char) : Option (Char × Nat) := do
  let letter ← cs.head?
  match simpleEscape? letter with
  | some d => return (d, 1)
  | none =>
    let width ← escapeWidth? letter
    let digits := (cs.drop 1).take width
    let code ← Decimal.natOf? 16 digits
    if digits.length = width ∧ (Char.ofNat code).toNat = code then
      return (Char.ofNat code, width + 1)
    else none

/-- A scalar in double quotes, after the first one. After a backslash a line break stands for
nothing, and the further ones for themselves. -/
def double? : Nat → Cursor → Option Scalar
  | 0, _ => none
  | fuel + 1, c =>
    let chunk := c.rest.takeWhile fun d => !isSpace d && d ≠ '"' && d ≠ '\\'
    let next := c.drop chunk.length
    if c.atMarker then none
    else match next.rest with
      | [] => none
      | '"' :: _ => some ⟨chunk, next.drop 1, false⟩
      | '\\' :: rest =>
        if rest.head?.any isBreak then
          let space := (rest.drop 1).takeWhile isSpace
          (double? fuel (next.drop (space.length + 2))).map
            (·.prepend (chunk ++ space.filter isBreak))
        else do
          let (d, width) ← escape? rest
          return (← double? fuel (next.drop (width + 1))).prepend (chunk ++ [d])
      | rest =>
        (double? fuel (next.skip isSpace)).map
          (·.prepend (chunk ++ foldSpace (rest.takeWhile isSpace)))

/-- What becomes of the line breaks at the end of a block scalar. -/
inductive Chomp where
  | strip
  | clip
  | keep
deriving DecidableEq

/-- The sign that says what the last breaks become. -/
def chompSign? : List Char → Option Chomp
  | '-' :: _ => some .strip
  | '+' :: _ => some .keep
  | _ => none

/-- The digit, from one to nine, that says how far a block scalar is indented. -/
def indentDigit? (cs : List Char) : Option Nat :=
  cs.head?.bind fun c => if '1' ≤ c ∧ c ≤ '9' then some (c.toNat - '0'.toNat) else none

/-- The marks after the sign of a block scalar, in either order: what its last breaks become, how
far it is indented, zero if its first line says it, and the length of the marks. -/
def blockHeader (cs : List Char) : Chomp × Nat × Nat :=
  match chompSign? cs, indentDigit? cs with
  | some chomp, _ => match indentDigit? (cs.drop 1) with
    | some indent => (chomp, indent, 2)
    | none => (chomp, 0, 1)
  | none, some indent => match chompSign? (cs.drop 1) with
    | some chomp => (chomp, indent, 2)
    | none => (.clip, indent, 1)
  | none, none => (.clip, 0, 0)

/-- The breaks of the empty lines of a block scalar, the widest indentation, and the place after the
indentation of the next line; `indent` is zero while it is not known. A tab may not indent. -/
def emptyLines? (indent : Nat) : Nat → List Char → Mark → Option (List Char × Nat × Cursor)
  | widest, [], m => some ([], max widest m.column, ⟨[], m⟩)
  | widest, c :: rest, m =>
    if isBreak c then do
      let (breaks, widest, next) ← emptyLines? indent (max widest m.column) rest (m.after c)
      return (c :: breaks, widest, next)
    else if isBlank c && (indent = 0 || m.column < indent) then
      if c = ' ' then emptyLines? indent widest rest (m.after c) else none
    else some ([], max widest m.column, ⟨c :: rest, m⟩)

/-- The lines of a block scalar: their characters, the break of the last one, the breaks of the
empty lines after it, and the place. -/
structure BlockLines where
  chars : List Char
  last : List Char
  empty : List Char
  cursor : Cursor

/-- What stands between two lines of a block scalar; `blank` says whether one of them starts with a
blank. A single newline between lines of a folded scalar that start without is a space. -/
def lineJoint (literal : Bool) (last empty : List Char) (blank : Bool) : List Char :=
  if literal || blank || last ≠ ['\n'] then last ++ empty
  else if empty.isEmpty then [' '] else empty

/-- The lines of a block scalar at a column, after the break of a line, the breaks of empty lines,
and whether the line starts with a blank. -/
def blockLines? (literal : Bool) (indent : Nat) :
    Nat → List Char → List Char → Bool → Cursor → Option BlockLines
  | 0, _, _, _, _ => none
  | fuel + 1, last, empty, blank, c =>
    if c.mark.column ≠ indent || c.rest.isEmpty then some ⟨[], last, empty, c⟩
    else do
      let starts := c.rest.head?.any isBlank
      let line := c.rest.takeWhile (!isBreak ·)
      let next := c.drop line.length
      let start := next.drop 1
      let (breaks, _, after) ← emptyLines? indent 0 start.rest start.mark
      let lines ← blockLines? literal indent fuel (next.rest.take 1) breaks starts after
      let joint := lineJoint literal last empty (blank || starts)
      return { lines with chars := joint ++ line ++ lines.chars }

/-- A block scalar after its sign; `parent` is the indentation around it, less than zero at
the top. -/
def block? (literal : Bool) (parent : Int) (fuel : Nat) (c : Cursor) : Option Scalar := do
  let (chomp, width, count) := blockHeader c.rest
  let header := (c.drop count).skip isBlank
  let header := if header.rest.head? = some '#' then header.skip (!isBreak ·) else header
  if !header.rest.isEmpty && !header.rest.head?.any isBreak then none
  else
    let body := header.drop 1
    let given := if width = 0 then 0 else (max parent 0).toNat + width
    let (breaks, widest, start) ← emptyLines? given 0 body.rest body.mark
    let indent := if given = 0 then max (max widest (parent + 1).toNat) 1 else given
    let lines ← blockLines? literal indent fuel [] breaks false start
    let ending := match chomp with
      | .strip => []
      | .clip => lines.last
      | .keep => lines.last ++ lines.empty
    return ⟨lines.chars ++ ending, lines.cursor, true⟩

end FlagCombat.Document.Yaml
