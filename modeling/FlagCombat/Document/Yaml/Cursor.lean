/-!
A place in a YAML text: the characters that follow, and how far the text was read. Columns measure
indentation; lines and bytes tell whether a key is too long. A newline is a single character here.
-/

namespace FlagCombat.Document.Yaml

def isBlank (c : Char) : Bool := c = ' ' || c = '\t'

/-- A newline, or a separator of lines or paragraphs. -/
def isBreak (c : Char) : Bool := c = '\n' || c = '\u2028' || c = '\u2029'

def isSpace (c : Char) : Bool := isBlank c || isBreak c

/-- Whether a text starts with white space, or is over. -/
def startsSpace : List Char → Bool
  | [] => true
  | c :: _ => isSpace c

/-- How far a text was read: whole lines, characters of the line after them, and bytes of all. -/
structure Mark where
  line : Nat := 0
  column : Nat := 0
  offset : Nat := 0
deriving DecidableEq, Repr

def Mark.after (m : Mark) (c : Char) : Mark :=
  if isBreak c then ⟨m.line + 1, 0, m.offset + c.utf8Size⟩
  else ⟨m.line, m.column + 1, m.offset + c.utf8Size⟩

/-- A place in a text. -/
structure Cursor where
  rest : List Char
  mark : Mark
deriving DecidableEq, Repr

namespace Cursor

def drop (c : Cursor) (count : Nat) : Cursor :=
  ⟨c.rest.drop count, (c.rest.take count).foldl Mark.after c.mark⟩

/-- The place after all characters at the start that pass a test. -/
def skip (c : Cursor) (test : Char → Bool) : Cursor := c.drop (c.rest.takeWhile test).length

/-- Whether a mark stands three times at the start of a line, and then white space. -/
def hasMarker (c : Cursor) (sign : Char) : Bool :=
  c.mark.column = 0 && c.rest.take 3 = [sign, sign, sign] && startsSpace (c.rest.drop 3)

def atMarker (c : Cursor) : Bool := c.hasMarker '-' || c.hasMarker '.'

end Cursor

/-- White space, comments and what precedes a line are passed over, up to the next token. In a block
a tab does not indent what may be a key, and after a line break there may be one. Gives whether
there may be a key, and the place. -/
def tokenStart (flow : Bool) : Bool → Bool → List Char → Mark → Bool × Cursor
  | _, keyAllowed, [], m => (keyAllowed, ⟨[], m⟩)
  | comment, keyAllowed, c :: rest, m =>
    if isBreak c then tokenStart flow false (keyAllowed || !flow) rest (m.after c)
    else if comment || c = ' ' || (c = '\t' && (flow || !keyAllowed)) ||
        (c = '\ufeff' && m.column = 0) then
      tokenStart flow comment keyAllowed rest (m.after c)
    else if c = '#' then tokenStart flow true keyAllowed rest (m.after c)
    else (keyAllowed, ⟨c :: rest, m⟩)

/-- What white space inside a scalar stands for: a single newline is a space, the first of several
is dropped, and other separators stay. -/
def foldSpace (space : List Char) : List Char :=
  match space.filter isBreak with
  | [] => space
  | ['\n'] => [' ']
  | '\n' :: breaks => breaks
  | breaks => breaks

/-- Whether a tab stands before a column of a line; the column reached is `none` on the first
line, which may hold tabs. -/
def tabIndents (indent : Nat) : Option Nat → List Char → Bool
  | _, [] => false
  | column, c :: rest =>
    if isBreak c then tabIndents indent (some 0) rest
    else (c = '\t' && column.any (· < indent)) || tabIndents indent (column.map (· + 1)) rest

end FlagCombat.Document.Yaml
