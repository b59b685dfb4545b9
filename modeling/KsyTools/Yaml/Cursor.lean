/-
# Places in a YAML text

A cursor is a place in a text together with its line and column.  Places that are kept, in tokens,
nodes and errors, are plain offsets; line and column of an offset are those of the cursor that has
advanced so far from the start of the text.
-/
import KsyTools.Text.Lines

namespace KsyTools.Yaml

/-- A place in a text: what is still ahead, how many characters are behind, and where that is. -/
structure Cursor where
  rest : List Char
  index : Nat
  line : Nat
  column : Nat
  deriving Repr, Inhabited

/-- Characters that end a line. -/
def isBreak (c : Char) : Bool :=
  c == '\n' || c == '\r' || c == '\u0085' || c == '\u2028' || c == '\u2029'

/-- The character that stands for the end of a text. -/
def endMark : Char := '\x00'

/-- The end of the text or of a line. -/
def isBreakOrEnd (c : Char) : Bool :=
  c == endMark || isBreak c

/-- The end of the text or of a line, or a space. -/
def isSpaceBreakOrEnd (c : Char) : Bool :=
  c == ' ' || isBreakOrEnd c

/-- White space, the end of a line, or the end of the text. -/
def isGap (c : Char) : Bool :=
  c == '\t' || isSpaceBreakOrEnd c

/-- Letters, digits, hyphen and underscore, in ASCII. -/
def isNameChar (c : Char) : Bool :=
  c.isAlphanum || c == '-' || c == '_'

namespace Cursor

/-- The start of a text. -/
def start (source : List Char) : Cursor :=
  ⟨source, 0, 0, 0⟩

/-- The character `n` places ahead. -/
def peekAt (c : Cursor) (n : Nat) : Char :=
  c.rest.getD n endMark

/-- The next character. -/
def peek (c : Cursor) : Char :=
  c.rest.headD endMark

/-- Whether the line ends with the character `ch`, which stands before `rest`: a carriage return
before a line feed leaves that to the line feed. -/
def endsLine (ch : Char) (rest : List Char) : Bool :=
  if ch = '\r' then rest.head? != some '\n' else isBreak ch

/-- Moves over one character.  A byte order mark takes no column. -/
def step (c : Cursor) : Cursor :=
  match c.rest with
  | [] => c
  | ch :: rest =>
    if endsLine ch rest then ⟨rest, c.index + 1, c.line + 1, 0⟩
    else ⟨rest, c.index + 1, c.line, if ch = '\ufeff' then c.column else c.column + 1⟩

/-- Moves over `n` characters. -/
def advance (c : Cursor) : Nat → Cursor
  | 0 => c
  | n + 1 => c.step.advance n

/-- Line and column of a cursor. -/
def position (c : Cursor) : Position :=
  ⟨c.line, c.column⟩

end Cursor

/-- Line and column of an offset in a text. -/
def positionAt (source : List Char) (offset : Nat) : Position :=
  ((Cursor.start source).advance offset).position

end KsyTools.Yaml
