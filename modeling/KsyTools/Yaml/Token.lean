/-
# YAML tokens

The smallest parts of a YAML text that its grammar is about.  Indentation shows up as tokens for
the start and end of block collections, and a key that is only recognised by the colon behind it
gets a key token in front of it.
-/
import KsyTools.Yaml.Problem

namespace KsyTools.Yaml

/-- What a directive says. -/
inductive Directive where
  | version (major minor : Nat)
  | tag (handle expansion : String)
  | other (name : String)
  deriving Repr, DecidableEq

/-- A token without its place. -/
inductive TokenKind where
  | streamStart
  | streamEnd
  | directive (d : Directive)
  | documentStart
  | documentEnd
  | blockSequenceStart
  | blockMappingStart
  | blockEnd
  | flowSequenceStart
  | flowMappingStart
  | flowSequenceEnd
  | flowMappingEnd
  | key
  | value
  | blockEntry
  | flowEntry
  | alias (name : String)
  | anchor (name : String)
  /-- A tag in parts: the handle that a directive may have declared, and the rest. -/
  | tag (handle : Option String) (suffix : String)
  | scalar (text : String) (plain : Bool)
  deriving Repr, DecidableEq

/-- A token and the offsets of its start and end. -/
structure Token where
  kind : TokenKind
  start : Nat
  stop : Nat
  deriving Repr, DecidableEq

/-- How a token is called in messages. -/
def TokenKind.name : TokenKind → String
  | .streamStart => "<stream start>"
  | .streamEnd => "<stream end>"
  | .directive _ => "<directive>"
  | .documentStart => "<document start>"
  | .documentEnd => "<document end>"
  | .blockSequenceStart => "<block sequence start>"
  | .blockMappingStart => "<block mapping start>"
  | .blockEnd => "<block end>"
  | .flowSequenceStart => "["
  | .flowMappingStart => "\x7b"
  | .flowSequenceEnd => "]"
  | .flowMappingEnd => "\x7d"
  | .key => "?"
  | .value => ":"
  | .blockEntry => "-"
  | .flowEntry => ","
  | .alias _ => "<alias>"
  | .anchor _ => "<anchor>"
  | .tag _ _ => "<tag>"
  | .scalar _ _ => "<scalar>"

/-- The computations that read one token: they move a cursor, and may fail. -/
abbrev Scan := StateT Cursor (Except Failure)

namespace Scan

/-- The next character. -/
def peek : Scan Char :=
  return (← get).peek

/-- The character `n` places ahead. -/
def peekAt (n : Nat) : Scan Char :=
  return (← get).peekAt n

/-- The offset reached. -/
def index : Scan Nat :=
  return (← get).index

/-- The number of characters ahead. -/
def remaining : Scan Nat :=
  return (← get).rest.length

/-- Moves over `n` characters. -/
def skip (n : Nat) : Scan Unit :=
  modify fun c => c.advance n

/-- Takes `n` characters. -/
def take (n : Nat) : Scan (List Char) := do
  let c ← get
  set (c.advance n)
  return c.rest.take n

/-- Takes characters as long as they are of a class. -/
def takeWhile (p : Char → Bool) : Scan (List Char) := do
  take ((← get).rest.takeWhile p).length

/-- Moves over characters as long as they are of a class. -/
def skipWhile (p : Char → Bool) : Scan Unit := do
  let _ ← takeWhile p

/-- Fails at the place reached, while reading something that began at `start`. -/
def fail {α : Type} (context : String) (start : Nat) (problem : String) : Scan α := do
  throw (.marked ⟨some context, some start, problem, ← index⟩)

/-- Fails because of the character `c`, which is not what was expected. -/
def failFound {α : Type} (context : String) (start : Nat) (expected : String) (c : Char) :
    Scan α :=
  fail context start s!"expected {expected}, but found {Text.quote (String.singleton c)}"

/-- Moves over a line break, if there is one, and gives what it means in a text: a line feed,
except that the two Unicode separators stand for themselves. -/
def lineBreak : Scan (List Char) := do
  let c ← get
  match c.rest with
  | '\r' :: '\n' :: _ => skip 2; return ['\n']
  | ch :: _ =>
    if ch = '\u2028' ∨ ch = '\u2029' then skip 1; return [ch]
    else if isBreak ch then skip 1; return ['\n']
    else return []
  | [] => return []

/-- Moves over spaces, then over a comment. -/
def skipComment : Scan Unit := do
  skipWhile (· == ' ')
  if (← peek) = '#' then skipWhile fun c => !isBreakOrEnd c

end Scan

/-- Whether a document marker, followed by a gap, stands at the start of `cs`. -/
def startsWithMarker (marker : Char) (cs : List Char) : Bool :=
  match cs with
  | a :: b :: c :: rest =>
    a == marker && b == marker && c == marker && isGap (rest.headD endMark)
  | _ => false

/-- Whether a document starts or ends at the start of `cs`. -/
def startsWithAnyMarker (cs : List Char) : Bool :=
  startsWithMarker '-' cs || startsWithMarker '.' cs

end KsyTools.Yaml
