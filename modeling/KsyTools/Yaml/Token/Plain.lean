/-
# Plain scalars

A plain scalar is a run of words without quotes.  It may go on over several lines, whose breaks are
folded: a single break becomes a space, of several the first is dropped.
-/
import KsyTools.Yaml.Token

namespace KsyTools.Yaml

/-- The brackets, braces and commas that structure flow collections. -/
def isFlowIndicator (c : Char) : Bool :=
  c == ',' || c == '[' || c == ']' || c == '\x7b' || c == '\x7d'

/-- A word of a plain scalar at the start of a text. -/
def plainWord (flow : Bool) : List Char → List Char
  | [] => []
  | c :: rest =>
    let next := rest.headD endMark
    if isGap c || (c == ':' && (isGap next || (flow && isFlowIndicator next))) ||
        (flow && (isFlowIndicator c || c == '?')) then []
    else c :: plainWord flow rest

/-- The blank lines within a gap, and spaces; stops in front of a document marker and then gives
`none`. -/
def plainBreaks : (fuel : Nat) → Scan (Option (List Char))
  | 0 => return some []
  | fuel + 1 => do
    if startsWithAnyMarker (← get).rest then return none
    Scan.skipWhile (· == ' ')
    if isBreak (← Scan.peek) then
      let b ← Scan.lineBreak
      return (← plainBreaks fuel).map (b ++ ·)
    else return some []

/-- The gap behind a word, folded, and whether it has a line break.  The gap is empty where the
scalar cannot go on. -/
def plainGap : Scan (List Char × Bool) := do
  let spaces ← Scan.takeWhile (· == ' ')
  if isBreak (← Scan.peek) then
    let first ← Scan.lineBreak
    match ← plainBreaks ((← Scan.remaining) + 1) with
    | none => return ([], true)
    | some breaks =>
      if first != ['\n'] then return (first ++ breaks, true)
      else if breaks.isEmpty then return ([' '], true)
      else return (breaks, true)
  else return (spaces, false)

/-- What was read of a plain scalar: its text, the end of its last word, and whether a line break
follows that word. -/
structure PlainText where
  text : List Char
  stop : Nat
  broken : Bool

/-- Reads words and gaps up to the end of a plain scalar; `gap` stands before the next word.
A scalar in block context ends where a line is indented by less than `indent`. -/
def plainWords (flow : Bool) (indent : Int) : (fuel : Nat) → (gap : List Char) → PlainText →
    Scan PlainText
  | 0, _, read => return read
  | fuel + 1, gap, read => do
    if (← Scan.peek) = '#' then return read
    let word ← Scan.take (plainWord flow (← get).rest).length
    if word.isEmpty then return read
    let stop ← Scan.index
    let (next, broken) ← plainGap
    let read := ⟨read.text ++ gap ++ word, stop, broken⟩
    let c ← get
    if next.isEmpty || c.peek = '#' || (!flow && c.column < indent) then return read
    plainWords flow indent fuel next read

/-- Reads a plain scalar; also whether it ended behind a line break. -/
def plainScalar (flow : Bool) (indent : Int) : Scan (Token × Bool) := do
  let start ← Scan.index
  let read ← plainWords flow indent ((← Scan.remaining) + 1) [] ⟨[], start, false⟩
  return (⟨.scalar (String.ofList read.text) true, start, read.stop⟩, read.broken)

/-- Whether a plain scalar can start with the next character. -/
def startsPlain (flow : Bool) (c : Cursor) : Bool :=
  let ch := c.peek
  let indicator := ch ∈ ['-', '?', ':', ',', '[', ']', '\x7b', '\x7d', '#', '&', '*', '!', '|',
    '>', '\x27', '\x22', '%', '@', '\x60']
  (!isGap ch && !indicator) ||
    (!isGap (c.peekAt 1) && (ch == '-' || (!flow && (ch == '?' || ch == ':'))))

end KsyTools.Yaml
