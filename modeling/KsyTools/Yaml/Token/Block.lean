/-
# Block scalars

A literal scalar keeps its lines, a folded one joins lines that are not indented further.  The
header may set the indentation and what happens to the line breaks at the end.
-/
import KsyTools.Yaml.Token

namespace KsyTools.Yaml

/-- What happens to the line breaks at the end of a block scalar. -/
inductive Chomping where
  /-- All are dropped. -/
  | drop
  /-- One is kept. -/
  | clip
  /-- All are kept. -/
  | keep
  deriving Repr, DecidableEq

/-- The context of errors in block scalars. -/
def blockContext : String := "while scanning a block scalar"

/-- A chomping indicator, if there is one. -/
def chompingIndicator : Scan (Option Chomping) := do
  match ← Scan.peek with
  | '+' => Scan.skip 1; return some .keep
  | '-' => Scan.skip 1; return some .drop
  | _ => return none

/-- An indentation indicator, if there is one. -/
def indentIndicator (start : Nat) : Scan (Option Nat) := do
  let ch ← Scan.peek
  if ch.isDigit then
    if ch = '0' then
      Scan.fail blockContext start "expected indentation indicator in the range 1-9, but found 0"
    Scan.skip 1
    return some (ch.toNat - 48)
  else return none

/-- The header of a block scalar, up to the end of its line. -/
def blockHeader (start : Nat) : Scan (Chomping × Option Nat) := do
  let first ← chompingIndicator
  let indent ← indentIndicator start
  let chomping ←
    match first, indent with
    | none, some _ => chompingIndicator
    | _, _ => pure first
  let ch ← Scan.peek
  if !isSpaceBreakOrEnd ch then
    Scan.failFound blockContext start "chomping or indentation indicators" ch
  Scan.skipComment
  let ch ← Scan.peek
  if !isBreakOrEnd ch then
    Scan.failFound blockContext start "a comment or a line break" ch
  let _ ← Scan.lineBreak
  return (chomping.getD .clip, indent)

/-- Blank lines with any number of spaces: the line breaks, the greatest column reached, and the
end of the last line break. -/
def leadingBlankLines : (fuel : Nat) → List Char → Nat → Nat → Scan (List Char × Nat × Nat)
  | 0, breaks, widest, stop => return (breaks, widest, stop)
  | fuel + 1, breaks, widest, stop => do
    let ch ← Scan.peek
    if ch = ' ' then
      Scan.skip 1
      leadingBlankLines fuel breaks (max widest (← get).column) stop
    else if isBreak ch then
      let b ← Scan.lineBreak
      leadingBlankLines fuel (breaks ++ b) widest (← Scan.index)
    else return (breaks, widest, stop)

/-- Moves over spaces up to a column. -/
def skipIndent (indent : Nat) : Scan Unit := do
  let c ← get
  Scan.skip (min (indent - c.column) (c.rest.takeWhile (· == ' ')).length)

/-- Blank lines indented by at most `indent`: the line breaks and the end of the last one. -/
def blankLines (indent : Nat) : (fuel : Nat) → List Char → Nat → Scan (List Char × Nat)
  | 0, breaks, stop => return (breaks, stop)
  | fuel + 1, breaks, stop => do
    skipIndent indent
    if isBreak (← Scan.peek) then
      let b ← Scan.lineBreak
      blankLines indent fuel (breaks ++ b) (← Scan.index)
    else return (breaks, stop)

/-- What was read of a block scalar: the text without the breaks at its end, the break of its last
line, the blank lines behind it, and where those end. -/
structure BlockText where
  text : List Char
  lastBreak : List Char
  breaks : List Char
  stop : Nat

/-- Reads the lines of a block scalar. -/
def blockLines (folded : Bool) (indent : Nat) : (fuel : Nat) → BlockText → Scan BlockText
  | 0, read => return read
  | fuel + 1, read => do
    let c ← get
    if c.column != indent || c.rest.isEmpty then return read
    let isIndented (ch : Char) : Bool := ch == ' ' || ch == '\t'
    let line ← Scan.takeWhile fun ch => !isBreakOrEnd ch
    let lastBreak ← Scan.lineBreak
    let (breaks, stop) ← blankLines indent ((← Scan.remaining) + 1) [] (← Scan.index)
    let text := read.text ++ read.breaks ++ line
    let d ← get
    if d.column = indent && !d.rest.isEmpty then
      let joint :=
        if folded && lastBreak = ['\n'] && !isIndented c.peek && !isIndented d.peek then
          if breaks.isEmpty then [' '] else []
        else lastBreak
      blockLines folded indent fuel ⟨text ++ joint, lastBreak, breaks, stop⟩
    else return ⟨text, lastBreak, breaks, stop⟩

/-- Reads a block scalar inside a collection that is indented by `parent`. -/
def blockScalar (folded : Bool) (parent : Int) : Scan Token := do
  let start ← Scan.index
  Scan.skip 1
  let (chomping, indicator) ← blockHeader start
  let least := (max (parent + 1) 1).toNat
  let fuel := (← Scan.remaining) + 1
  let (indent, breaks, stop) ←
    match indicator with
    | none =>
      let (breaks, widest, stop) ← leadingBlankLines fuel [] 0 (← Scan.index)
      pure (max least widest, breaks, stop)
    | some n =>
      let indent := least + n - 1
      let (breaks, stop) ← blankLines indent fuel [] (← Scan.index)
      pure (indent, breaks, stop)
  let read ← blockLines folded indent fuel ⟨[], [], breaks, stop⟩
  let tail :=
    match chomping with
    | .drop => []
    | .clip => read.lastBreak
    | .keep => read.lastBreak ++ read.breaks
  return ⟨.scalar (String.ofList (read.text ++ tail)) false, start, read.stop⟩

end KsyTools.Yaml
