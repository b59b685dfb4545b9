/-
# Quoted scalars

Between single quotes only a doubled quote is special; between double quotes a backslash starts an
escape sequence.  Line breaks are folded as in plain scalars.
-/
import KsyTools.Yaml.Token

namespace KsyTools.Yaml

/-- The character of an escape sequence of one letter. -/
def escapedChar? : Char → Option Char
  | '0' => some '\x00'
  | 'a' => some '\x07'
  | 'b' => some '\x08'
  | 't' => some '\t'
  | '\t' => some '\t'
  | 'n' => some '\n'
  | 'v' => some '\x0b'
  | 'f' => some '\x0c'
  | 'r' => some '\r'
  | 'e' => some '\x1b'
  | ' ' => some ' '
  | '\x22' => some '\x22'
  | '\\' => some '\\'
  | '/' => some '/'
  | 'N' => some '\u0085'
  | '_' => some '\u00a0'
  | 'L' => some '\u2028'
  | 'P' => some '\u2029'
  | _ => none

/-- How many hexadecimal digits follow the letter of an escape sequence. -/
def escapeLength? : Char → Option Nat
  | 'x' => some 2
  | 'u' => some 4
  | 'U' => some 8
  | _ => none

/-- Reads `count` hexadecimal digits; the first character that is none is reported by `bad`, at the
place of the first digit. -/
def hexNumber (count : Nat) (bad : Char → Scan Unit) : Scan Nat := do
  let c ← get
  let digits := (List.range count).map fun k => c.peekAt k
  match digits.find? fun d => (Text.hexValue? d).isNone with
  | some d => bad d
  | none => pure ()
  Scan.skip count
  return Text.ofDigits 16 (digits.filterMap Text.hexValue?)

/-- The context of errors in the structure of a quoted scalar. -/
def quotedContext : String := "while scanning a quoted scalar"

/-- The context of errors in escape sequences. -/
def escapeContext : String := "while scanning a double-quoted scalar"

/-- The blank lines that follow a line break in a quoted scalar. -/
def quotedBreaks (start : Nat) : (fuel : Nat) → Scan (List Char)
  | 0 => return []
  | fuel + 1 => do
    if startsWithAnyMarker (← get).rest then
      Scan.fail quotedContext start "found unexpected document separator"
    Scan.skipWhile fun c => c == ' ' || c == '\t'
    if isBreak (← Scan.peek) then
      let b ← Scan.lineBreak
      return b ++ (← quotedBreaks start fuel)
    else return []

/-- The character that a hexadecimal escape sequence names.  Texts hold no lone surrogates: a
sequence for one (U+D800 to U+DFFF) gives U+0000. -/
def escapedCode (code : Nat) : Except Failure Char :=
  if code < 0x110000 then .ok (Char.ofNat code)
  else if code < 0x80000000 then .error (.scalar .codePoint)
  else .error (.scalar .codePointSize)

/-- Reads an escape sequence behind its backslash. -/
def escapeSequence (start : Nat) : Scan (List Char) := do
  let ch ← Scan.peek
  match escapedChar? ch, escapeLength? ch with
  | some c, _ => Scan.skip 1; return [c]
  | none, some count =>
    Scan.skip 1
    let code ← hexNumber count fun c =>
      Scan.failFound escapeContext start s!"escape sequence of {count} hexadecimal numbers" c
    return [← escapedCode code]
  | none, none =>
    if isBreak ch then
      let _ ← Scan.lineBreak
      quotedBreaks start ((← Scan.remaining) + 1)
    else
      Scan.fail escapeContext start
        s!"found unknown escape character {Text.quote (String.singleton ch)}"

/-- Reads the characters of a quoted scalar up to a gap or to its closing quote. -/
def quotedWord (double : Bool) (start : Nat) : (fuel : Nat) → Scan (List Char)
  | 0 => return []
  | fuel + 1 => do
    let run ← Scan.takeWhile fun c => !(c == '\x27' || c == '\x22' || c == '\\' || isGap c)
    let ch ← Scan.peek
    let more ←
      if !double && ch = '\x27' && (← Scan.peekAt 1) = '\x27' then
        Scan.skip 2; pure (some ['\x27'])
      else if (double && ch = '\x27') || (!double && (ch = '\x22' || ch = '\\')) then
        Scan.skip 1; pure (some [ch])
      else if double && ch = '\\' then
        Scan.skip 1; pure (some (← escapeSequence start))
      else pure none
    match more with
    | some cs => return run ++ cs ++ (← quotedWord double start fuel)
    | none => return run

/-- Reads a gap inside a quoted scalar and folds its line breaks. -/
def quotedGap (start : Nat) : Scan (List Char) := do
  let spaces ← Scan.takeWhile fun c => c == ' ' || c == '\t'
  let ch ← Scan.peek
  if ch = endMark then Scan.fail quotedContext start "found unexpected end of stream"
  else if isBreak ch then
    let first ← Scan.lineBreak
    let breaks ← quotedBreaks start ((← Scan.remaining) + 1)
    if first != ['\n'] then return first ++ breaks
    else if breaks.isEmpty then return [' ']
    else return breaks
  else return spaces

/-- Reads words and gaps up to the closing quote. -/
def quotedText (double : Bool) (start : Nat) : (fuel : Nat) → Scan (List Char)
  | 0 => return []
  | fuel + 1 => do
    let word ← quotedWord double start ((← Scan.remaining) + 1)
    if (← Scan.peek) = (if double then '\x22' else '\x27') then return word
    let gap ← quotedGap start
    return word ++ gap ++ (← quotedText double start fuel)

/-- Reads a quoted scalar. -/
def quotedScalar (double : Bool) : Scan Token := do
  let start ← Scan.index
  Scan.skip 1
  let text ← quotedText double start ((← Scan.remaining) + 1)
  Scan.skip 1
  return ⟨.scalar (String.ofList text) false, start, ← Scan.index⟩

end KsyTools.Yaml
