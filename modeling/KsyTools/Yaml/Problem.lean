/-
# Problems in YAML texts

A problem says what was found, and often what was being read and where that began.  Problems are
shown with the line that they are on and a caret under the place.
-/
import KsyTools.Number.Literal
import KsyTools.Yaml.Cursor

namespace KsyTools.Yaml

/-- What is wrong with a YAML text, with the offsets that it is about. -/
structure Problem where
  /-- What was being read. -/
  context : Option String
  /-- Where that began. -/
  contextAt : Option Nat
  /-- What is wrong. -/
  problem : String
  /-- Where it is wrong. -/
  problemAt : Nat
  deriving Repr, DecidableEq

/-- Why the fields of a time stamp make no date or time. -/
inductive DateFault where
  | year (n : Nat)
  | month
  | day
  | hour
  | minute
  | second
  /-- The distance from UTC, in seconds, is a day or more. -/
  | offset (seconds : Int)
  deriving Repr, DecidableEq

/-- Why a scalar cannot be turned into the value that its tag asks for. -/
inductive ScalarFault where
  | number (fault : NumberFault)
  /-- An escape sequence names a code beyond the last character. -/
  | codePoint
  /-- An escape sequence names a code of more than 31 bits. -/
  | codePointSize
  | notBool (text : String)
  | notTimestamp
  /-- A mapping stands where the text of a time stamp is needed. -/
  | notText
  | date (fault : DateFault)
  deriving Repr, DecidableEq

/-- Why a YAML text gives no documents. -/
inductive Failure where
  /-- The text has a character that no YAML text may have. -/
  | character (c : Char) (offset : Nat)
  /-- The text is not well formed, or not meaningful. -/
  | marked (p : Problem)
  /-- Collections are nested too deeply. -/
  | tooDeep
  /-- A scalar has no value. -/
  | scalar (fault : ScalarFault)
  deriving Repr, DecidableEq

/-- A duration as its normal form shows it: whole days, and the seconds that remain. -/
def durationText (seconds : Int) : String :=
  let days := seconds.fdiv 86400
  let rest := seconds.fmod 86400
  if days = 0 ∧ rest = 0 then "datetime.timedelta(0)"
  else if days = 0 then s!"datetime.timedelta(seconds={rest})"
  else if rest = 0 then s!"datetime.timedelta(days={days})"
  else s!"datetime.timedelta(days={days}, seconds={rest})"

/-- The wording of a fault. -/
def DateFault.message : DateFault → String
  | .year n => s!"year {n} is out of range"
  | .month => "month must be in 1..12"
  | .day => "day is out of range for month"
  | .hour => "hour must be in 0..23"
  | .minute => "minute must be in 0..59"
  | .second => "second must be in 0..59"
  | .offset seconds =>
    "offset must be a timedelta strictly between -timedelta(hours=24) and timedelta(hours=24), not "
      ++ durationText seconds ++ "."

/-- The wording of a fault. -/
def ScalarFault.message : ScalarFault → String
  | .number fault => fault.message
  | .codePoint => "chr() arg not in range(0x110000)"
  | .codePointSize => "Python int too large to convert to C int"
  | .notBool text => Text.quote text
  | .notTimestamp => "'NoneType' object has no attribute 'groupdict'"
  | .notText => "expected string or bytes-like object, got 'list'"
  | .date fault => fault.message

/-- How many characters are shown on either side of a place. -/
def snippetReach : Nat := 36

/-- How many characters are given up where a line is cut. -/
def snippetCut : Nat := 5

/-- The mark for a cut. -/
def snippetDots : String := " ... "

/-- One side of the line around a place, nearest character first, cut if it is too long. -/
def snippetSide (cs : List Char) : List Char × Bool :=
  let side := cs.takeWhile fun c => !isBreakOrEnd c
  if side.length ≤ snippetReach then (side, false)
  else (side.take (snippetReach + 1 - snippetCut), true)

/-- The line around a place, with a caret below the place. -/
def snippet (source : List Char) (offset : Nat) : String :=
  let (left, cutLeft) := snippetSide (source.take offset).reverse
  let (right, cutRight) := snippetSide (source.drop offset)
  let head := if cutLeft then snippetDots else ""
  let tail := if cutRight then snippetDots else ""
  let indent := String.ofList (List.replicate 4 ' ')
  let blanks := String.ofList (List.replicate (4 + left.length + head.length) ' ')
  indent ++ head ++ String.ofList (left.reverse ++ right) ++ tail ++ "\n" ++ blanks ++ "^"

/-- How a place is shown. -/
def showPlace (source : List Char) (offset : Nat) : String :=
  let p := positionAt source offset
  s!"  in \"<unicode string>\", line {p.line + 1}, column {p.column + 1}:\n"
    ++ snippet source offset

/-- The wording of a problem: what was being read, where that began unless it is where the problem
is, the problem, and its place. -/
def Problem.message (p : Problem) (source : List Char) : String :=
  let contextPlace :=
    match p.contextAt with
    | some offset =>
      if positionAt source offset = positionAt source p.problemAt then []
      else [showPlace source offset]
    | none => []
  "\n".intercalate
    (p.context.toList ++ contextPlace ++ [p.problem, showPlace source p.problemAt])

/-- The wording for a character that no YAML text may have. -/
def characterMessage (c : Char) (offset : Nat) : String :=
  s!"unacceptable character #x{String.ofList (Text.hexPadded 4 c.toNat)}: special characters are "
    ++ s!"not allowed\n  in \"<unicode string>\", position {offset}"

end KsyTools.Yaml
