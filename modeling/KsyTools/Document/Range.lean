/-
# Text ranges

A range covers the characters of a text from its start up to, and without, its end.
-/
import KsyTools.Text.Basic

namespace KsyTools

/-- A range of character offsets. -/
structure TextRange where
  start : Int
  stop : Int
  deriving Repr, DecidableEq, Inhabited

namespace TextRange

/-- The range of a given length. -/
def ofLength (start length : Int) : TextRange :=
  ⟨start, start + length⟩

/-- The range between two offsets of a text. -/
def ofOffsets (start stop : Nat) : TextRange :=
  ⟨start, stop⟩

/-- The number of characters covered. -/
def length (r : TextRange) : Int :=
  r.stop - r.start

/-- Moves a range towards the start of the text. -/
def shiftLeft (r : TextRange) (delta : Int) : TextRange :=
  ⟨r.start - delta, r.stop - delta⟩

/-- Moves a range towards the end of the text. -/
def shiftRight (r : TextRange) (delta : Int) : TextRange :=
  ⟨r.start + delta, r.stop + delta⟩

/-- Whether an offset is in a range.  The end counts, so that a cursor right behind a word still
hits it. -/
def contains (r : TextRange) (offset : Int) : Bool :=
  r.start ≤ offset && offset ≤ r.stop

/-- The part of a text that a range covers; negative offsets count from the end. -/
def substring (r : TextRange) (text : String) : String :=
  String.ofList (Text.slice text.toList r.start r.stop)

end TextRange

end KsyTools
