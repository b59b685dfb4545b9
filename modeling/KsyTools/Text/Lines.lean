/-
# Lines

A place in a text as people give it: a line, and a column within the line.  There are two ways to
divide a text into lines.  `splitLines` knows every line boundary of the Unicode standard, a
carriage return followed by a line feed counting as one; `splitOnChar` cuts at a single character.
-/

namespace KsyTools

/-- A line and a column, both counted from zero. -/
structure Position where
  line : Nat
  column : Nat
  deriving Repr, DecidableEq, Inhabited

namespace Text

/-- Line boundaries other than the pair of carriage return and line feed. -/
def isLineBoundary (c : Char) : Bool :=
  c == '\n' || c == '\r' || c == '\x0b' || c == '\x0c' || c == '\x1c' || c == '\x1d' ||
    c == '\x1e' || c == '\u0085' || c == '\u2028' || c == '\u2029'

/-- Splits the rest of a text into lines that keep their boundary apart; `line` is the part of
the current line that was read already, reversed. -/
def splitLinesFrom (line : List Char) : List Char → List (List Char × List Char)
  | [] => if line.isEmpty then [] else [(line.reverse, [])]
  | '\r' :: '\n' :: rest => (line.reverse, ['\r', '\n']) :: splitLinesFrom [] rest
  | c :: rest =>
    if isLineBoundary c then (line.reverse, [c]) :: splitLinesFrom [] rest
    else splitLinesFrom (c :: line) rest

/-- The lines of a text without their boundaries. -/
def splitLines (cs : List Char) : List (List Char) :=
  (splitLinesFrom [] cs).map Prod.fst

/-- The lines of a text with their boundaries. -/
def splitLinesKeepingEnds (cs : List Char) : List (List Char) :=
  (splitLinesFrom [] cs).map fun (line, boundary) => line ++ boundary

/-- The parts of a text between the occurrences of a character. -/
def splitOnChar (sep : Char) : List Char → List (List Char)
  | [] => [[]]
  | c :: rest =>
    let parts := splitOnChar sep rest
    if c = sep then [] :: parts
    else
      match parts with
      | part :: others => (c :: part) :: others
      | [] => [[c]]

/-- Carriage returns, alone or before a line feed, become line feeds. -/
def unifyNewlines : List Char → List Char
  | [] => []
  | '\r' :: '\n' :: rest => '\n' :: unifyNewlines rest
  | '\r' :: rest => '\n' :: unifyNewlines rest
  | c :: rest => c :: unifyNewlines rest

end Text

end KsyTools
