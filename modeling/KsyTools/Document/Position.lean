/-
# Offsets and positions

Editors speak of lines and characters within a line, the tools here of offsets into the whole text.
Lines end with a line feed only.
-/
import KsyTools.Text.Lines

namespace KsyTools

/-- The offsets behind the line feeds of a text that itself starts at `offset`. -/
def lineStartsFrom (offset : Nat) : List Char → List Nat
  | [] => []
  | c :: rest =>
    if c = '\n' then (offset + 1) :: lineStartsFrom (offset + 1) rest
    else lineStartsFrom (offset + 1) rest

/-- The offsets at which the lines of a text start. -/
def lineStarts (source : List Char) : List Nat :=
  0 :: lineStartsFrom 0 source

/-- An offset moved into a text of the given length. -/
def clampOffset (length : Nat) (offset : Int) : Nat :=
  min offset.toNat length

/-- The position of an offset: the last line that starts at or before it, and the distance from
there. -/
def offsetToPosition (source : List Char) (offset : Int) : Position :=
  let o := clampOffset source.length offset
  let before := (lineStarts source).takeWhile (· ≤ o)
  ⟨before.length - 1, o - before.getLastD 0⟩

/-- The offset of a position.  A character beyond the end of its line stands for that end, a line
beyond the last for the end of the text. -/
def positionToOffset (source : List Char) (line character : Int) : Nat :=
  if line < 0 then 0
  else
    let starts := lineStarts source
    match starts[line.toNat]? with
    | none => source.length
    | some start =>
      let lineEnd :=
        match starts[line.toNat + 1]? with
        | some next => next - 1
        | none => source.length
      min (start + character.toNat) lineEnd

end KsyTools
