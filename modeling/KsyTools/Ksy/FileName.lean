/-
# File names

Format descriptions are the files whose names end in `.ksy`.
-/
import KsyTools.Document.Basic
import KsyTools.Text.Basic

namespace KsyTools

namespace Ksy

/-- What the names of format descriptions end in. -/
def extension : String := ".ksy"

/-- Whether a name is that of a format description. -/
def isFileName (name : String) : Bool :=
  Text.hasEnding extension name

/-- Whether a path leads to a format description, judged by its last component. -/
def isFile (p : Path) : Bool :=
  isFileName p.name

/-- A text with the ending of format descriptions, added if it is not there. -/
def withExtension (text : String) : String :=
  if isFileName text then text else text ++ extension

end Ksy

/-- Whether a document is a format description, judged by its file or else by its name. -/
def Document.isKsy (d : Document) : Bool :=
  match d.file? with
  | some p => Ksy.isFile p
  | none => Ksy.isFile (Path.ofString d.name)

end KsyTools
