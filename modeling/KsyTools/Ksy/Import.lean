/-
# Imports

An import names another description by its path, relative to the file that imports it.  Where it
leads is a canonical path, whether or not there is a file.
-/
import KsyTools.Ksy.FileName
import KsyTools.Ksy.Structure
import KsyTools.Path.Drive
import KsyTools.Session

namespace KsyTools

namespace Ksy

/-- Whether a path does not depend on a directory, with or without a drive. -/
def isAbsoluteText (text : String) : Bool :=
  (Path.ofString text).isAbsolute || (DrivePath.ofString text).isAbsolute

/-- The canonical form of a path, and why it was only brought into normal form where links lead in
circles or the path is none. -/
def canonicalOrNormal (t : FileTree) (p : Path) : Path × Option String :=
  match t.canonical p with
  | .error e => (t.key p, some e.message)
  | .ok q =>
    match t.stat q with
    | .error (.failed .tooManyLinks path) =>
      (t.key p, some s!"Symlink loop from {Text.quote path}")
    | _ => (q, none)

/-- Where an import leads: a path with a drive as it is, any other path in canonical form; and why
that form could not be found. -/
def importPathNote (t : FileTree) (text : String) (directory? : Option Path) :
    String × Option String :=
  let full := withExtension text
  let written := Path.ofString full
  if isAbsoluteText full && !written.isAbsolute then ((DrivePath.ofString full).toString, none)
  else
    let (p, note) := canonicalOrNormal t ((directory?.getD t.cwd).join written)
    (p.toString, note)

/-- Where an import in a directory leads. -/
def importPath (t : FileTree) (text : String) (directory? : Option Path) : String :=
  (importPathNote t text directory?).1

/-- The source of the log records about imports. -/
def importLogSource : String := "kaitai.imports"

/-- Where an import in a document leads, with a log record where that could not be found out. -/
def computeImportPath (text : String) (d : Document) : Work String := do
  let (path, note) := importPathNote (← read) text d.directory?
  match note with
  | some reason =>
    Work.log (.debug importLogSource
      s!"Cannot canonicalize import path {Text.quote (withExtension text)}: {reason}")
  | none => pure ()
  return path

/-- An import and what it leads to. -/
structure ResolvedImport where
  path : String
  target? : Option StoredDocument

/-- Finds the document that an import leads to. -/
def resolveImport (text : String) (d : Document) : Work ResolvedImport := do
  let path ← computeImportPath text d
  let p := Path.ofString path
  let target? ←
    match ← Work.findFile p (Text.quote path) with
    | some _ => Work.getDocument p
    | none => pure none
  if target?.isNone then
    Work.log (.debug importLogSource
      s!"Import '{text}' in {d.name} does not resolve ({path})")
  return ⟨path, target?⟩

/-- An import of a document: where it leads, how it is written, and where that stands. -/
structure Include where
  path : String
  text : String
  range : TextRange
  deriving Repr, DecidableEq

/-- The imports of a document, in the order of the text; there are none in other files. -/
def includes (d : Document) : Work (List Include) := do
  if !d.isKsy then return []
  (d.walk.filter Located.isImport).mapM fun l => do
    let path ← computeImportPath l.node.text d
    return ⟨path, l.node.text, l.node.range⟩

end Ksy

end KsyTools
