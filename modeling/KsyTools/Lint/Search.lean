/-
# Finding files to lint

Files are taken as they are named, directories are searched for format descriptions.
-/
import KsyTools.Failure
import KsyTools.Files.Tree
import KsyTools.Ksy.FileName

namespace KsyTools

namespace Lint

/-- What is found at one path: files, or a warning. -/
inductive Found where
  | files (paths : List Path)
  | warning (message : String)

/-- The format descriptions below a directory. -/
def filesBelow (t : FileTree) (p : Path) : Except FileError (List Path) :=
  (t.below p Ksy.extension).filterM t.isFile

/-- What is found at a path. -/
def findAt (t : FileTree) (p : Path) : Except FileError Found := do
  if !(← t.exists? p) then return .warning s!"Warning: Path does not exist: {p.toString}"
  if ← t.isFile p then
    if Ksy.isFile p then return .files [p]
    return .warning s!"Warning: Not a Kaitai Struct file: {p.toString}"
  if ← t.isDirectory p then return .files (← filesBelow t p)
  return .warning s!"Warning: Path is neither file nor directory: {p.toString}"

/-- Paths in order, each once. -/
def sortPaths (paths : List Path) : List Path :=
  paths.eraseDups.mergeSort Path.le

/-- What is found at several paths: the warnings, and the files in the order of their paths. -/
structure Search where
  warnings : List String
  result : Except FileError (List Path)

/-- Goes through paths, with what was found before. -/
def searchFrom (t : FileTree) (warnings : List String) (files : List Path) : List Path → Search
  | [] => ⟨warnings, .ok (sortPaths files)⟩
  | p :: rest =>
    match findAt t p with
    | .error e => ⟨warnings, .error e⟩
    | .ok (.files found) => searchFrom t warnings (files ++ found) rest
    | .ok (.warning message) => searchFrom t (warnings ++ [message]) files rest

/-- Finds the format descriptions at paths. -/
def search (t : FileTree) (paths : List Path) : Search :=
  searchFrom t [] [] paths

end Lint

end KsyTools
