/-
# Paths

A path names a place in a file system by the way to it.  Empty components and `.` say nothing and
are left out; `..` is kept, because what it means depends on the links on the way.  A path starts
with no slash, with one, or with exactly two, which some systems treat apart.
-/
import KsyTools.Text.Basic
import KsyTools.Text.Lines

namespace KsyTools

/-- Where a path starts. -/
inductive PathRoot where
  /-- At some directory that the path does not name. -/
  | relative
  /-- At the root directory. -/
  | slash
  /-- At the root directory, named by two slashes. -/
  | doubleSlash
  deriving Repr, DecidableEq, Inhabited

/-- A path. -/
structure Path where
  root : PathRoot
  parts : List String
  deriving Repr, DecidableEq, Inhabited

/-- The slashes at the start of a path. -/
def PathRoot.text : PathRoot → String
  | .relative => ""
  | .slash => "/"
  | .doubleSlash => "//"

namespace Path

/-- The components of a text between slashes. -/
def components (cs : List Char) : List String :=
  ((Text.splitOnChar '/' cs).map String.ofList).filter fun part => part != "" && part != "."

/-- The start of a path: two slashes are kept, three and more count as one. -/
def rootOf (cs : List Char) : PathRoot :=
  match (cs.takeWhile (· == '/')).length with
  | 0 => .relative
  | 2 => .doubleSlash
  | _ => .slash

/-- Reads a path. -/
def ofString (s : String) : Path :=
  ⟨rootOf s.toList, components s.toList⟩

/-- The text of a path; a path without components stands for the directory it starts at. -/
def toString (p : Path) : String :=
  if p.root = .relative ∧ p.parts = [] then "."
  else p.root.text ++ "/".intercalate p.parts

/-- The last component, or nothing. -/
def name (p : Path) : String :=
  p.parts.getLastD ""

/-- The path without its last component. -/
def parent (p : Path) : Path :=
  { p with parts := p.parts.dropLast }

/-- Whether a path does not depend on a current directory. -/
def isAbsolute (p : Path) : Bool :=
  p.root != .relative

/-- The path `q`, taken from the directory `p`. -/
def join (p q : Path) : Path :=
  if q.isAbsolute then q else ⟨p.root, p.parts ++ q.parts⟩

/-- A path one component longer. -/
def child (p : Path) (name : String) : Path :=
  { p with parts := p.parts ++ [name] }

/-- The components that are left when every `..` takes away the component before it; `kept` are
those before, nearest first. -/
def dropDots (kept : List String) : List String → List String
  | [] => kept.reverse
  | part :: rest => if part = ".." then dropDots kept.tail rest else dropDots (part :: kept) rest

/-- The absolute path that a path stands for in a directory, without looking at any files. -/
def absolute (cwd p : Path) : Path :=
  let q := cwd.join p
  ⟨q.root, dropDots [] q.parts⟩

/-- The components of a path with its start, by which paths are ordered. -/
def sortKey (p : Path) : List String :=
  (if p.root = .relative then [] else [p.root.text]) ++ p.parts

/-- The order of paths, component by component. -/
def le (p q : Path) : Bool :=
  Text.listAtMost p.sortKey q.sortKey

end Path

end KsyTools
