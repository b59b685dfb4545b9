/-
# The import index

A server keeps the imports of all descriptions of its workspace, so that it can tell which of them
depend on a file that has changed.  Files are known by their canonical paths.
-/
import KsyTools.Ksy.Import

namespace KsyTools

/-- The path by which the index knows a file; a path with a NUL character names none. -/
def FileTree.indexKey? (t : FileTree) (p : Path) : Option Path :=
  (t.canonical p).toOption

/-- The imports of files, in the order in which the files became known. -/
structure ImportIndex where
  entries : List (Path × List Ksy.Include)
  deriving Repr, DecidableEq, Inhabited

namespace ImportIndex

/-- No file is known. -/
def empty : ImportIndex :=
  ⟨[]⟩

/-- The imports of a file, if it is known. -/
def get? (i : ImportIndex) (key : Path) : Option (List Ksy.Include) :=
  i.entries.lookup key

/-- Sets the imports of a file; a known file keeps its place. -/
def set (i : ImportIndex) (key : Path) (includes : List Ksy.Include) : ImportIndex :=
  ⟨Keyed.set i.entries key includes⟩

/-- Forgets a file. -/
def erase (i : ImportIndex) (key : Path) : ImportIndex :=
  ⟨Keyed.erase i.entries key⟩

/-- The files that imports lead to, for each file of the index. -/
def targets (t : FileTree) (i : ImportIndex) : List (Path × List (Option Path)) :=
  i.entries.map fun e => (e.1, e.2.map fun x => t.indexKey? (Path.ofString x.path))

/-- A file of the index, and the files that its imports lead to. -/
abbrev Targets := Path × List (Option Path)

/-- Those files whose imports lead to a target. -/
def leadingTo (target : Option Path) (files : List Targets) : List Targets :=
  files.filter fun e => e.2.contains target

/-- Those files whose imports do not lead to a target. -/
def notLeadingTo (target : Option Path) (files : List Targets) : List Targets :=
  files.filter fun e => !e.2.contains target

/-- Every file either leads to a target or does not. -/
theorem length_leadingTo_add (target : Option Path) (files : List Targets) :
    (leadingTo target files).length + (notLeadingTo target files).length = files.length := by
  rw [List.length_eq_countP_add_countP (l := files) fun e => e.2.contains target]
  simp [leadingTo, notLeadingTo, List.countP_eq_length_filter]

/-- The files among `remaining` from which imports lead to one of `pending`, directly or through
others of `remaining`. -/
def importers (remaining : List Targets) (pending : List (Option Path)) : List Path :=
  match pending with
  | [] => []
  | target :: rest =>
    let found := (leadingTo target remaining).map Prod.fst
    found ++ importers (notLeadingTo target remaining) (found.map some ++ rest)
  termination_by remaining.length + pending.length
  decreasing_by
    have := length_leadingTo_add target remaining
    simp only [List.length_append, List.length_map, List.length_cons]
    omega

/-- The files that import a file, directly or through others, in the order of the texts of their
paths.  A file does not depend on itself. -/
def dependents (t : FileTree) (i : ImportIndex) (p : Path) : List Path :=
  let target := t.indexKey? p
  let others := (i.targets t).filter fun e => some e.1 != target
  (importers others [target]).mergeSort fun a b => decide (a.toString ≤ b.toString)

end ImportIndex

end KsyTools
