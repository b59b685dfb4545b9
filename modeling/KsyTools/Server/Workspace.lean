/-
# Keeping the import index

The index is filled when a client connects and follows the documents from then on.
-/
import KsyTools.Lint.Search
import KsyTools.Server.Basic

namespace KsyTools

namespace Serve

/-- The source of the log records about the index. -/
def indexLogSource : String := "server.workspace_index"

/-- Takes the imports of a document into the index. -/
def updateIndex (d : Document) : Serve Unit := do
  match d.file? with
  | none => return
  | some file =>
    match (← read).indexKey? file with
    | none => return
    | some key =>
      let includes ← work (Ksy.includes d)
      modify fun s => { s with index := s.index.set key includes }
      log (.debug indexLogSource s!"Indexed {includes.length} includes of {file.toString}")

/-- Forgets the file at a path. -/
def unregister (path : String) : Serve Unit := do
  match (← read).indexKey? (Path.ofString path) with
  | none => return
  | some key =>
    if ((← get).index.get? key).isSome then
      modify fun s => { s with index := s.index.erase key }
      log (.info indexLogSource s!"Unregistered schema file: {path}")

/-- Takes the imports of a file into the index. -/
def indexFile (p : Path) : Serve Unit := do
  match ← work (Work.getDocument p) with
  | none => log (.warning indexLogSource s!"Failed to load {p.toString}")
  | some d => updateIndex d.document

/-- The format descriptions below a path, in the order of their paths. -/
def descriptionsBelow (t : FileTree) (p : Path) : Except FileError (List Path) := do
  if ← t.isDirectory p then Lint.filesBelow t p else return []

/-- Takes the imports of all descriptions of a folder into the index. -/
def indexFolder (uri : String) : Serve Unit := do
  let folder := Path.ofString (← pathOf uri)
  match descriptionsBelow (← read) folder with
  | .error e => throw (.file e)
  | .ok files =>
    files.forM indexFile
    log (.info indexLogSource
      s!"Indexed {(← get).index.entries.length} schema files in {folder.toString}")

end Serve

end KsyTools
