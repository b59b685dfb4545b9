/-
# Events

What a client tells the server, and what the server does then.  Every text that the client opens,
changes or saves is parsed, indexed and checked, and the diagnostics are sent back.  When a file is
saved, closed or changed on disk, the open documents that import it are checked again.
-/
import KsyTools.Server.Workspace

namespace KsyTools

/-- What has happened to a file on disk. -/
inductive FileChange where
  | created
  | changed
  | deleted
  deriving Repr, DecidableEq

/-- What a client tells the server. -/
inductive Event where
  /-- The client has connected; folders come before a single root. -/
  | connected (root? : Option String) (folders : List String)
  | opened (uri text : String)
  | edited (uri text : String)
  /-- A document was saved; the client may send its text along. -/
  | saved (uri : String) (text? : Option String)
  | closed (uri : String)
  | filesChanged (changes : List (String × FileChange))
  deriving Repr, DecidableEq

namespace Serve

/-- The source of the log records about documents. -/
def documentLogSource : String := "server.document_processor"

/-- The source of the log records about events. -/
def eventLogSource : String := "server.base_server"

/-- The diagnostics of a document; if they cannot be found out there are none. -/
def diagnose (uri : String) (d : Document) : Serve (List Diagnostic) := do
  try work (Diagnostic.all d)
  catch failure =>
    log (.warning documentLogSource s!"Error during validation {uri}: {failure.message}")
    pure []

/-- Sends diagnostics; that they could not be sent is only logged. -/
def tryPublish (uri : String) (diagnostics : List Diagnostic) : Serve Unit := do
  try
    log (.info documentLogSource s!"Publishing {diagnostics.length} diagnostics for {uri}")
    publish uri diagnostics
  catch failure =>
    log (.error documentLogSource s!"Failed to publish diagnostics {uri}: {failure.message}")

/-- Takes over the text of a document and sends its diagnostics.  Other files are left alone. -/
def process (uri text : String) (reindex : Bool) : Serve Unit := do
  let path := Path.ofString (← pathOf uri)
  if Ksy.isFile path then
    let d ← work (Work.answer fun t s => s.setOverlay t (some path) text)
    if reindex then updateIndex d.document
    tryPublish uri (← diagnose uri d.document)

/-- Goes back from the text of an editor to the file, and takes the diagnostics away. -/
def release (uri : String) : Serve Unit := do
  let text ← pathOf uri
  let path := Path.ofString text
  if Ksy.isFile path then
    work (Work.modifyStore fun t s => s.removeOverlay t path)
    match ← work (Work.getDocument path) with
    | some d => updateIndex d.document
    | none => unregister text
    publish uri []

/-- Checks a document again if it is open. -/
def recheck (p : Path) : Serve Unit := do
  let uri ← uriOf p
  match (← get).buffer? uri with
  | none => return
  | some text =>
    try process uri text false
    catch failure =>
      log (.error eventLogSource s!"Failed to revalidate {uri}: {failure.message}")

/-- Checks the open documents again that import a file. -/
def recheckDependents (uri : String) : Serve Unit := do
  let path ← pathOf uri
  let s ← get
  (s.index.dependents (← read) (Path.ofString path)).forM recheck

/-- Forgets what is kept for a file. -/
def invalidate (uri : String) : Serve Unit := do
  let path ← pathOf uri
  work (Work.modifyStore fun t s => s.invalidate t (Path.ofString path))

/-- Follows a change of a file on disk. -/
def fileChanged (uri : String) (change : FileChange) : Serve Unit := do
  invalidate uri
  let path ← pathOf uri
  match change with
  | .deleted => unregister path
  | _ =>
    match ← work (Work.getDocument (Path.ofString path)) with
    | some d => updateIndex d.document
    | none => pure ()
  recheckDependents uri

/-- Does what an event asks for. -/
def handle : Event → Serve Unit
  | .connected root? folders => do
    log (.info eventLogSource "Initializing Kaitai Struct Language Server")
    match folders, root? with
    | [], none => return
    | [], some root => if root != "" then indexFolder root
    | folders, _ => folders.forM indexFolder
  | .opened uri text => do
    -- a document that cannot be anywhere is not opened at all
    let _ ← pathOf uri
    modify fun s => s.setBuffer uri text
    process uri text true
  | .edited uri text => do
    if ((← get).buffer? uri).isNone then throw (.notOpen uri)
    modify fun s => s.setBuffer uri text
    process uri text true
  | .saved uri text? => do
    invalidate uri
    match text? with
    | some text => process uri text true
    | none => pure ()
    recheckDependents uri
  | .closed uri => do
    modify fun s => s.removeBuffer uri
    release uri
    recheckDependents uri
  | .filesChanged changes => changes.forM fun (uri, change) => fileChanged uri change

end Serve

end KsyTools
