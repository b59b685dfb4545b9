/-
# The language server

The state of a server: the documents and the log of its session, the import index of its workspace,
the buffers that its client has open, and the diagnostics that it has sent.
-/
import KsyTools.Server.Diagnostic
import KsyTools.Server.FileUri
import KsyTools.Server.ImportIndex

namespace KsyTools

/-- Diagnostics that were sent for a document. -/
structure Publication where
  uri : String
  diagnostics : List Diagnostic
  deriving Repr, DecidableEq

/-- The state of a server. -/
structure Server where
  session : Session
  index : ImportIndex
  /-- The texts of the open documents, by their URIs. -/
  buffers : List (String × String)
  published : List Publication
  /-- Whether the client can be reached. -/
  connected : Bool
  deriving Inhabited

/-- The computations of a server. -/
abbrev Serve := ReaderT FileTree (ExceptT Failure (StateM Server))

namespace Server

/-- A server that no client has talked to. -/
def start (session : Session) : Server :=
  ⟨session, .empty, [], [], true⟩

/-- Runs a computation. -/
def run {α : Type} (s : Server) (t : FileTree) (serve : Serve α) : Except Failure α × Server :=
  ((serve.run t).run).run s

/-- The text of an open document. -/
def buffer? (s : Server) (uri : String) : Option String :=
  s.buffers.lookup uri

/-- Sets the text of a document; an open one keeps its place. -/
def setBuffer (s : Server) (uri text : String) : Server :=
  { s with buffers := Keyed.set s.buffers uri text }

/-- Closes a document. -/
def removeBuffer (s : Server) (uri : String) : Server :=
  { s with buffers := Keyed.erase s.buffers uri }

end Server

namespace Serve

/-- Does something in the session of the server. -/
def work {α : Type} (w : Work α) : Serve α := do
  let s ← get
  let (result, session) := s.session.run (← read) w
  set { s with session }
  match result with
  | .ok a => return a
  | .error failure => throw failure

/-- Adds a log record. -/
def log (record : LogRecord) : Serve Unit :=
  work (Work.log record)

/-- The path of a URI. -/
def pathOf (uri : String) : Serve String :=
  match FileUri.toPath uri with
  | .ok path => return path
  | .error fault => throw (.address fault)

/-- The URI of a path. -/
def uriOf (p : Path) : Serve String :=
  match FileUri.ofPath p with
  | .ok uri => return uri
  | .error fault => throw (.address fault)

/-- Sends diagnostics to the client. -/
def publish (uri : String) (diagnostics : List Diagnostic) : Serve Unit := do
  if (← get).connected then
    modify fun s => { s with published := s.published ++ [⟨uri, diagnostics⟩] }
  else throw .disconnected

end Serve

end KsyTools
