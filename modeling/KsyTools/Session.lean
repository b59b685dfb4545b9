/-
# Sessions

A session is what the tools remember from one step to the next: the documents, the schemas, and the
log.  The file tree is there to be read; no tool changes it.  What a step has changed stays changed
when it fails.
-/
import KsyTools.Schema.Cache
import KsyTools.Store.Basic

namespace KsyTools

/-- What is remembered between steps. -/
structure Session where
  store : DocumentStore
  schemas : SchemaCache
  /-- The file with the grammar, if it is not the built-in one. -/
  grammarFile? : Option Path
  log : List LogRecord
  deriving Inhabited

/-- The computations of the tools. -/
abbrev Work := ReaderT FileTree (ExceptT Failure (StateM Session))

namespace Session

/-- A session in which nothing has happened. -/
def start (cacheEnabled : Bool) (maxCacheSize : Int) (grammarFile? : Option Path) : Session :=
  ⟨.empty cacheEnabled maxCacheSize, .empty, grammarFile?, []⟩

/-- Runs a computation. -/
def run {α : Type} (s : Session) (t : FileTree) (work : Work α) : Except Failure α × Session :=
  ((work.run t).run).run s

end Session

namespace Work

/-- Adds log records. -/
def logAll (records : List LogRecord) : Work Unit :=
  modify fun s => { s with log := s.log ++ records }

/-- Adds a log record. -/
def log (record : LogRecord) : Work Unit :=
  logAll [record]

/-- Takes over what an operation of the store gives. -/
def answer {α : Type} (operation : FileTree → DocumentStore → DocumentStore.Answer α) :
    Work α := do
  let a := operation (← read) (← get).store
  modify fun s => { s with store := a.store }
  logAll a.log
  match a.result with
  | .ok x => return x
  | .error failure => throw failure

/-- Changes the store. -/
def modifyStore (change : FileTree → DocumentStore → DocumentStore) : Work Unit := do
  let t ← read
  modify fun s => { s with store := change t s.store }

/-- The document of a path. -/
def getDocument (p : Path) : Work (Option StoredDocument) :=
  answer fun t s => s.get t p

/-- The path itself, if a text can be had for it. -/
def findFile (p : Path) (shown : String) : Work (Option Path) := do
  let (found, records) := (← get).store.findFile (← read) p shown
  logAll records
  return found

/-- Parses a text that no store holds. -/
def parse (source : String) (file? : Option Path) (name? : Option String) :
    Work StoredDocument :=
  answer fun _ s =>
    match s.parse source file? name? with
    | .ok (d, s) => ⟨.ok d, s, d.document.parseLog⟩
    | .error failure => ⟨.error failure, s, []⟩

/-- Reads the document of a file, past the store. -/
def loadDocument (p : Path) : Work StoredDocument := do
  let t ← read
  match t.exists? p with
  | .error e => throw (.file e)
  | .ok false => throw (.document (.notFound p))
  | .ok true =>
    match t.isFile p with
    | .error e => throw (.file e)
    | .ok false => throw (.document (.notFile p))
    | .ok true =>
      log (.debug "models.parsing.yaml_parser" s!"Loading schema file: {p.toString}")
      match t.readText p with
      | .error e => throw (.document (.unreadable p e))
      | .ok content => parse content (some p) none

/-- The grammar that documents are checked against. -/
def grammar : Work Grammar := do
  let s ← get
  let (result, schemas) := s.schemas.grammar (← read) s.grammarFile?
  set { s with schemas }
  match result with
  | .ok g => return g
  | .error failure => throw failure

end Work

end KsyTools
