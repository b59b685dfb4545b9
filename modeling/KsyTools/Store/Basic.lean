/-
# Document stores

A store hands out the documents of files.  The text that an editor holds for a file comes before
the file itself.  Documents of files are kept, up to a number of them, and used again as long as
the time of change and the size of the file stay the same; the one that was not asked for longest
is dropped first.
-/
import KsyTools.Document.Basic
import KsyTools.Failure
import KsyTools.Files.Tree
import KsyTools.Log

namespace KsyTools

/-- A document as a store holds it.  Documents that were parsed apart have different numbers. -/
structure StoredDocument where
  serial : Nat
  document : Document
  deriving Repr, Inhabited

/-- What tells two states of a file apart: the time of change and the size. -/
abbrev Signature := Nat × Nat

/-- A document that is kept for a file. -/
structure CacheEntry where
  key : Path
  signature : Signature
  stored : StoredDocument
  deriving Repr

/-- A document store. -/
structure DocumentStore where
  cacheEnabled : Bool
  maxCacheSize : Int
  /-- The documents that editors hold, by the normal form of their paths. -/
  overlays : List (Path × StoredDocument)
  /-- The documents kept for files, the one not asked for longest first. -/
  cache : List CacheEntry
  /-- The number of the next document. -/
  nextSerial : Nat
  deriving Repr, Inhabited

/-- The normal form of a path, by which documents are looked up. -/
def FileTree.key (t : FileTree) (p : Path) : Path :=
  Path.absolute t.cwd p

/-- The path by which a document is known: that of its file without links. -/
def FileTree.documentKey (t : FileTree) (p : Path) : Path :=
  match t.canonical p with
  | .ok q => q
  | .error _ => t.key p

/-- The signature of what is at a path. -/
def FileTree.signature? (t : FileTree) (p : Path) : Option Signature :=
  match t.stat p with
  | .ok (.file content changed) => some (changed, content.length)
  | .ok _ => some (0, 0)
  | .error _ => none

/-- What is logged about a document that was just parsed. -/
def Document.parseLog (d : Document) : List LogRecord :=
  match d.failure? with
  | none => []
  | some .tooDeep => []
  | some failure =>
    let name := if d.name = "" then "<buffer>" else d.name
    let message := Document.failureMessage d.chars failure
    [.debug "models.parsing.yaml_parser" s!"Failed to parse YAML {name}: {message}"]

namespace DocumentStore

/-- The source of the log records of stores. -/
def logSource : String := "models.document_store"

/-- A store without documents. -/
def empty (cacheEnabled : Bool) (maxCacheSize : Int) : DocumentStore :=
  ⟨cacheEnabled, maxCacheSize, [], [], 0⟩

/-- What an operation of a store gives: a result, the store afterwards, and log records. -/
structure Answer (α : Type) where
  result : Except Failure α
  store : DocumentStore
  log : List LogRecord

/-- Parses a text into a document with a number of its own. -/
def parse (s : DocumentStore) (source : String) (file? : Option Path) (name? : Option String) :
    Except Failure (StoredDocument × DocumentStore) :=
  match Document.parse source file? name? with
  | .ok d => .ok (⟨s.nextSerial, d⟩, { s with nextSerial := s.nextSerial + 1 })
  | .error fault => .error (.scalar fault)

/-- The document that an editor holds. -/
def overlay? (s : DocumentStore) (key : Path) : Option StoredDocument :=
  s.overlays.lookup key

/-- Takes over the text that an editor holds for a file.  Without a path the text is parsed only. -/
def setOverlay (t : FileTree) (s : DocumentStore) (path? : Option Path) (content : String) :
    Answer StoredDocument :=
  match s.parse content path? none with
  | .error failure => ⟨.error failure, s, []⟩
  | .ok (d, s) =>
    let s :=
      match path? with
      | some p => { s with overlays := Keyed.set s.overlays (t.key p) d }
      | none => s
    ⟨.ok d, s, d.document.parseLog⟩

/-- Forgets the text that an editor held for a file. -/
def removeOverlay (t : FileTree) (s : DocumentStore) (p : Path) : DocumentStore :=
  { s with overlays := Keyed.erase s.overlays (t.key p) }

/-- Whether an editor holds a text for a file. -/
def hasOverlay (t : FileTree) (s : DocumentStore) (p : Path) : Bool :=
  (s.overlay? (t.key p)).isSome

/-- The path itself, if an editor or a file has a text for it.  `shown` is how the path is written
in a log record. -/
def findFile (t : FileTree) (s : DocumentStore) (p : Path) (shown : String) :
    Option Path × List LogRecord :=
  if s.hasOverlay t p then (some p, [])
  else
    match t.isFile p with
    | .ok true => (some p, [])
    | .ok false => (none, [])
    | .error e => (none, [.debug logSource s!"Cannot look up {shown}: {e.message}"])

/-- The document kept for a file, if the file has not changed. -/
def cached? (s : DocumentStore) (key : Path) (signature : Signature) : Option StoredDocument :=
  if s.cacheEnabled then
    match s.cache.find? fun e => e.key == key with
    | some e => if e.signature = signature then some e.stored else none
    | none => none
  else none

/-- Moves the document kept for a file to the end of the order. -/
def touch (s : DocumentStore) (key : Path) : DocumentStore :=
  { s with
    cache := (s.cache.filter fun e => e.key != key) ++ s.cache.filter fun e => e.key == key }

/-- Keeps a document for a file, and drops others if there are too many. -/
def remember (s : DocumentStore) (entry : CacheEntry) : DocumentStore :=
  let cache := (s.cache.filter fun e => e.key != entry.key) ++ [entry]
  { s with cache := cache.drop (cache.length - s.maxCacheSize.toNat) }

/-- Reads and parses a file whose document is not kept. -/
def load (t : FileTree) (s : DocumentStore) (key : Path) (signature : Signature) :
    Answer (Option StoredDocument) :=
  match t.readText key with
  | .error e =>
    ⟨.ok none, s,
      [.debug logSource s!"Failed to read schema file {key.toString}: {e.message}"]⟩
  | .ok content =>
    match s.parse content (some key) none with
    | .error failure => ⟨.error failure, s, []⟩
    | .ok (d, s) =>
      if !s.cacheEnabled then ⟨.ok (some d), s, d.document.parseLog⟩
      else
        let s := s.remember ⟨key, signature, d⟩
        if s.maxCacheSize < 0 then ⟨.error .emptyCache, s, d.document.parseLog⟩
        else ⟨.ok (some d), s, d.document.parseLog⟩

/-- The document of a path, if there is one and it can be read. -/
def get (t : FileTree) (s : DocumentStore) (p : Path) : Answer (Option StoredDocument) :=
  let key := t.key p
  match s.overlay? key with
  | some d => ⟨.ok (some d), s, []⟩
  | none =>
    match t.signature? key with
    | none => ⟨.ok none, s, []⟩
    | some signature =>
      match s.cached? key signature with
      | some d =>
        ⟨.ok (some d), s.touch key,
          [.debug logSource s!"Loading schema from cache: {key.toString}"]⟩
      | none => s.load t key signature

/-- Forgets the document kept for a file. -/
def invalidate (t : FileTree) (s : DocumentStore) (p : Path) : DocumentStore :=
  { s with cache := s.cache.filter fun e => e.key != t.key p }

/-- Forgets all documents kept for files. -/
def clearCache (s : DocumentStore) : DocumentStore :=
  { s with cache := [] }

end DocumentStore

end KsyTools
