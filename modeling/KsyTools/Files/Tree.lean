/-
# File trees

A file system as a value: directories with named entries, files with their content and the time of
their last change, pipes, and symbolic links.  Paths are followed as POSIX says: links are followed
on the way, and `..` leads to the directory that was really reached.
-/
import KsyTools.Files.Error
import KsyTools.Keyed
import KsyTools.Path.Basic
import KsyTools.Text.Basic

namespace KsyTools

/-- What a name in a directory stands for. -/
inductive Entry where
  | file (content : List UInt8) (changed : Nat)
  | directory (entries : List (String × Entry))
  | pipe
  | link (target : String)
  deriving Repr, Inhabited

namespace Entry

/-- The entries of a directory. -/
def entries : Entry → List (String × Entry)
  | .directory es => es
  | _ => []

/-- The entry with a name in a directory. -/
def child? (e : Entry) (name : String) : Option Entry :=
  e.entries.lookup name

/-- The entry at the end of a way of names, no links followed. -/
def at? (e : Entry) : List String → Option Entry
  | [] => some e
  | name :: rest => (e.child? name).bind fun c => c.at? rest

/-- Whether a way of names leads through a file, which has nothing inside it. -/
def crossesFile (e : Entry) : List String → Bool
  | [] => false
  | name :: rest =>
    match e.child? name with
    | some (.file ..) => !rest.isEmpty
    | some c => c.crossesFile rest
    | none => false

/-- Whether an entry is a directory. -/
def isDirectory : Entry → Bool
  | .directory _ => true
  | _ => false

/-- Whether an entry is a file. -/
def isFile : Entry → Bool
  | .file .. => true
  | _ => false

/-- Puts an entry at the end of a way of names; missing directories are made. -/
def put (e : Entry) (way : List String) (new : Entry) : Entry :=
  match way with
  | [] => new
  | name :: rest =>
    let below := (e.child? name).getD (.directory [])
    .directory (Keyed.set e.entries name (below.put rest new))

/-- Removes the entry at the end of a way of names. -/
def remove (e : Entry) : List String → Entry
  | [] => e
  | [name] => .directory (Keyed.erase e.entries name)
  | name :: rest =>
    match e.child? name with
    | some below => .directory (Keyed.set e.entries name (below.remove rest))
    | none => e

mutual

/-- The ways to all entries below an entry, directories entered, links not. -/
def waysBelow : Entry → List (List String)
  | .directory es => waysBelowAll es
  | _ => []

/-- The ways to entries and to all entries below them. -/
def waysBelowAll : List (String × Entry) → List (List String)
  | [] => []
  | (name, e) :: rest =>
    ([name] :: (waysBelow e).map fun way => name :: way) ++ waysBelowAll rest

end

end Entry

/-- A file system: the root directory, the current directory, and the time of the next change. -/
structure FileTree where
  root : Entry
  cwd : Path
  now : Nat
  deriving Repr, Inhabited

namespace FileTree

/-- The most bytes that a name can have. -/
def maxName : Nat := 255

/-- The most bytes that a path can have, with the mark of its end. -/
def maxPath : Nat := 4096

/-- The most links that are followed on one way. -/
def maxLinks : Nat := 40

/-- The way of names that a link stands for.  A `.`, and a slash at the end, ask for a directory. -/
def linkWay (target : String) : List String :=
  let names := (Text.splitOnChar '/' target.toList).map String.ofList
  names.filter (· != "") ++ if names.getLastD "" = "" then ["."] else []

/-- Follows a way of names from a directory, given by its own way, nearest name first.  Gives the
way to what was reached, nearest name first, and what it is. -/
def followFrom (root : Entry) (links : Nat) (here : List String) (way : List String) :
    Except FileFault (List String × Entry) :=
  match way with
  | [] =>
    match root.at? here.reverse with
    | some e => .ok (here, e)
    | none => .error .notFound
  | name :: rest =>
    match root.at? here.reverse with
    | none => .error .notFound
    | some dir =>
      if !dir.isDirectory then .error .notDirectory
      else if name = "." then followFrom root links here rest
      else if name = ".." then followFrom root links here.tail rest
      else if maxName < name.utf8ByteSize then .error .nameTooLong
      else
        match dir.child? name with
        | none => .error .notFound
        | some (.link target) =>
          match links with
          | 0 => .error .tooManyLinks
          | links + 1 =>
            let start := if (Path.ofString target).isAbsolute then [] else here
            if target = "" then .error .notFound
            else followFrom root links start (linkWay target ++ rest)
        | some _ => followFrom root links (name :: here) rest
  termination_by (links, way.length)

/-- The absolute form of a path, `..` kept. -/
def fromRoot (t : FileTree) (p : Path) : Path :=
  t.cwd.join p

/-- What is at a path, and the way to it. -/
def find (t : FileTree) (p : Path) : Except FileFault (List String × Entry) :=
  if maxPath ≤ p.toString.utf8ByteSize then .error .nameTooLong
  else
    (followFrom t.root maxLinks [] (t.fromRoot p).parts).map fun (way, e) => (way.reverse, e)

/-- Whether a path has a NUL character. -/
def hasNull (p : Path) : Bool :=
  p.parts.any fun part => part.toList.contains '\x00'

/-- What is at a path. -/
def stat (t : FileTree) (p : Path) : Except FileError Entry :=
  if hasNull p then .error .nullCharacter
  else
    match t.find p with
    | .ok (_, e) => .ok e
    | .error fault => .error (.failed fault p.toString)

/-- Answers a question about what is at a path, with `false` where nothing is. -/
def ask (t : FileTree) (p : Path) (question : Entry → Bool) : Except FileError Bool :=
  match t.stat p with
  | .ok e => .ok (question e)
  | .error (.failed fault path) =>
    if fault.meansAbsent then .ok false else .error (.failed fault path)
  | .error .nullCharacter => .ok false
  | .error e => .error e

/-- Whether something is at a path. -/
def exists? (t : FileTree) (p : Path) : Except FileError Bool :=
  t.ask p fun _ => true

/-- Whether a file is at a path. -/
def isFile (t : FileTree) (p : Path) : Except FileError Bool :=
  t.ask p Entry.isFile

/-- Whether a directory is at a path. -/
def isDirectory (t : FileTree) (p : Path) : Except FileError Bool :=
  t.ask p Entry.isDirectory

/-- The text of what was found under a name, with line feeds as its only line breaks. -/
def textOf (name : String) (found : Except FileFault Entry) : Except FileError String :=
  match found with
  | .error fault => .error (.failed fault name)
  | .ok (.directory _) => .error (.failed .isDirectory name)
  | .ok (.file content _) =>
    match Text.decodeUtf8 content with
    | .ok text => .ok (String.ofList (Text.unifyNewlines text.toList))
    | .error e => .error (.encoding e)
  | .ok _ => .ok ""

/-- The text of a file, with line feeds as its only line breaks. -/
def readText (t : FileTree) (p : Path) : Except FileError String :=
  if hasNull p then .error .nullCharacter
  else textOf p.toString ((t.find p).map Prod.snd)

/-- The text of the file that a path leads to as it is written, where every `.` and a slash at the
end ask for a directory. -/
def readTextAt (t : FileTree) (name : String) : Except FileError String :=
  if name.toList.contains '\x00' then .error .nullCharacter
  else if name = "" then .error (.failed .notFound name)
  else if maxPath ≤ name.utf8ByteSize then .error (.failed .nameTooLong name)
  else
    let start := if (Path.ofString name).isAbsolute then [] else t.cwd.parts
    textOf name ((followFrom t.root maxLinks [] (start ++ linkWay name)).map Prod.snd)

/-! ## Canonical paths -/

/-- The links that were met on a way: where each leads, unless that is still being found out. -/
abbrev SeenLinks := List (List String × Option (List String))

/-- The entry at a way that has no links on it but perhaps the last name. -/
def linkTarget? (root : Entry) (way : List String) : Option String :=
  match root.at? way.reverse with
  | some (.link target) => some target
  | _ => none

/-- Follows all links on a way of names as far as there are any; names that do not exist are kept.
Ways are given nearest name first.  The result says whether the end was reached; if not, a link
leads to itself, and the rest of the way is kept as it is.  At most `depth` links are followed
inside each other. -/
def canonicalFrom (root : Entry) (depth : Nat) (seen : SeenLinks) (here : List String)
    (way : List String) : List String × Bool × SeenLinks :=
  match way with
  | [] => (here, true, seen)
  | name :: rest =>
    if name = "." then canonicalFrom root depth seen here rest
    else if name = ".." then canonicalFrom root depth seen here.tail rest
    else
      let next := name :: here
      match linkTarget? root next with
      | none => canonicalFrom root depth seen next rest
      | some target =>
        match seen.lookup next with
        | some (some known) => canonicalFrom root depth seen known rest
        | some none => (rest.reverse ++ next, false, seen)
        | none =>
          match depth with
          | 0 => (rest.reverse ++ next, false, seen)
          | inner + 1 =>
            let p := Path.ofString target
            let start := if p.isAbsolute then [] else here
            match canonicalFrom root inner ((next, none) :: seen) start p.parts with
            | (reached, false, seen) => (rest.reverse ++ reached, false, seen)
            | (reached, true, seen) =>
              canonicalFrom root (inner + 1) ((next, some reached) :: seen) reached rest
  termination_by (depth, way.length)

/-- The path without links that a path leads to; where it leads nowhere, what is missing is kept.
No more links than there are entries can be followed inside each other. -/
def canonical (t : FileTree) (p : Path) : Except FileError Path :=
  if hasNull p then .error .nullCharacter
  else
    let (way, _, _) := canonicalFrom t.root t.root.waysBelow.length [] [] (t.fromRoot p).parts
    .ok ⟨.slash, Path.dropDots [] way.reverse⟩

/-! ## Listing -/

/-- Names in the order of their characters. -/
def sortNames (es : List (String × Entry)) : List (String × Entry) :=
  es.mergeSort fun a b => decide (a.1 ≤ b.1)

/-- The entries of a directory, in the order of their names. -/
def list (t : FileTree) (p : Path) : Except FileError (List String) :=
  if hasNull p then .error .nullCharacter
  else
    match t.find p with
    | .error fault => .error (.failed fault p.toString)
    | .ok (_, .directory es) => .ok ((sortNames es).map Prod.fst)
    | .ok (_, _) => .error (.failed .notDirectory p.toString)

/-- The paths of all entries below a directory whose names end in `ending`, in the order of paths.
There are none below anything else. -/
def below (t : FileTree) (p : Path) (ending : String) : List Path :=
  match t.find p with
  | .ok (_, e) =>
    let ways := e.waysBelow.filter fun way => Text.hasEnding ending (way.getLastD "")
    (ways.map fun way => { p with parts := p.parts ++ way }).mergeSort Path.le
  | .error _ => []

/-! ## Changes -/

/-- Writes a file, with the directories on the way to it.  Its time of change is new, unless the
file is there already and its time is to be kept. -/
def write (t : FileTree) (p : Path) (content : List UInt8) (keepTime : Bool) :
    Except FileError FileTree := do
  let way := (← t.canonical p).parts
  if way.any fun name => maxName < name.utf8ByteSize then
    throw (.failed .nameTooLong p.toString)
  if t.root.crossesFile way then throw (.failed .notDirectory p.toString)
  let changed ←
    match keepTime, t.root.at? way with
    | _, some (.directory _) => throw (.failed .isDirectory p.toString)
    | true, some (.file _ changed) => pure changed
    | _, _ => pure t.now
  return { t with root := t.root.put way (.file content changed), now := t.now + 1 }

/-- Removes a file, a pipe or a link; what a link leads to stays. -/
def delete (t : FileTree) (p : Path) : Except FileError FileTree := do
  let (above, _) ← (t.find p.parent).mapError fun fault => .failed fault p.toString
  let way := above ++ [p.name]
  match t.root.at? way with
  | none => throw (.failed .notFound p.toString)
  | some (.directory _) => throw (.failed .isDirectory p.toString)
  | some _ => return { t with root := t.root.remove way }

end FileTree

end KsyTools
