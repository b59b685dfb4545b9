/-
# Completion of imports

While an import is being typed, the text is usually not well formed, so what is typed so far is
found by looking at lines only.  What can follow are the directories and descriptions in the
directory that the typed path leads to.
-/
import KsyTools.Ksy.Import
import KsyTools.Text.Word

namespace KsyTools.Ksy

open Text (isBlank)

/-! ## What is typed so far -/

/-- Characters of a path in a list in brackets. -/
def isFlowPathChar (c : Char) : Bool :=
  !isBlank c && c != ',' && c != '[' && c != ']'

/-- Characters of a path in a block list. -/
def isBlockPathChar (c : Char) : Bool :=
  !isBlank c && c != '#'

/-- The text in front of the cursor without a line feed at its end. -/
def dropFinalNewline (cs : List Char) : List Char :=
  if cs.getLast? = some '\n' then cs.dropLast else cs

/-- The ways to match the end of a text: up to its very end, or up to a line feed at its end. -/
def lineEnds (cs : List Char) : List (List Char) :=
  if cs.getLast? = some '\n' then [cs, cs.dropLast] else [cs]

/-- The path at the end of the inside of an open bracket, behind the last comma if there is one.
The inside has no closing bracket in front of that comma, and only blanks between it and the
path. -/
def flowPath? (inside : List Char) : Option (List Char) :=
  let path := (inside.reverse.takeWhile isFlowPathChar).reverse
  let front := Text.dropEndWhile isBlank (inside.take (inside.length - path.length))
  match front.getLast? with
  | none => some path
  | some ',' => if front.contains ']' then none else some path
  | some _ => none

/-- The path in an open list in brackets behind an `imports` key that starts here. -/
def flowPathAfterKey? (cs : List Char) : Option (List Char) :=
  let key := importsKey.toList ++ [':']
  if key.isPrefixOf cs then
    match (cs.drop key.length).dropWhile isBlank with
    | '[' :: inside => (lineEnds inside).findSome? flowPath?
    | _ => none
  else none

/-- The path in the first open list in brackets behind an `imports` key, where such a key starts a
word; `before` is the character in front. -/
def flowSearch? (before : Option Char) : List Char → Option (List Char)
  | [] => none
  | c :: rest =>
    let here := if before.any Text.isWord then none else flowPathAfterKey? (c :: rest)
    match here with
    | some path => some path
    | none => flowSearch? (some c) rest

/-- Whether a text is only a hyphen, with blanks around it. -/
def isEmptyItem (cs : List Char) : Bool :=
  match cs.dropWhile isBlank with
  | '-' :: rest => rest.all isBlank
  | _ => false

/-- The path of an item in a block list: behind a hyphen and blanks, up to the end of the text. -/
def blockPath? (cs : List Char) : Option (List Char) :=
  match cs.dropWhile isBlank with
  | '-' :: rest =>
    let path := rest.dropWhile isBlank
    if path.length = rest.length then none
    else if (dropFinalNewline path).all isBlockPathChar then some (dropFinalNewline path)
    else none
  | _ => none

/-- Whether a line holds nothing but an `imports` key, perhaps as an item of a list, and a
comment. -/
def isImportsLine (cs : List Char) : Bool :=
  let bare := cs.dropWhile isBlank
  let bodies :=
    match bare with
    | '-' :: rest =>
      if rest.head?.any isBlank then [rest.dropWhile isBlank] else []
    | _ => [bare]
  bodies.any fun body =>
    let key := importsKey.toList ++ [':']
    key.isPrefixOf body &&
      (match (body.drop key.length).dropWhile isBlank with
        | [] => true
        | '#' :: comment => !(dropFinalNewline comment).contains '\n'
        | _ => false)

/-- Whether a line is an item of a block list. -/
def isItemLine (cs : List Char) : Bool :=
  match cs.dropWhile isBlank with
  | '-' :: rest => rest.isEmpty || rest.head?.any isBlank
  | _ => false

/-- Whether the lines above an item, nearest first, lead over other items, comments and blank lines
to an `imports` key. -/
def belongsToImports : List (List Char) → Bool
  | [] => false
  | line :: above =>
    let bare := Text.trim line
    if bare.isEmpty || bare.head? = some '#' then belongsToImports above
    else if isImportsLine line then true
    else if isItemLine line then belongsToImports above
    else false

/-- The part of an import path that is typed in front of the cursor. -/
def typedPath? (lines : List (List Char)) (line character : Int) : Option (List Char) :=
  match line with
  | .negSucc _ => none
  | .ofNat n =>
    match lines[n]? with
    | none => none
    | some text =>
      let before := Text.slice text 0 character
      match flowSearch? none before with
      | some path => some (Text.trim path)
      | none =>
        let typed? := if isEmptyItem before then some [] else blockPath? before
        match typed? with
        | none => none
        | some typed =>
          if belongsToImports (lines.take n).reverse then some (Text.trim typed) else none

/-! ## What can follow -/

/-- What an import can be completed to. -/
structure Candidate where
  label : String
  isDirectory : Bool
  deriving Repr, DecidableEq

/-- The directories and descriptions in a directory: the former with a slash, the latter without
their ending. -/
def children (t : FileTree) (directory : Path) : Except Failure (List Candidate × List LogRecord) :=
  match t.list directory with
  | .error e =>
    match e with
    | .failed .. =>
      .ok ([], [.debug "kaitai.completion" s!"Cannot list {directory.toString}: {e.message}"])
    | _ => .error (.file e)
  | .ok names => do
    let found ← names.mapM fun name =>
      match t.isDirectory (directory.child name) with
      | .error e => .error (.file e)
      | .ok true => .ok [Candidate.mk (name ++ "/") true]
      | .ok false =>
        if isFileName name then .ok [Candidate.mk (Text.dropEnd extension.length name) false]
        else .ok []
    return (found.flatten, [])

/-- The typed text up to, and with, its last slash. -/
def typedDirectory (typed : String) : String :=
  String.ofList (Text.dropEndWhile (· != '/') typed.toList)

/-- The directory whose entries can follow, if there is one. -/
def completionRoot? (t : FileTree) (typed : String) (directory : Path) : Option Path :=
  if typed = "" then some directory
  else
    let front := typedDirectory typed
    let root :=
      if isAbsoluteText typed then Path.ofString (if front = "" then typed else front)
      else directory.join (Path.ofString front)
    match t.exists? root with
    | .ok true =>
      match t.isDirectory root with
      | .ok true => some root
      | .ok false => some root.parent
      | .error _ => none
    | _ => none

/-- What a typed import path can be completed to in a document of a directory. -/
def completions (typed : String) (directory : Path) : Work (List Candidate) := do
  let t ← read
  match completionRoot? t typed directory with
  | none => return []
  | some root =>
    match children t root with
    | .error failure => throw failure
    | .ok (found, records) =>
      Work.logAll records
      return found.map fun c => { c with label := typedDirectory typed ++ c.label }

end KsyTools.Ksy
